import SunWise.Qspi.Controller

/-!
# Serial flash driver

The functions of `drv_flash.c` over an arbitrary target on the bus.  `Flash_WaitFence`
polls the status register without a limit; the model is given a number of polls for each
fence and reports when they did not suffice.
-/

namespace SunWise.Flash

open Library Qspi

def flashSize : UInt32 := 16 * 1024 * 1024
def flashPageSize : UInt32 := 256

theorem flashSize_toNat : flashSize.toNat = 16777216 := rfl
theorem flashPageSize_toNat : flashPageSize.toNat = 256 := rfl

def flashCmdRead114 : UInt8 := 0x6B
def flashCmdPageProgram114 : UInt8 := 0x32
def flashCmdWriteEnable : UInt8 := 0x06
def flashCmdWinbondReadSr1 : UInt8 := 0x05

variable {Device : Type*} (bus : Bus Device)

/-- `Flash_WriteEnable`. -/
def flashWriteEnable (state : QspiState Device) : QspiState Device :=
  (hwQspiWriteBlock bus .eQspiModeStandard flashCmdWriteEnable none 0 none none 0
    state).2

/-- One read of the status register into the local variable `ui8Status`. -/
def flashReadStatus (state : QspiState Device) : UInt8 × QspiState Device :=
  let after := (hwQspiReadBlock bus .eQspiModeStandard flashCmdWinbondReadSr1 none 0
    none (some 0) 1 { state with rx := fun _ => 0 }).2
  (after.rx 0, { after with rx := state.rx })

/-- `Flash_WaitFence` with at most `polls` status reads, and whether it returns. -/
def flashWaitFence : Nat → QspiState Device → Bool × QspiState Device
  | 0, state => (false, state)
  | polls + 1, state =>
      let (ui8Status, state) := flashReadStatus bus state
      if ui8Status &&& 1 ≠ 0 then flashWaitFence polls state else (true, state)

/-- `Flash_ReadData`. -/
def flashReadData (addr : UInt32) (rxdata : Option Nat) (length : UInt32)
    (state : QspiState Device) : Int × QspiState Device :=
  if addr + length > flashSize ∨ rxdata = none ∨ length = 0 then (-1, state)
  else
    (0, (hwQspiReadBlock bus .eQspiModeQuadRx flashCmdRead114 (some addr) 3 none rxdata
      length.toNat state).2)

/-- The length of the next block, which ends with its page. -/
def blockLength (addr length : UInt32) : UInt32 :=
  let blockLength := flashPageSize - (addr &&& (flashPageSize - 1))
  if length > blockLength then blockLength else length

theorem blockLength_toNat (addr length : UInt32) :
    (blockLength addr length).toNat =
      min (256 - addr.toNat % 256) length.toNat := by
  have masked : (addr &&& (flashPageSize - 1)).toNat = addr.toNat % 256 :=
    Nat.and_two_pow_sub_one_eq_mod addr.toNat 8
  have small : addr.toNat % 256 < 256 := Nat.mod_lt _ (by decide)
  have room : (flashPageSize - (addr &&& (flashPageSize - 1))).toNat =
      256 - addr.toNat % 256 := by
    rw [UInt32.toNat_sub_of_le, masked, flashPageSize_toNat]
    rw [UInt32.le_iff_toNat_le, masked, flashPageSize_toNat]
    exact Nat.le_of_lt small
  simp only [blockLength]
  split
  next longer =>
    rw [gt_iff_lt, UInt32.lt_iff_toNat_lt, room] at longer
    rw [room]
    omega
  next shorter =>
    rw [gt_iff_lt, UInt32.lt_iff_toNat_lt, room] at shorter
    omega

theorem blockLength_pos (addr : UInt32) {length : UInt32} (more : length ≠ 0) :
    0 < (blockLength addr length).toNat := by
  have positive : 0 < length.toNat := by
    apply Nat.pos_of_ne_zero
    intro isZero
    exact more (UInt32.toNat_inj.mp isZero)
  rw [blockLength_toNat]
  omega

theorem blockLength_le (addr length : UInt32) :
    (blockLength addr length).toNat ≤ length.toNat := by
  rw [blockLength_toNat]
  exact Nat.min_le_right _ _

theorem sub_blockLength_toNat (addr length : UInt32) :
    (length - blockLength addr length).toNat =
      length.toNat - (blockLength addr length).toNat :=
  UInt32.toNat_sub_of_le _ _ (UInt32.le_iff_toNat_le.mpr (blockLength_le addr length))

/-- One turn of the loop of `Flash_ProgramData`, and whether its fence has ended. -/
def programBlock (polls : Nat) (txdata : Nat → UInt8) (addr : UInt32) (offset : Nat)
    (length : UInt32) (state : QspiState Device) : Bool × QspiState Device :=
  let state := flashWriteEnable bus state
  let state := (hwQspiWriteBlock bus .eQspiModeQuadTx flashCmdPageProgram114 (some addr) 3
    (bufferFrom (some txdata) offset) none (blockLength addr length).toNat state).2
  flashWaitFence bus polls state

/-- The loop of `Flash_ProgramData`. -/
def programLoop (polls : Nat) (txdata : Nat → UInt8) (addr : UInt32) (offset : Nat)
    (length : UInt32) (state : QspiState Device) : Option Int × QspiState Device :=
  if _more : length = 0 then (some 0, state)
  else
    let (ready, state) := programBlock bus polls txdata addr offset length state
    if ready then
      programLoop polls txdata (addr + blockLength addr length)
        (offset + (blockLength addr length).toNat)
        (length - blockLength addr length) state
    else (none, state)
termination_by length.toNat
decreasing_by
  have shorter := blockLength_pos addr _more
  have fits := blockLength_le addr length
  rw [sub_blockLength_toNat]
  omega

/-- `Flash_ProgramData`. The result is `none` while a fence is still waiting. -/
def flashProgramData (polls : Nat) (addr : UInt32) (txdata : Option (Nat → UInt8))
    (length : UInt32) (state : QspiState Device) : Option Int × QspiState Device :=
  match txdata with
  | none => (some (-1), state)
  | some bytes =>
      if addr + length > flashSize ∨ length = 0 then (some (-1), state)
      else programLoop bus polls bytes addr 0 length state

end SunWise.Flash
