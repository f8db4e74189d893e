import SunWise.Flash.Driver

/-!
# Address guard

`Flash_ReadData` and `Flash_ProgramData` compare `addr + length` with the size of the
flash in 32-bit arithmetic.  The comparison is the intended one unless the sum wraps
around to a value inside the flash.
-/

namespace SunWise.Flash

open Library Qspi

/-- The flash bytes that a command addresses. -/
def addressed (transaction : Transaction) : List Nat :=
  match transaction.pushes with
  | cmd :: addr :: data =>
      if cmd = flashCmdPageProgram114.toUInt32 then
        (List.range data.length).map (addr.toNat + ·)
      else if cmd = flashCmdRead114.toUInt32 then
        (List.range (transaction.ctrlr1 + 1)).map (addr.toNat + ·)
      else []
  | _ => []

/-- A command that addresses bytes of a range only. -/
def Within (low high : Nat) (transaction : Transaction) : Prop :=
  ∀ address ∈ addressed transaction, low ≤ address ∧ address < high

/-- The request is one that the flash can serve. -/
def InRange (pointer : Bool) (addr length : UInt32) : Prop :=
  pointer = true ∧ 0 < length.toNat ∧ addr.toNat + length.toNat ≤ flashSize.toNat

/-- The sum of address and length wraps around to a value inside the flash. -/
def WrapsInside (addr length : UInt32) : Prop :=
  2 ^ 32 ≤ addr.toNat + length.toNat ∧
    addr.toNat + length.toNat - 2 ^ 32 ≤ flashSize.toNat

/-- What the guard of a call promises. -/
structure Guarded {Device : Type*} (inRange rejected : Prop)
    (before after : QspiState Device) : Prop where
  accepts_iff : ¬rejected ↔ inRange
  untouched : rejected → after = before
  bounded : ¬rejected → Sends (Within 0 flashSize.toNat) before after

section Commands

variable {Device : Type*} (bus : Bus Device)

theorem flashWriteEnable_sends (low high : Nat) (state : QspiState Device) :
    Sends (Within low high) state (flashWriteEnable bus state) := by
  refine ⟨_, hwQspiBlock_sent bus .eQspiModeStandard .eQspiDirWrite flashCmdWriteEnable
    none 0 none none 0 state, ?_⟩
  intro transaction isSent
  rcases List.mem_singleton.mp isSent with rfl
  intro address isAddressed
  cases isAddressed

theorem flashReadStatus_sends (low high : Nat) (state : QspiState Device) :
    Sends (Within low high) state (flashReadStatus bus state).2 := by
  refine ⟨_, hwQspiBlock_sent bus .eQspiModeStandard .eQspiDirRead
    flashCmdWinbondReadSr1 none 0 none (some 0) 1 { state with rx := fun _ => 0 }, ?_⟩
  intro transaction isSent
  rcases List.mem_singleton.mp isSent with rfl
  intro address isAddressed
  cases isAddressed

theorem flashWaitFence_sends (low high polls : Nat) (state : QspiState Device) :
    Sends (Within low high) state (flashWaitFence bus polls state).2 := by
  induction polls generalizing state with
  | zero => exact Sends.refl state
  | succ polls ih =>
      have polled := flashReadStatus_sends bus low high state
      simp only [flashWaitFence]
      split
      · exact polled.trans (ih _)
      · exact polled

theorem read_sends {addr : UInt32} {dataLen : Nat} (rxbuf : Option Nat)
    (positive : 0 < dataLen) (fits : addr.toNat + dataLen < 2 ^ 32)
    (state : QspiState Device) :
    Sends (Within addr.toNat (addr.toNat + dataLen)) state
      (hwQspiReadBlock bus .eQspiModeQuadRx flashCmdRead114 (some addr) 3 none rxbuf
        dataLen state).2 := by
  refine ⟨_, hwQspiBlock_sent bus .eQspiModeQuadRx .eQspiDirRead flashCmdRead114
    (some addr) 3 none rxbuf dataLen state, ?_⟩
  intro transaction isSent
  rcases List.mem_map.mp isSent with ⟨chunk, isChunk, rfl⟩
  rcases chunk_bounds isChunk with ⟨inside, nonempty⟩
  have count := nonempty positive
  have start : (chunkAddr (some addr) chunk.1).toNat = addr.toNat + chunk.1 :=
    chunkAddr_toNat addr (by omega)
  intro address isAddressed
  rcases List.mem_map.mp isAddressed with ⟨index, below, rfl⟩
  have last : index < chunk.2 - 1 + 1 := by
    simpa [chunkTransaction, qspiTransaction, qspiCtrlr1, count] using below
  change addr.toNat ≤ (chunkAddr (some addr) chunk.1).toNat + index ∧
    (chunkAddr (some addr) chunk.1).toNat + index < _
  rw [start]
  omega

theorem program_sends (addr : UInt32) {dataLen : Nat} (txbuf : Option (Nat → UInt8))
    (fits : addr.toNat + dataLen < 2 ^ 32) (state : QspiState Device) :
    Sends (Within addr.toNat (addr.toNat + dataLen)) state
      (hwQspiWriteBlock bus .eQspiModeQuadTx flashCmdPageProgram114 (some addr) 3 txbuf
        none dataLen state).2 := by
  refine ⟨_, hwQspiBlock_sent bus .eQspiModeQuadTx .eQspiDirWrite flashCmdPageProgram114
    (some addr) 3 txbuf none dataLen state, ?_⟩
  intro transaction isSent
  rcases List.mem_map.mp isSent with ⟨chunk, isChunk, rfl⟩
  rcases chunk_bounds isChunk with ⟨inside, -⟩
  have start : (chunkAddr (some addr) chunk.1).toNat = addr.toNat + chunk.1 :=
    chunkAddr_toNat addr (by omega)
  intro address isAddressed
  rcases List.mem_map.mp isAddressed with ⟨index, below, rfl⟩
  have last : index < chunk.2 := by
    have length := List.mem_range.mp below
    cases txbuf with
    | none => simp [dataPushes, bufferFrom] at length
    | some bytes => simpa [dataPushes, bufferFrom] using length
  change addr.toNat ≤ (chunkAddr (some addr) chunk.1).toNat + index ∧
    (chunkAddr (some addr) chunk.1).toNat + index < _
  rw [start]
  omega

theorem Within.mono {low high low' high' : Nat} (lower : low' ≤ low)
    (higher : high ≤ high') {first second : QspiState Device}
    (sends : Sends (Within low high) first second) :
    Sends (Within low' high') first second := by
  rcases sends with ⟨sent, extends_, within⟩
  refine ⟨sent, extends_, ?_⟩
  intro transaction isSent address isAddressed
  have bounds := within transaction isSent address isAddressed
  omega

theorem programBlock_sends (polls : Nat) (txdata : Nat → UInt8) (addr : UInt32)
    (offset : Nat) (length : UInt32) (state : QspiState Device)
    (fits : addr.toNat + length.toNat < 2 ^ 32) :
    Sends (Within addr.toNat (addr.toNat + length.toNat)) state
      (programBlock bus polls txdata addr offset length state).2 := by
  have shorter := blockLength_le addr length
  have below : addr.toNat + (blockLength addr length).toNat < 2 ^ 32 := by omega
  have program := program_sends bus addr (bufferFrom (some txdata) offset) below
    (flashWriteEnable bus state)
  apply (flashWriteEnable_sends bus _ _ state).trans
  apply (Within.mono (Nat.le_refl _) (by omega) program).trans
  exact flashWaitFence_sends bus _ _ polls _

theorem programLoop_sends (polls : Nat) (txdata : Nat → UInt8) (addr : UInt32)
    (offset : Nat) (length : UInt32) (state : QspiState Device)
    (fits : addr.toNat + length.toNat < 2 ^ 32) :
    Sends (Within addr.toNat (addr.toNat + length.toNat)) state
      (programLoop bus polls txdata addr offset length state).2 := by
  fun_induction programLoop bus polls txdata addr offset length state with
  | case1 => exact Sends.refl _
  | case2 addr offset length state more after block ih =>
      have sends := programBlock_sends bus polls txdata addr offset length state fits
      have shorter := blockLength_le addr length
      have later : (addr + blockLength addr length).toNat =
          addr.toNat + (blockLength addr length).toNat := by
        rw [UInt32.toNat_add, Nat.mod_eq_of_lt (by omega)]
      have remaining := sub_blockLength_toNat addr length
      rw [block] at sends
      rw [later, remaining] at ih
      apply sends.trans
      exact Within.mono (by omega) (by omega) (ih (by omega))
  | case3 addr offset length state more ready after block waiting =>
      have sends := programBlock_sends bus polls txdata addr offset length state fits
      rw [block] at sends
      exact sends

theorem programLoop_result (polls : Nat) (txdata : Nat → UInt8) (addr : UInt32)
    (offset : Nat) (length : UInt32) (state : QspiState Device) :
    (programLoop bus polls txdata addr offset length state).1 ≠ some (-1) := by
  fun_induction programLoop bus polls txdata addr offset length state with
  | case1 => exact nofun
  | case2 addr offset length state more after block ih => exact ih
  | case3 addr offset length state more ready after block waiting => exact nofun

theorem eq_zero_iff_toNat (length : UInt32) : length = 0 ↔ length.toNat = 0 :=
  UInt32.toNat_inj.symm

/-- The guard in 32-bit arithmetic agrees with the intended one unless the sum wraps to
a value inside the flash. -/
theorem guard_iff (addr length : UInt32) :
    (¬(addr + length > flashSize ∨ length = 0) ↔
      0 < length.toNat ∧ addr.toNat + length.toNat ≤ flashSize.toNat) ↔
      ¬WrapsInside addr length := by
  have addrBound := addr.toNat_lt
  have lengthBound := length.toNat_lt
  rw [gt_iff_lt, UInt32.lt_iff_toNat_lt, UInt32.toNat_add, eq_zero_iff_toNat,
    WrapsInside, flashSize_toNat]
  by_cases wraps : 2 ^ 32 ≤ addr.toNat + length.toNat
  · have reduced : (addr.toNat + length.toNat) % 2 ^ 32 =
        addr.toNat + length.toNat - 2 ^ 32 := by
      rw [Nat.mod_eq_sub_mod wraps, Nat.mod_eq_of_lt (by omega)]
    rw [reduced]
    omega
  · rw [Nat.mod_eq_of_lt (by omega)]
    omega

theorem InRange.below {pointer : Bool} {addr length : UInt32}
    (inRange : InRange pointer addr length) :
    addr.toNat + length.toNat ≤ flashSize.toNat ∧
      addr.toNat + length.toNat < 2 ^ 32 := by
  rcases inRange with ⟨-, -, fits⟩
  rw [flashSize_toNat] at fits ⊢
  omega

/-- The whole rejection test, with the pointer. -/
theorem accepts_iff_inRange_iff (pointer : Bool) (addr length : UInt32) :
    (¬(pointer = false ∨ addr + length > flashSize ∨ length = 0) ↔
      InRange pointer addr length) ↔
      ¬(pointer = true ∧ WrapsInside addr length) := by
  cases pointer with
  | false => simp [InRange]
  | true => simpa [InRange] using guard_iff addr length

/-- A call that rejects by the test, rejects cleanly and addresses what it should when in
range is guarded unless the sum wraps. -/
theorem guarded_iff {pointer : Bool} {addr length : UInt32} {rejected : Prop}
    {before after : QspiState Device}
    (test : rejected ↔ pointer = false ∨ addr + length > flashSize ∨ length = 0)
    (untouched : rejected → after = before)
    (bounded : ¬rejected → InRange pointer addr length →
      Sends (Within 0 flashSize.toNat) before after) :
    Guarded (InRange pointer addr length) rejected before after ↔
      ¬(pointer = true ∧ WrapsInside addr length) := by
  rw [← accepts_iff_inRange_iff, ← test]
  constructor
  · intro guarded
    exact guarded.accepts_iff
  · intro accepts
    exact ⟨accepts, untouched, fun kept => bounded kept (accepts.mp kept)⟩

/-- `Flash_ReadData` keeps the promise of its guard exactly when the sum does not wrap to
a value inside the flash. -/
theorem flashReadData_guarded_iff (addr : UInt32) (rxdata : Option Nat)
    (length : UInt32) (state : QspiState Device) :
    Guarded (InRange rxdata.isSome addr length)
        ((flashReadData bus addr rxdata length state).1 = -1) state
        (flashReadData bus addr rxdata length state).2 ↔
      ¬(rxdata.isSome = true ∧ WrapsInside addr length) := by
  have missing : rxdata = none ↔ rxdata.isSome = false := by simp
  have order : (addr + length > flashSize ∨ rxdata = none ∨ length = 0) ↔
      (rxdata.isSome = false ∨ addr + length > flashSize ∨ length = 0) := by
    rw [missing]
    exact or_left_comm
  unfold flashReadData
  split
  next rejects =>
    apply guarded_iff
    · exact ⟨fun _ => order.mp rejects, fun _ => rfl⟩
    · intro _
      rfl
    · intro kept
      exact absurd rfl kept
  next accepts =>
    apply guarded_iff
    · exact ⟨nofun, fun rejects => absurd (order.mpr rejects) accepts⟩
    · exact nofun
    · intro _ inRange
      rcases inRange.below with ⟨inFlash, fits⟩
      exact Within.mono (Nat.zero_le _) inFlash
        (read_sends bus rxdata inRange.2.1 fits state)

theorem flashProgramData_guarded_iff (polls : Nat) (addr : UInt32)
    (txdata : Option (Nat → UInt8)) (length : UInt32) (state : QspiState Device) :
    Guarded (InRange txdata.isSome addr length)
        ((flashProgramData bus polls addr txdata length state).1 = some (-1)) state
        (flashProgramData bus polls addr txdata length state).2 ↔
      ¬(txdata.isSome = true ∧ WrapsInside addr length) := by
  cases txdata with
  | none =>
      apply guarded_iff
      · exact ⟨fun _ => Or.inl rfl, fun _ => rfl⟩
      · intro _
        rfl
      · intro kept
        exact absurd rfl kept
  | some bytes =>
      unfold flashProgramData
      simp only
      split
      next rejects =>
        apply guarded_iff
        · exact ⟨fun _ => Or.inr rejects, fun _ => rfl⟩
        · intro _
          rfl
        · intro kept
          exact absurd rfl kept
      next accepts =>
        have kept := programLoop_result bus polls bytes addr 0 length state
        apply guarded_iff
        · exact ⟨fun rejects => absurd rejects kept,
            fun rejects => absurd (rejects.resolve_left nofun) accepts⟩
        · intro rejects
          exact absurd rejects kept
        · intro _ inRange
          rcases inRange.below with ⟨inFlash, fits⟩
          exact Within.mono (Nat.zero_le _) inFlash
            (programLoop_sends bus polls bytes addr 0 length state fits)

/-- Both functions keep the promise of their guard exactly when the sum of address and
length does not wrap around to a value inside the flash. -/
theorem flash_guarded_iff (polls : Nat) (addr : UInt32) (rxdata : Option Nat)
    (txdata : Option (Nat → UInt8)) (length : UInt32) (state : QspiState Device) :
    let read := flashReadData bus addr rxdata length state
    let program := flashProgramData bus polls addr txdata length state
    (Guarded (InRange rxdata.isSome addr length) (read.1 = -1) state read.2 ↔
      ¬(rxdata.isSome = true ∧ WrapsInside addr length)) ∧
    (Guarded (InRange txdata.isSome addr length) (program.1 = some (-1)) state
      program.2 ↔ ¬(txdata.isSome = true ∧ WrapsInside addr length)) := by
  intro read program
  constructor
  · exact flashReadData_guarded_iff bus addr rxdata length state
  · exact flashProgramData_guarded_iff bus polls addr txdata length state

end Commands

/-- A read of two bytes from the last 32-bit address is accepted. -/
theorem flashReadData_accepts_wrapped :
    ¬Guarded (InRange true 0xFFFFFFFF 2)
      ((flashReadData idleBus 0xFFFFFFFF (some 0) 2 idleState).1 = -1) idleState
      (flashReadData idleBus 0xFFFFFFFF (some 0) 2 idleState).2 := by
  intro guarded
  have outside := (guarded.accepts_iff.mp (by decide)).2.2
  exact absurd outside (by decide)

end SunWise.Flash
