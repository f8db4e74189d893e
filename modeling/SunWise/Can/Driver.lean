import SunWise.Library.Memory
import SunWise.Library.Register

/-!
# CAN driver

The register block of a CAN controller and the functions of `drv_can.c`.  Behind the
addresses from offset 0x40 on lie three banks of registers: in reset mode the acceptance
filter, and otherwise the transmit buffer for writes and the receive buffer for reads.  The
loops that wait for a status bit have no limit of their own, so the model is given a number
of reads of `SR` for them.
-/

namespace SunWise.Can

open Library

@[simp] def canModAfmPos : Nat := 3
@[simp] def canModStmPos : Nat := 2
@[simp] def canModRmPos : Nat := 0

@[simp] def canCmrSrrPos : Nat := 4
@[simp] def canCmrRrbPos : Nat := 2

@[simp] def canSrTbsPos : Nat := 2
@[simp] def canSrRbsPos : Nat := 0

@[simp] def canBtr0SjwPos : Nat := 6
@[simp] def canBtr0BrpPos : Nat := 0

@[simp] def canBtr1SamPos : Nat := 7
@[simp] def canBtr1Tseg2Pos : Nat := 4
@[simp] def canBtr1Tseg1Pos : Nat := 0

@[simp] def canOcrOcmod1Pos : Nat := 1
@[simp] def canOcrOcmod0Pos : Nat := 0

@[simp] def canTdiFfPos : Nat := 7
@[simp] def canTdiRtrPos : Nat := 6
@[simp] def canTdiDlcPos : Nat := 0

@[simp] def canCdrClockoffPos : Nat := 3
@[simp] def canCdrCdrPos : Nat := 0

/-- `CDR_OSC_DIV8`. -/
@[simp] def cdrOscDiv8 : BitVec 32 := 0x3

/-- `RTR_DATA`. -/
@[simp] def rtrData : BitVec 32 := 0

/-- `CanMode_e`. -/
inductive CanMode where
  | normal
  | selfTest
  deriving DecidableEq, Repr

/-- `CanFormat_e`. -/
inductive CanFormat where
  | standard
  | extend
  deriving DecidableEq, Repr

/-- The number of bits of an identifier. -/
def idWidth : CanFormat → Nat
  | .standard => 11
  | .extend => 29

/-- `CanFilter_e`. -/
inductive CanFilter where
  | single
  | dual
  deriving DecidableEq, Repr

/-- `DeviceCanConfig_t`. -/
structure DeviceCanConfig where
  status : BitVec 32
  mode : CanMode
  format : CanFormat
  filter : CanFilter
  rate : BitVec 32
  tseg1 : BitVec 4
  tseg2 : BitVec 3
  id : Fin 2 → BitVec 32
  mask : Fin 2 → BitVec 32

/-- `g_DeviceCanDefaultConfig`. -/
def gDeviceCanDefaultConfig : DeviceCanConfig where
  status := 0
  mode := .normal
  format := .standard
  filter := .single
  rate := 500 * 1000
  tseg1 := 10
  tseg2 := 7
  id
    | 0 => 0x00000001
    | 1 => 0xfffffff4
  mask
    | 0 => 0xffffff00
    | 1 => 0xffffffff

/-- The registers of `CAN_TypeDef` that the driver uses. `sr` holds what the reads of the
status to come will deliver, and `rdi` goes on behind the receive buffer with the registers
that follow it. -/
structure CanTypeDef where
  mod : BitVec 32
  cmr : BitVec 32
  sr : Nat → BitVec 32
  ier : BitVec 32
  btr0 : BitVec 32
  btr1 : BitVec 32
  ocr : BitVec 32
  cdr : BitVec 32
  tfi : BitVec 32
  tdi : Nat → BitVec 32
  rfi : BitVec 32
  rdi : Nat → BitVec 32
  acr : Fin 4 → BitVec 32
  amr : Fin 4 → BitVec 32
  deriving Inhabited

/-- `BIT`. -/
def bit (position : Nat) : BitVec 32 :=
  1 <<< position

/-- A byte of a word, by its distance from the least significant one. -/
def byteOf (word : BitVec 32) (index : Nat) : BitVec 32 :=
  (word >>> (8 * index)) &&& 0xff

theorem getLsbD_byteOf (word : BitVec 32) (index bit : Nat) :
    (byteOf word index).getLsbD bit =
      (decide (bit < 8) && word.getLsbD (8 * index + bit)) := by
  have ones : (0xff : BitVec 32).getLsbD bit = (decide (bit < 32) && decide (bit < 8)) :=
    getLsbD_lowOnes 8 bit
  have short : (decide (bit < 32) && decide (bit < 8)) = decide (bit < 8) := by
    rw [← Bool.decide_and, decide_eq_decide]
    omega
  rw [byteOf, BitVec.getLsbD_and, BitVec.getLsbD_ushiftRight, ones, short, Bool.and_comm]

theorem byteOf_or (left right : BitVec 32) (index : Nat) :
    byteOf (left ||| right) index = byteOf left index ||| byteOf right index := by
  rw [byteOf, BitVec.ushiftRight_or_distrib, BitVec.and_or_distrib_right]
  rfl

/-- The bits that `HW_CAN_InitConfig` adds to both masks. -/
def ignoredBits : CanFormat → CanFilter → BitVec 32
  | .standard, .single => 0x001fffff
  | .standard, .dual => 0x001f
  | .extend, .single => 0x00000007
  | .extend, .dual => 0

/-- The check of the configuration, which changes the masks of the caller. -/
def checkConfig (config : DeviceCanConfig) : DeviceCanConfig :=
  { config with
    mask := fun index => config.mask index ||| ignoredBits config.format config.filter }

/-- The filter registers for two words of a configuration, its identifiers or its masks. -/
def filterBytes (filter : CanFilter) (words : Fin 2 → BitVec 32) : Fin 4 → BitVec 32 :=
  match filter with
  | .single => fun
      | 0 => byteOf (words 0) 3
      | 1 => byteOf (words 0) 2
      | 2 => byteOf (words 0) 1
      | 3 => byteOf (words 0) 0
  | .dual => fun
      | 0 => byteOf (words 0) 1
      | 1 => byteOf (words 0) 0
      | 2 => byteOf (words 1) 1
      | 3 => byteOf (words 1) 0

theorem filterBytes_or (filter : CanFilter) (left right : Fin 2 → BitVec 32) (register : Fin 4) :
    filterBytes filter (fun index => left index ||| right index) register =
      filterBytes filter left register ||| filterBytes filter right register := by
  cases filter with
  | single =>
      match register with
      | 0 | 1 | 2 | 3 => exact byteOf_or _ _ _
  | dual =>
      match register with
      | 0 | 1 | 2 | 3 => exact byteOf_or _ _ _

/-- The value `can_div`. -/
def canDiv (apbFreq : BitVec 32) (config : DeviceCanConfig) : BitVec 32 :=
  let segments : BitVec 32 := 1 + config.tseg1.setWidth 32 + config.tseg2.setWidth 32
  countFromZero (apbFreq / segments / config.rate / 2)

/-- The value that goes to `BTR0`. -/
def btr0Value (canDiv : BitVec 32) : BitVec 32 :=
  ((0 : BitVec 32) ||| ((0 : BitVec 32) <<< canBtr0SjwPos)) ||| (canDiv <<< canBtr0BrpPos)

/-- `HW_CAN_InitConfig`: the result, the device and the configuration it leaves. -/
def hwCanInitConfig (apbFreq : BitVec 32) (can : CanTypeDef) (config? : Option DeviceCanConfig) :
    Int × CanTypeDef × Option DeviceCanConfig :=
  match config? with
  | none => (-1, can, none)
  | some config =>
      let config := checkConfig config
      let afm : BitVec 32 := if config.filter = .single then bit canModAfmPos else 0
      let stm : BitVec 32 := if config.mode = .selfTest then bit canModStmPos else 0
      let can := { can with
        mod := setBit (stm ||| afm ||| bit canModRmPos) canModRmPos false
        btr0 := btr0Value (canDiv apbFreq config)
        btr1 :=
          (setBit 0 canBtr1SamPos false |||
            ((config.tseg2.setWidth 32 &&& 0x7) <<< canBtr1Tseg2Pos)) |||
            ((config.tseg1.setWidth 32 &&& 0xf) <<< canBtr1Tseg1Pos)
        cdr := setBit 0 canCdrClockoffPos true ||| (cdrOscDiv8 <<< canCdrCdrPos)
        ocr := setBit (setBit 0 canOcrOcmod1Pos true) canOcrOcmod0Pos false
        acr := filterBytes config.filter config.id
        amr := filterBytes config.filter config.mask
        ier := 0xf }
      (0, can, some { config with status := 0 })

/-- The end of the reset mode. -/
def leaveReset (can : CanTypeDef) : CanTypeDef :=
  { can with mod := setBit can.mod canModRmPos false }

/-- A loop that waits for a bit of `SR`. The result is `none` while it is still waiting. -/
def waitStatus (position : Nat) : Nat → CanTypeDef → Option CanTypeDef
  | 0, _ => none
  | reads + 1, can =>
      let after := { can with sr := fun read => can.sr (read + 1) }
      if (can.sr 0).getLsbD position then some after else waitStatus position reads after

/-- The identifier in the registers `TDI` of a frame. -/
def idBytes (format : CanFormat) (id : BitVec 32) : List (BitVec 32) :=
  match format with
  | .standard =>
      let id := id <<< 5
      [byteOf id 1, byteOf id 0]
  | .extend =>
      let id := id <<< 3
      [byteOf id 3, byteOf id 2, byteOf id 1, byteOf id 0]

/-- The word that `HW_CAN_WriteBlock` puts into `TFI`. -/
def frameInfo (format : CanFormat) (length : Nat) : BitVec 32 :=
  (BitVec.ofNat 32 format.ctorIdx <<< canTdiFfPos) ||| (rtrData <<< canTdiRtrPos) |||
    (BitVec.ofNat 32 length <<< canTdiDlcPos)

/-- The registers of a frame that is sent. -/
def writeFrame (can : CanTypeDef) (format : CanFormat) (id : BitVec 32)
    (txbuf : Nat → BitVec 8) (length : Nat) : CanTypeDef :=
  let data := (load txbuf 0 length).map (BitVec.setWidth 32)
  { can with
    tfi := frameInfo format length
    tdi := store can.tdi 0 (idBytes format id ++ data)
    cmr := bit canCmrSrrPos }

/-- `HW_CAN_WriteBlock`: the length it returns and the device. -/
def hwCanWriteBlock (reads : Nat) (can : CanTypeDef) (format : CanFormat) (id : BitVec 32)
    (txbuf : Nat → BitVec 8) (length : Nat) : Option (Nat × CanTypeDef) :=
  match waitStatus canSrTbsPos reads (leaveReset can) with
  | none => none
  | some can =>
      let length := min length 8
      some (length, writeFrame can format id txbuf length)

/-- What `HW_CAN_ReadBlock` returns and what it puts into `format`, `id` and `rxbuf`. -/
structure CanRead where
  length : Nat
  format : CanFormat
  id : BitVec 32
  rxbuf : List (BitVec 8)
  deriving DecidableEq, Repr

/-- The frame in the receive registers, of which at most `length` bytes are wanted. -/
def readFrame (can : CanTypeDef) (length : Nat) : CanRead :=
  let length := min length (can.rfi &&& 0xf).toNat
  let data (offset : Nat) := (load can.rdi offset length).map (BitVec.setWidth 8)
  if !can.rfi.getLsbD canTdiFfPos then
    let id := ((0 : BitVec 32) ||| (can.rdi 0 <<< 8)) ||| can.rdi 1
    ⟨length, .standard, id >>> 5, data 2⟩
  else
    let id := ((((0 : BitVec 32) ||| (can.rdi 0 <<< 24)) ||| (can.rdi 1 <<< 16)) |||
      (can.rdi 2 <<< 8)) ||| can.rdi 3
    ⟨length, .extend, id >>> 3, data 4⟩

/-- `HW_CAN_ReadBlock`. -/
def hwCanReadBlock (reads : Nat) (can : CanTypeDef) (length : Nat) :
    Option (CanRead × CanTypeDef) :=
  match waitStatus canSrRbsPos reads (leaveReset can) with
  | none => none
  | some can => some (readFrame can length, { can with cmr := bit canCmrRrbPos })

end SunWise.Can
