import Mathlib.Data.Vector.Basic
import SunWise.Library.CrcErrors

/-!
# Table-driven CRC-32

`drv_gmac_crc.c`.  The table is built on the first call of `CRC_Calc`, by reflecting the
index, dividing it most significant bit first and reflecting the remainder back.
-/

namespace SunWise.Gmac

open Library Crc

/-- `CRC_TABLE_DEPTH`. -/
def crcTableDepth : Nat := 256

/-- One turn of the loop of `Reflect`, on `value` and `data`. -/
def reflectTurn (len i : Nat) (loop : UInt32 × UInt32) : UInt32 × UInt32 :=
  (if loop.2 &&& 0x1 ≠ 0 then loop.1 ||| (1 <<< UInt32.ofNat (len - i - 1)) else loop.1,
    loop.2 >>> 1)

/-- The loop of `Reflect` after its first turns. -/
def reflectLoop (data : UInt32) (len : Nat) : Nat → UInt32 × UInt32
  | 0 => (0, data)
  | i + 1 => reflectTurn len i (reflectLoop data len i)

/-- `Reflect`. -/
def reflect (data : UInt32) (len : Nat) : UInt32 :=
  (reflectLoop data len len).1

/-- One turn of the inner loop of `CRC_CreateTable`. -/
def crcTableTurn (entry : UInt32) : UInt32 :=
  let t1 := entry <<< 1
  let t2 := if (entry >>> 31) &&& 0x1 ≠ 0 then 0x04c11db7 else 0
  t1 ^^^ t2

/-- One turn of the outer loop of `CRC_CreateTable`. -/
def crcTableEntry (i : UInt32) : UInt32 :=
  reflect (crcTableTurn^[8] (reflect i 8 <<< 24)) 32

/-- `_s_crc_table` after `CRC_CreateTable`. -/
def crcCreateTable : Vector UInt32 crcTableDepth :=
  .ofFn fun i => crcTableEntry (UInt32.ofNat i)

/-- The static variables `_s_crc_table` and `_s_crc_table_flag`. -/
structure CrcStatics where
  sCrcTable : Vector UInt32 crcTableDepth
  sCrcTableFlag : UInt8
  deriving DecidableEq, Repr

namespace CrcStatics

/-- The static variables when the program starts. -/
def init : CrcStatics where
  sCrcTable := Vector.replicate crcTableDepth 0
  sCrcTableFlag := 0

/-- The first lines of `CRC_Calc`. -/
def prepare (statics : CrcStatics) : CrcStatics :=
  if statics.sCrcTableFlag = 0 then { sCrcTable := crcCreateTable, sCrcTableFlag := 1 }
  else statics

end CrcStatics

/-- One turn of the loop of `CRC_Calc`. -/
def crcCalcTurn (table : Vector UInt32 crcTableDepth) (value : UInt32) (byte : UInt8) :
    UInt32 :=
  table.getD ((value ^^^ byte.toUInt32) &&& 0xff).toNat 0 ^^^ (value >>> 8)

/-- `CRC_Calc` over the bytes it is pointed at. -/
def crcCalc (statics : CrcStatics) (buf : List UInt8) : UInt32 × CrcStatics :=
  let statics := statics.prepare
  (buf.foldl (crcCalcTurn statics.sCrcTable) 0xffffffff, statics)

/-- The static variables after earlier calls. -/
def CrcStatics.after (earlier : List (List UInt8)) : CrcStatics :=
  earlier.foldl (fun statics buf => (crcCalc statics buf).2) .init

/-- The lowest bit decides the branch of `Reflect`. -/
theorem and_one_ne_zero_iff (data : UInt32) :
    data &&& 0x1 ≠ 0 ↔ data.toBitVec.getLsbD 0 = true := by
  have single : (data &&& 1).toBitVec =
      (BitVec.ofBool (data.toBitVec.getLsbD 0)).setWidth 32 :=
    BitVec.and_one_eq_setWidth_ofBool_getLsbD
  rw [ne_eq, ← UInt32.toBitVec_inj, single]
  cases data.toBitVec.getLsbD 0 <;> decide

theorem getLsbD_one_shiftLeft {count : Nat} (small : count < 32) (position : Nat) :
    ((1 : UInt32) <<< UInt32.ofNat count).toBitVec.getLsbD position =
      decide (position = count) := by
  have amount : (UInt32.ofNat count).toBitVec % 32 = BitVec.ofNat 32 count := by
    apply BitVec.eq_of_toNat_eq
    simp
    omega
  have within : (BitVec.ofNat 32 count).toNat = count := by
    rw [BitVec.toNat_ofNat, Nat.mod_eq_of_lt (by omega)]
  rw [UInt32.toBitVec_shiftLeft, amount, BitVec.shiftLeft_eq', within, UInt32.toBitVec_one,
    BitVec.getLsbD_shiftLeft, BitVec.getLsbD_one]
  by_cases same : position = count
  · simp [same, small]
  · have apart : ¬(position - count = 0 ∧ ¬position < count) := by omega
    rw [decide_eq_false same]
    grind

theorem reflectLoop_spec (data : UInt32) {len : Nat} (short : len ≤ 32) (turns : Nat)
    (within : turns ≤ len) :
    (∀ position, (reflectLoop data len turns).1.toBitVec.getLsbD position =
      (decide (len - turns ≤ position ∧ position < len) &&
        data.toBitVec.getLsbD (len - 1 - position))) ∧
      (reflectLoop data len turns).2.toBitVec = data.toBitVec >>> turns := by
  induction turns with
  | zero =>
      constructor
      · intro position
        simp [reflectLoop]
      · simp [reflectLoop]
  | succ turns ih =>
      have ⟨moved, rest⟩ := ih (by omega)
      have low : (reflectLoop data len turns).2.toBitVec.getLsbD 0 =
          data.toBitVec.getLsbD turns := by
        rw [rest, BitVec.getLsbD_ushiftRight, Nat.add_zero]
      have below : len - turns - 1 < 32 := by omega
      constructor
      · intro position
        have new : (reflectLoop data len (turns + 1)).1.toBitVec.getLsbD position =
            ((reflectLoop data len turns).1.toBitVec.getLsbD position ||
              (data.toBitVec.getLsbD turns && decide (position = len - turns - 1))) := by
          rw [reflectLoop, reflectTurn]
          simp only [and_one_ne_zero_iff, low]
          cases data.toBitVec.getLsbD turns with
          | false => simp
          | true =>
              rw [if_pos rfl, UInt32.toBitVec_or, BitVec.getLsbD_or,
                getLsbD_one_shiftLeft below, Bool.true_and]
        rw [new, moved]
        by_cases here : position = len - turns - 1
        · have mirrored : len - 1 - position = turns := by omega
          have now : len - (turns + 1) ≤ position ∧ position < len := by omega
          have before : ¬(len - turns ≤ position ∧ position < len) := by omega
          rw [decide_eq_true now, decide_eq_false before, decide_eq_true here, mirrored]
          simp
        · have same : decide (len - (turns + 1) ≤ position ∧ position < len) =
              decide (len - turns ≤ position ∧ position < len) := by
            apply decide_eq_decide.mpr
            omega
          rw [decide_eq_false here, same, Bool.and_false, Bool.or_false]
      · rw [reflectLoop, reflectTurn, BitVec.shiftRight_add, ← rest]
        rfl

theorem getLsbD_reflect (data : UInt32) {len : Nat} (short : len ≤ 32) (position : Nat) :
    (reflect data len).toBitVec.getLsbD position =
      (decide (position < len) && data.toBitVec.getLsbD (len - 1 - position)) := by
  have bits := (reflectLoop_spec data short len (Nat.le_refl len)).1 position
  simpa [reflect] using bits

theorem reflect_toBitVec (data : UInt32) :
    (reflect data 32).toBitVec = data.toBitVec.reverse := by
  apply BitVec.eq_of_getLsbD_eq
  intro position inside
  rw [getLsbD_reflect data (Nat.le_refl 32), BitVec.getLsbD_reverse, BitVec.getMsbD]

/-- Reflecting a byte and moving it to the top reverses the word. -/
theorem reflect_byte_toBitVec {i : UInt32} (small : i.toNat < 256) :
    (reflect i 8 <<< 24).toBitVec = i.toBitVec.reverse := by
  apply BitVec.eq_of_getLsbD_eq
  intro position inside
  have amount : (24 : UInt32).toBitVec % 32 = 24#32 := by decide
  have moved : (24#32).toNat = 24 := by decide
  rw [UInt32.toBitVec_shiftLeft, amount, BitVec.shiftLeft_eq', moved,
    BitVec.getLsbD_shiftLeft, getLsbD_reflect i (by decide), BitVec.getLsbD_reverse,
    BitVec.getMsbD]
  by_cases low : position < 24
  · have clear : i.toBitVec.getLsbD (32 - 1 - position) = false := by
      apply Nat.testBit_lt_two_pow
      calc i.toNat < 2 ^ 8 := small
        _ ≤ 2 ^ (32 - 1 - position) := Nat.pow_le_pow_right (by decide) (by omega)
    simp [low, clear]
  · have mirrored : 8 - 1 - (position - 24) = 32 - 1 - position := by omega
    have inByte : position - 24 < 8 := by omega
    simp [low, inByte, mirrored, inside]

theorem crcTableTurn_toBitVec (entry : UInt32) :
    (crcTableTurn entry).toBitVec = msbStep 0x04C11DB7#32 entry.toBitVec := by
  have top : (entry >>> 31) &&& 0x1 ≠ 0 ↔ entry.toBitVec.msb = true := by
    rw [and_one_ne_zero_iff]
    simp [BitVec.msb_eq_getLsbD_last]
  unfold crcTableTurn msbStep
  simp only [top]
  split <;> simp

theorem crcTableTurn_iterate_toBitVec (turns : Nat) (entry : UInt32) :
    (crcTableTurn^[turns] entry).toBitVec =
      (msbStep 0x04C11DB7#32)^[turns] entry.toBitVec := by
  induction turns generalizing entry with
  | zero => rfl
  | succ turns ih => rw [Function.iterate_succ_apply, ih, crcTableTurn_toBitVec]; rfl

theorem crcTableEntry_toBitVec {i : UInt32} (small : i.toNat < 256) :
    (crcTableEntry i).toBitVec =
      ((msbStep 0x04C11DB7#32)^[8] i.toBitVec.reverse).reverse := by
  rw [crcTableEntry, reflect_toBitVec, crcTableTurn_iterate_toBitVec,
    reflect_byte_toBitVec small]

theorem getD_ofFn {Entry : Type} {size place : Nat} {entry : Fin size → Entry}
    (inside : place < size) (default : Entry) :
    (Vector.ofFn entry).getD place default = entry ⟨place, inside⟩ := by
  simp [Vector.getD, inside]

theorem crcCreateTable_getD {index : UInt32} (small : index.toNat < crcTableDepth) :
    crcCreateTable.getD index.toNat 0 = crcTableEntry index := by
  rw [crcCreateTable, getD_ofFn small, UInt32.ofNat_toNat]

/-- A look-up in the table is a byte step of the reversed register. -/
theorem crcCalcTurn_toBitVec (value : UInt32) (byte : UInt8) :
    (crcCalcTurn crcCreateTable value byte).toBitVec =
      reflectedSerial 0x04C11DB7#32 value.toBitVec (bitsFromLsb byte) := by
  have index : ((value ^^^ byte.toUInt32) &&& 0xff).toBitVec =
      ((value.toBitVec ^^^ byte.toBitVec.setWidth 32).setWidth 8).setWidth 32 := by
    apply BitVec.eq_of_getLsbD_eq
    intro position inside
    have mask : (255#32).getLsbD position = decide (position < 8) := by
      revert position
      decide
    rw [UInt32.toBitVec_and, UInt32.toBitVec_xor, UInt8.toBitVec_toUInt32, BitVec.getLsbD_and,
      BitVec.getLsbD_setWidth, BitVec.getLsbD_setWidth, decide_eq_true inside, Bool.true_and,
      Bool.and_comm]
    exact congrArg (· && _) mask
  have small : ((value ^^^ byte.toUInt32) &&& 0xff).toNat < crcTableDepth := by
    rw [← UInt32.toNat_toBitVec, index, BitVec.toNat_setWidth]
    apply Nat.lt_of_le_of_lt (Nat.mod_le _ _)
    exact BitVec.isLt _
  rw [crcCalcTurn, crcCreateTable_getD small, UInt32.toBitVec_xor,
    crcTableEntry_toBitVec small, index, reflectedSerial_byte _ (by decide)]
  rfl

namespace CrcStatics

/-- The table is there when the flag says so. -/
def Built (statics : CrcStatics) : Prop :=
  statics.sCrcTableFlag ≠ 0 → statics.sCrcTable = crcCreateTable

theorem prepare_table {statics : CrcStatics} (built : statics.Built) :
    statics.prepare.sCrcTable = crcCreateTable := by
  unfold prepare
  split
  next => rfl
  next set_ => exact built set_

theorem after_built (earlier : List (List UInt8)) : (after earlier).Built := by
  have run (statics : CrcStatics) (built : statics.Built) :
      (earlier.foldl (fun statics buf => (crcCalc statics buf).2) statics).Built := by
    induction earlier generalizing statics with
    | nil => exact built
    | cons buf earlier ih => exact ih _ fun _ => prepare_table built
  exact run init fun set_ => absurd rfl set_

end CrcStatics

theorem crcCalc_toBitVec {statics : CrcStatics} (built : statics.Built) (buf : List UInt8) :
    (crcCalc statics buf).1.toBitVec =
      reflectedSerial 0x04C11DB7#32 (BitVec.allOnes 32) (buf.flatMap bitsFromLsb) := by
  have run (value : UInt32) :
      (buf.foldl (crcCalcTurn crcCreateTable) value).toBitVec =
        reflectedSerial 0x04C11DB7#32 value.toBitVec (buf.flatMap bitsFromLsb) := by
    induction buf generalizing value with
    | nil => rfl
    | cons byte buf ih =>
        rw [List.foldl_cons, ih, crcCalcTurn_toBitVec, List.flatMap_cons,
          reflectedSerial_append]
  rw [crcCalc, CrcStatics.prepare_table built]
  exact run 0xffffffff

/-- Whatever was computed before, `CRC_Calc` is the reflected register computation. -/
theorem crcCalc_eq_reflectedSerial (earlier : List (List UInt8)) (buf : List UInt8) :
    (crcCalc (.after earlier) buf).1.toBitVec =
      reflectedSerial 0x04C11DB7#32 (BitVec.allOnes 32) (buf.flatMap bitsFromLsb) :=
  crcCalc_toBitVec (CrcStatics.after_built earlier) buf

/-- Data that are different in a burst of up to 32 bits have different values, whatever was
computed before either of them. -/
theorem crcCalc_ne_of_burst (earlier other : List (List UInt8)) {sent received : List UInt8}
    (burst : Burst 32 (sent.flatMap bitsFromLsb) (received.flatMap bitsFromLsb)) :
    (crcCalc (.after earlier) sent).1 ≠ (crcCalc (.after other) received).1 := by
  intro same
  apply @reflectedSerial_ne_of_burst 32 0x04C11DB7#32 (by decide) (BitVec.allOnes 32) _ _ burst
  rw [← crcCalc_toBitVec (CrcStatics.after_built earlier), same,
    crcCalc_toBitVec (CrcStatics.after_built other)]

theorem crcCalc_ne_of_burst_bit :
    (crcCalc (.after []) [0, 0x55]).1 ≠ (crcCalc (.after [[7]]) [4, 0x55]).1 :=
  crcCalc_ne_of_burst [] [[7]]
    ⟨[false, false], [false], [true], List.replicate 5 false ++ bitsFromLsb 0x55, by decide,
      by decide, rfl, by decide, by decide⟩

end SunWise.Gmac
