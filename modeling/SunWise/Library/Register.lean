import Mathlib.Algebra.Ring.Nat

/-!
# Device registers

Bit and field updates of a register value, the values that dividers and counters hold, and
registers some of whose bits are flags: the device sets a flag, and a write clears those
flags that it writes as one.
-/

namespace SunWise.Library

variable {width : Nat}

/-- A number of steps as the last value of a counter that starts at zero. -/
def countFromZero (quotient : BitVec width) : BitVec width :=
  if quotient > 0 then quotient - 1 else 0

theorem toNat_countFromZero (quotient : BitVec width) :
    (countFromZero quotient).toNat = quotient.toNat - 1 := by
  have zero : (0 : BitVec width).toNat = 0 := BitVec.toNat_ofNat 0 width
  rw [countFromZero]
  split
  next positive =>
    have above : 0 < quotient.toNat := by
      rw [gt_iff_lt, BitVec.lt_def, zero] at positive
      exact positive
    have room : 1 < 2 ^ width := Nat.lt_of_le_of_lt above quotient.isLt
    have one : (1 : BitVec width).toNat = 1 := BitVec.toNat_ofNat 1 width ▸ Nat.mod_eq_of_lt room
    rw [BitVec.toNat_sub_of_le, one]
    rw [BitVec.le_def, one]
    exact above
  next notPositive =>
    have none : quotient.toNat = 0 := by
      rw [gt_iff_lt, BitVec.lt_def, zero] at notPositive
      exact Nat.eq_zero_of_not_pos notPositive
    rw [zero, none]

theorem thousandths_le (whole : Nat) {share : Nat} (small : share ≤ 1000) :
    whole * share / 1000 ≤ whole := by
  apply Nat.div_le_of_le_mul
  rw [Nat.mul_comm 1000]
  exact Nat.mul_le_mul_left whole small

/-- Set or clear one bit. -/
def setBit (register : BitVec width) (position : Nat) (value : Bool) : BitVec width :=
  if value then register ||| (BitVec.ofNat width 1 <<< position)
  else register &&& ~~~(BitVec.ofNat width 1 <<< position)

/-- Replace the field that `mask` covers at `position`. -/
def setField (register mask : BitVec width) (position : Nat) (value : BitVec width) :
    BitVec width :=
  (register &&& ~~~(mask <<< position)) ||| (value <<< position)

/-- Value of a register after a write, where `flags` are the bits that a one clears. -/
def writeOneToClear (flags old written : BitVec width) : BitVec width :=
  (written &&& ~~~flags) ||| (old &&& ~~~written &&& flags)

@[simp] theorem getLsbD_setBit (register : BitVec width) (position : Nat) (value : Bool)
    (index : Nat) :
    (setBit register position value).getLsbD index =
      if index = position ∧ index < width then value else register.getLsbD index := by
  unfold setBit
  cases value <;> simp [BitVec.getLsbD_one] <;> grind

/-- A bit that is set stays set unless it is the one that is cleared. -/
theorem getLsbD_setBit_kept {register : BitVec width} {position index : Nat} {value : Bool}
    (isSet : register.getLsbD index = true) (harmless : value = true ∨ index ≠ position) :
    (setBit register position value).getLsbD index = true := by
  rw [getLsbD_setBit, isSet]
  rcases harmless with rfl | apart
  · simp
  · simp [apart]

/-- A flag survives a write that writes it as zero. -/
theorem getLsbD_writeOneToClear_flag {flags : BitVec width} (old written : BitVec width)
    {index : Nat} (isFlag : flags.getLsbD index = true) :
    (writeOneToClear flags old written).getLsbD index =
      (old.getLsbD index && !written.getLsbD index) := by
  have inside : index < width := BitVec.lt_of_getLsbD isFlag
  simp only [writeOneToClear, BitVec.getLsbD_or, BitVec.getLsbD_and, BitVec.getLsbD_not,
    isFlag]
  simp [inside]

/-- Writing a register back clears every flag in it. -/
theorem writeOneToClear_back {flags : BitVec width} (old written : BitVec width)
    {index : Nat} (isFlag : flags.getLsbD index = true)
    (kept : old.getLsbD index = true → written.getLsbD index = true) :
    (writeOneToClear flags old written).getLsbD index = false := by
  rw [getLsbD_writeOneToClear_flag old written isFlag]
  cases isSet : old.getLsbD index with
  | false => rfl
  | true => simp [kept isSet]

theorem getLsbD_lowOnes (count index : Nat) :
    (BitVec.ofNat width (2 ^ count - 1)).getLsbD index =
      (decide (index < width) && decide (index < count)) := by
  rw [BitVec.getLsbD_ofNat, Nat.testBit_two_pow_sub_one]

section Field

variable (register value : BitVec width) {count position : Nat}

/-- An assignment to a field replaces the field, and above it adds the bits of the value that
do not fit. -/
theorem getLsbD_setField {index : Nat} (inside : index < width) :
    (setField register (BitVec.ofNat width (2 ^ count - 1)) position value).getLsbD index =
      if position ≤ index then
        (if index < position + count then value.getLsbD (index - position)
        else register.getLsbD index || value.getLsbD (index - position))
      else register.getLsbD index := by
  rw [setField, BitVec.getLsbD_or, BitVec.getLsbD_and, BitVec.getLsbD_not,
    BitVec.getLsbD_shiftLeft, BitVec.getLsbD_shiftLeft, getLsbD_lowOnes]
  by_cases above : position ≤ index
  · have offset : index - position < width := Nat.lt_of_le_of_lt (Nat.sub_le _ _) inside
    have place : index - position < count ↔ index < position + count := by omega
    by_cases inField : index < position + count
    · simp [inside, above, offset, place, inField, Nat.not_lt_of_le above]
    · simp [inside, above, offset, place, inField, Nat.not_lt_of_le above]
  · simp [inside, above, Nat.lt_of_not_le above]

/-- What the field holds of a value afterwards. -/
theorem extractLsb'_setField_self (fits : position + count ≤ width) :
    (setField register (BitVec.ofNat width (2 ^ count - 1)) position value).extractLsb'
      position count = value.setWidth count := by
  apply BitVec.eq_of_getLsbD_eq
  intro index inside
  rw [BitVec.getLsbD_extractLsb', getLsbD_setField _ _ (by omega), BitVec.getLsbD_setWidth,
    if_pos (Nat.le_add_right _ _), if_pos (Nat.add_lt_add_left inside _),
    Nat.add_sub_cancel_left]

theorem extractLsb'_setField_below {other otherCount : Nat} (below : other + otherCount ≤ position)
    (fits : other + otherCount ≤ width) :
    (setField register (BitVec.ofNat width (2 ^ count - 1)) position value).extractLsb'
      other otherCount = register.extractLsb' other otherCount := by
  apply BitVec.eq_of_getLsbD_eq
  intro index inside
  rw [BitVec.getLsbD_extractLsb', BitVec.getLsbD_extractLsb', getLsbD_setField _ _ (by omega),
    if_neg (by omega)]

/-- A field above keeps its value exactly when the bits that run into it are set there. -/
theorem extractLsb'_setField_above_iff {other otherCount : Nat}
    (above : position + count ≤ other) (fits : other + otherCount ≤ width) :
    (setField register (BitVec.ofNat width (2 ^ count - 1)) position value).extractLsb'
        other otherCount = register.extractLsb' other otherCount ↔
      ∀ index < otherCount, value.getLsbD (other - position + index) = true →
        register.getLsbD (other + index) = true := by
  have bits : ∀ index < otherCount,
      (setField register (BitVec.ofNat width (2 ^ count - 1)) position value).getLsbD
        (other + index) =
      (register.getLsbD (other + index) || value.getLsbD (other - position + index)) := by
    intro index inside
    have offset : other + index - position = other - position + index := by omega
    rw [getLsbD_setField _ _ (by omega), if_pos (by omega), if_neg (by omega), offset]
  constructor
  · intro same index inside isSet
    have kept := congrArg (fun field => field.getLsbD index) same
    simp only [BitVec.getLsbD_extractLsb', inside, decide_true, Bool.true_and, bits index inside,
      isSet, Bool.or_true] at kept
    exact kept.symm
  · intro present
    apply BitVec.eq_of_getLsbD_eq
    intro index inside
    rw [BitVec.getLsbD_extractLsb', BitVec.getLsbD_extractLsb', bits index inside]
    cases isSet : value.getLsbD (other - position + index) with
    | false => rw [Bool.or_false]
    | true => rw [present index inside isSet, Bool.or_true]

/-- A value that fits its field leaves every other field alone. -/
theorem extractLsb'_setField_apart {other otherCount : Nat} (fits : value.toNat < 2 ^ count)
    (apart : other + otherCount ≤ position ∨ position + count ≤ other)
    (inside : other + otherCount ≤ width) :
    (setField register (BitVec.ofNat width (2 ^ count - 1)) position value).extractLsb'
      other otherCount = register.extractLsb' other otherCount := by
  rcases apart with below | above
  · exact extractLsb'_setField_below register value below inside
  · refine (extractLsb'_setField_above_iff register value above inside).mpr ?_
    intro index _ isSet
    have clear : value.getLsbD (other - position + index) = false :=
      Nat.testBit_lt_two_pow (Nat.lt_of_lt_of_le fits (Nat.pow_le_pow_right (by decide)
        (by omega)))
    exact absurd (isSet.symm.trans clear) (by decide)

end Field

end SunWise.Library
