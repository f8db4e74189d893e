import Mathlib.Data.List.Nodup
import SunWise.Library.ByteOrder

/-!
# Bit-fields

Fields of the bits of a word, and where a compiler places the ones that a structure
declares: from the least significant bit on for a CPU that stores that end of a word first,
and from the most significant bit on for the other.
-/

namespace SunWise.Library

/-- A run of bits in a word, by its least significant bit. -/
structure BitField where
  offset : Nat
  width : Nat
  deriving DecidableEq, Repr

namespace BitField

variable (field : BitField)

def mask : BitVec 32 :=
  (BitVec.allOnes field.width).setWidth 32

/-- The value of a field. -/
def get (word : UInt32) : UInt32 :=
  .ofBitVec ((word.toBitVec >>> field.offset) &&& field.mask)

/-- An assignment to a field keeps the bits that fit. -/
def set (word value : UInt32) : UInt32 :=
  .ofBitVec ((word.toBitVec &&& ~~~(field.mask <<< field.offset)) |||
    ((value.toBitVec &&& field.mask) <<< field.offset))

theorem getLsbD_mask (index : Nat) :
    field.mask.getLsbD index = (decide (index < 32) && decide (index < field.width)) := by
  simp [mask]

theorem getLsbD_get (word : UInt32) (index : Nat) :
    (field.get word).toBitVec.getLsbD index =
      (decide (index < 32) && decide (index < field.width) &&
        word.toBitVec.getLsbD (field.offset + index)) := by
  simp [get, getLsbD_mask, Bool.and_comm]

/-- Each bit of a word is one of the field or stays. -/
theorem getLsbD_set (word value : UInt32) (index : Nat) :
    (field.set word value).toBitVec.getLsbD index =
      if field.offset ≤ index ∧ index < field.offset + field.width then
        decide (index < 32) && value.toBitVec.getLsbD (index - field.offset)
      else word.toBitVec.getLsbD index := by
  have masked (offset : Nat) : field.mask.getLsbD offset =
      (decide (offset < 32) && decide (offset < field.width)) := field.getLsbD_mask offset
  simp only [set, UInt32.toBitVec_ofBitVec, BitVec.getLsbD_or, BitVec.getLsbD_and,
    BitVec.getLsbD_not, BitVec.getLsbD_shiftLeft, masked]
  by_cases small : index < 32
  · by_cases above : field.offset ≤ index
    · have short : index - field.offset < 32 := by omega
      have inField : index - field.offset < field.width ↔
          index < field.offset + field.width := Nat.sub_lt_iff_lt_add' above
      by_cases inside : index < field.offset + field.width
      · simp [small, above, short, inField, inside, Nat.not_lt_of_le above]
      · simp [small, above, short, inField, inside]
    · simp [small, above, Nat.lt_of_not_le above]
  · simp [small, BitVec.getLsbD_of_ge word.toBitVec index (Nat.le_of_not_lt small)]

theorem get_set_self (word value : UInt32) (fits : field.offset + field.width ≤ 32) :
    field.get (field.set word value) = .ofBitVec (value.toBitVec &&& field.mask) := by
  apply UInt32.eq_of_toBitVec_eq
  apply BitVec.eq_of_getLsbD_eq
  intro index inside
  rw [getLsbD_get, getLsbD_set, UInt32.toBitVec_ofBitVec, BitVec.getLsbD_and, getLsbD_mask]
  by_cases short : index < field.width
  · have place : field.offset ≤ field.offset + index ∧
        field.offset + index < field.offset + field.width := by omega
    have small : field.offset + index < 32 := by omega
    rw [if_pos place]
    simp [inside, short, small]
  · simp [short]

theorem get_set_apart {other : BitField} (word value : UInt32)
    (apart : field.offset + field.width ≤ other.offset ∨
      other.offset + other.width ≤ field.offset) :
    other.get (field.set word value) = other.get word := by
  apply UInt32.eq_of_toBitVec_eq
  apply BitVec.eq_of_getLsbD_eq
  intro index inside
  rw [getLsbD_get, getLsbD_get, getLsbD_set]
  by_cases short : index < other.width
  · have outside : ¬ (field.offset ≤ other.offset + index ∧
        other.offset + index < field.offset + field.width) := by omega
    rw [if_neg outside]
  · simp [short]

end BitField

namespace ByteOrder

variable {Name : Type*} [DecidableEq Name]

/-- Where the fields of a declaration end. -/
def extent (fields : List (Name × Nat)) : Nat :=
  (fields.map Prod.snd).sum

/-- The place of a field, when the ones declared before take up `used` bits. -/
def place (order : ByteOrder) (used : Nat) : List (Name × Nat) → Name → BitField
  | [], _ => ⟨0, 0⟩
  | field :: fields, name =>
      if field.1 = name then
        match order with
        | .little => ⟨used, field.2⟩
        | .big => ⟨32 - (used + field.2), field.2⟩
      else order.place (used + field.2) fields name

variable {order : ByteOrder} {used : Nat} {front back fields : List (Name × Nat)} {name : Name}

theorem place_of_notMem (absent : name ∉ fields.map Prod.fst) :
    order.place used fields name = ⟨0, 0⟩ := by
  induction fields generalizing used with
  | nil => rfl
  | cons field fields ih =>
      rw [List.map_cons, List.mem_cons, not_or] at absent
      simp only [place, if_neg (Ne.symm absent.1), ih absent.2]

theorem place_append :
    order.place used (front ++ back) name =
      if name ∈ front.map Prod.fst then order.place used front name
      else order.place (used + extent front) back name := by
  induction front generalizing used with
  | nil => rfl
  | cons field front ih =>
      have total : used + extent (field :: front) = used + field.2 + extent front :=
        congrArg (used + ·) List.sum_cons |>.trans (Nat.add_assoc _ _ _).symm
      simp only [List.cons_append, place, List.map_cons, List.mem_cons, total]
      by_cases isFirst : field.1 = name
      · simp [isFirst]
      · have other : (name = field.1 ∨ name ∈ front.map Prod.fst) ↔
            name ∈ front.map Prod.fst := or_iff_right fun same => isFirst same.symm
        rw [if_neg isFirst, if_neg isFirst, ih]
        exact (if_congr other rfl rfl).symm

/-- The fields of a word that is declared from its other end for the other byte order are
placed where they are. -/
theorem place_reverse (start : Nat) (distinct : (fields.map Prod.fst).Nodup)
    (full : start + extent fields + used = 32) :
    place .big used fields.reverse name = place .little start fields name := by
  induction fields generalizing start with
  | nil => rfl
  | cons field fields ih =>
      rw [List.map_cons, List.nodup_cons] at distinct
      have total : extent (field :: fields) = field.2 + extent fields := List.sum_cons
      have behind : extent fields.reverse = extent fields := by
        rw [extent, List.map_reverse, List.sum_reverse]
        rfl
      have later := ih (start + field.2) distinct.2 (by omega)
      rw [List.reverse_cons, place_append, List.map_reverse, place]
      by_cases isFirst : field.1 = name
      · have absent : ¬ name ∈ (fields.map Prod.fst).reverse := by
          rw [List.mem_reverse, ← isFirst]
          exact distinct.1
        rw [if_neg absent, if_pos isFirst, place, if_pos isFirst, behind]
        exact congrArg (BitField.mk · field.2) (by omega)
      · rw [if_neg isFirst, ← later]
        split
        · rfl
        next absent =>
          rw [List.mem_reverse] at absent
          rw [place, if_neg isFirst, place, place_of_notMem]
          rwa [List.map_reverse, List.mem_reverse]

/-- A declaration that is mirrored for the other byte order places its fields alike. -/
theorem place_mirrored (declared : ByteOrder → List (Name × Nat))
    (mirrored : declared .big = (declared .little).reverse)
    (distinct : ((declared .little).map Prod.fst).Nodup)
    (full : extent (declared .little) = 32) :
    order.place 0 (declared order) name = place .little 0 (declared .little) name := by
  cases order with
  | little => rfl
  | big =>
      rw [mirrored]
      exact place_reverse 0 distinct (by rw [full])

end ByteOrder

end SunWise.Library
