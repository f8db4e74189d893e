import Mathlib.Algebra.BigOperators.Group.List.Basic
import Mathlib.Algebra.Ring.Nat

/-!
# Cursors in segmented data

Data that is cut into segments is walked with two numbers, the index of a segment and an
offset into it.  A cursor that reaches the end of a segment moves on to the start of the
next one, so that it stands either before a cell or behind the last segment.  Walks over
two different cuts of the same data can be compared through their positions.
-/

namespace SunWise.Library

/-- How many cells lie before a cursor, given the lengths of the segments. -/
def position (lens : List Nat) (index offset : Nat) : Nat :=
  (lens.take index).sum + offset

/-- The cursor stands before a cell or behind the last segment. -/
def Inside (lens : List Nat) (index offset : Nat) : Prop :=
  (∃ len, lens[index]? = some len ∧ offset < len) ∨ (index = lens.length ∧ offset = 0)

section Cursor

variable {lens : List Nat} {index offset len : Nat}

/-- A cursor before the last cell stands in a segment. -/
theorem Inside.exists_segment (inside : Inside lens index offset)
    (before : position lens index offset < lens.sum) :
    ∃ len, lens[index]? = some len ∧ offset < len := by
  rcases inside with inSegment | ⟨rfl, rfl⟩
  · exact inSegment
  · simp [position] at before

/-- The start of a segment is a place for a cursor, and so is the end of the last. -/
theorem inside_start (positive : ∀ len ∈ lens, 0 < len) (bound : index ≤ lens.length) :
    Inside lens index 0 := by
  rcases Nat.lt_or_eq_of_le bound with below | isEnd
  · refine Or.inl ⟨lens[index], List.getElem?_eq_getElem below, ?_⟩
    exact positive _ (List.getElem_mem below)
  · exact Or.inr ⟨isEnd, rfl⟩

theorem position_succ (isSegment : lens[index]? = some len) :
    position lens (index + 1) 0 = position lens index len := by
  simp [position, List.take_add_one, isSegment]

/-- A cursor that moves within a segment, and on at its end, passes that many cells. -/
theorem position_advance (isSegment : lens[index]? = some len) (count : Nat) :
    position lens (if offset + count = len then index + 1 else index)
        (if offset + count = len then 0 else offset + count) =
      position lens index offset + count := by
  split
  next atEnd =>
    rw [position_succ isSegment, ← atEnd]
    exact (Nat.add_assoc _ _ _).symm
  next => exact (Nat.add_assoc _ _ _).symm

theorem inside_advance (positive : ∀ len ∈ lens, 0 < len)
    (isSegment : lens[index]? = some len) {count : Nat} (fits : offset + count ≤ len) :
    Inside lens (if offset + count = len then index + 1 else index)
      (if offset + count = len then 0 else offset + count) := by
  split
  next =>
    apply inside_start positive
    exact (List.getElem?_eq_some_iff.mp isSegment).1
  next notEnd =>
    exact Or.inl ⟨len, isSegment, Nat.lt_of_le_of_ne fits notEnd⟩

/-- A cursor over segments that may be empty: it stands before a cell, or at the start of a
segment or behind the last. -/
def Between (lens : List Nat) (index offset : Nat) : Prop :=
  (∃ len, lens[index]? = some len ∧ offset < len) ∨ (index ≤ lens.length ∧ offset = 0)

/-- A cursor before the last cell stands at a segment, if only at an empty one. -/
theorem Between.exists_segment (between : Between lens index offset)
    (before : position lens index offset < lens.sum) :
    ∃ len, lens[index]? = some len ∧ offset ≤ len := by
  rcases between with ⟨len, isSegment, inside⟩ | ⟨bound, rfl⟩
  · exact ⟨len, isSegment, inside.le⟩
  · rcases Nat.lt_or_eq_of_le bound with below | rfl
    · exact ⟨lens[index], List.getElem?_eq_getElem below, Nat.zero_le _⟩
    · simp [position] at before

theorem between_advance (isSegment : lens[index]? = some len) {count : Nat}
    (fits : offset + count ≤ len) :
    Between lens (if offset + count = len then index + 1 else index)
      (if offset + count = len then 0 else offset + count) := by
  split
  next => exact Or.inr ⟨(List.getElem?_eq_some_iff.mp isSegment).1, rfl⟩
  next notEnd => exact Or.inl ⟨len, isSegment, Nat.lt_of_le_of_ne fits notEnd⟩

end Cursor

section Data

variable {Cell : Type*} {segments : List (List Cell)} {index offset count : Nat}
  {segment : List Cell}

/-- The cells before the segment, the segment, and the cells behind it. -/
theorem flatten_eq_around (isSegment : segments[index]? = some segment) :
    segments.flatten =
      (segments.take index).flatten ++ (segment ++ (segments.drop (index + 1)).flatten) := by
  rcases List.getElem?_eq_some_iff.mp isSegment with ⟨below, isSegment⟩
  rw [← List.flatten_cons, ← isSegment, ← List.drop_eq_getElem_cons below,
    ← List.flatten_append, List.take_append_drop]

theorem position_eq_length_add :
    position (segments.map List.length) index offset =
      (segments.take index).flatten.length + offset := by
  rw [position, List.length_flatten, List.map_take]

/-- What a cursor sees in its segment is what the data holds at its position. -/
theorem take_drop_position (isSegment : segments[index]? = some segment)
    (fits : offset + count ≤ segment.length) :
    (segments.flatten.drop (position (segments.map List.length) index offset)).take count =
      (segment.drop offset).take count := by
  rw [position_eq_length_add, flatten_eq_around isSegment, List.drop_length_add_append,
    List.drop_append_of_le_length (by omega), List.take_append_of_le_length]
  rw [List.length_drop]
  omega

/-- Replacing the segment behind the cursor keeps the data before it. -/
theorem take_position_set (isSegment : segments[index]? = some segment)
    {new : List Cell} (sameLength : new.length = segment.length)
    (keeps : new.take offset = segment.take offset)
    (fits : offset + count ≤ segment.length) :
    (segments.set index new).flatten.take
        (position (segments.map List.length) index offset + count) =
      segments.flatten.take (position (segments.map List.length) index offset) ++
        (new.drop offset).take count := by
  have below := (List.getElem?_eq_some_iff.mp isSegment).1
  have isNew : (segments.set index new)[index]? = some new := by simp [below]
  rw [position_eq_length_add, flatten_eq_around isSegment, flatten_eq_around isNew,
    List.take_set_of_le (Nat.le_refl index), Nat.add_assoc, List.take_length_add_append,
    List.take_length_add_append, List.take_append_of_le_length (by omega),
    List.take_append_of_le_length (by omega), List.append_assoc, List.take_add, keeps]

end Data

section Blocks

variable {Cell : Type*} {block : Nat → List Cell} {width count index offset : Nat}
  (same : ∀ index, (block index).length = width)
include same

theorem length_blocks (count : Nat) :
    ((List.range count).flatMap block).length = width * count := by
  induction count with
  | zero => rfl
  | succ count ih =>
      rw [List.range_succ, List.flatMap_append, List.length_append, ih, List.flatMap_singleton,
        same, Nat.mul_succ]

theorem getElem?_blocks (inside : index < count) (short : offset < width) :
    ((List.range count).flatMap block)[width * index + offset]? = (block index)[offset]? := by
  induction count with
  | zero => exact absurd inside (Nat.not_lt_zero _)
  | succ count ih =>
      have before := length_blocks same count
      rw [List.range_succ, List.flatMap_append, List.flatMap_singleton]
      rcases Nat.lt_succ_iff_lt_or_eq.mp inside with earlier | last
      · have below : width * index + offset < width * count :=
          calc width * index + offset < width * index + width := Nat.add_lt_add_left short _
            _ = width * (index + 1) := rfl
            _ ≤ width * count := Nat.mul_le_mul_left _ earlier
        rw [List.getElem?_append_left (before ▸ below)]
        exact ih earlier
      · rw [last, List.getElem?_append_right (before ▸ Nat.le_add_right _ _), before,
          Nat.add_sub_cancel_left]

end Blocks

end SunWise.Library
