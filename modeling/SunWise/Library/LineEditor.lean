import Mathlib.Data.List.Basic

/-!
# Editing a line

A line with a cursor in it.  A line that gets longer than the capacity is dropped.
-/

namespace SunWise.Library

/-- A line of at most `capacity` elements and a cursor before one of them or at the
end. -/
@[ext] structure LineEditor (Element : Type*) (capacity : Nat) where
  line : List Element
  cursor : Nat
  cursor_le : cursor ≤ line.length
  length_le : line.length ≤ capacity

namespace LineEditor

variable {Element : Type*} {capacity : Nat}

/-- No line. -/
def empty : LineEditor Element capacity where
  line := []
  cursor := 0
  cursor_le := Nat.le_refl _
  length_le := Nat.zero_le _

/-- The line, unless it is too long. -/
def ofLine (line : List Element) (cursor : Nat) (cursor_le : cursor ≤ line.length) :
    LineEditor Element capacity :=
  if length_le : line.length ≤ capacity then { line, cursor, cursor_le, length_le } else empty

/-- Another line, with the cursor at its end. -/
def replace (line : List Element) : LineEditor Element capacity :=
  ofLine line line.length (Nat.le_refl _)

variable (editor : LineEditor Element capacity)

/-- Insert at the cursor. -/
def insert (element : Element) : LineEditor Element capacity :=
  ofLine (editor.line.take editor.cursor ++ element :: editor.line.drop editor.cursor)
    (editor.cursor + 1) (by
      have cursor_le := editor.cursor_le
      simp only [List.length_append, List.length_take, List.length_cons, List.length_drop]
      omega)

/-- Delete before the cursor. -/
def delete : LineEditor Element capacity :=
  ofLine (editor.line.take (editor.cursor - 1) ++ editor.line.drop editor.cursor)
    (editor.cursor - 1) (by
      have cursor_le := editor.cursor_le
      simp only [List.length_append, List.length_take, List.length_drop]
      omega)

/-- Move the cursor to the left. -/
def left : LineEditor Element capacity :=
  { editor with
    cursor := editor.cursor - 1
    cursor_le := Nat.le_trans (Nat.sub_le _ _) editor.cursor_le }

/-- Move the cursor to the right. -/
def right : LineEditor Element capacity :=
  { editor with
    cursor := min (editor.cursor + 1) editor.line.length
    cursor_le := Nat.min_le_right _ _ }

/-- Complete the line to the first of `words` that it is a prefix of, followed by
`separator`. The cursor goes to the end in any case. -/
def complete [DecidableEq Element] (words : List (List Element)) (separator : Element) :
    LineEditor Element capacity :=
  match words.find? fun word => editor.line.isPrefixOf word with
  | some word => replace (word ++ [separator])
  | none => replace editor.line

theorem ofLine_eq {line : List Element} {cursor : Nat} (cursor_le : cursor ≤ line.length)
    (length_le : line.length ≤ capacity) :
    ofLine line cursor cursor_le = { line, cursor, cursor_le, length_le } :=
  dif_pos length_le

theorem ofLine_eq_empty {line : List Element} {cursor : Nat}
    (cursor_le : cursor ≤ line.length) (long : capacity < line.length) :
    ofLine line cursor cursor_le = (empty : LineEditor Element capacity) :=
  dif_neg (Nat.not_le.mpr long)

theorem replace_eq {line : List Element} (length_le : line.length ≤ capacity) :
    (replace line : LineEditor Element capacity) =
      { line, cursor := line.length, cursor_le := Nat.le_refl _, length_le } :=
  ofLine_eq _ length_le

theorem length_insert (element : Element) :
    (editor.line.take editor.cursor ++ element :: editor.line.drop editor.cursor).length =
      editor.line.length + 1 := by
  have cursor_le := editor.cursor_le
  simp only [List.length_append, List.length_take, List.length_cons, List.length_drop]
  omega

theorem length_delete (inside : editor.cursor ≠ 0) :
    (editor.line.take (editor.cursor - 1) ++ editor.line.drop editor.cursor).length =
      editor.line.length - 1 := by
  have cursor_le := editor.cursor_le
  simp only [List.length_append, List.length_take, List.length_drop]
  omega

theorem delete_start (atStart : editor.cursor = 0) : editor.delete = editor := by
  have whole : editor.line.take (editor.cursor - 1) ++ editor.line.drop editor.cursor =
      editor.line := by simp [atStart]
  rw [delete, ofLine_eq _ (by rw [whole]; exact editor.length_le)]
  ext : 1
  · exact whole
  · simp [atStart]

section Completion

variable [DecidableEq Element] (words : List (List Element)) (separator : Element)
  (line : List Element)

/-- What a line is completed to. -/
def completeLine : List Element :=
  match words.find? fun word => line.isPrefixOf word with
  | some word => word ++ [separator]
  | none => line

theorem complete_eq : editor.complete words separator =
    replace (completeLine words separator editor.line) := by
  unfold complete completeLine
  split <;> rfl

/-- A line stays if no word extends it, and becomes the first word that does otherwise. -/
theorem completeLine_cases :
    (∀ word ∈ words, ¬ line <+: word) ∧ completeLine words separator line = line ∨
      ∃ front word back, words = front ++ word :: back ∧
        (∀ earlier ∈ front, ¬ line <+: earlier) ∧ line <+: word ∧
        completeLine words separator line = word ++ [separator] := by
  unfold completeLine
  cases found : words.find? fun word => line.isPrefixOf word with
  | none =>
      refine Or.inl ⟨?_, rfl⟩
      simpa using found
  | some word =>
      rcases List.find?_eq_some_iff_append.mp found with ⟨isPrefix, front, back, isSplit, others⟩
      refine Or.inr ⟨front, word, back, isSplit, ?_, List.isPrefixOf_iff_prefix.mp isPrefix, rfl⟩
      intro earlier isEarlier isLonger
      have differs := others earlier isEarlier
      rw [List.isPrefixOf_iff_prefix.mpr isLonger] at differs
      cases differs

/-- What holds of the line and of every word with the separator. -/
theorem completeLine_of_forall {P : List Element → Prop} (start : P line)
    (each : ∀ word ∈ words, P (word ++ [separator])) : P (completeLine words separator line) := by
  rcases completeLine_cases words separator line with
    ⟨-, same⟩ | ⟨front, word, back, rfl, -, -, completed⟩
  · rw [same]
    exact start
  · rw [completed]
    exact each word (by simp)

/-- Words without separators are completed once. -/
theorem completeLine_completeLine (apart : ∀ word ∈ words, separator ∉ word) :
    completeLine words separator (completeLine words separator line) =
      completeLine words separator line := by
  rcases completeLine_cases words separator line with
    ⟨-, same⟩ | ⟨front, word, back, -, -, -, completed⟩
  · rw [same, same]
  · rw [completed]
    rcases completeLine_cases words separator (word ++ [separator]) with
      ⟨-, same⟩ | ⟨front, longer, back, rfl, -, extended, -⟩
    · exact same
    · exfalso
      apply apart longer (by simp)
      exact extended.subset (by simp)

end Completion

end LineEditor

end SunWise.Library
