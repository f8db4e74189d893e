import Mathlib.Data.List.Induction
import SunWise.Library.Memory

/-!
# A terminal row

A row of cells with a cursor, on which the bytes that a terminal receives act: a backspace
moves the cursor to the left, a carriage return to the start of the row, a line feed opens
a blank row, and any other byte overwrites the cell at the cursor.
-/

namespace SunWise.Library

/-- A row of cells and the cursor. -/
@[ext] structure Terminal where
  cells : Nat → UInt8
  cursor : Nat

/-- A row that shows a text, with blanks behind it. -/
def row (text : List UInt8) : Nat → UInt8 :=
  fun column => text.getD column 0x20

namespace Terminal

/-- A blank row. -/
def blank : Terminal where
  cells := row []
  cursor := 0

/-- A byte arrives. -/
def receive (terminal : Terminal) (byte : UInt8) : Terminal :=
  if byte = 0x08 then { terminal with cursor := terminal.cursor - 1 }
  else if byte = 0x0d then { terminal with cursor := 0 }
  else if byte = 0x0a then { terminal with cells := row [] }
  else
    { cells := store terminal.cells terminal.cursor [byte], cursor := terminal.cursor + 1 }

/-- Bytes arrive. -/
def display (terminal : Terminal) (bytes : List UInt8) : Terminal :=
  bytes.foldl receive terminal

/-- A byte that is shown. -/
def Visible (byte : UInt8) : Prop :=
  byte ≠ 0x08 ∧ byte ≠ 0x0d ∧ byte ≠ 0x0a

variable {terminal : Terminal}

@[simp] theorem display_nil : terminal.display [] = terminal := rfl

theorem display_append (first second : List UInt8) :
    terminal.display (first ++ second) = (terminal.display first).display second :=
  List.foldl_append ..

theorem display_visible {text : List UInt8} (visible : ∀ byte ∈ text, Visible byte) :
    terminal.display text =
      { cells := store terminal.cells terminal.cursor text
        cursor := terminal.cursor + text.length } := by
  induction text generalizing terminal with
  | nil => simp
  | cons byte text ih =>
      rw [List.forall_mem_cons] at visible
      rcases visible.1 with ⟨notBackspace, notReturn, notFeed⟩
      have first : terminal.receive byte =
          { cells := store terminal.cells terminal.cursor [byte]
            cursor := terminal.cursor + 1 } := by
        rw [receive, if_neg notBackspace, if_neg notReturn, if_neg notFeed]
      have stores := @store_append _ terminal.cells terminal.cursor [byte] text
      rw [List.singleton_append, List.length_singleton] at stores
      rw [display, List.foldl_cons, first, ← display, ih visible.2, stores, List.length_cons,
        Nat.add_assoc, Nat.add_comm 1]

theorem display_backspaces (count : Nat) :
    terminal.display (List.replicate count 0x08) =
      { terminal with cursor := terminal.cursor - count } := by
  induction count generalizing terminal with
  | zero => rfl
  | succ count ih =>
      have first : terminal.receive 0x08 = { terminal with cursor := terminal.cursor - 1 } := rfl
      rw [List.replicate_succ, display, List.foldl_cons, first, ← display, ih, Nat.sub_sub,
        Nat.add_comm 1]

/-- Wiping out moves the cursor like backspaces do. -/
theorem display_wipe_cursor (count : Nat) :
    (terminal.display (List.replicate count [0x08, 0x20, 0x08]).flatten).cursor =
      terminal.cursor - count := by
  induction count generalizing terminal with
  | zero => rfl
  | succ count ih =>
      have first : (terminal.display [0x08, 0x20, 0x08]).cursor = terminal.cursor - 1 := rfl
      rw [List.replicate_succ, List.flatten_cons, display_append, ih, first, Nat.sub_sub,
        Nat.add_comm 1]

end Terminal

section Row

variable (front back new : List UInt8)

/-- A blank at the end of a text is not seen. -/
@[simp] theorem row_append_blank : row (front ++ [0x20]) = row front := by
  funext column
  simp only [row, List.getD_eq_getElem?_getD, List.getElem?_append, List.getElem?_singleton]
  split
  · rfl
  next past =>
    rw [List.getElem?_eq_none (Nat.not_lt.mp past)]
    split <;> rfl

theorem store_row :
    store (row (front ++ back)) front.length new =
      row (front ++ new ++ back.drop new.length) := by
  funext column
  by_cases inFront : column < front.length
  · have notAfter : ¬front.length ≤ column := Nat.not_le.mpr inFront
    simp [row, store, notAfter, List.getElem?_append_left inFront]
  · have after : front.length ≤ column := Nat.not_lt.mp inFront
    simp only [row, store, if_pos after, List.append_assoc, List.getD_eq_getElem?_getD,
      List.getElem?_append_right after]
    by_cases inNew : column - front.length < new.length
    · simp [List.getElem?_append_left inNew, inNew]
    · have past := Nat.not_lt.mp inNew
      have offset : new.length + (column - front.length - new.length) =
          column - front.length := by omega
      simp [List.getElem?_append_right past, List.getElem?_eq_none past, offset]

/-- Wiping out the end of the text. -/
theorem display_wipe {terminal : Terminal} (cells : terminal.cells = row (front ++ back))
    (cursor : terminal.cursor = (front ++ back).length) :
    terminal.display (List.replicate back.length [0x08, 0x20, 0x08]).flatten =
      { cells := row front, cursor := front.length } := by
  induction back using List.reverseRecOn generalizing terminal with
  | nil =>
      rw [List.append_nil] at cells cursor
      ext : 1
      · exact cells
      · exact cursor
  | append_singleton back last ih =>
      have first : terminal.display [0x08, 0x20, 0x08] =
          { cells := store terminal.cells (terminal.cursor - 1) [0x20]
            cursor := terminal.cursor - 1 } := rfl
      have before : terminal.cursor - 1 = (front ++ back).length := by
        rw [cursor, ← List.append_assoc, List.length_append, List.length_singleton]
        rfl
      rw [List.length_append, List.length_singleton, List.replicate_succ, List.flatten_cons,
        Terminal.display_append, first, before, cells, ← List.append_assoc, store_row]
      apply ih
      · have wiped := row_append_blank (front ++ back)
        simpa using wiped
      · rfl

end Row

end SunWise.Library
