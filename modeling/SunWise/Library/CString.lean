import Mathlib.Data.List.TakeWhile
import SunWise.Library.Memory

/-!
# NUL-terminated strings

Strings in arrays of bytes.  An array is a memory with the index at which it ends; a
string that starts in it is read up to its first NUL, or up to the end of the array when
there is none.
-/

namespace SunWise.Library

/-- The string that starts at `start` of an array that ends at `limit`. -/
def cString (memory : Nat → UInt8) (limit start : Nat) : List UInt8 :=
  (load memory start (limit - start)).takeWhile (· ≠ 0)

/-- The string ends inside the array. -/
def Terminated (memory : Nat → UInt8) (limit start : Nat) : Prop :=
  0 ∈ load memory start (limit - start)

instance (memory : Nat → UInt8) (limit start : Nat) :
    Decidable (Terminated memory limit start) :=
  inferInstanceAs (Decidable (0 ∈ load memory start (limit - start)))

/-- A string and its NUL. -/
structure HoldsString (memory : Nat → UInt8) (start : Nat) (text : List UInt8) : Prop where
  load : load memory start text.length = text
  nul : memory (start + text.length) = 0
  nonzero : 0 ∉ text

/-- The array of a text and its NUL. -/
def literal (text : List UInt8) : Nat → UInt8 :=
  fun index => text.getD index 0

/-- `strncmp`, from the start of both strings. -/
def strncmp (left right : Nat → UInt8) : Nat → Int
  | 0 => 0
  | count + 1 =>
      if left 0 ≠ right 0 then (left 0).toNat - (right 0).toNat
      else if left 0 = 0 then 0
      else strncmp (fun index => left (index + 1)) (fun index => right (index + 1)) count

/-- `isspace`. -/
def IsSpace (byte : UInt8) : Prop :=
  byte = 0x20 ∨ 0x09 ≤ byte ∧ byte ≤ 0x0d

instance (byte : UInt8) : Decidable (IsSpace byte) :=
  inferInstanceAs (Decidable (byte = 0x20 ∨ 0x09 ≤ byte ∧ byte ≤ 0x0d))

/-- The value of a digit, at most 36. -/
def digitValue (byte : UInt8) : Nat :=
  if '0'.toUInt8 ≤ byte ∧ byte ≤ '9'.toUInt8 then byte.toNat - '0'.toNat
  else if 'a'.toUInt8 ≤ byte ∧ byte ≤ 'z'.toUInt8 then byte.toNat - 'a'.toNat + 10
  else if 'A'.toUInt8 ≤ byte ∧ byte ≤ 'Z'.toUInt8 then byte.toNat - 'A'.toNat + 10
  else 36

/-- A string behind `0x`, which belongs to a number in base 16. -/
def dropHexPrefix : List UInt8 → List UInt8
  | zero :: letter :: text =>
      if zero = '0'.toUInt8 ∧ (letter = 'x'.toUInt8 ∨ letter = 'X'.toUInt8) then text
      else zero :: letter :: text
  | text => text

/-- `strtoul(text, NULL, base)` with 32 bits: blanks, a sign, a prefix, and digits up to the
first other byte. -/
def strtoul (text : List UInt8) (base : Nat) : UInt32 :=
  let text := text.dropWhile (IsSpace ·)
  let negative := text.head? = some '-'.toUInt8
  let text := if negative ∨ text.head? = some '+'.toUInt8 then text.tail else text
  let text := if base = 16 then dropHexPrefix text else text
  let digits := (text.map digitValue).takeWhile (· < base)
  let value := digits.foldl (fun value digit => value * base + digit) 0
  if value ≥ 2 ^ 32 then 0xffffffff
  else if negative then -UInt32.ofNat value
  else UInt32.ofNat value

section Strings

variable {memory : Nat → UInt8} {limit start : Nat}

theorem terminated_iff :
    Terminated memory limit start ↔
      ∃ index, start ≤ index ∧ index < limit ∧ memory index = 0 := by
  simp only [Terminated, load, List.mem_map, List.mem_range]
  constructor
  · rintro ⟨offset, inside, isNul⟩
    exact ⟨start + offset, Nat.le_add_right _ _, by omega, isNul⟩
  · rintro ⟨index, after, inside, isNul⟩
    refine ⟨index - start, by omega, ?_⟩
    rwa [Nat.add_sub_cancel' after]

theorem cString_eq_append {count : Nat} (fits : start + count ≤ limit)
    (nonzero : 0 ∉ load memory start count) :
    cString memory limit start =
      load memory start count ++ cString memory limit (start + count) := by
  have split : limit - start = count + (limit - (start + count)) := by omega
  rw [cString, split, load_add, List.takeWhile_append_of_pos]
  · rfl
  · intro byte inFront
    have apart : byte ≠ 0 := fun isNul => nonzero (isNul ▸ inFront)
    simp [apart]

@[simp] theorem cString_of_nul (isNul : memory start = 0) :
    cString memory limit start = [] := by
  unfold cString
  cases limit - start with
  | zero => rfl
  | succ count =>
      rw [Nat.add_comm, load_add]
      simp [load, isNul]

theorem cString_of_byte (inside : start < limit) (isByte : memory start ≠ 0) :
    cString memory limit start = memory start :: cString memory limit (start + 1) := by
  have single : load memory start 1 = [memory start] := rfl
  have nonzero : 0 ∉ load memory start 1 := by
    rw [single]
    simpa using isByte.symm
  rw [cString_eq_append inside nonzero, single, List.singleton_append]

theorem cString_nonzero : 0 ∉ cString memory limit start := by
  intro isIn
  simpa using List.mem_takeWhile_imp isIn

theorem mem_of_mem_cString {byte : UInt8} (isIn : byte ∈ cString memory limit start) :
    ∃ index, start ≤ index ∧ index < limit ∧ memory index = byte := by
  have loaded := (List.takeWhile_sublist _).subset isIn
  simp only [load, List.mem_map, List.mem_range] at loaded
  rcases loaded with ⟨offset, inside, rfl⟩
  exact ⟨start + offset, Nat.le_add_right _ _, by omega, rfl⟩

end Strings

namespace HoldsString

variable {memory : Nat → UInt8} {limit start : Nat} {text : List UInt8}

theorem cString_eq (holds : HoldsString memory start text)
    (fits : start + text.length < limit) : cString memory limit start = text := by
  have nonzero : 0 ∉ Library.load memory start text.length := by
    rw [holds.load]
    exact holds.nonzero
  rw [cString_eq_append (Nat.le_of_lt fits) nonzero, cString_of_nul holds.nul, holds.load,
    List.append_nil]

theorem terminated (holds : HoldsString memory start text)
    (fits : start + text.length < limit) : Terminated memory limit start :=
  terminated_iff.mpr ⟨_, Nat.le_add_right _ _, fits, holds.nul⟩

theorem drop (holds : HoldsString memory start text) {count : Nat}
    (inside : count ≤ text.length) : HoldsString memory (start + count) (text.drop count) where
  load := by
    have fits : count + (text.drop count).length ≤ text.length := by
      rw [List.length_drop]
      omega
    have part := take_drop_load memory start fits
    rw [holds.load, List.take_length] at part
    exact part.symm
  nul := by
    have past : start + count + (text.drop count).length = start + text.length := by
      rw [List.length_drop]
      omega
    rw [past]
    exact holds.nul
  nonzero isIn := holds.nonzero (List.mem_of_mem_drop isIn)

end HoldsString

/-- Storing a string and its NUL. -/
theorem holdsString_store (memory : Nat → UInt8) (start : Nat) {text : List UInt8}
    (nonzero : 0 ∉ text) :
    HoldsString (store memory start (text ++ [0])) start text where
  load := by
    rw [store_append, load_store_disjoint _ (Or.inl (Nat.le_refl _)), load_store_self]
  nul := by simp [store]
  nonzero := nonzero

theorem HoldsString.cons {memory : Nat → UInt8} {start : Nat} {text : List UInt8}
    (holds : HoldsString memory (start + 1) text) (isByte : memory start ≠ 0) :
    HoldsString memory start (memory start :: text) where
  load := by
    rw [List.length_cons, Nat.add_comm, load_add, holds.load]
    rfl
  nul := by
    rw [List.length_cons, ← Nat.add_assoc, Nat.add_right_comm]
    exact holds.nul
  nonzero := by simp [isByte.symm, holds.nonzero]

theorem holdsString_cString {memory : Nat → UInt8} {limit start : Nat}
    (terminated : Terminated memory limit start) :
    HoldsString memory start (cString memory limit start) ∧
      start + (cString memory limit start).length < limit := by
  rcases terminated_iff.mp terminated with ⟨last, after, inside, isNul⟩
  obtain ⟨gap, rfl⟩ := Nat.exists_eq_add_of_le after
  clear terminated after
  induction gap generalizing start with
  | zero =>
      rw [Nat.add_zero] at inside isNul
      rw [cString_of_nul isNul]
      exact ⟨⟨rfl, isNul, List.not_mem_nil⟩, inside⟩
  | succ gap ih =>
      by_cases isFirst : memory start = 0
      · rw [cString_of_nul isFirst]
        exact ⟨⟨rfl, isFirst, List.not_mem_nil⟩, by rw [List.length_nil]; omega⟩
      · have later : start + (gap + 1) = start + 1 + gap := by omega
        rw [later] at inside isNul
        rcases ih inside isNul with ⟨holds, fits⟩
        rw [cString_of_byte (by omega) isFirst, List.length_cons]
        exact ⟨holds.cons isFirst, by omega⟩

/-- A string stays what it is when its bytes up to the NUL do. -/
theorem cString_congr {left right : Nat → UInt8} {start limit bound : Nat}
    (terminated : Terminated left limit start) (fits : limit ≤ bound)
    (same : ∀ index < limit, right index = left index) :
    cString right bound start = cString left bound start := by
  rcases holdsString_cString terminated with ⟨holds, inside⟩
  have moved : HoldsString right start (cString left limit start) :=
    { load := by
        refine Eq.trans ?_ holds.load
        rw [load_eq_load_iff]
        exact fun offset short => same _ (by omega)
      nul := (same _ inside).trans holds.nul
      nonzero := holds.nonzero }
  rw [moved.cString_eq (inside.trans_le fits), holds.cString_eq (inside.trans_le fits)]

section Literal

variable {text : List UInt8}

/-- The array of a literal holds it. -/
theorem load_literal (text : List UInt8) {count start : Nat}
    (fits : start + count ≤ text.length) :
    load (literal text) start count = (text.drop start).take count := by
  apply List.ext_getElem
  · simp only [load_length, List.length_take, List.length_drop]
    omega
  · intro offset left right
    have inside : start + offset < text.length := by
      rw [load_length] at left
      omega
    simp [load, literal, inside]

theorem holdsString_literal (nonzero : 0 ∉ text) {start : Nat} (inside : start ≤ text.length) :
    HoldsString (literal text) start (text.drop start) where
  load := by
    rw [load_literal text (by rw [List.length_drop]; omega), List.take_length]
  nul := by
    have past : start + (text.drop start).length = text.length := by
      rw [List.length_drop]
      omega
    rw [past]
    simp [literal]
  nonzero isIn := nonzero (List.mem_of_mem_drop isIn)

theorem cString_literal (nonzero : 0 ∉ text) {start : Nat} (inside : start ≤ text.length) :
    cString (literal text) (text.length + 1) start = text.drop start := by
  apply (holdsString_literal nonzero inside).cString_eq
  rw [List.length_drop]
  omega

theorem terminated_literal (nonzero : 0 ∉ text) {start : Nat} :
    Terminated (literal text) (text.length + 1) start ↔ start ≤ text.length := by
  constructor
  · rintro isTerminated
    rcases terminated_iff.mp isTerminated with ⟨index, after, inside, -⟩
    omega
  · intro inside
    apply (holdsString_literal nonzero inside).terminated
    rw [List.length_drop]
    omega

/-- A text without NULs agrees with a literal exactly when it is a prefix of it. -/
theorem load_literal_eq_iff {front : List UInt8} (nonzero : 0 ∉ front) :
    front = load (literal text) 0 front.length ↔ front <+: text := by
  rw [List.prefix_iff_eq_take]
  by_cases fits : front.length ≤ text.length
  · rw [load_literal text (by omega), List.drop_zero]
  · refine iff_of_false (fun equal => nonzero ?_) (fun equal => fits ?_)
    · -- the NUL of the literal would be in the text
      rw [equal]
      simp only [load, List.mem_map, List.mem_range]
      exact ⟨text.length, by omega, by simp [literal]⟩
    · rw [equal]
      exact List.length_take_le' _ _

end Literal

/-- Two strings agree up to `count` bytes when they agree up to the first NUL. -/
theorem strncmp_eq_zero_iff (left right : Nat → UInt8) (count : Nat) :
    strncmp left right count = 0 ↔
      ∀ index < count, (∀ before < index, left before ≠ 0) → left index = right index := by
  induction count generalizing left right with
  | zero => simp [strncmp]
  | succ count ih =>
      rw [strncmp]
      split
      next apart =>
        have differ : ((left 0).toNat : Int) - (right 0).toNat ≠ 0 := by
          intro equal
          exact apart (UInt8.toNat_inj.mp (by omega))
        refine iff_of_false differ fun agree => apart ?_
        exact agree 0 (Nat.succ_pos _) nofun
      next same =>
        rw [not_not] at same
        split
        next isNul =>
          refine iff_of_true rfl fun index _ before => ?_
          cases index with
          | zero => exact same
          | succ index => exact absurd isNul (before 0 (Nat.succ_pos _))
        next isByte =>
          rw [ih]
          constructor
          · intro agree index inside before
            cases index with
            | zero => exact same
            | succ index =>
                refine agree index (Nat.lt_of_succ_lt_succ inside) fun earlier isEarlier => ?_
                exact before (earlier + 1) (Nat.succ_lt_succ isEarlier)
          · intro agree index inside before
            refine agree (index + 1) (Nat.succ_lt_succ inside) fun earlier isEarlier => ?_
            cases earlier with
            | zero => exact isByte
            | succ earlier => exact before earlier (Nat.lt_of_succ_lt_succ isEarlier)

/-- On strings without NULs `strncmp` compares all `count` bytes. -/
theorem strncmp_eq_zero_iff_load {left right : Nat → UInt8} {count : Nat}
    (nonzero : 0 ∉ load left 0 count) :
    strncmp left right count = 0 ↔ load left 0 count = load right 0 count := by
  have isByte : ∀ index < count, left index ≠ 0 := by
    intro index inside isNul
    apply nonzero
    simp only [load, List.mem_map, List.mem_range]
    exact ⟨index, inside, by rw [Nat.zero_add, isNul]⟩
  rw [strncmp_eq_zero_iff, load_eq_load_iff]
  simp only [Nat.zero_add]
  constructor
  · exact fun agree index inside => agree index inside fun before isBefore =>
      isByte before (Nat.lt_trans isBefore inside)
  · exact fun agree index inside _ => agree index inside

end SunWise.Library
