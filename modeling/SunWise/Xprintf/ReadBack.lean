import SunWise.Shell.Dump
import SunWise.Xprintf.Pieces

/-!
# Reading back what is put

`strtoul`, which reads the numbers of the shell, is given a number that `xprintf` has put.
A number that is padded with zeros has them in front of its sign, and one in base 2 has 16
digits at most.
-/

namespace SunWise.Xprintf

open Library

variable {r : Nat} {lower : Bool} {w : UInt32}

/-- The value of the digits that there is room for. -/
theorem ofDigits_wordDigits (isBase : IsBase r) (v : UInt32) :
    Nat.ofDigits r (wordDigits r v) = if r = 2 then v.toNat % 2 ^ 16 else v.toNat := by
  rw [wordDigits, ofDigits_take_digitsOf isBase.bounds.1, digitsSize]
  have small := v.toNat_lt
  rcases isBase with rfl | rfl | rfl | rfl
  · rfl
  all_goals exact Nat.mod_eq_of_lt (small.trans (by decide))

theorem ofDigits_lt (isBase : IsBase r) (v : UInt32) :
    Nat.ofDigits r (wordDigits r v) < 2 ^ 32 := by
  rw [ofDigits_wordDigits isBase]
  have small := v.toNat_lt
  split <;> omega

theorem wordDigits_lt (isBase : IsBase r) (v : UInt32) : ∀ digit ∈ wordDigits r v, digit < r :=
  fun digit isDigit => digitsOf_lt isBase.bounds.1 digit (List.mem_of_mem_take isDigit)

theorem wordDigits_ne_nil (isBase : IsBase r) (v : UInt32) : wordDigits r v ≠ [] := by
  rw [wordDigits, digitsOf_eq isBase.bounds.1]
  exact List.cons_ne_nil _ _

/-- Zeros in front of a numeral are digits of it. -/
theorem zeros_numeral (lower : Bool) (count : Nat) (digits : List Nat) :
    List.replicate count '0'.toUInt8 ++ numeral lower digits =
      numeral lower (digits ++ List.replicate count 0) := by
  have zero : digitChar lower 0 = '0'.toUInt8 := by
    cases lower <;> decide
  rw [numeral, numeral, List.map_append, List.reverse_append, List.map_replicate, zero,
    List.reverse_replicate]

theorem ofDigits_zeros (r count : Nat) (digits : List Nat) :
    Nat.ofDigits r (digits ++ List.replicate count 0) = Nat.ofDigits r digits := by
  rw [Nat.ofDigits_append]
  have zeros : Nat.ofDigits r (List.replicate count 0) = 0 := by
    induction count with
    | zero => rfl
    | succ count ih => rw [List.replicate_succ, Nat.ofDigits_cons, ih, Nat.mul_zero]
  rw [zeros, Nat.mul_zero, Nat.add_zero]

theorem areBlanks (count : Nat) : ∀ byte ∈ List.replicate count ' '.toUInt8, IsSpace byte := by
  intro byte isIn
  rw [List.eq_of_mem_replicate isIn]
  decide

theorem blanks_end (count : Nat) :
    ∀ byte ∈ (List.replicate count ' '.toUInt8).head?, EndsNumeral byte :=
  fun byte isHead => (areBlanks count byte (List.mem_of_mem_head? isHead)).endsNumeral

theorem nothing_ends : ∀ byte ∈ ([] : List UInt8).head?, EndsNumeral byte := by
  simp

theorem strtoul_zeros (isBase : IsBase r) (v : UInt32) (count : Nat) :
    strtoul (List.replicate count '0'.toUInt8 ++ numeral lower (wordDigits r v)) r =
      UInt32.ofNat (Nat.ofDigits r (wordDigits r v)) := by
  have digits : ∀ digit ∈ wordDigits r v ++ List.replicate count 0, digit < r := by
    intro digit isIn
    rcases List.mem_append.mp isIn with isDigit | isZero
    · exact wordDigits_lt isBase v digit isDigit
    · rw [List.eq_of_mem_replicate isZero]
      exact Nat.zero_lt_of_lt isBase.bounds.1
  have nonempty : wordDigits r v ++ List.replicate count 0 ≠ [] :=
    fun isNil => wordDigits_ne_nil isBase v (List.append_eq_nil_iff.mp isNil).1
  have fits : Nat.ofDigits r (wordDigits r v ++ List.replicate count 0) < 2 ^ 32 := by
    rw [ofDigits_zeros]
    exact ofDigits_lt isBase v
  have reads := strtoul_numeral lower false digits (isBase.bounds.2.trans (by decide)) nonempty
    fits (List.forall_mem_nil _) nothing_ends
  rw [List.nil_append, List.append_nil, ofDigits_zeros] at reads
  rw [zeros_numeral]
  exact reads

/-- Only the zeros in front of a sign are read. -/
theorem strtoul_zeros_minus (isBase : IsBase r) {count : Nat} (positive : 0 < count)
    (rest : List UInt8) :
    strtoul (List.replicate count '0'.toUInt8 ++ '-'.toUInt8 :: rest) r = 0 := by
  have digits : ∀ digit ∈ List.replicate count 0, digit < r := by
    intro digit isZero
    rw [List.eq_of_mem_replicate isZero]
    exact Nat.zero_lt_of_lt isBase.bounds.1
  have nonempty : List.replicate count 0 ≠ [] := by
    rw [ne_eq, List.replicate_eq_nil_iff]
    exact Nat.ne_of_gt positive
  have value := ofDigits_zeros r count []
  rw [List.nil_append, Nat.ofDigits_nil] at value
  have ends : ∀ byte ∈ ('-'.toUInt8 :: rest).head?, EndsNumeral byte := by
    rintro _ ⟨⟩
    decide
  have reads := strtoul_numeral false false digits (isBase.bounds.2.trans (by decide)) nonempty
    (Nat.lt_of_le_of_lt value.le (by decide)) (List.forall_mem_nil _) ends
  have zeros := zeros_numeral false count []
  rw [List.nil_append] at reads zeros
  rw [value, ← zeros, List.append_assoc] at reads
  exact reads

theorem strtoul_field (isBase : IsBase r) (f : Flags) (negative : Bool) (v : UInt32) :
    let text := signText negative ++ numeral lower (wordDigits r v)
    strtoul (field f (if f.zeroPadded then '0'.toUInt8 else ' '.toUInt8) w text) r =
      if negative then
        if f.leftJustified = false ∧ f.zeroPadded = true ∧ text.length < w.toNat then 0
        else -UInt32.ofNat (Nat.ofDigits r (wordDigits r v))
      else UInt32.ofNat (Nat.ofDigits r (wordDigits r v)) := by
  intro text
  have notLarge : r ≤ 33 := isBase.bounds.2.trans (by decide)
  have digits := wordDigits_lt isBase v
  have nonempty := wordDigits_ne_nil isBase v
  have fits := ofDigits_lt isBase v
  unfold field
  by_cases left : f.leftJustified = true
  · have reads := strtoul_numeral lower negative digits notLarge nonempty fits
      (List.forall_mem_nil _) (blanks_end (w.toNat - text.length))
    have notMisplaced : ¬ (f.leftJustified = false ∧ f.zeroPadded = true ∧
        text.length < w.toNat) := by
      rw [left]
      exact fun both => Bool.false_ne_true both.1.symm
    rw [if_pos left, if_neg notMisplaced, List.append_assoc]
    exact reads
  have right := Bool.eq_false_iff.mpr left
  rw [if_neg left]
  cases padded : f.zeroPadded with
  | false =>
      have reads := strtoul_numeral lower negative digits notLarge nonempty fits
        (areBlanks (w.toNat - text.length)) nothing_ends
      rw [List.append_nil] at reads
      have notMisplaced : ¬ (f.leftJustified = false ∧ false = true ∧ text.length < w.toNat) :=
        fun both => Bool.false_ne_true both.2.1
      rw [if_neg notMisplaced]
      exact reads
  | true =>
      cases negative with
      | false => exact strtoul_zeros isBase v _
      | true =>
          simp only [↓reduceIte, true_and, right]
          by_cases misplaced : text.length < w.toNat
          · rw [if_pos misplaced]
            exact strtoul_zeros_minus isBase (Nat.sub_pos_of_lt misplaced) _
          · have none : w.toNat - text.length = 0 := by omega
            have reads := strtoul_numeral lower true digits notLarge nonempty fits
              (List.forall_mem_nil _) nothing_ends
            rw [List.nil_append, List.append_nil] at reads
            rw [if_neg misplaced, none]
            exact reads

theorem ofNat_wordDigits_eq_iff (isBase : IsBase r) (v : UInt32) :
    UInt32.ofNat (Nat.ofDigits r (wordDigits r v)) = v ↔ (r = 2 → v.toNat < 2 ^ 16) := by
  have small := v.toNat_lt
  rw [ofDigits_wordDigits isBase, ← UInt32.toNat_inj, UInt32.toNat_ofNat']
  split
  next isTwo =>
    rw [Nat.mod_eq_of_lt ((Nat.mod_lt _ (by decide)).trans (by decide : 2 ^ 16 < 2 ^ 32))]
    exact ⟨fun same _ => same ▸ Nat.mod_lt _ (by decide),
      fun short => Nat.mod_eq_of_lt (short isTwo)⟩
  next notTwo =>
    exact ⟨fun _ isTwo => absurd isTwo notTwo, fun _ => Nat.mod_eq_of_lt small⟩

/-- A signed number as its sign and its numeral. -/
theorem numberText_eq (r : Nat) (lower isSigned : Bool) (v : UInt32) :
    numberText r lower isSigned v =
      let negative := decide (isSigned = true ∧ 0x80000000 ≤ v)
      signText negative ++ numeral lower (wordDigits r (if negative then 0 - v else v)) := by
  unfold numberText signText
  dsimp only
  by_cases negative : isSigned = true ∧ 0x80000000 ≤ v
  · rw [if_pos negative, decide_eq_true negative]
    rfl
  · rw [if_neg negative, decide_eq_false negative]
    rfl

/-- A sequence for a number. -/
theorem xvprintf_number {modifiers : Modifiers} {type : UInt8} (valid : modifiers.Valid)
    (ends : modifiers.Ends type) (isNumber : baseOf (upper type) = some r)
    (fits : (widthOf modifiers.width).toNat + 1 < 2 ^ 32) (v : UInt32) (rest : List UInt8) :
    xvprintf (modifiers.text ++ type :: 0 :: rest) [.word v] =
      some (field modifiers.flags (if modifiers.flags.zeroPadded then '0'.toUInt8 else ' '.toUInt8)
        (widthOf modifiers.width)
        (numberText r (type = 'x'.toUInt8) (upper type = 'D'.toUInt8) v)) := by
  have isPiece : ∀ piece ∈ [Piece.sequence modifiers type], piece.Valid :=
    List.forall_mem_singleton.mpr ⟨valid, ends⟩
  have isFit : Fits [.sequence modifiers type] [.word v] := by
    refine ⟨fun other type isIn => ?_, fun array isIn => ?_⟩
    · cases List.mem_singleton.mp isIn
      exact fits
    · cases List.mem_singleton.mp isIn
  have noEnd : ∀ modifiers ∈ (none : Option Modifiers), modifiers.Valid := by simp
  have enough : [Piece.sequence modifiers type].length <
      (modifiers.text ++ type :: 0 :: rest).length + 1 := by simp
  have loops := xvprintfLoop_pieces isPiece noEnd isFit rest enough
  have notString : upper type ≠ 'S'.toUInt8 := by
    intro isString
    have none : baseOf 'S'.toUInt8 = none := by decide
    rw [isString, none] at isNumber
    cases isNumber
  have notChar : upper type ≠ 'C'.toUInt8 := by
    intro isChar
    have none : baseOf 'C'.toUInt8 = none := by decide
    rw [isChar, none] at isNumber
    cases isNumber
  have isFormat : [Piece.sequence modifiers type].flatMap Piece.text ++
      (endText none ++ 0 :: rest) = modifiers.text ++ type :: 0 :: rest := by
    simp [Piece.text, endText]
  rw [isFormat] at loops
  rw [xvprintf, loops, putAll, Piece.put, typeText]
  dsimp only
  rw [if_neg notString, if_neg notChar, isNumber]
  simp [putAll]

/-- `%08x`. -/
def paddedHex : Modifiers :=
  ⟨.zero, ['8'.toUInt8], none⟩

theorem paddedHex_valid : paddedHex.Valid :=
  ⟨by decide +kernel, fun isNone => absurd isNone (by decide), by decide +kernel⟩

theorem paddedHex_ends : paddedHex.Ends 'x'.toUInt8 :=
  ⟨by decide, fun _ => by decide, fun _ => by decide, fun isPlain => absurd isPlain (by decide)⟩

theorem hexDigits_eq (size v : Nat) :
    Shell.hexDigits size v = numeral true ((digitsOf 16 v).take size) := by
  have digit : ∀ d < 16, Shell.hexDigit d = digitChar true d := by
    decide
  induction size generalizing v with
  | zero => rfl
  | succ size ih =>
      rw [Shell.hexDigits, digitsOf_eq (by decide), List.take_succ_cons, numeral, List.map_cons,
        List.reverse_cons, digit _ (Nat.mod_lt _ (by decide)), ih]
      split
      next => rw [List.take_nil]; rfl
      next => rfl

/-- A number of a dump is what `%02x` or `%08x` puts. -/
theorem xvprintf_hexText {width : List UInt8} (valid : Modifiers.Valid ⟨.zero, width, none⟩)
    (fits : (widthOf width).toNat + 1 < 2 ^ 32) (v : UInt32) (rest : List UInt8) :
    xvprintf (Modifiers.text ⟨.zero, width, none⟩ ++ 'x'.toUInt8 :: 0 :: rest) [.word v] =
      some (Shell.hexText (widthOf width).toNat v) := by
  have ends : Modifiers.Ends ⟨.zero, width, none⟩ 'x'.toUInt8 :=
    ⟨by decide, fun _ => by decide, fun _ => by decide, fun isPlain => by injections⟩
  have isNumber : baseOf (upper 'x'.toUInt8) = some 16 := by decide
  rw [xvprintf_number valid ends isNumber fits, Shell.hexText, hexDigits_eq]
  rfl

end SunWise.Xprintf
