import Mathlib.Data.Nat.Digits.Lemmas
import SunWise.Library.CString

/-!
# Numerals

Numbers as the text of their digits, in a base up to 36.  What is written so is read back by
`strtoul`.
-/

namespace SunWise.Library

/-- The digits of a number, the last one first. Zero has one, too. -/
def digitsOf (base value : Nat) : List Nat :=
  if value = 0 then [0] else Nat.digits base value

/-- The character of a digit. -/
def digitChar (lower : Bool) (digit : Nat) : UInt8 :=
  UInt8.ofNat (if digit < 10 then digit + '0'.toNat
    else digit - 10 + (if lower then 'a' else 'A').toNat)

/-- The text of digits, the first one last. -/
def numeral (lower : Bool) (digits : List Nat) : List UInt8 :=
  (digits.map (digitChar lower)).reverse

section Digits

variable {base value : Nat} {lower : Bool}

theorem digitsOf_eq (large : 1 < base) :
    digitsOf base value =
      value % base :: if value / base = 0 then [] else digitsOf base (value / base) := by
  unfold digitsOf
  split
  next isZero => simp [isZero]
  next positive =>
    rw [Nat.digits_eq_cons_digits_div large positive]
    split
    next isZero => rw [isZero, Nat.digits_zero]
    next => rfl

theorem digitsOf_lt (large : 1 < base) : ∀ digit ∈ digitsOf base value, digit < base := by
  unfold digitsOf
  split
  next => exact List.forall_mem_singleton.mpr (Nat.zero_lt_of_lt large)
  next => exact fun digit isDigit => Nat.digits_lt_base large isDigit

/-- The last digits are those of the remainder. -/
theorem ofDigits_take_digitsOf (large : 1 < base) (count : Nat) :
    Nat.ofDigits base ((digitsOf base value).take count) = value % base ^ count := by
  unfold digitsOf
  split
  next isZero =>
    rw [isZero, Nat.zero_mod]
    cases count <;> simp
  next => exact (Nat.self_mod_pow_eq_ofDigits_take count value large).symm

theorem length_digitsOf_le (large : 1 < base) {count : Nat} (positive : 0 < count)
    (small : value < base ^ count) : (digitsOf base value).length ≤ count := by
  unfold digitsOf
  split
  next => exact positive
  next => exact (Nat.digits_length_le_iff large value).mpr small

@[simp] theorem length_numeral (lower : Bool) (digits : List Nat) :
    (numeral lower digits).length = digits.length := by
  rw [numeral, List.length_reverse, List.length_map]

end Digits

section Reading

variable {base : Nat} {lower : Bool}

theorem digitValue_digitChar {digit : Nat} (small : digit < 36) :
    digitValue (digitChar lower digit) = digit := by
  have all : ∀ lower, ∀ digit < 36, digitValue (digitChar lower digit) = digit := by
    decide +kernel
  exact all lower digit small

/-- A digit is no blank, no sign and no mark of a base. -/
theorem digitChar_plain (lower : Bool) {digit : Nat} (small : digit < 33) :
    ¬ IsSpace (digitChar lower digit) ∧ digitChar lower digit ≠ '-'.toUInt8 ∧
      digitChar lower digit ≠ '+'.toUInt8 ∧ digitChar lower digit ≠ 'x'.toUInt8 ∧
      digitChar lower digit ≠ 'X'.toUInt8 := by
  have all : ∀ lower, ∀ digit < 33, ¬ IsSpace (digitChar lower digit) ∧
      digitChar lower digit ≠ '-'.toUInt8 ∧ digitChar lower digit ≠ '+'.toUInt8 ∧
      digitChar lower digit ≠ 'x'.toUInt8 ∧ digitChar lower digit ≠ 'X'.toUInt8 := by
    decide +kernel
  exact all lower digit small

/-- A byte that no numeral goes on with. -/
def EndsNumeral (byte : UInt8) : Prop :=
  digitValue byte = 36 ∧ byte ≠ 'x'.toUInt8 ∧ byte ≠ 'X'.toUInt8

instance (byte : UInt8) : Decidable (EndsNumeral byte) :=
  inferInstanceAs (Decidable (_ ∧ _ ∧ _))

theorem IsSpace.endsNumeral {byte : UInt8} (isSpace : IsSpace byte) : EndsNumeral byte := by
  have all : ∀ value < 256, IsSpace (UInt8.ofNat value) → EndsNumeral (UInt8.ofNat value) := by
    decide +kernel
  have this := all byte.toNat byte.toNat_lt
  rw [UInt8.ofNat_toNat] at this
  exact this isSpace

/-- The digits are read up to the end, or up to a byte that ends them. -/
theorem takeWhile_numeral {digits : List Nat} (small : ∀ digit ∈ digits, digit < base)
    (notLarge : base ≤ 36) {rest : List UInt8} (ends : ∀ byte ∈ rest.head?, EndsNumeral byte) :
    ((numeral lower digits ++ rest).map digitValue).takeWhile (· < base) = digits.reverse := by
  have values : (numeral lower digits).map digitValue = digits.reverse := by
    rw [numeral, List.map_reverse, List.map_map]
    refine congrArg List.reverse ?_
    refine (List.map_congr_left fun digit isDigit => ?_).trans (List.map_id _)
    exact digitValue_digitChar ((small digit isDigit).trans_le notLarge)
  rw [List.map_append, values, List.takeWhile_append_of_pos]
  · cases rest with
    | nil => exact List.append_nil _
    | cons byte rest =>
        have value := (ends byte rfl).1
        rw [List.map_cons, List.takeWhile_cons_of_neg, List.append_nil]
        rw [value, decide_eq_true_eq]
        exact Nat.not_lt.mpr notLarge
  · intro digit isDigit
    exact decide_eq_true (small digit (List.mem_reverse.mp isDigit))

theorem foldl_reverse_digits (base : Nat) (digits : List Nat) :
    digits.reverse.foldl (fun value digit => value * base + digit) 0 =
      Nat.ofDigits base digits := by
  rw [Nat.ofDigits_eq_foldr, List.foldl_reverse]
  refine congrArg (fun step => List.foldr step 0 digits) ?_
  funext digit value
  rw [Nat.cast_id, Nat.mul_comm, Nat.add_comm]

/-- Numerals have no prefix that `strtoul` would drop. -/
theorem dropHexPrefix_numeral {digits : List Nat} (small : ∀ digit ∈ digits, digit < 33)
    (nonempty : digits ≠ []) {rest : List UInt8} (ends : ∀ byte ∈ rest.head?, EndsNumeral byte) :
    dropHexPrefix (numeral lower digits ++ rest) = numeral lower digits ++ rest := by
  have noLetter : ∀ first letter text, numeral lower digits ++ rest = first :: letter :: text →
      letter ≠ 'x'.toUInt8 ∧ letter ≠ 'X'.toUInt8 := by
    intro first letter text isText
    have second : letter ∈ (numeral lower digits).tail ∨ letter ∈ rest.head? := by
      cases isNumeral : numeral lower digits with
      | nil =>
          rw [numeral, List.reverse_eq_nil_iff, List.map_eq_nil_iff] at isNumeral
          exact absurd isNumeral nonempty
      | cons one more =>
          rw [isNumeral, List.cons_append, List.cons.injEq] at isText
          cases more with
          | nil => exact Or.inr (by rw [← List.nil_append rest, isText.2]; rfl)
          | cons two more =>
              rw [List.cons_append, List.cons.injEq] at isText
              exact Or.inl (isText.2.1 ▸ List.mem_cons_self)
    rcases second with isLater | isBlank
    · have isIn := List.mem_of_mem_tail isLater
      rw [numeral, List.mem_reverse] at isIn
      rcases List.mem_map.mp isIn with ⟨digit, isDigit, rfl⟩
      exact (digitChar_plain lower (small digit isDigit)).2.2.2
    · exact (ends letter isBlank).2
  unfold dropHexPrefix
  split
  next first letter text isText =>
    have isLetter := noLetter first letter text isText
    rw [if_neg (fun both => both.2.elim isLetter.1 isLetter.2), isText]
  next => rfl

theorem numeral_eq_cons (lower : Bool) {digits : List Nat} (nonempty : digits ≠ []) :
    ∃ digit ∈ digits, ∃ more, numeral lower digits = digitChar lower digit :: more := by
  cases isNumeral : numeral lower digits with
  | nil =>
      rw [numeral, List.reverse_eq_nil_iff, List.map_eq_nil_iff] at isNumeral
      exact absurd isNumeral nonempty
  | cons one more =>
      have isIn : one ∈ numeral lower digits := isNumeral ▸ List.mem_cons_self
      rw [numeral, List.mem_reverse] at isIn
      rcases List.mem_map.mp isIn with ⟨digit, isDigit, rfl⟩
      exact ⟨digit, isDigit, more, rfl⟩

/-- The text of a sign. -/
def signText (negative : Bool) : List UInt8 :=
  if negative then ['-'.toUInt8] else []

/-- A numeral behind blanks is read back. -/
theorem strtoul_numeral (lower negative : Bool) {digits : List Nat}
    (small : ∀ digit ∈ digits, digit < base) (notLarge : base ≤ 33) (nonempty : digits ≠ [])
    (fits : Nat.ofDigits base digits < 2 ^ 32) {blanks rest : List UInt8}
    (areBlanks : ∀ byte ∈ blanks, IsSpace byte) (ends : ∀ byte ∈ rest.head?, EndsNumeral byte) :
    strtoul (blanks ++ (signText negative ++ (numeral lower digits ++ rest))) base =
      if negative then -UInt32.ofNat (Nat.ofDigits base digits)
      else UInt32.ofNat (Nat.ofDigits base digits) := by
  have small' := fun digit isDigit => (small digit isDigit).trans_le notLarge
  obtain ⟨digit, isDigit, more, isNumeral⟩ := numeral_eq_cons lower nonempty
  have plain := digitChar_plain lower (small' digit isDigit)
  have head : (numeral lower digits ++ rest).head? = some (digitChar lower digit) := by
    rw [isNumeral]
    rfl
  have noBlank : (signText negative ++ (numeral lower digits ++ rest)).dropWhile (IsSpace ·) =
      signText negative ++ (numeral lower digits ++ rest) := by
    cases negative with
    | false =>
        rw [isNumeral]
        exact List.dropWhile_cons_of_neg fun isSpace => plain.1 (of_decide_eq_true isSpace)
    | true => rfl
  have dropped : (if base = 16 then dropHexPrefix (numeral lower digits ++ rest)
      else numeral lower digits ++ rest) = numeral lower digits ++ rest := by
    rw [dropHexPrefix_numeral small' nonempty ends, ite_self]
  have blanksGo : blanks.dropWhile (IsSpace ·) = [] :=
    List.dropWhile_eq_nil_iff.mpr fun byte isIn => decide_eq_true (areBlanks byte isIn)
  unfold strtoul
  rw [List.dropWhile_append, blanksGo]
  simp only [List.isEmpty_nil, if_true, noBlank]
  have body : (if (signText negative ++ (numeral lower digits ++ rest)).head? =
        some '-'.toUInt8 ∨ (signText negative ++ (numeral lower digits ++ rest)).head? =
        some '+'.toUInt8 then (signText negative ++ (numeral lower digits ++ rest)).tail
      else signText negative ++ (numeral lower digits ++ rest)) = numeral lower digits ++ rest := by
    cases negative with
    | false =>
        rw [signText, if_neg Bool.false_ne_true, List.nil_append, head, if_neg]
        rintro (isMinus | isPlus)
        · exact plain.2.1 (Option.some.inj isMinus)
        · exact plain.2.2.1 (Option.some.inj isPlus)
    | true => rfl
  have isNegative : (signText negative ++ (numeral lower digits ++ rest)).head? =
      some '-'.toUInt8 ↔ negative = true := by
    cases negative with
    | false =>
        rw [signText, if_neg Bool.false_ne_true, List.nil_append, head]
        exact ⟨fun isMinus => absurd (Option.some.inj isMinus) plain.2.1,
          fun isTrue => by cases isTrue⟩
    | true => exact ⟨fun _ => rfl, fun _ => rfl⟩
  rw [body, dropped, takeWhile_numeral small (notLarge.trans (by decide)) ends,
    foldl_reverse_digits, if_neg (Nat.not_le.mpr fits)]
  simp only [isNegative]

end Reading

end SunWise.Library
