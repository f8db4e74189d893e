import SunWise.Library.Numeral
import SunWise.Xprintf.Format

/-!
# Fields

What `xvprintf` puts for a string or a number: a text that is padded to the width of its
field.  There is always room for the digits.
-/

namespace SunWise.Xprintf

open Library

/-- A text in a field of a width. -/
def field (f : Flags) (fill : UInt8) (w : UInt32) (text : List UInt8) : List UInt8 :=
  if f.leftJustified then text ++ List.replicate (w.toNat - text.length) ' '.toUInt8
  else List.replicate (w.toNat - text.length) fill ++ text

/-- The digits of a word. There is room for 16 of them. -/
def wordDigits (r : Nat) (v : UInt32) : List Nat :=
  (digitsOf r v.toNat).take digitsSize

/-- A word with its sign. -/
def numberText (r : Nat) (lower isSigned : Bool) (v : UInt32) : List UInt8 :=
  if isSigned ∧ 0x80000000 ≤ v then '-'.toUInt8 :: numeral lower (wordDigits r (0 - v))
  else numeral lower (wordDigits r v)

variable {w : UInt32}

theorem padLoop_eq (d : UInt8) {turns : Nat} {j : UInt32} (enough : w.toNat - j.toNat < turns) :
    padLoop d w turns j = some (List.replicate (w.toNat - j.toNat) d,
      if j < w then w + 1 else j + 1) := by
  induction turns generalizing j with
  | zero => exact absurd enough (Nat.not_lt_zero _)
  | succ turns ih =>
      rw [padLoop]
      by_cases before : j < w
      · have order := UInt32.lt_iff_toNat_lt.mp before
        have small := w.toNat_lt
        have next : (j + 1).toNat = j.toNat + 1 := by
          rw [UInt32.toNat_add, UInt32.toNat_one, Nat.mod_eq_of_lt (by omega)]
        have left : w.toNat - j.toNat = w.toNat - (j + 1).toNat + 1 := by
          rw [next]
          omega
        rw [if_pos before, if_pos before, ih (by omega), left, List.replicate_succ]
        simp only [Option.bind_eq_bind, Option.bind_some]
        refine congrArg some (congrArg (Prod.mk _) ?_)
        split
        next => rfl
        next after =>
          rw [UInt32.lt_iff_toNat_lt, next] at after
          refine congrArg (· + 1) (UInt32.toNat_inj.mp ?_)
          rw [next]
          omega
      · have none : w.toNat - j.toNat = 0 := by
          rw [UInt32.lt_iff_toNat_lt] at before
          omega
        rw [if_neg before, if_neg before, none]
        rfl

theorem field_eq (f : Flags) (fill : UInt8) {text : List UInt8} (notLargest : w.toNat + 1 < 2 ^ 32)
    (short : text.length + 1 < 2 ^ 32) :
    (do
      let (front, j) ← padFront f fill w (UInt32.ofNat text.length)
      let (back, _) ← padLoop ' '.toUInt8 w (w.toNat + 1) j
      some (front ++ text ++ back)) = some (field f fill w text) := by
  have length : (UInt32.ofNat text.length).toNat = text.length :=
    UInt32.toNat_ofNat_of_lt (Nat.lt_of_succ_lt short)
  unfold padFront field
  split
  next =>
    simp only [Option.bind_eq_bind, Option.bind_some]
    rw [padLoop_eq _ (by omega), length]
    rfl
  next =>
    rw [padLoop_eq _ (by omega), length]
    simp only [Option.bind_eq_bind, Option.bind_some]
    have after : w.toNat - (if UInt32.ofNat text.length < w then w + 1
        else UInt32.ofNat text.length + 1).toNat = 0 := by
      split
      next =>
        rw [UInt32.toNat_add, UInt32.toNat_one, Nat.mod_eq_of_lt notLargest]
        omega
      next before =>
        rw [UInt32.lt_iff_toNat_lt, length] at before
        rw [UInt32.toNat_add, UInt32.toNat_one, length, Nat.mod_eq_of_lt short]
        omega
    rw [padLoop_eq _ (by omega), after]
    simp only [Option.bind_some, List.replicate_zero, List.append_nil]

theorem stringLoop_eq {text : List UInt8} (nonzero : 0 ∉ text) (rest : List UInt8) (j : UInt32) :
    stringLoop j (text ++ 0 :: rest) = some (j + UInt32.ofNat text.length, text) := by
  induction text generalizing j with
  | nil =>
      rw [List.nil_append, stringLoop, if_pos rfl]
      simp
  | cons c text ih =>
      rw [List.mem_cons, not_or] at nonzero
      rw [List.cons_append, stringLoop, if_neg (Ne.symm nonzero.1), ih nonzero.2]
      simp only [Option.bind_eq_bind, Option.bind_some, List.length_cons]
      refine congrArg some (congrArg (Prod.mk · _) ?_)
      rw [Nat.add_comm, UInt32.ofNat_add, ← UInt32.add_assoc]
      rfl

theorem putString_eq (f : Flags) {text : List UInt8} (nonzero : 0 ∉ text) (rest : List UInt8)
    (notLargest : w.toNat + 1 < 2 ^ 32) (short : text.length + 1 < 2 ^ 32) :
    putString f w (text ++ 0 :: rest) = some (field f ' '.toUInt8 w text) := by
  rw [putString, stringLoop_eq nonzero rest, UInt32.zero_add]
  exact field_eq f ' '.toUInt8 notLargest short

/-- The bases that there are. -/
def IsBase (r : Nat) : Prop :=
  r = 2 ∨ r = 8 ∨ r = 10 ∨ r = 16

theorem IsBase.bounds {r : Nat} (isBase : IsBase r) : 1 < r ∧ r ≤ 16 := by
  unfold IsBase at isBase
  omega

theorem digitOf_eq {r : Nat} (isBase : IsBase r) (v : UInt32) :
    (digitOf r v).1 = UInt8.ofNat (v.toNat % r) ∧ (digitOf r v).2.toNat = v.toNat / r := by
  have mask (k : Nat) (m : UInt32) (isMask : m.toNat = 2 ^ k - 1) :
      (v &&& m).toUInt8 = UInt8.ofNat (v.toNat % 2 ^ k) := by
    rw [← UInt8.toNat_inj, UInt32.toNat_toUInt8, UInt32.toNat_and, isMask,
      Nat.and_two_pow_sub_one_eq_mod, UInt8.toNat_ofNat']
  rcases isBase with rfl | rfl | rfl | rfl
  · exact ⟨mask 1 1 rfl, Nat.shiftRight_eq_div_pow v.toNat 1⟩
  · exact ⟨mask 3 7 rfl, Nat.shiftRight_eq_div_pow v.toNat 3⟩
  · refine ⟨?_, UInt32.toNat_div v 10⟩
    rw [← UInt8.toNat_inj, UInt8.toNat_ofNat']
    exact (UInt32.toNat_toUInt8 _).trans (congrArg (· % 2 ^ 8) (UInt32.toNat_mod v 10))
  · exact ⟨mask 4 0xf rfl, Nat.shiftRight_eq_div_pow v.toNat 4⟩

theorem digitText_eq (c : UInt8) {digit : Nat} (small : digit < 16) :
    digitText c (UInt8.ofNat digit) = digitChar (c = 'x'.toUInt8) digit := by
  have all : ∀ lower : Bool, ∀ digit < 16,
      (if UInt8.ofNat digit > 9 then UInt8.ofNat digit + (if lower then 0x27 else 0x07)
        else UInt8.ofNat digit) + '0'.toUInt8 = digitChar lower digit := by
    decide
  rw [← all _ digit small]
  simp only [digitText, decide_eq_true_eq]

/-- The loop makes the digits, as many as there is room for. -/
theorem digitLoop_eq {r : Nat} (isBase : IsBase r) (c : UInt8) {turns : Nat} (v : UInt32)
    {s : List UInt8} (room : s.length + turns = digitsSize) (more : 0 < turns) :
    digitLoop r c turns v s =
      some (s ++ ((digitsOf r v.toNat).take turns).map (digitChar (c = 'x'.toUInt8))) := by
  have bounds := isBase.bounds
  induction turns generalizing v s with
  | zero => exact absurd more (Nat.lt_irrefl 0)
  | succ turns ih =>
      obtain ⟨d, left, isDigit⟩ : ∃ d left, digitOf r v = (d, left) := ⟨_, _, rfl⟩
      have digit := digitOf_eq isBase v
      rw [isDigit] at digit
      have small : v.toNat % r < 16 :=
        (Nat.mod_lt _ (Nat.zero_lt_of_lt bounds.1)).trans_le bounds.2
      have fits : s.length < digitsSize := by omega
      dsimp only at digit
      have isText : digitText c d = digitChar (c = 'x'.toUInt8) (v.toNat % r) := by
        rw [digit.1, digitText_eq c small]
      rw [digitLoop, isDigit]
      simp only [Option.bind_eq_bind]
      rw [isText, pushDigit, if_pos fits, Option.bind_some, digitsOf_eq bounds.1,
        List.take_succ_cons, List.map_cons, List.length_append, List.length_singleton]
      have isZero : left ≠ 0 ↔ ¬ v.toNat / r = 0 := by
        rw [← digit.2, ne_eq, ← UInt32.toNat_inj]
        rfl
      by_cases done : v.toNat / r = 0
      · rw [if_neg fun both => isZero.mp both.1 done, if_pos done, List.take_nil]
        rfl
      · by_cases full : turns = 0
        · subst full
          have noRoom : ¬ (left ≠ 0 ∧ s.length + 1 < digitsSize) := by omega
          rw [if_neg noRoom, List.take_zero]
          rfl
        · rw [if_pos ⟨isZero.mpr done, by omega⟩, ih _ (by simp; omega) (Nat.pos_of_ne_zero full),
            if_neg done, digit.2, List.append_assoc]
          rfl

theorem length_wordDigits_le {r : Nat} (v : UInt32) : (wordDigits r v).length ≤ 16 :=
  List.length_take_le _ _

/-- A number has at most 11 characters if it may have a sign, so that there is room for it. -/
theorem length_wordDigits_ten (v : UInt32) : (wordDigits 10 v).length ≤ 10 := by
  refine (List.length_take_le' _ _).trans ?_
  exact length_digitsOf_le (by decide) (by decide) (v.toNat_lt.trans (by decide))

theorem field_reverse (f : Flags) (fill : UInt8) {s : List UInt8}
    (notLargest : w.toNat + 1 < 2 ^ 32) (short : s.length + 1 < 2 ^ 32) :
    (do
      let (front, j) ← padFront f fill w (UInt32.ofNat s.length)
      let (back, _) ← padLoop ' '.toUInt8 w (w.toNat + 1) j
      some (front ++ s.reverse ++ back)) = some (field f fill w s.reverse) := by
  rw [← List.length_reverse] at short
  rw [← field_eq f fill notLargest short, List.length_reverse]

/-- The highest bit is the sign. -/
theorem signBit_iff (v : UInt32) : v &&& 0x80000000 ≠ 0 ↔ 0x80000000 ≤ v := by
  have small := v.toNat_lt
  have isAnd : (v &&& 0x80000000).toNat = v.toNat &&& 2 ^ 31 := UInt32.toNat_and v _
  have order : 0x80000000 ≤ v ↔ 2 ^ 31 ≤ v.toNat := UInt32.le_iff_toNat_le
  rw [order, ne_eq, ← UInt32.toNat_inj, isAnd]
  change ¬ _ = 0 ↔ _
  constructor
  · intro nonzero
    by_contra below
    refine nonzero (Nat.eq_of_testBit_eq fun i => ?_)
    rw [Nat.testBit_and, Nat.testBit_two_pow, Nat.zero_testBit]
    by_cases isSign : 31 = i
    · rw [← isSign, Nat.testBit_lt_two_pow (Nat.not_le.mp below), Bool.false_and]
    · rw [decide_eq_false isSign, Bool.and_false]
  · intro large isZero
    have bit : (v.toNat &&& 2 ^ 31).testBit 31 = true := by
      rw [Nat.testBit_and, Nat.testBit_two_pow_self, Bool.and_true,
        Nat.testBit_eq_decide_div_mod_eq, decide_eq_true_eq]
      omega
    rw [isZero, Nat.zero_testBit] at bit
    cases bit

theorem putNumber_eq (f : Flags) {r : Nat} (isBase : IsBase r) (c d : UInt8)
    (isSigned : d = 'D'.toUInt8 → r = 10) (notNegative : f.negative = false) (v : UInt32)
    (notLargest : w.toNat + 1 < 2 ^ 32) :
    putNumber f w r c d v = some (field f (if f.zeroPadded then '0'.toUInt8 else ' '.toUInt8) w
      (numberText r (c = 'x'.toUInt8) (d = 'D'.toUInt8) v)) := by
  have isNegative : d = 'D'.toUInt8 ∧ v &&& 0x80000000 ≠ 0 ↔
      decide (d = 'D'.toUInt8) = true ∧ 0x80000000 ≤ v := by
    rw [signBit_iff, decide_eq_true_eq]
  unfold putNumber numberText
  by_cases negative : d = 'D'.toUInt8 ∧ v &&& 0x80000000 ≠ 0
  · have isTen := isSigned negative.1
    subst isTen
    have length := length_wordDigits_ten (0 - v)
    have fits : ((wordDigits 10 (0 - v)).map (digitChar (c = 'x'.toUInt8))).length <
        digitsSize := by
      rw [List.length_map]
      exact Nat.lt_of_le_of_lt length (by decide)
    rw [if_pos negative, if_pos (isNegative.mp negative)]
    dsimp only
    rw [digitLoop_eq isBase c _ rfl (by decide), ← wordDigits]
    simp only [Option.bind_eq_bind, Option.bind_some, List.nil_append, if_true]
    rw [pushDigit, if_pos fits, Option.bind_some]
    refine (field_reverse { f with negative := true } _ notLargest ?_).trans ?_
    · rw [List.length_append, List.length_map, List.length_singleton]
      omega
    · rw [List.reverse_append]
      rfl
  · have length := length_wordDigits_le (r := r) v
    rw [if_neg negative, if_neg (mt isNegative.mpr negative)]
    dsimp only
    rw [digitLoop_eq isBase c _ rfl (by decide), ← wordDigits, notNegative]
    simp only [Option.bind_eq_bind, Option.bind_some, List.nil_append, Bool.false_eq_true, if_false]
    refine field_reverse f _ notLargest ?_
    rw [List.length_map]
    omega

end SunWise.Xprintf
