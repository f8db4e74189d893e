import SunWise.Library.Crc

/-!
# Errors that a cyclic redundancy check detects

The register of a message is linear in the message, so that two messages of one length have
the same check value exactly when the register of their difference is zero.  A generator
with a constant term keeps a register that is not zero from becoming zero, which detects
bursts; one with an even number of terms keeps the parity, which detects odd errors.
-/

namespace SunWise.Library.Crc

variable {width : Nat} {polynomial : BitVec width}

/-- The messages are different, but only within some `count` bits that follow each other. -/
def Burst (count : Nat) (sent received : List Bool) : Prop :=
  ∃ front first second back, sent = front ++ first ++ back ∧
    received = front ++ second ++ back ∧ first.length = second.length ∧
    first.length ≤ count ∧ first ≠ second

/-- An odd number of bits have been changed. -/
def OddErrors (sent received : List Bool) : Prop :=
  sent.length = received.length ∧ (List.zipWith xor sent received).count true % 2 = 1

section Bursts

theorem msbStep_eq_zero (hasConstant : polynomial.getLsbD 0 = true)
    {register : BitVec width} (isZero : msbStep polynomial register = BitVec.ofNat width 0) :
    register = BitVec.ofNat width 0 := by
  have positive : 0 < width := BitVec.lt_of_getLsbD hasConstant
  unfold msbStep at isZero
  split at isZero
  next =>
    have lowest := congrArg (fun word => word.getLsbD 0) isZero
    simp [hasConstant] at lowest
  next notMsb =>
    apply BitVec.eq_of_getLsbD_eq
    intro position inside
    rw [BitVec.getLsbD_zero]
    rcases Nat.lt_or_ge (position + 1) width with below | last
    · have shifted := congrArg (fun word => word.getLsbD (position + 1)) isZero
      simpa [below, BitVec.getLsbD_eq_getElem inside] using shifted
    · have isLast : position = width - 1 := by omega
      rw [isLast, ← BitVec.msb_eq_getLsbD_last]
      exact Bool.eq_false_iff.mpr notMsb

theorem msbStep_iterate_eq_zero (hasConstant : polynomial.getLsbD 0 = true) (count : Nat)
    {register : BitVec width}
    (isZero : (msbStep polynomial)^[count] register = BitVec.ofNat width 0) :
    register = BitVec.ofNat width 0 := by
  induction count generalizing register with
  | zero => exact isZero
  | succ count ih => exact msbStep_eq_zero hasConstant (ih isZero)

theorem serialStep_injective (hasConstant : polynomial.getLsbD 0 = true)
    {left right : BitVec width} {bit : Bool}
    (same : serialStep polynomial left bit = serialStep polynomial right bit) :
    left = right := by
  have difference := serialStep_xor polynomial left right bit bit
  rw [same, BitVec.xor_self, Bool.xor_self, ← msbStep_eq_serialStep] at difference
  exact BitVec.xor_eq_zero_iff.mp (msbStep_eq_zero hasConstant difference.symm)

/-- The bits that follow an error do not hide it. -/
theorem serial_injective (hasConstant : polynomial.getLsbD 0 = true) {left right : BitVec width}
    {bits : List Bool} (same : serial polynomial left bits = serial polynomial right bits) :
    left = right := by
  induction bits generalizing left right with
  | nil => exact same
  | cons bit bits ih => exact serialStep_injective hasConstant (ih same)

/-- A string that is no longer than the register leaves it zero only if it is zero itself. -/
theorem eq_false_of_serial_eq_zero (hasConstant : polynomial.getLsbD 0 = true)
    {bits : List Bool} (short : bits.length ≤ width)
    (isZero : serial polynomial (BitVec.ofNat width 0) bits = BitVec.ofNat width 0) :
    ∀ bit ∈ bits, bit = false := by
  obtain ⟨rest, rfl⟩ := Nat.exists_eq_add_of_le short
  let word : BitVec (bits.length + rest) := BitVec.ofBoolListBE bits ++ BitVec.ofNat rest 0
  have top : ∀ position < bits.length, word.getMsbD position = bits.getD position false := by
    intro position inside
    rw [BitVec.getMsbD_append, if_neg (Nat.not_le_of_lt inside), BitVec.getMsbD_ofBoolListBE]
  have all : (List.range bits.length).map word.getMsbD = bits := by
    apply List.ext_getElem
    · simp
    · intro position left right
      simp [top position right, right]
  have gone : word <<< bits.length = BitVec.ofNat (bits.length + rest) 0 := by
    apply BitVec.eq_of_getLsbD_eq
    intro position inside
    rw [BitVec.getLsbD_shiftLeft, BitVec.getLsbD_zero]
    by_cases low : position < bits.length
    · simp [low]
    · have below : position - bits.length < rest := by omega
      simp [word, BitVec.getLsbD_append, below]
  have register := msbStep_iterate_eq_serial polynomial bits.length
    (BitVec.ofNat (bits.length + rest) 0) word
  rw [all, isZero, gone, BitVec.xor_self, BitVec.zero_xor] at register
  have isZeroWord := msbStep_iterate_eq_zero hasConstant _ register
  rw [← all]
  simp [isZeroWord]

/-- A burst that is no longer than the register changes the check value. -/
theorem serial_ne_of_burst (hasConstant : polynomial.getLsbD 0 = true) (initial : BitVec width)
    {sent received : List Bool} (burst : Burst width sent received) :
    serial polynomial initial sent ≠ serial polynomial initial received := by
  rcases burst with ⟨front, first, second, back, rfl, rfl, sameLength, short, differ⟩
  intro same
  simp only [serial_append] at same
  have middle := serial_injective hasConstant same
  have difference := serial_xor polynomial (serial polynomial initial front)
    (serial polynomial initial front) sameLength
  rw [middle, BitVec.xor_self, BitVec.xor_self] at difference
  have shortToo : (List.zipWith xor first second).length ≤ width := by
    rw [List.length_zipWith]
    exact Nat.le_trans (Nat.min_le_left _ _) short
  have clear := eq_false_of_serial_eq_zero hasConstant shortToo difference.symm
  apply differ
  apply List.ext_getElem sameLength
  intro position inFirst inSecond
  have inside : position < (List.zipWith xor first second).length := by
    rw [List.length_zipWith]
    exact Nat.lt_min.mpr ⟨inFirst, inSecond⟩
  have isClear := clear (xor first[position] second[position])
    (List.mem_iff_getElem.mpr ⟨position, inside, List.getElem_zipWith⟩)
  simpa using isClear

theorem reflectedSerial_ne_of_burst (hasConstant : polynomial.getLsbD 0 = true)
    (initial : BitVec width) {sent received : List Bool} (burst : Burst width sent received) :
    reflectedSerial polynomial initial sent ≠ reflectedSerial polynomial initial received := by
  rw [← @BitVec.reverse_reverse_eq _ initial, reflectedSerial_reverse, reflectedSerial_reverse]
  intro same
  apply serial_ne_of_burst hasConstant initial.reverse burst
  have values := congrArg BitVec.reverse same
  rwa [BitVec.reverse_reverse_eq, BitVec.reverse_reverse_eq] at values

end Bursts

/-! ## Parity -/

section Parity

/-- The bits of a word that are set, modulo 2. -/
def parity (word : BitVec width) : Bool :=
  ((List.range width).map word.getLsbD).foldr xor false

theorem foldr_xor_append (front back : List Bool) :
    (front ++ back).foldr xor false = (front.foldr xor false ^^ back.foldr xor false) := by
  induction front with
  | nil => simp
  | cons bit front ih => rw [List.cons_append, List.foldr_cons, ih, List.foldr_cons, Bool.xor_assoc]

theorem foldr_xor_map (indices : List Nat) (left right : Nat → Bool) :
    (indices.map fun index => left index ^^ right index).foldr xor false =
      ((indices.map left).foldr xor false ^^ (indices.map right).foldr xor false) := by
  induction indices with
  | nil => rfl
  | cons index indices ih =>
      simp only [List.map_cons, List.foldr_cons, ih, Bool.xor_assoc, Bool.xor_left_comm]

theorem parity_xor (left right : BitVec width) :
    parity (left ^^^ right) = (parity left ^^ parity right) := by
  rw [parity, parity, parity, ← foldr_xor_map]
  exact congrArg (List.foldr xor false) (List.map_congr_left fun index _ => BitVec.getLsbD_xor)

/-- The bit that is shifted out is the one that is missing. -/
theorem parity_shiftLeft (word : BitVec width) :
    parity (word <<< 1) = (parity word ^^ word.msb) := by
  cases width with
  | zero => simp [parity, BitVec.msb_eq_getLsbD_last]
  | succ width =>
      have shifted : (List.range (width + 1)).map (word <<< 1).getLsbD =
          false :: (List.range width).map word.getLsbD := by
        rw [List.range_succ_eq_map, List.map_cons, List.map_map]
        refine congrArg₂ List.cons (by simp) (List.map_congr_left fun index inside => ?_)
        have below := List.mem_range.mp inside
        simp [below, BitVec.getLsbD_eq_getElem (Nat.lt_succ_of_lt below)]
      rw [parity, parity, shifted, List.range_succ, List.map_append, foldr_xor_append,
        BitVec.msb_eq_getLsbD_last]
      simp

/-- The register takes on the parity of the bits that are fed. -/
theorem parity_serial (evenTerms : parity polynomial = true) (initial : BitVec width)
    (bits : List Bool) :
    parity (serial polynomial initial bits) = (parity initial ^^ bits.foldr xor false) := by
  induction bits generalizing initial with
  | nil => simp [serial]
  | cons bit bits ih =>
      have step : parity (serialStep polynomial initial bit) = (parity initial ^^ bit) := by
        unfold serialStep
        split
        next out =>
          rw [parity_xor, parity_shiftLeft, evenTerms, Bool.xor_assoc]
          cases isMsb : initial.msb <;> cases bit <;> simp_all
        next kept =>
          rw [parity_shiftLeft]
          cases isMsb : initial.msb <;> cases bit <;> simp_all
      have rest := ih (serialStep polynomial initial bit)
      rw [step, Bool.xor_assoc] at rest
      exact rest

theorem foldr_xor_eq_count (bits : List Bool) :
    bits.foldr xor false = decide (bits.count true % 2 = 1) := by
  induction bits with
  | nil => rfl
  | cons bit bits ih =>
      rw [List.foldr_cons, ih]
      cases bit with
      | false => simp
      | true =>
          rw [List.count_cons_self, Bool.true_xor, ← decide_not]
          exact decide_eq_decide.mpr (by omega)

/-- An odd number of errors changes the check value. -/
theorem serial_ne_of_oddErrors (evenTerms : parity polynomial = true) (initial : BitVec width)
    {sent received : List Bool} (errors : OddErrors sent received) :
    serial polynomial initial sent ≠ serial polynomial initial received := by
  intro same
  have difference := serial_xor polynomial initial initial errors.1
  rw [same, BitVec.xor_self, BitVec.xor_self] at difference
  have parities := congrArg parity difference
  rw [parity_serial evenTerms, foldr_xor_eq_count, decide_eq_true errors.2,
    Bool.xor_true] at parities
  cases noParity : parity (BitVec.ofNat width 0) <;> simp [noParity] at parities

end Parity

end SunWise.Library.Crc
