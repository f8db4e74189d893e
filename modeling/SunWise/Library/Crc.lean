import Mathlib.Logic.Function.Iterate

/-!
# Bit-serial cyclic redundancy checks

The shift-register form of a CRC of any width.  `msbFirst` feeds whole bytes, most
significant bit first; `serial` feeds the message bit by bit, and `reflectedSerial` does so
with the register the other way round.  Both byte forms come with their tables.
-/

namespace SunWise.Library.Crc

variable {width : Nat}

/-- Shift the register by one bit and reduce it by the generator polynomial. -/
def msbStep (polynomial register : BitVec width) : BitVec width :=
  if register.msb then (register <<< 1) ^^^ polynomial else register <<< 1

/-- Feed one byte, most significant bit first. -/
def msbByte (polynomial register : BitVec width) (byte : UInt8) : BitVec width :=
  (msbStep polynomial)^[8]
    (register ^^^ (byte.toBitVec.setWidth width <<< (width - 8)))

/-- Register after a byte string. -/
def msbFirst (polynomial initial : BitVec width) (bytes : List UInt8) : BitVec width :=
  bytes.foldl (msbByte polynomial) initial

/-- Shift the register by one bit; a message bit is added to the bit that leaves it. -/
def serialStep (polynomial register : BitVec width) (bit : Bool) : BitVec width :=
  if register.msb ^^ bit then (register <<< 1) ^^^ polynomial else register <<< 1

/-- Register after a string of message bits. -/
def serial (polynomial initial : BitVec width) (bits : List Bool) : BitVec width :=
  bits.foldl (serialStep polynomial) initial

/-- The bits of a byte, most significant first. -/
def bitsFromMsb (byte : UInt8) : List Bool :=
  (List.range 8).map byte.toBitVec.getMsbD

/-- The bits of a byte, least significant first. -/
def bitsFromLsb (byte : UInt8) : List Bool :=
  (List.range 8).map byte.toBitVec.getLsbD

/-- The register in reversed bit order: it shifts to the right, and its low bit leaves. -/
def reflectedStep (polynomial register : BitVec width) (bit : Bool) : BitVec width :=
  if register.getLsbD 0 ^^ bit then (register >>> 1) ^^^ polynomial.reverse
  else register >>> 1

/-- Reversed register after a string of message bits. -/
def reflectedSerial (polynomial initial : BitVec width) (bits : List Bool) :
    BitVec width :=
  bits.foldl (reflectedStep polynomial) initial

section Table

variable (polynomial : BitVec width)

theorem serialStep_xor (left right : BitVec width) (first second : Bool) :
    serialStep polynomial left first ^^^ serialStep polynomial right second =
      serialStep polynomial (left ^^^ right) (first ^^ second) := by
  have shifted : (left ^^^ right) <<< 1 = (left <<< 1) ^^^ (right <<< 1) :=
    BitVec.shiftLeft_xor_distrib left right 1
  have swapped : (left.msb ^^ right.msb ^^ (first ^^ second)) =
      ((left.msb ^^ first) ^^ (right.msb ^^ second)) := by
    simp only [Bool.xor_assoc, Bool.xor_left_comm]
  unfold serialStep
  rw [BitVec.msb_xor, shifted, swapped]
  cases left.msb ^^ first with
  | false => cases right.msb ^^ second <;> simp [BitVec.xor_assoc]
  | true =>
      cases right.msb ^^ second with
      | false =>
          simp only [Bool.xor_false, if_true, Bool.false_eq_true, if_false]
          ac_rfl
      | true =>
          have twice : polynomial ^^^ (right <<< 1 ^^^ polynomial) = right <<< 1 := by
            rw [BitVec.xor_comm, BitVec.xor_assoc, BitVec.xor_self, BitVec.xor_zero]
          simp [BitVec.xor_assoc, twice]

theorem msbStep_eq_serialStep (register : BitVec width) :
    msbStep polynomial register = serialStep polynomial register false := by
  rw [msbStep, serialStep, Bool.xor_false]

theorem msbStep_xor (left right : BitVec width) :
    msbStep polynomial (left ^^^ right) =
      msbStep polynomial left ^^^ msbStep polynomial right := by
  simp only [msbStep_eq_serialStep]
  exact (serialStep_xor polynomial left right false false).symm

theorem msbStep_iterate_xor (count : Nat) (left right : BitVec width) :
    (msbStep polynomial)^[count] (left ^^^ right) =
      (msbStep polynomial)^[count] left ^^^ (msbStep polynomial)^[count] right := by
  induction count generalizing left right with
  | zero => rfl
  | succ count ih => simp only [Function.iterate_succ_apply, msbStep_xor, ih]

/-- While the bits that are shifted out are clear, nothing is reduced. -/
theorem msbStep_iterate_of_clear {count : Nat} {register : BitVec width}
    (clear : ∀ position < count, register.getMsbD position = false) :
    (msbStep polynomial)^[count] register = register <<< count := by
  induction count generalizing register with
  | zero => simp
  | succ count ih =>
      have first : register.msb = false := clear 0 (Nat.succ_pos count)
      have shifted : msbStep polynomial register = register <<< 1 := by
        simp [msbStep, first]
      rw [Function.iterate_succ_apply, shifted, ih, ← BitVec.shiftLeft_add, Nat.add_comm]
      intro position below
      rw [BitVec.getMsbD_shiftLeft]
      exact clear (position + 1) (Nat.succ_lt_succ below)

theorem eq_top_xor_rest (wide : 8 ≤ width) (register : BitVec width) :
    register = ((register >>> (width - 8)) <<< (width - 8)) ^^^
      ((register <<< 8) >>> 8) := by
  apply BitVec.eq_of_getLsbD_eq
  intro position inside
  simp only [BitVec.getLsbD_xor, BitVec.getLsbD_shiftLeft, BitVec.getLsbD_ushiftRight]
  by_cases low : position < width - 8
  · have shifted : 8 + position < width := by omega
    simp [inside, low, shifted]
  · have outside : ¬8 + position < width := by omega
    have back : width - 8 + (position - (width - 8)) = position := by omega
    simp [inside, low, outside, back]

/-- The bit-serial byte step as one look-up in the table of its top bytes. -/
theorem msbByte_eq (wide : 8 ≤ width) (register : BitVec width) (byte : UInt8) :
    msbByte polynomial register byte =
      (register <<< 8) ^^^ (msbStep polynomial)^[8]
        ((register >>> (width - 8) ^^^ byte.toBitVec.setWidth width) <<< (width - 8)) := by
  have low : (msbStep polynomial)^[8] ((register <<< 8) >>> 8) = register <<< 8 := by
    rw [msbStep_iterate_of_clear]
    · apply BitVec.eq_of_getLsbD_eq
      intro position inside
      simp only [BitVec.getLsbD_shiftLeft, BitVec.getLsbD_ushiftRight]
      by_cases low : position < 8
      · simp [low]
      · have back : 8 + (position - 8) = position := by omega
        simp [inside, low, back]
    · intro position below
      simp [below]
  have split : register ^^^ (byte.toBitVec.setWidth width <<< (width - 8)) =
      ((register <<< 8) >>> 8) ^^^
        ((register >>> (width - 8) ^^^ byte.toBitVec.setWidth width) <<< (width - 8)) := by
    rw [BitVec.shiftLeft_xor_distrib, ← BitVec.xor_assoc]
    congr 1
    rw [BitVec.xor_comm]
    exact eq_top_xor_rest wide register
  rw [msbByte, split, msbStep_iterate_xor, low]

end Table

section Serial

variable (polynomial : BitVec width)

theorem serial_append (initial : BitVec width) (front back : List Bool) :
    serial polynomial initial (front ++ back) =
      serial polynomial (serial polynomial initial front) back :=
  List.foldl_append

/-- The registers of two messages of one length differ by the register of their
difference. -/
theorem serial_xor (left right : BitVec width) {first second : List Bool}
    (sameLength : first.length = second.length) :
    serial polynomial left first ^^^ serial polynomial right second =
      serial polynomial (left ^^^ right) (List.zipWith xor first second) := by
  induction first generalizing left right second with
  | nil =>
      rw [List.eq_nil_of_length_eq_zero sameLength.symm]
      rfl
  | cons bit first ih =>
      cases second with
      | nil => cases sameLength
      | cons other second =>
          have step := ih (serialStep polynomial left bit) (serialStep polynomial right other)
            (Nat.succ.inj sameLength)
          rwa [serialStep_xor] at step

theorem msbStep_xor_eq_serialStep (register word : BitVec width) :
    msbStep polynomial (register ^^^ word) =
      serialStep polynomial register word.msb ^^^ (word <<< 1) := by
  have shifted : (register ^^^ word) <<< 1 = (register <<< 1) ^^^ (word <<< 1) :=
    BitVec.shiftLeft_xor_distrib register word 1
  unfold msbStep serialStep
  rw [BitVec.msb_xor, shifted]
  split
  · ac_rfl
  · rfl

/-- A word that is added to the register at once is a string of message bits. -/
theorem msbStep_iterate_eq_serial (count : Nat) (register word : BitVec width) :
    (msbStep polynomial)^[count] (register ^^^ word) =
      serial polynomial register ((List.range count).map word.getMsbD) ^^^
        (word <<< count) := by
  induction count generalizing register word with
  | zero => simp [serial]
  | succ count ih =>
      have bits : (List.range (count + 1)).map word.getMsbD =
          word.msb :: (List.range count).map (word <<< 1).getMsbD := by
        rw [List.range_succ_eq_map, List.map_cons, List.map_map]
        congr 1
        apply List.map_congr_left
        intro position inside
        exact (BitVec.getMsbD_shiftLeft word 1).symm
      rw [Function.iterate_succ_apply, msbStep_xor_eq_serialStep, ih, bits,
        ← BitVec.shiftLeft_add, Nat.add_comm 1]
      rfl

/-- Feeding a byte is feeding its bits. -/
theorem msbByte_eq_serial (wide : 8 ≤ width) (register : BitVec width) (byte : UInt8) :
    msbByte polynomial register byte = serial polynomial register (bitsFromMsb byte) := by
  have gone : (byte.toBitVec.setWidth width <<< (width - 8)) <<< 8 = 0 := by
    apply BitVec.eq_of_getLsbD_eq
    intro position inside
    rw [← BitVec.shiftLeft_add, BitVec.getLsbD_shiftLeft]
    have below : position < width - 8 + 8 := by omega
    simp [below]
  have bits : (List.range 8).map (byte.toBitVec.setWidth width <<< (width - 8)).getMsbD =
      bitsFromMsb byte := by
    apply List.map_congr_left
    intro position inside
    have small : position < 8 := List.mem_range.mp inside
    have back : width - 1 - position - (width - 8) = 7 - position := by omega
    have above : ¬width - 1 - position < width - 8 := by omega
    simp only [BitVec.getMsbD, BitVec.getLsbD_shiftLeft, BitVec.getLsbD_setWidth]
    rw [back]
    have inWidth : position < width := by omega
    have inShift : width - 1 - position < width := by omega
    have inByte : 7 - position < width := by omega
    simp [small, inWidth, inShift, inByte, above]
  rw [msbByte, msbStep_iterate_eq_serial, gone, bits]
  exact BitVec.xor_zero

theorem msbFirst_eq_serial (wide : 8 ≤ width) (initial : BitVec width)
    (bytes : List UInt8) :
    msbFirst polynomial initial bytes =
      serial polynomial initial (bytes.flatMap bitsFromMsb) := by
  induction bytes generalizing initial with
  | nil => rfl
  | cons byte bytes ih =>
      rw [List.flatMap_cons, serial_append, ← msbByte_eq_serial polynomial wide]
      exact ih _

end Serial

/-! ## The reversed register -/

section Reflected

variable (polynomial : BitVec width)

theorem reverse_xor (left right : BitVec width) :
    (left ^^^ right).reverse = left.reverse ^^^ right.reverse := by
  apply BitVec.eq_of_getLsbD_eq
  intro position inside
  simp only [BitVec.getLsbD_reverse, BitVec.getLsbD_xor, BitVec.getMsbD_xor]

theorem reverse_shiftLeft (register : BitVec width) (count : Nat) :
    (register <<< count).reverse = register.reverse >>> count := by
  apply BitVec.eq_of_getLsbD_eq
  intro position inside
  rw [BitVec.getLsbD_reverse, BitVec.getMsbD_shiftLeft, BitVec.getLsbD_ushiftRight,
    BitVec.getLsbD_reverse, Nat.add_comm]

theorem reflectedStep_reverse (register : BitVec width) (bit : Bool) :
    reflectedStep polynomial register.reverse bit =
      (serialStep polynomial register bit).reverse := by
  unfold reflectedStep serialStep
  rw [BitVec.getLsbD_reverse, ← reverse_shiftLeft, ← reverse_xor]
  exact (apply_ite BitVec.reverse _ _ _).symm

theorem reflectedSerial_reverse (initial : BitVec width) (bits : List Bool) :
    reflectedSerial polynomial initial.reverse bits =
      (serial polynomial initial bits).reverse := by
  induction bits generalizing initial with
  | nil => rfl
  | cons bit bits ih =>
      rw [reflectedSerial, List.foldl_cons, reflectedStep_reverse]
      exact ih _

theorem reflectedSerial_append (initial : BitVec width) (front back : List Bool) :
    reflectedSerial polynomial initial (front ++ back) =
      reflectedSerial polynomial (reflectedSerial polynomial initial front) back :=
  List.foldl_append

theorem reflectedSerial_xor (left right : BitVec width) {first second : List Bool}
    (sameLength : first.length = second.length) :
    reflectedSerial polynomial left first ^^^ reflectedSerial polynomial right second =
      reflectedSerial polynomial (left ^^^ right) (List.zipWith xor first second) := by
  have serials := serial_xor polynomial left.reverse right.reverse sameLength
  rw [← @BitVec.reverse_reverse_eq _ left, ← @BitVec.reverse_reverse_eq _ right,
    reflectedSerial_reverse, reflectedSerial_reverse, ← reverse_xor, serials,
    ← reflectedSerial_reverse, reverse_xor]

theorem bitsFromMsb_reverse (byte : UInt8) :
    bitsFromMsb (.ofBitVec byte.toBitVec.reverse) = bitsFromLsb byte := by
  apply List.map_congr_left
  intro position inside
  exact BitVec.getMsbD_reverse

/-- The reversed byte step as one look-up in a table of its low bytes. -/
theorem reflectedSerial_byte (wide : 8 ≤ width) (register : BitVec width) (byte : UInt8) :
    reflectedSerial polynomial register (bitsFromLsb byte) =
      ((msbStep polynomial)^[8]
          (((register ^^^ byte.toBitVec.setWidth width).setWidth 8).setWidth
            width).reverse).reverse ^^^ (register >>> 8) := by
  have index :
      (register.reverse >>> (width - 8) ^^^ byte.toBitVec.reverse.setWidth width) <<<
          (width - 8) =
        (((register ^^^ byte.toBitVec.setWidth width).setWidth 8).setWidth
          width).reverse := by
    apply BitVec.eq_of_getLsbD_eq
    intro position inside
    have mirrored : width - 1 - position < width := by omega
    simp only [BitVec.getLsbD_reverse, BitVec.getMsbD, BitVec.getLsbD_shiftLeft,
      BitVec.getLsbD_xor, BitVec.getLsbD_ushiftRight, BitVec.getLsbD_setWidth]
    by_cases low : position < width - 8
    · have outside : ¬width - 1 - position < 8 := by omega
      simp [low, outside]
    · have inByte : width - 1 - position < 8 := by omega
      have again : width - 8 + (position - (width - 8)) = position := by omega
      have back : 8 - 1 - (position - (width - 8)) = width - 1 - position := by omega
      have offset : position - (width - 8) < width := by omega
      have offsetByte : position - (width - 8) < 8 := by omega
      rw [again, back]
      simp [inside, low, inByte, mirrored, offset, offsetByte]
  calc
    reflectedSerial polynomial register (bitsFromLsb byte)
        = (serial polynomial register.reverse (bitsFromLsb byte)).reverse := by
          rw [← reflectedSerial_reverse, BitVec.reverse_reverse_eq]
    _ = (msbByte polynomial register.reverse (.ofBitVec byte.toBitVec.reverse)).reverse := by
          rw [msbByte_eq_serial polynomial wide, bitsFromMsb_reverse]
    _ = _ := by
          rw [msbByte_eq polynomial wide, reverse_xor, reverse_shiftLeft,
            BitVec.reverse_reverse_eq, index, BitVec.xor_comm]

end Reflected

end SunWise.Library.Crc
