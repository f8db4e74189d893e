import SunWise.Library.Memory

/-!
# Byte orders

Words in a memory of bytes, and lists of words, for a CPU of either byte order.
-/

namespace SunWise.Library

/-- Which byte of a word has the lowest address. -/
inductive ByteOrder where
  | little
  | big
  deriving DecidableEq, Repr

namespace ByteOrder

/-- The bytes of a word by ascending address. -/
def bytes (order : ByteOrder) (word : UInt32) : List UInt8 :=
  match order with
  | .little => littleEndian word
  | .big => bigEndian word

def read (order : ByteOrder) (memory : Nat → UInt8) (address : Nat) : UInt32 :=
  match order with
  | .little =>
      ofBigEndian (memory (address + 3)) (memory (address + 2)) (memory (address + 1))
        (memory address)
  | .big =>
      ofBigEndian (memory address) (memory (address + 1)) (memory (address + 2))
        (memory (address + 3))

def write (order : ByteOrder) (memory : Nat → UInt8) (address : Nat) (word : UInt32) :
    Nat → UInt8 :=
  store memory address (order.bytes word)

/-- Words at ascending addresses. -/
def writeAll (order : ByteOrder) (memory : Nat → UInt8) (address : Nat) : List UInt32 →
    Nat → UInt8
  | [] => memory
  | word :: words => order.writeAll (order.write memory address word) (address + 4) words

variable {order : ByteOrder} {memory : Nat → UInt8} {address : Nat} {word : UInt32}

@[simp] theorem bytes_length (order : ByteOrder) (word : UInt32) :
    (order.bytes word).length = 4 := by
  cases order <;> rfl

/-- Four bytes, as either order reads them. -/
theorem bytes_read (order : ByteOrder) (memory : Nat → UInt8) (address : Nat) :
    order.bytes (order.read memory address) = load memory address 4 := by
  have loaded : load memory address 4 = [memory address, memory (address + 1),
      memory (address + 2), memory (address + 3)] := rfl
  rw [loaded]
  cases order with
  | little => simp only [bytes, read, littleEndian, bigEndian_ofBigEndian, List.reverse_cons,
      List.reverse_nil, List.nil_append, List.cons_append]
  | big => simp only [bytes, read, bigEndian_ofBigEndian]

theorem bytes_injective {left right : UInt32} (same : order.bytes left = order.bytes right) :
    left = right := by
  cases order with
  | little => exact littleEndian_injective same
  | big => exact bigEndian_injective same

theorem read_of_load (holds : load memory address 4 = order.bytes word) :
    order.read memory address = word :=
  bytes_injective ((bytes_read order memory address).trans holds)

@[simp] theorem read_write : order.read (order.write memory address word) address = word := by
  apply read_of_load
  have loaded := @load_store_self _ memory address (order.bytes word)
  rwa [bytes_length] at loaded

theorem read_write_disjoint {other : Nat}
    (apart : other + 4 ≤ address ∨ address + 4 ≤ other) :
    order.read (order.write memory address word) other = order.read memory other := by
  apply read_of_load
  rw [bytes_read]
  exact load_store_disjoint _ (by rwa [bytes_length])

theorem write_write (later : UInt32) :
    order.write (order.write memory address word) address later =
      order.write memory address later := by
  exact store_store _ (by simp)

theorem write_comm {other : Nat} (apart : other + 4 ≤ address ∨ address + 4 ≤ other)
    (later : UInt32) :
    order.write (order.write memory address word) other later =
      order.write (order.write memory other later) address word := by
  exact store_comm _ (by simpa using apart)

theorem writeAll_eq_store (words : List UInt32) :
    order.writeAll memory address words = store memory address (words.flatMap order.bytes) := by
  induction words generalizing memory address with
  | nil => exact (store_nil memory).symm
  | cons word words ih =>
      rw [writeAll, ih, List.flatMap_cons, store_append, bytes_length]
      rfl

theorem writeAll_append (front back : List UInt32) :
    order.writeAll memory address (front ++ back) =
      order.writeAll (order.writeAll memory address front) (address + 4 * front.length)
        back := by
  induction front generalizing memory address with
  | nil => rfl
  | cons word front ih =>
      have later : address + 4 * (word :: front).length = address + 4 + 4 * front.length := by
        rw [List.length_cons]
        omega
      rw [later]
      exact ih

/-- A word in front of the list is written before or after it. -/
theorem write_writeAll_before {other : Nat} (before : other + 4 ≤ address)
    (words : List UInt32) (word : UInt32) :
    order.write (order.writeAll memory address words) other word =
      order.writeAll (order.write memory other word) address words := by
  induction words generalizing memory address with
  | nil => rfl
  | cons first words ih =>
      rw [writeAll, ih (by omega), write_comm (Or.inl before), writeAll]

theorem read_writeAll_before {other : Nat} (before : other + 4 ≤ address)
    (words : List UInt32) :
    order.read (order.writeAll memory address words) other = order.read memory other := by
  induction words generalizing memory address with
  | nil => rfl
  | cons first words ih =>
      rw [writeAll, ih (by omega), read_write_disjoint (Or.inl before)]

theorem read_writeAll_head (word : UInt32) (words : List UInt32) :
    order.read (order.writeAll memory address (word :: words)) address = word :=
  (read_writeAll_before (Nat.le_refl _) words).trans read_write

theorem read_writeAll {words : List UInt32} {index : Nat} (inside : index < words.length) :
    order.read (order.writeAll memory address words) (address + 4 * index) =
      words[index] := by
  induction words generalizing memory address index with
  | nil => exact absurd inside (Nat.not_lt_zero _)
  | cons first words ih =>
      cases index with
      | zero => exact read_writeAll_head first words
      | succ index =>
          have later : address + 4 * (index + 1) = address + 4 + 4 * index := by omega
          rw [later]
          exact ih (Nat.lt_of_succ_lt_succ inside)

theorem write_writeAll {words : List UInt32} {index : Nat} (inside : index < words.length)
    (word : UInt32) :
    order.write (order.writeAll memory address words) (address + 4 * index) word =
      order.writeAll memory address (words.set index word) := by
  induction words generalizing memory address index with
  | nil => exact absurd inside (Nat.not_lt_zero _)
  | cons first words ih =>
      cases index with
      | zero =>
          rw [Nat.mul_zero, Nat.add_zero, writeAll, write_writeAll_before (Nat.le_refl _),
            write_write]
          rfl
      | succ index =>
          have later : address + 4 * (index + 1) = address + 4 + 4 * index := by omega
          rw [later]
          exact ih (Nat.lt_of_succ_lt_succ inside)

/-- The words outside the list are read as before. -/
theorem read_writeAll_after {other : Nat} {words : List UInt32}
    (after : address + 4 * words.length ≤ other) :
    order.read (order.writeAll memory address words) other = order.read memory other := by
  induction words generalizing memory address with
  | nil => rfl
  | cons first words ih =>
      rw [List.length_cons] at after
      rw [writeAll, ih (by omega), read_write_disjoint (Or.inr (by omega))]

end ByteOrder

end SunWise.Library
