import Mathlib.Algebra.Ring.Nat
import Mathlib.Data.List.Basic

/-!
# Byte memory

A memory is a total function from addresses to cells.  `load` reads a range into a
list and `store` writes a list over a range; the lemmas say what a range sees of a
store and that adjacent stores are one store.
-/

namespace SunWise.Library

variable {Cell : Type*}

/-- What holds of each cell of a list, by evaluation along the list. -/
theorem forall_of_all {P : Cell → Prop} [DecidablePred P] {cells : List Cell}
    (each : cells.all (fun cell => decide (P cell)) = true) : ∀ cell ∈ cells, P cell := by
  simpa using each

/-- The cells of a range, in ascending order. -/
def load (memory : Nat → Cell) (base count : Nat) : List Cell :=
  (List.range count).map fun offset => memory (base + offset)

/-- Write `cells` to the range that starts at `base`. -/
def store (memory : Nat → Cell) (base : Nat) (cells : List Cell) : Nat → Cell :=
  fun address =>
    if base ≤ address then cells.getD (address - base) (memory address)
    else memory address

section Load

variable (memory : Nat → Cell) (base : Nat)

@[simp] theorem load_length (count : Nat) :
    (load memory base count).length = count := by
  simp [load]

@[simp] theorem load_zero : load memory base 0 = [] := rfl

theorem load_getElem? {count offset : Nat} (inside : offset < count) :
    (load memory base count)[offset]? = some (memory (base + offset)) := by
  simp [load, inside]

theorem load_add (front back : Nat) :
    load memory base (front + back) =
      load memory base front ++ load memory (base + front) back := by
  simp [load, List.range_add, Nat.add_assoc]

/-- A part of a loaded list is what its own range loads. -/
theorem take_drop_load {count offset part : Nat} (fits : offset + part ≤ count) :
    ((load memory base count).drop offset).take part =
      load memory (base + offset) part := by
  obtain ⟨rest, rfl⟩ := Nat.exists_eq_add_of_le fits
  rw [Nat.add_assoc, load_add, load_add, List.drop_left' (load_length _ _ _),
    List.take_left' (load_length _ _ _)]

/-- A shorter load is the start of a longer one. -/
theorem load_min (part count : Nat) :
    load memory base (min part count) = (load memory base count).take part := by
  simp [load, ← List.map_take, List.take_range]

/-- Two memories load the same list exactly when they agree on the range. -/
theorem load_eq_load_iff {left right : Nat → Cell} {leftBase rightBase count : Nat} :
    load left leftBase count = load right rightBase count ↔
      ∀ offset < count, left (leftBase + offset) = right (rightBase + offset) := by
  simp [load]

end Load

section Store

variable (memory : Nat → Cell) {base : Nat}

@[simp] theorem store_nil : store memory base [] = memory := by
  funext address
  simp [store]

theorem store_singleton (cell : Cell) :
    store memory base [cell] = Function.update memory base cell := by
  funext address
  rw [Function.update_apply]
  by_cases same : address = base
  · simp [store, same]
  · by_cases after : base ≤ address
    · have beyond : 0 < address - base := by omega
      simp [store, same, after, List.getElem?_eq_none (l := [cell]) beyond]
    · simp [store, same, after]

/-- A store changes nothing outside its range. -/
theorem store_apply_outside {cells : List Cell} {address : Nat}
    (outside : address < base ∨ base + cells.length ≤ address) :
    store memory base cells address = memory address := by
  unfold store
  split
  next after =>
    have beyond : cells.length ≤ address - base := by
      rcases outside with before | beyond
      · exact absurd before (Nat.not_lt.mpr after)
      · exact Nat.le_sub_of_add_le' beyond
    simp [List.getElem?_eq_none beyond]
  next => rfl

theorem store_append (front back : List Cell) :
    store memory base (front ++ back) =
      store (store memory base front) (base + front.length) back := by
  funext address
  by_cases inFront : base ≤ address ∧ address < base + front.length
  · have offset : address - base < front.length := by omega
    have before : ¬base + front.length ≤ address := by omega
    simp [store, inFront.1, before, List.getElem?_append_left offset, offset]
  · by_cases before : address < base
    · have notAfter : ¬base ≤ address := by omega
      have notLater : ¬base + front.length ≤ address := by omega
      simp [store, notAfter, notLater]
    · have after : base ≤ address := by omega
      have later : base + front.length ≤ address := by omega
      have beyond : front.length ≤ address - base := by omega
      have offset : address - base - front.length = address - (base + front.length) := by
        omega
      simp [store, after, later, List.getElem?_append_right beyond,
        List.getElem?_eq_none beyond, offset]

theorem load_store_disjoint {cells : List Cell} {start count : Nat}
    (disjoint : start + count ≤ base ∨ base + cells.length ≤ start) :
    load (store memory base cells) start count = load memory start count := by
  rw [load_eq_load_iff]
  intro offset inside
  apply store_apply_outside
  omega

/-- A range that lies within a store reads the stored cells. -/
theorem load_store_self (cells : List Cell) :
    load (store memory base cells) base cells.length = cells := by
  apply List.ext_getElem
  · simp
  · intro offset left right
    simp [load, store, right]

theorem store_store {front cells : List Cell} (same : front.length = cells.length) :
    store (store memory base front) base cells = store memory base cells := by
  funext address
  by_cases inside : base ≤ address ∧ address < base + cells.length
  · have offset : address - base < cells.length := by omega
    simp [store, inside.1, offset]
  · rw [store_apply_outside _ (by omega), store_apply_outside _ (by omega),
      store_apply_outside _ (by omega)]

/-- Stores to ranges that are apart may change places. -/
theorem store_comm {front back : List Cell} {other : Nat}
    (apart : other + back.length ≤ base ∨ base + front.length ≤ other) :
    store (store memory base front) other back =
      store (store memory other back) base front := by
  funext address
  by_cases inside : other ≤ address ∧ address < other + back.length
  · have offset : address - other < back.length := by omega
    rw [store_apply_outside (store memory other back) (by omega)]
    simp [store, inside.1, offset]
  · rw [store_apply_outside _ (by omega)]
    by_cases inFront : base ≤ address ∧ address < base + front.length
    · have offset : address - base < front.length := by omega
      simp [store, inFront.1, offset]
    · rw [store_apply_outside _ (by omega), store_apply_outside _ (by omega),
        store_apply_outside _ (by omega)]

/-- A store behind a held list extends it. -/
theorem load_store_extend {front : List Cell} (holds : load memory base front.length = front)
    (back : List Cell) :
    load (store memory (base + front.length) back) base (front.length + back.length) =
      front ++ back := by
  rw [load_add, load_store_disjoint _ (Or.inl (Nat.le_refl _)), holds, load_store_self]

/-- Storing what another memory holds in a range copies the range. -/
theorem store_load_apply (source : Nat → Cell) (start count address : Nat) :
    store memory base (load source start count) address =
      if base ≤ address ∧ address < base + count then source (start + (address - base))
      else memory address := by
  by_cases inside : base ≤ address ∧ address < base + count
  · have offset : address - base < count := by omega
    simp [store, inside, List.getD_eq_getElem?_getD, load_getElem? source start offset]
  · rw [if_neg inside]
    apply store_apply_outside
    rw [load_length]
    omega

end Store

/-! ## Gaps -/

section Gap

variable (memory : Nat → Cell) {position length : Nat}

/-- Move the end of a range up by one and store a cell in the gap. -/
def openGap (memory : Nat → Cell) (position length : Nat) (cell : Cell) : Nat → Cell :=
  store (store memory (position + 1) (load memory position (length - position))) position
    [cell]

/-- Move the end of a range down by one, over one of its cells. -/
def closeGap (memory : Nat → Cell) (position length : Nat) : Nat → Cell :=
  store memory position (load memory (position + 1) (length - position))

theorem openGap_apply (inside : position ≤ length) (cell : Cell) (address : Nat) :
    openGap memory position length cell address =
      if address = position then cell
      else if position < address ∧ address ≤ length then memory (address - 1)
      else memory address := by
  unfold openGap
  split
  next same =>
    subst address
    simp [store]
  next apart =>
    rw [store_apply_outside _ (by rw [List.length_singleton]; omega), store_load_apply]
    by_cases moved : position < address ∧ address ≤ length
    · have from_ : position + (address - (position + 1)) = address - 1 := by omega
      rw [if_pos moved, if_pos (by omega), from_]
    · rw [if_neg moved, if_neg (by omega)]

theorem closeGap_apply (address : Nat) :
    closeGap memory position length address =
      if position ≤ address ∧ address < length then memory (address + 1)
      else memory address := by
  unfold closeGap
  rw [store_load_apply]
  by_cases moved : position ≤ address ∧ address < length
  · have from_ : position + 1 + (address - position) = address + 1 := by omega
    rw [if_pos moved, if_pos (by omega), from_]
  · rw [if_neg moved, if_neg (by omega)]

/-- A gap inserts its cell into the range. -/
theorem load_openGap (inside : position ≤ length) (cell : Cell) :
    load (openGap memory position length cell) 0 (length + 1) =
      (load memory 0 length).take position ++ cell :: (load memory 0 length).drop position := by
  obtain ⟨rest, rfl⟩ := Nat.exists_eq_add_of_le inside
  have front : load (openGap memory position (position + rest) cell) 0 position =
      load memory 0 position := by
    rw [load_eq_load_iff]
    intro offset below
    rw [openGap_apply _ inside, if_neg (by omega), if_neg (by omega)]
  have back : load (openGap memory position (position + rest) cell) (position + 1) rest =
      load memory position rest := by
    rw [load_eq_load_iff]
    intro offset below
    rw [openGap_apply _ inside, if_neg (by omega), if_pos (by omega)]
    congr 1
    omega
  have single : load (openGap memory position (position + rest) cell) position 1 = [cell] := by
    change [openGap memory position (position + rest) cell position] = [cell]
    rw [openGap_apply _ inside, if_pos rfl]
  have split : position + rest + 1 = position + (1 + rest) := by omega
  rw [split, load_add, load_add, Nat.zero_add, front, single, back, load_add _ _ position,
    List.take_left' (load_length _ _ _), List.drop_left' (load_length _ _ _), Nat.zero_add,
    List.singleton_append]

/-- Closing a gap erases a cell of the range. -/
theorem load_closeGap (inside : position ≤ length) :
    load (closeGap memory position length) 0 length =
      (load memory 0 (length + 1)).take position ++
        (load memory 0 (length + 1)).drop (position + 1) := by
  obtain ⟨rest, rfl⟩ := Nat.exists_eq_add_of_le inside
  have front : load (closeGap memory position (position + rest)) 0 position =
      load memory 0 position := by
    rw [load_eq_load_iff]
    intro offset below
    rw [closeGap_apply, if_neg (by omega)]
  have back : load (closeGap memory position (position + rest)) position rest =
      load memory (position + 1) rest := by
    rw [load_eq_load_iff]
    intro offset below
    rw [closeGap_apply, if_pos (by omega)]
    congr 1
    omega
  have split : position + rest + 1 = position + 1 + rest := by omega
  have taken : (load memory 0 (position + 1 + rest)).take position =
      load memory 0 position := by
    rw [Nat.add_assoc, load_add, List.take_left' (load_length _ _ _)]
  rw [split, taken, load_add _ _ (position + 1), List.drop_left' (load_length _ _ _),
    load_add, Nat.zero_add, Nat.zero_add, front, back]

end Gap

/-! ## Words -/

/-- The bytes of a word, most significant first. -/
def bigEndian (word : UInt32) : List UInt8 :=
  [(word >>> 24).toUInt8, (word >>> 16).toUInt8, (word >>> 8).toUInt8, word.toUInt8]

/-- The word of four bytes, most significant first. -/
def ofBigEndian (first second third fourth : UInt8) : UInt32 :=
  first.toUInt32 <<< 24 ||| second.toUInt32 <<< 16 ||| third.toUInt32 <<< 8 |||
    fourth.toUInt32

theorem ofBigEndian_toNat (first second third fourth : UInt8) :
    (ofBigEndian first second third fourth).toNat =
      ((first.toNat * 256 + second.toNat) * 256 + third.toNat) * 256 + fourth.toNat := by
  have join (high : Nat) (byte : UInt8) :
      high * 256 + byte.toNat = high <<< 8 ||| byte.toNat := by
    rw [← Nat.shiftLeft_add_eq_or_of_lt byte.toNat_lt, Nat.shiftLeft_eq]
  have fits (byte : UInt8) {count : Nat} (small : count ≤ 24) :
      byte.toNat <<< count % 2 ^ 32 = byte.toNat <<< count := by
    apply Nat.mod_eq_of_lt
    rw [Nat.shiftLeft_eq]
    calc byte.toNat * 2 ^ count < 2 ^ 8 * 2 ^ count :=
          Nat.mul_lt_mul_of_pos_right byte.toNat_lt (Nat.two_pow_pos count)
      _ ≤ 2 ^ 8 * 2 ^ 24 := Nat.mul_le_mul_left _ (Nat.pow_le_pow_right (by decide) small)
  rw [join, join, join]
  simp only [ofBigEndian, UInt32.toNat_or, UInt32.toNat_shiftLeft, UInt8.toNat_toUInt32,
    Nat.shiftLeft_or_distrib, ← Nat.shiftLeft_add]
  rw [← fits first (Nat.le_refl 24), ← fits second (by decide : 16 ≤ 24),
    ← fits third (by decide : 8 ≤ 24)]
  rfl

theorem bigEndian_ofBigEndian (first second third fourth : UInt8) :
    bigEndian (ofBigEndian first second third fourth) = [first, second, third, fourth] := by
  have value := ofBigEndian_toNat first second third fourth
  have bytes : ∀ byte ∈ [first, second, third, fourth], byte.toNat < 256 :=
    fun byte _ => byte.toNat_lt
  simp only [List.forall_mem_cons] at bytes
  have shift (word count : UInt32) (divisor : Nat) (small : count.toNat < 32)
      (power : 2 ^ count.toNat = divisor) :
      (word >>> count).toUInt8.toNat = word.toNat / divisor % 256 := by
    rw [UInt32.toNat_toUInt8, UInt32.toNat_shiftRight, Nat.mod_eq_of_lt small,
      Nat.shiftRight_eq_div_pow, power]
  have last (word : UInt32) : word.toUInt8.toNat = word.toNat % 256 := word.toNat_toUInt8
  simp only [bigEndian, List.cons.injEq, ← UInt8.toNat_inj, and_true]
  rw [shift _ 24 16777216 (by decide) (by decide),
    shift _ 16 65536 (by decide) (by decide),
    shift _ 8 256 (by decide) (by decide), last, value]
  omega

theorem ofBigEndian_bytes (word : UInt32) :
    ofBigEndian (word >>> 24).toUInt8 (word >>> 16).toUInt8 (word >>> 8).toUInt8
      word.toUInt8 = word := by
  have value := ofBigEndian_toNat (word >>> 24).toUInt8 (word >>> 16).toUInt8
    (word >>> 8).toUInt8 word.toUInt8
  have bound := word.toNat_lt
  have shift (count : UInt32) (divisor : Nat) (small : count.toNat < 32)
      (power : 2 ^ count.toNat = divisor) :
      (word >>> count).toUInt8.toNat = word.toNat / divisor % 256 := by
    rw [UInt32.toNat_toUInt8, UInt32.toNat_shiftRight, Nat.mod_eq_of_lt small,
      Nat.shiftRight_eq_div_pow, power]
  rw [shift 24 16777216 (by decide) (by decide), shift 16 65536 (by decide) (by decide),
    shift 8 256 (by decide) (by decide), word.toNat_toUInt8] at value
  rw [← UInt32.toNat_inj, value]
  omega

theorem bigEndian_injective {left right : UInt32} (same : bigEndian left = bigEndian right) :
    left = right := by
  simp only [bigEndian, List.cons.injEq, and_true] at same
  rw [← ofBigEndian_bytes left, ← ofBigEndian_bytes right, same.1, same.2.1, same.2.2.1,
    same.2.2.2]

/-- The bytes of a word, least significant first. -/
def littleEndian (word : UInt32) : List UInt8 :=
  (bigEndian word).reverse

@[simp] theorem littleEndian_length (word : UInt32) : (littleEndian word).length = 4 := rfl

theorem littleEndian_injective {left right : UInt32}
    (same : littleEndian left = littleEndian right) : left = right :=
  bigEndian_injective (List.reverse_injective same)

end SunWise.Library
