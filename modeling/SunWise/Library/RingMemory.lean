import SunWise.Library.Memory
import SunWise.Library.Ring

/-!
# Rings of items in memory

A ring whose slots are ranges of `size` cells, one behind the other from `base` on.
`ringItems` reads a window of counters; a store to the slot at either end of the window
extends it.
-/

namespace SunWise.Library

variable {Cell : Type*} {memory : Nat → Cell} {base size length head count : Nat}

/-- The items in the slots of a window. -/
def ringItems (memory : Nat → Cell) (base size length head count : Nat) : List (List Cell) :=
  (slots length head count).map fun slot => load memory (base + slot * size) size

theorem ringItems_cons :
    ringItems memory base size length head (count + 1) =
      load memory (base + head % length * size) size ::
        ringItems memory base size length (head + 1) count := by
  rw [ringItems, slots_cons, List.map_cons, ringItems]

theorem ringItems_concat :
    ringItems memory base size length head (count + 1) =
      ringItems memory base size length head count ++
        [load memory (base + (head + count) % length * size) size] := by
  rw [ringItems, slots_succ, List.map_append, ringItems]
  rfl

theorem ringItems_mod :
    ringItems memory base size length (head % length) count =
      ringItems memory base size length head count := by
  rw [ringItems, slots_mod, ringItems]

/-- A slot ends where the next one starts, and inside the ring. -/
theorem slot_le_of_lt {slot other : Nat} (before : slot < other) :
    base + slot * size + size ≤ base + other * size := by
  have next : (slot + 1) * size ≤ other * size := Nat.mul_le_mul_right size before
  rw [Nat.add_mul, Nat.one_mul] at next
  omega

/-- Memories that agree on the ring have the same items in it. -/
theorem ringItems_congr {other : Nat → Cell} (positive : 0 < length)
    (same : ∀ address, base ≤ address → address < base + length * size →
      other address = memory address) :
    ringItems other base size length head count =
      ringItems memory base size length head count := by
  apply List.map_congr_left
  intro slot inWindow
  rw [load_eq_load_iff]
  intro offset inside
  have last := @slot_le_of_lt base size _ _ (lt_of_mem_slots positive inWindow)
  apply same <;> omega

theorem ringItems_store_outside {slot : Nat} {item : List Cell} (sized : item.length = size)
    (outside : slot ∉ slots length head count) :
    ringItems (store memory (base + slot * size) item) base size length head count =
      ringItems memory base size length head count := by
  apply List.map_congr_left
  intro other inWindow
  apply load_store_disjoint
  rcases Nat.lt_or_gt_of_ne (ne_of_mem_of_not_mem inWindow outside) with before | after
  · exact Or.inl (slot_le_of_lt before)
  · exact Or.inr (sized ▸ slot_le_of_lt after)

theorem load_store_slot {address : Nat} {item : List Cell} (sized : item.length = size) :
    load (store memory address item) address size = item :=
  sized ▸ load_store_self memory item

/-- A store to the slot behind the window appends an item. -/
theorem ringItems_store_back (positive : 0 < length) (room : count < length)
    {item : List Cell} (sized : item.length = size) :
    ringItems (store memory (base + (head + count) % length * size) item)
        base size length head (count + 1) =
      ringItems memory base size length head count ++ [item] := by
  have outside : (head + count) % length ∉ slots length head count := by
    rw [next_mem_slots_iff positive room.le]
    exact room.ne
  rw [ringItems_concat, ringItems_store_outside sized outside, load_store_slot sized]

/-- A store to the slot in front of the window puts an item first. -/
theorem ringItems_store_front (room : count < length) {item : List Cell}
    (sized : item.length = size) :
    ringItems (store memory (base + head % length * size) item)
        base size length head (count + 1) =
      item :: ringItems memory base size length (head + 1) count := by
  have distinct : (slots length head (count + 1)).Nodup := slots_nodup room
  rw [slots_cons, List.nodup_cons] at distinct
  rw [ringItems_cons, ringItems_store_outside sized distinct.1, load_store_slot sized]

end SunWise.Library
