import Mathlib.Data.List.Nodup
import Mathlib.Data.List.Range
import Mathlib.Data.Nat.ModEq

/-!
# Cyclic ring positions

A ring of `size` slots is addressed by counters that only grow; a counter stands for its
remainder.  `slots` lists the slots of a window of consecutive counters, and no slot
occurs twice as long as the window is not longer than the ring.
-/

namespace SunWise.Library

/-- The slots of the `count` counters from `head` on. -/
def slots (size head count : Nat) : List Nat :=
  (List.range count).map fun offset => (head + offset) % size

section Slots

variable {size : Nat}

@[simp] theorem slots_zero (head : Nat) : slots size head 0 = [] := rfl

@[simp] theorem slots_length (head count : Nat) :
    (slots size head count).length = count := by
  simp [slots]

theorem slots_succ (head count : Nat) :
    slots size head (count + 1) = slots size head count ++ [(head + count) % size] := by
  simp [slots, List.range_succ]

theorem slots_cons (head count : Nat) :
    slots size head (count + 1) = head % size :: slots size (head + 1) count := by
  simp [slots, List.range_succ_eq_map, Function.comp_def, Nat.add_assoc, Nat.add_comm 1]

/-- Only the slot of the first counter matters. -/
theorem slots_mod (head count : Nat) :
    slots size (head % size) count = slots size head count := by
  simp [slots]

theorem slots_getElem? {head count offset : Nat} (inside : offset < count) :
    (slots size head count)[offset]? = some ((head + offset) % size) := by
  simp [slots, inside]

theorem mem_slots_iff {head count slot : Nat} :
    slot ∈ slots size head count ↔
      ∃ offset < count, (head + offset) % size = slot := by
  simp [slots]

theorem lt_of_mem_slots (positive : 0 < size) {head count slot : Nat}
    (inWindow : slot ∈ slots size head count) : slot < size := by
  rcases mem_slots_iff.mp inWindow with ⟨offset, -, rfl⟩
  exact Nat.mod_lt _ positive

/-- Two counters that are less than a round apart stand for different slots. -/
theorem counter_eq_of_mod_eq {first second : Nat} (ordered : first ≤ second)
    (close : second < first + size) (same : first % size = second % size) :
    first = second := by
  have divides : size ∣ second - first := (Nat.modEq_iff_dvd' ordered).mp same
  rcases Nat.eq_zero_of_dvd_of_lt divides (by omega) with isZero
  omega

theorem slots_nodup {head count : Nat} (fits : count ≤ size) :
    (slots size head count).Nodup := by
  apply List.Nodup.map_on _ List.nodup_range
  intro first inFirst second inSecond same
  rw [List.mem_range] at inFirst inSecond
  rcases Nat.le_total first second with ordered | ordered
  · have equal := counter_eq_of_mod_eq (by omega) (by omega) same
    omega
  · have equal := counter_eq_of_mod_eq (by omega) (by omega) same.symm
    omega

/-- The slot after a window lies inside it exactly when the window fills the ring. -/
theorem next_mem_slots_iff (positive : 0 < size) {head count : Nat}
    (fits : count ≤ size) :
    (head + count) % size ∈ slots size head count ↔ count = size := by
  constructor
  · intro inWindow
    rcases mem_slots_iff.mp inWindow with ⟨offset, before, same⟩
    by_contra short
    have equal := counter_eq_of_mod_eq (by omega) (by omega) same
    omega
  · rintro rfl
    apply mem_slots_iff.mpr
    exact ⟨0, positive, by simp⟩

theorem slots_add (head front back : Nat) :
    slots size head (front + back) =
      slots size head front ++ slots size (head + front) back := by
  simp [slots, List.range_add, Nat.add_assoc]

theorem slots_nodup_iff (positive : 0 < size) {head count : Nat} :
    (slots size head count).Nodup ↔ count ≤ size := by
  refine ⟨fun distinct => ?_, slots_nodup⟩
  by_contra long
  obtain ⟨rest, rfl⟩ := Nat.exists_eq_add_of_lt (Nat.lt_of_not_le long)
  have again := (@next_mem_slots_iff size positive head size (Nat.le_refl size)).mpr rfl
  rw [Nat.add_right_comm, slots_add, slots_succ] at distinct
  have round := (List.nodup_append.mp distinct).1
  exact (List.nodup_append.mp round).2.2 _ again _ (List.mem_singleton_self _) rfl

end Slots

end SunWise.Library
