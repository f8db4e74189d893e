import Mathlib.Data.Nat.Basic

/-!
# NOR flash

A serial NOR flash as its command set sees it.  Programming can only clear bits, it
wraps inside a page, and it takes effect only while the write-enable latch is set and
the device is ready.  How long an accepted operation keeps the device busy is an
arbitrary sequence, counted in status reads.
-/

namespace SunWise.Library

/-- A NOR flash. `busy` is the number of status reads that will still report that an
operation is in progress; `delays` holds what the operations to come will take. -/
structure NorFlash where
  memory : Nat → UInt8
  latch : Bool
  busy : Nat
  delays : Nat → Nat

namespace NorFlash

/-- The device accepts an operation that changes the memory. -/
def Accepts (flash : NorFlash) : Prop :=
  flash.busy = 0 ∧ flash.latch = true

instance (flash : NorFlash) : Decidable flash.Accepts :=
  inferInstanceAs (Decidable (_ ∧ _))

/-- Set the write-enable latch of a device that is ready. -/
def writeEnable (flash : NorFlash) : NorFlash :=
  if flash.busy = 0 then { flash with latch := true } else flash

/-- The status byte: bit 0 reports an operation in progress, bit 1 the latch. -/
def status (flash : NorFlash) : UInt8 :=
  (if flash.busy = 0 then 0 else 1) ||| (if flash.latch then 2 else 0)

/-- The device after a status read. -/
def poll (flash : NorFlash) : NorFlash :=
  { flash with busy := flash.busy - 1 }

/-- Begin an operation that leaves `memory` behind. -/
def start (flash : NorFlash) (memory : Nat → UInt8) : NorFlash where
  memory := memory
  latch := false
  busy := flash.delays 0
  delays := fun operation => flash.delays (operation + 1)

/-- The address after `address`, wrapping at the end of its page. -/
def following (pageSize address : Nat) : Nat :=
  if (address + 1) % pageSize = 0 then address + 1 - pageSize else address + 1

/-- The memory after programming `data` from `address` on. -/
def programmed (pageSize : Nat) (memory : Nat → UInt8) (address : Nat) :
    List UInt8 → Nat → UInt8
  | [] => memory
  | byte :: data =>
      programmed pageSize
        (fun cell => if cell = address then memory cell &&& byte else memory cell)
        (following pageSize address) data

/-- Page program. -/
def pageProgram (pageSize : Nat) (flash : NorFlash) (address : Nat)
    (data : List UInt8) : NorFlash :=
  if flash.Accepts then flash.start (programmed pageSize flash.memory address data)
  else flash

/-- The bytes a read delivers; a busy device answers with zeros. -/
def read (flash : NorFlash) (address count : Nat) : List UInt8 :=
  (List.range count).map fun offset =>
    if flash.busy = 0 then flash.memory (address + offset) else 0

/-- One byte of what a read delivers. -/
def answer (flash : NorFlash) (address : Nat) : UInt8 :=
  if flash.busy = 0 then flash.memory address else 0

theorem answer_ready {flash : NorFlash} (ready : flash.busy = 0) :
    flash.answer = flash.memory := by
  funext address
  rw [answer, if_pos ready]

section Program

variable {pageSize : Nat}

theorem following_of_room {address : Nat}
    (room : address % pageSize + 1 < pageSize) :
    following pageSize address = address + 1 ∧
      (address + 1) % pageSize = address % pageSize + 1 := by
  have offset : (address + 1) % pageSize = address % pageSize + 1 := by
    rw [Nat.add_mod, Nat.mod_eq_of_lt (a := 1) (by omega), Nat.mod_eq_of_lt room]
  refine ⟨?_, offset⟩
  rw [following, offset, if_neg (Nat.succ_ne_zero _)]

/-- Programming a range that does not reach past its page clears the bits that are zero
in the data, and touches nothing else. -/
theorem programmed_apply (memory : Nat → UInt8) {address : Nat} {data : List UInt8}
    (inPage : address % pageSize + data.length ≤ pageSize) (cell : Nat) :
    programmed pageSize memory address data cell =
      if address ≤ cell ∧ cell < address + data.length then
        memory cell &&& data.getD (cell - address) 0xFF
      else memory cell := by
  induction data generalizing memory address with
  | nil =>
      have outside : ¬(address ≤ cell ∧ cell < address + 0) := by omega
      rw [List.length_nil, if_neg outside]
      rfl
  | cons byte data ih =>
      rw [List.length_cons] at inPage ⊢
      rw [programmed]
      cases data with
      | nil =>
          by_cases isFirst : cell = address
          · subst cell
            simp [programmed]
          · have outside : ¬(address ≤ cell ∧ cell < address + (0 + 1)) := by omega
            rw [List.length_nil, if_neg outside]
            simp [programmed, isFirst]
      | cons second data =>
          rw [List.length_cons] at inPage
          have room : address % pageSize + 1 < pageSize := by omega
          rcases following_of_room room with ⟨next, offset⟩
          rw [next, ih _ (by rw [offset, List.length_cons]; omega)]
          by_cases isFirst : cell = address
          · subst cell
            have notLater : ¬(address + 1 ≤ address ∧
                address < address + 1 + (second :: data).length) := by omega
            have inside : address ≤ address ∧
                address < address + ((second :: data).length + 1) := by omega
            rw [if_neg notLater, if_pos inside]
            simp
          · by_cases later : address + 1 ≤ cell ∧
                cell < address + 1 + (second :: data).length
            · have inside : address ≤ cell ∧
                  cell < address + ((second :: data).length + 1) := by omega
              have distance : cell - address = cell - (address + 1) + 1 := by omega
              rw [if_pos later, if_pos inside, if_neg isFirst, distance]
              rfl
            · have outside : ¬(address ≤ cell ∧
                  cell < address + ((second :: data).length + 1)) := by omega
              rw [if_neg later, if_neg outside, if_neg isFirst]

theorem pageProgram_refused {flash : NorFlash} (refuses : ¬flash.Accepts)
    (address : Nat) (data : List UInt8) :
    pageProgram pageSize flash address data = flash := by
  rw [pageProgram, if_neg refuses]

/-- After a program, accepted or not, the next one is refused. -/
theorem pageProgram_refuses (flash : NorFlash) (address : Nat) (data : List UInt8) :
    ¬(pageProgram pageSize flash address data).Accepts := by
  unfold pageProgram
  split
  next =>
    rintro ⟨-, latched⟩
    cases latched
  next refuses => exact refuses

end Program

/-- The status byte reports exactly whether an operation is in progress. -/
theorem status_busy (flash : NorFlash) :
    flash.status &&& 1 ≠ 0 ↔ flash.busy ≠ 0 := by
  by_cases idle : flash.busy = 0
  · have clear : ∀ latch : Bool, ¬((0 ||| if latch then 2 else 0) &&& 1 : UInt8) ≠ 0 := by
      decide
    simpa [status, idle] using clear flash.latch
  · have set : ∀ latch : Bool, ((1 ||| if latch then 2 else 0) &&& 1 : UInt8) ≠ 0 := by
      decide
    simpa [status, idle] using set flash.latch

/-- An erased cell takes any byte. -/
theorem erased_and (byte : UInt8) : 0xFF &&& byte = byte := by
  apply UInt8.toBitVec_inj.mp
  exact BitVec.allOnes_and

/-! ## Sectors -/

/-- The sector of `address` has a cell in the range from `first` up to `last`. -/
def Touches (sectorSize address first last : Nat) : Prop :=
  ∃ cell, cell / sectorSize = address / sectorSize ∧ first ≤ cell ∧ cell < last

/-- The sectors that a range touches lie between those of its first and its last cell. -/
theorem touches_iff {sectorSize address first last : Nat} (positive : 0 < sectorSize) :
    Touches sectorSize address first last ↔
      first < last ∧ first / sectorSize ≤ address / sectorSize ∧
        address / sectorSize * sectorSize < last := by
  constructor
  · rintro ⟨cell, sector, after, before⟩
    refine ⟨Nat.lt_of_le_of_lt after before, ?_, ?_⟩
    · rw [← sector]
      exact Nat.div_le_div_right after
    · rw [← sector]
      exact Nat.lt_of_le_of_lt (Nat.div_mul_le_self _ _) before
  · rintro ⟨nonempty, after, before⟩
    by_cases within : first ≤ address / sectorSize * sectorSize
    · exact ⟨address / sectorSize * sectorSize, Nat.mul_div_cancel _ positive, within, before⟩
    · -- the range starts inside the sector
      have inside : address / sectorSize ≤ first / sectorSize :=
        (Nat.le_div_iff_mul_le positive).mpr (Nat.le_of_not_le within)
      exact ⟨first, Nat.le_antisymm after inside, Nat.le_refl _, nonempty⟩

end NorFlash

end SunWise.Library
