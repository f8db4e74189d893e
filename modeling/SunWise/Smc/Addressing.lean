import SunWise.Smc.Chip

/-!
# NAND addressing

`NandFlash_Read` and `NandFlash_Write` divide an address by the size of a block, not of a
page, and `NandFlash_Erase` sends the number of a block where the chip expects the row of a
page.  What is sent is a column and a page row exactly for chips with one page in a block
and for the first page of any chip.
-/

namespace SunWise.Smc

open Library

/-- A chip description whose numbers fit together. -/
structure NandGeometry extends NandFlashChipInfo where
  pages_pos : 0 < pages.toNat
  pageSize_pos : 0 < pageSize.toNat
  pageSize_lt : pageSize.toNat < 2 ^ 16
  blockSize_eq : blockSize.toNat = pages.toNat * pageSize.toNat
  pages_lt : blocks.toNat * pages.toNat < 2 ^ 24

/-- Capacity in bytes. -/
def NandGeometry.byteCapacity (geometry : NandGeometry) : Nat :=
  geometry.blocks.toNat * geometry.blockSize.toNat

/-- A column in a page, and a page row, that make up the address. -/
def IsAddress (geometry : NandGeometry) (addr : UInt32) (row column : Nat) : Prop :=
  column < geometry.pageSize.toNat ∧ row * geometry.pageSize.toNat + column = addr.toNat

section Arithmetic

variable {geometry : NandGeometry} {addr : UInt32}

theorem blockSize_pos (geometry : NandGeometry) : 0 < geometry.blockSize.toNat := by
  rw [geometry.blockSize_eq]
  exact Nat.mul_pos geometry.pages_pos geometry.pageSize_pos

theorem pageSize_le_blockSize (geometry : NandGeometry) :
    geometry.pageSize.toNat ≤ geometry.blockSize.toNat := by
  rw [geometry.blockSize_eq]
  exact Nat.le_mul_of_pos_left _ geometry.pages_pos

theorem rowOf_eq (inside : addr.toNat < geometry.byteCapacity) :
    rowOf geometry.toNandFlashChipInfo addr = addr.toNat / geometry.blockSize.toNat := by
  have few : addr.toNat / geometry.blockSize.toNat < geometry.blocks.toNat :=
    Nat.div_lt_of_lt_mul (by rw [Nat.mul_comm]; exact inside)
  have pages : geometry.blocks.toNat ≤ geometry.blocks.toNat * geometry.pages.toNat :=
    Nat.le_mul_of_pos_right _ geometry.pages_pos
  rw [rowOf, UInt32.toNat_div]
  apply Nat.mod_eq_of_lt
  exact Nat.lt_trans (Nat.lt_of_lt_of_le few pages) geometry.pages_lt

theorem columnOf_eq : columnOf geometry.toNandFlashChipInfo addr =
    addr.toNat % geometry.blockSize.toNat % 2 ^ 16 := by
  rw [columnOf, UInt32.toNat_mod]

/-- What is sent is the address exactly for one page in a block and in the first page. -/
theorem isAddress_iff (inside : addr.toNat < geometry.byteCapacity) :
    IsAddress geometry addr (rowOf geometry.toNandFlashChipInfo addr)
        (columnOf geometry.toNandFlashChipInfo addr) ↔
      geometry.pages.toNat = 1 ∨ addr.toNat < geometry.pageSize.toNat := by
  have parts := Nat.div_add_mod addr.toNat geometry.blockSize.toNat
  have rest := Nat.mod_lt addr.toNat (blockSize_pos geometry)
  have truncated := Nat.mod_le (addr.toNat % geometry.blockSize.toNat) (2 ^ 16)
  have small := geometry.pageSize_lt
  rw [IsAddress, rowOf_eq inside, columnOf_eq]
  constructor
  · rintro ⟨inPage, sum⟩
    by_cases one : geometry.pages.toNat = 1
    · exact Or.inl one
    · right
      have two : 2 ≤ geometry.pages.toNat := by
        have positive := geometry.pages_pos
        omega
      have rows (row : Nat) : 2 * (row * geometry.pageSize.toNat) ≤
          geometry.blockSize.toNat * row := by
        calc 2 * (row * geometry.pageSize.toNat)
            ≤ geometry.pages.toNat * (row * geometry.pageSize.toNat) :=
              Nat.mul_le_mul_right _ two
          _ = geometry.blockSize.toNat * row := by
              rw [geometry.blockSize_eq, Nat.mul_comm row, Nat.mul_assoc]
      have more := rows (addr.toNat / geometry.blockSize.toNat)
      omega
  · rintro (one | first)
    · have same : geometry.blockSize.toNat = geometry.pageSize.toNat := by
        rw [geometry.blockSize_eq, one, Nat.one_mul]
      rw [same] at parts rest ⊢
      rw [Nat.mod_eq_of_lt (Nat.lt_trans rest small), Nat.mul_comm]
      exact ⟨rest, parts⟩
    · have inBlock := Nat.lt_of_lt_of_le first (pageSize_le_blockSize geometry)
      rw [Nat.div_eq_of_lt inBlock, Nat.mod_eq_of_lt inBlock,
        Nat.mod_eq_of_lt (Nat.lt_trans first small), Nat.zero_mul, Nat.zero_add]
      exact ⟨first, rfl⟩

/-- Addresses that are sent alike are the same, for one page in a block always, and next to
an address in the first page if the column does not repeat in the first block. -/
theorem sent_injective {other : UInt32} (inside : addr.toNat < geometry.byteCapacity)
    (otherInside : other.toNat < geometry.byteCapacity)
    (direct : geometry.pages.toNat = 1 ∨ addr.toNat < geometry.pageSize.toNat ∧
      geometry.blockSize.toNat ≤ addr.toNat + 2 ^ 16)
    (row : rowOf geometry.toNandFlashChipInfo other = rowOf geometry.toNandFlashChipInfo addr)
    (column : columnOf geometry.toNandFlashChipInfo other =
      columnOf geometry.toNandFlashChipInfo addr) : other = addr := by
  apply UInt32.toNat_inj.mp
  rcases direct with one | ⟨first, short⟩
  · have here := ((isAddress_iff inside).mpr (Or.inl one)).2
    have there := ((isAddress_iff otherInside).mpr (Or.inl one)).2
    rw [← here, ← there, row, column]
  · have here := ((isAddress_iff inside).mpr (Or.inr first)).2
    have small := geometry.pageSize_lt
    have firstInBlock := Nat.lt_of_lt_of_le first (pageSize_le_blockSize geometry)
    rw [rowOf_eq inside, Nat.div_eq_of_lt firstInBlock, rowOf_eq otherInside] at row
    have inBlock : other.toNat < geometry.blockSize.toNat :=
      Nat.lt_of_div_eq_zero (blockSize_pos geometry) row
    rw [columnOf_eq, columnOf_eq, Nat.mod_eq_of_lt inBlock, Nat.mod_eq_of_lt firstInBlock]
      at column
    omega

end Arithmetic

/-- Every call for an address addresses the chip with the column and the page row of that
address, an erase with a row of its block; no other address is sent like it; and the data
of a page that is written is read back, and wiped by an erase. -/
structure Addresses (geometry : NandGeometry) (addr : UInt32) : Prop where
  read : ∀ bank len chip, chip.pending = none → ∃ row column,
    (nandFlashRead (nandBus bank) bank geometry.toNandFlashChipInfo addr len
      chip).2.2.operations = chip.operations ++ [.read row column] ∧
    IsAddress geometry addr row column
  write : ∀ bank polls pbuf chip, chip.pending = none → ∃ row column,
    (nandFlashWrite (nandBus bank) polls bank geometry.toNandFlashChipInfo addr pbuf
      chip).2.operations = chip.operations ++ [.program row column] ∧
    IsAddress geometry addr row column
  erase : ∀ bank polls chip, ∃ row,
    (nandFlashErase (nandBus bank) polls bank geometry.toNandFlashChipInfo addr
      chip).2.operations = chip.operations ++ [.erase row] ∧
    row / geometry.pages.toNat = addr.toNat / geometry.blockSize.toNat
  apart : ∀ other : UInt32, other.toNat < geometry.byteCapacity → other ≠ addr →
    ∀ bank len chip, chip.pending = none →
      (nandFlashRead (nandBus bank) bank geometry.toNandFlashChipInfo other len
        chip).2.2.operations ≠
      (nandFlashRead (nandBus bank) bank geometry.toNandFlashChipInfo addr len
        chip).2.2.operations
  found : ∀ bank polls pbuf chip, chip.pending = none →
    addr.toNat % geometry.pageSize.toNat + pbuf.length ≤ geometry.pageSize.toNat →
    (nandFlashRead (nandBus bank) bank geometry.toNandFlashChipInfo addr pbuf.length
      chip).2.1 = List.replicate pbuf.length 0xFF →
    (nandFlashRead (nandBus bank) bank geometry.toNandFlashChipInfo addr pbuf.length
      (nandFlashWrite (nandBus bank) polls bank geometry.toNandFlashChipInfo addr pbuf
        chip).2).2.1 = pbuf
  wiped : ∀ bank polls len chip, chip.pending = none → chip.pages = geometry.pages.toNat →
    addr.toNat % geometry.pageSize.toNat + len ≤ geometry.pageSize.toNat →
    (nandFlashRead (nandBus bank) bank geometry.toNandFlashChipInfo addr len
      (nandFlashErase (nandBus bank) polls bank geometry.toNandFlashChipInfo addr
        chip).2).2.1 = List.replicate len 0xFF

section Result

variable (geometry : NandGeometry) (addr : UInt32)

/-- Data that is written over an erased range is read back. -/
theorem nandFlash_found (bank : SmcBank) (polls : Nat) (pbuf : List UInt8)
    {chip : NandChip} (settled : chip.pending = none)
    (erased : (nandFlashRead (nandBus bank) bank geometry.toNandFlashChipInfo addr
      pbuf.length chip).2.1 = List.replicate pbuf.length 0xFF) :
    (nandFlashRead (nandBus bank) bank geometry.toNandFlashChipInfo addr pbuf.length
      (nandFlashWrite (nandBus bank) polls bank geometry.toNandFlashChipInfo addr pbuf
        chip).2).2.1 = pbuf := by
  rcases nandFlashWrite_nand bank geometry.toNandFlashChipInfo addr polls pbuf settled
    with ⟨phase, status, written⟩
  rw [nandFlashRead_nand bank _ _ _ settled] at erased
  rw [written, nandFlashRead_nand bank _ _ _ rfl]
  by_cases empty : pbuf = []
  · subst empty
    rfl
  · simp only [if_neg empty]
    exact NandArray.read_program _ erased

/-- An erase wipes what a read at the same address delivers. -/
theorem nandFlash_wiped (bank : SmcBank) (polls len : Nat) {chip : NandChip}
    (settled : chip.pending = none) :
    (nandFlashRead (nandBus bank) bank geometry.toNandFlashChipInfo addr len
      (nandFlashErase (nandBus bank) polls bank geometry.toNandFlashChipInfo addr
        chip).2).2.1 = List.replicate len 0xFF := by
  rcases nandFlashErase_nand bank geometry.toNandFlashChipInfo addr polls chip
    with ⟨status, erased⟩
  have stillSettled : ({ chip.erase (rowOf geometry.toNandFlashChipInfo addr) with
      status } : NandChip).pending = none := settled
  rw [erased, nandFlashRead_nand bank _ _ _ stillSettled]
  exact NandArray.read_eraseBlock _ _ _ rfl

/-- A blank chip that waits for a command. -/
def blankChip (pages : Nat) : NandChip where
  cells := fun _ _ => 0xFF
  pages := pages
  pending := none
  phase := .status
  operations := []
  status := fun _ => 0x02

variable {geometry addr}

/-- An address is sent as it should be exactly if a block has one page, or the address lies
in the first page and its column does not repeat in the first block. -/
theorem nandFlash_addresses_iff (inside : addr.toNat < geometry.byteCapacity) :
    Addresses geometry addr ↔
      geometry.pages.toNat = 1 ∨ addr.toNat < geometry.pageSize.toNat ∧
        geometry.blockSize.toNat ≤ addr.toNat + 2 ^ 16 := by
  constructor
  · intro addresses
    rcases addresses.read .eSmcBank0 0 (blankChip 0) rfl with ⟨row, column, sent, isAddress⟩
    rw [nandFlashRead_nand _ _ _ _ rfl] at sent
    have same := List.append_cancel_left sent
    rw [List.singleton_inj, NandOperation.read.injEq] at same
    rw [← same.1, ← same.2] at isAddress
    rcases (isAddress_iff inside).mp isAddress with one | first
    · exact Or.inl one
    · by_contra wrong
      rw [not_or, not_and, Nat.not_le] at wrong
      have long := wrong.2 first
      have blocks : 1 ≤ geometry.blocks.toNat := by
        apply Nat.pos_of_ne_zero
        intro none
        rw [NandGeometry.byteCapacity, none, Nat.zero_mul] at inside
        exact Nat.not_lt_zero _ inside
      have capacity : geometry.blockSize.toNat ≤ geometry.byteCapacity :=
        Nat.le_mul_of_pos_left _ blocks
      have bound := geometry.blockSize.toNat_lt
      have small := geometry.pageSize_lt
      -- the address 64 KiB further on is sent with the same column
      have later : (addr + 65536).toNat = addr.toNat + 2 ^ 16 := by
        rw [UInt32.toNat_add]
        change (addr.toNat + 65536) % 2 ^ 32 = _
        exact Nat.mod_eq_of_lt (by omega)
      have laterInside : (addr + 65536).toNat < geometry.byteCapacity := by omega
      have other : addr + 65536 ≠ addr := by
        intro isSame
        rw [isSame] at later
        omega
      apply addresses.apart (addr + 65536) laterInside other .eSmcBank0 0 (blankChip 0) rfl
      rw [nandFlashRead_nand _ _ _ _ rfl, nandFlashRead_nand _ _ _ _ rfl]
      have near : addr.toNat < geometry.blockSize.toNat := by omega
      rw [rowOf_eq inside, rowOf_eq laterInside, columnOf_eq, columnOf_eq, later,
        Nat.div_eq_of_lt long, Nat.div_eq_of_lt near, Nat.mod_eq_of_lt long,
        Nat.mod_eq_of_lt near, Nat.add_mod_right]
  · intro direct
    have first : geometry.pages.toNat = 1 ∨ addr.toNat < geometry.pageSize.toNat :=
      direct.imp_right And.left
    have isAddress := (isAddress_iff inside).mpr first
    refine ⟨?_, ?_, ?_, ?_, ?_, ?_⟩
    · intro bank len chip settled
      rw [nandFlashRead_nand bank _ _ _ settled]
      exact ⟨_, _, rfl, isAddress⟩
    · intro bank polls pbuf chip settled
      rcases nandFlashWrite_nand bank geometry.toNandFlashChipInfo addr polls pbuf settled
        with ⟨phase, status, written⟩
      rw [written]
      exact ⟨_, _, rfl, isAddress⟩
    · intro bank polls chip
      rcases nandFlashErase_nand bank geometry.toNandFlashChipInfo addr polls chip
        with ⟨status, erased⟩
      rw [erased]
      refine ⟨_, rfl, ?_⟩
      rw [rowOf_eq inside]
      rcases first with one | inPage
      · rw [one, Nat.div_one]
      · have inBlock := Nat.lt_of_lt_of_le inPage (pageSize_le_blockSize geometry)
        rw [Nat.div_eq_of_lt inBlock, Nat.zero_div]
    · intro other otherInside different bank len chip settled same
      rw [nandFlashRead_nand bank _ _ _ settled, nandFlashRead_nand bank _ _ _ settled]
        at same
      have sent := List.append_cancel_left same
      rw [List.singleton_inj, NandOperation.read.injEq] at sent
      exact different (sent_injective inside otherInside direct sent.1 sent.2)
    · intro bank polls pbuf chip settled _ erased
      exact nandFlash_found geometry addr bank polls pbuf settled erased
    · intro bank polls len chip settled _ _
      exact nandFlash_wiped geometry addr bank polls len settled

/-- A chip of two blocks with two pages of 2048 bytes. -/
def smallGeometry : NandGeometry where
  capacity := 65536
  blocks := 2
  blockSize := 4096
  pages := 2
  pageSize := 2048
  pages_pos := by decide
  pageSize_pos := by decide
  pageSize_lt := by decide
  blockSize_eq := by decide
  pages_lt := by decide

theorem nandFlash_addresses_first :
    Addresses smallGeometry 100 ↔
      smallGeometry.pages.toNat = 1 ∨ (100 : UInt32).toNat < smallGeometry.pageSize.toNat ∧
        smallGeometry.blockSize.toNat ≤ (100 : UInt32).toNat + 2 ^ 16 :=
  nandFlash_addresses_iff (by decide)

/-- The second page is sent as column 2048 of the first. -/
theorem nandFlash_not_addresses : ¬Addresses smallGeometry 2048 := by
  intro addresses
  rcases addresses.read .eSmcBank0 0 (blankChip 2) rfl with ⟨row, column, sent, isAddress⟩
  rw [nandFlashRead_nand _ _ _ _ rfl] at sent
  have same := List.append_cancel_left sent
  rw [List.singleton_inj, NandOperation.read.injEq] at same
  rw [← same.1, ← same.2] at isAddress
  exact absurd isAddress.1 (by decide)

end Result

end SunWise.Smc
