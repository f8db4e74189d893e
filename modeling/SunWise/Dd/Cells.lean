import SunWise.Dd.Written

/-!
# Programming clears bits

The flash behind `spansionProgram` is a NOR flash: a word is stored where the cells are erased,
and elsewhere only the bits of the old word that the new one has too are left.
-/

namespace SunWise.Dd

open Library Shell

/-- The bytes at `base`, in a memory whose bits are cleared and never set. -/
def clearBits (memory : Nat → UInt8) (base : Nat) (bytes : List UInt8) : Nat → UInt8 :=
  fun address => memory address &&& store (fun _ => 0xff) base bytes address

/-- The cells of the flash after an action. -/
def DdAction.cells (flash : Nat → UInt8) : DdAction → Nat → UInt8
  | .spansionSectorErase addr => fun cell =>
      if cell / flashSectorSize = addr.toNat / flashSectorSize then 0xff else flash cell
  | .spansionProgram addr data => clearBits flash addr.toNat (bigEndian data)
  | _ => flash

/-- The cells of the flash after what was done. -/
def DdState.cells (flash : Nat → UInt8) (state : DdState) : Nat → UInt8 :=
  state.actions.foldl DdAction.cells flash

/-- The cells are erased from `first` up to `last`. -/
def Blank (flash : Nat → UInt8) (first last : Nat) : Prop :=
  ∀ cell, first ≤ cell → cell < last → flash cell = 0xff

theorem clearBits_of_blank {memory : Nat → UInt8} {base : Nat} {bytes : List UInt8}
    (blank : Blank memory base (base + bytes.length)) :
    clearBits memory base bytes = store memory base bytes := by
  funext address
  by_cases inside : base ≤ address ∧ address < base + bytes.length
  · have offset : address - base < bytes.length := by omega
    rw [clearBits, blank address inside.1 inside.2, NorFlash.erased_and]
    simp [store, inside.1, offset]
  · have outside : address < base ∨ base + bytes.length ≤ address := by omega
    rw [clearBits, store_apply_outside _ outside, store_apply_outside _ outside]
    apply UInt8.toBitVec_inj.mp
    exact BitVec.and_allOnes

section Agrees

variable {flash : Nat → UInt8} {state : DdState}

theorem cells_act (action : DdAction) :
    (state.act action).cells flash = action.cells (state.cells flash) := by
  rw [DdState.cells, DdState.act, List.foldl_append]
  rfl

theorem eraseLoop_cells {uinEndAddr addr : UInt32} {fuel : Nat} {result : DdState}
    (returns : eraseLoop uinEndAddr fuel addr state = some result)
    (agrees : state.cells flash = state.flash) : result.cells flash = result.flash := by
  induction fuel generalizing addr state with
  | zero => cases returns
  | succ fuel ih =>
      rw [eraseLoop] at returns
      split at returns
      next =>
        apply ih returns
        change (state.act (.spansionSectorErase addr)).cells flash = _
        rw [cells_act, agrees]
        rfl
      next =>
        cases returns
        exact agrees

/-- What is programmed where the cells are erased is stored. -/
theorem programWords_cells {len : Nat} (agrees : state.cells flash = state.flash)
    (fits : state.uinAddress.toNat + 4 * len ≤ 2 ^ 32)
    (blank : Blank state.flash state.uinAddress.toNat (state.uinAddress.toNat + 4 * len)) :
    (state.programWords len).cells flash = (state.programWords len).flash := by
  induction len with
  | zero => exact agrees
  | succ len ih =>
      have before : Blank state.flash state.uinAddress.toNat
          (state.uinAddress.toNat + 4 * len) :=
        fun cell after inside => blank cell after (by omega)
      have address : (state.programWords len).uinAddress.toNat =
          state.uinAddress.toNat + 4 * len := by
        rw [DdState.programWords_uinAddress, DdState.toNat_add_ofNat (by omega)]
      have here : Blank (state.programWords len).flash (state.programWords len).uinAddress.toNat
          ((state.programWords len).uinAddress.toNat + 4) := by
        intro cell after inside
        rw [DdState.programWords_flash _ (by omega),
          store_apply_outside _ (Or.inr (by rw [load_length]; omega))]
        exact blank cell (by omega) (by omega)
      rw [DdState.programWords_succ]
      change ((state.programWords len).act (.spansionProgram _ _)).cells flash = _
      rw [cells_act, ih (by omega) before]
      exact clearBits_of_blank here

/-- A file is stored where the cells are erased. -/
theorem programLoop_cells {remaining : List UInt8} (agrees : state.cells flash = state.flash)
    (whole : remaining.length % 4 = 0)
    (fits : state.uinAddress.toNat + remaining.length ≤ 2 ^ 32)
    (blank : Blank state.flash state.uinAddress.toNat
      (state.uinAddress.toNat + remaining.length)) :
    (programLoop remaining state).cells flash = (programLoop remaining state).flash := by
  induction remaining, state using programLoop.induct with
  | case1 state => rwa [programLoop, if_pos rfl]
  | case2 remaining state more br ih =>
      have front : br = min 512 remaining.length := List.length_take
      have back : (remaining.drop flashPageSize).length = remaining.length - 512 :=
        List.length_drop
      have words : 4 * ((br + 3) / 4) = br := by omega
      have same : (state.fRead remaining).uinAddress = state.uinAddress := rfl
      have inSpace : (state.fRead remaining).uinAddress.toNat + 4 * ((br + 3) / 4) ≤ 2 ^ 32 := by
        rw [words, same]
        omega
      have first : ((state.fRead remaining).programWords ((br + 3) / 4)).cells flash =
          ((state.fRead remaining).programWords ((br + 3) / 4)).flash := by
        have kept : (state.fRead remaining).cells flash = (state.fRead remaining).flash := agrees
        apply programWords_cells kept inSpace
        intro cell after inside
        rw [words, same] at inside
        exact blank cell after (by omega)
      rw [programLoop_of_more more]
      cases Nat.lt_or_ge 512 remaining.length with
      | inl long =>
          have next : ((state.fRead remaining).programWords
              ((br + 3) / 4)).uinAddress.toNat = state.uinAddress.toNat + br := by
            rw [DdState.programWords_uinAddress, words, same]
            exact DdState.toNat_add_ofNat (by omega)
          apply ih first (by omega) (by rw [next]; omega)
          intro cell after inside
          rw [next] at after inside
          rw [DdState.programWords_flash _ inSpace,
            store_apply_outside _ (Or.inr (by rw [load_length, words, same]; omega))]
          exact blank cell (by omega) (by omega)
      | inr short =>
          have none : remaining.drop flashPageSize = [] := List.drop_of_length_le short
          rw [none, programLoop, if_pos rfl]
          exact first

end Agrees

section EraseLoop

variable {uinEndAddr addr : UInt32} {fuel : Nat} {state result : DdState}

theorem eraseLoop_before (returns : eraseLoop uinEndAddr fuel addr state = some result) :
    ∀ sector ∈ result.erased, sector ∈ state.erased ∨ sector ≤ uinEndAddr := by
  induction fuel generalizing addr state with
  | zero => cases returns
  | succ fuel ih =>
      rw [eraseLoop] at returns
      split at returns
      next before =>
        intro sector isErased
        rcases ih returns sector isErased with earlier | inside
        · have here : sector ∈ state.erased ++ [addr] :=
            state.act_erased (.spansionSectorErase addr) ▸ earlier
          rcases List.mem_append.mp here with earlier | isAddr
          · exact Or.inl earlier
          · exact Or.inr (List.mem_singleton.mp isAddr ▸ before)
        · exact Or.inr inside
      next =>
        cases returns
        exact fun sector isErased => Or.inl isErased

theorem eraseLoop_keeps {cell : Nat}
    (returns : eraseLoop uinEndAddr fuel addr state = some result)
    (blank : state.flash cell = 0xff) : result.flash cell = 0xff := by
  induction fuel generalizing addr state with
  | zero => cases returns
  | succ fuel ih =>
      rw [eraseLoop] at returns
      split at returns
      next =>
        apply ih returns
        change (if _ then _ else _) = _
        rw [blank, ite_self]
      next =>
        cases returns
        exact blank

/-- The sector of the cell was erased. -/
def SectorErased (state : DdState) (cell : Nat) : Prop :=
  ∃ sector ∈ state.erased, cell / flashSectorSize = sector.toNat / flashSectorSize

/-- The cell was erased and has not been programmed since. -/
structure CellErased (state : DdState) (cell : Nat) : Prop where
  sector : SectorErased state cell
  blank : state.flash cell = 0xff

/-- A loop that returns has erased all cells up to the last sector. -/
theorem eraseLoop_erases (returns : eraseLoop uinEndAddr fuel addr state = some result)
    (aligned : addr.toNat % flashSectorSize = 0)
    (endAligned : uinEndAddr.toNat % flashSectorSize = 0)
    (room : uinEndAddr.toNat + flashSectorSize < 2 ^ 32) {cell : Nat} (after : addr.toNat ≤ cell)
    (before : cell < uinEndAddr.toNat + flashSectorSize) : CellErased result cell := by
  induction fuel generalizing addr state with
  | zero => cases returns
  | succ fuel ih =>
      rw [flashSectorSize] at aligned endAligned before
      have here : addr ≤ uinEndAddr := by
        rw [UInt32.le_iff_toNat_le]
        omega
      rw [eraseLoop, if_pos here] at returns
      by_cases inSector : cell < addr.toNat + flashSectorSize
      · have sameSector : cell / flashSectorSize = addr.toNat / flashSectorSize := by
          rw [flashSectorSize] at inSector ⊢
          omega
        refine ⟨⟨addr, ?_, sameSector⟩, eraseLoop_keeps returns (if_pos sameSector)⟩
        apply (eraseLoop_frame returns).2.2
        exact state.act_erased (.spansionSectorErase addr) ▸
          List.mem_append_right _ List.mem_cons_self
      · have next := nextSector_toNat addr
          (by rw [UInt32.le_iff_toNat_le] at here; omega)
        apply ih returns
        · rw [next, flashSectorSize]
          omega
        · omega

end EraseLoop

section Write

variable {fuel : Nat} {file : FatFile} {state result : DdState} {flash : Nat → UInt8}

/-- A file that ends with the address space is programmed where nothing was erased. -/
theorem ddWrite_wraps (fresh : state.erased = [])
    (returns : ddWrite fuel file state = some result)
    (wraps : state.uinAddress.toNat + file.content.length = 2 ^ 32) :
    ¬ SectorErased result (2 ^ 32 - 1) := by
  rcases ddWrite_eq_some.mp returns with ⟨swept, sweeps, rfl⟩
  rintro ⟨sector, isErased, same⟩
  rw [written_erased] at isErased
  rcases eraseLoop_before sweeps sector isErased with earlier | inside
  · rw [fresh] at earlier
    cases earlier
  · rw [UInt32.le_iff_toNat_le, endSector_of_wrap wraps] at inside
    rw [Nat.le_zero.mp inside] at same
    exact absurd same (by decide)

/-- Below the last sector, the cells of the file are erased and then take its bytes. -/
theorem ddWrite_cells (agrees : state.cells flash = state.flash)
    (whole : file.content.length % 4 = 0)
    (below : state.uinAddress.toNat + file.content.length < 0xfffe0000)
    (returns : ddWrite fuel file state = some result) :
    result.cells flash = result.flash ∧
      ∀ cell, state.uinAddress.toNat ≤ cell →
        cell < state.uinAddress.toNat + file.content.length → SectorErased result cell := by
  rcases ddWrite_eq_some.mp returns with ⟨swept, sweeps, rfl⟩
  have begins : (swept.act (.mdelay 1000)).uinAddress = state.uinAddress :=
    (eraseLoop_frame sweeps).1
  have fits : state.uinAddress.toNat + file.content.length < 2 ^ 32 := by omega
  have isEnd := endSector_toNat fits
  have isStart := @startSector_toNat state
  have erases : ∀ cell, state.uinAddress.toNat ≤ cell →
      cell < state.uinAddress.toNat + file.content.length → CellErased swept cell := by
    intro cell after before
    apply eraseLoop_erases sweeps
    · rw [isStart, Nat.mul_mod_left]
    · rw [isEnd, Nat.mul_mod_left]
    · rw [isEnd, flashSectorSize]
      omega
    · rw [isStart, flashSectorSize]
      omega
    · rw [isEnd, flashSectorSize]
      omega
  constructor
  · have kept : (swept.act (.mdelay 1000)).cells flash = (swept.act (.mdelay 1000)).flash := by
      rw [cells_act, eraseLoop_cells sweeps agrees]
      rfl
    rw [cells_act]
    apply programLoop_cells kept whole
    · rw [begins]
      omega
    · intro cell after before
      rw [begins] at after before
      exact (erases cell after before).blank
  · intro cell after before
    rw [SectorErased, written_erased]
    exact (erases cell after before).sector

end Write

end SunWise.Dd
