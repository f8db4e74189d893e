import SunWise.Dd.Range

/-!
# When a file is written exactly

`dd` erases and programs the range of its file, and nothing else, for nonempty files of whole
words that end inside a sector below the last one, or with the address space.
-/

namespace SunWise.Dd

open Library Shell

/-- The mask of the sectors clears the address inside its sector. -/
theorem sectorMask_toNat (addr : UInt32) :
    (addr &&& ~~~(UInt32.ofNat flashSectorSize - 1)).toNat =
      addr.toNat / flashSectorSize * flashSectorSize := by
  have mask : (~~~(UInt32.ofNat flashSectorSize - 1)).toNat = (2 ^ 15 - 1) <<< 17 := by decide
  have small := addr.toNat_lt
  rw [UInt32.toNat_and, mask, flashSectorSize]
  apply Nat.eq_of_testBit_eq
  intro bit
  have power : addr.toNat / 0x20000 * 0x20000 = (addr.toNat >>> 17) <<< 17 := by
    rw [Nat.shiftRight_eq_div_pow, Nat.shiftLeft_eq]
  rw [power, Nat.testBit_and, Nat.testBit_shiftLeft, Nat.testBit_shiftLeft,
    Nat.testBit_shiftRight, Nat.testBit_two_pow_sub_one]
  by_cases low : 17 ≤ bit
  · by_cases high : bit < 32
    · have inside : bit - 17 < 15 := by omega
      simp [low, inside, Nat.add_sub_cancel' low]
    · have clear : addr.toNat.testBit bit = false :=
        Nat.testBit_lt_two_pow (Nat.lt_of_lt_of_le small (Nat.pow_le_pow_right (by decide)
          (Nat.le_of_not_lt high)))
      simp [clear, Nat.add_sub_cancel' low]
  · simp [low]

section EraseLoop

variable {uinEndAddr addr : UInt32} {fuel : Nat} {state result : DdState}

theorem nextSector_toNat (addr : UInt32) (fits : addr.toNat + flashSectorSize < 2 ^ 32) :
    (addr + UInt32.ofNat flashSectorSize).toNat = addr.toNat + flashSectorSize :=
  DdState.toNat_add_ofNat fits

theorem eraseLoop_frame (returns : eraseLoop uinEndAddr fuel addr state = some result) :
    result.uinAddress = state.uinAddress ∧ result.programmed = state.programmed ∧
      state.erased ⊆ result.erased := by
  induction fuel generalizing addr state with
  | zero => cases returns
  | succ fuel ih =>
      rw [eraseLoop] at returns
      split at returns
      next =>
        rcases ih returns with ⟨address, programmed, erased⟩
        have here := state.act_erased (.spansionSectorErase addr)
        have kept := state.act_programmed (.spansionSectorErase addr)
        refine ⟨address, programmed.trans (kept.trans (List.append_nil _)), ?_⟩
        intro sector isErased
        apply erased
        exact here ▸ List.mem_append_left _ isErased
      next =>
        cases returns
        exact ⟨rfl, rfl, List.Subset.refl _⟩

theorem eraseLoop_erases_end (returns : eraseLoop uinEndAddr fuel addr state = some result)
    (aligned : addr.toNat % flashSectorSize = 0)
    (endAligned : uinEndAddr.toNat % flashSectorSize = 0) (before : addr ≤ uinEndAddr) :
    uinEndAddr ∈ result.erased := by
  induction fuel generalizing addr state with
  | zero => cases returns
  | succ fuel ih =>
      rw [eraseLoop, if_pos before] at returns
      have small := uinEndAddr.toNat_lt
      have order := UInt32.le_iff_toNat_le.mp before
      by_cases isEnd : addr = uinEndAddr
      · subst isEnd
        apply (eraseLoop_frame returns).2.2
        have here := state.act_erased (.spansionSectorErase addr)
        exact here ▸ List.mem_append_right _ List.mem_cons_self
      · have apart : addr.toNat ≠ uinEndAddr.toNat := fun equal =>
          isEnd (UInt32.toNat_inj.mp equal)
        simp only [flashSectorSize] at aligned endAligned
        have next := nextSector_toNat addr (by rw [flashSectorSize]; omega)
        apply ih returns
        · rw [next, flashSectorSize]
          omega
        · rw [UInt32.le_iff_toNat_le, next, flashSectorSize]
          omega

/-- Behind the last sector of the address space there is none, so the loop goes on. -/
theorem eraseLoop_last_sector (fuel : Nat) (aligned : addr.toNat % flashSectorSize = 0)
    (isLast : uinEndAddr = 0xfffe0000) : eraseLoop uinEndAddr fuel addr state = none := by
  induction fuel generalizing addr state with
  | zero => rfl
  | succ fuel ih =>
      have small := addr.toNat_lt
      have before : addr ≤ uinEndAddr := by
        subst isLast
        rw [UInt32.le_iff_toNat_le]
        change _ ≤ 0xfffe0000
        rw [flashSectorSize] at aligned
        omega
      rw [eraseLoop, if_pos before]
      apply ih
      rw [UInt32.toNat_add, flashSectorSize]
      change (addr.toNat + 131072) % 4294967296 % 131072 = 0
      rw [flashSectorSize] at aligned
      omega

theorem eraseLoop_returns (uinEndAddr addr : UInt32) (state : DdState)
    (room : uinEndAddr.toNat + flashSectorSize < 2 ^ 32) :
    ∃ fuel result, eraseLoop uinEndAddr fuel addr state = some result ∧
      ∀ sector ∈ result.erased, sector ∈ state.erased ∨
        addr.toNat ≤ sector.toNat ∧ sector.toNat ≤ uinEndAddr.toNat := by
  obtain ⟨count, isCount⟩ : ∃ count, uinEndAddr.toNat + 1 - addr.toNat ≤ count :=
    ⟨_, Nat.le_refl _⟩
  induction count generalizing addr state with
  | zero =>
      refine ⟨1, state, ?_, fun sector => Or.inl⟩
      have behind : ¬ addr ≤ uinEndAddr := by
        rw [UInt32.le_iff_toNat_le]
        omega
      rw [eraseLoop, if_neg behind]
  | succ count ih =>
      by_cases before : addr ≤ uinEndAddr
      · have order := UInt32.le_iff_toNat_le.mp before
        have next := nextSector_toNat addr (by omega)
        rcases ih (addr + UInt32.ofNat flashSectorSize) (state.sectorErase addr)
          (by rw [next, flashSectorSize]; omega) with ⟨fuel, result, returns, range⟩
        refine ⟨fuel + 1, result, by rw [eraseLoop, if_pos before, returns], ?_⟩
        intro sector isErased
        rcases range sector isErased with earlier | ⟨after, inside⟩
        · have here : sector ∈ state.erased ++ [addr] :=
            state.act_erased (.spansionSectorErase addr) ▸ earlier
          rcases List.mem_append.mp here with earlier | isAddr
          · exact Or.inl earlier
          · rw [List.mem_singleton.mp isAddr]
            exact Or.inr ⟨Nat.le_refl _, order⟩
        · exact Or.inr ⟨by omega, inside⟩
      · exact ⟨1, state, by rw [eraseLoop, if_neg before], fun sector => Or.inl⟩

end EraseLoop

/-- The flash holds `content` at `addr`; only sectors of its range were erased, and only
words inside its range were programmed. -/
structure Written (addr : Nat) (content : List UInt8) (state : DdState) : Prop where
  holds : load state.flash addr content.length = content
  erased : ∀ sector ∈ state.erased,
    NorFlash.Touches flashSectorSize sector.toNat addr (addr + content.length)
  programmed : ∀ word ∈ state.programmed,
    addr ≤ word.toNat ∧ word.toNat + 4 ≤ addr + content.length

/-- The file is not empty and made of whole words. It ends with the address space, or before
its last sector and not where a sector ends. -/
def EndsInside (addr size : Nat) : Prop :=
  0 < size ∧ size % 4 = 0 ∧
    (addr + size < 0xfffe0000 ∧ (addr + size) % flashSectorSize ≠ 0 ∨ addr + size = 2 ^ 32)

/-- The sector of the address behind the file. -/
def endSector (state : DdState) (size : Nat) : UInt32 :=
  (state.uinAddress + UInt32.ofNat size) &&& ~~~(UInt32.ofNat flashSectorSize - 1)

/-- The sector of the first address. -/
def startSector (state : DdState) : UInt32 :=
  state.uinAddress &&& ~~~(UInt32.ofNat flashSectorSize - 1)

section Write

variable {fuel : Nat} {file : FatFile} {state result : DdState}

theorem ddWrite_eq_some : ddWrite fuel file state = some result ↔
    ∃ swept, eraseLoop (endSector state file.content.length) fuel (startSector state) state =
        some swept ∧
      (programLoop file.content (swept.act (.mdelay 1000))).act .fClose = result :=
  Option.map_eq_some_iff

theorem written_programmed (content : List UInt8) {swept : DdState}
    (address : swept.uinAddress = state.uinAddress)
    (programmed : swept.programmed = state.programmed) :
    ((programLoop content (swept.act (.mdelay 1000))).act .fClose).programmed =
      state.programmed ++ state.wordAddresses ((content.length + 3) / 4) := by
  simp [DdState.act_programmed, programLoop_programmed, DdState.wordAddresses, address,
    programmed]

theorem written_erased (content : List UInt8) (swept : DdState) :
    ((programLoop content (swept.act (.mdelay 1000))).act .fClose).erased = swept.erased := by
  simp [DdState.act_erased, programLoop_erased]

/-- The words of a range lie inside it exactly when they are whole words of the address
space. -/
theorem wordAddresses_inside_iff {size : Nat} (small : size < 2 ^ 32)
    (aligned : state.uinAddress.toNat % 4 = 0) :
    (∀ word ∈ state.wordAddresses ((size + 3) / 4),
      state.uinAddress.toNat ≤ word.toNat ∧
        word.toNat + 4 ≤ state.uinAddress.toNat + size) ↔
      size % 4 = 0 ∧ state.uinAddress.toNat + size ≤ 2 ^ 32 := by
  have below := state.uinAddress.toNat_lt
  have value (i : Nat) : (state.uinAddress + UInt32.ofNat (4 * i)).toNat =
      (state.uinAddress.toNat + 4 * i) % 2 ^ 32 := by
    rw [UInt32.toNat_add, UInt32.toNat_ofNat', Nat.add_mod_mod]
  simp only [DdState.wordAddresses, List.forall_mem_map, List.mem_range, value]
  constructor
  · intro inside
    have fits : state.uinAddress.toNat + size ≤ 2 ^ 32 := by
      by_contra wraps
      have first := (inside ((2 ^ 32 - state.uinAddress.toNat) / 4) (by omega)).1
      omega
    refine ⟨?_, fits⟩
    by_contra odd
    have last := (inside (size / 4) (by omega)).2
    omega
  · rintro ⟨whole, fits⟩ i inside
    rw [Nat.mod_eq_of_lt (by omega)]
    omega

theorem endSector_toNat {size : Nat} (fits : state.uinAddress.toNat + size < 2 ^ 32) :
    (endSector state size).toNat =
      (state.uinAddress.toNat + size) / flashSectorSize * flashSectorSize := by
  rw [endSector, sectorMask_toNat, DdState.toNat_add_ofNat fits]

/-- A range that ends with the address space has the first sector behind it. -/
theorem endSector_of_wrap {size : Nat} (wraps : state.uinAddress.toNat + size = 2 ^ 32) :
    (endSector state size).toNat = 0 := by
  have none : (state.uinAddress + UInt32.ofNat size).toNat = 0 := by
    rw [UInt32.toNat_add, UInt32.toNat_ofNat', Nat.add_mod_mod, wraps, Nat.mod_self]
  rw [endSector, sectorMask_toNat, none, Nat.zero_div, Nat.zero_mul]

theorem startSector_toNat : (startSector state).toNat =
    state.uinAddress.toNat / flashSectorSize * flashSectorSize :=
  sectorMask_toNat state.uinAddress

theorem ddWrite_erases_end (returns : ddWrite fuel file state = some result)
    (fits : state.uinAddress.toNat + file.content.length < 2 ^ 32) :
    endSector state file.content.length ∈ result.erased := by
  rcases ddWrite_eq_some.mp returns with ⟨swept, sweeps, rfl⟩
  rw [written_erased]
  apply eraseLoop_erases_end sweeps
  · rw [startSector_toNat, Nat.mul_mod_left]
  · rw [endSector_toNat fits, Nat.mul_mod_left]
  · rw [UInt32.le_iff_toNat_le, startSector_toNat, endSector_toNat fits]
    exact Nat.mul_le_mul_right _ (Nat.div_le_div_right (Nat.le_add_right _ _))

/-- A write whose range ends in the last sector does not return. -/
theorem ddWrite_last_sector (fits : state.uinAddress.toNat + file.content.length < 2 ^ 32)
    (isLast : 0xfffe0000 ≤ state.uinAddress.toNat + file.content.length) :
    ddWrite fuel file state = none := by
  have last : endSector state file.content.length = 0xfffe0000 := by
    apply UInt32.toNat_inj.mp
    rw [endSector_toNat fits, flashSectorSize]
    change _ = 0xfffe0000
    omega
  have never : eraseLoop (endSector state file.content.length) fuel (startSector state) state =
      none := by
    apply eraseLoop_last_sector fuel _ last
    rw [startSector_toNat, Nat.mul_mod_left]
  exact Option.map_eq_none_iff.mpr never

/-- What a write that does no harm has been given. -/
theorem endsInside_of_written (clean : state.programmed = [])
    (aligned : state.uinAddress.toNat % 4 = 0)
    (returns : ddWrite fuel file state = some result)
    (written : Written state.uinAddress.toNat file.content result) :
    EndsInside state.uinAddress.toNat file.content.length := by
  rcases ddWrite_eq_some.mp returns with ⟨swept, sweeps, isResult⟩
  rcases eraseLoop_frame sweeps with ⟨address, programmed, -⟩
  have words := written.programmed
  rw [← isResult, written_programmed file.content address programmed, clean, List.nil_append,
    wordAddresses_inside_iff file.small aligned] at words
  rcases words with ⟨whole, fits⟩
  have below := state.uinAddress.toNat_lt
  rcases Nat.lt_or_eq_of_le fits with inside | wraps
  · have notLast : state.uinAddress.toNat + file.content.length < 0xfffe0000 := by
      by_contra isLast
      rw [ddWrite_last_sector inside (Nat.le_of_not_lt isLast)] at returns
      cases returns
    have touches := written.erased _ (ddWrite_erases_end returns inside)
    rw [NorFlash.touches_iff (by decide), endSector_toNat inside,
      Nat.mul_div_cancel _ (by decide)] at touches
    rcases touches with ⟨nonempty, -, ends⟩
    refine ⟨by omega, whole, Or.inl ⟨notLast, ?_⟩⟩
    intro atBoundary
    have exact := Nat.div_mul_cancel (Nat.dvd_of_mod_eq_zero atBoundary)
    omega
  · exact ⟨by omega, whole, Or.inr wraps⟩

/-- A file that ends inside is written, and nothing else. -/
theorem written_of_endsInside (clean : state.programmed = []) (fresh : state.erased = [])
    (aligned : state.uinAddress.toNat % 4 = 0)
    (ends : EndsInside state.uinAddress.toNat file.content.length) :
    ∃ fuel result, ddWrite fuel file state = some result ∧
      Written state.uinAddress.toNat file.content result := by
  rcases ends with ⟨nonempty, whole, ends⟩
  have fits : state.uinAddress.toNat + file.content.length ≤ 2 ^ 32 := by omega
  have behind : (endSector state file.content.length).toNat <
        state.uinAddress.toNat + file.content.length ∧
      (endSector state file.content.length).toNat + flashSectorSize < 2 ^ 32 := by
    rcases ends with ⟨below, inside⟩ | wraps
    · rw [endSector_toNat (by omega)]
      simp only [flashSectorSize] at inside ⊢
      omega
    · rw [endSector_of_wrap wraps, wraps]
      decide
  rcases eraseLoop_returns (endSector state file.content.length) (startSector state) state
    behind.2 with ⟨fuel, swept, sweeps, range⟩
  rcases eraseLoop_frame sweeps with ⟨address, programmed, -⟩
  have begins : (swept.act (.mdelay 1000)).uinAddress = state.uinAddress := address
  refine ⟨fuel, _, ddWrite_eq_some.mpr ⟨swept, sweeps, rfl⟩, ?_, ?_, ?_⟩
  · rw [DdState.act_flash, programLoop_flash whole (begins ▸ fits), begins, load_store_self]
  · intro sector isErased
    rw [written_erased] at isErased
    rcases range sector isErased with earlier | ⟨after, before⟩
    · rw [fresh] at earlier
      cases earlier
    · rw [startSector_toNat] at after
      rw [NorFlash.touches_iff (by decide)]
      refine ⟨by omega, (Nat.le_div_iff_mul_le (by decide)).mpr after, ?_⟩
      exact Nat.lt_of_le_of_lt (Nat.div_mul_le_self _ _) (Nat.lt_of_le_of_lt before behind.1)
  · rw [written_programmed file.content address programmed, clean, List.nil_append]
    exact (wordAddresses_inside_iff file.small aligned).mpr ⟨whole, fits⟩

end Write

section Command

variable (fOpen : List UInt8 → Option FatFile) (flash m_aui8DummyBuffer : Nat → UInt8)
variable (apszArgv : Nat → List UInt8)

/-- With a file and an address, the command writes; nothing was erased or programmed before. -/
theorem shellCommandDd_opens {file : FatFile} (opens : fOpen (apszArgv 1) = some file) :
    ∃ state : DdState, state.uinAddress = strtoul (apszArgv 2) 16 ∧ state.programmed = [] ∧
      state.erased = [] ∧ state.flash = flash ∧
      (∃ format arguments, state.actions = [.xprintf format arguments]) ∧
      ∀ fuel, shellCommandDd fuel fOpen flash m_aui8DummyBuffer 3 apszArgv =
        ddWrite fuel file state := by
  let state : DdState :=
    { flash, m_aui8DummyBuffer, uinAddress := strtoul (apszArgv 2) 16, actions := [] }
  let size := PrintArgument.number (UInt32.ofNat file.content.length)
  let message := DdAction.xprintf "read from %s, size %d.\n" [.text (apszArgv 1), size]
  refine ⟨state.act message, rfl, rfl, rfl, rfl, ⟨_, _, rfl⟩, ?_⟩
  intro fuel
  simp only [shellCommandDd, opens]
  rfl

end Command

/-- A file of four bytes. -/
def fourBytes : FatFile where
  content := [0x01, 0x02, 0x03, 0x04]
  small := by decide

/-- The arguments of `dd a address`. -/
def ddArguments (address : String) : Nat → List UInt8
  | 1 => ascii "a"
  | 2 => ascii address
  | _ => ascii "dd"

end SunWise.Dd
