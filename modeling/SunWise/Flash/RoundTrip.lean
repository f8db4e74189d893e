import SunWise.Flash.Guard
import SunWise.Library.NorFlash

/-!
# Program and read back

The driver on a NOR flash.  `Flash_ProgramData` enables writing and waits once for every
page, but a page reaches the bus in chunks of `QSPI_FIFO_MAX` bytes that are program
commands of their own; the flash takes the first of them and ignores the others.
-/

namespace SunWise.Flash

open Library Qspi

/-- The byte address in an address word. -/
def byteAddress (word : UInt32) : Nat :=
  word.toNat % 2 ^ 24

/-- A NOR flash behind the controller, which receives every word that was pushed. -/
def norBus : Bus NorFlash where
  exchange flash transaction :=
    match transaction.ctrlr0.tmod, transaction.pushes with
    | .tmodTxAndRx, cmd :: clocked =>
        if cmd = flashCmdWriteEnable.toUInt32 then (flash.writeEnable, [])
        else if cmd = flashCmdWinbondReadSr1.toUInt32 then
          (flash.poll, 0 :: clocked.map fun _ => flash.status.toUInt32)
        else (flash, [])
    | .tmodTxOnly, cmd :: addr :: data =>
        if cmd = flashCmdPageProgram114.toUInt32 then
          (flash.pageProgram flashPageSize.toNat (byteAddress addr)
            (data.map UInt32.toUInt8), [])
        else (flash, [])
    | .tmodEepromRead, cmd :: addr :: _ =>
        if cmd = flashCmdRead114.toUInt32 then
          (flash, (flash.read (byteAddress addr) (transaction.ctrlr1 + 1)).map
            UInt8.toUInt32)
        else (flash, [])
    | _, _ => (flash, [])

section Commands

variable (state : QspiState NorFlash)

theorem flashWriteEnable_nor :
    (flashWriteEnable norBus state).device = state.device.writeEnable ∧
      (flashWriteEnable norBus state).rx = state.rx :=
  ⟨rfl, rfl⟩

theorem flashReadStatus_nor :
    (flashReadStatus norBus state).1 = state.device.status ∧
      (flashReadStatus norBus state).2.device = state.device.poll ∧
      (flashReadStatus norBus state).2.rx = state.rx := by
  refine ⟨?_, rfl, rfl⟩
  change state.device.status.toUInt32.toUInt8 = _
  exact UInt8.toUInt8_toUInt32 _

/-- With enough polls the fence returns, and the device is ready. -/
theorem flashWaitFence_returns :
    ∃ after, (∀ polls, state.device.busy < polls →
        flashWaitFence norBus polls state = (true, after)) ∧
      after.device = { state.device with busy := 0 } ∧ after.rx = state.rx := by
  induction remaining : state.device.busy generalizing state with
  | zero =>
      rcases flashReadStatus_nor state with ⟨status, polled, kept⟩
      refine ⟨(flashReadStatus norBus state).2, ?_, ?_, kept⟩
      · intro polls enough
        rcases Nat.exists_eq_succ_of_ne_zero (Nat.ne_of_gt enough) with ⟨more, rfl⟩
        have ready : ¬(state.device.status &&& 1 ≠ 0) := by
          simp [NorFlash.status_busy, remaining]
        simp only [flashWaitFence, status]
        rw [if_neg ready]
      · rw [polled]
        simp [NorFlash.poll, remaining]
  | succ busy ih =>
      rcases flashReadStatus_nor state with ⟨status, polled, kept⟩
      have fewer : (flashReadStatus norBus state).2.device.busy = busy := by
        rw [polled]
        simp [NorFlash.poll, remaining]
      rcases ih _ fewer with ⟨after, returns, ready, same⟩
      refine ⟨after, ?_, ?_, same.trans kept⟩
      · intro polls enough
        rcases Nat.exists_eq_succ_of_ne_zero (Nat.ne_of_gt (Nat.zero_lt_of_lt enough))
          with ⟨more, rfl⟩
        have waiting : state.device.status &&& 1 ≠ 0 :=
          (NorFlash.status_busy _).mpr (by omega)
        simp only [flashWaitFence, status]
        rw [if_pos waiting]
        exact returns more (Nat.lt_of_succ_lt_succ enough)
      · rw [ready, polled]
        rfl

/-- More polls do not change what a fence that returns has done. -/
theorem flashWaitFence_mono {Device : Type*} {bus : Bus Device} {polls : Nat} (more : Nat)
    {before after : QspiState Device}
    (returned : flashWaitFence bus polls before = (true, after)) :
    flashWaitFence bus (polls + more) before = (true, after) := by
  induction polls generalizing before with
  | zero => cases returned
  | succ polls ih =>
      rw [Nat.succ_add]
      simp only [flashWaitFence] at returned ⊢
      split at returned
      next waiting =>
        rw [if_pos waiting]
        exact ih returned
      next ready =>
        rw [if_neg ready]
        exact returned

theorem chunkTransfer_program (addr : UInt32) (bytes : Nat → UInt8) (offset count : Nat)
    (quad : state.ctrlr0.tmod = .tmodTxOnly) :
    let after := chunkTransfer norBus .eQspiModeQuadTx .eQspiDirWrite
      flashCmdPageProgram114 (some addr) 3 (some bytes) none state (offset, count)
    after.device = state.device.pageProgram flashPageSize.toNat
        (byteAddress (chunkAddr (some addr) offset)) (load bytes offset count) ∧
      after.ctrlr0 = state.ctrlr0 ∧ after.rx = state.rx := by
  intro after
  refine ⟨?_, rfl, rfl⟩
  have pushed : (dataPushes .eQspiModeQuadTx .eQspiDirWrite
      (bufferFrom (some bytes) offset) count).map UInt32.toUInt8 =
      load bytes offset count := by
    simp [dataPushes, bufferFrom, load, Function.comp_def]
  simp [after, chunkTransfer, qspiTransfer, norBus, qspiTransaction, quad,
    addressPushes, pushed]

/-- Only the first chunk of a page is programmed. -/
theorem hwQspiWriteBlock_program (addr : UInt32) (bytes : Nat → UInt8) (count : Nat) :
    let after := (hwQspiWriteBlock norBus .eQspiModeQuadTx flashCmdPageProgram114
      (some addr) 3 (some bytes) none count state).2
    after.device = state.device.pageProgram flashPageSize.toNat (byteAddress addr)
        (load bytes 0 (min qspiFifoMax count)) ∧
      after.rx = state.rx := by
  intro after
  have block : after = (chunks count).foldl (chunkTransfer norBus .eQspiModeQuadTx
      .eQspiDirWrite flashCmdPageProgram114 (some addr) 3 (some bytes) none)
      (qspiSwitch .eQspiModeQuadTx .eQspiDirWrite state) :=
    congrArg Prod.snd (hwQspiBlock_eq norBus .eQspiModeQuadTx .eQspiDirWrite
      flashCmdPageProgram114 (some addr) 3 (some bytes) none count state)
  have ignored : ∀ (later : List (Nat × Nat)) (middle : QspiState NorFlash),
      middle.ctrlr0.tmod = .tmodTxOnly → ¬middle.device.Accepts →
      (later.foldl (chunkTransfer norBus .eQspiModeQuadTx .eQspiDirWrite
        flashCmdPageProgram114 (some addr) 3 (some bytes) none) middle).device =
        middle.device ∧
      (later.foldl (chunkTransfer norBus .eQspiModeQuadTx .eQspiDirWrite
        flashCmdPageProgram114 (some addr) 3 (some bytes) none) middle).rx =
        middle.rx := by
    intro later
    induction later with
    | nil =>
        intro middle _ _
        exact ⟨rfl, rfl⟩
    | cons chunk later ih =>
        intro middle quad refuses
        rcases chunkTransfer_program middle addr bytes chunk.1 chunk.2 quad with
          ⟨programmed, control, kept⟩
        rw [NorFlash.pageProgram_refused refuses] at programmed
        rcases ih _ (by rw [control]; exact quad) (by rw [programmed]; exact refuses)
          with ⟨device, rx⟩
        exact ⟨device.trans programmed, rx.trans kept⟩
  rcases chunks_eq_cons count with ⟨later, cut⟩
  rcases chunkTransfer_program (qspiSwitch .eQspiModeQuadTx .eQspiDirWrite state)
    addr bytes 0 (min qspiFifoMax count) rfl with ⟨programmed, control, kept⟩
  rcases ignored later _ (by rw [control]; rfl)
    (by rw [programmed]; exact NorFlash.pageProgram_refuses _ _ _) with ⟨device, rx⟩
  rw [block, cut, List.foldl_cons]
  refine ⟨?_, rx.trans kept⟩
  rw [device, programmed]
  simp [chunkAddr, qspiSwitch]

theorem chunkTransfer_read (addr : UInt32) (buffer offset : Nat) {count : Nat}
    (positive : 0 < count) (eeprom : state.ctrlr0.tmod = .tmodEepromRead) :
    let after := chunkTransfer norBus .eQspiModeQuadRx .eQspiDirRead flashCmdRead114
      (some addr) 3 none (some buffer) state (offset, count)
    after.device = state.device ∧ after.ctrlr0 = state.ctrlr0 ∧
      after.rx = store state.rx (buffer + offset) (load state.device.answer
        (byteAddress (chunkAddr (some addr) offset)) count) := by
  intro after
  have length : count - 1 + 1 = count := Nat.sub_add_cancel positive
  have delivered : receivedBytes .eQspiModeQuadRx 3 count
      ((state.device.read (byteAddress (chunkAddr (some addr) offset)) count).map
        UInt8.toUInt32) =
      load state.device.answer (byteAddress (chunkAddr (some addr) offset)) count := by
    apply List.ext_getElem
    · simp [receivedBytes]
    · intro index left right
      rw [load_length] at right
      simp [receivedBytes, load, NorFlash.read, NorFlash.answer, right]
  have answer : norBus.exchange state.device
      (qspiTransaction state.ctrlr0 .eQspiModeQuadRx .eQspiDirRead flashCmdRead114
        (chunkAddr (some addr) offset) 3 (bufferFrom none offset) count) =
      (state.device, (state.device.read (byteAddress (chunkAddr (some addr) offset))
        count).map UInt8.toUInt32) := by
    simp [norBus, qspiTransaction, eeprom, addressPushes, qspiCtrlr1, positive, length]
  refine ⟨?_, rfl, ?_⟩
  · simp only [after, chunkTransfer, qspiTransfer, answer]
  · simp only [after, chunkTransfer, qspiTransfer, answer, Option.map_some, delivered]

theorem hwQspiReadBlock_device (addr : UInt32) {count : Nat} (buffer : Nat)
    (positive : 0 < count) :
    (hwQspiReadBlock norBus .eQspiModeQuadRx flashCmdRead114 (some addr) 3 none (some buffer)
      count state).2.device = state.device := by
  let same (middle : QspiState NorFlash) : Prop :=
    middle.device = state.device ∧ middle.ctrlr0.tmod = .tmodEepromRead
  have whole : same ((chunks count).foldl (chunkTransfer norBus .eQspiModeQuadRx .eQspiDirRead
      flashCmdRead114 (some addr) 3 none (some buffer))
      (qspiSwitch .eQspiModeQuadRx .eQspiDirRead state)) := by
    refine foldl_chunks_induction (P := fun _ => same) ?_ ⟨rfl, rfl⟩
    rintro ⟨offset, part⟩ isChunk middle ⟨device, control⟩
    rcases chunkTransfer_read middle addr buffer offset ((chunk_bounds isChunk).2 positive)
      control with ⟨device', control', -⟩
    exact ⟨device'.trans device, by rw [control', control]⟩
  rw [hwQspiReadBlock, hwQspiBlock_eq]
  exact whole.1

theorem hwQspiReadBlock_read {addr : UInt32} {count : Nat} (buffer : Nat)
    (positive : 0 < count) (fits : addr.toNat + count ≤ 2 ^ 24) :
    (hwQspiReadBlock norBus .eQspiModeQuadRx flashCmdRead114 (some addr) 3 none (some buffer)
      count state).2.rx = store state.rx buffer (load state.device.answer addr.toNat count) := by
  let copied (done : Nat) (middle : QspiState NorFlash) : Prop :=
    middle.device = state.device ∧ middle.ctrlr0.tmod = .tmodEepromRead ∧
      middle.rx = store state.rx buffer (load state.device.answer addr.toNat done)
  have advance : ∀ chunk ∈ chunks count, ∀ middle, copied chunk.1 middle →
      copied (chunk.1 + chunk.2) (chunkTransfer norBus .eQspiModeQuadRx .eQspiDirRead
        flashCmdRead114 (some addr) 3 none (some buffer) middle chunk) := by
    rintro ⟨offset, part⟩ isChunk middle ⟨device, control, rx⟩
    rcases chunk_bounds isChunk with ⟨inside, nonempty⟩
    have start : byteAddress (chunkAddr (some addr) offset) = addr.toNat + offset := by
      have more := nonempty positive
      simp only at inside more
      rw [byteAddress, chunkAddr_toNat addr (by omega), Nat.mod_eq_of_lt (by omega)]
    rcases chunkTransfer_read middle addr buffer offset (nonempty positive) control with
      ⟨device', control', rx'⟩
    refine ⟨device'.trans device, by rw [control', control], ?_⟩
    rw [rx', rx, start, device, load_add, store_append, load_length]
  have start : copied 0 (qspiSwitch .eQspiModeQuadRx .eQspiDirRead state) :=
    ⟨rfl, rfl, by simp [qspiSwitch]⟩
  rw [hwQspiReadBlock, hwQspiBlock_eq]
  exact (foldl_chunks_induction advance start).2.2

end Commands

/-- A byte that never reaches the flash: it is not in the first chunk of its page, or the
flash was still busy when its page was sent. -/
def Lost (busy addr index : Nat) : Prop :=
  (busy ≠ 0 ∧ index < 256 - addr % 256) ∨ qspiFifoMax ≤ min index ((addr + index) % 256)

instance (busy addr index : Nat) : Decidable (Lost busy addr index) :=
  inferInstanceAs (Decidable (_ ∨ _))

/-- The memory after a program call for a range. -/
def written (busy : Nat) (data : Nat → UInt8) (addr length : Nat)
    (memory : Nat → UInt8) : Nat → UInt8 :=
  fun cell =>
    if addr ≤ cell ∧ cell < addr + length ∧ ¬Lost busy addr (cell - addr) then
      memory cell &&& data (cell - addr)
    else memory cell

theorem written_zero (busy : Nat) (data : Nat → UInt8) (addr : Nat)
    (memory : Nat → UInt8) : written busy data addr 0 memory = memory := by
  funext cell
  have empty : ¬(addr ≤ cell ∧ cell < addr + 0 ∧ ¬Lost busy addr (cell - addr)) := by
    omega
  rw [written, if_neg empty]

/-- A call writes its first block and then what is left of the range. -/
theorem written_add (busy : Nat) (data : Nat → UInt8) (addr block rest : Nat)
    (memory : Nat → UInt8)
    (full : rest = 0 ∨ block = 256 - addr % 256) :
    written 0 (fun index => data (block + index)) (addr + block) rest
        (written busy data addr block memory) =
      written busy data addr (block + rest) memory := by
  funext cell
  by_cases inBlock : addr ≤ cell ∧ cell < addr + block
  · have notLater : ¬(addr + block ≤ cell ∧ cell < addr + block + rest ∧
        ¬Lost 0 (addr + block) (cell - (addr + block))) := by omega
    rw [written, if_neg notLater, written, written]
    by_cases lost : Lost busy addr (cell - addr)
    · rw [if_neg (by simp [lost]), if_neg (by simp [lost])]
    · rw [if_pos ⟨inBlock.1, inBlock.2, lost⟩,
        if_pos ⟨inBlock.1, by omega, lost⟩]
  · have notFirst : ¬(addr ≤ cell ∧ cell < addr + block ∧
        ¬Lost busy addr (cell - addr)) := by omega
    rw [written, written, if_neg notFirst, written]
    by_cases later : addr + block ≤ cell ∧ cell < addr + block + rest
    · have same : Lost 0 (addr + block) (cell - (addr + block)) ↔
          Lost busy addr (cell - addr) := by
        have page : block = 256 - addr % 256 := full.resolve_left (by omega)
        have boundary : (addr + block) % 256 = 0 := by omega
        -- past a boundary, the place in the page is below the distance from it
        have below : cell % 256 ≤ cell - (addr + block) := by
          obtain ⟨offset, rfl⟩ := Nat.exists_eq_add_of_le later.1
          rw [Nat.add_mod, boundary, Nat.zero_add, Nat.mod_mod, Nat.add_sub_cancel_left]
          exact Nat.mod_le _ _
        have past : ¬ cell - addr < 256 - addr % 256 := by omega
        rw [Lost, Lost, Nat.add_sub_cancel' later.1,
          Nat.add_sub_cancel' (Nat.le_trans (Nat.le_add_right addr block) later.1),
          Nat.min_eq_right below, Nat.min_eq_right (Nat.le_trans below (by omega))]
        simp [past]
      have position : block + (cell - (addr + block)) = cell - addr := by omega
      rw [position]
      by_cases lost : Lost busy addr (cell - addr)
      · rw [if_neg (by simp [same, lost]), if_neg (by simp [lost])]
      · rw [if_pos ⟨later.1, later.2, fun isLost => lost (same.mp isLost)⟩,
          if_pos ⟨by omega, by omega, lost⟩]
    · rw [if_neg (by omega), if_neg (by omega)]

section Program

variable (txdata : Nat → UInt8)

theorem programmed_eq_written {addr count : Nat} (offset : Nat)
    (memory : Nat → UInt8) (inPage : count ≤ 256 - addr % 256) :
    NorFlash.programmed flashPageSize.toNat memory addr
        (load (fun index => txdata (offset + index)) 0 (min qspiFifoMax count)) =
      written 0 (fun index => txdata (offset + index)) addr count memory := by
  have small : addr % 256 < 256 := Nat.mod_lt _ (by decide)
  funext cell
  rw [NorFlash.programmed_apply memory (by
    rw [flashPageSize_toNat, load_length]
    omega), load_length, written]
  by_cases first : addr ≤ cell ∧ cell < addr + min qspiFifoMax count
  · have kept : ¬Lost 0 addr (cell - addr) := by
      rw [Lost]
      omega
    have inside : cell - addr < min qspiFifoMax count := by omega
    rw [if_pos first, if_pos ⟨first.1, by omega, kept⟩, List.getD_eq_getElem?_getD,
      load_getElem? _ _ inside, Nat.zero_add]
    rfl
  · have gone : ¬(addr ≤ cell ∧ cell < addr + count ∧ ¬Lost 0 addr (cell - addr)) := by
      rw [Lost]
      omega
    rw [if_neg first, if_neg gone]

theorem programBlock_nor (addr : UInt32) (offset : Nat) (length : UInt32)
    (state : QspiState NorFlash) (below : addr.toNat < 2 ^ 24) :
    ∃ after least, (∀ polls, least ≤ polls →
        programBlock norBus polls txdata addr offset length state = (true, after)) ∧
      after.device.busy = 0 ∧ after.rx = state.rx ∧
      after.device.memory = written state.device.busy
        (fun index => txdata (offset + index)) addr.toNat
        (blockLength addr length).toNat state.device.memory := by
  have enabled := flashWriteEnable_nor state
  have sent := hwQspiWriteBlock_program (flashWriteEnable norBus state) addr
    (fun index => txdata (offset + index)) (blockLength addr length).toNat
  have exact_ : byteAddress addr = addr.toNat := Nat.mod_eq_of_lt below
  rw [enabled.1, enabled.2, exact_] at sent
  rcases flashWaitFence_returns (hwQspiWriteBlock norBus .eQspiModeQuadTx
    flashCmdPageProgram114 (some addr) 3 (some fun index => txdata (offset + index)) none
    (blockLength addr length).toNat (flashWriteEnable norBus state)).2
    with ⟨after, returns, device, rx⟩
  have memory : after.device.memory = (state.device.writeEnable.pageProgram
      flashPageSize.toNat addr.toNat (load (fun index => txdata (offset + index)) 0
        (min qspiFifoMax (blockLength addr length).toNat))).memory := by
    rw [device, sent.1]
  refine ⟨after, _, fun polls enough => returns polls (Nat.lt_of_succ_le enough), ?_,
    rx.trans sent.2, ?_⟩
  · rw [device]
  · have inPage : (blockLength addr length).toNat ≤ 256 - addr.toNat % 256 := by
      rw [blockLength_toNat]
      exact Nat.min_le_left _ _
    rw [memory]
    by_cases idle : state.device.busy = 0
    · have accepts : state.device.writeEnable.Accepts := by
        simp [NorFlash.writeEnable, NorFlash.Accepts, idle]
      rw [NorFlash.pageProgram, if_pos accepts, idle,
        ← programmed_eq_written txdata offset _ inPage]
      simp [NorFlash.start, NorFlash.writeEnable, idle]
    · have refuses : ¬state.device.writeEnable.Accepts := by
        simp [NorFlash.writeEnable, NorFlash.Accepts, idle]
      rw [NorFlash.pageProgram_refused refuses]
      have unchanged : state.device.writeEnable.memory = state.device.memory := by
        simp [NorFlash.writeEnable, idle]
      rw [unchanged]
      funext cell
      have lost : ¬(addr.toNat ≤ cell ∧
          cell < addr.toNat + (blockLength addr length).toNat ∧
          ¬Lost state.device.busy addr.toNat (cell - addr.toNat)) := by
        rw [Lost]
        omega
      rw [written, if_neg lost]

theorem programLoop_nor (addr length : UInt32) (offset : Nat)
    (state : QspiState NorFlash) (fits : addr.toNat + length.toNat ≤ 2 ^ 24) :
    ∃ after least, (∀ polls, least ≤ polls →
        programLoop norBus polls txdata addr offset length state = (some 0, after)) ∧
      (length ≠ 0 → after.device.busy = 0) ∧ after.rx = state.rx ∧
      after.device.memory = written state.device.busy
        (fun index => txdata (offset + index)) addr.toNat length.toNat
        state.device.memory := by
  induction count : length.toNat using Nat.strong_induction_on
    generalizing addr offset length state with
  | h count ih =>
      subst count
      by_cases more : length = 0
      · subst more
        refine ⟨state, 0, ?_, fun nonzero => absurd rfl nonzero, rfl, ?_⟩
        · intro polls _
          rw [programLoop, dif_pos rfl]
        · exact (written_zero _ _ _ _).symm
      · have shorter := blockLength_pos addr more
        have inside := blockLength_le addr length
        have remaining := sub_blockLength_toNat addr length
        have later : (addr + blockLength addr length).toNat =
            addr.toNat + (blockLength addr length).toNat := by
          rw [UInt32.toNat_add, Nat.mod_eq_of_lt (by omega)]
        rcases programBlock_nor txdata addr offset length state (by omega)
          with ⟨middle, least, block, idle, rx, memory⟩
        rcases ih (length - blockLength addr length).toNat (by omega)
          (addr + blockLength addr length) (length - blockLength addr length)
          (offset + (blockLength addr length).toNat) middle (by omega) rfl
          with ⟨after, least', rest, ready, rx', memory'⟩
        refine ⟨after, max least least', ?_, ?_, rx'.trans rx, ?_⟩
        · intro polls enough
          rw [programLoop, dif_neg more, block polls (by omega)]
          exact rest polls (by omega)
        · intro _
          by_cases done : length - blockLength addr length = 0
          · have stays := rest (max least least') (Nat.le_max_right _ _)
            rw [programLoop, dif_pos done] at stays
            cases stays
            exact idle
          · exact ready done
        · have whole := written_add state.device.busy
            (fun index => txdata (offset + index)) addr.toNat
            (blockLength addr length).toNat
            (length.toNat - (blockLength addr length).toNat) state.device.memory
            (by rw [blockLength_toNat]; omega)
          rw [memory', memory, idle, later, remaining]
          rw [Nat.add_sub_cancel' inside] at whole
          simpa [Nat.add_assoc] using whole

/-- More polls do not change what a program call that returns has done. -/
theorem programLoop_mono {Device : Type*} {bus : Bus Device} {polls : Nat} (more : Nat)
    {addr length : UInt32} {offset : Nat} {before after : QspiState Device}
    (returned : programLoop bus polls txdata addr offset length before =
      (some 0, after)) :
    programLoop bus (polls + more) txdata addr offset length before =
      (some 0, after) := by
  fun_induction programLoop bus polls txdata addr offset length before with
  | case1 addr offset before =>
      rw [programLoop, dif_pos rfl]
      exact returned
  | case2 addr offset length before nonzero middle block ih =>
      have same : programBlock bus (polls + more) txdata addr offset length before =
          (true, middle) := flashWaitFence_mono more block
      rw [programLoop, dif_neg nonzero, same]
      exact ih returned
  | case3 addr offset length before nonzero ready middle block waiting =>
      cases returned

end Program

/-! ## Program, then read -/

section RoundTrip

variable (addr : UInt32) (data : Nat → UInt8) (length : UInt32)
variable (state : QspiState NorFlash)

/-- If the program call returns 0, the read call returns 0 with the programmed bytes, and
nothing outside the range has changed. -/
def RoundTrips : Prop :=
  ∀ polls after,
    flashProgramData norBus polls addr (some data) length state = (some 0, after) →
    ∀ buffer, ∃ final, flashReadData norBus addr (some buffer) length after = (0, final) ∧
      (∀ index < length.toNat, final.rx (buffer + index) = data index) ∧
      ∀ cell, cell < addr.toNat ∨ addr.toNat + length.toNat ≤ cell →
        final.device.memory cell = state.device.memory cell

/-- Every cell of a range is erased. -/
def Erased (memory : Nat → UInt8) (start count : Nat) : Prop :=
  ∀ cell, start ≤ cell → cell < start + count → memory cell = 0xFF

variable {addr length state}

theorem guard_passes (fits : addr.toNat + length.toNat ≤ flashSize.toNat)
    (nonempty : length ≠ 0) : ¬(addr + length > flashSize ∨ length = 0) := by
  have notWrapped : ¬WrapsInside addr length := by
    rw [flashSize_toNat] at fits
    rintro ⟨wraps, -⟩
    omega
  have positive : 0 < length.toNat := by
    apply Nat.pos_of_ne_zero
    intro isZero
    exact nonempty ((eq_zero_iff_toNat length).mpr isZero)
  exact ((guard_iff addr length).mpr notWrapped).mpr ⟨positive, fits⟩

/-- A program call in range returns, and what it leaves behind does not depend on how
often the status has been read. -/
theorem flashProgramData_nor (state : QspiState NorFlash)
    (fits : addr.toNat + length.toNat ≤ flashSize.toNat) (nonempty : length ≠ 0) :
    ∃ after least, (∀ polls, least ≤ polls →
        flashProgramData norBus polls addr (some data) length state = (some 0, after)) ∧
      (∀ polls other,
        flashProgramData norBus polls addr (some data) length state = (some 0, other) →
        other = after) ∧
      after.device.busy = 0 ∧
      after.device.memory = written state.device.busy data addr.toNat length.toNat
        state.device.memory := by
  have accepts := guard_passes fits nonempty
  rcases programLoop_nor data addr length 0 state fits
    with ⟨after, least, returns, idle, -, memory⟩
  simp only [Nat.zero_add] at memory
  simp only [flashProgramData, if_neg accepts]
  refine ⟨after, least, returns, ?_, idle nonempty, memory⟩
  intro polls other returned
  have both := programLoop_mono data least returned
  rw [returns (polls + least) (Nat.le_add_left _ _)] at both
  cases both
  rfl

/-- A read call in range on a ready flash delivers the addressed bytes. -/
theorem flashReadData_nor (fits : addr.toNat + length.toNat ≤ flashSize.toNat)
    (nonempty : length ≠ 0) (idle : state.device.busy = 0) (buffer : Nat) :
    ∃ final, flashReadData norBus addr (some buffer) length state = (0, final) ∧
      (∀ index < length.toNat,
        final.rx (buffer + index) = state.device.memory (addr.toNat + index)) ∧
      final.device = state.device := by
  have accepts := guard_passes fits nonempty
  have positive : 0 < length.toNat := by
    apply Nat.pos_of_ne_zero
    intro isZero
    exact nonempty ((eq_zero_iff_toNat length).mpr isZero)
  have test : ¬(addr + length > flashSize ∨ some buffer = none ∨ length = 0) := by
    rintro (long | missing | empty)
    · exact accepts (Or.inl long)
    · cases missing
    · exact accepts (Or.inr empty)
  refine ⟨_, by rw [flashReadData, if_neg test], ?_,
    hwQspiReadBlock_device state addr buffer positive⟩
  intro index inside
  rw [hwQspiReadBlock_read state buffer positive fits, NorFlash.answer_ready idle,
    store_load_apply, if_pos (by omega), Nat.add_sub_cancel_left]

/-- The round trip succeeds exactly when the memory a program call leaves behind agrees
with the data. -/
theorem roundTrips_iff_written (fits : addr.toNat + length.toNat ≤ flashSize.toNat)
    (nonempty : length ≠ 0) :
    RoundTrips addr data length state ↔
      ∀ index < length.toNat,
        written state.device.busy data addr.toNat length.toNat state.device.memory
          (addr.toNat + index) = data index := by
  rcases flashProgramData_nor data state fits nonempty
    with ⟨after, least, returns, unique, idle, memory⟩
  constructor
  · intro roundTrips index inside
    rcases roundTrips least after (returns least (Nat.le_refl _)) 0
      with ⟨final, read, delivered, -⟩
    rcases flashReadData_nor fits nonempty idle 0 with ⟨final', read', delivered', -⟩
    cases read.symm.trans read'
    rw [← memory, ← delivered' index inside]
    exact delivered index inside
  · intro agrees polls other returned buffer
    cases unique polls other returned
    rcases flashReadData_nor fits nonempty idle buffer
      with ⟨final, read, delivered, device⟩
    refine ⟨final, read, ?_, ?_⟩
    · intro index inside
      rw [delivered index inside, memory]
      exact agrees index inside
    · intro cell outside
      rw [device, memory, written, if_neg]
      omega

/-- In an erased range a byte is read back unless it was lost and is not erased. -/
theorem written_erased_iff (busy : Nat) {start count index : Nat}
    {memory : Nat → UInt8} (erased : Erased memory start count)
    (inside : index < count) :
    written busy data start count memory (start + index) = data index ↔
      (Lost busy start index → data index = 0xFF) := by
  have blank := erased (start + index) (Nat.le_add_right _ _) (by omega)
  rw [written, Nat.add_sub_cancel_left, blank]
  by_cases lost : Lost busy start index
  · rw [if_neg (by simp [lost])]
    constructor
    · intro same _
      exact same.symm
    · intro isBlank
      exact (isBlank lost).symm
  · rw [if_pos ⟨Nat.le_add_right _ _, by omega, lost⟩, NorFlash.erased_and]
    simp [lost]

variable (addr length state)

/-- Program and read back: over an erased range the program call returns, and the round
trip succeeds exactly when every byte that never reaches the flash is an erased one. -/
theorem program_roundTrips_iff
    (fits : addr.toNat + length.toNat ≤ flashSize.toNat)
    (erased : Erased state.device.memory addr.toNat length.toNat) :
    (length ≠ 0 → ∃ after least, ∀ polls, least ≤ polls →
      flashProgramData norBus polls addr (some data) length state = (some 0, after)) ∧
    (RoundTrips addr data length state ↔
      ∀ index < length.toNat, Lost state.device.busy addr.toNat index →
        data index = 0xFF) := by
  constructor
  · intro nonempty
    rcases flashProgramData_nor data state fits nonempty
      with ⟨after, least, returns, -⟩
    exact ⟨after, least, returns⟩
  · by_cases empty : length = 0
    · subst empty
      constructor
      · intro _ index inside
        cases inside
      · intro _ polls after returned
        simp [flashProgramData] at returned
    · rw [roundTrips_iff_written data fits empty]
      constructor
      · intro agrees index inside
        exact (written_erased_iff data _ erased inside).mp (agrees index inside)
      · intro blank index inside
        exact (written_erased_iff data _ erased inside).mpr (blank index inside)

/-- A controller with an erased, ready flash. -/
def erasedState : QspiState NorFlash where
  device := { memory := fun _ => 0xFF, latch := false, busy := 0, delays := fun _ => 3 }
  ctrlr0 := { spiFrf := .spiFrfStandard, tmod := .tmodTxAndRx }
  sent := []
  rx := fun _ => 0

theorem program_roundTrips_zeros :
    ((35 : UInt32) ≠ 0 → ∃ after least, ∀ polls, least ≤ polls →
      flashProgramData norBus polls 0 (some fun _ => 0) 35 erasedState =
        (some 0, after)) ∧
    (RoundTrips 0 (fun _ => 0) 35 erasedState ↔
      ∀ index < (35 : UInt32).toNat, Lost 0 0 index → (0 : UInt8) = 0xFF) :=
  program_roundTrips_iff 0 (fun _ => 0) 35 erasedState (by decide)
    (fun _ _ _ => rfl)

/-- The last of 35 zeros reads back as an erased byte. -/
theorem program_not_roundTrips : ¬RoundTrips 0 (fun _ => 0) 35 erasedState := by
  rw [roundTrips_iff_written _ (by decide) (by decide)]
  intro agrees
  have last := agrees 34 (by decide)
  exact absurd last (by decide)

end RoundTrip

end SunWise.Flash
