import SunWise.Flash.RoundTrip

/-!
# Program commands on the bus

`Flash_ProgramData` cuts a range at the ends of the pages, and `_Qspi_TransferBlock` cuts
every page block once more.  Laid end to end, the page programs that come out of both cuts
are the range, byte for byte, and each of them stays in its page.
-/

namespace SunWise.Flash

open Library Qspi

/-- A page program as the bus sees it. -/
structure ProgramCommand where
  start : Nat
  bytes : List UInt8
  deriving DecidableEq, Repr

namespace ProgramCommand

/-- The bytes that a command programs, each with its address. -/
def cells (command : ProgramCommand) : List (Nat × UInt8) :=
  command.bytes.zipIdx command.start |>.map Prod.swap

/-- The command does not reach into another page. -/
def InPage (command : ProgramCommand) : Prop :=
  ∀ cell ∈ command.cells,
    cell.1 / flashPageSize.toNat = command.start / flashPageSize.toNat

/-- A command for a part of a buffer. -/
def ofLoad (start : Nat) (data : Nat → UInt8) (offset count : Nat) : ProgramCommand :=
  ⟨start, load data offset count⟩

theorem cells_ofLoad (start : Nat) (data : Nat → UInt8) (offset count : Nat) :
    (ofLoad start data offset count).cells =
      load (fun index => (start + index, data (offset + index))) 0 count := by
  apply List.ext_getElem
  · simp [cells, ofLoad]
  · intro index left right
    simp [cells, ofLoad, load]

theorem inPage_ofLoad {start count : Nat} (data : Nat → UInt8) (offset : Nat)
    (fits : start % flashPageSize.toNat + count ≤ flashPageSize.toNat) :
    (ofLoad start data offset count).InPage := by
  intro cell isCell
  rw [cells_ofLoad] at isCell
  rcases List.mem_map.mp isCell with ⟨index, below, rfl⟩
  have inside := List.mem_range.mp below
  rw [flashPageSize_toNat] at fits ⊢
  change (start + (0 + index)) / 256 = start / 256
  omega

end ProgramCommand

/-- The page program that a transaction carries. -/
def programCommand? (transaction : Transaction) : Option ProgramCommand :=
  match transaction.pushes with
  | cmd :: addr :: data =>
      if cmd = flashCmdPageProgram114.toUInt32 then
        some ⟨addr.toNat, data.map UInt32.toUInt8⟩
      else none
  | _ => none

/-- The page programs among the transactions between two states. -/
def Programs {Device : Type*} (commands : List ProgramCommand)
    (before after : QspiState Device) : Prop :=
  ∃ sent, after.sent = before.sent ++ sent ∧ sent.filterMap programCommand? = commands

/-- Laid end to end, the commands program the bytes of `data` from `addr` on, in ascending
order and each of them once; none is empty and none leaves its page. -/
structure Streams (addr length : Nat) (data : Nat → UInt8)
    (commands : List ProgramCommand) : Prop where
  cells : commands.flatMap ProgramCommand.cells =
    load (fun index => (addr + index, data index)) 0 length
  nonempty : ∀ command ∈ commands, command.bytes ≠ []
  inPage : ∀ command ∈ commands, command.InPage

namespace Programs

variable {Device : Type*} {front back : List ProgramCommand}
variable {first second third : QspiState Device}

theorem refl (state : QspiState Device) : Programs [] state state :=
  ⟨[], by simp⟩

theorem trans (earlier : Programs front first second) (later : Programs back second third) :
    Programs (front ++ back) first third := by
  rcases earlier with ⟨sent, extends_, rfl⟩
  rcases later with ⟨sent', extends', rfl⟩
  refine ⟨sent ++ sent', ?_, List.filterMap_append⟩
  rw [extends', extends_, List.append_assoc]

end Programs

namespace Streams

variable {addr front back : Nat} {data : Nat → UInt8}
variable {commands later : List ProgramCommand}

theorem nil (addr : Nat) (data : Nat → UInt8) : Streams addr 0 data [] :=
  ⟨rfl, nofun, nofun⟩

theorem append (first : Streams addr front data commands)
    (second : Streams (addr + front) back (fun index => data (front + index)) later) :
    Streams addr (front + back) data (commands ++ later) where
  cells := by
    rw [List.flatMap_append, first.cells, second.cells, load_add]
    simp [load, Nat.add_assoc]
  nonempty command isCommand := by
    rcases List.mem_append.mp isCommand with isFirst | isSecond
    · exact first.nonempty command isFirst
    · exact second.nonempty command isSecond
  inPage command isCommand := by
    rcases List.mem_append.mp isCommand with isFirst | isSecond
    · exact first.inPage command isFirst
    · exact second.inPage command isSecond

end Streams

section Commands

variable {Device : Type*} (bus : Bus Device) (txdata : Nat → UInt8)

theorem flatMap_chunks {Cell : Type*} (memory : Nat → Cell) (dataLen : Nat) :
    (chunks dataLen).flatMap (fun chunk => load memory chunk.1 chunk.2) =
      load memory 0 dataLen := by
  rw [List.flatMap_eq_foldl]
  apply foldl_chunks_induction (P := fun done cells => cells = load memory 0 done)
  · rintro ⟨offset, count⟩ - cells rfl
    rw [load_add, Nat.zero_add]
  · rfl

theorem flashWriteEnable_programs (state : QspiState Device) :
    Programs [] state (flashWriteEnable bus state) :=
  ⟨_, hwQspiBlock_sent bus .eQspiModeStandard .eQspiDirWrite flashCmdWriteEnable none 0
    none none 0 state, rfl⟩

theorem flashReadStatus_programs (state : QspiState Device) :
    Programs [] state (flashReadStatus bus state).2 :=
  ⟨_, hwQspiBlock_sent bus .eQspiModeStandard .eQspiDirRead flashCmdWinbondReadSr1 none 0
    none (some 0) 1 { state with rx := fun _ => 0 }, rfl⟩

theorem flashWaitFence_programs (polls : Nat) (state : QspiState Device) :
    Programs [] state (flashWaitFence bus polls state).2 := by
  induction polls generalizing state with
  | zero => exact Programs.refl state
  | succ polls ih =>
      have polled := flashReadStatus_programs bus state
      simp only [flashWaitFence]
      split
      · exact polled.trans (ih _)
      · exact polled

/-- The page programs of one block, which ends with its page at the latest. -/
theorem hwQspiWriteBlock_streams {addr : UInt32} {count : Nat} (offset : Nat)
    (positive : 0 < count) (inside : addr.toNat + count < 2 ^ 32)
    (inPage : addr.toNat % 256 + count ≤ 256) (state : QspiState Device) :
    ∃ commands, Programs commands state
        (hwQspiWriteBlock bus .eQspiModeQuadTx flashCmdPageProgram114 (some addr) 3
          (bufferFrom (some txdata) offset) none count state).2 ∧
      Streams addr.toNat count (fun index => txdata (offset + index)) commands := by
  let command (chunk : Nat × Nat) : ProgramCommand :=
    .ofLoad (addr.toNat + chunk.1) (fun index => txdata (offset + index)) chunk.1 chunk.2
  have decoded : ∀ ctrlr0, ∀ chunk ∈ chunks count,
      programCommand? (chunkTransaction .eQspiModeQuadTx .eQspiDirWrite
        flashCmdPageProgram114 (some addr) 3 (bufferFrom (some txdata) offset) ctrlr0
        chunk) = some (command chunk) := by
    intro ctrlr0 chunk isChunk
    have bounds := (chunk_bounds isChunk).1
    have start : (chunkAddr (some addr) chunk.1).toNat = addr.toNat + chunk.1 :=
      chunkAddr_toNat addr (by omega)
    simp [programCommand?, chunkTransaction, qspiTransaction, addressPushes, dataPushes,
      bufferFrom, command, ProgramCommand.ofLoad, load, start, Function.comp_def]
  refine ⟨(chunks count).map command, ?_, ?_, ?_, ?_⟩
  · refine ⟨_, hwQspiBlock_sent bus .eQspiModeQuadTx .eQspiDirWrite
      flashCmdPageProgram114 (some addr) 3 (bufferFrom (some txdata) offset) none count
      state, ?_⟩
    rw [List.filterMap_map, ← List.filterMap_eq_map]
    exact List.filterMap_congr (decoded _)
  · rw [List.flatMap_map, ← flatMap_chunks]
    apply List.flatMap_congr
    intro chunk _
    rw [ProgramCommand.cells_ofLoad]
    simp [load, Nat.add_assoc]
  · simp only [List.forall_mem_map]
    intro chunk isChunk
    apply List.ne_nil_of_length_pos
    simp only [command, ProgramCommand.ofLoad, load_length]
    exact (chunk_bounds isChunk).2 positive
  · simp only [List.forall_mem_map]
    intro chunk isChunk
    have bounds := (chunk_bounds isChunk).1
    apply ProgramCommand.inPage_ofLoad
    rw [flashPageSize_toNat]
    omega

/-- The page programs of one turn of the loop. -/
theorem programBlock_streams (polls : Nat) {addr length : UInt32} (offset : Nat)
    (more : length ≠ 0) (fits : addr.toNat + length.toNat < 2 ^ 32)
    (state : QspiState Device) :
    ∃ commands, Programs commands state
        (programBlock bus polls txdata addr offset length state).2 ∧
      Streams addr.toNat (blockLength addr length).toNat
        (fun index => txdata (offset + index)) commands := by
  have shorter := blockLength_le addr length
  have inPage : addr.toNat % 256 + (blockLength addr length).toNat ≤ 256 := by
    rw [blockLength_toNat]
    omega
  rcases hwQspiWriteBlock_streams bus txdata offset (blockLength_pos addr more)
    (by omega) inPage (flashWriteEnable bus state) with ⟨commands, programs, streams⟩
  refine ⟨commands, ?_, streams⟩
  have written := (flashWriteEnable_programs bus state).trans programs
  have fenced := written.trans (flashWaitFence_programs bus polls _)
  rw [List.nil_append, List.append_nil] at fenced
  exact fenced

theorem programLoop_streams (polls : Nat) (addr : UInt32) (offset : Nat)
    (length : UInt32) (state after : QspiState Device)
    (fits : addr.toNat + length.toNat < 2 ^ 32)
    (returned : programLoop bus polls txdata addr offset length state = (some 0, after)) :
    ∃ commands, Programs commands state after ∧
      Streams addr.toNat length.toNat (fun index => txdata (offset + index)) commands := by
  fun_induction programLoop bus polls txdata addr offset length state with
  | case1 =>
      cases returned
      exact ⟨[], Programs.refl _, Streams.nil _ _⟩
  | case2 addr offset length state more middle block ih =>
      rcases programBlock_streams bus txdata polls offset more fits state
        with ⟨commands, programs, streams⟩
      have shorter := blockLength_le addr length
      have later : (addr + blockLength addr length).toNat =
          addr.toNat + (blockLength addr length).toNat := by
        rw [UInt32.toNat_add, Nat.mod_eq_of_lt (by omega)]
      have remaining := sub_blockLength_toNat addr length
      rw [later, remaining] at ih
      rcases ih (by omega) returned with ⟨commands', programs', streams'⟩
      rw [block] at programs
      refine ⟨commands ++ commands', programs.trans programs', ?_⟩
      have whole : Streams addr.toNat ((blockLength addr length).toNat +
          (length.toNat - (blockLength addr length).toNat))
          (fun index => txdata (offset + index)) (commands ++ commands') :=
        streams.append (by simpa [Nat.add_assoc] using streams')
      rwa [Nat.add_sub_cancel' shorter] at whole
  | case3 => cases returned

theorem programLoop_returns
    (fences : ∀ state, ∃ polls, (flashWaitFence bus polls state).1 = true)
    (addr length : UInt32) (offset : Nat) (state : QspiState Device) :
    ∃ least, ∀ polls, least ≤ polls →
      (programLoop bus polls txdata addr offset length state).1 = some 0 := by
  induction count : length.toNat using Nat.strong_induction_on
    generalizing addr offset length state with
  | h count ih =>
      subst count
      by_cases more : length = 0
      · refine ⟨0, fun polls _ => ?_⟩
        rw [programLoop, dif_pos more]
      · have shorter := blockLength_pos addr more
        have inside := blockLength_le addr length
        have remaining := sub_blockLength_toNat addr length
        rcases fences (hwQspiWriteBlock bus .eQspiModeQuadTx flashCmdPageProgram114
          (some addr) 3 (bufferFrom (some txdata) offset) none
          (blockLength addr length).toNat (flashWriteEnable bus state)).2
          with ⟨enough, ended⟩
        have block : ∀ polls, enough ≤ polls →
            programBlock bus polls txdata addr offset length state =
              (true, (programBlock bus enough txdata addr offset length state).2) := by
          intro polls many
          obtain ⟨extra, rfl⟩ := Nat.exists_eq_add_of_le many
          exact flashWaitFence_mono extra (Prod.ext ended rfl)
        rcases ih (length - blockLength addr length).toNat (by omega)
          (addr + blockLength addr length) (length - blockLength addr length)
          (offset + (blockLength addr length).toNat)
          (programBlock bus enough txdata addr offset length state).2 rfl
          with ⟨least, returns⟩
        refine ⟨max enough least, fun polls many => ?_⟩
        rw [programLoop, dif_neg more, block polls (by omega)]
        exact returns polls (by omega)

/-- The page programs that `Flash_ProgramData` puts on the bus cover the range in ascending
order, carry its bytes and stay in their pages; and the call returns if the flash gets
ready after each of them. -/
theorem flashProgramData_streams {addr length : UInt32}
    (fits : addr.toNat + length.toNat ≤ flashSize.toNat) (nonempty : 1 ≤ length.toNat)
    (state : QspiState Device) :
    (∀ polls after,
      flashProgramData bus polls addr (some txdata) length state = (some 0, after) →
      ∃ commands, Programs commands state after ∧
        Streams addr.toNat length.toNat txdata commands) ∧
    ((∀ middle, ∃ polls, (flashWaitFence bus polls middle).1 = true) →
      ∃ least, ∀ polls, least ≤ polls →
        (flashProgramData bus polls addr (some txdata) length state).1 = some 0) := by
  have nonzero : length ≠ 0 := by
    rintro rfl
    exact absurd nonempty (by decide)
  have accepts := guard_passes fits nonzero
  simp only [flashProgramData, if_neg accepts]
  constructor
  · intro polls after returned
    have below : addr.toNat + length.toNat < 2 ^ 32 := by
      rw [flashSize_toNat] at fits
      omega
    have sent := programLoop_streams bus txdata polls addr 0 length state after below returned
    simpa only [Nat.zero_add] using sent
  · intro fences
    exact programLoop_returns bus txdata fences addr length 0 state

end Commands

/-- 300 bytes from address 250 on touch three pages. -/
theorem flashProgramData_streams_across :
    ∃ polls after, flashProgramData norBus polls 250 (some fun index => index.toUInt8) 300
        erasedState = (some 0, after) ∧
      ∃ commands, Programs commands erasedState after ∧
        Streams 250 300 (fun index => index.toUInt8) commands := by
  have both := @flashProgramData_streams _ norBus (fun index => index.toUInt8) 250 300
    (by decide) (by decide) erasedState
  rcases both with ⟨streams, returns⟩
  have fences : ∀ middle, ∃ polls, (flashWaitFence norBus polls middle).1 = true := by
    intro middle
    rcases flashWaitFence_returns middle with ⟨after, returns, -⟩
    exact ⟨_, congrArg Prod.fst (returns _ (Nat.lt_succ_self _))⟩
  rcases returns fences with ⟨least, ends⟩
  let call := flashProgramData norBus least 250 (some fun index => index.toUInt8) 300
    erasedState
  have returned : call = (some 0, call.2) := Prod.ext (ends least (Nat.le_refl _)) rfl
  exact ⟨least, call.2, returned, streams least call.2 returned⟩

end SunWise.Flash
