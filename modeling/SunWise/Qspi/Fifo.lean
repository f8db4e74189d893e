import SunWise.Qspi.Controller

/-!
# FIFO occupancy

`QSPI_FIFO_MAX` is documented as the room for a command, an address and the data, but
`_Qspi_TransferBlock` uses it as the number of data bytes of a chunk.  The words pushed
for a chunk therefore fit exactly when the whole request fits in one go.
-/

namespace SunWise.Qspi

/-- Number of words pushed before the data. -/
def commandWords (quadMode : QspiMode) (addrLen : Nat) : Nat :=
  if addrLen = 0 then 1
  else if quadMode = .eQspiModeStandard then if addrLen > 3 then 5 else 4
  else 2

/-- Whether a transfer pushes a word for every data byte. -/
def pushesData (quadMode : QspiMode) (direction : QspiDirection)
    (txbuf : Option (Nat → UInt8)) : Bool :=
  quadMode = .eQspiModeStandard ∨ direction = .eQspiDirWrite ∧ txbuf.isSome

/-- The command, the address and all pushed data of a request fit into the FIFO. -/
def WithinFifo (quadMode : QspiMode) (direction : QspiDirection) (addrLen : Nat)
    (txbuf : Option (Nat → UInt8)) (dataLen : Nat) : Prop :=
  commandWords quadMode addrLen +
    (if pushesData quadMode direction txbuf then dataLen else 0) ≤ qspiFifoMax

section Length

variable (quadMode : QspiMode) (direction : QspiDirection) (addrLen : Nat)
variable (txbuf : Option (Nat → UInt8))

theorem addressPushes_length (addr : UInt32) :
    1 + (addressPushes quadMode addr addrLen).length = commandWords quadMode addrLen := by
  unfold addressPushes commandWords
  split
  next => rfl
  next =>
    split
    next =>
      split
      next => rfl
      next => rfl
    next => rfl

theorem dataPushes_length (dataLen : Nat) :
    (dataPushes quadMode direction txbuf dataLen).length =
      if pushesData quadMode direction txbuf then dataLen else 0 := by
  cases quadMode <;> cases direction <;> cases txbuf <;>
    simp [dataPushes, pushesData]

@[simp] theorem pushesData_bufferFrom (offset : Nat) :
    pushesData quadMode direction (bufferFrom txbuf offset) =
      pushesData quadMode direction txbuf := by
  cases txbuf <;> rfl

theorem chunkTransaction_pushes_length (cmd : UInt8) (paddr : Option UInt32)
    (ctrlr0 : Ctrlr0) (chunk : Nat × Nat) :
    (chunkTransaction quadMode direction cmd paddr addrLen txbuf ctrlr0
        chunk).pushes.length =
      commandWords quadMode addrLen +
        if pushesData quadMode direction txbuf then chunk.2 else 0 := by
  have address := addressPushes_length quadMode addrLen (chunkAddr paddr chunk.1)
  have data := dataPushes_length quadMode direction (bufferFrom txbuf chunk.1) chunk.2
  rw [pushesData_bufferFrom] at data
  simp only [chunkTransaction, qspiTransaction, List.length_cons, List.length_append,
    data, ← address]
  omega

end Length

/-- A request longer than the FIFO contains a chunk as long as the FIFO; any other
request is a single chunk. -/
theorem forall_chunks_iff {words dataLen : Nat} (pushes : Bool) (command : 0 < words)
    (few : words ≤ qspiFifoMax) :
    (∀ chunk ∈ chunks dataLen, words + (if pushes then chunk.2 else 0) ≤ qspiFifoMax) ↔
      words + (if pushes then dataLen else 0) ≤ qspiFifoMax := by
  cases pushes with
  | false => simp [few]
  | true =>
      by_cases long : dataLen > qspiFifoMax
      · constructor
        · intro fits
          have first : (0 * qspiFifoMax, qspiFifoMax) ∈ chunks dataLen := by
            have nonempty : 0 < dataLen / qspiFifoMax :=
              Nat.div_pos (Nat.le_of_lt long) (by decide)
            simp only [chunks, long, if_true, List.mem_append, List.mem_map,
              List.mem_range]
            exact Or.inl ⟨0, nonempty, rfl⟩
          have full := fits _ first
          simp only [if_true] at full
          omega
        · intro fits
          simp only [if_true] at fits
          omega
      · simp [chunks, long]

theorem commandWords_bounds (quadMode : QspiMode) (addrLen : Nat) :
    0 < commandWords quadMode addrLen ∧ commandWords quadMode addrLen ≤ qspiFifoMax := by
  unfold commandWords
  rw [qspiFifoMax_eq]
  split
  next => decide
  next =>
    split
    next =>
      split
      next => decide
      next => decide
    next => decide

section Occupancy

variable {Device : Type*} (bus : Bus Device) (quadMode : QspiMode) (cmd : UInt8)
variable (paddr : Option UInt32) (addrLen : Nat) (txbuf : Option (Nat → UInt8))
variable (rxbuf : Option Nat) (dataLen : Nat) (state : QspiState Device)

/-- The chunks of one block transfer stay within the FIFO exactly when the whole request
does. -/
theorem hwQspiBlock_withinFifo_iff (direction : QspiDirection) :
    ∃ sent, (hwQspiBlock bus direction quadMode cmd paddr addrLen txbuf rxbuf dataLen
        state).2.sent = state.sent ++ sent ∧
      ((∀ transaction ∈ sent, transaction.pushes.length ≤ qspiFifoMax) ↔
        WithinFifo quadMode direction addrLen txbuf dataLen) := by
  refine ⟨_, hwQspiBlock_sent bus quadMode direction cmd paddr addrLen txbuf rxbuf
    dataLen state, ?_⟩
  rcases commandWords_bounds quadMode addrLen with ⟨command, few⟩
  simp only [List.forall_mem_map, chunkTransaction_pushes_length]
  exact forall_chunks_iff _ command few

/-- `HW_QSPI_WriteBlock` and `HW_QSPI_ReadBlock` keep every chunk within the FIFO exactly
when the request fits into the FIFO as a whole. -/
theorem block_withinFifo_iff :
    (∃ sent, (hwQspiWriteBlock bus quadMode cmd paddr addrLen txbuf rxbuf dataLen
        state).2.sent = state.sent ++ sent ∧
      ((∀ transaction ∈ sent, transaction.pushes.length ≤ qspiFifoMax) ↔
        WithinFifo quadMode .eQspiDirWrite addrLen txbuf dataLen)) ∧
    ∃ sent, (hwQspiReadBlock bus quadMode cmd paddr addrLen txbuf rxbuf dataLen
        state).2.sent = state.sent ++ sent ∧
      ((∀ transaction ∈ sent, transaction.pushes.length ≤ qspiFifoMax) ↔
        WithinFifo quadMode .eQspiDirRead addrLen txbuf dataLen) := by
  constructor
  · exact hwQspiBlock_withinFifo_iff bus quadMode cmd paddr addrLen txbuf rxbuf dataLen
      state .eQspiDirWrite
  · exact hwQspiBlock_withinFifo_iff bus quadMode cmd paddr addrLen txbuf rxbuf dataLen
      state .eQspiDirRead

end Occupancy

/-- Programming 34 bytes pushes 36 words for one chunk. -/
theorem writeBlock_exceeds_fifo :
    ∃ transaction ∈ (hwQspiWriteBlock idleBus .eQspiModeQuadTx 0x32 (some 0) 3
        (some fun _ => 0) none 34 idleState).2.sent,
      ¬transaction.pushes.length ≤ qspiFifoMax := by
  refine ⟨_, List.mem_cons_self, ?_⟩
  decide

end SunWise.Qspi
