import SunWise.Library.Memory

/-!
# QSPI controller

The block transfers of `drv_qspi.c`.  One call of `_Qspi_Transfer` is one transaction:
the words pushed into `DR` while the target is not selected, together with the control
fields that are in force.  What the target makes of it is a parameter of the model, the
bus; every transaction is recorded in the order it is carried out.
-/

namespace SunWise.Qspi

open Library

/-- `QSPI_FIFO_MAX`, "include 1-cmd, 2-address, 32-data". -/
def qspiFifoMax : Nat := 1 + 1 + 32

theorem qspiFifoMax_eq : qspiFifoMax = 34 := rfl

/-- `QspiMode_e`. -/
inductive QspiMode where
  | eQspiModeStandard
  | eQspiModeQuadTx
  | eQspiModeQuadRx
  deriving DecidableEq, Repr

/-- `QspiDirection_e`. -/
inductive QspiDirection where
  | eQspiDirWrite
  | eQspiDirRead
  deriving DecidableEq, Repr

/-- Values of the field `SPI_FRF` of `CTRLR0`. -/
inductive SpiFrf where
  | spiFrfStandard
  | spiFrfQuad
  deriving DecidableEq, Repr

/-- Values of the field `TMOD` of `CTRLR0`. -/
inductive Tmod where
  | tmodTxAndRx
  | tmodTxOnly
  | tmodEepromRead
  deriving DecidableEq, Repr

/-- The two fields of `CTRLR0` that `_Qspi_Switch` rewrites. -/
structure Ctrlr0 where
  spiFrf : SpiFrf
  tmod : Tmod
  deriving DecidableEq, Repr

/-- What is set up when the target is selected. -/
structure Transaction where
  ctrlr0 : Ctrlr0
  ctrlr1 : Nat
  pushes : List UInt32
  deriving DecidableEq, Repr

/-- A target on the bus: it reacts to a transaction and leaves words in the receive
FIFO. -/
structure Bus (Device : Type*) where
  exchange : Device → Transaction → Device × List UInt32

/-- The controller, the target behind it, the transactions carried out so far, and the
object that a receive buffer points into. -/
structure QspiState (Device : Type*) where
  device : Device
  ctrlr0 : Ctrlr0
  sent : List Transaction
  rx : Nat → UInt8

variable {Device : Type*} (bus : Bus Device)

/-- `_Qspi_Switch`. -/
def qspiSwitch (quadMode : QspiMode) (direction : QspiDirection)
    (state : QspiState Device) : QspiState Device :=
  { state with
    ctrlr0 :=
      if quadMode = .eQspiModeStandard then
        { spiFrf := .spiFrfStandard, tmod := .tmodTxAndRx }
      else if direction = .eQspiDirWrite then
        { spiFrf := .spiFrfQuad, tmod := .tmodTxOnly }
      else
        { spiFrf := .spiFrfQuad, tmod := .tmodEepromRead } }

/-- The value `_Qspi_Transfer` writes to `CTRLR1`. -/
def qspiCtrlr1 (quadMode : QspiMode) (direction : QspiDirection) (dataLen : Nat) : Nat :=
  if quadMode = .eQspiModeStandard then 0
  else if direction = .eQspiDirRead ∧ dataLen > 0 then dataLen - 1
  else 0

/-- The words that address the target. -/
def addressPushes (quadMode : QspiMode) (addr : UInt32) (addrLen : Nat) : List UInt32 :=
  if addrLen = 0 then []
  else if quadMode = .eQspiModeStandard then
    (if addrLen > 3 then [(addr >>> 24) &&& 0xff] else []) ++
      [(addr >>> 16) &&& 0xff, (addr >>> 8) &&& 0xff, (addr >>> 0) &&& 0xff]
  else [addr]

/-- The words that follow them. In standard mode something is clocked out for every
byte; in a quad mode only a write with a buffer pushes data. -/
def dataPushes (quadMode : QspiMode) (direction : QspiDirection)
    (txbuf : Option (Nat → UInt8)) (dataLen : Nat) : List UInt32 :=
  if quadMode = .eQspiModeStandard then
    (load (txbuf.getD fun _ => 0xff) 0 dataLen).map UInt8.toUInt32
  else if direction = .eQspiDirWrite then
    match txbuf with
    | some bytes => (load bytes 0 dataLen).map UInt8.toUInt32
    | none => []
  else []

/-- The bytes read back from the receive FIFO. In standard mode the words clocked in
under the command and the address are dropped first. -/
def receivedBytes (quadMode : QspiMode) (addrLen dataLen : Nat)
    (received : List UInt32) : List UInt8 :=
  let skipped := if quadMode = .eQspiModeStandard then 1 + addrLen else 0
  load (fun index => ((received.drop skipped).getD index 0).toUInt8) 0 dataLen

/-- What `_Qspi_Transfer` sets up before it selects the target. -/
def qspiTransaction (ctrlr0 : Ctrlr0) (quadMode : QspiMode) (direction : QspiDirection)
    (cmd : UInt8) (addr : UInt32) (addrLen : Nat) (txbuf : Option (Nat → UInt8))
    (dataLen : Nat) : Transaction where
  ctrlr0 := ctrlr0
  ctrlr1 := qspiCtrlr1 quadMode direction dataLen
  pushes := cmd.toUInt32 ::
    (addressPushes quadMode addr addrLen ++ dataPushes quadMode direction txbuf dataLen)

/-- `_Qspi_Transfer`. A receive buffer is given by its offset in the object `rx`. -/
def qspiTransfer (quadMode : QspiMode) (direction : QspiDirection) (cmd : UInt8)
    (addr : UInt32) (addrLen : Nat) (txbuf : Option (Nat → UInt8))
    (rxbuf : Option Nat) (dataLen : Nat) (state : QspiState Device) :
    Int × QspiState Device :=
  let transaction :=
    qspiTransaction state.ctrlr0 quadMode direction cmd addr addrLen txbuf dataLen
  let (device, received) := bus.exchange state.device transaction
  let rx :=
    match direction, rxbuf with
    | .eQspiDirRead, some offset =>
        store state.rx offset (receivedBytes quadMode addrLen dataLen received)
    | _, _ => state.rx
  (0, { state with device, rx, sent := state.sent ++ [transaction] })

/-- The buffer `&txbuf[offset]`. -/
def bufferFrom (txbuf : Option (Nat → UInt8)) (offset : Nat) : Option (Nat → UInt8) :=
  txbuf.map fun bytes index => bytes (offset + index)

/-- The loop of `_Qspi_TransferBlock` over the full blocks from `index` on. -/
def qspiTransferBlocks (quadMode : QspiMode) (direction : QspiDirection) (cmd : UInt8)
    (paddr : Option UInt32) (addrLen : Nat) (txbuf : Option (Nat → UInt8))
    (rxbuf : Option Nat) :
    Nat → Nat → UInt32 → QspiState Device → Int × UInt32 × QspiState Device
  | 0, _, addrLocal, state => (0, addrLocal, state)
  | count + 1, index, addrLocal, state =>
      let (result, state) := qspiTransfer bus quadMode direction cmd addrLocal addrLen
        (bufferFrom txbuf (index * qspiFifoMax))
        (rxbuf.map (· + index * qspiFifoMax)) qspiFifoMax state
      if result ≠ 0 then (result, addrLocal, state)
      else
        let addrLocal :=
          if paddr.isSome then addrLocal + UInt32.ofNat qspiFifoMax else addrLocal
        qspiTransferBlocks quadMode direction cmd paddr addrLen txbuf rxbuf count
          (index + 1) addrLocal state

/-- `_Qspi_TransferBlock`. -/
def qspiTransferBlock (quadMode : QspiMode) (direction : QspiDirection) (cmd : UInt8)
    (paddr : Option UInt32) (addrLen : Nat) (txbuf : Option (Nat → UInt8))
    (rxbuf : Option Nat) (dataLen : Nat) (state : QspiState Device) :
    Int × QspiState Device :=
  let addrLocal := paddr.getD 0x0
  if dataLen > qspiFifoMax then
    let blockNum := dataLen / qspiFifoMax
    let remain := dataLen % qspiFifoMax
    let (result, addrLocal, state) := qspiTransferBlocks bus quadMode direction cmd
      paddr addrLen txbuf rxbuf blockNum 0 addrLocal state
    if result = 0 ∧ remain > 0 then
      qspiTransfer bus quadMode direction cmd addrLocal addrLen
        (bufferFrom txbuf (blockNum * qspiFifoMax))
        (rxbuf.map (· + blockNum * qspiFifoMax)) remain state
    else (result, state)
  else
    qspiTransfer bus quadMode direction cmd addrLocal addrLen txbuf rxbuf dataLen state

/-- The body shared by the two block functions. -/
def hwQspiBlock (direction : QspiDirection) (quadMode : QspiMode) (cmd : UInt8)
    (paddr : Option UInt32) (addrLen : Nat) (txbuf : Option (Nat → UInt8))
    (rxbuf : Option Nat) (dataLen : Nat) (state : QspiState Device) :
    Int × QspiState Device :=
  qspiTransferBlock bus quadMode direction cmd paddr addrLen txbuf rxbuf dataLen
    (qspiSwitch quadMode direction state)

/-- `HW_QSPI_WriteBlock`. -/
def hwQspiWriteBlock := hwQspiBlock bus .eQspiDirWrite

/-- `HW_QSPI_ReadBlock`. -/
def hwQspiReadBlock := hwQspiBlock bus .eQspiDirRead

/-- A bus with nothing behind it. -/
def idleBus : Bus Unit where
  exchange device _ := (device, [])

/-- The controller on that bus before its first transfer. -/
def idleState : QspiState Unit where
  device := ()
  ctrlr0 := { spiFrf := .spiFrfStandard, tmod := .tmodTxAndRx }
  sent := []
  rx := fun _ => 0

/-- The later state has carried out further transactions, all of one kind. -/
def Sends (kind : Transaction → Prop) (before after : QspiState Device) : Prop :=
  ∃ sent, after.sent = before.sent ++ sent ∧ ∀ transaction ∈ sent, kind transaction

namespace Sends

variable {kind : Transaction → Prop} {first second third : QspiState Device}

theorem refl (state : QspiState Device) : Sends kind state state :=
  ⟨[], by simp⟩

theorem trans (earlier : Sends kind first second) (later : Sends kind second third) :
    Sends kind first third := by
  rcases earlier with ⟨front, extends_, inFront⟩
  rcases later with ⟨back, extends', inBack⟩
  refine ⟨front ++ back, ?_, ?_⟩
  · rw [extends', extends_, List.append_assoc]
  · intro transaction inBoth
    rcases List.mem_append.mp inBoth with isFront | isBack
    · exact inFront transaction isFront
    · exact inBack transaction isBack

end Sends

/-! ## A block transfer as a list of chunks -/

/-- Offsets and lengths of the chunks of a block transfer. -/
def chunks (dataLen : Nat) : List (Nat × Nat) :=
  if dataLen > qspiFifoMax then
    (List.range (dataLen / qspiFifoMax)).map
        (fun index => (index * qspiFifoMax, qspiFifoMax)) ++
      (if dataLen % qspiFifoMax > 0 then
        [(dataLen / qspiFifoMax * qspiFifoMax, dataLen % qspiFifoMax)] else [])
  else [(0, dataLen)]

/-- The address a chunk is sent with. -/
def chunkAddr (paddr : Option UInt32) (offset : Nat) : UInt32 :=
  match paddr with
  | some addr => addr + UInt32.ofNat offset
  | none => 0

theorem chunkAddr_toNat (addr : UInt32) {offset : Nat}
    (inside : addr.toNat + offset < 2 ^ 32) :
    (chunkAddr (some addr) offset).toNat = addr.toNat + offset := by
  have small : offset < 2 ^ 32 := by omega
  rw [chunkAddr, UInt32.toNat_add, UInt32.toNat_ofNat', Nat.mod_eq_of_lt small,
    Nat.mod_eq_of_lt inside]

section Chunks

variable (quadMode : QspiMode) (direction : QspiDirection) (cmd : UInt8)
variable (paddr : Option UInt32) (addrLen : Nat) (txbuf : Option (Nat → UInt8))
variable (rxbuf : Option Nat)

/-- The transfer of one chunk. -/
def chunkTransfer (state : QspiState Device) (chunk : Nat × Nat) : QspiState Device :=
  (qspiTransfer bus quadMode direction cmd (chunkAddr paddr chunk.1) addrLen
    (bufferFrom txbuf chunk.1) (rxbuf.map (· + chunk.1)) chunk.2 state).2

theorem bufferFrom_zero : bufferFrom txbuf 0 = txbuf := by
  cases txbuf <;> simp [bufferFrom]

theorem chunkAddr_step (index : Nat) :
    (if paddr.isSome then
      chunkAddr paddr (index * qspiFifoMax) + UInt32.ofNat qspiFifoMax
      else chunkAddr paddr (index * qspiFifoMax)) =
      chunkAddr paddr ((index + 1) * qspiFifoMax) := by
  cases paddr with
  | none => rfl
  | some addr =>
      simp only [chunkAddr, Option.isSome_some, if_true, Nat.add_mul, Nat.one_mul,
        UInt32.ofNat_add, UInt32.add_assoc]

theorem qspiTransferBlocks_eq (count index : Nat) (state : QspiState Device) :
    qspiTransferBlocks bus quadMode direction cmd paddr addrLen txbuf rxbuf count index
        (chunkAddr paddr (index * qspiFifoMax)) state =
      (0, chunkAddr paddr ((index + count) * qspiFifoMax),
        ((List.range count).map
          (fun later => ((index + later) * qspiFifoMax, qspiFifoMax))).foldl
          (chunkTransfer bus quadMode direction cmd paddr addrLen txbuf rxbuf)
          state) := by
  induction count generalizing index state with
  | zero => rfl
  | succ count ih =>
      have sent : (qspiTransfer bus quadMode direction cmd
          (chunkAddr paddr (index * qspiFifoMax)) addrLen
          (bufferFrom txbuf (index * qspiFifoMax))
          (rxbuf.map (· + index * qspiFifoMax)) qspiFifoMax state) =
          (0, chunkTransfer bus quadMode direction cmd paddr addrLen txbuf rxbuf state
            (index * qspiFifoMax, qspiFifoMax)) := rfl
      simp only [qspiTransferBlocks, sent, ne_eq, not_true_eq_false, if_false,
        chunkAddr_step, ih]
      have shift : ∀ later, index + 1 + later = index + (later + 1) := by
        intro later
        rw [Nat.add_assoc, Nat.add_comm 1 later]
      simp [List.range_succ_eq_map, Function.comp_def, shift]

/-- A block transfer succeeds and carries out its chunks in order. -/
theorem qspiTransferBlock_eq (dataLen : Nat) (state : QspiState Device) :
    qspiTransferBlock bus quadMode direction cmd paddr addrLen txbuf rxbuf dataLen
        state =
      (0, (chunks dataLen).foldl
        (chunkTransfer bus quadMode direction cmd paddr addrLen txbuf rxbuf) state) := by
  have start : paddr.getD 0x0 = chunkAddr paddr (0 * qspiFifoMax) := by
    cases paddr <;> simp [chunkAddr]
  unfold qspiTransferBlock chunks
  by_cases long : dataLen > qspiFifoMax
  · simp only [long, if_true, start, qspiTransferBlocks_eq, true_and, Nat.zero_add]
    by_cases remain : dataLen % qspiFifoMax > 0
    · simp only [remain, if_true, List.foldl_append]
      rfl
    · simp [remain]
  · simp only [long, if_false, start]
    simp only [List.foldl_cons, List.foldl_nil, chunkTransfer, bufferFrom_zero,
      Nat.zero_mul]
    cases rxbuf <;> rfl

theorem hwQspiBlock_eq (dataLen : Nat) (state : QspiState Device) :
    hwQspiBlock bus direction quadMode cmd paddr addrLen txbuf rxbuf dataLen state =
      (0, (chunks dataLen).foldl
        (chunkTransfer bus quadMode direction cmd paddr addrLen txbuf rxbuf)
        (qspiSwitch quadMode direction state)) :=
  qspiTransferBlock_eq bus quadMode direction cmd paddr addrLen txbuf rxbuf dataLen _

/-- The transaction of one chunk. -/
def chunkTransaction (ctrlr0 : Ctrlr0) (chunk : Nat × Nat) : Transaction :=
  qspiTransaction ctrlr0 quadMode direction cmd (chunkAddr paddr chunk.1) addrLen
    (bufferFrom txbuf chunk.1) chunk.2

/-- The transactions of a list of chunks are carried out in order, under the control
fields that were set before. -/
theorem foldl_chunkTransfer_sent (parts : List (Nat × Nat)) (state : QspiState Device) :
    (parts.foldl (chunkTransfer bus quadMode direction cmd paddr addrLen txbuf rxbuf)
        state).sent =
      state.sent ++ parts.map
        (chunkTransaction quadMode direction cmd paddr addrLen txbuf state.ctrlr0) := by
  induction parts generalizing state with
  | nil => simp
  | cons chunk parts ih =>
      rw [List.foldl_cons, ih]
      have one : (chunkTransfer bus quadMode direction cmd paddr addrLen txbuf rxbuf
          state chunk).sent = state.sent ++
          [chunkTransaction quadMode direction cmd paddr addrLen txbuf state.ctrlr0
            chunk] := rfl
      have kept : (chunkTransfer bus quadMode direction cmd paddr addrLen txbuf rxbuf
          state chunk).ctrlr0 = state.ctrlr0 := rfl
      rw [one, kept, List.map_cons, List.append_assoc, List.singleton_append]

/-- What a block transfer puts on the bus. -/
theorem hwQspiBlock_sent (dataLen : Nat) (state : QspiState Device) :
    (hwQspiBlock bus direction quadMode cmd paddr addrLen txbuf rxbuf dataLen
        state).2.sent =
      state.sent ++ (chunks dataLen).map
        (chunkTransaction quadMode direction cmd paddr addrLen txbuf
          (qspiSwitch quadMode direction state).ctrlr0) := by
  rw [hwQspiBlock_eq]
  exact foldl_chunkTransfer_sent bus quadMode direction cmd paddr addrLen txbuf rxbuf _ _

end Chunks

section Induction

variable {State : Type*} {step : State → Nat × Nat → State} {P : Nat → State → Prop}

/-- What holds of the bytes transferred so far and is kept by each further chunk holds of
the whole request. -/
theorem foldl_chunks_induction {dataLen : Nat}
    (advance : ∀ chunk ∈ chunks dataLen, ∀ state, P chunk.1 state →
      P (chunk.1 + chunk.2) (step state chunk))
    {state : State} (start : P 0 state) :
    P dataLen ((chunks dataLen).foldl step state) := by
  by_cases long : dataLen > qspiFifoMax
  · simp only [chunks, if_pos long] at advance ⊢
    have full : ∀ count ≤ dataLen / qspiFifoMax,
        P (count * qspiFifoMax) (((List.range count).map
          (fun index => (index * qspiFifoMax, qspiFifoMax))).foldl step state) := by
      intro count
      induction count with
      | zero =>
          intro _
          simpa using start
      | succ count ih =>
          intro fits
          have isBlock : (count * qspiFifoMax, qspiFifoMax) ∈
              (List.range (dataLen / qspiFifoMax)).map
                (fun index => (index * qspiFifoMax, qspiFifoMax)) :=
            List.mem_map.mpr ⟨count, List.mem_range.mpr fits, rfl⟩
          rw [List.range_succ, List.map_append, List.foldl_append, Nat.add_mul,
            Nat.one_mul]
          exact advance _ (List.mem_append_left _ isBlock) _ (ih (Nat.le_of_succ_le fits))
    have parts := Nat.div_add_mod dataLen qspiFifoMax
    have blocks := full _ (Nat.le_refl _)
    rw [Nat.mul_comm] at parts
    rw [List.foldl_append]
    by_cases remain : dataLen % qspiFifoMax > 0
    · simp only [if_pos remain] at advance ⊢
      have last := advance _ (List.mem_append_right _ List.mem_cons_self) _ blocks
      rw [parts] at last
      exact last
    · simp only [if_neg remain]
      have whole : dataLen / qspiFifoMax * qspiFifoMax = dataLen := by omega
      rw [whole] at blocks
      exact blocks
  · simp only [chunks, if_neg long] at advance ⊢
    have once := advance _ List.mem_cons_self state start
    rw [Nat.zero_add] at once
    exact once

end Induction

/-- The first chunk of a request starts at its beginning. -/
theorem chunks_eq_cons (dataLen : Nat) :
    ∃ later, chunks dataLen = (0, min qspiFifoMax dataLen) :: later := by
  unfold chunks
  split
  next long =>
    rcases Nat.exists_eq_succ_of_ne_zero
      (Nat.ne_of_gt (Nat.div_pos (Nat.le_of_lt long) (by decide))) with ⟨count, isSucc⟩
    rw [isSucc, List.range_succ_eq_map, Nat.min_eq_left (Nat.le_of_lt long)]
    exact ⟨_, by simp; rfl⟩
  next short => exact ⟨[], by rw [Nat.min_eq_right (Nat.le_of_not_lt short)]⟩

/-- A chunk lies inside its request, and only an empty request has an empty chunk. -/
theorem chunk_bounds {dataLen : Nat} {chunk : Nat × Nat}
    (isChunk : chunk ∈ chunks dataLen) :
    chunk.1 + chunk.2 ≤ dataLen ∧ (0 < dataLen → 0 < chunk.2) := by
  have parts := Nat.div_add_mod dataLen qspiFifoMax
  unfold chunks at isChunk
  split at isChunk
  next long =>
    rcases List.mem_append.mp isChunk with isFull | isRest
    · rcases List.mem_map.mp isFull with ⟨index, below, rfl⟩
      have before : (index + 1) * qspiFifoMax ≤ dataLen / qspiFifoMax * qspiFifoMax :=
        Nat.mul_le_mul_right _ (List.mem_range.mp below)
      rw [Nat.add_mul, Nat.one_mul] at before
      rw [Nat.mul_comm] at parts
      refine ⟨?_, fun _ => Nat.succ_pos _⟩
      simp only
      omega
    · split at isRest
      next remain =>
        rw [List.mem_singleton] at isRest
        subst chunk
        rw [Nat.mul_comm] at parts
        exact ⟨Nat.le_of_eq parts, fun _ => remain⟩
      next => cases isRest
  next =>
    rw [List.mem_singleton] at isChunk
    subst chunk
    exact ⟨by simp, fun positive => positive⟩

end SunWise.Qspi
