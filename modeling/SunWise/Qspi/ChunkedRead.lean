import SunWise.Qspi.Controller

/-!
# Chunked reads

A block read sends one read command per chunk, each with an address of its own.  On a
target that answers a read command with consecutive bytes, the chunks fill the buffer with
what a single command for the whole request would have delivered, in standard mode as well
as in a quad mode.
-/

namespace SunWise.Qspi

open Library

/-- A target that answers the read command `cmd` with the bytes of `flash` from the address
on.  In standard mode a word comes back for every word that is clocked out, and the ones
under the command and the address mean nothing; in a quad mode `CTRLR1` says how many bytes
follow. -/
structure AnswersReads {Device : Type*} (bus : Bus Device) (cmd : UInt8)
    (flash : Nat → UInt8) : Prop where
  standard : ∀ device ctrlr1 high middle low clocked,
    let addr := (ofBigEndian 0 high middle low).toNat
    let answer := (bus.exchange device
      { ctrlr0 := { spiFrf := .spiFrfStandard, tmod := .tmodTxAndRx }
        ctrlr1
        pushes := cmd.toUInt32 :: high.toUInt32 :: middle.toUInt32 :: low.toUInt32 ::
          clocked }).2
    ∀ index < clocked.length, addr + index < 2 ^ 24 →
      answer[1 + 3 + index]?.map UInt32.toUInt8 = some (flash (addr + index))
  quad : ∀ device ctrlr1 addr,
    let answer := (bus.exchange device
      { ctrlr0 := { spiFrf := .spiFrfQuad, tmod := .tmodEepromRead }
        ctrlr1
        pushes := [cmd.toUInt32, addr] }).2
    ∀ index ≤ ctrlr1, addr.toNat + index < 2 ^ 24 →
      answer[index]?.map UInt32.toUInt8 = some (flash (addr.toNat + index))

/-- A call of `HW_QSPI_ReadBlock` with a pointer to an address: the result, what `*paddr`
holds afterwards, and the controller.  The function copies `*paddr` into `addr_local` and
advances only the copy. -/
def hwQspiReadBlockAt {Device : Type*} (bus : Bus Device) (quadMode : QspiMode)
    (cmd : UInt8) (paddr : UInt32) (addrLen : Nat) (txbuf : Option (Nat → UInt8))
    (rxbuf : Option Nat) (dataLen : Nat) (state : QspiState Device) :
    Int × UInt32 × QspiState Device :=
  let (result, state) :=
    hwQspiReadBlock bus quadMode cmd (some paddr) addrLen txbuf rxbuf dataLen state
  (result, paddr, state)

theorem and_mask_eq (word : UInt32) : word &&& 0xff = word.toUInt8.toUInt32 := by
  apply UInt32.toNat_inj.mp
  rw [UInt32.toNat_and, UInt8.toNat_toUInt32, UInt32.toNat_toUInt8]
  exact Nat.and_two_pow_sub_one_eq_mod word.toNat 8

section Reads

variable {Device : Type*} {bus : Bus Device} {cmd : UInt8} {flash : Nat → UInt8}
variable {quadMode : QspiMode} {txbuf : Option (Nat → UInt8)}

theorem ofBigEndian_address {addr : UInt32} (small : addr.toNat < 2 ^ 24) :
    ofBigEndian 0 (addr >>> 16).toUInt8 (addr >>> 8).toUInt8 addr.toUInt8 = addr := by
  have top : (addr >>> 24).toUInt8 = 0 := by
    apply UInt8.toNat_inj.mp
    rw [UInt32.toNat_toUInt8, UInt32.toNat_shiftRight]
    change addr.toNat >>> 24 % 256 = 0
    rw [Nat.shiftRight_eq_div_pow, Nat.div_eq_of_lt small]
  have whole := ofBigEndian_bytes addr
  rwa [top] at whole

theorem dataPushes_standard_length (direction : QspiDirection) (dataLen : Nat) :
    (dataPushes .eQspiModeStandard direction txbuf dataLen).length = dataLen := by
  simp [dataPushes]

/-- One read command copies the bytes it is addressed to. -/
theorem qspiTransfer_reads (answers : AnswersReads bus cmd flash) {addr : UInt32}
    {count : Nat} (buffer : Nat) (fits : addr.toNat + count < 2 ^ 24)
    {state : QspiState Device}
    (control : state.ctrlr0 = (qspiSwitch quadMode .eQspiDirRead state).ctrlr0) :
    (qspiTransfer bus quadMode .eQspiDirRead cmd addr 3 txbuf (some buffer) count
        state).2.rx =
      store state.rx buffer (load flash addr.toNat count) := by
  let transaction := qspiTransaction state.ctrlr0 quadMode .eQspiDirRead cmd addr 3 txbuf
    count
  let answer := (bus.exchange state.device transaction).2
  change store state.rx buffer (receivedBytes quadMode 3 count answer) = _
  congr 1
  have delivered : ∀ index < count,
      answer[(if quadMode = .eQspiModeStandard then 1 + 3 else 0) + index]?.map
        UInt32.toUInt8 = some (flash (addr.toNat + index)) := by
    intro index below
    by_cases isStandard : quadMode = .eQspiModeStandard
    · subst quadMode
      have byte := answers.standard state.device 0 (addr >>> 16).toUInt8
        (addr >>> 8).toUInt8 addr.toUInt8
        (dataPushes .eQspiModeStandard .eQspiDirRead txbuf count) index
        (by rw [dataPushes_standard_length]; exact below)
      rw [ofBigEndian_address (by omega)] at byte
      have sent : transaction =
          { ctrlr0 := { spiFrf := .spiFrfStandard, tmod := .tmodTxAndRx }
            ctrlr1 := 0
            pushes := cmd.toUInt32 :: (addr >>> 16).toUInt8.toUInt32 ::
              (addr >>> 8).toUInt8.toUInt32 :: addr.toUInt8.toUInt32 ::
              dataPushes .eQspiModeStandard .eQspiDirRead txbuf count } := by
        simp only [transaction, qspiTransaction, control, ← and_mask_eq]
        simp [qspiSwitch, qspiCtrlr1, addressPushes]
      rw [if_pos rfl]
      simp only [answer, sent]
      exact byte (by omega)
    · have byte := answers.quad state.device (count - 1) addr index (by omega) (by omega)
      have sent : transaction =
          { ctrlr0 := { spiFrf := .spiFrfQuad, tmod := .tmodEepromRead }
            ctrlr1 := count - 1
            pushes := [cmd.toUInt32, addr] } := by
        simp only [transaction, qspiTransaction, control]
        have positive : count > 0 := by omega
        simp [qspiSwitch, qspiCtrlr1, addressPushes, dataPushes, isStandard, positive]
      rw [if_neg isStandard, Nat.zero_add]
      simp only [answer, sent]
      exact byte
  rw [receivedBytes, load_eq_load_iff]
  intro index below
  have byte := delivered index below
  rw [Option.map_eq_some_iff] at byte
  rcases byte with ⟨word, isAnswer, isByte⟩
  rw [Nat.zero_add, List.getD_eq_getElem?_getD, List.getElem?_drop, isAnswer]
  exact isByte

/-- A block read fills the buffer with the addressed bytes, writes nothing else, leaves the
address as it was, and delivers what a single transfer of the whole request does. -/
theorem hwQspiReadBlock_reads (answers : AnswersReads bus cmd flash) (addr : UInt32)
    (buffer dataLen : Nat) (fits : addr.toNat + dataLen < 2 ^ 24)
    (state : QspiState Device) :
    let after := hwQspiReadBlockAt bus quadMode cmd addr 3 txbuf (some buffer) dataLen state
    let unchunked := qspiTransfer bus quadMode .eQspiDirRead cmd addr 3 txbuf (some buffer)
      dataLen (qspiSwitch quadMode .eQspiDirRead state)
    after.1 = 0 ∧ after.2.1 = addr ∧
      (∀ index < dataLen, after.2.2.rx (buffer + index) = flash (addr.toNat + index)) ∧
      (∀ cell, cell < buffer ∨ buffer + dataLen ≤ cell →
        after.2.2.rx cell = state.rx cell) ∧
      after.2.2.rx = unchunked.2.rx := by
  intro after unchunked
  let switched := qspiSwitch quadMode .eQspiDirRead state
  let copied (done : Nat) (middle : QspiState Device) : Prop :=
    middle.ctrlr0 = switched.ctrlr0 ∧
      middle.rx = store state.rx buffer (load flash addr.toNat done)
  have advance : ∀ chunk ∈ chunks dataLen, ∀ middle, copied chunk.1 middle →
      copied (chunk.1 + chunk.2) (chunkTransfer bus quadMode .eQspiDirRead cmd (some addr)
        3 txbuf (some buffer) middle chunk) := by
    rintro ⟨offset, count⟩ isChunk middle ⟨control, rx⟩
    have inside := (chunk_bounds isChunk).1
    simp only at inside
    have start : (chunkAddr (some addr) offset).toNat = addr.toNat + offset :=
      chunkAddr_toNat addr (by omega)
    refine ⟨control, ?_⟩
    change (qspiTransfer bus quadMode .eQspiDirRead cmd (chunkAddr (some addr) offset) 3
      (bufferFrom txbuf offset) (some (buffer + offset)) count middle).2.rx = _
    rw [qspiTransfer_reads answers (buffer + offset) (by rw [start]; omega) control, rx,
      start, load_add, store_append, load_length]
  have whole : copied dataLen after.2.2 := by
    change copied dataLen (hwQspiBlock bus .eQspiDirRead quadMode cmd (some addr) 3 txbuf
      (some buffer) dataLen state).2
    rw [hwQspiBlock_eq]
    exact foldl_chunks_induction advance ⟨rfl, by simp [qspiSwitch]⟩
  have filled := whole.2
  refine ⟨?_, rfl, ?_, ?_, ?_⟩
  · exact congrArg Prod.fst (hwQspiBlock_eq bus quadMode .eQspiDirRead cmd (some addr) 3
      txbuf (some buffer) dataLen state)
  · intro index below
    rw [filled, store_load_apply, if_pos (by omega), Nat.add_sub_cancel_left]
  · intro cell outside
    rw [filled, store_load_apply, if_neg (by omega)]
  · have once : unchunked.2.rx = store switched.rx buffer (load flash addr.toNat dataLen) :=
      have control : switched.ctrlr0 =
          (qspiSwitch quadMode .eQspiDirRead switched).ctrlr0 := rfl
      qspiTransfer_reads answers buffer fits control
    rw [filled, once]
    rfl

end Reads

/-- A memory that answers the read command 0x03 in either mode. -/
def memoryBus (flash : Nat → UInt8) : Bus Unit where
  exchange device transaction :=
    match transaction.ctrlr0.tmod, transaction.pushes with
    | .tmodTxAndRx, _ :: high :: middle :: low :: clocked =>
        let addr := ofBigEndian 0 high.toUInt8 middle.toUInt8 low.toUInt8
        (device, [0xff, 0xff, 0xff, 0xff] ++
          (load flash addr.toNat clocked.length).map UInt8.toUInt32)
    | .tmodEepromRead, _ :: addr :: _ =>
        (device, (load flash addr.toNat (transaction.ctrlr1 + 1)).map UInt8.toUInt32)
    | _, _ => (device, [])

/-- 70 bytes take three read commands. -/
theorem hwQspiReadBlock_reads_three :
    let flash (address : Nat) : UInt8 := address.toUInt8
    let after := hwQspiReadBlockAt (memoryBus flash) .eQspiModeStandard 0x03 1000 3 none
      (some 16) 70 idleState
    after.1 = 0 ∧ after.2.1 = 1000 ∧
      ∀ index < 70, after.2.2.rx (16 + index) = flash (1000 + index) := by
  intro flash after
  have answers : AnswersReads (memoryBus flash) 0x03 flash := by
    constructor
    · intro device ctrlr1 high middle low clocked addr answer index below _
      simp [answer, memoryBus, load, below, addr, Nat.add_comm 4 index]
    · intro device ctrlr1 addr answer index below _
      simp [answer, memoryBus, load, Nat.lt_succ_of_le below]
  have reads := @hwQspiReadBlock_reads _ _ _ _ .eQspiModeStandard none answers 1000 16 70
    (by decide) idleState
  rcases reads with ⟨result, kept, filled, -⟩
  exact ⟨result, kept, filled⟩

end SunWise.Qspi
