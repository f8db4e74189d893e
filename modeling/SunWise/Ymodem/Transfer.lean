import SunWise.Library.Crc
import SunWise.Ymodem.Task

/-!
# A complete transfer

The bytes of a conforming sender, the effect of the task's FatFs calls on a volume, and
the file that `Ymodem_ReceiveTask` leaves when the two meet over a noiseless line.

The receiver stores every data packet at its full packet length.  It never reads the
size that the header announces, so the padding of the last packet becomes part of the
file.
-/

namespace SunWise.Ymodem

/-- Filler of the last data packet. -/
def padByte : UInt8 := 0x1A

/-- Decimal digits as the header carries them. -/
def decimal (number : Nat) : List UInt8 :=
  (Nat.toDigits 10 number).map fun digit => UInt8.ofNat digit.toNat

/-- `kinds` are the formats of the data packets for `content`: each packet carries at
least one byte of it, and all but the last are full. -/
def Splits : List PacketKind → List UInt8 → Prop
  | [], content => content = []
  | kind :: kinds, content => content ≠ [] ∧ Splits kinds (content.drop kind.size)

instance Splits.decidable : (kinds : List PacketKind) → (content : List UInt8) →
    Decidable (Splits kinds content)
  | [], content => inferInstanceAs (Decidable (content = []))
  | kind :: kinds, content =>
      have := Splits.decidable kinds (content.drop kind.size)
      inferInstanceAs (Decidable (content ≠ [] ∧ Splits kinds (content.drop kind.size)))

/-- A file to be sent, with the formats the sender chose for its packets. -/
structure Upload where
  name : List UInt8
  content : List UInt8
  headerKind : PacketKind
  kinds : List PacketKind
  nulFree : ∀ byte ∈ name, byte ≠ 0
  headerFits : name.length + 1 + (decimal content.length).length ≤ headerKind.size
  splits : Splits kinds content

/-- A packet with its correct complement and check value. -/
def sealedPacket (kind : PacketKind) (index : UInt8) (payload : List UInt8) : Frame :=
  let crc := Library.Crc.msbFirst (0x1021#16) 0 payload
  .packet kind index (255 - index) payload
    (UInt8.ofNat (crc.toNat / 256)) (UInt8.ofNat (crc.toNat % 256))

/-- Data block of a packet: the bytes to be carried, filled up to the packet length. -/
def dataBlock (kind : PacketKind) (chunk : List UInt8) : List UInt8 :=
  chunk ++ List.replicate (kind.size - chunk.length) padByte

/-- Data packets from sequence number `number` on. -/
def dataFrames : Nat → List PacketKind → List UInt8 → List Frame
  | _, [], _ => []
  | number, kind :: kinds, content =>
      sealedPacket kind (UInt8.ofNat number) (dataBlock kind (content.take kind.size)) ::
        dataFrames (number + 1) kinds (content.drop kind.size)

namespace Upload

/-- Data block of packet 0: the name, its NUL, the decimal size and NULs. -/
def headerBlock (upload : Upload) : List UInt8 :=
  let text := upload.name ++ 0 :: decimal upload.content.length
  text ++ List.replicate (upload.headerKind.size - text.length) 0

/-- Everything the sender puts on the line. -/
def transmission (upload : Upload) : List UInt8 :=
  (sealedPacket upload.headerKind 0 upload.headerBlock).bytes ++
    ((dataFrames 1 upload.kinds upload.content).flatMap Frame.bytes ++
      (Frame.single rymCodeEot).bytes)

/-- Number of filler bytes in the data packets. -/
def padding (upload : Upload) : Nat :=
  (upload.kinds.map PacketKind.size).sum - upload.content.length

end Upload

/-- A FatFs volume as the task uses it: the stored files and the object `m_fobj`, which
is open on a name with the bytes written so far. -/
structure Volume where
  files : List UInt8 → Option (List UInt8)
  fobj : Option (List UInt8 × List UInt8)

namespace Volume

/-- Effect of one event. `FA_CREATE_ALWAYS` truncates on a successful open; writing and
closing need an open object. -/
def apply (volume : Volume) : RymEvent → Volume
  | .fOpen name .frOk =>
      { files := Function.update volume.files name (some []), fobj := some (name, []) }
  | .fWrite data =>
      { volume with fobj := volume.fobj.map fun (name, written) => (name, written ++ data) }
  | .fClose =>
      match volume.fobj with
      | none => volume
      | some (name, written) =>
          { files := Function.update volume.files name (some written), fobj := none }
  | _ => volume

/-- Effect of a trace. -/
def replay (volume : Volume) (trace : List RymEvent) : Volume :=
  trace.foldl apply volume

end Volume

theorem complement_disjoint (index : UInt8) : index &&& (255 - index) = 0 := by
  apply UInt8.toBitVec_inj.mp
  have complement : (255 : BitVec 8) - index.toBitVec = ~~~index.toBitVec :=
    BitVec.allOnes_sub_eq_not _
  calc (index &&& (255 - index)).toBitVec
      = index.toBitVec &&& (255 - index.toBitVec) := rfl
    _ = 0 := by rw [complement, BitVec.and_not_self]

theorem sealedPacket_wellFormed {kind : PacketKind} (index : UInt8)
    {payload : List UInt8} (complete : payload.length = kind.size) :
    (sealedPacket kind index payload).WellFormed :=
  ⟨complement_disjoint index, complete⟩

theorem dataBlock_length (kind : PacketKind) (content : List UInt8) :
    (dataBlock kind (content.take kind.size)).length = kind.size := by
  simp only [dataBlock, List.length_append, List.length_take, List.length_replicate]
  omega

theorem headerBlock_length (upload : Upload) :
    upload.headerBlock.length = upload.headerKind.size := by
  have fits := upload.headerFits
  simp only [Upload.headerBlock, List.length_append, List.length_cons,
    List.length_replicate]
  omega

/-- The data blocks of all packets, one after the other. -/
def dataBlocks : List PacketKind → List UInt8 → List UInt8
  | [], _ => []
  | kind :: kinds, content =>
      dataBlock kind (content.take kind.size) ++
        dataBlocks kinds (content.drop kind.size)

theorem splits_nil {kinds : List PacketKind} (splits : Splits kinds []) :
    kinds = [] := by
  cases kinds with
  | nil => rfl
  | cons kind kinds => exact absurd rfl splits.1

/-- All packets but the last are full, so the blocks are the file followed by the
filler of the last one. -/
theorem dataBlocks_eq {kinds : List PacketKind} {content : List UInt8}
    (splits : Splits kinds content) :
    dataBlocks kinds content = content ++
      List.replicate ((kinds.map PacketKind.size).sum - content.length) padByte := by
  induction kinds generalizing content with
  | nil =>
      rw [show content = [] from splits]
      rfl
  | cons kind kinds ih =>
      have rest := ih splits.2
      simp only [dataBlocks, rest, dataBlock, List.map_cons, List.sum_cons,
        List.length_take, List.length_drop]
      rcases Nat.le_total content.length kind.size with last | full
      · have noMore : content.drop kind.size = [] := List.drop_eq_nil_of_le last
        have noKinds : kinds = [] := splits_nil (noMore ▸ splits.2)
        subst noKinds
        simp [noMore, List.take_of_length_le last, Nat.min_eq_right last]
      · have count : kind.size + (kinds.map PacketKind.size).sum - content.length =
            (kinds.map PacketKind.size).sum - (content.length - kind.size) := by omega
        rw [Nat.min_eq_left full, Nat.sub_self, count]
        simp [← List.append_assoc]

theorem padding_lt (upload : Upload) : upload.padding < rymPacket1kSize := by
  have bound : ∀ (kinds : List PacketKind) (content : List UInt8),
      Splits kinds content →
      (kinds.map PacketKind.size).sum < content.length + rymPacket1kSize := by
    intro kinds
    induction kinds with
    | nil =>
        intro content _
        simp
    | cons kind kinds ih =>
        intro content splits
        have nonempty := List.length_pos_of_ne_nil splits.1
        have sizeBound := kind.size_le
        rcases Nat.le_total content.length kind.size with last | full
        · have noMore : content.drop kind.size = [] := List.drop_eq_nil_of_le last
          have noKinds : kinds = [] := splits_nil (noMore ▸ splits.2)
          subst noKinds
          simp only [rymPacket1kSize, List.map_cons, List.map_nil, List.sum_cons,
            List.sum_nil] at sizeBound ⊢
          omega
        · have rest := ih _ splits.2
          simp only [List.length_drop, List.map_cons, List.sum_cons] at rest ⊢
          omega
  have total := bound upload.kinds upload.content upload.splits
  simp only [rymPacket1kSize] at total
  simp only [Upload.padding, rymPacket1kSize]
  omega

/-! ## The run -/

/-- The bytes the task puts on the line. -/
def sentBytes (trace : List RymEvent) : List UInt8 :=
  trace.filterMap fun
    | .sendByte byte => some byte
    | _ => none

/-- Append to the open object. -/
def Volume.append (volume : Volume) (data : List UInt8) : Volume :=
  { volume with fobj := volume.fobj.map fun (name, written) => (name, written ++ data) }

@[simp] theorem Volume.append_nil (volume : Volume) : volume.append [] = volume := by
  rcases volume with ⟨files, _ | ⟨name, written⟩⟩ <;> simp [Volume.append]

@[simp] theorem Volume.append_append (volume : Volume) (left right : List UInt8) :
    (volume.append left).append right = volume.append (left ++ right) := by
  rcases volume with ⟨files, _ | ⟨name, written⟩⟩ <;> simp [Volume.append]

@[simp] theorem Volume.replay_append (volume : Volume) (left right : List RymEvent) :
    volume.replay (left ++ right) = (volume.replay left).replay right := by
  simp [Volume.replay]

@[simp] theorem sentBytes_append (left right : List RymEvent) :
    sentBytes (left ++ right) = sentBytes left ++ sentBytes right := by
  simp [sentBytes]

@[simp] theorem Volume.replay_arrivalOf (volume : Volume) (state : TaskState)
    (frame : Frame) : volume.replay (arrivalOf state frame) = volume := rfl

@[simp] theorem sentBytes_arrivalOf (state : TaskState) (frame : Frame) :
    sentBytes (arrivalOf state frame) = [state.ui8NextAckData] := rfl

theorem taskLoop_sealedPacket (fOpen : List UInt8 → FResult) (state : TaskState)
    (kind : PacketKind) (index : UInt8) {payload : List UInt8} (rest : List UInt8)
    (isData : state.bHaveRecvedHeader = true) (complete : payload.length = kind.size) :
    taskLoop fOpen state ((sealedPacket kind index payload).bytes ++ rest) =
      (taskLoop fOpen
        { mRymCtx := (sealedPacket kind index payload).load state.mRymCtx
          ui8NextAckData := rymCodeAck, bHaveRecvedHeader := true } rest).after
        (arrivalOf state (sealedPacket kind index payload) ++ [.fWrite payload]) :=
  taskLoop_data fOpen state rest isData (sealedPacket_wellFormed index complete)

/-- The data packets, from any state in which the header has been received: every one
is acknowledged and its block is appended to the open file. -/
theorem taskLoop_dataFrames (fOpen : List UInt8 → FResult) (kinds : List PacketKind)
    (number : Nat) (content : List UInt8) (state : TaskState)
    (isData : state.bHaveRecvedHeader = true)
    (acknowledges : state.ui8NextAckData = rymCodeAck) :
    ∃ (next : TaskState) (events : List RymEvent),
      next.bHaveRecvedHeader = true ∧ next.ui8NextAckData = rymCodeAck ∧
      (∀ rest, taskLoop fOpen state
          ((dataFrames number kinds content).flatMap Frame.bytes ++ rest) =
        (taskLoop fOpen next rest).after events) ∧
      (∀ volume : Volume,
        volume.replay events = volume.append (dataBlocks kinds content)) ∧
      sentBytes events = List.replicate kinds.length rymCodeAck := by
  induction kinds generalizing number content state with
  | nil =>
      refine ⟨state, [], isData, acknowledges, ?_, ?_, rfl⟩
      · intro rest
        rfl
      · intro volume
        rw [dataBlocks, Volume.append_nil]
        rfl
  | cons kind kinds ih =>
      let frame := sealedPacket kind (UInt8.ofNat number)
        (dataBlock kind (content.take kind.size))
      rcases ih (number + 1) (content.drop kind.size)
          { mRymCtx := frame.load state.mRymCtx, ui8NextAckData := rymCodeAck
            bHaveRecvedHeader := true } rfl rfl with
        ⟨next, events, nextIsData, nextAcknowledges, runs, stores, answers⟩
      refine ⟨next, arrivalOf state frame ++
        [.fWrite (dataBlock kind (content.take kind.size))] ++ events,
        nextIsData, nextAcknowledges, ?_, ?_, ?_⟩
      · intro rest
        simp only [dataFrames, List.flatMap_cons, List.append_assoc]
        rw [taskLoop_sealedPacket fOpen state kind _ _ isData
          (dataBlock_length kind content), runs rest]
        simp [TaskRun.after, frame]
      · intro volume
        simp only [Volume.replay_append, Volume.replay_arrivalOf, stores, dataBlocks]
        rw [← Volume.append_append]
        rfl
      · simp only [sentBytes_append, sentBytes_arrivalOf, answers, acknowledges,
          List.length_cons, List.replicate_succ]
        rfl

/-- Packet 0 of an upload opens the file under the announced name. -/
theorem taskLoop_uploadHeader (fOpen : List UInt8 → FResult) (upload : Upload)
    (state : TaskState) (rest : List UInt8) (noHeader : state.bHaveRecvedHeader = false)
    (opens : fOpen upload.name = .frOk) :
    let frame := sealedPacket upload.headerKind 0 upload.headerBlock
    taskLoop fOpen state (frame.bytes ++ rest) =
      (taskLoop fOpen
        { mRymCtx := frame.load state.mRymCtx, ui8NextAckData := rymCodeAck
          bHaveRecvedHeader := true } rest).after
        (arrivalOf state frame ++ [.fOpen upload.name .frOk]) := by
  intro frame
  have block : upload.headerBlock = upload.name ++ 0 :: (decimal upload.content.length ++
      List.replicate (upload.headerKind.size -
        (upload.name ++ 0 :: decimal upload.content.length).length) 0) := by
    simp [Upload.headerBlock]
  have name : (frame.load state.mRymCtx).headerString = upload.name := by
    have length := headerBlock_length upload
    simp only [frame, sealedPacket]
    rw [block] at length ⊢
    exact headerString_load state.mRymCtx upload.nulFree length
  have received : taskLoop fOpen state (frame.bytes ++ rest) =
      if fOpen (frame.load state.mRymCtx).headerString = .frOk then
        (taskLoop fOpen
          { mRymCtx := frame.load state.mRymCtx, ui8NextAckData := rymCodeAck
            bHaveRecvedHeader := true } rest).after
          (arrivalOf state frame ++ [.fOpen (frame.load state.mRymCtx).headerString
            (fOpen (frame.load state.mRymCtx).headerString)])
      else
        ⟨arrivalOf state frame ++ [.fOpen (frame.load state.mRymCtx).headerString
          (fOpen (frame.load state.mRymCtx).headerString)] ++ [.fClose], some rest⟩ :=
    taskLoop_header fOpen state rest noHeader
      (sealedPacket_wellFormed 0 (headerBlock_length upload))
  rw [received, name, opens, if_pos rfl]

/-- The whole run over an upload. Without the ten bytes after the end of the transfer
the task keeps waiting with the object still open. -/
theorem ymodemReceiveTask_transmission (fOpen : List UInt8 → FResult) (upload : Upload)
    (mRymCtx : YmodemCtx) (tail : List UInt8) (volume : Volume)
    (opens : fOpen upload.name = .frOk) :
    let run := ymodemReceiveTask fOpen mRymCtx (upload.transmission ++ tail)
    let stored := upload.content ++ List.replicate upload.padding padByte
    sentBytes run.trace = rymCodeCrc ::
      (List.replicate (upload.kinds.length + 1) rymCodeAck ++
        List.replicate 6 rymCodeCan) ∧
    (10 ≤ tail.length → run.rest = some (tail.drop 10) ∧
      volume.replay run.trace =
        { files := Function.update volume.files upload.name (some stored)
          fobj := none }) ∧
    (tail.length < 10 → run.rest = none ∧
      volume.replay run.trace =
        { files := Function.update volume.files upload.name (some [])
          fobj := some (upload.name, stored) }) := by
  intro run stored
  let start : TaskState :=
    { mRymCtx := { mRymCtx with eRymState := .eRymInit }
      ui8NextAckData := rymCodeCrc, bHaveRecvedHeader := false }
  let frame := sealedPacket upload.headerKind 0 upload.headerBlock
  rcases taskLoop_dataFrames fOpen upload.kinds 1 upload.content
      { mRymCtx := frame.load start.mRymCtx, ui8NextAckData := rymCodeAck
        bHaveRecvedHeader := true } rfl rfl with
    ⟨next, events, -, nextAcknowledges, runs, stores, answers⟩
  have runEq : run = ((taskLoop fOpen next ((Frame.single rymCodeEot).bytes ++
      tail)).after events).after
        (arrivalOf start frame ++ [.fOpen upload.name .frOk]) := by
    simp only [run, ymodemReceiveTask, Upload.transmission, List.append_assoc]
    rw [taskLoop_uploadHeader fOpen upload start _ rfl opens, runs]
  have storedEq : dataBlocks upload.kinds upload.content = stored :=
    dataBlocks_eq upload.splits
  have opened : ∀ before : Volume, before.replay
      (arrivalOf start frame ++ [.fOpen upload.name .frOk]) =
        { files := Function.update before.files upload.name (some [])
          fobj := some (upload.name, []) } := by
    intro before
    rw [Volume.replay_append, Volume.replay_arrivalOf]
    rfl
  have ending := taskLoop_eot fOpen next tail
  refine ⟨?_, ?_, ?_⟩
  · have cancels : sentBytes (List.replicate 6 (.sendByte rymCodeCan)) =
        List.replicate 6 rymCodeCan := rfl
    have openEvent : sentBytes [.fOpen upload.name .frOk] = [] := rfl
    have counts : List.replicate (upload.kinds.length + 1) rymCodeAck =
        List.replicate upload.kinds.length rymCodeAck ++ [rymCodeAck] :=
      List.replicate_succ'
    rw [runEq, ending, counts]
    split <;>
    · simp only [TaskRun.after, sentBytes_append, sentBytes_arrivalOf, answers,
        nextAcknowledges, cancels, openEvent, List.append_assoc, List.nil_append]
      rfl
  · intro enough
    rw [runEq, ending, if_pos enough]
    refine ⟨rfl, ?_⟩
    simp only [TaskRun.after, Volume.replay_append, opened, stores, storedEq,
      Volume.replay_arrivalOf, Volume.append, Option.map_some, List.nil_append]
    simp [Volume.replay, Volume.apply, finishTexts]
  · intro short
    rw [runEq, ending, if_neg (Nat.not_le_of_lt short)]
    refine ⟨rfl, ?_⟩
    simp only [TaskRun.after, Volume.replay_append, opened, stores, storedEq,
      Volume.replay_arrivalOf, Volume.append, Option.map_some, List.nil_append]
    simp [Volume.replay, Volume.apply]

/-- The stored file is the sent file followed by the filler of its last data packet.
All packets are acknowledged, and the end of the transfer is answered with six CAN. The file is
complete on the volume once ten bytes have followed; until then the object is open and has been
handed the same bytes. -/
theorem receive_stores_padded_file (fOpen : List UInt8 → FResult) (upload : Upload)
    (mRymCtx : YmodemCtx) (tail : List UInt8) (volume : Volume)
    (opens : fOpen upload.name = .frOk) :
    let run := ymodemReceiveTask fOpen mRymCtx (upload.transmission ++ tail)
    let after := volume.replay run.trace
    let stored := upload.content ++ List.replicate upload.padding padByte
    sentBytes run.trace = rymCodeCrc ::
      (List.replicate (upload.kinds.length + 1) rymCodeAck ++
        List.replicate 6 rymCodeCan) ∧
    (10 ≤ tail.length → run.rest = some (tail.drop 10) ∧
      after.files upload.name = some stored ∧ after.fobj = none) ∧
    (tail.length < 10 → run.rest = none ∧ after.fobj = some (upload.name, stored)) ∧
    (∀ name, name ≠ upload.name → after.files name = volume.files name) ∧
    upload.padding < rymPacket1kSize ∧
    (stored = upload.content ↔ upload.padding = 0) := by
  intro run after stored
  rcases ymodemReceiveTask_transmission fOpen upload mRymCtx tail volume opens with
    ⟨answers, closes, waits⟩
  refine ⟨answers, ?_, ?_, ?_, padding_lt upload, ?_⟩
  · intro enough
    rcases closes enough with ⟨returned, replayed⟩
    refine ⟨returned, ?_, ?_⟩
    · simp only [after, run, replayed, Function.update_self, stored]
    · simp only [after, run, replayed]
  · intro short
    rcases waits short with ⟨waiting, replayed⟩
    refine ⟨waiting, ?_⟩
    simp only [after, run, replayed, stored]
  · intro name other
    rcases Nat.lt_or_ge tail.length 10 with short | enough
    · simp only [after, run, (waits short).2, Function.update_of_ne other]
    · simp only [after, run, (closes enough).2, Function.update_of_ne other]
  · simp [stored]

/-- A file of one byte, sent in one packet of 128 bytes. -/
def oneByteUpload : Upload where
  name := [0x61]
  content := [0x41]
  headerKind := .soh
  kinds := [.soh]
  nulFree := by simp
  headerFits := by decide
  splits := by decide

theorem receive_stores_padded_oneByte :
    let run := ymodemReceiveTask (fun _ => .frOk) YmodemCtx.init
      (oneByteUpload.transmission ++ List.replicate 10 0)
    let after := Volume.replay ⟨fun _ => none, none⟩ run.trace
    after.files oneByteUpload.name = some (oneByteUpload.content ++
      List.replicate oneByteUpload.padding padByte) ∧ oneByteUpload.padding = 127 := by
  have result := receive_stores_padded_file (fun _ => .frOk) oneByteUpload
    YmodemCtx.init (List.replicate 10 0) ⟨fun _ => none, none⟩ rfl
  exact ⟨(result.2.1 (by decide)).2.1, rfl⟩

/-- One byte is sent and announced, and 128 bytes are stored. -/
theorem receive_stores_not_exact :
    let run := ymodemReceiveTask (fun _ => .frOk) YmodemCtx.init
      (oneByteUpload.transmission ++ List.replicate 10 0)
    let after := Volume.replay ⟨fun _ => none, none⟩ run.trace
    after.files oneByteUpload.name ≠ some oneByteUpload.content := by
  intro run after stored
  rcases ymodemReceiveTask_transmission (fun _ => .frOk) oneByteUpload YmodemCtx.init
      (List.replicate 10 0) ⟨fun _ => none, none⟩ rfl with ⟨-, closes, -⟩
  have replayed := (closes (by decide)).2
  simp only [after, run, replayed, Function.update_self, Option.some.injEq] at stored
  have lengths := congrArg List.length stored
  simp [oneByteUpload, Upload.padding, PacketKind.size] at lengths

end SunWise.Ymodem
