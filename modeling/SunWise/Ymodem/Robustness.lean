import SunWise.Library.Runs
import SunWise.Ymodem.Task

/-!
# What may be written and acknowledged

The receive task writes and acknowledges every packet it is handed: neither the verdict
`eRymState` of `YmodemRecvPacket` nor the sequence number `ui8Index` is consulted again
once the file has been opened.  A run is therefore robust for one kind of line only, the
line on which every packet arrives accepted and in sequence.
-/

namespace SunWise.Ymodem

open Library

/-- What a trace has said so far: the verdict on the last packet, the number and the
verdict of a packet that has not been used yet, and how many packets have been used, the
header for its name or a data packet for its bytes. -/
structure History where
  verdict : Option RymState
  unused : Option (UInt8 × RymState)
  used : Nat

namespace History

def start : History := ⟨none, none, 0⟩

/-- The history after a packet has been used. -/
def spend (history : History) : History :=
  { history with unused := none, used := history.used + 1 }

def next (history : History) : RymEvent → History
  | .packetEnd _ ui8Index eRymState =>
      { history with verdict := some eRymState, unused := some (ui8Index, eRymState) }
  | .fOpen _ _ => history.spend
  | .fWrite _ => history.spend
  | _ => history

/-- A write needs an accepted packet that has the next sequence number and has not been
written before; an acknowledgement must not answer a failed packet. -/
def Permits (history : History) : RymEvent → Prop
  | .fWrite _ => history.unused = some (UInt8.ofNat history.used, .eRymDone)
  | .sendByte byte => byte = rymCodeAck → history.verdict ≠ some .eRymFail
  | _ => True

end History

/-- Every event of the trace is permitted by the events before it. -/
def Robust (trace : List RymEvent) : Prop :=
  ∀ before event after, trace = before ++ event :: after →
    (before.foldl History.next History.start).Permits event

/-- The frames a line delivers, in order. -/
def framesOf (line : List UInt8) : List Frame :=
  match _cut : Frame.split line with
  | none => []
  | some (frame, rest) => frame :: framesOf rest
termination_by line.length
decreasing_by exact Frame.split_length _cut

/-- The check value of the packet agrees with its data. -/
def Accepted (payload : List UInt8) (first second : UInt8) : Prop :=
  ymodemCrc16 payload = recvCrc first second

/-- Up to the end of the transfer every packet is accepted and carries the next sequence
number; `none` waits for the header. -/
def InOrder : Option Nat → List Frame → Prop
  | _, [] => True
  | number, .single byte :: frames => byte = rymCodeEot ∨ InOrder number frames
  | _, .broken _ _ _ :: _ => False
  | number, .packet _ index _ payload first second :: frames =>
      index = UInt8.ofNat (number.getD 0) ∧ Accepted payload first second ∧
        InOrder (some (number.getD 0 + 1)) frames

theorem framesOf_none {line : List UInt8} (cut : Frame.split line = none) :
    framesOf line = [] := by
  rw [framesOf]
  split
  next => rfl
  next isSome =>
    rw [cut] at isSome
    cases isSome

theorem framesOf_some {line rest : List UInt8} {frame : Frame}
    (cut : Frame.split line = some (frame, rest)) :
    framesOf line = frame :: framesOf rest := by
  rw [framesOf]
  split
  next isNone =>
    rw [cut] at isNone
    cases isNone
  next isSome =>
    rw [cut] at isSome
    cases isSome
    rfl

theorem robust_iff_accepts (trace : List RymEvent) :
    Robust trace ↔ Accepts History.next History.Permits History.start trace :=
  (accepts_iff History.start trace).symm

/-- What the monitor and the task agree on between two turns: the pending answer is
permitted, and the header is the first packet that is used. -/
structure Synchronous (history : History) (state : TaskState) (number : Option Nat) :
    Prop where
  answer : history.Permits (.sendByte state.ui8NextAckData)
  header : state.bHaveRecvedHeader = number.isSome
  used : history.used = number.getD 0

section Turns

variable {history : History} {state : TaskState} {number : Option Nat}

/-- The history once a frame has arrived. -/
def History.arrived (history : History) (state : TaskState) (frame : Frame) : History :=
  let ctx := frame.load state.mRymCtx
  { history with
    verdict := some ctx.eRymState
    unused := some (ctx.ui8Index, ctx.eRymState) }

/-- The start of a turn is permitted; the packet becomes the last one. -/
theorem accepts_arrival (synchronous : Synchronous history state number)
    (frame : Frame) (events : List RymEvent) :
    Accepts History.next History.Permits history (arrivalOf state frame ++ events) ↔
      Accepts History.next History.Permits (history.arrived state frame) events := by
  rw [accepts_append]
  simp only [arrivalOf, accepts_cons, accepts_nil, List.foldl_cons, List.foldl_nil,
    and_true]
  constructor
  · rintro ⟨-, later⟩
    exact later
  · intro later
    exact ⟨⟨synchronous.answer, trivial⟩, later⟩

theorem robust_waiting (fOpen : List UInt8 → FResult) {line : List UInt8}
    (cut : Frame.split line = none) (synchronous : Synchronous history state number) :
    Accepts History.next History.Permits history (taskLoop fOpen state line).trace := by
  rw [taskLoop_waiting fOpen state cut]
  exact ⟨synchronous.answer, trivial⟩

/-- The answer that opens the next turn is part of every run. -/
theorem answer_permitted (fOpen : List UInt8 → FResult) {line : List UInt8}
    (accepts : Accepts History.next History.Permits history
      (taskLoop fOpen state line).trace) :
    history.Permits (.sendByte state.ui8NextAckData) := by
  cases cut : Frame.split line with
  | none =>
      rw [taskLoop_waiting fOpen state cut] at accepts
      exact accepts.1
  | some arrived =>
      rcases arrived with ⟨frame, rest⟩
      rw [taskLoop_frame fOpen state cut] at accepts
      cases responded :
          respond fOpen { state with mRymCtx := frame.load state.mRymCtx } rest with
      | waiting events =>
          simp only [responded, arrivalOf, List.cons_append] at accepts
          exact accepts.1
      | completed events next bHaveRecvedEOT left =>
          cases bHaveRecvedEOT with
          | true =>
              simp only [responded, if_true, arrivalOf, List.cons_append] at accepts
              exact accepts.1
          | false =>
              simp only [responded, Bool.false_eq_true, if_false, TaskRun.after,
                arrivalOf, List.cons_append] at accepts
              exact accepts.1

theorem accepts_eot (fOpen : List UInt8 → FResult)
    (synchronous : Synchronous history state number) (rest : List UInt8) :
    Accepts History.next History.Permits history
      (taskLoop fOpen state ((Frame.single rymCodeEot).bytes ++ rest)).trace := by
  have cancels : ∀ count (later : History) (events : List RymEvent),
      Accepts History.next History.Permits later events →
      Accepts History.next History.Permits later
        (List.replicate count (RymEvent.sendByte rymCodeCan) ++ events) := by
    intro count later events accepts
    induction count with
    | zero => simpa using accepts
    | succ count ih =>
        refine ⟨?_, ih⟩
        intro isAck
        cases isAck
  rw [taskLoop_eot]
  split
  · simp only [List.append_assoc]
    rw [accepts_arrival synchronous]
    apply cancels
    simp [finishTexts, History.Permits]
  · simp only
    rw [accepts_arrival synchronous]
    simpa using cancels 6 (history.arrived state (.single rymCodeEot)) []
      (accepts_nil _)

/-- Any other byte between packets changes nothing. -/
theorem accepts_single_iff (fOpen : List UInt8 → FResult) {byte : UInt8}
    (synchronous : Synchronous history state number) (rest : List UInt8)
    (wf : (Frame.single byte).WellFormed) (notEnd : byte ≠ rymCodeEot) :
    Accepts History.next History.Permits history
        (taskLoop fOpen state ((Frame.single byte).bytes ++ rest)).trace ↔
      Accepts History.next History.Permits (history.arrived state (.single byte))
        (taskLoop fOpen
          { state with mRymCtx := (Frame.single byte).load state.mRymCtx }
          rest).trace := by
  rw [taskLoop_single fOpen state rest wf notEnd]
  exact accepts_arrival synchronous _ _

/-- A packet that is written must be accepted and next in sequence. -/
theorem accepts_write_iff (fOpen : List UInt8 → FResult) {line rest : List UInt8}
    {frame : Frame} (synchronous : Synchronous history state number)
    (cut : Frame.split line = some (frame, rest))
    (starts : (frame.load state.mRymCtx).ui8Code = rymCodeSoh ∨
      (frame.load state.mRymCtx).ui8Code = rymCodeStx)
    (isData : state.bHaveRecvedHeader = true ∨
      (frame.load state.mRymCtx).ui8Index ≠ 0) :
    Accepts History.next History.Permits history (taskLoop fOpen state line).trace ↔
      ((frame.load state.mRymCtx).ui8Index = UInt8.ofNat history.used ∧
        (frame.load state.mRymCtx).eRymState = .eRymDone) ∧
      Accepts History.next History.Permits
        (history.arrived state frame).spend
        (taskLoop fOpen
          { state with
            mRymCtx := frame.load state.mRymCtx, ui8NextAckData := rymCodeAck }
          rest).trace := by
  rw [taskLoop_write fOpen state cut starts isData]
  simp only [TaskRun.after, List.append_assoc]
  rw [accepts_arrival synchronous]
  simp [History.Permits, History.arrived, History.next, History.spend]

/-- The header is used when its file can be opened; otherwise the run ends. -/
theorem accepts_header_iff (fOpen : List UInt8 → FResult) {kind : PacketKind}
    {complement first second : UInt8} {payload : List UInt8}
    (synchronous : Synchronous history state number) (rest : List UInt8)
    (noHeader : state.bHaveRecvedHeader = false)
    (wf : (Frame.packet kind 0 complement payload first second).WellFormed) :
    let frame := Frame.packet kind 0 complement payload first second
    let ctx := frame.load state.mRymCtx
    Accepts History.next History.Permits history
        (taskLoop fOpen state (frame.bytes ++ rest)).trace ↔
      (fOpen ctx.headerString = .frOk →
        Accepts History.next History.Permits
          (history.arrived state frame).spend
          (taskLoop fOpen
            { mRymCtx := ctx, ui8NextAckData := rymCodeAck, bHaveRecvedHeader := true }
            rest).trace) := by
  intro frame ctx
  rw [taskLoop_header fOpen state rest noHeader wf]
  by_cases opens : fOpen ctx.headerString = .frOk
  · rw [if_pos opens]
    simp only [TaskRun.after, List.append_assoc]
    rw [accepts_arrival synchronous]
    simp [History.Permits, History.next, opens, ctx, frame]
  · rw [if_neg opens]
    simp only [List.append_assoc]
    rw [accepts_arrival synchronous]
    simp [History.Permits, opens, ctx]

end Turns

/-! ## Whole runs -/

section Runs

variable {history : History} {state : TaskState} {number : Option Nat}

theorem Synchronous.arrived (synchronous : Synchronous history state number)
    (byte : UInt8) :
    Synchronous (history.arrived state (.single byte))
      { state with mRymCtx := (Frame.single byte).load state.mRymCtx } number where
  answer := by simp [History.Permits, History.arrived, Frame.load]
  header := synchronous.header
  used := synchronous.used

/-- After an accepted packet has been used, both sides count it. -/
theorem Synchronous.packet {frame : Frame}
    (synchronous : Synchronous history state number)
    (isDone : (frame.load state.mRymCtx).eRymState = .eRymDone) :
    Synchronous (history.arrived state frame).spend
      { mRymCtx := frame.load state.mRymCtx, ui8NextAckData := rymCodeAck
        bHaveRecvedHeader := true } (some (number.getD 0 + 1)) where
  answer := by simp [History.Permits, History.arrived, History.spend, isDone]
  header := rfl
  used := by simp [History.arrived, History.spend, synchronous.used]

theorem load_packet_done_iff (kind : PacketKind) (index complement : UInt8)
    {first second : UInt8} {payload : List UInt8} (ctx : YmodemCtx) :
    ((Frame.packet kind index complement payload first second).load ctx).eRymState =
      .eRymDone ↔ Accepted payload first second := by
  simp [Frame.load, Accepted]

theorem load_packet_starts {kind : PacketKind}
    (index complement first second : UInt8) (payload : List UInt8) (ctx : YmodemCtx) :
    let next := (Frame.packet kind index complement payload first second).load ctx
    next.ui8Code = rymCodeSoh ∨ next.ui8Code = rymCodeStx := by
  cases kind
  · exact Or.inl rfl
  · exact Or.inr rfl

/-- On a line that is in order, every run is robust. -/
theorem accepts_of_inOrder (fOpen : List UInt8 → FResult) {line : List UInt8}
    (synchronous : Synchronous history state number)
    (inOrder : InOrder number (framesOf line)) :
    Accepts History.next History.Permits history (taskLoop fOpen state line).trace := by
  induction line using framesOf.induct generalizing history state number with
  | case1 line cut => exact robust_waiting fOpen cut synchronous
  | case2 line frame rest cut ih =>
      rw [framesOf_some cut] at inOrder
      rcases Frame.eq_bytes_append_of_split cut with ⟨wf, rfl⟩
      cases frame with
      | single byte =>
          by_cases isEnd : byte = rymCodeEot
          · subst byte
            exact accepts_eot fOpen synchronous rest
          · have later : InOrder number (framesOf rest) := inOrder.resolve_left isEnd
            rw [accepts_single_iff fOpen synchronous rest wf isEnd]
            exact ih (synchronous.arrived byte) later
      | broken kind index complement => exact inOrder.elim
      | packet kind index complement payload first second =>
          rcases inOrder with ⟨sequence, accepted, later⟩
          have isDone :=
            (load_packet_done_iff kind index complement state.mRymCtx).mpr accepted
          have next := ih (synchronous.packet isDone) later
          cases isHeader : state.bHaveRecvedHeader with
          | true =>
              rw [accepts_write_iff fOpen synchronous cut
                (load_packet_starts index complement first second payload _)
                (Or.inl isHeader)]
              refine ⟨⟨?_, isDone⟩, ?_⟩
              · rw [synchronous.used]
                exact sequence
              · rw [isHeader]
                exact next
          | false =>
              have noNumber : number = none := by
                simpa [isHeader] using synchronous.header
              subst number
              cases sequence
              refine (accepts_header_iff fOpen synchronous rest isHeader wf).mpr ?_
              intro opens
              exact next

/-- A run that opens its file is robust on no other line. -/
theorem inOrder_of_accepts {fOpen : List UInt8 → FResult}
    (opens : ∀ name, fOpen name = .frOk) {line : List UInt8}
    (synchronous : Synchronous history state number)
    (accepts : Accepts History.next History.Permits history
      (taskLoop fOpen state line).trace) :
    InOrder number (framesOf line) := by
  induction line using framesOf.induct generalizing history state number with
  | case1 line cut =>
      rw [framesOf_none cut]
      trivial
  | case2 line frame rest cut ih =>
      rw [framesOf_some cut]
      rcases Frame.eq_bytes_append_of_split cut with ⟨wf, rfl⟩
      cases frame with
      | single byte =>
          by_cases isEnd : byte = rymCodeEot
          · exact Or.inl isEnd
          · rw [accepts_single_iff fOpen synchronous rest wf isEnd] at accepts
            exact Or.inr (ih (synchronous.arrived byte) accepts)
      | broken kind index complement =>
          have nonzero : index ≠ 0 := by
            rintro rfl
            simp [Frame.WellFormed] at wf
          have starts : ((Frame.broken kind index complement).load
              state.mRymCtx).ui8Code = rymCodeSoh ∨
              ((Frame.broken kind index complement).load state.mRymCtx).ui8Code =
                rymCodeStx := by
            cases kind
            · exact Or.inl rfl
            · exact Or.inr rfl
          rw [accepts_write_iff fOpen synchronous cut starts (Or.inr nonzero)]
            at accepts
          cases accepts.1.2
      | packet kind index complement payload first second =>
          cases isHeader : state.bHaveRecvedHeader with
          | true =>
              rw [accepts_write_iff fOpen synchronous cut
                (load_packet_starts index complement first second payload _)
                (Or.inl isHeader)] at accepts
              rcases accepts with ⟨⟨sequence, isDone⟩, later⟩
              rw [synchronous.used] at sequence
              rw [isHeader] at later
              exact ⟨sequence, (load_packet_done_iff _ _ _ state.mRymCtx).mp isDone,
                ih (synchronous.packet isDone) later⟩
          | false =>
              have noNumber : number = none := by
                simpa [isHeader] using synchronous.header
              subst number
              by_cases isZero : index = 0
              · subst index
                have later :=
                  (accepts_header_iff fOpen synchronous rest isHeader wf).mp accepts
                    (opens _)
                have answered := answer_permitted fOpen later
                have accepted : Accepted payload first second := by
                  by_contra refused
                  apply answered rfl
                  simp only [Accepted] at refused
                  simp [History.arrived, History.spend, Frame.load, refused]
                have isDone :=
                  (load_packet_done_iff kind 0 complement state.mRymCtx).mpr accepted
                exact ⟨rfl, accepted, ih (synchronous.packet isDone) later⟩
              · rw [accepts_write_iff fOpen synchronous cut
                  (load_packet_starts index complement first second payload _)
                  (Or.inr isZero)] at accepts
                rcases accepts with ⟨⟨sequence, -⟩, -⟩
                rw [synchronous.used] at sequence
                exact absurd sequence isZero

theorem synchronous_start (mRymCtx : YmodemCtx) :
    Synchronous History.start
      { mRymCtx, ui8NextAckData := rymCodeCrc, bHaveRecvedHeader := false } none where
  answer := by simp [History.Permits, History.start]
  header := rfl
  used := rfl

/-- All runs of the task on a line are robust exactly when every packet on the line is
accepted and in sequence. -/
theorem receive_robust_iff_inOrder (mRymCtx : YmodemCtx) (line : List UInt8) :
    (∀ fOpen, Robust (ymodemReceiveTask fOpen mRymCtx line).trace) ↔
      InOrder none (framesOf line) := by
  have synchronous := synchronous_start { mRymCtx with eRymState := .eRymInit }
  constructor
  · intro robust
    have accepts := (robust_iff_accepts _).mp (robust fun _ => .frOk)
    exact inOrder_of_accepts (fun _ => rfl) synchronous accepts
  · intro inOrder fOpen
    exact (robust_iff_accepts _).mpr (accepts_of_inOrder fOpen synchronous inOrder)

/-- A data packet of 128 zero bytes whose second trailer byte has been corrupted. -/
def corruptedPacket : Frame :=
  .packet .soh 1 0xFE (List.replicate rymPacketSize 0) 0 1

/-- After a header, the corrupted packet is written and acknowledged. -/
theorem receive_not_robust :
    ¬Robust (ymodemReceiveTask (fun _ => .frOk) YmodemCtx.init
      ((Frame.packet .soh 0 0xFF (0x61 :: List.replicate 127 0) 0 0).bytes ++
        corruptedPacket.bytes)).trace := by
  intro robust
  have inOrder := inOrder_of_accepts (fun _ => rfl)
    (synchronous_start { YmodemCtx.init with eRymState := .eRymInit })
    ((robust_iff_accepts _).mp robust)
  have header : (Frame.packet .soh 0 0xFF (0x61 :: List.replicate 127 0) 0
      0).WellFormed :=
    ⟨by decide, by simp [PacketKind.size]⟩
  have data : corruptedPacket.WellFormed :=
    ⟨by decide, by simp [PacketKind.size]⟩
  have second := Frame.split_bytes_append data []
  rw [List.append_nil] at second
  rw [framesOf_some (Frame.split_bytes_append header _), framesOf_some second]
    at inOrder
  have accepted := inOrder.2.2.2.1
  rw [Accepted, ymodemCrc16_zeros] at accepted
  exact absurd accepted (by decide)

end Runs

end SunWise.Ymodem
