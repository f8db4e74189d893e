import SunWise.Ymodem.Frame

/-!
# YMODEM receive task

`Ymodem_ReceiveTask` as a function from the bytes the line delivers to the trace of
its effects: the bytes it sends, the packets it receives and the calls it makes into
FatFs.  The outcome of `f_open` is a parameter.  The console texts of the task are part
of the trace; the carriage of bytes over the UART is not modelled further.
-/

namespace SunWise.Ymodem

/-- Outcome of a FatFs call as far as the task distinguishes it. -/
inductive FResult where
  | frOk
  | frError
  deriving DecidableEq, Repr

/-- Effects of the task in program order. `packetEnd` records the return of
`YmodemRecvPacket` together with the fields of the context that describe the packet. -/
inductive RymEvent where
  | sendByte (byte : UInt8)
  | packetEnd (ui8Code ui8Index : UInt8) (eRymState : RymState)
  | fOpen (name : List UInt8) (res : FResult)
  | fWrite (data : List UInt8)
  | fClose
  | xprintf (text : String)
  deriving DecidableEq, Repr

/-- The variables that live across the turns of the main loop. -/
structure TaskState where
  mRymCtx : YmodemCtx
  ui8NextAckData : UInt8
  bHaveRecvedHeader : Bool

/-- What the task has done so far. `rest` is `none` while the task waits for a byte and
holds the unread bytes once it has returned. -/
structure TaskRun where
  trace : List RymEvent
  rest : Option (List UInt8)
  deriving DecidableEq, Repr

/-- Put earlier effects in front of a run. -/
def TaskRun.after (run : TaskRun) (events : List RymEvent) : TaskRun :=
  { run with trace := events ++ run.trace }

/-- One turn of the main loop: it waits for a byte, or it ends with the flag
`bHaveRecvedEOT`. -/
inductive Turn where
  | waiting (events : List RymEvent)
  | completed (events : List RymEvent) (next : TaskState) (bHaveRecvedEOT : Bool)
      (rest : List UInt8)

/-- Read and drop `count` bytes, if they have arrived. -/
def discardBytes : Nat → List UInt8 → Option (List UInt8)
  | 0, line => some line
  | _ + 1, [] => none
  | count + 1, _ :: line => discardBytes count line

/-- The texts printed after the end of the transfer. -/
def finishTexts : List RymEvent :=
  [.xprintf "\x1b[1A", .xprintf "\x1b[K", .xprintf "recv finished.\n"]

/-- The `switch` on the code of the packet that has just been received. -/
def respond (fOpen : List UInt8 → FResult) (state : TaskState)
    (line : List UInt8) : Turn :=
  let ctx := state.mRymCtx
  if ctx.ui8Code = rymCodeSoh ∨ ctx.ui8Code = rymCodeStx then
    if !state.bHaveRecvedHeader && ctx.ui8Index == 0 then
      let res := fOpen ctx.headerString
      .completed [.fOpen ctx.headerString res]
        { state with ui8NextAckData := rymCodeAck, bHaveRecvedHeader := true }
        (res ≠ .frOk) line
    else
      .completed [.fWrite ctx.payload] { state with ui8NextAckData := rymCodeAck }
        false line
  else if ctx.ui8Code = rymCodeEot then
    let cancels := List.replicate 6 (RymEvent.sendByte rymCodeCan)
    match discardBytes 10 line with
    | none => .waiting cancels
    | some rest => .completed (cancels ++ finishTexts) state true rest
  else
    .completed [] state false line

/-- One turn: answer, receive a packet and respond to it. -/
def taskTurn (fOpen : List UInt8 → FResult) (state : TaskState)
    (line : List UInt8) : Turn :=
  match ymodemRecvPacket state.mRymCtx line with
  | .blocked _ => .waiting [.sendByte state.ui8NextAckData]
  | .finished ctx rest =>
      let arrival : List RymEvent := [.sendByte state.ui8NextAckData,
        .packetEnd ctx.ui8Code ctx.ui8Index ctx.eRymState]
      match respond fOpen { state with mRymCtx := ctx } rest with
      | .waiting events => .waiting (arrival ++ events)
      | .completed events next bHaveRecvedEOT rest =>
          .completed (arrival ++ events) next bHaveRecvedEOT rest

theorem discardBytes_eq (count : Nat) (line : List UInt8) :
    discardBytes count line =
      if count ≤ line.length then some (line.drop count) else none := by
  induction count generalizing line with
  | zero => simp [discardBytes]
  | succ count ih =>
      cases line with
      | nil => simp [discardBytes]
      | cons byte line => simp [discardBytes, ih]

/-- A response never puts bytes back on the line. -/
theorem respond_length {fOpen : List UInt8 → FResult} {state next : TaskState}
    {line rest : List UInt8} {events : List RymEvent} {bHaveRecvedEOT : Bool}
    (responded : respond fOpen state line =
      .completed events next bHaveRecvedEOT rest) :
    rest.length ≤ line.length := by
  unfold respond at responded
  simp only [discardBytes_eq] at responded
  split at responded
  · split at responded <;>
    · cases responded
      exact Nat.le_refl _
  · split at responded
    · by_cases enough : 10 ≤ line.length
      · simp only [enough, if_true, Turn.completed.injEq] at responded
        rcases responded with ⟨-, -, -, rfl⟩
        simp
      · simp [enough] at responded
    · cases responded
      exact Nat.le_refl _

/-- A completed turn has consumed a frame. -/
theorem taskTurn_length {fOpen : List UInt8 → FResult} {state next : TaskState}
    {line rest : List UInt8} {events : List RymEvent} {bHaveRecvedEOT : Bool}
    (turn : taskTurn fOpen state line = .completed events next bHaveRecvedEOT rest) :
    rest.length < line.length := by
  cases cut : Frame.split line with
  | none =>
      rcases ymodemRecvPacket_blocked state.mRymCtx cut with ⟨waiting, blocked⟩
      simp [taskTurn, blocked] at turn
  | some arrived =>
      rcases arrived with ⟨frame, left⟩
      simp only [taskTurn, ymodemRecvPacket_eq_load state.mRymCtx cut] at turn
      split at turn
      · cases turn
      next responded =>
        cases turn
        exact Nat.lt_of_le_of_lt (respond_length responded) (Frame.split_length cut)

/-- The main loop. -/
def taskLoop (fOpen : List UInt8 → FResult) (state : TaskState)
    (line : List UInt8) : TaskRun :=
  match turn : taskTurn fOpen state line with
  | .waiting events => ⟨events, none⟩
  | .completed events next bHaveRecvedEOT rest =>
      if bHaveRecvedEOT then ⟨events ++ [.fClose], some rest⟩
      else (taskLoop fOpen next rest).after events
termination_by line.length
decreasing_by exact taskTurn_length turn

/-- `Ymodem_ReceiveTask`, started with whatever an earlier transfer left in
`mRymCtx`. -/
def ymodemReceiveTask (fOpen : List UInt8 → FResult) (mRymCtx : YmodemCtx)
    (line : List UInt8) : TaskRun :=
  taskLoop fOpen
    { mRymCtx := { mRymCtx with eRymState := .eRymInit }
      ui8NextAckData := rymCodeCrc
      bHaveRecvedHeader := false } line

section Turns

variable (fOpen : List UInt8 → FResult) (state : TaskState)
variable {line rest : List UInt8} {frame : Frame}

/-- The effects that every turn starts with once its frame has arrived. -/
def arrivalOf (state : TaskState) (frame : Frame) : List RymEvent :=
  let ctx := frame.load state.mRymCtx
  [.sendByte state.ui8NextAckData,
    .packetEnd ctx.ui8Code ctx.ui8Index ctx.eRymState]

theorem taskLoop_waiting (cut : Frame.split line = none) :
    taskLoop fOpen state line = ⟨[.sendByte state.ui8NextAckData], none⟩ := by
  rcases ymodemRecvPacket_blocked state.mRymCtx cut with ⟨waiting, blocked⟩
  have turn : taskTurn fOpen state line =
      .waiting [.sendByte state.ui8NextAckData] := by
    simp only [taskTurn, blocked]
  rw [taskLoop]
  split
  next events isWaiting =>
    rw [turn] at isWaiting
    cases isWaiting
    rfl
  next isCompleted =>
    rw [turn] at isCompleted
    cases isCompleted

/-- The main loop, turn by turn, in terms of the frames on the line. -/
theorem taskLoop_frame (cut : Frame.split line = some (frame, rest)) :
    taskLoop fOpen state line =
      match respond fOpen { state with mRymCtx := frame.load state.mRymCtx } rest with
      | .waiting events => ⟨arrivalOf state frame ++ events, none⟩
      | .completed events next bHaveRecvedEOT left =>
          if bHaveRecvedEOT then
            ⟨arrivalOf state frame ++ events ++ [.fClose], some left⟩
          else (taskLoop fOpen next left).after (arrivalOf state frame ++ events) := by
  have turn : taskTurn fOpen state line =
      match respond fOpen { state with mRymCtx := frame.load state.mRymCtx } rest with
      | .waiting events => .waiting (arrivalOf state frame ++ events)
      | .completed events next bHaveRecvedEOT left =>
          .completed (arrivalOf state frame ++ events) next bHaveRecvedEOT left := by
    simp only [taskTurn, ymodemRecvPacket_eq_load state.mRymCtx cut, arrivalOf]
  rw [taskLoop]
  cases responded :
      respond fOpen { state with mRymCtx := frame.load state.mRymCtx } rest with
  | waiting events =>
      simp only [responded] at turn
      split
      next isWaiting =>
        rw [turn] at isWaiting
        cases isWaiting
        rfl
      next isCompleted =>
        rw [turn] at isCompleted
        cases isCompleted
  | completed events next bHaveRecvedEOT left =>
      simp only [responded] at turn
      split
      next isWaiting =>
        rw [turn] at isWaiting
        cases isWaiting
      next isCompleted =>
        rw [turn] at isCompleted
        cases isCompleted
        rfl

theorem payload_load {kind : PacketKind} {index complement first second : UInt8}
    {payload : List UInt8} (ctx : YmodemCtx) (complete : payload.length = kind.size) :
    ((Frame.packet kind index complement payload first second).load ctx).payload =
      payload := by
  have sizeBound := kind.size_le
  simp only [rymPacket1kSize] at sizeBound
  have fits : (Frame.packet kind index complement payload first second).bytes.length ≤
      rymBufferSize := by
    simp only [Frame.bytes, List.length_cons, List.length_append, List.length_nil,
      complete, rymBufferSize_eq]
    omega
  simp only [YmodemCtx.payload, Frame.load, overwrite_toList _ fits]
  simp [Frame.bytes, ← complete]

/-- The name that `f_open` is given is the data of the packet up to its first NUL. -/
theorem headerString_load {kind : PacketKind} {index complement first second : UInt8}
    {name text : List UInt8} (ctx : YmodemCtx) (nulFree : ∀ byte ∈ name, byte ≠ 0)
    (complete : (name ++ 0 :: text).length = kind.size) :
    ((Frame.packet kind index complement (name ++ 0 :: text) first second).load
      ctx).headerString = name := by
  have sizeBound := kind.size_le
  simp only [rymPacket1kSize] at sizeBound
  have fits : (Frame.packet kind index complement (name ++ 0 :: text) first
      second).bytes.length ≤ rymBufferSize := by
    simp only [Frame.bytes, List.length_cons, List.length_append, List.length_nil,
      rymBufferSize_eq] at complete ⊢
    omega
  simp only [YmodemCtx.headerString, Frame.load, overwrite_toList _ fits]
  simp only [Frame.bytes, rymPacketHeader, List.cons_append, List.drop_succ_cons,
    List.drop_zero, List.append_assoc]
  rw [List.takeWhile_append_of_pos (by simpa using nulFree)]
  simp

/-- Packet 0 before any header opens the file. -/
theorem taskLoop_header {kind : PacketKind} {complement first second : UInt8}
    {payload : List UInt8} (rest : List UInt8)
    (noHeader : state.bHaveRecvedHeader = false)
    (wf : (Frame.packet kind 0 complement payload first second).WellFormed) :
    let frame := Frame.packet kind 0 complement payload first second
    let ctx := frame.load state.mRymCtx
    let events :=
      arrivalOf state frame ++ [.fOpen ctx.headerString (fOpen ctx.headerString)]
    taskLoop fOpen state (frame.bytes ++ rest) =
      if fOpen ctx.headerString = .frOk then
        (taskLoop fOpen
          { mRymCtx := ctx, ui8NextAckData := rymCodeAck, bHaveRecvedHeader := true }
          rest).after events
      else ⟨events ++ [.fClose], some rest⟩ := by
  intro frame ctx events
  rw [taskLoop_frame fOpen state (Frame.split_bytes_append wf rest)]
  have starts : ctx.ui8Code = rymCodeSoh ∨ ctx.ui8Code = rymCodeStx := by
    cases kind
    · exact Or.inl rfl
    · exact Or.inr rfl
  have first0 : (!state.bHaveRecvedHeader && ctx.ui8Index == 0) = true := by
    rw [noHeader]
    rfl
  simp only [respond]
  rw [if_pos starts, if_pos first0]
  change (if decide (fOpen ctx.headerString ≠ .frOk) = true then
      ⟨events ++ [.fClose], some rest⟩
    else (taskLoop fOpen
      { mRymCtx := ctx, ui8NextAckData := rymCodeAck, bHaveRecvedHeader := true }
      rest).after events) = _
  by_cases opens : fOpen ctx.headerString = .frOk
  · simp [opens]
  · simp [opens]

/-- A packet that is not taken for the header is written, whatever the verdict on it,
and answered with an acknowledgement. -/
theorem taskLoop_write (cut : Frame.split line = some (frame, rest))
    (starts : (frame.load state.mRymCtx).ui8Code = rymCodeSoh ∨
      (frame.load state.mRymCtx).ui8Code = rymCodeStx)
    (isData : state.bHaveRecvedHeader = true ∨
      (frame.load state.mRymCtx).ui8Index ≠ 0) :
    taskLoop fOpen state line =
      (taskLoop fOpen
        { state with
          mRymCtx := frame.load state.mRymCtx, ui8NextAckData := rymCodeAck }
        rest).after
        (arrivalOf state frame ++ [.fWrite (frame.load state.mRymCtx).payload]) := by
  have notHeader : ¬(!state.bHaveRecvedHeader &&
      (frame.load state.mRymCtx).ui8Index == 0) = true := by
    rcases isData with isData | isData
    · simp [isData]
    · simp [isData]
  rw [taskLoop_frame fOpen state cut]
  simp only [respond]
  rw [if_pos starts, if_neg notHeader]
  rfl

/-- Every packet after the header is written, whatever the verdict of its check. -/
theorem taskLoop_data {kind : PacketKind} {index complement first second : UInt8}
    {payload : List UInt8} (rest : List UInt8)
    (isData : state.bHaveRecvedHeader = true)
    (wf : (Frame.packet kind index complement payload first second).WellFormed) :
    let frame := Frame.packet kind index complement payload first second
    taskLoop fOpen state (frame.bytes ++ rest) =
      (taskLoop fOpen
        { mRymCtx := frame.load state.mRymCtx, ui8NextAckData := rymCodeAck
          bHaveRecvedHeader := true } rest).after
        (arrivalOf state frame ++ [.fWrite payload]) := by
  intro frame
  have starts : (frame.load state.mRymCtx).ui8Code = rymCodeSoh ∨
      (frame.load state.mRymCtx).ui8Code = rymCodeStx := by
    cases kind
    · exact Or.inl rfl
    · exact Or.inr rfl
  rw [taskLoop_write fOpen state (Frame.split_bytes_append wf rest) starts
    (Or.inl isData), payload_load state.mRymCtx wf.2, isData]

/-- The end-of-transfer byte is answered by six cancels; the file is closed once ten
more bytes have arrived. -/
theorem taskLoop_eot (rest : List UInt8) :
    let frame := Frame.single rymCodeEot
    let cancels :=
      arrivalOf state frame ++ List.replicate 6 (RymEvent.sendByte rymCodeCan)
    taskLoop fOpen state (frame.bytes ++ rest) =
      if 10 ≤ rest.length then
        ⟨cancels ++ finishTexts ++ [.fClose], some (rest.drop 10)⟩
      else ⟨cancels, none⟩ := by
  intro frame cancels
  have wf : frame.WellFormed := rfl
  rw [taskLoop_frame fOpen state (Frame.split_bytes_append wf rest)]
  have code : (frame.load state.mRymCtx).ui8Code = 4 := rfl
  simp only [respond, code, discardBytes_eq]
  by_cases enough : 10 ≤ rest.length
  · simp [enough, cancels]
  · simp [enough, cancels]

/-- Any other byte between packets leaves no trace but its arrival. -/
theorem taskLoop_single {byte : UInt8} (rest : List UInt8)
    (wf : (Frame.single byte).WellFormed) (notEnd : byte ≠ rymCodeEot) :
    let frame := Frame.single byte
    taskLoop fOpen state (frame.bytes ++ rest) =
      (taskLoop fOpen { state with mRymCtx := frame.load state.mRymCtx } rest).after
        (arrivalOf state frame) := by
  intro frame
  rw [taskLoop_frame fOpen state (Frame.split_bytes_append wf rest)]
  have notStart : ¬((frame.load state.mRymCtx).ui8Code = rymCodeSoh ∨
      (frame.load state.mRymCtx).ui8Code = rymCodeStx) := by
    change ¬(byte = rymCodeSoh ∨ byte = rymCodeStx)
    rintro (rfl | rfl)
    · cases wf
    · cases wf
  have notEot : ¬(frame.load state.mRymCtx).ui8Code = rymCodeEot := notEnd
  simp only [respond]
  rw [if_neg notStart, if_neg notEot]
  simp [frame]

end Turns

end SunWise.Ymodem
