import SunWise.Ymodem.Robustness

/-!
# The file object of a transfer

The receive task remembers that a header has arrived, and that the transfer is over, but
not whether a file is open.  Whatever arrives first decides: a header whose file can be
opened puts the rest of the run in order, and everything else reaches `m_fobj` unopened.
-/

namespace SunWise.Ymodem

open Library

/-- The file object as the calls of one run have left it. -/
inductive Handle where
  | unopened
  | opened
  | closed
  deriving DecidableEq, Repr

namespace Handle

def next : Handle → RymEvent → Handle
  | _, .fOpen _ .frOk => .opened
  | .opened, .fClose => .closed
  | handle, _ => handle

/-- One file is opened at most, and only an open file is written or closed. -/
def Permits (handle : Handle) : RymEvent → Prop
  | .fOpen _ _ => handle = .unopened
  | .fWrite _ | .fClose => handle = .opened
  | _ => True

end Handle

/-- A run, or the rest of one, uses the file object in order: each call is permitted by
the calls before it, and no file is left open when the task returns. -/
structure Handled (handle : Handle) (run : TaskRun) : Prop where
  permitted : Accepts Handle.next Handle.Permits handle run.trace
  released : run.rest ≠ none → run.trace.foldl Handle.next handle ≠ .opened

/-- The first packet on the line is a whole header, and its file can be opened; until it
arrives the transfer is not ended. -/
def HeaderFirst (fOpen : List UInt8 → FResult) (ctx : YmodemCtx) (line : List UInt8) :
    Prop :=
  match _cut : Frame.split line with
  | none => True
  | some (.single byte, rest) =>
      if byte = rymCodeEot then rest.length < 10
      else HeaderFirst fOpen ((Frame.single byte).load ctx) rest
  | some (.broken _ _ _, _) => False
  | some (.packet kind index complement payload first second, _) =>
      index = 0 ∧
        fOpen ((Frame.packet kind index complement payload first second).load
          ctx).headerString = .frOk
termination_by line.length
decreasing_by exact Frame.split_length _cut

section Condition

variable (fOpen : List UInt8 → FResult) (ctx : YmodemCtx) {line rest : List UInt8}

theorem headerFirst_waiting (cut : Frame.split line = none) :
    HeaderFirst fOpen ctx line := by
  rw [HeaderFirst]
  split <;> simp_all

theorem headerFirst_single {byte : UInt8}
    (cut : Frame.split line = some (.single byte, rest)) :
    HeaderFirst fOpen ctx line ↔
      if byte = rymCodeEot then rest.length < 10
      else HeaderFirst fOpen ((Frame.single byte).load ctx) rest := by
  rw [HeaderFirst]
  split
  next isNone => simp [cut] at isNone
  next isSingle =>
    rw [cut] at isSingle
    cases isSingle
    rfl
  next isBroken => simp [cut] at isBroken
  next isPacket => simp [cut] at isPacket

theorem not_headerFirst_broken {kind : PacketKind} {index complement : UInt8}
    (cut : Frame.split line = some (.broken kind index complement, rest)) :
    ¬HeaderFirst fOpen ctx line := by
  rw [HeaderFirst]
  split <;> simp_all

theorem headerFirst_packet {kind : PacketKind} {index complement first second : UInt8}
    {payload : List UInt8}
    (cut : Frame.split line =
      some (.packet kind index complement payload first second, rest)) :
    HeaderFirst fOpen ctx line ↔
      index = 0 ∧
        fOpen ((Frame.packet kind index complement payload first second).load
          ctx).headerString = .frOk := by
  rw [HeaderFirst]
  split <;> simp_all

end Condition

section Runs

variable {handle : Handle} {run : TaskRun} {events : List RymEvent}

theorem handled_after_iff :
    Handled handle (run.after events) ↔
      Accepts Handle.next Handle.Permits handle events ∧
        Handled (events.foldl Handle.next handle) run := by
  constructor
  · rintro ⟨permitted, released⟩
    simp only [TaskRun.after, accepts_append, List.foldl_append] at permitted released
    exact ⟨permitted.1, permitted.2, released⟩
  · rintro ⟨front, permitted, released⟩
    constructor
    · simpa only [TaskRun.after, accepts_append] using ⟨front, permitted⟩
    · simpa only [TaskRun.after, List.foldl_append] using released

theorem handled_arrival_iff (state : TaskState) (frame : Frame) :
    Handled handle (run.after (arrivalOf state frame ++ events)) ↔
      Handled handle (run.after events) := by
  have neutral : (arrivalOf state frame).foldl Handle.next handle = handle := by
    cases handle <;> rfl
  rw [handled_after_iff, handled_after_iff, accepts_append, List.foldl_append, neutral]
  simp [arrivalOf, Handle.Permits]

theorem PacketKind.starts (kind : PacketKind) :
    kind.code = rymCodeSoh ∨ kind.code = rymCodeStx := by
  cases kind
  · exact Or.inl rfl
  · exact Or.inr rfl

theorem handled_waiting (fOpen : List UInt8 → FResult) (state : TaskState)
    {line : List UInt8} (cut : Frame.split line = none) :
    Handled handle (taskLoop fOpen state line) := by
  rw [taskLoop_waiting fOpen state cut]
  constructor
  · exact ⟨trivial, trivial⟩
  · intro returned
    exact absurd rfl returned

/-- The end of the transfer closes the file, once ten more bytes have arrived. -/
theorem handled_eot_iff (fOpen : List UInt8 → FResult) (state : TaskState)
    (rest : List UInt8) :
    Handled handle (taskLoop fOpen state ((Frame.single rymCodeEot).bytes ++ rest)) ↔
      (10 ≤ rest.length → handle = .opened) := by
  have cancels : ∀ events : List RymEvent,
      Accepts Handle.next Handle.Permits handle
          (arrivalOf state (.single rymCodeEot) ++
            List.replicate 6 (RymEvent.sendByte rymCodeCan) ++ events) ↔
        Accepts Handle.next Handle.Permits handle events := by
    intro events
    cases handle <;>
      simp [arrivalOf, List.replicate, Handle.Permits, Handle.next]
  rw [taskLoop_eot]
  split
  next enough =>
    constructor
    · rintro ⟨permitted, -⟩ -
      simp only [List.append_assoc] at permitted cancels
      rw [cancels] at permitted
      cases handle <;> simp_all [finishTexts, Handle.Permits, Handle.next]
    · intro isOpen
      obtain rfl := isOpen enough
      constructor
      · simp only [List.append_assoc] at cancels ⊢
        rw [cancels]
        simp [finishTexts, Handle.Permits, Handle.next]
      · intro _
        simp [arrivalOf, List.replicate, finishTexts, Handle.next]
  next few =>
    constructor
    · intro _ enough
      exact absurd enough few
    · intro _
      constructor
      · simpa using cancels []
      · intro returned
        exact absurd rfl returned

/-- Once the file is open, the rest of every run is in order. -/
theorem handled_opened (fOpen : List UInt8 → FResult) (line : List UInt8)
    {state : TaskState} (isOpen : state.bHaveRecvedHeader = true) :
    Handled .opened (taskLoop fOpen state line) := by
  induction line using framesOf.induct generalizing state with
  | case1 line cut => exact handled_waiting fOpen state cut
  | case2 line frame rest cut ih =>
      have write : ∀ kind : PacketKind, (frame.load state.mRymCtx).ui8Code = kind.code →
          Handled .opened (taskLoop fOpen state line) := by
        intro kind starts
        rw [taskLoop_write fOpen state cut (starts ▸ kind.starts) (Or.inl isOpen),
          handled_arrival_iff, handled_after_iff]
        exact ⟨⟨rfl, trivial⟩, ih isOpen⟩
      cases frame with
      | single byte =>
          rcases Frame.eq_bytes_append_of_split cut with ⟨wf, rfl⟩
          by_cases isEnd : byte = rymCodeEot
          · subst byte
            exact (handled_eot_iff fOpen state rest).mpr fun _ => rfl
          · rw [taskLoop_single fOpen state rest wf isEnd, ← List.append_nil (arrivalOf _ _),
              handled_arrival_iff]
            exact ih isOpen
      | broken kind index complement => exact write kind rfl
      | packet kind index complement payload first second => exact write kind rfl

/-- Before the header, a run is in order exactly when the header comes first. -/
theorem handled_unopened_iff (fOpen : List UInt8 → FResult) (line : List UInt8)
    {state : TaskState} (noHeader : state.bHaveRecvedHeader = false) :
    Handled .unopened (taskLoop fOpen state line) ↔
      HeaderFirst fOpen state.mRymCtx line := by
  induction line using framesOf.induct generalizing state with
  | case1 line cut =>
      simp only [handled_waiting fOpen state cut, headerFirst_waiting fOpen _ cut]
  | case2 line frame rest cut ih =>
      have refused : (frame.load state.mRymCtx).ui8Index ≠ 0 →
          ∀ kind : PacketKind, (frame.load state.mRymCtx).ui8Code = kind.code →
          ¬Handled .unopened (taskLoop fOpen state line) := by
        intro nonzero kind starts handled
        rw [taskLoop_write fOpen state cut (starts ▸ kind.starts) (Or.inr nonzero),
          handled_arrival_iff, handled_after_iff] at handled
        cases handled.1.1
      have wf := (Frame.eq_bytes_append_of_split cut).1
      cases frame with
      | single byte =>
          obtain rfl := (Frame.eq_bytes_append_of_split cut).2
          rw [headerFirst_single fOpen _ cut]
          by_cases isEnd : byte = rymCodeEot
          · subst byte
            rw [handled_eot_iff, if_pos rfl]
            simp
          · rw [taskLoop_single fOpen state rest wf isEnd, ← List.append_nil (arrivalOf _ _),
              handled_arrival_iff, if_neg isEnd]
            exact ih noHeader
      | broken kind index complement =>
          have nonzero : index ≠ 0 := by
            rintro rfl
            simp [Frame.WellFormed] at wf
          exact iff_of_false (refused nonzero kind rfl) (not_headerFirst_broken fOpen _ cut)
      | packet kind index complement payload first second =>
          rw [headerFirst_packet fOpen _ cut]
          by_cases isZero : index = 0
          · subst index
            obtain rfl := (Frame.eq_bytes_append_of_split cut).2
            have header := taskLoop_header fOpen state rest noHeader wf
            simp only at header
            rw [header]
            split
            next opens =>
              rw [handled_arrival_iff, handled_after_iff]
              simp only [opens, and_self, iff_true]
              exact ⟨⟨rfl, trivial⟩, handled_opened fOpen rest rfl⟩
            next fails =>
              refine iff_of_false ?_ fun headerFirst => fails headerFirst.2
              change ¬Handled .unopened (TaskRun.after ⟨[.fClose], some rest⟩ _)
              rw [handled_arrival_iff, handled_after_iff]
              rintro ⟨-, closes, -⟩
              have stays : ∀ res name, res ≠ FResult.frOk →
                  Handle.next .unopened (.fOpen name res) = .unopened := by
                intro res name isError
                cases res
                · exact absurd rfl isError
                · rfl
              have isOpen : Handle.next .unopened _ = .opened := closes.1
              rw [stays _ _ fails] at isOpen
              cases isOpen
          · exact iff_of_false (refused isZero kind rfl) fun header => isZero header.1

/-- A run uses the file object in order exactly when its header comes first and opens
the file. -/
theorem receive_handled_iff (fOpen : List UInt8 → FResult) (mRymCtx : YmodemCtx)
    (line : List UInt8) :
    Handled .unopened (ymodemReceiveTask fOpen mRymCtx line) ↔
      HeaderFirst fOpen { mRymCtx with eRymState := .eRymInit } line :=
  handled_unopened_iff fOpen line rfl

/-- The transfer ends before it starts, and a file that was never opened is closed. -/
theorem receive_not_handled :
    ¬Handled .unopened (ymodemReceiveTask (fun _ => .frOk) YmodemCtx.init
      (rymCodeEot :: List.replicate 10 0)) := by
  intro handled
  have opened := (handled_eot_iff (fun _ => .frOk)
    { mRymCtx := { YmodemCtx.init with eRymState := .eRymInit }
      ui8NextAckData := rymCodeCrc, bHaveRecvedHeader := false }
    (List.replicate 10 0)).mp handled
  cases opened (by decide)

end Runs

end SunWise.Ymodem
