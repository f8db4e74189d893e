import SunWise.Gmac.Input
import SunWise.Gmac.RxAssembly

/-!
# Steps of reception

What the steps of `low_level_input` and of the DMA do to the frame under assembly, as
long as the DMA completes well-formed frames.  `pbuf_alloc` may fail; a frame is dropped
then, and nothing else changes.
-/

namespace SunWise.Gmac

open Library

/-- The DMA completes well-formed frames, each descriptor with the number of the bytes
in its own buffer. -/
def Completes (config : RxConfig) (state : InputState) : InputLabel → Prop
  | .dma status bytes =>
      Continues (state.ring.filled.foldl underWay []) (state.ring.entry status bytes) ∧
        (state.ring.completed status).rxLength = bytes.length ∧
        bytes.length ≤ config.rxBufferSize
  | _ => True

/-- What holds at each place of `low_level_input`, for the descriptors of the frames that
have been delivered, of the frame under assembly, and behind the read pointer. -/
inductive Phase (config : RxConfig) (ring : RxRing)
    (delivered frame unread : List Fill) : InputPc → Prop
  | idle (back : ring.returned.length = delivered.length)
      (unfinished : Unfinished frame) (consumed : ring.Consumed frame)
      (readable : ring.Fresh unread ∨ ring.Stuck config) :
      Phase config ring delivered frame unread .idle
  | alloc (back : ring.returned.length = delivered.length)
      (whole : Whole frame) (consumed : ring.Consumed frame) (fresh : ring.Fresh unread)
      (small : (frameBytes frame).length < 2 ^ 16) :
      Phase config ring delivered frame unread (.alloc (frameBytes frame).length)
  | copying (back : ring.returned.length = delivered.length)
      (whole : Whole frame) (consumed : ring.Consumed frame) (fresh : ring.Fresh unread)
      (copy : CopyState) (copied : copy.Copied (frame.map Fill.bytes)) :
      Phase config ring delivered frame unread (.copying copy)
  | stopping (whole : Whole frame) (p : Option (List Pbuf))
      (copied : ∀ chain, p = some chain → chainBytes chain = frameBytes frame)
      (i : Nat) (bound : i ≤ frame.length)
      (back : ring.returned.length = delivered.length + i)
      (consumed : ring.Consumed (frame.drop i)) (fresh : ring.Fresh unread) :
      Phase config ring delivered frame unread
        (.stopping p i (some ((delivered.length + i) % config.rxDescNum)))

/-- The groups of descriptors and the place of `low_level_input` belong together. -/
structure Tracks (config : RxConfig) (state : InputState)
    (delivered frame unread : List Fill) : Prop where
  assembling : state.ring.Assembling config delivered frame unread
  phase : Phase config state.ring delivered frame unread state.pc

/-- No frame has been dropped. -/
structure Intact (state : InputState) (delivered : List Fill) : Prop where
  results : state.results = framesFrom [] delivered
  chain : ∀ i next, state.pc ≠ .stopping none i next

/-- Where a step leads that drops a frame only if `pbuf_alloc` fails. -/
def Follows (config : RxConfig) (state : InputState) (delivered : List Fill)
    (label : InputLabel) (next : InputState) : Prop :=
  ∃ delivered' frame' unread', Tracks config next delivered' frame' unread' ∧
    (label ≠ .alloc false → Intact state delivered → Intact next delivered')

section Steps

variable {config : RxConfig} {state next : InputState} {ring : RxRing}
  {results : List (List UInt8)} {delivered frame unread : List Fill}

/-- A completion changes nothing for the driver but what is behind the read pointer. -/
theorem Phase.complete {pc : InputPc}
    (phase : Phase config ring delivered frame unread pc)
    (assembling : ring.Assembling config delivered frame unread)
    {status : BitVec 31} {bytes : List UInt8}
    (dma : (ring.desc ring.dmaHead).owner = true) :
    Phase config (ring.complete status bytes) delivered frame
      (unread ++ [ring.entry status bytes]) pc := by
  have later (fresh : ring.Fresh unread) :
      (ring.complete status bytes).Fresh (unread ++ [ring.entry status bytes]) :=
    assembling.fresh_complete dma fresh
  cases phase with
  | idle back unfinished consumed readable =>
      refine .idle back unfinished consumed (Or.inl ?_)
      rcases readable with fresh | stuck
      · exact later fresh
      · have room := assembling.layout.head_owner_iff.mp dma
        exact absurd stuck.full room.ne
  | alloc back whole consumed fresh small =>
      exact .alloc back whole consumed (later fresh) small
  | copying back whole consumed fresh copy copied =>
      refine .copying ?_ whole ?_ (later fresh) copy copied
      · exact back
      · exact consumed
  | stopping whole p copied i bound back consumed fresh =>
      exact .stopping whole p copied i bound back consumed (later fresh)

/-- The state after `HW_GMAC_GetRecvPacket`. -/
def afterRead (ring : RxRing) (results : List (List UInt8)) : InputState where
  ring := ring.getRecvPacket.2
  pc := if ring.getRecvPacket.1 = 0 then .idle else .alloc ring.getRecvPacket.1
  results := results

theorem intact_afterRead (intact : Intact ⟨ring, .idle, results⟩ delivered) :
    Intact (afterRead ring results) delivered where
  results := intact.results
  chain := by
    intro i next
    unfold afterRead
    split <;> nofun

/-- The read pointer is at the first unread descriptor. -/
theorem pointer_eq {fill : Fill} {rest : List Fill}
    (assembling : ring.Assembling config delivered frame (fill :: rest))
    (back : ring.returned.length = delivered.length) :
    ring.sLastRxDescriptor = fill.slot ∧ ring.current.owner = false := by
  have isWhole := assembling.outstanding_whole back
  have pointer : ring.sLastRxDescriptor = fill.slot := by
    rw [assembling.pointer, ← back]
    exact (assembling.layout.slot_eq (by simp [isWhole])).symm
  refine ⟨pointer, ?_⟩
  rw [RxRing.current, pointer]
  exact assembling.layout.owner_of_outstanding (by simp [isWhole])

theorem tracks_read {fill : Fill} {rest : List Fill}
    (assembling : ring.Assembling config delivered frame (fill :: rest))
    (back : ring.returned.length = delivered.length) (unfinished : Unfinished frame)
    (consumed : ring.Consumed frame)
    (readable : ring.Fresh (fill :: rest) ∨ ring.Stuck config) :
    Tracks config (afterRead ring results) delivered (frame ++ [fill]) rest := by
  have isWhole := assembling.outstanding_whole back
  rcases pointer_eq assembling back with ⟨pointer, cpu⟩
  rcases assembling.read back isWhole unfinished pointer (Or.inr rfl) with ⟨reading, len⟩
  have readBack : ring.getRecvPacket.2.returned.length = delivered.length := by
    rw [RxRing.getRecvPacket_returned, back]
  have readConsumed := RxRing.Assembling.consumed_read cpu pointer consumed
  have later (fresh : ring.Fresh (fill :: rest)) :=
    RxRing.Assembling.fresh_read assembling.layout isWhole cpu pointer fresh
  refine ⟨reading, ?_⟩
  cases last : fill.last with
  | false =>
      rw [last] at len
      rw [afterRead, len]
      refine .idle readBack (unfinished.snoc last) readConsumed ?_
      rcases readable with fresh | stuck
      · exact Or.inl (later fresh)
      · exact Or.inr (RxRing.Assembling.stuck_read stuck)
  | true =>
      have continues := (assembling.continues back isWhole unfinished).1
      have fresh := readable.resolve_right fun stuck => by
        have notLast := (isWhole ▸ stuck.unfinished : Unfinished _).notLast
        rw [last] at notLast
        cases notLast
      rw [last, if_pos rfl] at len
      have nonempty := continues.nonempty
      have total := continues.total
      have bytes : (frameBytes (frame ++ [fill])).length =
          (frameBytes frame).length + fill.bytes.length := by simp
      rw [afterRead, len, if_neg (by omega)]
      exact .alloc readBack (unfinished.whole last) readConsumed (later fresh) (by omega)

/-- Reading when nothing is unread finds a descriptor of the DMA, or starts again with a
frame that is longer than the ring. -/
theorem tracks_read_nil (results : List (List UInt8))
    (assembling : ring.Assembling config delivered frame [])
    (back : ring.returned.length = delivered.length) (unfinished : Unfinished frame)
    (consumed : ring.Consumed frame) :
    ∃ frame' unread',
      Tracks config (afterRead ring results) delivered frame' unread' := by
  have layout := assembling.layout
  have isWhole := assembling.outstanding_whole back
  rw [List.append_nil] at isWhole
  have room := layout.room
  rw [isWhole] at room
  rcases Nat.lt_or_eq_of_le room with notFull | full
  · have dma : ring.current.owner = true := by
      rw [RxRing.current, assembling.pointer, ← back, ← isWhole, ← layout.head_eq,
        layout.head_owner_iff, isWhole]
      exact notFull
    rw [afterRead, RxRing.getRecvPacket_dma dma]
    exact ⟨frame, [], assembling,
      .idle back unfinished consumed (Or.inl (RxRing.fresh_nil ring))⟩
  · have stuck : ring.Stuck config :=
      ⟨isWhole ▸ full, isWhole ▸ unfinished, isWhole ▸ consumed⟩
    cases frame with
    | nil => exact absurd full config.positive.ne
    | cons fill rest =>
        have split : ring.outstanding = [] ++ fill :: rest := isWhole
        have isFirst : ring.outstanding[0]? = some fill := by simp [isWhole]
        have pointer : ring.sLastRxDescriptor = fill.slot := by
          rw [assembling.pointer, full, Nat.add_mod_right, ← back]
          exact (layout.slot_eq isFirst).symm
        have cpu : ring.current.owner = false := by
          rw [RxRing.current, pointer]
          exact layout.owner_of_outstanding (List.mem_of_getElem? isFirst)
        have none : Unfinished [] := rfl
        have last : fill.last = false := (split ▸ stuck.unfinished).notLast
        rcases assembling.read back split none pointer (Or.inl rfl) with ⟨reading, len⟩
        rw [last] at len
        refine ⟨[fill], rest, reading, ?_⟩
        rw [afterRead, len]
        refine .idle ?_ (none.snoc last) ?_ ?_
        · rw [RxRing.getRecvPacket_returned, back]
        · exact RxRing.Assembling.consumed_read cpu pointer (RxRing.consumed_nil ring)
        · exact Or.inr (RxRing.Assembling.stuck_read stuck)

/-- The lists and the buffers hold the frame while it is copied. -/
theorem sources_of_assembling
    (assembling : ring.Assembling config delivered frame unread)
    (back : ring.returned.length = delivered.length) (whole : Whole frame) :
    CopyState.Sources ring.rxBufferList ring.rxBufferLen ring.memory
      (frame.map Fill.bytes) := by
  have layout := assembling.layout
  have listed := assembling.listed whole.ne_nil
  have nonempty := nonempty_of_accepts assembling.accepts_rest
  constructor
  · intro fragment isFragment
    rcases List.mem_map.mp isFragment with ⟨fill, inFrame, rfl⟩
    exact nonempty fill (List.mem_append_left _ inFrame)
  · intro index fragment isFragment
    rw [List.getElem?_map] at isFragment
    rcases Option.map_eq_some_iff.mp isFragment with ⟨fill, isFill, rfl⟩
    exact (listed.entry index fill isFill).2
  · intro index fragment isFragment
    rw [List.getElem?_map] at isFragment
    rcases Option.map_eq_some_iff.mp isFragment with ⟨fill, isFill, rfl⟩
    have isOutstanding : fill ∈ ring.outstanding := by
      rw [assembling.outstanding_whole back]
      exact List.mem_append_left _ (List.mem_of_getElem? isFill)
    have bytes := (layout.holds fill isOutstanding).bytes
    rw [layout.wired.address _ (layout.slot_lt isOutstanding)] at bytes
    rw [(listed.entry index fill isFill).1]
    exact bytes

theorem follows_copying (assembling : ring.Assembling config delivered frame unread)
    (back : ring.returned.length = delivered.length) (whole : Whole frame)
    (consumed : ring.Consumed frame) (fresh : ring.Fresh unread) {copy : CopyState}
    (copied : copy.Copied (frame.map Fill.bytes))
    (taken : inputStep ⟨ring, .copying copy, results⟩ .input = some next) :
    Follows config ⟨ring, .copying copy, results⟩ delivered .input next := by
  have listed := assembling.listed whole.ne_nil
  have sources := sources_of_assembling assembling back whole
  simp only [inputStep] at taken
  split at taken
  next notDone =>
    cases taken
    rw [listed.total] at notDone
    have turned := CopyState.turn_copied sources copied notDone
    refine ⟨delivered, frame, unread, ⟨assembling, ?_⟩, fun _ intact => ?_⟩
    · exact .copying back whole consumed fresh _ turned.1
    · exact ⟨intact.results, nofun⟩
  next done =>
    cases taken
    rw [listed.total] at done
    simp only [listed.start]
    refine ⟨delivered, frame, unread, ⟨assembling, ?_⟩, fun _ intact => ?_⟩
    · refine .stopping whole _ ?_ 0 (Nat.zero_le _) back consumed fresh
      rintro chain ⟨⟩
      exact copied.chainBytes_eq done
    · exact ⟨intact.results, nofun⟩

theorem follows_stopping (assembling : ring.Assembling config delivered frame unread)
    (whole : Whole frame) {p : Option (List Pbuf)}
    (copied : ∀ chain, p = some chain → chainBytes chain = frameBytes frame)
    {i : Nat} (bound : i ≤ frame.length)
    (back : ring.returned.length = delivered.length + i)
    (consumed : ring.Consumed (frame.drop i)) (fresh : ring.Fresh unread)
    {nextDescriptor : Option Nat}
    (isNext : nextDescriptor = some ((delivered.length + i) % config.rxDescNum))
    (taken : inputStep ⟨ring, .stopping p i nextDescriptor, results⟩ .input = some next) :
    Follows config ⟨ring, .stopping p i nextDescriptor, results⟩ delivered .input
      next := by
  have layout := assembling.layout
  have listed := assembling.listed whole.ne_nil
  have isWhole := assembling.outstanding_eq back bound
  simp only [inputStep, listed.count] at taken
  split at taken
  next below =>
    rw [List.drop_eq_getElem_cons below] at isWhole consumed
    rw [List.cons_append] at isWhole
    have isFirst : ring.outstanding[0]? = some frame[i] := by simp [isWhole]
    have isSlot := layout.slot_eq isFirst
    rw [Nat.add_zero, back] at isSlot
    have inRing := layout.slot_lt (List.mem_of_getElem? isFirst)
    have follows : (ring.desc frame[i].slot).next =
        (delivered.length + (i + 1)) % config.rxDescNum := by
      rw [layout.wired.next _ inRing, isSlot, Nat.mod_add_mod, Nat.add_assoc]
    rw [isNext, ← isSlot] at taken
    cases taken
    simp only [follows]
    refine ⟨delivered, frame, unread, ⟨assembling.giveBack isWhole, ?_⟩,
      fun _ intact => ⟨intact.results, ?_⟩⟩
    · refine .stopping whole p copied (i + 1) below ?_ ?_ ?_
      · simp only [RxRing.giveBack, List.length_append, back, List.length_singleton]
        rfl
      · apply RxRing.Assembling.consumed_giveBack layout isWhole
        · exact List.subset_append_left _ _
        · intro fill isLater
          exact consumed fill (List.mem_cons_of_mem _ isLater)
      · exact RxRing.Assembling.fresh_giveBack fresh _
    · rintro j other ⟨⟩
      exact intact.chain i _ rfl
  next atEnd =>
    have all : i = frame.length := Nat.le_antisymm bound (Nat.not_lt.mp atEnd)
    cases taken
    refine ⟨delivered ++ frame, [], unread, ⟨assembling.deliver whole, ?_⟩,
      fun _ intact => ⟨?_, ?_⟩⟩
    · refine .idle ?_ rfl (RxRing.consumed_nil ring) (Or.inl fresh)
      rw [List.length_append, ← all]
      exact back
    · have results := intact.results
      simp only at results
      cases p with
      | none => exact absurd rfl (intact.chain i nextDescriptor)
      | some chain =>
          rw [framesFrom_append, assembling.ended, whole.frame, results]
          simp [copied chain rfl]
    · intro j other same
      cases same

theorem inputStep_follows {label : InputLabel}
    (tracks : Tracks config state delivered frame unread)
    (completes : Completes config state label)
    (taken : inputStep state label = some next) :
    Follows config state delivered label next := by
  rcases state with ⟨ring, pc, results⟩
  rcases tracks with ⟨assembling, phase⟩
  simp only at assembling phase
  cases label with
  | dma status bytes =>
      simp only [inputStep, Option.map_eq_some_iff] at taken
      rcases taken with ⟨after, fills, rfl⟩
      rcases RxRing.fill_eq_some_iff.mp fills with ⟨dma, rfl⟩
      rcases completes with ⟨continues, len, fits⟩
      exact ⟨delivered, frame, _,
        ⟨assembling.complete dma continues len fits, phase.complete assembling dma⟩,
        fun _ intact => ⟨intact.results, intact.chain⟩⟩
  | alloc ok =>
      cases phase with
      | alloc back whole consumed fresh small =>
          cases taken
          refine ⟨delivered, frame, unread, ⟨assembling, ?_⟩, ?_⟩
          · cases ok with
            | true =>
                refine .copying back whole consumed fresh _ ?_
                have sources := sources_of_assembling assembling back whole
                have nonempty := nonempty_of_accepts assembling.accepts_rest
                apply CopyState.start_copied sources.nonempty _ small
                apply frameBytes_pos _ whole.ne_nil
                intro fill inFrame
                exact nonempty fill (List.mem_append_left _ inFrame)
            | false =>
                simp only [(assembling.listed whole.ne_nil).start]
                exact .stopping whole none nofun 0 (Nat.zero_le _) back consumed fresh
          · intro found intact
            cases ok with
            | true => exact ⟨intact.results, nofun⟩
            | false => exact absurd rfl found
      | _ => cases taken
  | input =>
      cases phase with
      | idle back unfinished consumed readable =>
          cases taken
          cases unread with
          | nil =>
              rcases tracks_read_nil results assembling back unfinished consumed with
                ⟨frame', unread', tracks⟩
              exact ⟨delivered, frame', unread', tracks, fun _ => intact_afterRead⟩
          | cons fill rest =>
              exact ⟨delivered, frame ++ [fill], rest,
                tracks_read assembling back unfinished consumed readable,
                fun _ => intact_afterRead⟩
      | alloc => cases taken
      | copying back whole consumed fresh copy copied =>
          exact follows_copying assembling back whole consumed fresh copied taken
      | stopping whole p copied i bound back consumed fresh =>
          exact follows_stopping assembling whole copied bound back consumed fresh rfl
            taken

end Steps

theorem init_tracks (config : RxConfig) (desc : Nat → GmacDes RxView)
    (memory : Nat → UInt8) :
    Tracks config (InputState.init config desc memory) [] [] [] := by
  constructor
  · constructor
    · exact RxRing.init_layout config desc memory
    · rfl
    · exact accepts_nil _
    · rfl
    · exact (Nat.zero_mod _).symm
    · exact fun notEmpty => absurd rfl notEmpty
  · exact .idle rfl rfl (RxRing.consumed_nil _) (Or.inl (RxRing.fresh_nil _))

/-! ## Return -/

/-- The label of the next step of `low_level_input`. -/
def driverLabel (ok : Bool) : InputPc → InputLabel
  | .alloc _ => .alloc ok
  | _ => .input

/-- More than the number of steps until `low_level_input` returns. -/
def InputState.stepsLeft (state : InputState) : Nat :=
  match state.pc with
  | .idle => 0
  | .alloc _ => state.ring.rxBufferTotalLen + state.ring.rxBufferCount + 3
  | .copying copy =>
      state.ring.rxBufferTotalLen - copy.totalIndex + state.ring.rxBufferCount + 2
  | .stopping _ i _ => state.ring.rxBufferCount - i + 1

section Return

variable {config : RxConfig} {state next : InputState}
  {delivered frame unread : List Fill}

/-- Inside a call `low_level_input` can always go on, and comes closer to its end. -/
theorem driver_progress (tracks : Tracks config state delivered frame unread)
    (busy : state.pc ≠ .idle) (ok : Bool) :
    ∃ next, inputStep state (driverLabel ok state.pc) = some next ∧
      next.stepsLeft < state.stepsLeft := by
  rcases state with ⟨ring, pc, results⟩
  rcases tracks with ⟨assembling, phase⟩
  simp only at assembling phase busy
  cases phase with
  | idle => exact absurd rfl busy
  | alloc back whole consumed fresh small =>
      refine ⟨_, rfl, ?_⟩
      cases ok with
      | true =>
          simp only [InputState.stepsLeft, CopyState.start, if_true]
          omega
      | false =>
          simp only [InputState.stepsLeft, Bool.false_eq_true, if_false]
          omega
  | copying back whole consumed fresh copy copied =>
      have listed := assembling.listed whole.ne_nil
      have sources := sources_of_assembling assembling back whole
      simp only [driverLabel, inputStep]
      split
      next notDone =>
        refine ⟨_, rfl, ?_⟩
        rw [listed.total] at notDone
        have turned := CopyState.turn_copied sources copied notDone
        simp only [InputState.stepsLeft, listed.total]
        omega
      next =>
        refine ⟨_, rfl, ?_⟩
        simp only [InputState.stepsLeft]
        omega
  | stopping whole p copied i bound back consumed fresh =>
      simp only [driverLabel, inputStep]
      split
      next below =>
        refine ⟨_, rfl, ?_⟩
        simp only [InputState.stepsLeft, RxRing.giveBack]
        omega
      next =>
        refine ⟨_, rfl, ?_⟩
        simp only [InputState.stepsLeft]
        omega

/-- Every call of `low_level_input` returns, whatever `pbuf_alloc` does. -/
theorem input_returns (tracks : Tracks config state delivered frame unread) (ok : Bool) :
    ∃ labels final, run inputStep state labels = some final ∧ final.pc = .idle ∧
      ∀ label ∈ labels, label = .input ∨ label = .alloc ok := by
  induction left : state.stepsLeft using Nat.strong_induction_on
    generalizing state delivered frame unread with
  | _ left ih =>
    by_cases returned : state.pc = .idle
    · exact ⟨[], state, rfl, returned, nofun⟩
    · rcases driver_progress tracks returned ok with ⟨next, taken, less⟩
      have isDriver : driverLabel ok state.pc = .input ∨
          driverLabel ok state.pc = .alloc ok := by
        cases state.pc with
        | alloc len => exact Or.inr rfl
        | _ => exact Or.inl rfl
      have completes : Completes config state (driverLabel ok state.pc) := by
        rcases isDriver with isInput | isAlloc
        · rw [isInput]
          trivial
        · rw [isAlloc]
          trivial
      rcases inputStep_follows tracks completes taken with
        ⟨delivered', frame', unread', later, -⟩
      rcases ih _ (left ▸ less) later rfl with ⟨labels, final, runs, isIdle, each⟩
      refine ⟨driverLabel ok state.pc :: labels, final, ?_, isIdle, ?_⟩
      · rw [run, taken]
        exact runs
      · intro label isLabel
        rcases List.mem_cons.mp isLabel with rfl | isLater
        · exact isDriver
        · exact each label isLater

end Return

end SunWise.Gmac
