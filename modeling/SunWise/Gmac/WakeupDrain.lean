import SunWise.Gmac.Wakeup

/-!
# Draining the receive ring

The task blocks with completed descriptors in the ring only if it has given up draining:
after a fragment that is not the last of its frame, after `pbuf_alloc` has failed, or
after `netif->input` has failed.  An empty ring, counts that are taken without a wait and
interrupts that are coalesced lose nothing.
-/

namespace SunWise.Gmac

open Library

/-- A completed descriptor that has not been consumed is in the ring. -/
def Unread (config : RxConfig) (ring : RxRing) : Prop :=
  ∃ slot < config.rxDescNum, ring.Waiting slot

/-- While the task is blocked and no interrupt is pending, nothing is left in the ring. -/
def Awake (config : RxConfig) (state : WakeState) : Prop :=
  state.task = .take → state.ethSemaphore = 0 → state.ri = false → state.isr = .idle →
    ¬Unread config state.input.ring

/-- The task will not block for good: the semaphore can be taken, or an interrupt is
pending. -/
def Roused (state : WakeState) : Prop :=
  0 < state.ethSemaphore ∨ state.ri = true

/-- A completed descriptor lies behind the one at the read pointer. -/
def Behind (config : RxConfig) (ring : RxRing) : Prop :=
  ∃ slot < config.rxDescNum, slot ≠ ring.sLastRxDescriptor ∧ ring.Waiting slot

/-- The task goes back to its blocking take with a descriptor consumed, that is after a
fragment that is not the last, after `pbuf_alloc` has failed, or after `netif->input` has
failed, only if nothing else is completed or it is roused. -/
def Drains (config : RxConfig) (state : WakeState) : WakeLabel config → Prop
  | .task =>
      match state.task, state.input.pc with
      | .input, .idle =>
          state.input.ring.current.owner = false →
            state.input.ring.current.last = false →
              Behind config state.input.ring → Roused state
      | .input, .stopping none i _ =>
          ¬i < state.input.ring.rxBufferCount →
            Unread config state.input.ring → Roused state
      | _, _ => True
  | .netif false => Unread config state.input.ring → Roused state
  | _ => True

section Input

variable {config : RxConfig} {input next : InputState}

theorem inputStep_dma {status : BitVec 31} {bytes : List UInt8}
    (taken : inputStep input (.dma status bytes) = some next) :
    next.pc = input.pc ∧
      next.ring.filled = input.ring.filled ++ [input.ring.entry status bytes] := by
  simp only [inputStep, Option.map_eq_some_iff] at taken
  rcases taken with ⟨after, fills, rfl⟩
  rcases RxRing.fill_eq_some_iff.mp fills with ⟨-, rfl⟩
  exact ⟨rfl, rfl⟩

theorem inputStep_filled {label : InputLabel}
    (driver : label = .input ∨ ∃ ok, label = .alloc ok)
    (taken : inputStep input label = some next) :
    next.ring.filled = input.ring.filled := by
  rcases driver with rfl | ⟨ok, rfl⟩
  · simp only [inputStep] at taken
    split at taken
    next =>
      cases taken
      exact RxRing.getRecvPacket_filled _
    next => cases taken
    next =>
      split at taken <;>
      · cases taken
        rfl
    next =>
      split at taken
      · rcases Option.map_eq_some_iff.mp taken with ⟨descriptor, -, rfl⟩
        rfl
      · cases taken
        rfl
  · simp only [inputStep] at taken
    split at taken
    · cases taken
      rfl
    · cases taken

/-- The groups of descriptors are tracked, and no frame is half completed. -/
def Tracked (config : RxConfig) (input : InputState) : Prop :=
  (∃ delivered frame unread, Tracks config input delivered frame unread) ∧
    input.ring.filled.foldl underWay [] = []

theorem completeFrame_tracks {segments : List Segment} {frame : List UInt8}
    (tracks : ∃ delivered frame unread, Tracks config input delivered frame unread)
    (pending : input.ring.filled.foldl underWay [] = frame)
    (accepts : Accepts underWay Continues frame (segments.map Segment.fill))
    (len : ∀ segment ∈ segments, segment.descriptor.rxLength = segment.bytes.length)
    (fits : ∀ segment ∈ segments, segment.bytes.length ≤ config.rxBufferSize)
    (completes : completeFrame input segments = some next) :
    (∃ delivered frame unread, Tracks config next delivered frame unread) ∧
      next.ring.filled.foldl underWay [] =
        (segments.map Segment.fill).foldl underWay frame ∧
      next.pc = input.pc := by
  induction segments generalizing input frame with
  | nil =>
      cases completes
      exact ⟨tracks, pending, rfl⟩
  | cons segment segments ih =>
      rcases Option.bind_eq_some_iff.mp completes with ⟨middle, taken, later⟩
      rcases inputStep_dma taken with ⟨samePc, grown⟩
      rcases tracks with ⟨delivered, inFrame, unread, tracks⟩
      have isSegment : segment ∈ segment :: segments := List.mem_cons_self
      have continues : Continues (input.ring.filled.foldl underWay [])
          (input.ring.entry segment.status segment.bytes) := by
        rw [pending]
        exact ⟨accepts.1.first, accepts.1.nonempty, accepts.1.total⟩
      have wellFormed : Completes config input (.dma segment.status segment.bytes) :=
        ⟨continues, len segment isSegment, fits segment isSegment⟩
      rcases inputStep_follows tracks wellFormed taken with
        ⟨delivered', frame', unread', tracks', -⟩
      have pending' : middle.ring.filled.foldl underWay [] =
          underWay frame segment.fill := by
        rw [grown, List.foldl_append, pending]
        rfl
      have rest := ih ⟨delivered', frame', unread', tracks'⟩ pending' accepts.2
        (fun other isOther => len other (List.mem_cons_of_mem _ isOther))
        (fun other isOther => fits other (List.mem_cons_of_mem _ isOther)) later
      exact ⟨rest.1, rest.2.1, rest.2.2.trans samePc⟩

theorem Tracked.completeFrame (tracked : Tracked config input) (frame : RxFrame config)
    (completes : completeFrame input frame.segments = some next) :
    Tracked config next ∧ next.pc = input.pc := by
  rcases completeFrame_tracks tracked.1 tracked.2 frame.accepts frame.len frame.fits
    completes with ⟨tracks, pending, samePc⟩
  exact ⟨⟨tracks, pending.trans frame.whole.ended⟩, samePc⟩

theorem Tracked.driver (tracked : Tracked config input) {label : InputLabel}
    (driver : label = .input ∨ ∃ ok, label = .alloc ok)
    (taken : inputStep input label = some next) : Tracked config next := by
  rcases tracked with ⟨⟨delivered, frame, unread, tracks⟩, pending⟩
  have completes : Completes config input label := by
    rcases driver with rfl | ⟨ok, rfl⟩ <;> trivial
  rcases inputStep_follows tracks completes taken with
    ⟨delivered', frame', unread', tracks', -⟩
  refine ⟨⟨delivered', frame', unread', tracks'⟩, ?_⟩
  rw [inputStep_filled driver taken]
  exact pending

end Input

section Reading

variable {config : RxConfig} {ring : RxRing} {delivered frame unread : List Fill}

/-- If the DMA owns the descriptor at the read pointer, the ring has been drained. -/
theorem not_unread_of_dma
    (assembling : ring.Assembling config delivered frame unread)
    (phase : Phase config ring delivered frame unread .idle)
    (dma : ring.current.owner = true) : ¬Unread config ring := by
  rintro ⟨slot, inRing, waits⟩
  have layout := assembling.layout
  cases phase with
  | idle back unfinished consumed readable =>
      cases unread with
      | cons fill rest =>
          rw [(pointer_eq assembling back).2] at dma
          cases dma
      | nil =>
          have isWhole := assembling.outstanding_whole back
          have isOutstanding := (layout.owner slot inRing).mp waits.1
          rw [isWhole, List.append_nil] at isOutstanding
          rcases List.mem_map.mp isOutstanding with ⟨fill, inFrame, rfl⟩
          have isConsumed := consumed fill inFrame
          rw [waits.2] at isConsumed
          cases isConsumed

/-- What is unread after a read lies behind the descriptor that has been read. -/
theorem unread_read_iff (cpu : ring.current.owner = false) :
    Unread config ring.getRecvPacket.2 ↔ Behind config ring := by
  unfold Unread Behind RxRing.Waiting
  rw [RxRing.getRecvPacket_desc, RxRing.getRecvPacket_consumed cpu]
  refine exists_congr fun slot => and_congr_right fun inRing => ?_
  by_cases isCurrent : slot = ring.sLastRxDescriptor
  · simp [isCurrent]
  · simp [isCurrent]

/-- `low_level_input` returns `NULL` for a descriptor it has read only if that is not
the last of its frame. -/
theorem last_of_len_eq_zero
    (assembling : ring.Assembling config delivered frame unread)
    (phase : Phase config ring delivered frame unread .idle)
    (cpu : ring.current.owner = false) (len : ring.getRecvPacket.1 = 0) :
    ring.current.last = false := by
  have layout := assembling.layout
  cases phase with
  | idle back unfinished consumed readable =>
      have isWhole := assembling.outstanding_whole back
      cases unread with
      | nil =>
          have inRing : ring.sLastRxDescriptor < config.rxDescNum := by
            rw [assembling.pointer]
            exact Nat.mod_lt _ config.positive
          have isOutstanding := (layout.owner _ inRing).mp cpu
          rcases List.mem_map.mp isOutstanding with ⟨fill, isFill, pointer⟩
          have last := (layout.holds fill isFill).last
          rw [isWhole, List.append_nil] at isFill
          rcases List.append_of_mem isFill with ⟨before, after, rfl⟩
          rw [pointer] at last
          exact last.trans unfinished.notLast
      | cons fill rest =>
          have pointer := (pointer_eq assembling back).1
          have last := (layout.holds fill (by simp [isWhole])).last
          have read := (assembling.read back isWhole unfinished pointer (Or.inr rfl)).2
          have nonempty := (assembling.continues back isWhole unfinished).1.nonempty
          rw [RxRing.current, pointer, last]
          by_contra isLast
          rw [Bool.not_eq_false] at isLast
          rw [len, if_pos isLast, frameBytes_append, List.length_append,
            frameBytes_cons, List.length_append] at read
          omega

end Reading

/-! ## Runs -/

/-- Whenever a descriptor is unread, the task is running, or something will wake it. -/
structure Alert (config : RxConfig) (state : WakeState) : Prop where
  tracked : Tracked config state.input
  outside : state.task ≠ .input → state.input.pc = .idle
  status : ∀ status, state.isr = .read status ∨ state.isr = .cleared status →
    status = true
  roused : state.task = .take → state.isr = .idle → Unread config state.input.ring →
    Roused state

section Runs

variable {config : RxConfig} {state next : WakeState}

theorem Alert.awake (alert : Alert config state) : Awake config state := by
  intro blocked empty quiet idle unread
  rcases alert.roused blocked idle unread with some_count | pending
  · rw [empty] at some_count
    cases some_count
  · rw [quiet] at pending
    cases pending

/-- The handler gives the semaphore before it is left. -/
theorem Alert.isr (alert : Alert config state)
    (taken : gmacIrqHandlerStep state = some next) : Alert config next := by
  unfold gmacIrqHandlerStep at taken
  split at taken
  next =>
    split at taken
    next enabled =>
      cases taken
      refine ⟨alert.tracked, alert.outside, ?_, nofun⟩
      intro status place
      simp only [Bool.and_eq_true] at enabled
      rcases place with ⟨⟨⟩⟩ | ⟨⟨⟩⟩
      exact enabled.1
    next => cases taken
  next status isRead =>
    cases taken
    refine ⟨alert.tracked, alert.outside, ?_, nofun⟩
    intro other place
    rcases place with ⟨⟨⟩⟩ | ⟨⟨⟩⟩
    exact alert.status status (Or.inl isRead)
  next status isCleared =>
    have isSet := alert.status status (Or.inr isCleared)
    rw [isSet, Bool.true_or, if_pos rfl] at taken
    cases taken
    refine ⟨alert.tracked, alert.outside, nofun, ?_⟩
    intro _ _ _
    exact Or.inl (Nat.lt_min.mpr ⟨Nat.succ_pos _, by decide⟩)

theorem afterInput_ne_input {before after : InputPc}
    (returned : afterInput before after ≠ .input) : after = .idle := by
  cases after with
  | idle => rfl
  | _ => exact absurd (by cases before <;> rfl) returned

/-- When `low_level_input` returns `NULL`, either the ring has been drained, or the task
is roused. -/
theorem roused_of_null (alert : Alert config state) (isInput : state.task = .input)
    (drains : Drains config state .task) {input : InputState}
    (taken : inputStep state.input .input = some input)
    (null : afterInput state.input.pc input.pc = .take)
    (unread : Unread config input.ring) : Roused state := by
  rcases alert.tracked.1 with ⟨delivered, frame, rest, tracks⟩
  have phase := tracks.phase
  simp only [Drains, isInput] at drains
  simp only [inputStep] at taken
  cases place : state.input.pc with
  | idle =>
      rw [place] at phase
      simp only [place] at taken drains null
      cases taken
      cases owner : state.input.ring.current.owner with
      | true =>
          rw [RxRing.getRecvPacket_dma owner] at unread
          exact absurd unread (not_unread_of_dma tracks.assembling phase owner)
      | false =>
          have len : state.input.ring.getRecvPacket.1 = 0 := by
            by_contra nonzero
            simp [nonzero, afterInput] at null
          have last := last_of_len_eq_zero tracks.assembling phase owner len
          exact drains owner last ((unread_read_iff owner).mp unread)
  | alloc len => simp [place] at taken
  | copying copy =>
      simp only [place] at taken
      split at taken <;>
      · cases taken
        cases null
  | stopping p i nextDescriptor =>
      simp only [place] at taken null drains
      split at taken
      next =>
        rcases Option.map_eq_some_iff.mp taken with ⟨descriptor, -, rfl⟩
        cases null
      next atEnd =>
        cases taken
        cases p with
        | none => exact drains atEnd unread
        | some chain => cases null

theorem Alert.task (alert : Alert config state)
    (drains : Drains config state .task)
    (taken : ethernetifInputStep state = some next) : Alert config next := by
  have status : ∀ status, state.isr = .read status ∨ state.isr = .cleared status →
      status = true := alert.status
  unfold ethernetifInputStep at taken
  cases place : state.task with
  | take =>
      simp only [place] at taken
      split at taken
      · cases taken
        exact ⟨alert.tracked, fun outside => absurd rfl outside, status, nofun⟩
      · cases taken
  | input =>
      simp only [place, Option.map_eq_some_iff] at taken
      rcases taken with ⟨input, taken, rfl⟩
      refine ⟨alert.tracked.driver (Or.inl rfl) taken, afterInput_ne_input, status, ?_⟩
      intro null _ unread
      have roused : Roused state := roused_of_null alert place drains taken null unread
      exact roused
  | exited =>
      simp only [place] at taken
      cases taken
      have outside := alert.outside (by rw [place]; nofun)
      exact ⟨alert.tracked, fun _ => outside, status, nofun⟩
  | deliver => simp [place] at taken
  | drain =>
      simp only [place] at taken
      cases taken
      exact ⟨alert.tracked, fun outside => absurd rfl outside, status, nofun⟩

/-- Every step that drains the ring keeps the task alert. -/
theorem wakeStep_alert {label : WakeLabel config} (alert : Alert config state)
    (drains : Drains config state label)
    (taken : wakeStep config state label = some next) : Alert config next := by
  cases label with
  | frame frame =>
      simp only [wakeStep, Option.map_eq_some_iff] at taken
      rcases taken with ⟨input, completes, rfl⟩
      rcases alert.tracked.completeFrame frame completes with ⟨tracked, samePc⟩
      refine ⟨tracked, ?_, alert.status, fun _ _ _ => Or.inr rfl⟩
      intro outside
      exact samePc.trans (alert.outside outside)
  | isr => exact alert.isr taken
  | alloc ok =>
      simp only [wakeStep] at taken
      split at taken
      next place =>
        rcases Option.map_eq_some_iff.mp taken with ⟨input, returns, rfl⟩
        refine ⟨alert.tracked.driver (Or.inr ⟨ok, rfl⟩) returns, ?_, alert.status, ?_⟩
        · exact fun outside => absurd place.2 outside
        · intro isTake
          simp only [place.2] at isTake
          cases isTake
      next => cases taken
  | netif ok =>
      simp only [wakeStep] at taken
      split at taken
      next place =>
        cases taken
        have outside := alert.outside (by rw [place.2]; nofun)
        refine ⟨alert.tracked, fun _ => outside, alert.status, ?_⟩
        intro isTake _ unread
        cases ok with
        | true => cases isTake
        | false => exact drains unread
      next => cases taken
  | task =>
      simp only [wakeStep] at taken
      split at taken
      next => exact alert.task drains taken
      next => cases taken

theorem quiet_of_not_roused (notRoused : ¬Roused state) :
    state.ethSemaphore = 0 ∧ state.ri = false := by
  rcases not_or.mp notRoused with ⟨none, quiet⟩
  exact ⟨Nat.eq_zero_of_not_pos none, Bool.eq_false_of_not_eq_true quiet⟩

/-- A call that returns `NULL` for a fragment, or without memory, leaves what is unread
to a task that is blocked. -/
theorem not_awake_task (isrIdle : state.isr = .idle)
    (givesUp : ¬Drains config state .task)
    (taken : ethernetifInputStep state = some next) : ¬Awake config next := by
  intro awake
  cases isTask : state.task with
  | input =>
      simp only [Drains, isTask] at givesUp
      simp only [ethernetifInputStep, isTask, inputStep] at taken
      cases place : state.input.pc with
      | idle =>
          simp only [place] at givesUp taken
          push Not at givesUp
          rcases givesUp with ⟨cpu, notLast, behind, notRoused⟩
          have quiet := quiet_of_not_roused notRoused
          have len : state.input.ring.getRecvPacket.1 = 0 := by
            rw [(RxRing.getRecvPacket_cpu cpu).2, notLast]
            rfl
          simp only [len, if_true] at taken
          cases taken
          exact awake rfl quiet.1 quiet.2 isrIdle ((unread_read_iff cpu).mpr behind)
      | stopping p i nextDescriptor =>
          cases p with
          | none =>
              simp only [place] at givesUp taken
              push Not at givesUp
              rcases givesUp with ⟨atEnd, unread, notRoused⟩
              have quiet := quiet_of_not_roused notRoused
              rw [if_neg (Nat.not_lt.mpr atEnd)] at taken
              cases taken
              exact awake rfl quiet.1 quiet.2 isrIdle unread
          | some chain => simp [place] at givesUp
      | _ => simp [place] at givesUp
  | _ => simp [Drains, isTask] at givesUp

/-- The task that gives up is blocked with a descriptor left in the ring. -/
theorem not_awake {label : WakeLabel config} (givesUp : ¬Drains config state label)
    (taken : wakeStep config state label = some next) : ¬Awake config next := by
  cases label with
  | task =>
      simp only [wakeStep] at taken
      split at taken
      next isrIdle => exact not_awake_task isrIdle givesUp taken
      next => cases taken
  | netif ok =>
      cases ok with
      | true => exact absurd trivial givesUp
      | false =>
          simp only [Drains] at givesUp
          push Not at givesUp
          rcases givesUp with ⟨unread, notRoused⟩
          simp only [wakeStep] at taken
          split at taken
          next place =>
            cases taken
            have quiet := quiet_of_not_roused notRoused
            intro awake
            exact awake rfl quiet.1 quiet.2 place.1 unread
          next => cases taken
  | _ => exact absurd trivial givesUp

/-- No wakeup is lost along exactly the runs in which the task drains the ring. -/
theorem wakeup_awake_iff (config : RxConfig) (desc : Nat → GmacDes RxView)
    (memory : Nat → UInt8) (labels : List (WakeLabel config)) :
    Always (wakeStep config) (Awake config) (WakeState.init config desc memory) labels ↔
      Throughout (wakeStep config) (Drains config) (WakeState.init config desc memory)
        labels := by
  apply always_iff_throughout (fun state alert => Alert.awake alert)
  · intro state label next alert drains taken
    exact wakeStep_alert alert drains taken
  · intro state label next _ givesUp taken
    exact not_awake givesUp taken
  · refine ⟨⟨⟨[], [], [], init_tracks config desc memory⟩, rfl⟩, fun _ => rfl, nofun, ?_⟩
    rintro - - ⟨slot, inRing, waits⟩
    exact absurd waits.1 (by simp [WakeState.init, InputState.init, RxRing.init,
      hwGmacInitRxDescriptor, inRing])

/-- A frame of two bytes in two descriptors. -/
def pairFrame : RxFrame (defaultRxConfig 0) where
  segments := [⟨0x00010200, [7]⟩, ⟨0x00010100, [8]⟩]
  accepts := ⟨⟨by decide, by decide, by decide⟩, ⟨by decide, by decide, by decide⟩, trivial⟩
  whole := ⟨by decide, by decide⟩
  len := by decide
  fits := by decide

/-- The task blocks after the first descriptor and leaves the second. -/
theorem wakeup_not_awake :
    ¬Always (wakeStep (defaultRxConfig 0)) (Awake (defaultRxConfig 0))
      (WakeState.init (defaultRxConfig 0) (fun _ => default) fun _ => 0)
      [.frame pairFrame, .isr, .isr, .isr, .task, .task] := by
  intro always
  have awake := always.of_run rfl
  exact awake rfl rfl rfl rfl ⟨1, by decide, rfl, rfl⟩

end Runs

end SunWise.Gmac
