import SunWise.Gmac.InputSteps

/-!
# Delivery of received frames

As long as the DMA completes well-formed frames and `pbuf_alloc` finds memory, the calls
of `low_level_input` return the frames in the order of their completion, byte for byte,
and give back exactly the descriptors of the frames they have returned.
-/

namespace SunWise.Gmac

open Library

/-- The frames that the DMA has completed. -/
def RxRing.frames (ring : RxRing) : List (List UInt8) :=
  framesFrom [] ring.filled

/-- The DMA completes well-formed frames, and `pbuf_alloc` succeeds. -/
def WellFormed (config : RxConfig) (state : InputState) (label : InputLabel) : Prop :=
  Completes config state label ∧ label ≠ .alloc false

/-- Between two calls, with nothing left to read. -/
def Drained (config : RxConfig) (state : InputState) : Prop :=
  state.pc = .idle ∧ ∀ slot < config.rxDescNum, ¬state.ring.Waiting slot

/-- The descriptors that have been given back are those of the frames that have been
returned, and of the frame that has just been copied while `HW_GMAC_StopRecvPacket`
runs. -/
structure Released (state : InputState) (delivered : List Fill) : Prop where
  completed : delivered <+: state.ring.filled
  results : framesFrom [] delivered = state.results
  ended : delivered.foldl underWay [] = []
  once : state.ring.returned <+: state.ring.filled.map Fill.slot
  whole : delivered.map Fill.slot <+: state.ring.returned
  exact : (∀ p i next, state.pc ≠ .stopping p i next) →
    state.ring.returned = delivered.map Fill.slot

/-- A step that reads the descriptor at the read pointer, which was waiting, and no other. -/
structure Reads (state next : InputState) : Prop where
  waiting : state.ring.Waiting state.ring.sLastRxDescriptor
  others : ∀ slot, next.ring.Waiting slot ↔
    state.ring.Waiting slot ∧ slot ≠ state.ring.sLastRxDescriptor

/-- What is promised at every moment. -/
structure Delivers (config : RxConfig) (state : InputState) : Prop where
  inOrder : state.results <+: state.ring.frames
  drained : Drained config state → state.results = state.ring.frames
  released : ∃ delivered, Released state delivered
  uncopied : (∃ len, state.pc = .alloc len) ∨ (∃ copy, state.pc = .copying copy) →
    ∀ slot, state.ring.InFrame config slot → (state.ring.desc slot).owner = false
  copied : ∀ p i next, state.pc = .stopping p i next →
    ∃ chain, p = some chain ∧ state.results ++ [chainBytes chain] <+: state.ring.frames
  reads : state.pc = .idle → (∃ slot < config.rxDescNum, state.ring.Waiting slot) →
    ∃ next, inputStep state .input = some next ∧ Reads state next
  returns : ∃ labels final, run inputStep state labels = some final ∧ final.pc = .idle ∧
    ∀ label ∈ labels, label = .input ∨ label = .alloc true

section Runs

variable {config : RxConfig} {state : InputState} {ring : RxRing}
  {delivered frame unread : List Fill}

/-- Only the descriptors of the frame under assembly may have been given back besides
those of delivered frames, and only while they are being given back. -/
theorem Phase.back {pc : InputPc} (phase : Phase config ring delivered frame unread pc) :
    ∃ given ≤ frame.length, ring.returned.length = delivered.length + given ∧
      ((∀ p i next, pc ≠ .stopping p i next) → given = 0) := by
  cases phase with
  | stopping whole p copied i bound back =>
      exact ⟨i, bound, back, fun notStopping => absurd rfl (notStopping _ _ _)⟩
  | idle back => exact ⟨0, Nat.zero_le _, back, fun _ => rfl⟩
  | alloc back => exact ⟨0, Nat.zero_le _, back, fun _ => rfl⟩
  | copying back => exact ⟨0, Nat.zero_le _, back, fun _ => rfl⟩

theorem Tracks.released (tracks : Tracks config state delivered frame unread)
    (intact : Intact state delivered) : Released state delivered := by
  have assembling := tracks.assembling
  rcases tracks.phase.back with ⟨given, -, back, notGiven⟩
  have completed : delivered <+: state.ring.filled := by
    rw [assembling.split]
    exact List.prefix_append _ _
  have whole : delivered.map Fill.slot <+: state.ring.returned := by
    apply List.prefix_of_prefix_length_le (completed.map Fill.slot)
      assembling.layout.returned
    rw [List.length_map, back]
    exact Nat.le_add_right _ _
  refine ⟨completed, intact.results.symm, assembling.ended, assembling.layout.returned, whole, ?_⟩
  intro notStopping
  refine (whole.eq_of_length ?_).symm
  rw [List.length_map, back, notGiven notStopping, Nat.add_zero]

/-- Once nothing is left to read, no frame is. -/
theorem frames_of_drained
    (assembling : ring.Assembling config delivered frame unread)
    (phase : Phase config ring delivered frame unread .idle)
    (drained : ∀ slot < config.rxDescNum, ¬ring.Waiting slot) :
    Unfinished (frame ++ unread) := by
  have layout := assembling.layout
  cases phase with
  | idle back unfinished consumed readable =>
      have isWhole := assembling.outstanding_whole back
      rcases readable with fresh | stuck
      · have nothing : unread = [] := by
          apply List.eq_nil_iff_forall_not_mem.mpr
          intro fill isUnread
          have isOutstanding : fill ∈ ring.outstanding := by
            rw [isWhole]
            exact List.mem_append_right _ isUnread
          exact drained _ (layout.slot_lt isOutstanding)
            ⟨layout.owner_of_outstanding isOutstanding, fresh fill isUnread⟩
        rw [nothing, List.append_nil]
        exact unfinished
      · rw [← isWhole]
        exact stuck.unfinished

theorem owner_of_inFrame
    (assembling : ring.Assembling config delivered frame unread)
    (back : ring.returned.length = delivered.length) (whole : Whole frame) {slot : Nat}
    (inFrame : ring.InFrame config slot) : (ring.desc slot).owner = false := by
  have layout := assembling.layout
  have listed := assembling.listed whole.ne_nil
  rcases inFrame with ⟨start, isStart, inWindow⟩
  rw [listed.start] at isStart
  cases isStart
  rw [listed.count, slots_mod] at inWindow
  have inRing := lt_of_mem_slots config.positive inWindow
  rw [layout.owner _ inRing, layout.outstanding_slots, back,
    assembling.outstanding_whole back, List.length_append, slots_add]
  exact List.mem_append_left _ inWindow

/-- As long as a descriptor waits, the one at the read pointer does. -/
theorem current_waiting
    (assembling : ring.Assembling config delivered frame unread)
    (phase : Phase config ring delivered frame unread .idle) {slot : Nat}
    (inRing : slot < config.rxDescNum) (waiting : ring.Waiting slot) :
    ring.Waiting ring.sLastRxDescriptor := by
  have layout := assembling.layout
  rcases List.mem_map.mp ((layout.owner slot inRing).mp waiting.1) with ⟨fill, isOutstanding, rfl⟩
  have unconsumed : ring.consumed fill.slot ≠ true := by simp [waiting.2]
  cases phase with
  | idle back unfinished consumed readable =>
      rw [assembling.outstanding_whole back] at isOutstanding
      rcases readable with fresh | stuck
      · cases unread with
        | nil =>
            rw [List.append_nil] at isOutstanding
            exact absurd (consumed fill isOutstanding) unconsumed
        | cons first rest =>
            rcases pointer_eq assembling back with ⟨pointer, cpu⟩
            exact ⟨cpu, pointer ▸ fresh first List.mem_cons_self⟩
      · rw [← assembling.outstanding_whole back] at isOutstanding
        exact absurd (stuck.consumed fill isOutstanding) unconsumed

theorem reads_of_waiting {results : List (List UInt8)}
    (waiting : ring.Waiting ring.sLastRxDescriptor) :
    ∃ next, inputStep ⟨ring, .idle, results⟩ .input = some next ∧
      Reads ⟨ring, .idle, results⟩ next := by
  refine ⟨afterRead ring results, rfl, waiting, fun slot => ?_⟩
  rw [RxRing.Waiting, RxRing.Waiting, afterRead, RxRing.getRecvPacket_desc,
    RxRing.getRecvPacket_consumed waiting.1]
  by_cases same : slot = ring.sLastRxDescriptor
  · simp [same]
  · simp [same]

/-- A state in which no frame has been dropped. -/
def Undropped (config : RxConfig) (state : InputState) : Prop :=
  ∃ delivered frame unread, Tracks config state delivered frame unread ∧
    Intact state delivered

theorem Undropped.delivers (undropped : Undropped config state) :
    Delivers config state := by
  rcases undropped with ⟨delivered, frame, unread, tracks, intact⟩
  have released := tracks.released intact
  have returns := input_returns tracks true
  rcases state with ⟨ring, pc, results⟩
  rcases tracks with ⟨assembling, phase⟩
  rcases intact with ⟨isResult, notDropped⟩
  simp only at assembling phase isResult notDropped
  subst isResult
  have frames : ring.frames = framesFrom [] delivered ++ framesFrom [] (frame ++ unread) :=
    assembling.frames_eq
  constructor
  · simp only [frames]
    exact List.prefix_append _ _
  · rintro ⟨isIdle, drained⟩
    simp only at isIdle drained
    subst isIdle
    have nothing : framesFrom [] (frame ++ unread) = [] :=
      frames_of_drained assembling phase drained
    simp only [frames, nothing, List.append_nil]
  · exact ⟨delivered, released⟩
  · rintro place slot inFrame
    cases phase with
    | alloc back whole => exact owner_of_inFrame assembling back whole inFrame
    | copying back whole => exact owner_of_inFrame assembling back whole inFrame
    | _ => simp at place
  · rintro p i next isStopping
    cases phase with
    | stopping whole p copied =>
        cases isStopping
        cases p with
        | none => exact absurd rfl (notDropped i _)
        | some chain =>
            refine ⟨chain, rfl, ?_⟩
            simp only [frames, framesFrom_append, whole.frame, copied chain rfl]
            rw [← List.append_assoc]
            exact List.prefix_append _ _
    | _ => cases isStopping
  · rintro isIdle ⟨slot, inRing, waiting⟩
    simp only at isIdle waiting
    subst isIdle
    exact reads_of_waiting (current_waiting assembling phase inRing waiting)
  · exact returns

/-- Frames are delivered in order, once and intact, and their descriptors are given back
once, after they have been copied. Every call returns, and reads a descriptor if one waits. -/
theorem input_delivers (config : RxConfig) (desc : Nat → GmacDes RxView)
    (memory : Nat → UInt8) (labels : List InputLabel)
    (wellFormed : Throughout inputStep (WellFormed config)
      (InputState.init config desc memory) labels) :
    Always inputStep (Delivers config) (InputState.init config desc memory) labels := by
  have start : Undropped config (InputState.init config desc memory) :=
    ⟨[], [], [], init_tracks config desc memory, rfl, nofun⟩
  have preserved : ∀ state label next, Undropped config state →
      WellFormed config state label → inputStep state label = some next →
        Undropped config next := by
    rintro state label next ⟨delivered, frame, unread, tracks, intact⟩ wellFormed taken
    rcases inputStep_follows tracks wellFormed.1 taken with
      ⟨delivered', frame', unread', later, undropped⟩
    exact ⟨delivered', frame', unread', later, undropped wellFormed.2 intact⟩
  have always := always_of_throughout preserved start wellFormed
  exact always.mono fun state undropped => undropped.delivers

/-- A frame in two descriptors. -/
theorem input_delivers_pair :
    Always inputStep (Delivers (defaultRxConfig 0))
      (InputState.init (defaultRxConfig 0) (fun _ => default) fun _ => 0)
      [.dma 0x00010200 [7], .dma 0x00010100 [8], .input, .input, .alloc true, .input] := by
  apply input_delivers
  apply throughout_cons rfl
    ⟨⟨⟨by decide, by decide, by decide⟩, by decide, by decide⟩, nofun⟩
  apply throughout_cons rfl
    ⟨⟨⟨by decide, by decide, by decide⟩, by decide, by decide⟩, nofun⟩
  apply throughout_cons rfl ⟨trivial, nofun⟩
  apply throughout_cons rfl ⟨trivial, nofun⟩
  apply throughout_cons rfl ⟨trivial, nofun⟩
  apply throughout_cons rfl ⟨trivial, nofun⟩
  trivial

end Runs

end SunWise.Gmac
