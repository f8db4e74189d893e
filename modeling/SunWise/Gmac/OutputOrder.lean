import SunWise.Gmac.OutputSafety

/-!
# A single sending task

When `low_level_output` is called by one task only, every step is harmless, and the ring
is a queue: what the calls have accepted leaves on the wire in order.
-/

namespace SunWise.Gmac

open Library

/-- The frame of a call that has handed it over and not yet returned. -/
def OutputPc.inFlight : OutputPc → List (List UInt8)
  | .leaving p .errOk => [p.flatten]
  | _ => []

/-- A bound for the steps until the call returns. -/
def OutputPc.remaining : OutputPc → Nat
  | .idle => 0
  | .test p => p.length + 8
  | .create p => p.length + 7
  | .release p => p.length + 6
  | .lookup p => p.length + 5
  | .enter p _ => p.length + 4
  | .waiting p _ _ => p.length + 3
  | .copying _ _ _ rest => rest.length + 2
  | .leaving _ _ => 1

/-- What the transmit ring is meant to be for a single caller. -/
structure QueueSafe (config : TxConfig) (state : OutputState Unit) : Prop where
  /-- What has been sent and what is with the DMA is what the calls have accepted. -/
  order : state.ring.wire ++ state.ring.outstanding.map Prod.snd =
    okFrames state.results ++ (state.pc ()).inFlight
  /-- The next descriptor is DMA-owned when every descriptor is. -/
  full : state.ring.tail.owner = true ↔
    state.ring.outstanding.length = config.txDescNum
  /-- A call is refused in exactly that case. -/
  refused : ∀ p next, state.pc () = .lookup p →
    outputStep state (.step ()) = some next →
    (next.pc () = .leaving p .errUse ↔ state.ring.outstanding.length = config.txDescNum)
  /-- No `memcpy` reaches into a buffer of a DMA-owned descriptor. -/
  buffers : ∀ p packet bufferoffset q rest,
    state.pc () = .copying p packet bufferoffset (q :: rest) →
      state.ring.Free config (packet + bufferoffset) q.length
  /-- No DMA-owned descriptor is rewritten. -/
  descriptors : ∀ p packet framelength,
    state.pc () = .copying p packet framelength [] → state.ring.tail.owner = false
  /-- The caller is never stuck, and its call returns. -/
  proceeds : state.pc () ≠ .idle → ∃ next, outputStep state (.step ()) = some next ∧
    (next.pc ()).remaining < (state.pc ()).remaining

/-- What a single task can rely on at its next call: the semaphore it creates is missing,
and what it has looked up is still there. -/
def SoloAt (ring : TxRing) (ousem : Ousem) : OutputPc → Prop
  | .create _ => ousem.sem = none
  | .enter _ packet | .waiting _ packet _ =>
      packet = ring.tail.buffer1Addr ∧ ring.tail.owner = false
  | _ => True

/-- What holds of a single task in addition: what it does not have of the semaphore is
there. -/
structure SoloInv (state : OutputState Unit) : Prop where
  at_ : SoloAt state.ring state.ousem (state.pc ())
  token : ∀ sem, state.ousem.sem = some sem → ¬(state.pc ()).HasToken →
    state.ousem.counts sem = 1

/-- The label is not a call with a frame that is too long. -/
def Short (config : TxConfig) : OutputLabel Unit → Prop
  | .call _ p => Fits config p
  | _ => True

theorem Ousem.counts_of_signal {ousem after : Ousem} (signals : ousem.signal = some after)
    {sem : Nat} (isSem : after.sem = some sem) : after.counts sem = 1 := by
  simp only [Ousem.signal, Option.map_eq_some_iff] at signals
  rcases signals with ⟨old, isOld, rfl⟩
  rw [isOld] at isSem
  cases isSem
  simp

/-- With one task, the frames are in the order of its calls. -/
theorem Answered.order {state : OutputState Unit} (answered : Answered state) :
    state.ring.accepted = okFrames state.results ++ (state.pc ()).inFlight := by
  cases place : state.pc () with
  | leaving p errval =>
      cases errval with
      | errOk => exact answered.handed () p place
      | errUse =>
          refine (answered.returned fun _ p' leaves => ?_).trans (List.append_nil _).symm
          rw [place] at leaves
          cases leaves
  | _ =>
      refine (answered.returned fun _ p' leaves => ?_).trans (List.append_nil _).symm
      rw [place] at leaves
      cases leaves

namespace SoloInv

variable {config : TxConfig} {state : OutputState Unit}

theorem allowed (solo : SoloInv state) {label : OutputLabel Unit}
    (short : Short config label) : Allowed config state label := by
  cases label with
  | call task p => exact short
  | dma => trivial
  | step task =>
      have relies := solo.at_
      have token := solo.token
      simp only [Allowed]
      cases place : state.pc task with
      | create p =>
          rw [place] at relies
          exact relies
      | waiting p packet sem =>
          rw [place] at relies
          exact relies
      | leaving p errval =>
          cases errval with
          | errOk => trivial
          | errUse =>
              intro sem isSem
              apply token sem isSem
              rw [place]
              exact id
      | _ => trivial

theorem taskStep (solo : SoloInv state) {next : OutputState Unit}
    (taken : Gmac.taskStep state () = some next) : SoloInv next := by
  rcases solo with ⟨relies, token⟩
  unfold Gmac.taskStep at taken
  cases place : state.pc () with
  | idle => simp [place] at taken
  | test p =>
      simp only [place, Option.some.injEq] at taken relies token
      subst next
      by_cases missing : state.ousem.sem = none
      · rw [if_pos missing]
        exact ⟨missing, fun sem isSem _ => token sem isSem id⟩
      · rw [if_neg missing]
        exact ⟨trivial, fun sem isSem _ => token sem isSem id⟩
  | create p =>
      simp only [place, Option.some.injEq] at taken
      subst next
      exact ⟨trivial, fun _ _ outside => absurd trivial outside⟩
  | release p =>
      simp only [place, Option.map_eq_some_iff] at taken
      rcases taken with ⟨ousem, signals, rfl⟩
      exact ⟨trivial, fun sem isSem _ => Ousem.counts_of_signal signals isSem⟩
  | lookup p =>
      simp only [place, TxRing.getSendPacket] at taken token
      by_cases dma : state.ring.tail.owner = true
      · simp only [dma, if_true, Option.some.injEq] at taken
        subst next
        exact ⟨trivial, fun sem isSem _ => token sem isSem id⟩
      · simp only [dma, Bool.false_eq_true, if_false, Option.some.injEq] at taken
        subst next
        have cpu : state.ring.tail.owner = false := by simpa using dma
        exact ⟨⟨rfl, cpu⟩, fun sem isSem _ => token sem isSem id⟩
  | enter p packet =>
      simp only [place, Option.map_eq_some_iff] at taken relies token
      rcases taken with ⟨sem, isSem, rfl⟩
      exact ⟨relies, fun sem isSem _ => token sem isSem id⟩
  | waiting p packet sem =>
      simp only [place, Option.map_eq_some_iff] at taken
      rcases taken with ⟨ousem, takes, rfl⟩
      exact ⟨trivial, fun _ _ outside => absurd trivial outside⟩
  | copying p packet bufferoffset rest =>
      cases rest with
      | nil =>
          simp only [place, Option.some.injEq] at taken
          subst next
          exact ⟨trivial, fun _ _ outside => absurd trivial outside⟩
      | cons q rest =>
          simp only [place, Option.some.injEq] at taken
          subst next
          exact ⟨trivial, fun _ _ outside => absurd trivial outside⟩
  | leaving p errval =>
      simp only [place, Option.map_eq_some_iff] at taken
      rcases taken with ⟨ousem, signals, rfl⟩
      exact ⟨trivial, fun sem isSem _ => Ousem.counts_of_signal signals isSem⟩

theorem step (solo : SoloInv state) {label : OutputLabel Unit}
    {next : OutputState Unit} (taken : outputStep state label = some next) :
    SoloInv next := by
  cases label with
  | call task p =>
      simp only [outputStep, Option.ite_none_right_eq_some, Option.some.injEq] at taken
      rcases taken with ⟨isIdle, rfl⟩
      rcases solo with ⟨relies, token⟩
      rw [isIdle] at token
      exact ⟨trivial, fun sem isSem _ => token sem isSem id⟩
  | step task => exact solo.taskStep taken
  | dma =>
      simp only [outputStep, Option.map_eq_some_iff] at taken
      rcases taken with ⟨ring, sends, rfl⟩
      rcases TxRing.transmit_frame sends with ⟨-, -, tail⟩
      rcases solo with ⟨relies, token⟩
      refine ⟨?_, token⟩
      simp only
      cases place : state.pc () with
      | create p =>
          rw [place] at relies
          exact relies
      | enter p packet =>
          rw [place] at relies
          simp only [SoloAt, tail relies.2]
          exact relies
      | waiting p packet sem =>
          rw [place] at relies
          simp only [SoloAt, tail relies.2]
          exact relies
      | _ => trivial

/-- A single task finds the semaphore, and finds it given back. -/
theorem proceeds (solo : SoloInv state) (inv : OutputInv config state)
    (called : state.pc () ≠ .idle) :
    ∃ next, outputStep state (.step ()) = some next ∧
      (next.pc ()).remaining < (state.pc ()).remaining := by
  have late : ¬(state.pc ()).Early → ∃ sem, state.ousem.sem = some sem :=
    fun isLate => Option.ne_none_iff_exists'.mp (inv.sem_ne_none isLate)
  simp only [outputStep, Gmac.taskStep]
  cases place : state.pc () with
  | idle => exact absurd place called
  | test p =>
      refine ⟨_, rfl, ?_⟩
      rw [OutputState.pc_goto]
      split <;> simp [OutputPc.remaining]
  | create p => exact ⟨_, rfl, by simp [OutputPc.remaining]⟩
  | release p =>
      rw [place] at late
      rcases late id with ⟨sem, isSem⟩
      simp only [Ousem.signal, isSem]
      exact ⟨_, rfl, by simp [OutputPc.remaining]⟩
  | lookup p =>
      cases found : state.ring.getSendPacket with
      | none => exact ⟨_, rfl, by simp [OutputPc.remaining]⟩
      | some packet => exact ⟨_, rfl, by simp [OutputPc.remaining]⟩
  | enter p packet =>
      rw [place] at late
      rcases late id with ⟨sem, isSem⟩
      rw [isSem]
      exact ⟨_, rfl, by simp [OutputPc.remaining]⟩
  | waiting p packet sem =>
      have isSem := inv.sem.handle () sem (by rw [place]; rfl)
      have count := solo.token sem isSem (by rw [place]; exact id)
      simp only [Ousem.take, count]
      exact ⟨_, rfl, by simp [OutputPc.remaining]⟩
  | copying p packet bufferoffset rest =>
      cases rest with
      | nil => exact ⟨_, rfl, by simp [OutputPc.remaining]⟩
      | cons q rest => exact ⟨_, rfl, by simp [OutputPc.remaining]⟩
  | leaving p errval =>
      rw [place] at late
      rcases late id with ⟨sem, isSem⟩
      simp only [Ousem.signal, isSem]
      exact ⟨_, rfl, by simp [OutputPc.remaining]⟩

theorem queueSafe (solo : SoloInv state) (inv : OutputInv config state)
    (answered : Answered state) : QueueSafe config state where
  order := inv.ring.sent.trans answered.order
  full := inv.ring.tail_owner_iff
  refused := by
    intro p next place taken
    rw [← inv.ring.tail_owner_iff]
    simp only [outputStep, Gmac.taskStep, place, TxRing.getSendPacket] at taken
    by_cases dma : state.ring.tail.owner = true
    · simp only [dma, if_true, Option.some.injEq] at taken
      subst next
      simp [OutputState.goto, dma]
    · simp only [dma, Bool.false_eq_true, if_false, Option.some.injEq] at taken
      subst next
      simp [OutputState.goto, dma]
  buffers _ _ _ _ _ := inv.buffers
  descriptors _ _ _ := inv.descriptors
  proceeds := solo.proceeds inv

end SoloInv

/-- Next to any DMA, a single caller with frames that fit uses the ring as a queue: the
frames on the wire are those of the successful calls in call order, a call is refused
exactly when every descriptor is with the DMA, nothing the DMA owns is written, and every
call returns. -/
theorem output_queueSafe (config : TxConfig) (desc : Nat → GmacDes TxView)
    (memory : Nat → UInt8) (labels : List (OutputLabel Unit))
    (short : ∀ label ∈ labels, Short config label) :
    Always outputStep (QueueSafe config) (OutputState.init config desc memory)
      labels := by
  let inv (state : OutputState Unit) : Prop :=
    OutputInv config state ∧ SoloInv state ∧ Answered state
  have start : inv (OutputState.init config desc memory) := by
    refine ⟨OutputState.init_inv config desc memory, ⟨trivial, ?_⟩,
      OutputState.init_answered config desc memory⟩
    intro sem isSem
    cases isSem
  have preserved : ∀ state label next, inv state → Short config label →
      outputStep state label = some next → inv next := by
    rintro state label next ⟨safe, solo, answered⟩ isShort taken
    exact ⟨safe.step (solo.allowed isShort) taken, solo.step taken,
      safe.answered_step answered taken⟩
  have always := always_of_throughout preserved start (throughout_of_forall short _)
  exact always.mono fun state both => both.2.1.queueSafe both.1 both.2.2

/-- Two calls with a transmission between them, on a ring of one descriptor. -/
theorem output_queueSafe_calls :
    Always outputStep
      (QueueSafe { twoBuffers with txDescNum := 1, positive := Nat.one_pos })
      (OutputState.init { twoBuffers with txDescNum := 1, positive := Nat.one_pos }
        (fun _ => default) fun _ => 0)
      (.call () [[7], [8]] :: List.replicate 10 (.step ()) ++
        .dma :: .call () [[9]] :: List.replicate 7 (.step ())) :=
  output_queueSafe _ _ _ _ (by
    intro label isLabel
    simp only [List.mem_append, List.mem_cons, List.mem_replicate] at isLabel
    rcases isLabel with (rfl | ⟨-, rfl⟩) | rfl | rfl | ⟨-, rfl⟩
    · exact (by decide : 2 ≤ 4)
    · trivial
    · trivial
    · exact (by decide : 1 ≤ 4)
    · trivial)

end SunWise.Gmac
