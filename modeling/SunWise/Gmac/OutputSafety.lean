import SunWise.Gmac.Output

/-!
# Mutual exclusion of sending tasks

`ousem` is created on first use by whoever finds it missing, the descriptor is looked up
before it is taken, and the refusal path gives it back without having taken it.  The
steps that are harmless nevertheless are singled out, and sending is safe along every
run that takes no others.
-/

namespace SunWise.Gmac

open Library

variable {Task : Type}

/-- The frames of the calls that returned `ERR_OK`. -/
def okFrames (results : List (List UInt8 × ErrT)) : List (List UInt8) :=
  (results.filter fun result => result.2 = .errOk).map Prod.fst

/-- What the sending tasks are meant to guarantee. -/
structure OutputSafe (config : TxConfig) (state : OutputState Task) : Prop where
  /-- At most one task is between `sys_sem_wait` and `sys_sem_signal`. -/
  exclusive : ∀ first second,
    (state.pc first).Inside → (state.pc second).Inside → first = second
  /-- The frames of the calls that returned `ERR_OK` have been sent or are with the DMA, each
  of them once and in the order of the returns. -/
  returned : (∀ task p, state.pc task ≠ .leaving p .errOk) →
    state.ring.wire ++ state.ring.outstanding.map Prod.snd = okFrames state.results
  /-- A task that will return `ERR_OK` has handed over its own frame behind them. -/
  handed : ∀ task p, state.pc task = .leaving p .errOk →
    state.ring.wire ++ state.ring.outstanding.map Prod.snd =
      okFrames state.results ++ [p.flatten]
  /-- Every frame with the DMA is in its descriptor, byte for byte. -/
  holds : ∀ entry ∈ state.ring.outstanding, state.ring.Holds entry.1 entry.2
  /-- No two of them share a descriptor. -/
  distinct : (state.ring.outstanding.map Prod.fst).Nodup
  /-- The next `memcpy` stays clear of the buffers of DMA-owned descriptors. -/
  buffers : ∀ task p packet bufferoffset q rest,
    state.pc task = .copying p packet bufferoffset (q :: rest) →
      state.ring.Free config (packet + bufferoffset) q.length
  /-- The next `HW_GMAC_StartSendPacket` rewrites a descriptor the CPU owns. -/
  descriptors : ∀ task p packet framelength,
    state.pc task = .copying p packet framelength [] → state.ring.tail.owner = false

/-- The frame fits into a buffer. -/
def Fits (config : TxConfig) (p : Chain) : Prop :=
  p.flatten.length ≤ config.txBufferSize

/-- The steps that are harmless: `ousem` is created only while it is missing, the task
that gets `ousem` still finds the descriptor it has looked up at the tail and free, a
refusal gives `ousem` back while nobody has it, and every frame fits. -/
def Allowed (config : TxConfig) (state : OutputState Task) : OutputLabel Task → Prop
  | .call _ p => Fits config p
  | .step task =>
      match state.pc task with
      | .create _ => state.ousem.sem = none
      | .waiting _ packet _ =>
          packet = state.ring.tail.buffer1Addr ∧ state.ring.tail.owner = false
      | .leaving _ .errUse =>
          ∀ sem, state.ousem.sem = some sem → state.ousem.counts sem = 1
      | _ => True
  | .dma => True

namespace OutputPc

/-- The task has the token of the semaphore, which its creator has not given out yet. -/
def HasToken : OutputPc → Prop
  | .release _ => True
  | pc => pc.Inside

/-- The task has not passed the test for the semaphore. -/
def Early : OutputPc → Prop
  | .idle | .test _ | .create _ => True
  | _ => False

/-- The semaphore the task is blocked on. -/
def awaits? : OutputPc → Option Nat
  | .waiting _ _ sem => some sem
  | _ => none

theorem not_hasToken_of_early {pc : OutputPc} (early : pc.Early) : ¬pc.HasToken := by
  cases pc <;> simp_all [Early, HasToken, Inside]

theorem hasToken_of_inside {pc : OutputPc} (inside : pc.Inside) : pc.HasToken := by
  cases pc <;> simp_all [HasToken, Inside]

end OutputPc

/-- There is one token: it is with one task, or the count is one. -/
structure SemConsistent (ousem : Ousem) (pc : Task → OutputPc) : Prop where
  early : ousem.sem = none → ∀ task, (pc task).Early
  handle : ∀ task sem, (pc task).awaits? = some sem → ousem.sem = some sem
  token : ∀ first second, (pc first).HasToken → (pc second).HasToken → first = second
  taken : ∀ task sem, (pc task).HasToken → ousem.sem = some sem → ousem.counts sem = 0
  binary : ∀ sem, ousem.sem = some sem → ousem.counts sem ≤ 1

namespace SemConsistent

variable [DecidableEq Task] {ousem : Ousem} {pc : Task → OutputPc} {task : Task}

/-- When nobody has the token, only the task that moves can get it. -/
theorem eq_of_hasToken_update {next : OutputPc} (nobody : ∀ other, ¬(pc other).HasToken)
    {other : Task} (hasToken : (Function.update pc task next other).HasToken) :
    other = task := by
  by_contra different
  rw [Function.update_of_ne different] at hasToken
  exact nobody other hasToken

theorem handle_update (consistent : SemConsistent ousem pc) {next : OutputPc}
    (handle : ∀ sem, next.awaits? = some sem → ousem.sem = some sem) (other : Task)
    (sem : Nat) (waits : (Function.update pc task next other).awaits? = some sem) :
    ousem.sem = some sem := by
  by_cases same : other = task
  · subst other
    rw [Function.update_self] at waits
    exact handle sem waits
  · rw [Function.update_of_ne same] at waits
    exact consistent.handle other sem waits

theorem move (consistent : SemConsistent ousem pc) {next : OutputPc}
    (early : ousem.sem = none → next.Early)
    (handle : ∀ sem, next.awaits? = some sem → ousem.sem = some sem)
    (kept : next.HasToken → (pc task).HasToken) :
    SemConsistent ousem (Function.update pc task next) := by
  have before : ∀ other, (Function.update pc task next other).HasToken →
      (pc other).HasToken := by
    intro other hasToken
    by_cases same : other = task
    · subst other
      exact kept (by simpa using hasToken)
    · simpa [same] using hasToken
  constructor
  · intro missing
    apply (Function.forall_update_iff pc fun _ => OutputPc.Early).mpr
    exact ⟨early missing, fun other _ => consistent.early missing other⟩
  · exact consistent.handle_update handle
  · intro first second isFirst isSecond
    exact consistent.token first second (before first isFirst) (before second isSecond)
  · intro other sem isOther
    exact consistent.taken other sem (before other isOther)
  · exact consistent.binary

/-- Creating the semaphore while it is missing makes its creator the one with the
token. -/
theorem new (consistent : SemConsistent ousem pc) (missing : ousem.sem = none)
    (p : Chain) : SemConsistent ousem.new (Function.update pc task (.release p)) where
  early := nofun
  handle := by
    intro other sem waits
    have plain : ∀ sem, (OutputPc.release p).awaits? = some sem → ousem.sem = some sem := by
      simp [OutputPc.awaits?]
    have isSem := consistent.handle_update plain other sem waits
    rw [missing] at isSem
    cases isSem
  token := by
    have nobody : ∀ other, ¬(pc other).HasToken := fun other =>
      OutputPc.not_hasToken_of_early (consistent.early missing other)
    intro first second isFirst isSecond
    rw [eq_of_hasToken_update nobody isFirst, eq_of_hasToken_update nobody isSecond]
  taken := by
    intro other sem _ isNew
    cases isNew
    simp [Ousem.new]
  binary := by
    intro sem isNew
    cases isNew
    simp [Ousem.new]

theorem signal (consistent : SemConsistent ousem pc) (hasToken : (pc task).HasToken)
    {next : OutputPc} (plain : ¬next.HasToken)
    (handle : next.awaits? = none) {after : Ousem}
    (signals : ousem.signal = some after) :
    SemConsistent after (Function.update pc task next) := by
  cases isSem : ousem.sem with
  | none => simp [Ousem.signal, isSem] at signals
  | some sem =>
      have isAfter : after = { ousem with
          counts := Function.update ousem.counts sem 1 } := by
        simpa [Ousem.signal, isSem] using signals.symm
      have others : ∀ other, ¬(Function.update pc task next other).HasToken := by
        intro other
        by_cases same : other = task
        · subst other
          simpa using plain
        · intro otherToken
          rw [Function.update_of_ne same] at otherToken
          exact same (consistent.token other task otherToken hasToken)
      subst after
      constructor
      · intro missing
        rw [isSem] at missing
        cases missing
      · exact consistent.handle_update (by simp [handle])
      · intro first second isFirst
        exact absurd isFirst (others first)
      · intro other _ isOther
        exact absurd isOther (others other)
      · intro other isOther
        rw [isSem] at isOther
        cases isOther
        simp

theorem signal_eq {after : Ousem}
    (full : ∀ sem, ousem.sem = some sem → ousem.counts sem = 1)
    (signals : ousem.signal = some after) : after = ousem := by
  cases isSem : ousem.sem with
  | none => simp [Ousem.signal, isSem] at signals
  | some sem =>
      have same := Function.update_eq_self sem ousem.counts
      rw [full sem isSem] at same
      have isAfter : after = { ousem with
          counts := Function.update ousem.counts sem 1 } := by
        simpa [Ousem.signal, isSem] using signals.symm
      rw [isAfter, same]

/-- A task that takes the semaphore is the only one with the token. -/
theorem take (consistent : SemConsistent ousem pc) {sem : Nat}
    (isSem : ousem.sem = some sem) {next : OutputPc}
    (handle : next.awaits? = none) {after : Ousem}
    (takes : ousem.take sem = some after) :
    SemConsistent after (Function.update pc task next) := by
  have atMost := consistent.binary sem isSem
  by_cases available : ousem.counts sem > 0
  · have isAfter : after = { ousem with
        counts := Function.update ousem.counts sem (ousem.counts sem - 1) } := by
      simpa [Ousem.take, available] using takes.symm
    have nobody : ∀ other, ¬(pc other).HasToken := by
      intro other otherToken
      have isZero := consistent.taken other sem otherToken isSem
      omega
    have left : ousem.counts sem - 1 = 0 := by omega
    subst after
    constructor
    · intro missing
      rw [isSem] at missing
      cases missing
    · exact consistent.handle_update (by simp [handle])
    · intro first second isFirst isSecond
      rw [eq_of_hasToken_update nobody isFirst, eq_of_hasToken_update nobody isSecond]
    · intro other otherSem _ isOther
      rw [isSem] at isOther
      cases isOther
      simpa using left
    · intro otherSem isOther
      rw [isSem] at isOther
      cases isOther
      simp [left]
  · simp [Ousem.take, available] at takes

end SemConsistent

/-! ## The frames of the calls -/

theorem okFrames_append (results : List (List UInt8 × ErrT)) (frame : List UInt8)
    (errval : ErrT) :
    okFrames (results ++ [(frame, errval)]) =
      okFrames results ++ if errval = .errOk then [frame] else [] := by
  cases errval <;> simp [okFrames]

/-- What the ring has accepted is what the calls have returned and will return. -/
structure Answered (state : OutputState Task) : Prop where
  returned : (∀ task p, state.pc task ≠ .leaving p .errOk) →
    state.ring.accepted = okFrames state.results
  handed : ∀ task p, state.pc task = .leaving p .errOk →
    state.ring.accepted = okFrames state.results ++ [p.flatten]

namespace Answered

variable [DecidableEq Task] {state : OutputState Task} {task : Task}

theorem goto (answered : Answered state) {next : OutputPc} {ring : TxRing} {ousem : Ousem}
    {results : List (List UInt8 × ErrT)} (accepted : ring.accepted = state.ring.accepted)
    (same : okFrames results = okFrames state.results)
    (before : ∀ p, state.pc task ≠ .leaving p .errOk) (after : ∀ p, next ≠ .leaving p .errOk) :
    Answered (OutputState.goto ⟨ring, ousem, state.pc, results⟩ task next) where
  returned := by
    intro nobody
    change ring.accepted = okFrames results
    rw [accepted, same]
    apply answered.returned
    intro other p leaves
    by_cases isTask : other = task
    · subst other
      exact before p leaves
    · apply nobody other p
      simpa [OutputState.goto, isTask] using leaves
  handed := by
    intro other p leaves
    change ring.accepted = okFrames results ++ [p.flatten]
    rw [accepted, same]
    apply answered.handed other p
    by_cases isTask : other = task
    · subst other
      rw [OutputState.pc_goto] at leaves
      exact absurd leaves (after p)
    · rw [OutputState.pc_goto_of_ne _ isTask] at leaves
      exact leaves

theorem sent (answered : Answered state) {p : Chain} {framelength : Nat}
    (alone : ∀ other p, other ≠ task → state.pc other ≠ .leaving p .errOk)
    (before : ∀ p, state.pc task ≠ .leaving p .errOk) :
    Answered ({ state with
      ring := state.ring.startSendPacket framelength p.flatten }.goto task
        (.leaving p .errOk)) where
  returned nobody := absurd (OutputState.pc_goto _ _ _) (nobody task p)
  handed := by
    have nobody : ∀ other p, state.pc other ≠ .leaving p .errOk := by
      intro other p'
      by_cases isTask : other = task
      · subst other
        exact before p'
      · exact alone other p' isTask
    intro other p' leaves
    have isTask : other = task := by
      by_contra different
      rw [OutputState.pc_goto_of_ne _ different] at leaves
      exact nobody other p' leaves
    subst other
    rw [OutputState.pc_goto] at leaves
    cases leaves
    change state.ring.accepted ++ [p.flatten] = okFrames state.results ++ [p.flatten]
    rw [answered.returned nobody]

theorem left (answered : Answered state) {p : Chain} {ousem : Ousem}
    (alone : ∀ other p, other ≠ task → state.pc other ≠ .leaving p .errOk)
    (leaves : state.pc task = .leaving p .errOk) :
    Answered ({ state with
      ousem, results := state.results ++ [(p.flatten, ErrT.errOk)] }.goto task .idle) where
  returned _ := by
    change state.ring.accepted = okFrames (state.results ++ [(p.flatten, ErrT.errOk)])
    rw [okFrames_append, if_pos rfl, answered.handed task p leaves]
  handed := by
    intro other p' leavesNow
    by_cases isTask : other = task
    · subst other
      rw [OutputState.pc_goto] at leavesNow
      cases leavesNow
    · rw [OutputState.pc_goto_of_ne _ isTask] at leavesNow
      exact absurd leavesNow (alone other p' isTask)

end Answered

/-- A copying task works on the tail descriptor, which the CPU owns, and what it has
copied so far is there. -/
def CopyConsistent (ring : TxRing) : OutputPc → Prop
  | .copying p packet bufferoffset rest =>
      packet = ring.tail.buffer1Addr ∧ ring.tail.owner = false ∧
        ∃ done, p = done ++ rest ∧ bufferoffset = done.flatten.length ∧
          load ring.memory packet bufferoffset = done.flatten
  | _ => True

theorem copyConsistent_of_not_inside {ring : TxRing} {pc : OutputPc}
    (outside : ¬pc.Inside) : CopyConsistent ring pc := by
  cases pc <;> first | trivial | exact absurd trivial outside

/-- The DMA does not disturb a copy. -/
theorem CopyConsistent.transmit {ring next : TxRing} {pc : OutputPc}
    (copies : CopyConsistent ring pc) (sends : ring.transmit = some next) :
    CopyConsistent next pc := by
  rcases TxRing.transmit_frame sends with ⟨memory, -, tail⟩
  cases pc with
  | copying p packet bufferoffset rest =>
      rcases copies with ⟨atTail, cpu, copied⟩
      simp only [CopyConsistent, tail cpu, memory]
      exact ⟨atTail, cpu, copied⟩
  | _ => trivial

/-- Everything the proof maintains. -/
structure OutputInv (config : TxConfig) (state : OutputState Task) : Prop where
  ring : state.ring.Consistent config
  sem : SemConsistent state.ousem state.pc
  copies : ∀ task, CopyConsistent state.ring (state.pc task)
  fits : ∀ task p, (state.pc task).chain? = some p → Fits config p

namespace OutputInv

variable {config : TxConfig} {state : OutputState Task}

theorem exclusive (inv : OutputInv config state) {first second : Task}
    (isFirst : (state.pc first).Inside) (isSecond : (state.pc second).Inside) :
    first = second :=
  inv.sem.token first second (OutputPc.hasToken_of_inside isFirst)
    (OutputPc.hasToken_of_inside isSecond)

theorem buffers (inv : OutputInv config state) {task : Task} {p rest : Chain}
    {packet bufferoffset : Nat} {q : List UInt8}
    (isCopying : state.pc task = .copying p packet bufferoffset (q :: rest)) :
    state.ring.Free config (packet + bufferoffset) q.length := by
  have copies := inv.copies task
  have fits := inv.fits task p (by rw [isCopying]; rfl)
  rw [isCopying] at copies
  rcases copies with ⟨rfl, cpu, done, rfl, rfl, -⟩
  have inside : done.flatten.length + q.length ≤ config.txBufferSize := by
    have short := fits
    simp only [Fits, List.flatten_append, List.flatten_cons, List.length_append] at short
    omega
  exact inv.ring.free_of_not_owner inv.ring.tail_lt cpu inside

theorem descriptors (inv : OutputInv config state) {task : Task} {p rest : Chain}
    {packet framelength : Nat}
    (isCopying : state.pc task = .copying p packet framelength rest) :
    state.ring.tail.owner = false := by
  have copies := inv.copies task
  rw [isCopying] at copies
  exact copies.2.1

theorem safe (inv : OutputInv config state) (answered : Answered state) :
    OutputSafe config state where
  exclusive _ _ := inv.exclusive
  returned nobody := inv.ring.sent.trans (answered.returned nobody)
  handed task p leaves := inv.ring.sent.trans (answered.handed task p leaves)
  holds := inv.ring.holds
  distinct := inv.ring.distinct
  buffers _ _ _ _ _ _ := inv.buffers
  descriptors _ _ _ _ := inv.descriptors

variable {task : Task}

/-- A copying task that changes the ring is the only one that is copying. -/
theorem others_copy (inv : OutputInv config state) (inside : (state.pc task).Inside)
    (ring : TxRing) (other : Task) (different : other ≠ task) :
    CopyConsistent ring (state.pc other) := by
  apply copyConsistent_of_not_inside
  intro otherInside
  exact different (inv.exclusive otherInside inside)

/-- Nobody else has handed over a frame. -/
theorem alone (inv : OutputInv config state) (inside : (state.pc task).Inside) (other : Task)
    (p : Chain) (different : other ≠ task) : state.pc other ≠ .leaving p .errOk := by
  intro leaves
  have otherInside : (state.pc other).Inside := by
    rw [leaves]
    trivial
  exact different (inv.exclusive otherInside inside)

theorem sem_ne_none (inv : OutputInv config state) (late : ¬(state.pc task).Early) :
    state.ousem.sem ≠ none := by
  intro missing
  exact late (inv.sem.early missing task)

variable [DecidableEq Task]

theorem goto (inv : OutputInv config state) {next : OutputPc} {ring : TxRing}
    {ousem : Ousem} {results : List (List UInt8 × ErrT)}
    (consistent : ring.Consistent config)
    (sem : SemConsistent ousem (Function.update state.pc task next))
    (own : CopyConsistent ring next)
    (others : ∀ other, other ≠ task → CopyConsistent ring (state.pc other))
    (fits : ∀ p, next.chain? = some p → Fits config p) :
    OutputInv config (OutputState.goto ⟨ring, ousem, state.pc, results⟩ task next) where
  ring := consistent
  sem := sem
  copies :=
    (Function.forall_update_iff state.pc fun _ => CopyConsistent ring).mpr ⟨own, others⟩
  fits :=
    (Function.forall_update_iff state.pc fun _ pc => ∀ p, pc.chain? = some p → Fits config p).mpr
      ⟨fits, fun other _ => inv.fits other⟩

theorem move (inv : OutputInv config state) {next : OutputPc}
    (early : state.ousem.sem = none → next.Early)
    (handle : ∀ sem, next.awaits? = some sem → state.ousem.sem = some sem)
    (outside : ¬next.HasToken) (fits : ∀ p, next.chain? = some p → Fits config p) :
    OutputInv config (state.goto task next) := by
  apply inv.goto inv.ring (inv.sem.move early handle fun hasToken =>
    absurd hasToken outside) _ (fun other _ => inv.copies other) fits
  apply copyConsistent_of_not_inside
  intro inside
  exact outside (OutputPc.hasToken_of_inside inside)

theorem copied (inv : OutputInv config state) {p rest : Chain} {q : List UInt8}
    {packet bufferoffset : Nat}
    (isCopying : state.pc task = .copying p packet bufferoffset (q :: rest)) :
    OutputInv config ({ state with
      ring := state.ring.copy (packet + bufferoffset) q }.goto task
        (.copying p packet (bufferoffset + q.length) rest)) := by
  have inside : (state.pc task).Inside := by
    rw [isCopying]
    trivial
  have late : ¬(state.pc task).Early := by
    rw [isCopying]
    exact id
  apply inv.goto
  · exact inv.ring.copy (inv.buffers isCopying)
  · apply inv.sem.move
    · exact fun missing => absurd missing (inv.sem_ne_none late)
    · exact nofun
    · exact fun _ => OutputPc.hasToken_of_inside inside
  · have copies := inv.copies task
    rw [isCopying] at copies
    rcases copies with ⟨atTail, cpu, done, isChain, offset, before⟩
    refine ⟨atTail, cpu, done ++ [q], by simp [isChain], by simp [offset], ?_⟩
    change load (store state.ring.memory (packet + bufferoffset) q) packet _ = _
    rw [load_add, load_store_disjoint _ (Or.inl (Nat.le_refl _)), before,
      load_store_self]
    simp
  · exact inv.others_copy inside _
  · intro p' isChain
    exact inv.fits task p' (by rw [isCopying]; exact isChain)

theorem sent (inv : OutputInv config state) {p : Chain} {packet framelength : Nat}
    (isCopying : state.pc task = .copying p packet framelength []) :
    OutputInv config ({ state with
      ring := state.ring.startSendPacket framelength p.flatten }.goto task
        (.leaving p .errOk)) := by
  have inside : (state.pc task).Inside := by
    rw [isCopying]
    trivial
  have late : ¬(state.pc task).Early := by
    rw [isCopying]
    exact id
  have fits := inv.fits task p (by rw [isCopying]; rfl)
  apply inv.goto
  · have copies := inv.copies task
    rw [isCopying] at copies
    rcases copies with ⟨atTail, cpu, done, isChain, length, copied⟩
    rw [List.append_nil] at isChain
    subst done
    subst framelength
    rw [atTail] at copied
    exact inv.ring.startSendPacket cpu fits copied
  · apply inv.sem.move
    · exact fun missing => absurd missing (inv.sem_ne_none late)
    · exact nofun
    · exact fun _ => OutputPc.hasToken_of_inside inside
  · trivial
  · exact inv.others_copy inside _
  · intro p' isChain
    cases isChain
    exact fits

theorem taskStep (inv : OutputInv config state)
    (allowed : Allowed config state (.step task)) {next : OutputState Task}
    (taken : Gmac.taskStep state task = some next) : OutputInv config next := by
  have fits := inv.fits task
  have outside : ∀ other, other ≠ task → CopyConsistent state.ring (state.pc other) :=
    fun other _ => inv.copies other
  simp only [Allowed] at allowed
  unfold Gmac.taskStep at taken
  cases place : state.pc task with
  | idle => simp [place] at taken
  | test p =>
      rw [place] at fits
      simp only [place, Option.some.injEq] at taken
      subst next
      by_cases missing : state.ousem.sem = none
      · rw [if_pos missing]
        exact inv.move (fun _ => trivial) nofun id fits
      · rw [if_neg missing]
        exact inv.move (fun isNone => absurd isNone missing) nofun id fits
  | create p =>
      rw [place] at fits
      simp only [place, Option.some.injEq] at taken allowed
      subst next
      exact inv.goto inv.ring (inv.sem.new allowed p) trivial outside fits
  | release p =>
      rw [place] at fits
      simp only [place, Option.map_eq_some_iff] at taken
      rcases taken with ⟨ousem, signals, rfl⟩
      have hasToken : (state.pc task).HasToken := by
        rw [place]
        trivial
      exact inv.goto inv.ring (inv.sem.signal hasToken id rfl signals) trivial outside
        fits
  | lookup p =>
      have late : ¬(state.pc task).Early := by
        rw [place]
        exact id
      have exists_ := inv.sem_ne_none late
      rw [place] at fits
      cases found : state.ring.getSendPacket with
      | none =>
          simp only [place, found, Option.some.injEq] at taken
          subst next
          exact inv.move (fun isNone => absurd isNone exists_) nofun id fits
      | some packet =>
          simp only [place, found, Option.some.injEq] at taken
          subst next
          exact inv.move (fun isNone => absurd isNone exists_) nofun id fits
  | enter p packet =>
      have late : ¬(state.pc task).Early := by
        rw [place]
        exact id
      have exists_ := inv.sem_ne_none late
      rw [place] at fits
      simp only [place, Option.map_eq_some_iff] at taken
      rcases taken with ⟨sem, isSem, rfl⟩
      refine inv.move (fun isNone => absurd isNone exists_) ?_ id (by exact fits)
      intro sem' isSem'
      cases isSem'
      exact isSem
  | waiting p packet sem =>
      rw [place] at fits
      simp only [place, Option.map_eq_some_iff] at taken allowed
      rcases taken with ⟨ousem, takes, rfl⟩
      have isSem := inv.sem.handle task sem (by rw [place]; rfl)
      refine inv.goto inv.ring (inv.sem.take isSem rfl takes) ?_ outside
        (by exact fits)
      exact ⟨allowed.1, allowed.2, [], rfl, rfl, rfl⟩
  | copying p packet bufferoffset rest =>
      cases rest with
      | nil =>
          simp only [place, Option.some.injEq] at taken
          subst next
          exact inv.sent place
      | cons q rest =>
          simp only [place, Option.some.injEq] at taken
          subst next
          exact inv.copied place
  | leaving p errval =>
      simp only [place, Option.map_eq_some_iff] at taken
      rcases taken with ⟨ousem, signals, rfl⟩
      have late : ¬(state.pc task).Early := by
        rw [place]
        exact id
      have exists_ := inv.sem_ne_none late
      cases errval with
      | errOk =>
          have hasToken : (state.pc task).HasToken := by
            rw [place]
            trivial
          exact inv.goto inv.ring (inv.sem.signal hasToken id rfl signals) trivial
            outside nofun
      | errUse =>
          simp only [place] at allowed
          cases SemConsistent.signal_eq allowed signals
          refine inv.goto inv.ring ?_ trivial outside nofun
          exact inv.sem.move (fun isNone => absurd isNone exists_) nofun False.elim

theorem step (inv : OutputInv config state) {label : OutputLabel Task}
    (allowed : Allowed config state label) {next : OutputState Task}
    (taken : outputStep state label = some next) : OutputInv config next := by
  cases label with
  | call task p =>
      simp only [outputStep, Option.ite_none_right_eq_some, Option.some.injEq] at taken
      rcases taken with ⟨isIdle, rfl⟩
      refine inv.move (fun _ => by trivial) (by nofun) id ?_
      intro p' isChain
      cases isChain
      exact allowed
  | step task => exact inv.taskStep allowed taken
  | dma =>
      simp only [outputStep, Option.map_eq_some_iff] at taken
      rcases taken with ⟨ring, sends, rfl⟩
      exact ⟨inv.ring.transmit sends, inv.sem,
        fun task => (inv.copies task).transmit sends, inv.fits⟩

/-- Every step of a task keeps the frames of the calls in order. -/
theorem answered_taskStep (inv : OutputInv config state) (answered : Answered state)
    {next : OutputState Task} (taken : Gmac.taskStep state task = some next) :
    Answered next := by
  unfold Gmac.taskStep at taken
  cases place : state.pc task with
  | idle => simp [place] at taken
  | test p =>
      simp only [place, Option.some.injEq] at taken
      subst next
      refine answered.goto rfl rfl (by rw [place]; nofun) ?_
      split <;> nofun
  | create p =>
      simp only [place, Option.some.injEq] at taken
      subst next
      exact answered.goto rfl rfl (by rw [place]; nofun) nofun
  | release p =>
      simp only [place, Option.map_eq_some_iff] at taken
      rcases taken with ⟨ousem, -, rfl⟩
      exact answered.goto rfl rfl (by rw [place]; nofun) nofun
  | lookup p =>
      simp only [place] at taken
      split at taken <;> cases taken <;>
        exact answered.goto rfl rfl (by rw [place]; nofun) nofun
  | enter p packet =>
      simp only [place, Option.map_eq_some_iff] at taken
      rcases taken with ⟨sem, -, rfl⟩
      exact answered.goto rfl rfl (by rw [place]; nofun) nofun
  | waiting p packet sem =>
      simp only [place, Option.map_eq_some_iff] at taken
      rcases taken with ⟨ousem, -, rfl⟩
      exact answered.goto rfl rfl (by rw [place]; nofun) nofun
  | copying p packet bufferoffset rest =>
      have inside : (state.pc task).Inside := by
        rw [place]
        trivial
      cases rest with
      | nil =>
          simp only [place, Option.some.injEq] at taken
          subst next
          exact answered.sent (inv.alone inside) (by rw [place]; nofun)
      | cons q rest =>
          simp only [place, Option.some.injEq] at taken
          subst next
          exact answered.goto rfl rfl (by rw [place]; nofun) nofun
  | leaving p errval =>
      simp only [place, Option.map_eq_some_iff] at taken
      rcases taken with ⟨ousem, -, rfl⟩
      cases errval with
      | errOk =>
          have inside : (state.pc task).Inside := by
            rw [place]
            trivial
          exact answered.left (inv.alone inside) place
      | errUse =>
          refine answered.goto rfl ?_ (by rw [place]; nofun) nofun
          rw [okFrames_append, if_neg (by decide), List.append_nil]

theorem answered_step (inv : OutputInv config state) (answered : Answered state)
    {label : OutputLabel Task} {next : OutputState Task}
    (taken : outputStep state label = some next) : Answered next := by
  cases label with
  | call task p =>
      simp only [outputStep, Option.ite_none_right_eq_some, Option.some.injEq] at taken
      rcases taken with ⟨isIdle, rfl⟩
      exact answered.goto rfl rfl (by rw [isIdle]; nofun) nofun
  | step task => exact inv.answered_taskStep answered taken
  | dma =>
      simp only [outputStep, Option.map_eq_some_iff] at taken
      rcases taken with ⟨ring, sends, rfl⟩
      have accepted := (TxRing.transmit_frame sends).2.1
      exact ⟨fun nobody => accepted.trans (answered.returned nobody),
        fun task p leaves => accepted.trans (answered.handed task p leaves)⟩

end OutputInv

theorem OutputState.init_answered (config : TxConfig) (desc : Nat → GmacDes TxView)
    (memory : Nat → UInt8) :
    Answered (OutputState.init config desc memory : OutputState Task) where
  returned _ := rfl
  handed := nofun

theorem OutputState.init_inv (config : TxConfig) (desc : Nat → GmacDes TxView)
    (memory : Nat → UInt8) :
    OutputInv config (OutputState.init config desc memory : OutputState Task) where
  ring := TxRing.init_consistent config desc memory
  sem := {
    early := fun _ _ => trivial
    handle := nofun
    token := fun _ _ hasToken => hasToken.elim
    taken := fun _ _ hasToken => hasToken.elim
    binary := nofun }
  copies := fun _ => trivial
  fits := nofun

variable [DecidableEq Task]

/-- Sending is safe along every run whose steps are all allowed. -/
theorem output_safe (config : TxConfig) (desc : Nat → GmacDes TxView)
    (memory : Nat → UInt8) (labels : List (OutputLabel Task))
    (throughout : Throughout outputStep (Allowed config)
      (OutputState.init config desc memory) labels) :
    Always outputStep (OutputSafe config) (OutputState.init config desc memory)
      labels := by
  let inv (state : OutputState Task) : Prop := OutputInv config state ∧ Answered state
  have start : inv (OutputState.init config desc memory) :=
    ⟨OutputState.init_inv config desc memory, OutputState.init_answered config desc memory⟩
  have preserved : ∀ state label next, inv state → Allowed config state label →
      outputStep state label = some next → inv next := by
    rintro state label next ⟨safe, answered⟩ allowed taken
    exact ⟨safe.step allowed taken, safe.answered_step answered taken⟩
  have always := always_of_throughout preserved start throughout
  exact always.mono fun state both => both.1.safe both.2

/-- Two descriptors with buffers of four bytes. -/
def twoBuffers : TxConfig where
  txDescNum := 2
  txBufferSize := 4
  txBuffer := 0
  positive := by decide
  sized := by decide

/-- A whole call of one task. -/
theorem output_safe_call :
    Always outputStep (OutputSafe twoBuffers)
      (OutputState.init twoBuffers (fun _ => default) fun _ => 0)
      (.call true [[7]] :: List.replicate 9 (.step true)) := by
  apply output_safe
  repeat
    refine throughout_cons rfl ?_ ?_
    · first | exact ⟨rfl, rfl⟩ | exact rfl | trivial | exact (by decide : 1 ≤ 4)
  trivial

/-- Two tasks find the semaphore missing, and each creates and takes its own. -/
theorem output_not_exclusive :
    ¬Always outputStep (OutputSafe twoBuffers)
      (OutputState.init twoBuffers (fun _ => default) fun _ => 0)
      [.call true [[7]], .call false [[8]], .step true, .step false,
        .step true, .step true, .step true, .step true, .step true,
        .step false, .step false, .step false, .step false, .step false] := by
  intro always
  have both : ∃ final, run outputStep
      (OutputState.init twoBuffers (fun _ => default) fun _ => 0)
      [.call true [[7]], .call false [[8]], .step true, .step false,
        .step true, .step true, .step true, .step true, .step true,
        .step false, .step false, .step false, .step false, .step false] = some final ∧
      (final.pc true).Inside ∧ (final.pc false).Inside :=
    ⟨_, rfl, trivial, trivial⟩
  rcases both with ⟨final, runs, isFirst, isSecond⟩
  cases (always.of_run runs).exclusive true false isFirst isSecond

end SunWise.Gmac
