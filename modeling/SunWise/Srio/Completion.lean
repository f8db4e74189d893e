import SunWise.Library.Runs
import SunWise.Srio.Transmit

/-!
# Completion of SRIO transfers

The completion bits are sticky and shared by all callers.  `SRIO_xDMA_Transmit` never
clears its bit, so the next transfer on the engine seems to be complete at once, and the
descriptor variants clear the bits of all engines.  A run is in order as long as engines
are started with a clear bit and bits are cleared while nobody needs them.
-/

namespace SunWise.Srio

open Library

variable {Task : Type}

/-- What the callers are meant to rely on. -/
structure SrioSafe (state : SrioState Task) : Prop where
  /-- A call that has returned has completed its transfer. -/
  returned : ∀ transfer ∈ state.returned, transfer ∈ state.device.completed
  /-- While a call waits for a transfer that has completed, its bit is set. -/
  awaited : ∀ task call transfer, state.pc task = .poll call transfer →
    transfer ∈ state.device.completed → state.device.done call.mode call.engine = true

/-- The steps that are harmless: an engine is started while it is idle and its bit is
clear, and the status register is cleared while no other call of that direction is about
to see its bit. -/
def Allowed (state : SrioState Task) : SrioLabel Task → Prop
  | .step task =>
      match state.pc task with
      | .prepare call [] =>
          state.device.running call.mode call.engine = none ∧
            state.device.done call.mode call.engine = false
      | .clear call _ =>
          ∀ other waiting transfer, state.pc other = .poll waiting transfer →
            waiting.mode = call.mode →
            state.device.done waiting.mode waiting.engine = false
      | _ => True
  | _ => True

section Device

variable {device next : SrioDevice} {mode otherMode : SrioMode}
variable {engine otherEngine : SrioEngine}

@[simp] theorem updateEngine_self {Value : Type*}
    (values : SrioMode → SrioEngine → Value) (value : Value) :
    updateEngine values mode engine value mode engine = value := by
  simp [updateEngine]

theorem updateEngine_other {Value : Type*} (values : SrioMode → SrioEngine → Value)
    (value : Value) (apart : (otherMode, otherEngine) ≠ (mode, engine)) :
    updateEngine values mode engine value otherMode otherEngine =
      values otherMode otherEngine := by
  by_cases sameMode : otherMode = mode
  · subst otherMode
    have apartEngine : otherEngine ≠ engine := fun same => apart (by rw [same])
    simp [updateEngine, apartEngine]
  · simp [updateEngine, sameMode]

/-- Programming an engine touches neither the bits nor the transfers. -/
theorem apply_same (write : Setup) :
    (device.apply mode engine write).dmaisr = device.dmaisr ∧
      (device.apply mode engine write).running = device.running ∧
      (device.apply mode engine write).completed = device.completed ∧
      (device.apply mode engine write).started = device.started := by
  cases write <;> exact ⟨rfl, rfl, rfl, rfl⟩

theorem done_clear :
    (device.clear mode).done otherMode otherEngine =
      if otherMode = mode then false else device.done otherMode otherEngine := by
  by_cases same : otherMode = mode
  · subst otherMode
    have ones : (0xffffffff : BitVec 32) = BitVec.allOnes 32 := rfl
    have inside : otherEngine.val < 32 := by omega
    have isFlag : (0xffffffff : BitVec 32).getLsbD otherEngine = true := by
      rw [ones, BitVec.getLsbD_allOnes]
      exact decide_eq_true inside
    have cleared := writeOneToClear_back (device.dmaisr mode) 0xffffffff isFlag
      fun _ => isFlag
    simpa [SrioDevice.done, SrioDevice.clear] using cleared
  · simp [SrioDevice.done, SrioDevice.clear, same]

theorem done_complete (completes : device.complete mode engine = some next) :
    next.done otherMode otherEngine =
      if otherMode = mode ∧ otherEngine = engine then true
      else device.done otherMode otherEngine := by
  rcases Option.map_eq_some_iff.mp completes with ⟨transfer, -, rfl⟩
  have inside : otherEngine.val < 32 := by omega
  by_cases sameMode : otherMode = mode
  · subst otherMode
    simp only [SrioDevice.done, Function.update_self, getLsbD_setBit, inside, and_true,
      true_and, Fin.val_inj]
  · simp only [SrioDevice.done, Function.update_of_ne sameMode, sameMode, false_and, if_false]

end Device

/-! ## The invariant -/

/-- The transfers of the engines are distinct, have been started, and are not complete. -/
structure Numbered (device : SrioDevice) : Prop where
  distinct : ∀ mode engine otherMode otherEngine transfer,
    device.running mode engine = some transfer →
    device.running otherMode otherEngine = some transfer →
    (otherMode, otherEngine) = (mode, engine)
  incomplete : ∀ mode engine transfer,
    device.running mode engine = some transfer → transfer ∉ device.completed
  running_lt : ∀ mode engine transfer,
    device.running mode engine = some transfer → transfer < device.started
  completed_lt : ∀ transfer ∈ device.completed, transfer < device.started

/-- A transfer that a call waits for runs with its bit clear, or is complete with its bit
set. -/
def Awaited (device : SrioDevice) (call : SrioCall) (transfer : Nat) : Prop :=
  device.running call.mode call.engine = some transfer ∧
      device.done call.mode call.engine = false ∨
    transfer ∈ device.completed ∧ device.done call.mode call.engine = true

/-- What holds of a task at its program counter. -/
def PcInv (device : SrioDevice) : SrioPc → Prop
  | .idle | .prepare _ _ => True
  | .poll call transfer => Awaited device call transfer
  | .clear _ transfer | .leave _ transfer => transfer ∈ device.completed

/-- What holds along every run of harmless steps. -/
structure SrioInv (state : SrioState Task) : Prop where
  numbered : Numbered state.device
  tasks : ∀ task, PcInv state.device (state.pc task)
  returned : ∀ transfer ∈ state.returned, transfer ∈ state.device.completed

namespace Numbered

variable {device next : SrioDevice} {mode : SrioMode} {engine : SrioEngine}

/-- Only the transfers matter. -/
theorem congr (numbered : Numbered device) (running : next.running = device.running)
    (completed : next.completed = device.completed) (started : next.started = device.started) :
    Numbered next := by
  rcases numbered with ⟨distinct, incomplete, running_lt, completed_lt⟩
  constructor
  · rwa [running]
  · rwa [running, completed]
  · rwa [running, started]
  · rwa [completed, started]

theorem start (numbered : Numbered device) : Numbered (device.start mode engine) := by
  have before : ∀ otherMode otherEngine transfer,
      (device.start mode engine).running otherMode otherEngine = some transfer →
      (otherMode, otherEngine) = (mode, engine) ∧ transfer = device.started ∨
        device.running otherMode otherEngine = some transfer := by
    intro otherMode otherEngine transfer isRunning
    by_cases same : (otherMode, otherEngine) = (mode, engine)
    · left
      cases same
      refine ⟨rfl, ?_⟩
      simpa [SrioDevice.start] using isRunning.symm
    · right
      simpa only [SrioDevice.start, updateEngine_other _ _ same] using isRunning
  constructor
  · intro firstMode firstEngine secondMode secondEngine transfer first second
    rcases before _ _ _ first with ⟨isNew, rfl⟩ | isOld
    · rcases before _ _ _ second with ⟨alsoNew, -⟩ | isOld
      · rw [isNew, alsoNew]
      · exact absurd (numbered.running_lt _ _ _ isOld) (Nat.lt_irrefl _)
    · rcases before _ _ _ second with ⟨-, rfl⟩ | alsoOld
      · exact absurd (numbered.running_lt _ _ _ isOld) (Nat.lt_irrefl _)
      · exact numbered.distinct _ _ _ _ _ isOld alsoOld
  · intro otherMode otherEngine transfer isRunning isComplete
    rcases before _ _ _ isRunning with ⟨-, rfl⟩ | isOld
    · exact absurd (numbered.completed_lt _ isComplete) (Nat.lt_irrefl _)
    · exact numbered.incomplete _ _ _ isOld isComplete
  · intro otherMode otherEngine transfer isRunning
    rcases before _ _ _ isRunning with ⟨-, rfl⟩ | isOld
    · exact Nat.lt_succ_self _
    · exact Nat.lt_succ_of_lt (numbered.running_lt _ _ _ isOld)
  · intro transfer isComplete
    exact Nat.lt_succ_of_lt (numbered.completed_lt _ isComplete)

theorem complete (numbered : Numbered device)
    (completes : device.complete mode engine = some next) : Numbered next := by
  rcases Option.map_eq_some_iff.mp completes with ⟨finished, isFinished, rfl⟩
  have before : ∀ otherMode otherEngine transfer,
      updateEngine device.running mode engine none otherMode otherEngine = some transfer →
      device.running otherMode otherEngine = some transfer ∧ transfer ≠ finished := by
    intro otherMode otherEngine transfer isRunning
    by_cases same : (otherMode, otherEngine) = (mode, engine)
    · cases same
      simp at isRunning
    · rw [updateEngine_other _ _ same] at isRunning
      refine ⟨isRunning, ?_⟩
      rintro rfl
      exact same (numbered.distinct _ _ _ _ _ isFinished isRunning)
  constructor
  · intro firstMode firstEngine secondMode secondEngine transfer first second
    exact numbered.distinct _ _ _ _ _ (before _ _ _ first).1 (before _ _ _ second).1
  · intro otherMode otherEngine transfer isRunning isComplete
    rcases before _ _ _ isRunning with ⟨isOld, apart⟩
    rcases List.mem_cons.mp isComplete with isFinished | isComplete
    · exact apart isFinished
    · exact numbered.incomplete _ _ _ isOld isComplete
  · intro otherMode otherEngine transfer isRunning
    exact numbered.running_lt _ _ _ (before _ _ _ isRunning).1
  · intro transfer isComplete
    rcases List.mem_cons.mp isComplete with rfl | isComplete
    · exact numbered.running_lt _ _ _ isFinished
    · exact numbered.completed_lt _ isComplete

end Numbered

/-- What a step of the device must leave to the tasks. -/
structure Leaves (before after : SrioDevice) (pc : SrioPc) : Prop where
  completed : ∀ transfer ∈ before.completed, transfer ∈ after.completed
  awaited : ∀ call transfer, pc = .poll call transfer →
    Awaited before call transfer → Awaited after call transfer

theorem Leaves.pcInv {before after : SrioDevice} {pc : SrioPc}
    (leaves : Leaves before after pc) (inv : PcInv before pc) : PcInv after pc := by
  cases pc with
  | idle => trivial
  | prepare call rest => trivial
  | poll call transfer => exact leaves.awaited call transfer rfl inv
  | clear call transfer => exact leaves.completed transfer inv
  | leave call transfer => exact leaves.completed transfer inv

theorem Leaves.refl (device : SrioDevice) (pc : SrioPc) : Leaves device device pc where
  completed _ isComplete := isComplete
  awaited _ _ _ awaited := awaited

section Tasks

variable {device next : SrioDevice} {mode : SrioMode} {engine : SrioEngine} {pc : SrioPc}

theorem leaves_apply (write : Setup) : Leaves device (device.apply mode engine write) pc := by
  rcases apply_same write with ⟨dmaisr, running, completed, -⟩
  constructor
  · intro transfer isComplete
    rwa [completed]
  · intro call transfer _ awaited
    rwa [Awaited, SrioDevice.done, dmaisr, running, completed]

/-- Starting an idle engine concerns no waiting call. -/
theorem leaves_start (idle : device.running mode engine = none) :
    Leaves device (device.start mode engine) pc := by
  constructor
  · exact fun _ isComplete => isComplete
  · rintro call transfer - (⟨isRunning, isClear⟩ | isComplete)
    · have apart : (call.mode, call.engine) ≠ (mode, engine) := by
        intro same
        rw [Prod.mk.injEq] at same
        rw [same.1, same.2, idle] at isRunning
        cases isRunning
      exact .inl ⟨(updateEngine_other _ _ apart).trans isRunning, isClear⟩
    · exact .inr isComplete

theorem leaves_clear
    (unneeded : ∀ call transfer, pc = .poll call transfer → call.mode = mode →
      device.done call.mode call.engine = false) :
    Leaves device (device.clear mode) pc := by
  constructor
  · exact fun _ isComplete => isComplete
  · rintro call transfer isPoll (⟨isRunning, isClear⟩ | ⟨isComplete, isSet⟩)
    · refine .inl ⟨isRunning, ?_⟩
      rw [done_clear, isClear, ite_self]
    · have apart : call.mode ≠ mode := by
        intro same
        rw [unneeded call transfer isPoll same] at isSet
        cases isSet
      refine .inr ⟨isComplete, ?_⟩
      rw [done_clear, if_neg apart, isSet]

/-- Completing a transfer sets the bit of the call that waits for it. -/
theorem leaves_complete (completes : device.complete mode engine = some next) :
    Leaves device next pc := by
  have bit := fun call : SrioCall =>
    @done_complete device next mode call.mode engine call.engine completes
  rcases Option.map_eq_some_iff.mp completes with ⟨finished, isFinished, rfl⟩
  constructor
  · exact fun _ isComplete => List.mem_cons_of_mem _ isComplete
  · rintro call transfer - (⟨isRunning, isClear⟩ | ⟨isComplete, isSet⟩)
    · by_cases same : call.mode = mode ∧ call.engine = engine
      · rw [same.1, same.2, isFinished] at isRunning
        cases isRunning
        exact .inr ⟨List.mem_cons_self, by rw [bit, if_pos same]⟩
      · have apart : (call.mode, call.engine) ≠ (mode, engine) := by
          rwa [Ne, Prod.mk.injEq]
        refine .inl ⟨(updateEngine_other _ _ apart).trans isRunning, ?_⟩
        rw [bit, if_neg same, isClear]
    · exact .inr ⟨List.mem_cons_of_mem _ isComplete, by rw [bit, isSet, ite_self]⟩

end Tasks

section Runs

variable {state next : SrioState Task} {task : Task}

theorem SrioInv.init : SrioInv (SrioState.init Task) where
  numbered := ⟨nofun, nofun, nofun, nofun⟩
  tasks _ := trivial
  returned := nofun

theorem SrioInv.safe (inv : SrioInv state) : SrioSafe state where
  returned := inv.returned
  awaited task call transfer isPoll isComplete := by
    have waits := inv.tasks task
    rw [isPoll] at waits
    rcases waits with ⟨isRunning, -⟩ | ⟨-, isSet⟩
    · exact absurd isComplete (inv.numbered.incomplete _ _ _ isRunning)
    · exact isSet

variable [DecidableEq Task]

/-- A task that moves keeps the invariant when the others are left alone. -/
theorem SrioInv.goto {device : SrioDevice} {pc : SrioPc} (inv : SrioInv state)
    (numbered : Numbered device)
    (leaves : ∀ other, other ≠ task → Leaves state.device device (state.pc other))
    (completed : ∀ transfer ∈ state.device.completed, transfer ∈ device.completed)
    (mover : PcInv device pc) : SrioInv (state.goto task device pc) where
  numbered := numbered
  tasks other := by
    by_cases same : other = task
    · subst other
      simpa [SrioState.goto] using mover
    · simpa [SrioState.goto, same] using (leaves other same).pcInv (inv.tasks other)
  returned transfer isReturned := completed transfer (inv.returned transfer isReturned)

/-- A harmless step of a task keeps the invariant. -/
theorem SrioInv.taskStep (inv : SrioInv state) (allowed : Allowed state (.step task))
    (taken : taskStep state task = some next) : SrioInv next := by
  have mover := inv.tasks task
  unfold Srio.taskStep at taken
  simp only [Allowed] at allowed
  cases at_ : state.pc task with
  | idle => simp [at_] at taken
  | prepare call rest =>
      cases rest with
      | nil =>
          simp only [at_, Option.some.injEq] at taken allowed
          subst next
          refine inv.goto inv.numbered.start (fun _ _ => leaves_start allowed.1)
            (fun _ isComplete => isComplete) ?_
          exact .inl ⟨updateEngine_self _ _, allowed.2⟩
      | cons write rest =>
          simp only [at_, Option.some.injEq] at taken
          subst next
          rcases @apply_same state.device call.mode call.engine write with
            ⟨-, running, completed, started⟩
          refine inv.goto (inv.numbered.congr running completed started)
            (fun _ _ => leaves_apply write) ?_ trivial
          rw [completed]
          exact fun _ isComplete => isComplete
  | poll call transfer =>
      simp only [at_, Option.ite_none_right_eq_some, Option.some.injEq] at taken
      rcases taken with ⟨isSet, rfl⟩
      rw [at_] at mover
      have isComplete : transfer ∈ state.device.completed := by
        rcases mover with ⟨-, isClear⟩ | ⟨isComplete, -⟩
        · rw [isClear] at isSet
          cases isSet
        · exact isComplete
      refine inv.goto inv.numbered (fun _ _ => Leaves.refl _ _)
        (fun _ isComplete => isComplete) ?_
      split
      · exact isComplete
      · exact isComplete
  | clear call transfer =>
      simp only [at_, Option.some.injEq] at taken allowed
      subst next
      rw [at_] at mover
      refine inv.goto (inv.numbered.congr rfl rfl rfl) ?_ (fun _ isComplete => isComplete)
        mover
      intro other _
      exact leaves_clear fun waiting awaited isPoll => allowed other waiting awaited isPoll
  | leave call transfer =>
      simp only [at_, Option.some.injEq] at taken
      subst next
      rw [at_] at mover
      have moved : SrioInv (state.goto task state.device .idle) :=
        inv.goto inv.numbered (fun _ _ => Leaves.refl _ _) (fun _ isComplete => isComplete)
          trivial
      refine ⟨moved.numbered, moved.tasks, ?_⟩
      intro returned isReturned
      rcases List.mem_cons.mp isReturned with rfl | isReturned
      · exact mover
      · exact inv.returned returned isReturned

theorem SrioInv.step {label : SrioLabel Task} (inv : SrioInv state)
    (allowed : Allowed state label) (taken : srioStep state label = some next) :
    SrioInv next := by
  cases label with
  | call task call =>
      simp only [srioStep, Option.ite_none_right_eq_some, Option.some.injEq] at taken
      rcases taken with ⟨-, rfl⟩
      exact inv.goto inv.numbered (fun _ _ => Leaves.refl _ _)
        (fun _ isComplete => isComplete) trivial
  | step task => exact inv.taskStep allowed taken
  | complete mode engine =>
      rcases Option.map_eq_some_iff.mp taken with ⟨device, completes, rfl⟩
      refine ⟨inv.numbered.complete completes, ?_, ?_⟩
      · exact fun task => (leaves_complete completes).pcInv (inv.tasks task)
      · intro transfer isReturned
        exact (@leaves_complete _ _ _ _ .idle completes).completed transfer
          (inv.returned transfer isReturned)

/-- Along every run of harmless steps the calls return in time and no bit is lost. -/
theorem transfers_complete (labels : List (SrioLabel Task))
    (throughout : Throughout srioStep Allowed (SrioState.init Task) labels) :
    Always srioStep SrioSafe (SrioState.init Task) labels := by
  apply Always.mono fun state inv => SrioInv.safe inv
  apply always_of_throughout _ SrioInv.init throughout
  intro state label next inv allowed taken
  exact inv.step allowed taken

end Runs

/-- A descriptor transfer, and after it an ordinary one on the same engine. -/
theorem transfers_complete_twice :
    Always srioStep SrioSafe (SrioState.init Unit)
      (.call () (srioWdmaTransmit2 3 0x1000 0x2000 256 7) :: List.replicate 5 (.step ()) ++
        .complete .eSrioModeWdma 3 :: List.replicate 3 (.step ()) ++
        .call () (srioWdmaTransmit 3 0x1000 0x2000 256 7) :: List.replicate 5 (.step ()) ++
        .complete .eSrioModeWdma 3 :: List.replicate 2 (.step ())) := by
  apply transfers_complete
  repeat
    refine throughout_cons rfl ?_ ?_
    · first | trivial | exact ⟨rfl, rfl⟩ | exact nofun
  trivial

/-- The second of two transfers on one engine returns before it is complete. -/
theorem transfers_not_complete :
    ¬Always srioStep SrioSafe (SrioState.init Unit)
      (.call () (srioWdmaTransmit 3 0x1000 0x2000 256 7) :: List.replicate 5 (.step ()) ++
        .complete .eSrioModeWdma 3 :: List.replicate 2 (.step ()) ++
        .call () (srioWdmaTransmit 3 0x1000 0x2000 256 7) ::
          List.replicate 7 (.step ())) := by
  intro always
  have early : ∃ final, run srioStep (SrioState.init Unit)
      (.call () (srioWdmaTransmit 3 0x1000 0x2000 256 7) :: List.replicate 5 (.step ()) ++
        .complete .eSrioModeWdma 3 :: List.replicate 2 (.step ()) ++
        .call () (srioWdmaTransmit 3 0x1000 0x2000 256 7) ::
          List.replicate 7 (.step ())) = some final ∧
      final.returned = [1, 0] ∧ final.device.completed = [0] :=
    ⟨_, rfl, rfl, rfl⟩
  rcases early with ⟨final, runs, returned, completed⟩
  have isComplete := (always.of_run runs).returned 1 (by rw [returned]; decide)
  rw [completed] at isComplete
  revert isComplete
  decide

end SunWise.Srio
