import SunWise.Gmac.TxRing
import SunWise.Library.Runs

/-!
# Sending tasks

Any number of tasks inside `low_level_output`, one call of its body at a time, next to
the DMA.  The semaphore functions are those of `sys_arch.c` over FreeRTOS binary
semaphores.  The poll-demand registers are left out: the DMA may move at any time.
-/

namespace SunWise.Gmac

open Library

/-- Results of `low_level_output`. -/
inductive ErrT where
  | errOk
  | errUse
  deriving DecidableEq, Repr

/-- A `pbuf` chain, as the payloads of its elements. -/
abbrev Chain := List (List UInt8)

/-- Where a task is in `low_level_output`: the call it makes next. -/
inductive OutputPc where
  | idle
  /-- `ousem.sem == NULL`. -/
  | test (p : Chain)
  /-- `sys_sem_new(&ousem, 0)`. -/
  | create (p : Chain)
  /-- `sys_sem_signal(&ousem)` after it. -/
  | release (p : Chain)
  /-- `HW_GMAC_GetSendPacket`. -/
  | lookup (p : Chain)
  /-- `sys_sem_wait(&ousem)`, before the handle has been read. -/
  | enter (p : Chain) (packet : Nat)
  /-- Blocked on the semaphore. -/
  | waiting (p : Chain) (packet sem : Nat)
  /-- `memcpy` of the next element, or `HW_GMAC_StartSendPacket` after the last one. -/
  | copying (p : Chain) (packet bufferoffset : Nat) (rest : Chain)
  /-- `sys_sem_signal(&ousem)` before the return. -/
  | leaving (p : Chain) (errval : ErrT)
  deriving DecidableEq, Repr

namespace OutputPc

/-- The task is between `sys_sem_wait` and the `sys_sem_signal` that follows it. -/
def Inside : OutputPc → Prop
  | .copying _ _ _ _ => True
  | .leaving _ .errOk => True
  | _ => False

/-- The chain that is being sent. -/
def chain? : OutputPc → Option Chain
  | .idle => none
  | .test p | .create p | .release p | .lookup p => some p
  | .enter p _ | .waiting p _ _ | .copying p _ _ _ | .leaving p _ => some p

end OutputPc

/-- The static variable `ousem` and the binary semaphores created so far. -/
structure Ousem where
  sem : Option Nat
  counts : Nat → Nat
  created : Nat

namespace Ousem

/-- `sys_sem_new(&ousem, 0)`. -/
def new (ousem : Ousem) : Ousem where
  sem := some ousem.created
  counts := Function.update ousem.counts ousem.created 0
  created := ousem.created + 1

/-- `sys_sem_signal(&ousem)`: the count of a binary semaphore stays at one. A missing
handle fails the assertion in `sys_sem_signal`. -/
def signal (ousem : Ousem) : Option Ousem :=
  ousem.sem.map fun sem => { ousem with counts := Function.update ousem.counts sem 1 }

/-- `xSemaphoreTake` on a handle, when it does not block. -/
def take (ousem : Ousem) (sem : Nat) : Option Ousem :=
  if ousem.counts sem > 0 then
    some { ousem with counts := Function.update ousem.counts sem (ousem.counts sem - 1) }
  else none

end Ousem

/-- The sending tasks and what they share. `results` lists the calls that have returned. -/
structure OutputState (Task : Type) where
  ring : TxRing
  ousem : Ousem
  pc : Task → OutputPc
  results : List (List UInt8 × ErrT)

/-- Who moves. -/
inductive OutputLabel (Task : Type) where
  /-- A task calls `low_level_output`. -/
  | call (task : Task) (p : Chain)
  /-- A task makes its next call inside `low_level_output`. -/
  | step (task : Task)
  /-- The DMA transmits a descriptor. -/
  | dma

section Machine

variable {Task : Type} [DecidableEq Task]

/-- The task goes on to another call. -/
def OutputState.goto (state : OutputState Task) (task : Task) (pc : OutputPc) :
    OutputState Task :=
  { state with pc := Function.update state.pc task pc }

@[simp] theorem OutputState.pc_goto (state : OutputState Task) (task : Task) (pc : OutputPc) :
    (state.goto task pc).pc task = pc :=
  Function.update_self ..

theorem OutputState.pc_goto_of_ne (state : OutputState Task) {task other : Task}
    (different : other ≠ task) (pc : OutputPc) :
    (state.goto task pc).pc other = state.pc other :=
  Function.update_of_ne different ..

/-- The next call of a task inside `low_level_output`. -/
def taskStep (state : OutputState Task) (task : Task) : Option (OutputState Task) :=
  match state.pc task with
  | .idle => none
  | .test p =>
      some (state.goto task (if state.ousem.sem = none then .create p else .lookup p))
  | .create p => some ({ state with ousem := state.ousem.new }.goto task (.release p))
  | .release p =>
      state.ousem.signal.map fun ousem => { state with ousem }.goto task (.lookup p)
  | .lookup p =>
      match state.ring.getSendPacket with
      | none => some (state.goto task (.leaving p .errUse))
      | some packet => some (state.goto task (.enter p packet))
  | .enter p packet =>
      state.ousem.sem.map fun sem => state.goto task (.waiting p packet sem)
  | .waiting p packet sem =>
      (state.ousem.take sem).map fun ousem =>
        { state with ousem }.goto task (.copying p packet 0 p)
  | .copying p packet bufferoffset (q :: rest) =>
      some ({ state with ring := state.ring.copy (packet + bufferoffset) q }.goto task
        (.copying p packet (bufferoffset + q.length) rest))
  | .copying p _ framelength [] =>
      some ({ state with ring := state.ring.startSendPacket framelength p.flatten }.goto
        task (.leaving p .errOk))
  | .leaving p errval =>
      state.ousem.signal.map fun ousem =>
        { state with ousem, results := state.results ++ [(p.flatten, errval)] }.goto task
          .idle

/-- One move. -/
def outputStep (state : OutputState Task) :
    OutputLabel Task → Option (OutputState Task)
  | .call task p =>
      if state.pc task = .idle then some (state.goto task (.test p)) else none
  | .step task => taskStep state task
  | .dma => state.ring.transmit.map fun ring => { state with ring }

/-- Before the first call: the transmit descriptors are initialised, and the semaphore
does not exist yet. -/
def OutputState.init (config : TxConfig) (desc : Nat → GmacDes TxView)
    (memory : Nat → UInt8) : OutputState Task where
  ring := TxRing.init config desc memory
  ousem := { sem := none, counts := fun _ => 0, created := 0 }
  pc := fun _ => .idle
  results := []

end Machine

end SunWise.Gmac
