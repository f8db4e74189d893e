import SunWise.Kernel.QueueStorage
import SunWise.Library.Service

/-!
# The calls of a queue

Each critical section of `queue.c` is one step, so that tasks and interrupts can make their
calls in any order. A queue is a bounded deque to all of them: a lock only defers what is done
to the event lists.
-/

namespace SunWise.Kernel

open Library

variable {Task : Type}

/-- The critical section of `xQueueGenericSend`. A task that finds the queue full gives up or
waits. -/
def xQueueGenericSend (pxQueue : Queue Task) (memory : Nat → UInt8) (item : List UInt8)
    (xCopyPosition : CopyPosition) : Option ((Queue Task × (Nat → UInt8)) × Bool) :=
  if xCopyPosition = .overwrite ∧ pxQueue.uxLength ≠ 1 then none
  else if pxQueue.uxMessagesWaiting < pxQueue.uxLength ∨ xCopyPosition = .overwrite then
    let copied := prvCopyDataToQueue pxQueue memory item xCopyPosition
    some (({ copied.1 with
        xTasksWaitingToReceive := xTaskRemoveFromEventList pxQueue.xTasksWaitingToReceive },
      copied.2), true)
  else some ((pxQueue, memory), false)

/-- The lock that `prvIncrementQueueTxLock` and `prvIncrementQueueRxLock` store: no more tasks
than there are need to be woken. -/
def incrementLock (lock : Int) (uxNumberOfTasks : Nat) : Option Int :=
  if lock % 2 ^ 32 < uxNumberOfTasks then
    if lock = 127 then none else some (Int.bmod (lock + 1) (2 ^ 8))
  else some lock

/-- `xQueueGenericSendFromISR`. -/
def xQueueGenericSendFromISR (pxQueue : Queue Task) (memory : Nat → UInt8) (item : List UInt8)
    (xCopyPosition : CopyPosition) (uxNumberOfTasks : Nat) :
    Option ((Queue Task × (Nat → UInt8)) × Bool) :=
  if xCopyPosition = .overwrite ∧ pxQueue.uxLength ≠ 1 then none
  else if pxQueue.uxMessagesWaiting < pxQueue.uxLength ∨ xCopyPosition = .overwrite then
    let copied := prvCopyDataToQueue pxQueue memory item xCopyPosition
    if pxQueue.cTxLock = queueUnlocked then
      some (({ copied.1 with
          xTasksWaitingToReceive := xTaskRemoveFromEventList pxQueue.xTasksWaitingToReceive },
        copied.2), true)
    else
      (incrementLock pxQueue.cTxLock uxNumberOfTasks).map fun cTxLock =>
        (({ copied.1 with cTxLock }, copied.2), true)
  else some ((pxQueue, memory), false)

/-- The critical section of `xQueueReceive`. -/
def xQueueReceive (pxQueue : Queue Task) (memory : Nat → UInt8) :
    Queue Task × Option (List UInt8) :=
  if pxQueue.uxMessagesWaiting > 0 then
    let copied := prvCopyDataFromQueue pxQueue memory
    ({ copied.1 with
        uxMessagesWaiting := pxQueue.uxMessagesWaiting - 1
        xTasksWaitingToSend := xTaskRemoveFromEventList pxQueue.xTasksWaitingToSend },
      some copied.2)
  else (pxQueue, none)

/-- `xQueueReceiveFromISR`. -/
def xQueueReceiveFromISR (pxQueue : Queue Task) (memory : Nat → UInt8) (uxNumberOfTasks : Nat) :
    Option (Queue Task × Option (List UInt8)) :=
  if pxQueue.uxMessagesWaiting > 0 then
    let copied := prvCopyDataFromQueue pxQueue memory
    let pxReceived := { copied.1 with uxMessagesWaiting := pxQueue.uxMessagesWaiting - 1 }
    if pxQueue.cRxLock = queueUnlocked then
      some ({ pxReceived with
          xTasksWaitingToSend := xTaskRemoveFromEventList pxQueue.xTasksWaitingToSend },
        some copied.2)
    else
      (incrementLock pxQueue.cRxLock uxNumberOfTasks).map fun cRxLock =>
        ({ pxReceived with cRxLock }, some copied.2)
  else some (pxQueue, none)

/-- The critical section of `xQueuePeek`. The item stays, so that another task that waits to
receive can have it. -/
def xQueuePeek (pxQueue : Queue Task) (memory : Nat → UInt8) :
    Queue Task × Option (List UInt8) :=
  if pxQueue.uxMessagesWaiting > 0 then
    let copied := prvCopyDataFromQueue pxQueue memory
    let pxPeeked := { copied.1 with pcReadFrom := pxQueue.pcReadFrom }
    ({ pxPeeked with
        xTasksWaitingToReceive := xTaskRemoveFromEventList pxQueue.xTasksWaitingToReceive },
      some copied.2)
  else (pxQueue, none)

/-- `xQueuePeekFromISR`. A semaphore cannot be peeked at. -/
def xQueuePeekFromISR (pxQueue : Queue Task) (memory : Nat → UInt8) :
    Option (Queue Task × Option (List UInt8)) :=
  if pxQueue.uxItemSize = 0 then none
  else if pxQueue.uxMessagesWaiting > 0 then
    let copied := prvCopyDataFromQueue pxQueue memory
    some ({ copied.1 with pcReadFrom := pxQueue.pcReadFrom }, some copied.2)
  else some (pxQueue, none)

/-- `prvLockQueue`. -/
def prvLockQueue (pxQueue : Queue Task) : Queue Task :=
  { pxQueue with
    cRxLock :=
      if pxQueue.cRxLock = queueUnlocked then queueLockedUnmodified else pxQueue.cRxLock
    cTxLock :=
      if pxQueue.cTxLock = queueUnlocked then queueLockedUnmodified else pxQueue.cTxLock }

/-- The loops of `prvUnlockQueue`, from a lock that is counted down while tasks wait. -/
def unlockLoop : Nat → List Task → List Task
  | 0, tasks => tasks
  | _ + 1, [] => []
  | lock + 1, task :: tasks => unlockLoop lock (xTaskRemoveFromEventList (task :: tasks))

/-- The first critical section of `prvUnlockQueue`. -/
def prvUnlockQueueTx (pxQueue : Queue Task) : Queue Task :=
  { pxQueue with
    xTasksWaitingToReceive := unlockLoop pxQueue.cTxLock.toNat pxQueue.xTasksWaitingToReceive
    cTxLock := queueUnlocked }

/-- The second critical section of `prvUnlockQueue`. -/
def prvUnlockQueueRx (pxQueue : Queue Task) : Queue Task :=
  { pxQueue with
    xTasksWaitingToSend := unlockLoop pxQueue.cRxLock.toNat pxQueue.xTasksWaitingToSend
    cRxLock := queueUnlocked }

/-- `uxQueueSpacesAvailable`. -/
def uxQueueSpacesAvailable (pxQueue : Queue Task) : Nat :=
  pxQueue.uxLength - pxQueue.uxMessagesWaiting

/-- What can happen to a queue next. `eventLists` is the scheduler, which puts tasks on the
event lists and takes them off again, and `write` any other use of memory. -/
inductive Call (Task : Type) where
  | send (item : List UInt8) (xCopyPosition : CopyPosition)
  | sendFromISR (item : List UInt8) (xCopyPosition : CopyPosition) (uxNumberOfTasks : Nat)
  | receive
  | receiveFromISR (uxNumberOfTasks : Nat)
  | peek
  | peekFromISR
  | reset
  | messagesWaiting
  | spacesAvailable
  | lock
  | unlockTx
  | unlockRx
  | eventLists (xTasksWaitingToSend xTasksWaitingToReceive : List Task)
  | write (address : Nat) (byte : UInt8)

/-- What the caller gets. -/
inductive Reply where
  | sent (pdPASS : Bool)
  | received (item : Option (List UInt8))
  | count (messages : Nat)
  | done
  deriving DecidableEq, Repr

/-- A call on the queue in memory. -/
def queueStep (state : Queue Task × (Nat → UInt8)) :
    Call Task → Option ((Queue Task × (Nat → UInt8)) × Reply)
  | .send item xCopyPosition =>
      (xQueueGenericSend state.1 state.2 item xCopyPosition).map fun sent =>
        (sent.1, .sent sent.2)
  | .sendFromISR item xCopyPosition uxNumberOfTasks =>
      (xQueueGenericSendFromISR state.1 state.2 item xCopyPosition uxNumberOfTasks).map
        fun sent => (sent.1, .sent sent.2)
  | .receive =>
      let received := xQueueReceive state.1 state.2
      some ((received.1, state.2), .received received.2)
  | .receiveFromISR uxNumberOfTasks =>
      (xQueueReceiveFromISR state.1 state.2 uxNumberOfTasks).map fun received =>
        ((received.1, state.2), .received received.2)
  | .peek =>
      let peeked := xQueuePeek state.1 state.2
      some ((peeked.1, state.2), .received peeked.2)
  | .peekFromISR =>
      (xQueuePeekFromISR state.1 state.2).map fun peeked =>
        ((peeked.1, state.2), .received peeked.2)
  | .reset =>
      (xQueueGenericReset state.1 false).map fun pxQueue => ((pxQueue, state.2), .done)
  | .messagesWaiting => some (state, .count state.1.uxMessagesWaiting)
  | .spacesAvailable => some (state, .count (uxQueueSpacesAvailable state.1))
  | .lock => some ((prvLockQueue state.1, state.2), .done)
  | .unlockTx => some ((prvUnlockQueueTx state.1, state.2), .done)
  | .unlockRx => some ((prvUnlockQueueRx state.1, state.2), .done)
  | .eventLists xTasksWaitingToSend xTasksWaitingToReceive =>
      some (({ state.1 with xTasksWaitingToSend, xTasksWaitingToReceive }, state.2), .done)
  | .write address byte => some ((state.1, Function.update state.2 address byte), .done)

/-! ## A bounded deque -/

/-- A new item goes in where there is room, or where it replaces the first one. -/
def dequeSend (length : Nat) (items : List (List UInt8)) (item : List UInt8)
    (xCopyPosition : CopyPosition) : List (List UInt8) × Reply :=
  if items.length < length ∨ xCopyPosition = .overwrite then
    (insertItem items item xCopyPosition, .sent true)
  else (items, .sent false)

/-- A call on a deque of at most `length` items. -/
def dequeStep (length : Nat) (items : List (List UInt8)) :
    Call Task → List (List UInt8) × Reply
  | .send item xCopyPosition => dequeSend length items item xCopyPosition
  | .sendFromISR item xCopyPosition _ => dequeSend length items item xCopyPosition
  | .receive | .receiveFromISR _ => (items.tail, .received items.head?)
  | .peek | .peekFromISR => (items, .received items.head?)
  | .reset => ([], .done)
  | .messagesWaiting => (items, .count items.length)
  | .spacesAvailable => (items, .count (length - items.length))
  | .lock | .unlockTx | .unlockRx | .eventLists _ _ | .write _ _ => (items, .done)

/-- Items have the size of the queue, only queues of one item are overwritten, interrupts do not
peek at a semaphore, and nothing else is written to the block of the queue. A lock can count as
many tasks as there are. -/
def Allowed (pxNewQueue : Nat) (pxQueue : Queue Task) : Call Task → Prop
  | .send item xCopyPosition =>
      item.length = pxQueue.uxItemSize ∧
        (xCopyPosition = .overwrite → pxQueue.uxLength = 1 ∧ pxQueue.uxItemSize ≠ 0)
  | .sendFromISR item xCopyPosition uxNumberOfTasks =>
      (item.length = pxQueue.uxItemSize ∧
        (xCopyPosition = .overwrite → pxQueue.uxLength = 1 ∧ pxQueue.uxItemSize ≠ 0)) ∧
        uxNumberOfTasks ≤ 127
  | .receiveFromISR uxNumberOfTasks => uxNumberOfTasks ≤ 127
  | .peekFromISR => pxQueue.uxItemSize ≠ 0
  | .write address _ =>
      address < pxNewQueue ∨
        pxNewQueue + sizeofQueue + pxQueue.uxLength * pxQueue.uxItemSize ≤ address
  | _ => True

/-- The queue has kept its shape and holds the items of the deque. -/
structure Refines (created : Queue Task) (state : Queue Task × (Nat → UInt8))
    (items : List (List UInt8)) : Prop where
  shape : SameShape created state.1
  holds : Holds state.1 state.2 items

variable {created pxQueue : Queue Task} {memory : Nat → UInt8} {items : List (List UInt8)}

theorem SameShape.with_events (shape : SameShape created pxQueue)
    (xTasksWaitingToSend xTasksWaitingToReceive : List Task) (cRxLock cTxLock : Int) :
    SameShape created
      { pxQueue with xTasksWaitingToSend, xTasksWaitingToReceive, cRxLock, cTxLock } where
  pcHead := shape.pcHead
  uxLength := shape.uxLength
  uxItemSize := shape.uxItemSize

theorem Refines.with_events (refines : Refines created (pxQueue, memory) items)
    (xTasksWaitingToSend xTasksWaitingToReceive : List Task) (cRxLock cTxLock : Int) :
    Refines created
      ({ pxQueue with xTasksWaitingToSend, xTasksWaitingToReceive, cRxLock, cTxLock }, memory)
      items where
  shape := refines.shape.with_events _ _ _ _
  holds := refines.holds.with_events _ _ _ _

theorem Refines.copyTo (refines : Refines created (pxQueue, memory) items) {item : List UInt8}
    {xCopyPosition : CopyPosition} (sized : item.length = created.uxItemSize)
    (single : xCopyPosition = .overwrite → created.uxLength = 1 ∧ created.uxItemSize ≠ 0)
    (room : pxQueue.uxMessagesWaiting < pxQueue.uxLength ∨ xCopyPosition = .overwrite) :
    Refines created
      ((prvCopyDataToQueue pxQueue memory item xCopyPosition).1,
        (prvCopyDataToQueue pxQueue memory item xCopyPosition).2)
      (insertItem items item xCopyPosition) := by
  have shape := refines.shape
  refine ⟨shape.trans (prvCopyDataToQueue_shape _ _ _ _), refines.holds.copyDataTo ⟨room, ?_⟩ ?_⟩
  · rw [shape.uxLength, shape.uxItemSize]
    exact single
  · rw [shape.uxItemSize]
    exact sized

theorem Refines.copyFrom (refines : Refines created (pxQueue, memory) items)
    (waiting : pxQueue.uxMessagesWaiting > 0) :
    some (prvCopyDataFromQueue pxQueue memory).2 = items.head? ∧
      Refines created
        ({ (prvCopyDataFromQueue pxQueue memory).1 with
            uxMessagesWaiting := pxQueue.uxMessagesWaiting - 1 }, memory)
        items.tail := by
  rcases refines.holds.copyDataFrom waiting with ⟨isSplit, holds⟩
  have shape := refines.shape.trans (prvCopyDataFromQueue_shape pxQueue memory)
  refine ⟨?_, ⟨shape.pcHead, shape.uxLength, shape.uxItemSize⟩, holds⟩
  rw [isSplit, List.head?_cons]

theorem Refines.peek (refines : Refines created (pxQueue, memory) items) :
    Refines created
      ({ (prvCopyDataFromQueue pxQueue memory).1 with pcReadFrom := pxQueue.pcReadFrom }, memory)
      items := by
  rw [prvCopyDataFromQueue_restore]
  exact refines

theorem Refines.items_eq_nil (refines : Refines created (pxQueue, memory) items)
    (none : ¬ pxQueue.uxMessagesWaiting > 0) : items = [] := by
  apply List.eq_nil_of_length_eq_zero
  rw [refines.holds.waiting]
  exact Nat.eq_zero_of_not_pos none

section Calls

variable {item : List UInt8} {xCopyPosition : CopyPosition}

theorem Refines.room_iff (refines : Refines created (pxQueue, memory) items) :
    (pxQueue.uxMessagesWaiting < pxQueue.uxLength ∨ xCopyPosition = .overwrite) ↔
      (items.length < created.uxLength ∨ xCopyPosition = .overwrite) := by
  rw [refines.holds.waiting, refines.shape.uxLength]

theorem Refines.not_asserted (refines : Refines created (pxQueue, memory) items)
    (single : xCopyPosition = .overwrite → created.uxLength = 1 ∧ created.uxItemSize ≠ 0) :
    ¬ (xCopyPosition = .overwrite ∧ pxQueue.uxLength ≠ 1) := by
  rintro ⟨replaces, notSingle⟩
  exact notSingle (refines.shape.uxLength.trans (single replaces).1)

theorem incrementLock_returns {uxNumberOfTasks : Nat} (few : uxNumberOfTasks ≤ 127) (lock : Int) :
    ∃ incremented, incrementLock lock uxNumberOfTasks = some incremented := by
  unfold incrementLock
  split
  next below =>
    have notMax : lock ≠ 127 := by
      rintro rfl
      omega
    rw [if_neg notMax]
    exact ⟨_, rfl⟩
  next => exact ⟨lock, rfl⟩

theorem Refines.send (refines : Refines created (pxQueue, memory) items)
    (sized : item.length = created.uxItemSize)
    (single : xCopyPosition = .overwrite → created.uxLength = 1 ∧ created.uxItemSize ≠ 0) :
    Answers (Refines created) (queueStep (pxQueue, memory) (.send item xCopyPosition))
      (dequeSend created.uxLength items item xCopyPosition) := by
  rw [queueStep, xQueueGenericSend, if_neg (refines.not_asserted single), dequeSend]
  by_cases room : pxQueue.uxMessagesWaiting < pxQueue.uxLength ∨ xCopyPosition = .overwrite
  · rw [if_pos room, if_pos (refines.room_iff.mp room)]
    exact ⟨_, rfl, (refines.copyTo sized single room).with_events _ _ _ _⟩
  · rw [if_neg room, if_neg (mt refines.room_iff.mpr room)]
    exact ⟨_, rfl, refines⟩

theorem Refines.sendFromISR (refines : Refines created (pxQueue, memory) items)
    (sized : item.length = created.uxItemSize)
    (single : xCopyPosition = .overwrite → created.uxLength = 1 ∧ created.uxItemSize ≠ 0)
    {uxNumberOfTasks : Nat} (few : uxNumberOfTasks ≤ 127) :
    Answers (Refines created)
      (queueStep (pxQueue, memory) (.sendFromISR item xCopyPosition uxNumberOfTasks))
      (dequeSend created.uxLength items item xCopyPosition) := by
  rw [queueStep, xQueueGenericSendFromISR, if_neg (refines.not_asserted single), dequeSend]
  by_cases room : pxQueue.uxMessagesWaiting < pxQueue.uxLength ∨ xCopyPosition = .overwrite
  · have copied := refines.copyTo sized single room
    rw [if_pos room, if_pos (refines.room_iff.mp room)]
    dsimp only
    split
    next => exact ⟨_, rfl, copied.with_events _ _ _ _⟩
    next =>
      rcases incrementLock_returns few pxQueue.cTxLock with ⟨incremented, returns⟩
      rw [returns]
      exact ⟨_, rfl, copied.with_events _ _ _ _⟩
  · rw [if_neg room, if_neg (mt refines.room_iff.mpr room)]
    exact ⟨_, rfl, refines⟩

theorem Refines.receive (refines : Refines created (pxQueue, memory) items) :
    Answers (Refines created) (queueStep (pxQueue, memory) .receive)
      (items.tail, Reply.received items.head?) := by
  rw [queueStep, xQueueReceive]
  by_cases waiting : pxQueue.uxMessagesWaiting > 0
  · rcases refines.copyFrom waiting with ⟨first, rest⟩
    rw [if_pos waiting, ← first]
    exact ⟨_, rfl, rest.with_events _ _ _ _⟩
  · have none := refines.items_eq_nil waiting
    subst none
    rw [if_neg waiting]
    exact ⟨_, rfl, refines⟩

theorem Refines.receiveFromISR (refines : Refines created (pxQueue, memory) items)
    {uxNumberOfTasks : Nat} (few : uxNumberOfTasks ≤ 127) :
    Answers (Refines created) (queueStep (pxQueue, memory) (.receiveFromISR uxNumberOfTasks))
      (items.tail, Reply.received items.head?) := by
  rw [queueStep, xQueueReceiveFromISR]
  by_cases waiting : pxQueue.uxMessagesWaiting > 0
  · rcases refines.copyFrom waiting with ⟨first, rest⟩
    rw [if_pos waiting, ← first]
    dsimp only
    split
    next => exact ⟨_, rfl, rest.with_events _ _ _ _⟩
    next =>
      rcases incrementLock_returns few pxQueue.cRxLock with ⟨incremented, returns⟩
      rw [returns]
      exact ⟨_, rfl, rest.with_events _ _ _ _⟩
  · have none := refines.items_eq_nil waiting
    subst none
    rw [if_neg waiting]
    exact ⟨_, rfl, refines⟩

theorem Refines.peekCall (refines : Refines created (pxQueue, memory) items) :
    Answers (Refines created) (queueStep (pxQueue, memory) .peek)
      (items, Reply.received items.head?) := by
  rw [queueStep, xQueuePeek]
  by_cases waiting : pxQueue.uxMessagesWaiting > 0
  · rw [if_pos waiting, ← (refines.copyFrom waiting).1]
    exact ⟨_, rfl, refines.peek.with_events _ _ _ _⟩
  · have none := refines.items_eq_nil waiting
    subst none
    rw [if_neg waiting]
    exact ⟨_, rfl, refines⟩

theorem Refines.peekFromISR (refines : Refines created (pxQueue, memory) items)
    (sized : created.uxItemSize ≠ 0) :
    Answers (Refines created) (queueStep (pxQueue, memory) .peekFromISR)
      (items, Reply.received items.head?) := by
  rw [queueStep, xQueuePeekFromISR, if_neg (refines.shape.uxItemSize.symm ▸ sized)]
  by_cases waiting : pxQueue.uxMessagesWaiting > 0
  · rw [if_pos waiting, ← (refines.copyFrom waiting).1]
    exact ⟨_, rfl, refines.peek⟩
  · have none := refines.items_eq_nil waiting
    subst none
    rw [if_neg waiting]
    exact ⟨_, rfl, refines⟩

/-- A new queue is empty, and its storage lies behind its `Queue_t`. -/
theorem refines_create {uxQueueLength uxItemSize pxNewQueue : Nat}
    (isCreated : xQueueGenericCreate uxQueueLength uxItemSize pxNewQueue = some created)
    (placed : Placed created) :
    Refines created (created, memory) [] ∧ created.uxLength = uxQueueLength ∧
      (created.uxItemSize ≠ 0 → created.pcHead = pxNewQueue + sizeofQueue) := by
  have initialised := xQueueGenericCreate_eq_some isCreated
  unfold prvInitialiseNewQueue at initialised
  have shape := xQueueGenericReset_shape initialised
  have reset := @holds_reset _ _ memory _ _ initialised (placed.of_shape shape)
  refine ⟨⟨⟨rfl, rfl, rfl⟩, reset⟩, shape.uxLength, fun sized => ?_⟩
  rw [shape.uxItemSize] at sized
  rw [shape.pcHead]
  exact if_neg sized

theorem Refines.write (refines : Refines created (pxQueue, memory) items) {address : Nat}
    (byte : UInt8)
    (outside : address < created.pcHead ∨
      created.pcHead + created.uxLength * created.uxItemSize ≤ address) :
    Refines created (pxQueue, Function.update memory address byte) items where
  shape := refines.shape
  holds := by
    have shape := refines.shape
    rw [← shape.pcHead, ← shape.uxLength, ← shape.uxItemSize] at outside
    refine refines.holds.with_memory fun other above below => ?_
    refine Function.update_of_ne (fun same => ?_) byte memory
    omega

/-- What is not written to the block of the queue is not written to its storage. -/
theorem outside_of_allowed {pxNewQueue address : Nat} {byte : UInt8}
    (storage : created.uxItemSize ≠ 0 → created.pcHead = pxNewQueue + sizeofQueue)
    (allowed : Allowed pxNewQueue created (.write address byte)) :
    address < created.pcHead ∨
      created.pcHead + created.uxLength * created.uxItemSize ≤ address := by
  by_cases empty : created.uxItemSize = 0
  · rw [empty, Nat.mul_zero]
    exact Nat.lt_or_ge _ _
  · rw [storage empty]
    exact allowed.imp (fun before => Nat.lt_add_right _ before) id

end Calls

/-- The queue answers a call as the deque does. -/
theorem queueStep_answers {pxNewQueue : Nat} {state : Queue Task × (Nat → UInt8)}
    (storage : created.uxItemSize ≠ 0 → created.pcHead = pxNewQueue + sizeofQueue)
    (refines : Refines created state items) (call : Call Task)
    (allowed : Allowed pxNewQueue created call) :
    Answers (Refines created) (queueStep state call) (dequeStep created.uxLength items call) := by
  rcases state with ⟨pxQueue, memory⟩
  cases call with
  | send item xCopyPosition => exact refines.send allowed.1 allowed.2
  | sendFromISR item xCopyPosition uxNumberOfTasks =>
      exact refines.sendFromISR allowed.1.1 allowed.1.2 allowed.2
  | receive => exact refines.receive
  | receiveFromISR uxNumberOfTasks => exact refines.receiveFromISR allowed
  | peek => exact refines.peekCall
  | peekFromISR => exact refines.peekFromISR allowed
  | reset =>
      rcases xQueueGenericReset_returns false refines.holds.positive refines.holds.placed with
        ⟨reset, returns⟩
      have shape := refines.shape.trans (xQueueGenericReset_shape returns)
      refine ⟨(reset, memory), ?_, shape, holds_reset returns refines.holds.placed⟩
      rw [queueStep, returns]
      rfl
  | messagesWaiting =>
      refine ⟨(pxQueue, memory), ?_, refines⟩
      rw [queueStep, dequeStep, refines.holds.waiting]
  | spacesAvailable =>
      refine ⟨(pxQueue, memory), ?_, refines⟩
      rw [queueStep, dequeStep, uxQueueSpacesAvailable, refines.shape.uxLength,
        refines.holds.waiting]
  | lock => exact ⟨_, rfl, refines.with_events _ _ _ _⟩
  | unlockTx => exact ⟨_, rfl, refines.with_events _ _ _ _⟩
  | unlockRx => exact ⟨_, rfl, refines.with_events _ _ _ _⟩
  | eventLists xTasksWaitingToSend xTasksWaitingToReceive =>
      exact ⟨_, rfl, refines.with_events _ _ _ _⟩
  | write address byte =>
      exact ⟨_, rfl, refines.write byte (outside_of_allowed storage allowed)⟩

/-- Whatever tasks and interrupts call in whatever order, all calls return with the replies of a
bounded deque, and the queue holds its items afterwards. -/
theorem serve_deque {uxQueueLength uxItemSize pxNewQueue : Nat}
    (isCreated : xQueueGenericCreate uxQueueLength uxItemSize pxNewQueue = some created)
    (placed : Placed created) (memory : Nat → UInt8) (calls : List (Call Task))
    (allowed : ∀ call ∈ calls, Allowed pxNewQueue created call) :
    ∃ final, serve queueStep (created, memory) calls =
        some (final, (serveAll (dequeStep uxQueueLength) [] calls).2) ∧
      Holds final.1 final.2 (serveAll (dequeStep uxQueueLength) [] calls).1 := by
  rcases @refines_create Task created memory _ _ _ isCreated placed with ⟨start, rfl, storage⟩
  have served := serve_simulated
    (fun _ _ call refines isAllowed => queueStep_answers storage refines call isAllowed)
    start allowed
  rcases served with ⟨final, returns, refines⟩
  exact ⟨final, returns, refines.holds⟩

/-- A queue of two bytes that is used from both ends. -/
theorem serve_deque_bothEnds :
    ∃ (created : Queue Unit) (final : Queue Unit × (Nat → UInt8)),
      xQueueGenericCreate 2 1 4096 = some created ∧
        serve queueStep (created, fun _ => 0)
            [.send [7] .sendToBack, .send [8] .sendToFront, .send [9] .sendToBack,
              .receiveFromISR 1, .peek] =
          some (final, [.sent true, .sent true, .sent false, .received (some [8]),
            .received (some [7])]) := by
  refine ⟨⟨4176, 4176, 4178, 4177, [], [], 0, 2, 1, -1, -1⟩, ?_⟩
  have isCreated : xQueueGenericCreate 2 1 4096 =
      some (⟨4176, 4176, 4178, 4177, [], [], 0, 2, 1, -1, -1⟩ : Queue Unit) := by decide
  rcases serve_deque isCreated ⟨by decide, by decide⟩ (fun _ => 0)
    [.send [7] .sendToBack, .send [8] .sendToFront, .send [9] .sendToBack, .receiveFromISR 1,
      .peek] (by simp [Allowed]) with ⟨final, returns, -⟩
  exact ⟨final, isCreated, returns⟩

end SunWise.Kernel
