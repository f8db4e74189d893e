import SunWise.Library.RingMemory

/-!
# The storage of a queue

`Queue_t` keeps its items in a ring of slots. `pcWriteTo` is the next slot to write, and
`pcReadFrom` the slot that was read last, so that the first item is in the slot behind it.
A semaphore is a queue whose items have no bytes. Where `configASSERT` fails it loops for ever,
which is `none` here.
-/

namespace SunWise.Kernel

open Library

/-- `xCopyPosition`. -/
inductive CopyPosition where
  | sendToBack
  | sendToFront
  | overwrite
  deriving DecidableEq, Repr

/-- `Queue_t`. The event lists hold the tasks that wait, the first one to be woken first. -/
structure Queue (Task : Type) where
  pcHead : Nat
  pcWriteTo : Nat
  pcTail : Nat
  pcReadFrom : Nat
  xTasksWaitingToSend : List Task
  xTasksWaitingToReceive : List Task
  uxMessagesWaiting : Nat
  uxLength : Nat
  uxItemSize : Nat
  cRxLock : Int
  cTxLock : Int
  deriving DecidableEq, Repr

/-- `queueUNLOCKED`. -/
def queueUnlocked : Int := -1

/-- `queueLOCKED_UNMODIFIED`. -/
def queueLockedUnmodified : Int := 0

/-- `SIZE_MAX`. -/
def sizeMax : Nat := 2 ^ 32 - 1

/-- `sizeof( Queue_t )`. -/
def sizeofQueue : Nat := 80

/-- A pointer that is moved down. -/
def pointerSub (pointer size : Nat) : Nat :=
  (pointer + (2 ^ 32 - size)) % 2 ^ 32

variable {Task : Type}

/-- `xTaskRemoveFromEventList` of the first task, if there is one. -/
def xTaskRemoveFromEventList (tasks : List Task) : List Task :=
  tasks.tail

/-- `xQueueGenericReset`. A task that waits to send can be woken, as there is room now. -/
def xQueueGenericReset (pxQueue : Queue Task) (xNewQueue : Bool) : Option (Queue Task) :=
  if pxQueue.uxLength ≥ 1 ∧ sizeMax / pxQueue.uxLength ≥ pxQueue.uxItemSize then
    some { pxQueue with
      pcTail := pxQueue.pcHead + pxQueue.uxLength * pxQueue.uxItemSize
      uxMessagesWaiting := 0
      pcWriteTo := pxQueue.pcHead
      pcReadFrom := pxQueue.pcHead + (pxQueue.uxLength - 1) * pxQueue.uxItemSize
      cRxLock := queueUnlocked
      cTxLock := queueUnlocked
      xTasksWaitingToSend :=
        if xNewQueue then [] else xTaskRemoveFromEventList pxQueue.xTasksWaitingToSend
      xTasksWaitingToReceive := if xNewQueue then [] else pxQueue.xTasksWaitingToReceive }
  else none

/-- `prvInitialiseNewQueue`. -/
def prvInitialiseNewQueue (uxQueueLength uxItemSize pucQueueStorage pxNewQueue : Nat) :
    Option (Queue Task) :=
  xQueueGenericReset
    { pcHead := if uxItemSize = 0 then pxNewQueue else pucQueueStorage
      pcWriteTo := 0
      pcTail := 0
      pcReadFrom := 0
      xTasksWaitingToSend := []
      xTasksWaitingToReceive := []
      uxMessagesWaiting := 0
      uxLength := uxQueueLength
      uxItemSize
      cRxLock := 0
      cTxLock := 0 } true

/-- `xQueueGenericCreate`, where `pvPortMalloc` returns `pxNewQueue`. -/
def xQueueGenericCreate (uxQueueLength uxItemSize pxNewQueue : Nat) : Option (Queue Task) :=
  if 0 < uxQueueLength ∧ uxItemSize ≤ sizeMax / uxQueueLength ∧
      uxQueueLength * uxItemSize ≤ sizeMax - sizeofQueue then
    if pxNewQueue = 0 then none
    else prvInitialiseNewQueue uxQueueLength uxItemSize (pxNewQueue + sizeofQueue) pxNewQueue
  else none

/-- `prvCopyDataToQueue`. -/
def prvCopyDataToQueue (pxQueue : Queue Task) (memory : Nat → UInt8) (item : List UInt8)
    (xPosition : CopyPosition) : Queue Task × (Nat → UInt8) :=
  if pxQueue.uxItemSize = 0 then
    ({ pxQueue with uxMessagesWaiting := pxQueue.uxMessagesWaiting + 1 }, memory)
  else
    match xPosition with
    | .sendToBack =>
        let pcWriteTo := pxQueue.pcWriteTo + pxQueue.uxItemSize
        ({ pxQueue with
            pcWriteTo := if pcWriteTo ≥ pxQueue.pcTail then pxQueue.pcHead else pcWriteTo
            uxMessagesWaiting := pxQueue.uxMessagesWaiting + 1 },
          store memory pxQueue.pcWriteTo item)
    | xPosition =>
        let pcReadFrom := pointerSub pxQueue.pcReadFrom pxQueue.uxItemSize
        let uxMessagesWaiting :=
          if xPosition = .overwrite ∧ pxQueue.uxMessagesWaiting > 0 then
            pxQueue.uxMessagesWaiting - 1
          else pxQueue.uxMessagesWaiting
        ({ pxQueue with
            pcReadFrom :=
              if pcReadFrom < pxQueue.pcHead then pointerSub pxQueue.pcTail pxQueue.uxItemSize
              else pcReadFrom
            uxMessagesWaiting := uxMessagesWaiting + 1 },
          store memory pxQueue.pcReadFrom item)

/-- `prvCopyDataFromQueue`. -/
def prvCopyDataFromQueue (pxQueue : Queue Task) (memory : Nat → UInt8) :
    Queue Task × List UInt8 :=
  if pxQueue.uxItemSize ≠ 0 then
    let pcReadFrom := pxQueue.pcReadFrom + pxQueue.uxItemSize
    let pcReadFrom := if pcReadFrom ≥ pxQueue.pcTail then pxQueue.pcHead else pcReadFrom
    ({ pxQueue with pcReadFrom }, load memory pcReadFrom pxQueue.uxItemSize)
  else (pxQueue, [])

/-- The storage lies where pointers can be moved by an item to either side of a slot. -/
structure Placed (pxQueue : Queue Task) : Prop where
  before : pxQueue.uxItemSize ≤ pxQueue.pcHead
  after : pxQueue.pcHead + pxQueue.uxLength * pxQueue.uxItemSize < 2 ^ 32

/-- The two pointers into the storage, and the items between them. -/
structure Between (pxQueue : Queue Task) (memory : Nat → UInt8) (items : List (List UInt8))
    (slot : Nat) : Prop where
  inside : slot < pxQueue.uxLength
  pcReadFrom : pxQueue.pcReadFrom = pxQueue.pcHead + slot * pxQueue.uxItemSize
  pcWriteTo : pxQueue.pcWriteTo = pxQueue.pcHead +
    (slot + 1 + pxQueue.uxMessagesWaiting) % pxQueue.uxLength * pxQueue.uxItemSize
  items : items = ringItems memory pxQueue.pcHead pxQueue.uxItemSize pxQueue.uxLength (slot + 1)
    pxQueue.uxMessagesWaiting

/-- The queue holds these items, the first one to be received first. -/
structure Holds (pxQueue : Queue Task) (memory : Nat → UInt8) (items : List (List UInt8)) :
    Prop where
  placed : Placed pxQueue
  pcTail : pxQueue.pcTail = pxQueue.pcHead + pxQueue.uxLength * pxQueue.uxItemSize
  waiting : items.length = pxQueue.uxMessagesWaiting
  fits : pxQueue.uxMessagesWaiting ≤ pxQueue.uxLength
  positive : 0 < pxQueue.uxLength
  sized : ∀ item ∈ items, item.length = pxQueue.uxItemSize
  between : pxQueue.uxItemSize ≠ 0 → ∃ slot, Between pxQueue memory items slot

variable {pxQueue : Queue Task} {memory : Nat → UInt8} {items : List (List UInt8)}
variable {item : List UInt8}

/-- A pointer that moves up from a slot goes to the next one, round the ring. -/
theorem nextSlot_eq {head size length slot : Nat} (positive : size ≠ 0) (inside : slot < length) :
    (if head + slot * size + size ≥ head + length * size then head
      else head + slot * size + size) = head + (slot + 1) % length * size := by
  have next : head + slot * size + size = head + (slot + 1) * size := by
    rw [Nat.add_mul, Nat.one_mul, Nat.add_assoc]
  rw [next]
  rcases Nat.lt_or_ge (slot + 1) length with below | last
  · have notLast : ¬ head + (slot + 1) * size ≥ head + length * size := by
      have less := Nat.mul_lt_mul_of_pos_right below (Nat.pos_of_ne_zero positive)
      omega
    rw [if_neg notLast, Nat.mod_eq_of_lt below]
  · have isLast : slot + 1 = length := Nat.le_antisymm inside last
    rw [isLast, if_pos (Nat.le_refl _), Nat.mod_self, Nat.zero_mul, Nat.add_zero]

theorem pointerSub_eq {pointer size : Nat} (enough : size ≤ pointer) (small : pointer < 2 ^ 32) :
    pointerSub pointer size = pointer - size := by
  unfold pointerSub
  omega

/-- A pointer that moves down from a slot goes to the one before, round the ring. -/
theorem previousSlot_eq {head size length slot : Nat} (positive : size ≠ 0)
    (inside : slot < length) (before : size ≤ head) (after : head + length * size < 2 ^ 32) :
    (if pointerSub (head + slot * size) size < head then pointerSub (head + length * size) size
      else pointerSub (head + slot * size) size) =
        head + (if slot = 0 then length - 1 else slot - 1) * size := by
  have less := Nat.mul_lt_mul_of_pos_right inside (Nat.pos_of_ne_zero positive)
  rw [pointerSub_eq (by omega) (by omega), pointerSub_eq (by omega) (by omega)]
  cases slot with
  | zero =>
      obtain ⟨last, rfl⟩ := Nat.exists_eq_add_of_lt inside
      rw [Nat.zero_mul, if_pos (by omega), if_pos rfl, Nat.zero_add, Nat.add_sub_cancel,
        Nat.add_mul, Nat.one_mul]
      omega
  | succ slot =>
      rw [if_neg (Nat.succ_ne_zero slot), Nat.add_sub_cancel, Nat.add_mul, Nat.one_mul,
        ← Nat.add_assoc, Nat.add_sub_cancel, if_neg (by omega)]

/-- The event lists and the locks do not matter. -/
theorem Holds.with_events (holds : Holds pxQueue memory items)
    (xTasksWaitingToSend xTasksWaitingToReceive : List Task) (cRxLock cTxLock : Int) :
    Holds { pxQueue with xTasksWaitingToSend, xTasksWaitingToReceive, cRxLock, cTxLock } memory
      items := by
  refine ⟨⟨holds.placed.before, holds.placed.after⟩, holds.pcTail, holds.waiting, holds.fits,
    holds.positive, holds.sized, fun positive => ?_⟩
  rcases holds.between positive with ⟨slot, between⟩
  exact ⟨slot, between.inside, between.pcReadFrom, between.pcWriteTo, between.items⟩

/-- Memory outside the storage does not matter. -/
theorem Holds.with_memory {otherMemory : Nat → UInt8} (holds : Holds pxQueue memory items)
    (same : ∀ address, pxQueue.pcHead ≤ address →
      address < pxQueue.pcHead + pxQueue.uxLength * pxQueue.uxItemSize →
      otherMemory address = memory address) :
    Holds pxQueue otherMemory items := by
  refine { holds with between := fun positive => ?_ }
  rcases holds.between positive with ⟨slot, between⟩
  refine ⟨slot, between.inside, between.pcReadFrom, between.pcWriteTo, ?_⟩
  rw [between.items]
  exact (ringItems_congr holds.positive same).symm

/-- What a call leaves alone. -/
structure SameShape (pxQueue other : Queue Task) : Prop where
  pcHead : other.pcHead = pxQueue.pcHead
  uxLength : other.uxLength = pxQueue.uxLength
  uxItemSize : other.uxItemSize = pxQueue.uxItemSize

theorem SameShape.trans {first second third : Queue Task} (one : SameShape first second)
    (two : SameShape second third) : SameShape first third where
  pcHead := two.pcHead.trans one.pcHead
  uxLength := two.uxLength.trans one.uxLength
  uxItemSize := two.uxItemSize.trans one.uxItemSize

theorem xQueueGenericReset_shape {reset : Queue Task} {xNewQueue : Bool}
    (isReset : xQueueGenericReset pxQueue xNewQueue = some reset) : SameShape pxQueue reset := by
  unfold xQueueGenericReset at isReset
  split at isReset
  next =>
    cases isReset
    exact ⟨rfl, rfl, rfl⟩
  next => cases isReset

/-- A queue that is reset holds nothing. -/
theorem holds_reset {reset : Queue Task} {xNewQueue : Bool}
    (isReset : xQueueGenericReset pxQueue xNewQueue = some reset) (placed : Placed pxQueue) :
    Holds reset memory [] := by
  unfold xQueueGenericReset at isReset
  split at isReset
  next valid =>
    cases isReset
    constructor
    case placed => exact ⟨placed.before, placed.after⟩
    case pcTail => rfl
    case waiting => rfl
    case fits => exact Nat.zero_le _
    case positive => exact valid.1
    case sized => exact List.forall_mem_nil _
    case between =>
      intro _
      refine ⟨pxQueue.uxLength - 1, Nat.sub_lt valid.1 Nat.one_pos, rfl, ?_, rfl⟩
      have last : pxQueue.uxLength - 1 + 1 + 0 = pxQueue.uxLength := Nat.sub_add_cancel valid.1
      dsimp only
      rw [last, Nat.mod_self, Nat.zero_mul, Nat.add_zero]
  next => cases isReset

theorem xQueueGenericReset_returns (xNewQueue : Bool) (positive : 0 < pxQueue.uxLength)
    (placed : Placed pxQueue) : ∃ reset, xQueueGenericReset pxQueue xNewQueue = some reset := by
  have after := placed.after
  have noOverflow : sizeMax / pxQueue.uxLength ≥ pxQueue.uxItemSize := by
    rw [ge_iff_le, Nat.le_div_iff_mul_le positive, Nat.mul_comm, sizeMax]
    omega
  unfold xQueueGenericReset
  rw [if_pos ⟨positive, noOverflow⟩]
  exact ⟨_, rfl⟩

/-- What `xQueueGenericCreate` lays out. -/
theorem xQueueGenericCreate_eq_some {uxQueueLength uxItemSize pxNewQueue : Nat}
    (created : xQueueGenericCreate uxQueueLength uxItemSize pxNewQueue = some pxQueue) :
    prvInitialiseNewQueue uxQueueLength uxItemSize (pxNewQueue + sizeofQueue) pxNewQueue =
      some pxQueue := by
  unfold xQueueGenericCreate at created
  split at created
  next =>
    split at created
    next => cases created
    next => exact created
  next => cases created

/-! ## Copying -/

/-- Where an item goes. -/
def insertItem (items : List (List UInt8)) (item : List UInt8) :
    CopyPosition → List (List UInt8)
  | .sendToBack => items ++ [item]
  | .sendToFront => item :: items
  | .overwrite => item :: items.tail

/-- The positions that there is room for. Only a queue of one item is overwritten, and no
semaphore. -/
structure Fits (pxQueue : Queue Task) (xPosition : CopyPosition) : Prop where
  room : pxQueue.uxMessagesWaiting < pxQueue.uxLength ∨ xPosition = .overwrite
  single : xPosition = .overwrite → pxQueue.uxLength = 1 ∧ pxQueue.uxItemSize ≠ 0

/-- The ring after an item has been written behind the others. -/
theorem Between.back {slot : Nat} (between : Between pxQueue memory items slot)
    (positive : pxQueue.uxItemSize ≠ 0)
    (pcTail : pxQueue.pcTail = pxQueue.pcHead + pxQueue.uxLength * pxQueue.uxItemSize)
    (room : pxQueue.uxMessagesWaiting < pxQueue.uxLength)
    (sized : item.length = pxQueue.uxItemSize) :
    Between
      { pxQueue with
        pcWriteTo := if pxQueue.pcWriteTo + pxQueue.uxItemSize ≥ pxQueue.pcTail then pxQueue.pcHead
          else pxQueue.pcWriteTo + pxQueue.uxItemSize
        uxMessagesWaiting := pxQueue.uxMessagesWaiting + 1 }
      (store memory pxQueue.pcWriteTo item) (items ++ [item]) slot where
  inside := between.inside
  pcReadFrom := between.pcReadFrom
  pcWriteTo := by
    dsimp only
    rw [between.pcWriteTo, pcTail,
      nextSlot_eq positive (Nat.mod_lt _ (Nat.zero_lt_of_lt between.inside)), Nat.mod_add_mod]
    rfl
  items := by
    dsimp only
    rw [between.pcWriteTo, ringItems_store_back (Nat.zero_lt_of_lt between.inside) room sized,
      between.items]

/-- The slot in front of a slot. -/
def previousSlot (slot length : Nat) : Nat :=
  if slot = 0 then length - 1 else slot - 1

theorem previousSlot_mod {slot length : Nat} (inside : slot < length) (offset : Nat) :
    (previousSlot slot length + 1 + offset) % length = (slot + offset) % length := by
  unfold previousSlot
  split
  next isZero =>
    have last : length - 1 + 1 + offset = length + offset := by omega
    rw [last, Nat.add_mod_left, isZero, Nat.zero_add]
  next => congr 1; omega

/-- The ring after an item has been written in front of the first `kept` items. -/
theorem Between.front {slot kept : Nat} (between : Between pxQueue memory items slot)
    (positive : pxQueue.uxItemSize ≠ 0) (placed : Placed pxQueue)
    (pcTail : pxQueue.pcTail = pxQueue.pcHead + pxQueue.uxLength * pxQueue.uxItemSize)
    (room : kept < pxQueue.uxLength) (sized : item.length = pxQueue.uxItemSize)
    (behind : (slot + 1 + kept) % pxQueue.uxLength =
      (slot + 1 + pxQueue.uxMessagesWaiting) % pxQueue.uxLength) :
    Between
      { pxQueue with
        pcReadFrom :=
          if pointerSub pxQueue.pcReadFrom pxQueue.uxItemSize < pxQueue.pcHead then
            pointerSub pxQueue.pcTail pxQueue.uxItemSize
          else pointerSub pxQueue.pcReadFrom pxQueue.uxItemSize
        uxMessagesWaiting := kept + 1 }
      (store memory pxQueue.pcReadFrom item)
      (item :: ringItems memory pxQueue.pcHead pxQueue.uxItemSize pxQueue.uxLength (slot + 1) kept)
      (previousSlot slot pxQueue.uxLength) where
  inside := by
    have inside := between.inside
    unfold previousSlot
    dsimp only
    split <;> omega
  pcReadFrom := by
    dsimp only
    rw [between.pcReadFrom, pcTail,
      previousSlot_eq positive between.inside placed.before placed.after]
    rfl
  pcWriteTo := by
    dsimp only
    rw [between.pcWriteTo, ← behind, previousSlot_mod between.inside]
    congr 3
    omega
  items := by
    dsimp only
    have here : (previousSlot slot pxQueue.uxLength + 1) % pxQueue.uxLength = slot :=
      (previousSlot_mod between.inside 0).trans (Nat.mod_eq_of_lt between.inside)
    have window := @ringItems_store_front _ memory pxQueue.pcHead pxQueue.uxItemSize
      pxQueue.uxLength (previousSlot slot pxQueue.uxLength + 1) kept room item sized
    rw [here] at window
    have round := @ringItems_mod _ memory pxQueue.pcHead pxQueue.uxItemSize pxQueue.uxLength
      (previousSlot slot pxQueue.uxLength + 1 + 1) kept
    rw [between.pcReadFrom, window, ← round, previousSlot_mod between.inside 1, ringItems_mod]

/-- The ring after the first item has been read. -/
theorem Between.next {slot : Nat} (between : Between pxQueue memory items slot)
    {rest : Nat} (waiting : pxQueue.uxMessagesWaiting = rest + 1) :
    items = load memory (pxQueue.pcHead + (slot + 1) % pxQueue.uxLength * pxQueue.uxItemSize)
        pxQueue.uxItemSize :: items.tail ∧
      Between
        { pxQueue with
          pcReadFrom := pxQueue.pcHead + (slot + 1) % pxQueue.uxLength * pxQueue.uxItemSize
          uxMessagesWaiting := rest }
        memory items.tail ((slot + 1) % pxQueue.uxLength) := by
  have isSplit := between.items
  rw [waiting, ringItems_cons] at isSplit
  have positive : 0 < pxQueue.uxLength := Nat.zero_lt_of_lt between.inside
  rw [isSplit, List.tail_cons]
  refine ⟨rfl, Nat.mod_lt _ positive, rfl, ?_, ?_⟩
  · have round : ((slot + 1) % pxQueue.uxLength + 1 + rest) % pxQueue.uxLength =
        (slot + 1 + (rest + 1)) % pxQueue.uxLength := by
      rw [Nat.add_assoc ((slot + 1) % pxQueue.uxLength), Nat.mod_add_mod, Nat.add_comm 1 rest]
    dsimp only
    rw [between.pcWriteTo, waiting, round]
  · have round := @ringItems_mod _ memory pxQueue.pcHead pxQueue.uxItemSize pxQueue.uxLength
      (slot + 1 + 1) rest
    dsimp only
    rw [← round, ← Nat.mod_add_mod (slot + 1), ringItems_mod]

theorem Placed.of_shape {other : Queue Task} (placed : Placed other)
    (shape : SameShape pxQueue other) : Placed pxQueue where
  before := shape.uxItemSize ▸ shape.pcHead ▸ placed.before
  after := by
    have after := placed.after
    rwa [shape.pcHead, shape.uxLength, shape.uxItemSize] at after

theorem sameShape_pointers (pxQueue : Queue Task) (pcWriteTo pcReadFrom uxMessagesWaiting : Nat) :
    SameShape pxQueue { pxQueue with pcWriteTo, pcReadFrom, uxMessagesWaiting } where
  pcHead := rfl
  uxLength := rfl
  uxItemSize := rfl

theorem prvCopyDataToQueue_shape (pxQueue : Queue Task) (memory : Nat → UInt8)
    (item : List UInt8) (xPosition : CopyPosition) :
    SameShape pxQueue (prvCopyDataToQueue pxQueue memory item xPosition).1 := by
  unfold prvCopyDataToQueue
  split
  next => exact sameShape_pointers pxQueue _ _ _
  next => cases xPosition <;> exact sameShape_pointers pxQueue _ _ _

theorem Holds.copyDataTo (holds : Holds pxQueue memory items) {xPosition : CopyPosition}
    (fits : Fits pxQueue xPosition) (sized : item.length = pxQueue.uxItemSize) :
    Holds (prvCopyDataToQueue pxQueue memory item xPosition).1
      (prvCopyDataToQueue pxQueue memory item xPosition).2 (insertItem items item xPosition) := by
  have inserted : ∀ other ∈ insertItem items item xPosition,
      other.length = pxQueue.uxItemSize := by
    intro other isOther
    cases xPosition with
    | sendToBack =>
        rcases List.mem_append.mp isOther with old | new
        · exact holds.sized other old
        · rw [List.mem_singleton.mp new, sized]
    | sendToFront =>
        rcases List.mem_cons.mp isOther with rfl | old
        · exact sized
        · exact holds.sized other old
    | overwrite =>
        rcases List.mem_cons.mp isOther with rfl | old
        · exact sized
        · exact holds.sized other (List.mem_of_mem_tail old)
  by_cases empty : pxQueue.uxItemSize = 0
  · have notOver : xPosition ≠ .overwrite := fun replaces => (fits.single replaces).2 empty
    have room := fits.room.resolve_right notOver
    unfold prvCopyDataToQueue
    rw [if_pos empty]
    refine ⟨⟨holds.placed.before, holds.placed.after⟩, holds.pcTail, ?_, room, holds.positive,
      inserted, fun positive => absurd empty positive⟩
    cases xPosition with
    | sendToBack => rw [insertItem, List.length_append, holds.waiting]; rfl
    | sendToFront => rw [insertItem, List.length_cons, holds.waiting]
    | overwrite => exact absurd rfl notOver
  · rcases holds.between empty with ⟨slot, between⟩
    unfold prvCopyDataToQueue
    rw [if_neg empty]
    cases xPosition with
    | sendToBack =>
        have room := fits.room.resolve_right (by decide)
        refine ⟨⟨holds.placed.before, holds.placed.after⟩, holds.pcTail, ?_, room, holds.positive,
          inserted, fun _ => ⟨slot, between.back empty holds.pcTail room sized⟩⟩
        rw [insertItem, List.length_append, holds.waiting]
        rfl
    | sendToFront =>
        have room := fits.room.resolve_right (by decide)
        have front := between.front empty holds.placed holds.pcTail room sized rfl
        rw [← between.items] at front
        refine ⟨⟨holds.placed.before, holds.placed.after⟩, holds.pcTail, ?_, room, holds.positive,
          inserted, fun _ => ⟨_, front⟩⟩
        rw [insertItem, List.length_cons, holds.waiting]
        rfl
    | overwrite =>
        -- The one item of the queue gives way, so that the new one is alone.
        have single := (fits.single rfl).1
        have full := holds.fits
        have alone : items.tail = [] := by
          apply List.eq_nil_of_length_eq_zero
          rw [List.length_tail, holds.waiting]
          omega
        have behind : (slot + 1 + 0) % pxQueue.uxLength =
            (slot + 1 + pxQueue.uxMessagesWaiting) % pxQueue.uxLength := by
          rw [single, Nat.mod_one, Nat.mod_one]
        have kept : (if CopyPosition.overwrite = .overwrite ∧ pxQueue.uxMessagesWaiting > 0 then
            pxQueue.uxMessagesWaiting - 1 else pxQueue.uxMessagesWaiting) = 0 := by
          rcases Nat.eq_zero_or_pos pxQueue.uxMessagesWaiting with none | some
          · rw [if_neg (fun both => both.2.ne' none), none]
          · rw [if_pos ⟨rfl, some⟩]
            omega
        have front := between.front empty holds.placed holds.pcTail holds.positive sized behind
        dsimp only
        rw [kept, insertItem, alone]
        rw [insertItem, alone] at inserted
        exact ⟨⟨holds.placed.before, holds.placed.after⟩, holds.pcTail, rfl, holds.positive,
          holds.positive, inserted, fun _ => ⟨_, front⟩⟩

/-- The first item is copied from the queue, and the others are left. -/
theorem Holds.copyDataFrom (holds : Holds pxQueue memory items)
    (waiting : pxQueue.uxMessagesWaiting > 0) :
    items = (prvCopyDataFromQueue pxQueue memory).2 :: items.tail ∧
      Holds
        { (prvCopyDataFromQueue pxQueue memory).1 with
          uxMessagesWaiting := pxQueue.uxMessagesWaiting - 1 }
        memory items.tail := by
  have count : items.tail.length = pxQueue.uxMessagesWaiting - 1 := by
    rw [List.length_tail, holds.waiting]
  have fewer : pxQueue.uxMessagesWaiting - 1 ≤ pxQueue.uxLength :=
    (Nat.sub_le _ _).trans holds.fits
  have sized : ∀ item ∈ items.tail, item.length = pxQueue.uxItemSize :=
    fun item isItem => holds.sized item (List.mem_of_mem_tail isItem)
  unfold prvCopyDataFromQueue
  by_cases empty : pxQueue.uxItemSize = 0
  · rw [if_neg (not_not.mpr empty)]
    refine ⟨?_, ⟨holds.placed.before, holds.placed.after⟩, holds.pcTail, count, fewer,
      holds.positive, sized, fun positive => absurd empty positive⟩
    cases items with
    | nil => exact absurd holds.waiting waiting.ne
    | cons item rest =>
        have blank := holds.sized item List.mem_cons_self
        rw [List.eq_nil_of_length_eq_zero (blank.trans empty), List.tail_cons]
  · rcases holds.between empty with ⟨slot, between⟩
    have next := between.next (Nat.sub_add_cancel waiting).symm
    have moved : (if pxQueue.pcReadFrom + pxQueue.uxItemSize ≥ pxQueue.pcTail then pxQueue.pcHead
        else pxQueue.pcReadFrom + pxQueue.uxItemSize) =
          pxQueue.pcHead + (slot + 1) % pxQueue.uxLength * pxQueue.uxItemSize := by
      rw [between.pcReadFrom, holds.pcTail, nextSlot_eq empty between.inside]
    rw [if_pos empty]
    dsimp only
    rw [moved]
    exact ⟨next.1, ⟨holds.placed.before, holds.placed.after⟩, holds.pcTail, count, fewer,
      holds.positive, sized, fun _ => ⟨_, next.2⟩⟩

theorem prvCopyDataFromQueue_restore (pxQueue : Queue Task) (memory : Nat → UInt8) :
    { (prvCopyDataFromQueue pxQueue memory).1 with pcReadFrom := pxQueue.pcReadFrom } =
      pxQueue := by
  unfold prvCopyDataFromQueue
  split <;> rfl

theorem prvCopyDataFromQueue_shape (pxQueue : Queue Task) (memory : Nat → UInt8) :
    SameShape pxQueue (prvCopyDataFromQueue pxQueue memory).1 := by
  unfold prvCopyDataFromQueue
  split <;> exact sameShape_pointers pxQueue _ _ _

end SunWise.Kernel
