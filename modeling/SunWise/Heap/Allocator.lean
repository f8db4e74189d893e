import Mathlib.Data.Nat.Bitwise
import SunWise.Heap.FreeList
import SunWise.Library.Allocation

/-!
# Allocating and freeing

On the list of free blocks `pvPortMalloc` takes a span from the first one that is large
enough, and `vPortFree` gives one back.
-/

namespace SunWise.Heap

open Library

namespace HeapState

variable {heap other : HeapState} {layout : HeapLayout} {free : List Span}

theorem FreeList.congr (list : FreeList layout heap free) (pxEnd : other.pxEnd = heap.pxEnd)
    (start : other.memory layout.xStart = heap.memory layout.xStart)
    (last : other.memory heap.pxEnd = heap.memory heap.pxEnd)
    (same : ∀ span ∈ free, other.memory span.start = heap.memory span.start) :
    FreeList layout other free where
  linked := by
    rw [pxEnd]
    refine list.linked.congr fun node isNode => congrArg BlockLink.pxNextFreeBlock ?_
    rcases List.mem_cons.mp isNode with rfl | isNode
    · exact start
    · rcases List.mem_map.mp isNode with ⟨span, isSpan, rfl⟩
      exact same span isSpan
  sizes span isSpan :=
    (congrArg BlockLink.xBlockSize (same span isSpan)).trans (list.sizes span isSpan)
  startSize := (congrArg BlockLink.xBlockSize start).trans list.startSize
  endNext := by
    rw [pxEnd]
    exact (congrArg BlockLink.pxNextFreeBlock last).trans list.endNext
  endSize := by
    rw [pxEnd]
    exact (congrArg BlockLink.xBlockSize last).trans list.endSize
  isEnd := pxEnd.trans list.isEnd
  separated := list.separated
  inside := list.inside

theorem FreeList.next_ne_zero (list : FreeList layout heap free) {span : Span}
    (isSpan : span ∈ free) : heap.next span.start ≠ 0 := by
  obtain ⟨front, back, rfl⟩ := List.append_of_mem isSpan
  have list' : FreeList layout heap ((front ++ [span]) ++ back) := by
    rw [List.append_assoc]
    exact list
  have placed := layout.placed
  have first := le_alignedHeap layout
  rw [list'.next_last (nodes_concat layout front span)]
  cases back with
  | nil =>
      have bounds := list.inside span isSpan
      rw [headOr, list.isEnd]
      rw [Span.stop] at bounds
      omega
  | cons next back =>
      have bounds := list.inside next (by simp)
      rw [headOr]
      omega

theorem fitLoop_eq {xWantedSize node stop : Nat} {nodes back : List Nat}
    (linked : heap.Linked (node :: nodes ++ stop :: back))
    (small : ∀ a ∈ nodes, heap.size a < xWantedSize ∧ heap.next a ≠ 0)
    (stops : ¬ (heap.size stop < xWantedSize ∧ heap.next stop ≠ 0)) {turns : Nat}
    (enough : nodes.length < turns) :
    heap.fitLoop xWantedSize turns node (heap.next node) =
      some ((node :: nodes).getLast (List.cons_ne_nil node nodes), stop) := by
  induction nodes generalizing node turns with
  | nil =>
      obtain ⟨turns, rfl⟩ := Nat.exists_eq_succ_of_ne_zero (Nat.ne_of_gt enough)
      rw [List.cons_append, List.nil_append, linked_cons_cons] at linked
      rw [fitLoop, linked.1, if_neg stops]
      rfl
  | cons first nodes ih =>
      obtain ⟨turns, rfl⟩ := Nat.exists_eq_succ_of_ne_zero (Nat.ne_zero_of_lt enough)
      rw [List.forall_mem_cons] at small
      rw [List.cons_append, List.cons_append, linked_cons_cons] at linked
      rw [fitLoop, linked.1, if_pos small.1,
        ih linked.2 small.2 (Nat.lt_of_succ_lt_succ enough)]
      rfl

/-- If no block is large enough, the last node is found. -/
theorem FreeList.fitLoop_none (list : FreeList layout heap free) {xWantedSize : Nat}
    (small : ∀ span ∈ free, span.size < xWantedSize) :
    ∃ pxPreviousBlock, heap.fitLoop xWantedSize layout.configTotalHeapSize layout.xStart
      (heap.next layout.xStart) = some (pxPreviousBlock, heap.pxEnd) := by
  have linked := list.linked
  refine ⟨_, fitLoop_eq linked ?_ ?_ ?_⟩
  · intro a isIn
    rcases List.mem_map.mp isIn with ⟨span, isSpan, rfl⟩
    rw [list.sizes span isSpan]
    exact ⟨small span isSpan, list.next_ne_zero isSpan⟩
  · exact fun both => both.2 list.endNext
  · rw [List.length_map]
    exact list.length_lt

/-- The first block that is large enough is found. -/
theorem FreeList.fitLoop_some {front back : List Span} {whole : Span} {xWantedSize : Nat}
    (list : FreeList layout heap (front ++ whole :: back))
    (small : ∀ span ∈ front, span.size < xWantedSize) (enough : xWantedSize ≤ whole.size) :
    heap.fitLoop xWantedSize layout.configTotalHeapSize layout.xStart
      (heap.next layout.xStart) = some ((layout.xStart :: front.map Span.start).getLast
        (List.cons_ne_nil _ _), whole.start) := by
  have linked := list.linked
  rw [List.map_append, List.map_cons, List.cons_append, List.append_assoc, List.cons_append]
    at linked
  refine fitLoop_eq linked ?_ ?_ ?_
  · intro a isIn
    rcases List.mem_map.mp isIn with ⟨span, isSpan, rfl⟩
    have isFree := List.mem_append_left (whole :: back) isSpan
    rw [list.sizes span isFree]
    exact ⟨small span isSpan, list.next_ne_zero isFree⟩
  · rw [list.sizes whole (by simp)]
    exact fun both => Nat.not_lt.mpr enough both.1
  · have short := list.length_lt
    rw [List.length_append] at short
    rw [List.length_map]
    omega

theorem FreeList.unlink {front back : List Span} {whole : Span} {nodes : List Nat}
    {pxPreviousBlock : Nat} (list : FreeList layout heap (front ++ whole :: back))
    (isLast : layout.xStart :: front.map Span.start = nodes ++ [pxPreviousBlock]) :
    heap.next pxPreviousBlock = whole.start ∧
      FreeList layout (heap.setNext pxPreviousBlock (heap.next whole.start)) (front ++ back) ∧
      pxPreviousBlock ∈ layout.xStart :: front.map Span.start := by
  have isPrevious : pxPreviousBlock ∈ layout.xStart :: front.map Span.start := by
    rw [isLast]
    exact List.mem_append_right _ List.mem_cons_self
  have bounds := list.inside whole (by simp)
  have gaps := List.pairwise_append.mp list.separated.gaps
  have before := list.mem_front
    (fun other isFront => (gaps.2.2 other isFront whole List.mem_cons_self).le) isPrevious
  have nextWhole : heap.next whole.start = headOr back heap.pxEnd := by
    have list' : FreeList layout heap ((front ++ [whole]) ++ back) := by
      rw [List.append_assoc]
      exact list
    exact list'.next_last (nodes_concat layout front whole)
  have notPrevious : ∀ node, whole.start < node → node ≤ heapEnd layout →
      node ≠ pxPreviousBlock := by
    intro node after isBelow
    rcases before with rfl | less
    · exact xStart_ne layout (bounds.1.trans after.le) isBelow
    · omega
  have positive := list.separated.positive whole (by simp)
  rw [Span.stop] at bounds
  refine ⟨list.next_last isLast, ?_, isPrevious⟩
  constructor
  case linked =>
    rcases map_start_append back heap.pxEnd with ⟨tail, isTail⟩
    have linkedBack : heap.Linked ((whole :: back).map Span.start ++ [heap.pxEnd]) :=
      list.linked_back
    have linkedFront := list.linked_front
    rw [List.map_cons, List.cons_append, isTail, linked_cons_cons] at linkedBack
    rw [isLast] at linkedFront
    change Linked _ (layout.xStart :: (front ++ back).map Span.start ++ [heap.pxEnd])
    rw [List.map_append, ← List.cons_append, List.append_assoc, isTail, isLast, List.append_assoc,
      List.cons_append, List.nil_append, linked_append, linked_cons_cons, next_setNext,
      if_pos rfl, ← isTail]
    refine ⟨linkedFront.congr fun node isNode => ?_, nextWhole, ?_⟩
    · have nodup := list.nodup
      rw [List.map_append, ← List.cons_append, isLast] at nodup
      rw [next_setNext, if_neg]
      exact (List.nodup_append.mp (List.nodup_append.mp nodup).1).2.2 node isNode _
        List.mem_cons_self
    · refine Linked.congr (isTail ▸ linkedBack.2) fun node isNode => ?_
      rcases List.mem_map.mp isNode with ⟨other, isOther, rfl⟩
      have gap := (List.pairwise_cons.mp gaps.2.1).1 other isOther
      have within := list.inside other (List.mem_append_right _ (List.mem_cons_of_mem _ isOther))
      rw [Span.stop] at gap within
      rw [next_setNext, if_neg (notPrevious _ (by omega) (by omega))]
  case sizes =>
    intro span isSpan
    rw [size_setNext]
    refine list.sizes span ?_
    rcases List.mem_append.mp isSpan with isFront | isBack
    · exact List.mem_append_left _ isFront
    · exact List.mem_append_right _ (List.mem_cons_of_mem _ isBack)
  case startSize => exact (size_setNext ..).trans list.startSize
  case endNext =>
    change (heap.setNext _ _).next heap.pxEnd = 0
    rw [next_setNext, if_neg, list.endNext]
    rw [list.isEnd]
    exact notPrevious _ (by omega) (Nat.le_refl _)
  case endSize => exact (size_setNext ..).trans list.endSize
  case isEnd => exact list.isEnd
  case separated =>
    exact list.separated.sublist (List.Sublist.append_left (List.sublist_cons_self ..) front)
  case inside =>
    intro span isSpan
    refine list.inside span ?_
    rcases List.mem_append.mp isSpan with isFront | isBack
    · exact List.mem_append_left _ isFront
    · exact List.mem_append_right _ (List.mem_cons_of_mem _ isBack)

theorem FreeList.not_covers {front back : List Span} {whole : Span}
    (list : FreeList layout heap (front ++ back))
    (separated : Separated (front ++ whole :: back))
    (inside : alignedHeap layout ≤ whole.start ∧ whole.stop ≤ heapEnd layout) :
    ¬ whole.Covers layout.xStart ∧ ¬ whole.Covers heap.pxEnd ∧
      ∀ other ∈ front ++ back, ¬ whole.Covers other.start := by
  have gaps := List.pairwise_append.mp separated.gaps
  refine ⟨fun covers => ?_, fun covers => ?_, List.forall_mem_append.mpr
    ⟨fun other isFront covers => ?_, fun other isBack covers => ?_⟩⟩
  · exact xStart_ne layout (inside.1.trans covers.1) (covers.2.le.trans inside.2) rfl
  · exact absurd (covers.2.trans_le inside.2) (Nat.not_lt.mpr list.isEnd.ge)
  · have gap := gaps.2.2 other isFront whole List.mem_cons_self
    have before := covers.1
    rw [Span.stop] at gap
    omega
  · exact Nat.lt_asymm ((List.pairwise_cons.mp gaps.2.1).1 other isBack) covers.2

theorem sizeSub_eq {left right : Nat} (order : right ≤ left) (small : left < sizeValues) :
    sizeSub left right = left - right := by
  unfold sizeSub
  simp only [sizeValues] at *
  omega

/-- The block that was found becomes the one that is given away, and the rest of it becomes
a block of the list. -/
theorem FreeList.split {front back left : List Span} {whole taken : Span} {xWantedSize : Nat}
    (list : FreeList layout heap (front ++ back))
    (separated : Separated (front ++ whole :: back)) (size : heap.size whole.start = whole.size)
    (inside : alignedHeap layout ≤ whole.start ∧ whole.stop ≤ heapEnd layout)
    (enough : xWantedSize ≤ whole.size) (positive : 0 < xWantedSize)
    (cut : heapMinimumBlockSize < whole.size - xWantedSize ∧ taken = ⟨whole.start, xWantedSize⟩ ∧
        left = front ++ ⟨whole.start + xWantedSize, whole.size - xWantedSize⟩ :: back ∨
      whole.size - xWantedSize ≤ heapMinimumBlockSize ∧ taken = whole ∧ left = front ++ back) :
    ∃ after, heap.split layout xWantedSize whole.start = some after ∧
      FreeList layout after left ∧ heap.SameRest after ∧ after.size whole.start = taken.size ∧
      ∀ a, a ≠ layout.xStart → ¬ Covered (front ++ whole :: back) a →
        after.memory a = heap.memory a := by
  have small := (size_lt layout inside.1 inside.2).trans (by decide : 2 ^ 31 < sizeValues)
  unfold HeapState.split
  rw [size, sizeSub_eq enough small]
  rcases cut with ⟨larger, rfl, rfl⟩ | ⟨notLarger, rfl, rfl⟩
  swap
  · rw [if_neg (Nat.not_lt.mpr notLarger)]
    exact ⟨heap, rfl, list, SameRest.refl heap, size, fun a _ _ => rfl⟩
  rw [if_pos larger]
  obtain ⟨rest, isRest⟩ : ∃ rest : Span,
      rest = ⟨whole.start + xWantedSize, whole.size - xWantedSize⟩ := ⟨_, rfl⟩
  have restStart : rest.start = whole.start + xWantedSize := by rw [isRest]
  have restSize : rest.size = whole.size - xWantedSize := by rw [isRest]
  have restStop : rest.stop = whole.stop := by
    rw [isRest, Span.stop, Span.stop]
    dsimp only
    omega
  rw [← isRest, ← restStart, ← restSize]
  obtain ⟨cutHeap, isCut⟩ : ∃ cutHeap : HeapState, cutHeap =
      (heap.setSize rest.start rest.size).setSize whole.start xWantedSize := ⟨_, rfl⟩
  have differs : rest.start ≠ whole.start := by omega
  have restPositive : 0 < rest.size := by
    rw [restSize]
    exact Nat.lt_of_le_of_lt (Nat.zero_le _) larger
  have restCovered : whole.Covers rest.start := by
    rw [Span.covers_iff]
    omega
  have memory : ∀ a, ¬ whole.Covers a → cutHeap.memory a = heap.memory a := by
    intro a notCovered
    have notWhole : a ≠ whole.start := by
      rintro rfl
      exact notCovered ⟨Nat.le_refl _, by rw [Span.stop]; omega⟩
    have notRest : a ≠ rest.start := by
      rintro rfl
      exact notCovered restCovered
    rw [isCut]
    exact memory_ext (by rw [next_setSize, next_setSize])
      (by rw [size_setSize, if_neg notWhole, size_setSize, if_neg notRest])
  have sameRest : heap.SameRest cutHeap := by
    rw [isCut]
    exact (sameRest_setSize ..).trans (sameRest_setSize ..)
  have notCovers := list.not_covers separated inside
  have cutList : FreeList layout cutHeap (front ++ back) :=
    list.congr sameRest.pxEnd (memory _ notCovers.1) (memory _ notCovers.2.1)
      fun other isOther => memory _ (notCovers.2.2 other isOther)
  have gaps := List.pairwise_append.mp separated.gaps
  have backGaps := (List.pairwise_cons.mp gaps.2.1).1
  have before : ∀ other ∈ front, other.stop < rest.start := by
    intro other isFront
    have gap := gaps.2.2 other isFront whole List.mem_cons_self
    omega
  have behind : ∀ other ∈ back, rest.stop < other.start := by
    intro other isBack
    rw [restStop]
    exact backGaps other isBack
  have isInserted : insertSpan rest (front ++ back) = front ++ rest :: back := by
    rw [insertSpan_append before fun other isBack =>
      (Nat.le_add_right _ _).trans (behind other isBack).le]
    cases back with
    | nil => rfl
    | cons next back =>
        rw [Library.joinNext, if_neg (Nat.ne_of_lt (behind next List.mem_cons_self))]
  have restSizeCut : cutHeap.size rest.start = rest.size := by
    rw [isCut, size_setSize, if_neg differs, size_setSize, if_pos rfl]
  obtain ⟨after, inserts, isList, sameRestToo, frame⟩ := cutList.insert restSizeCut restPositive
    ⟨inside.1.trans (restStart ▸ Nat.le_add_right _ _), restStop ▸ inside.2⟩
    (List.forall_mem_append.mpr ⟨fun other isFront => Or.inr (before other isFront).le,
      fun other isBack => Or.inl (behind other isBack).le⟩)
  rw [isInserted] at isList
  refine ⟨after, ?_, isList, sameRest.trans sameRestToo, ?_, ?_⟩
  · rw [isCut] at inserts
    exact inserts
  · have atWhole := frame whole.start
      (xStart_ne layout inside.1 ((Nat.le_add_right _ _).trans inside.2)) differs.symm
      fun other isOther same => notCovers.2.2 other isOther
        (same ▸ ⟨Nat.le_refl _, by rw [Span.stop]; omega⟩)
    refine (congrArg BlockLink.xBlockSize atWhole).trans ?_
    change cutHeap.size whole.start = xWantedSize
    rw [isCut, size_setSize, if_pos rfl]
  · intro a notStart notCovered
    rw [covered_append, covered_cons] at notCovered
    have notWhole : ¬ whole.Covers a := fun covers => notCovered (Or.inr (Or.inl covers))
    rw [← memory a notWhole]
    refine frame a notStart ?_ fun other isOther => ?_
    · rintro rfl
      exact notWhole restCovered
    · rintro rfl
      have covers : other.Covers other.start :=
        ⟨Nat.le_refl _, Nat.lt_add_of_pos_right (list.separated.positive other isOther)⟩
      rcases List.mem_append.mp isOther with isFront | isBack
      · exact notCovered (Or.inl ⟨other, isFront, covers⟩)
      · exact notCovered (Or.inr (Or.inr ⟨other, isBack, covers⟩))

/-! ## `pvPortMalloc` and `vPortFree` -/

/-- The heap as the allocator sees it: its list and its count of free bytes. -/
structure Manages (layout : HeapLayout) (heap : HeapState) (free : List Span) : Prop where
  list : FreeList layout heap free
  xFreeBytesRemaining : heap.xFreeBytesRemaining = totalSize free

theorem heapEnd_pos (layout : HeapLayout) : 0 < heapEnd layout := by
  have room := layout.room
  have last := lt_heapEnd layout
  omega

theorem FreeList.initialised (list : FreeList layout heap free) :
    heap.initialised layout = heap := by
  have positive := heapEnd_pos layout
  unfold HeapState.initialised
  rw [if_neg]
  rw [list.isEnd]
  omega

/-- The free bytes of a heap are a `size_t` without its highest bit. -/
theorem FreeList.totalSize_lt (list : FreeList layout heap free) :
    totalSize free < heapBlockAllocatedBitmask := by
  have total := list.separated.totalSize_le list.inside
  have first := le_alignedHeap layout
  have last := heapEnd_le layout
  have small := layout.small
  omega

/-- What is taken for a request. -/
def takeBlock (xWantedSize : Nat) (free : List Span) : Option (Span × List Span) :=
  if wantedBlock xWantedSize = 0 then none
  else takeSpan (wantedBlock xWantedSize) heapMinimumBlockSize free

theorem Manages.pvPortMallocBlock_none (manages : Manages layout heap free) {xWantedSize : Nat}
    (takes : takeBlock xWantedSize free = none) :
    heap.pvPortMallocBlock layout xWantedSize = some (0, heap) := by
  unfold HeapState.pvPortMallocBlock
  rw [manages.list.initialised]
  dsimp only
  split
  next serves =>
    rw [takeBlock, if_neg (Nat.ne_of_gt serves.2.1), takeSpan_eq_none_iff] at takes
    obtain ⟨pxPreviousBlock, found⟩ := manages.list.fitLoop_none takes
    rw [found]
    simp only [Option.bind_eq_bind, Option.bind_some, ne_eq, not_true_eq_false, if_false]
  next => rfl

theorem Manages.pvPortMallocBlock_some (manages : Manages layout heap free) {xWantedSize : Nat}
    {taken : Span} {left : List Span} (takes : takeBlock xWantedSize free = some (taken, left)) :
    ∃ after, heap.pvPortMallocBlock layout xWantedSize =
        some (taken.start + xHeapStructSize, after) ∧
      Manages layout after left ∧
      after.memory taken.start = ⟨0, taken.size ||| heapBlockAllocatedBitmask⟩ ∧
      after.xMinimumEverFreeBytesRemaining =
        min (totalSize left) heap.xMinimumEverFreeBytesRemaining ∧
      after.xNumberOfSuccessfulAllocations =
        (heap.xNumberOfSuccessfulAllocations + 1) % sizeValues ∧
      after.xNumberOfSuccessfulFrees = heap.xNumberOfSuccessfulFrees ∧
      ∀ a, a ≠ layout.xStart → ¬ Covered free a → after.memory a = heap.memory a := by
  rw [takeBlock] at takes
  split at takes
  next => cases takes
  rename_i positive
  replace positive := Nat.pos_of_ne_zero positive
  have list := manages.list
  have total := totalSize_takeSpan takes
  have takenEnough := le_size_of_takeSpan takes
  have freeSmall := list.totalSize_lt
  have split := list.separated.takeSpan takes
  obtain ⟨front, whole, back, rfl, tooSmall, enough, cut⟩ := exists_of_takeSpan takes
  have isWhole : whole ∈ front ++ whole :: back := by simp
  have inside := list.inside whole isWhole
  have takenStart : taken.start = whole.start := by
    rcases cut with ⟨-, rfl, -⟩ | ⟨-, rfl, -⟩ <;> rfl
  obtain ⟨nodes, pxPreviousBlock, isLast⟩ := List.eq_nil_or_concat'
    (layout.xStart :: front.map Span.start) |>.resolve_left (List.cons_ne_nil _ _)
  have found := list.fitLoop_some tooSmall enough
  have last : (layout.xStart :: front.map Span.start).getLast (List.cons_ne_nil _ _) =
      pxPreviousBlock := by
    simp only [isLast, List.getLast_append_singleton]
  rw [last] at found
  have unlinked := list.unlink isLast
  obtain ⟨after, splits, isList, sameRest, size, frame⟩ := unlinked.2.1.split list.separated
    ((size_setNext ..).trans (list.sizes whole isWhole)) inside enough positive cut
  have valid : wantedBlock xWantedSize / heapBlockAllocatedBitmask % 2 = 0 := by
    rw [Nat.div_eq_of_lt]
    omega
  have notEnd : whole.start ≠ heap.pxEnd := by
    have wholePositive := list.separated.positive whole isWhole
    rw [list.isEnd]
    rw [Span.stop] at inside
    omega
  have remaining : sizeSub after.xFreeBytesRemaining (after.size whole.start) =
      totalSize left := by
    have before : after.xFreeBytesRemaining = totalSize (front ++ whole :: back) :=
      sameRest.xFreeBytesRemaining.trans manages.xFreeBytesRemaining
    rw [size, before, sizeSub_eq (by omega) (freeSmall.trans (by decide))]
    omega
  have allocated : (after.allocate whole.start).memory = Function.update after.memory whole.start
      ⟨0, taken.size ||| heapBlockAllocatedBitmask⟩ := by
    rw [← size]
    unfold HeapState.allocate HeapState.setNext HeapState.setSize
    simp [HeapState.size]
  have notCovers := unlinked.2.1.not_covers list.separated inside
  have covers : whole.Covers whole.start :=
    ⟨Nat.le_refl _, Nat.lt_add_of_pos_right (positive.trans_le enough)⟩
  refine ⟨after.allocate whole.start, ?_, ⟨?_, ?_⟩, ?_, ?_, ?_, ?_, ?_⟩
  · unfold HeapState.pvPortMallocBlock
    rw [list.initialised]
    dsimp only
    rw [if_pos ⟨valid, positive, manages.xFreeBytesRemaining ▸ by omega⟩, found]
    simp only [Option.bind_eq_bind, Option.bind_some]
    rw [if_pos notEnd, splits, unlinked.1, takenStart]
    rfl
  · refine isList.congr rfl ?_ ?_ ?_ <;> rw [allocated]
    · refine Function.update_of_ne (fun same => notCovers.1 ?_) ..
      rw [same]
      exact covers
    · have isEnd : after.pxEnd = heap.pxEnd := sameRest.pxEnd
      rw [isEnd]
      exact Function.update_of_ne (Ne.symm notEnd) ..
    · intro other isOther
      refine Function.update_of_ne ?_ ..
      have apart := split.2 other isOther
      have takenPositive := positive.trans_le takenEnough
      have otherPositive := split.1.positive other isOther
      simp only [Span.Apart, Span.stop, takenStart] at apart
      omega
  · exact remaining
  · rw [takenStart, allocated, Function.update_self]
  · change (if _ < _ then _ else _) = _
    rw [remaining, sameRest.xMinimumEverFreeBytesRemaining]
    exact (min_def_lt _ _).symm
  · change (_ + 1) % sizeValues = _
    rw [sameRest.xNumberOfSuccessfulAllocations]
    rfl
  · exact sameRest.xNumberOfSuccessfulFrees
  · intro a notStart notCovered
    have notWhole : a ≠ whole.start := by
      rintro rfl
      exact notCovered ⟨whole, isWhole, covers⟩
    rw [allocated, Function.update_of_ne notWhole, frame a notStart notCovered]
    refine memory_ext ?_ (size_setNext ..)
    rw [next_setNext, if_neg]
    rintro rfl
    rcases List.mem_cons.mp unlinked.2.2 with same | isNode
    · exact notStart same
    · rcases List.mem_map.mp isNode with ⟨other, isOther, same⟩
      have isFree := List.mem_append_left (whole :: back) isOther
      exact notCovered ⟨other, isFree, same ▸ ⟨Nat.le_refl _,
        Nat.lt_add_of_pos_right (list.separated.positive other isFree)⟩⟩

theorem pvPortMalloc_of_block {xWantedSize pvReturn : Nat} {after : HeapState}
    (found : heap.pvPortMallocBlock layout xWantedSize = some (pvReturn, after))
    (notNull : pvReturn ≠ 0) :
    heap.pvPortMalloc layout xWantedSize = some (pvReturn, after) := by
  unfold HeapState.pvPortMalloc
  rw [found]
  exact if_neg notNull

/-- The hook is called for the requests that nothing can be taken for. -/
theorem Manages.callsHook_iff (manages : Manages layout heap free) (xWantedSize : Nat) :
    heap.CallsHook layout xWantedSize ↔ takeBlock xWantedSize free = none := by
  unfold HeapState.CallsHook
  cases takes : takeBlock xWantedSize free with
  | none =>
      rw [manages.pvPortMallocBlock_none takes]
      exact iff_of_true rfl rfl
  | some both =>
      obtain ⟨taken, left⟩ := both
      obtain ⟨after, found, -⟩ := manages.pvPortMallocBlock_some takes
      rw [found]
      refine iff_of_false (fun isNull => ?_) nofun
      exact Nat.ne_of_gt (Nat.add_pos_right _ (by decide)) (Option.some.inj isNull)

/-- The mark of an allocated block is added to its size. -/
theorem or_bitmask {size : Nat} (small : size < 2 ^ 31) :
    size ||| heapBlockAllocatedBitmask = 2 ^ 31 + size := by
  rw [Nat.or_comm]
  exact (Nat.two_pow_add_eq_or_of_lt small 1).symm

/-- `vPortFree` gives the span of a block back to the list. -/
theorem Manages.vPortFree (manages : Manages layout heap free) {span : Span}
    (header : heap.memory span.start = ⟨0, span.size ||| heapBlockAllocatedBitmask⟩)
    (positive : 0 < span.size)
    (inside : alignedHeap layout ≤ span.start ∧ span.stop ≤ heapEnd layout)
    (apart : ∀ other ∈ free, span.Apart other) :
    ∃ after, heap.vPortFree layout (span.start + xHeapStructSize) = some after ∧
      Manages layout after (insertSpan span free) ∧
      after.xMinimumEverFreeBytesRemaining = heap.xMinimumEverFreeBytesRemaining ∧
      after.xNumberOfSuccessfulAllocations = heap.xNumberOfSuccessfulAllocations ∧
      after.xNumberOfSuccessfulFrees = (heap.xNumberOfSuccessfulFrees + 1) % sizeValues ∧
      ∀ a, a ≠ layout.xStart → a ≠ span.start → ¬ Covered free a →
        after.memory a = heap.memory a := by
  have list := manages.list
  have small := size_lt layout inside.1 inside.2
  have size : heap.size span.start = 2 ^ 31 + span.size := by
    rw [HeapState.size, header, ← or_bitmask small]
  have isAllocated : (heap.memory span.start).IsAllocated := by
    unfold BlockLink.IsAllocated
    change heap.size span.start / _ % 2 = 1
    rw [size]
    simp only [heapBlockAllocatedBitmask]
    omega
  have noNext : heap.next span.start = 0 := by
    rw [HeapState.next, header]
  have unmarked : heap.size span.start % heapBlockAllocatedBitmask = span.size := by
    rw [size]
    simp only [heapBlockAllocatedBitmask]
    omega
  have notStart := xStart_ne layout inside.1 ((Nat.le_add_right _ _).trans inside.2)
  obtain ⟨marks, isMarks⟩ : ∃ marks : HeapState, marks =
      { heap.setSize span.start span.size with
        xFreeBytesRemaining := (heap.xFreeBytesRemaining + span.size) % sizeValues } := ⟨_, rfl⟩
  have memory : ∀ a ≠ span.start, marks.memory a = heap.memory a := by
    intro a differs
    rw [isMarks]
    exact Function.update_of_ne differs ..
  have sizeMarks : marks.size span.start = span.size := by
    rw [isMarks]
    exact (size_setSize ..).trans (if_pos rfl)
  have notEnd : heap.pxEnd ≠ span.start := by
    rw [list.isEnd]
    rw [Span.stop] at inside
    omega
  have isList : FreeList layout marks free := by
    refine list.congr (by rw [isMarks]; rfl) (memory _ notStart.symm) (memory _ notEnd)
      fun other isOther => memory _ ?_
    have otherPositive := list.separated.positive other isOther
    have beside := apart other isOther
    simp only [Span.Apart, Span.stop] at beside
    omega
  obtain ⟨after, inserts, isListAfter, sameRest, frame⟩ :=
    isList.insert sizeMarks positive inside apart
  refine ⟨{ after with
      xNumberOfSuccessfulFrees := (after.xNumberOfSuccessfulFrees + 1) % sizeValues },
    ?_, ⟨?_, ?_⟩, ?_, ?_, ?_, ?_⟩
  · unfold HeapState.vPortFree
    have sizeSet : (heap.setSize span.start span.size).size span.start = span.size :=
      (size_setSize ..).trans (if_pos rfl)
    rw [if_pos (Nat.ne_of_gt (Nat.add_pos_right _ (by decide)))]
    dsimp only
    rw [Nat.add_sub_cancel, if_pos ⟨isAllocated, noNext⟩, unmarked, sizeSet]
    change (HeapState.prvInsertBlockIntoFreeList { heap.setSize span.start span.size with
      xFreeBytesRemaining := _ } layout span.start).bind _ = _
    rw [isMarks] at inserts
    rw [show (heap.setSize span.start span.size).xFreeBytesRemaining =
      heap.xFreeBytesRemaining from rfl, inserts]
    rfl
  · exact isListAfter.congr rfl rfl rfl fun other _ => rfl
  · have total := isListAfter.totalSize_lt
    rw [totalSize_insertSpan] at total
    change after.xFreeBytesRemaining = _
    rw [sameRest.xFreeBytesRemaining, isMarks, totalSize_insertSpan]
    change (heap.xFreeBytesRemaining + span.size) % sizeValues = _
    rw [manages.xFreeBytesRemaining, Nat.mod_eq_of_lt, Nat.add_comm]
    rw [Nat.add_comm]
    exact total.trans (by decide)
  · exact sameRest.xMinimumEverFreeBytesRemaining.trans (by rw [isMarks]; rfl)
  · exact sameRest.xNumberOfSuccessfulAllocations.trans (by rw [isMarks]; rfl)
  · change (_ + 1) % sizeValues = _
    rw [sameRest.xNumberOfSuccessfulFrees, isMarks]
    rfl
  · intro a isNotStart notSpan notCovered
    refine (frame a isNotStart notSpan fun other isOther => ?_).trans (memory a notSpan)
    rintro rfl
    exact notCovered ⟨other, isOther, Nat.le_refl _,
      Nat.lt_add_of_pos_right (list.separated.positive other isOther)⟩

end HeapState

end SunWise.Heap
