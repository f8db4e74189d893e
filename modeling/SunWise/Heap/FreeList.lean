import Mathlib.Data.List.Chain
import SunWise.Heap.Blocks
import SunWise.Library.Spans

/-!
# The list of free blocks

The linked list of the heap represents separated spans.  Inserting a block gives its span
back to them, and taking one that is large enough splits it.
-/

namespace SunWise.Heap

open Library

namespace HeapState

variable {heap other : HeapState} {layout : HeapLayout}

@[simp] theorem next_setNext (pxBlock pxNext a : Nat) :
    (heap.setNext pxBlock pxNext).next a = if a = pxBlock then pxNext else heap.next a := by
  unfold next setNext
  by_cases same : a = pxBlock <;> simp [same]

@[simp] theorem next_setSize (pxBlock xBlockSize a : Nat) :
    (heap.setSize pxBlock xBlockSize).next a = heap.next a := by
  unfold next setSize
  by_cases same : a = pxBlock <;> simp [same]

@[simp] theorem size_setNext (pxBlock pxNext a : Nat) :
    (heap.setNext pxBlock pxNext).size a = heap.size a := by
  unfold size setNext
  by_cases same : a = pxBlock <;> simp [same]

@[simp] theorem size_setSize (pxBlock xBlockSize a : Nat) :
    (heap.setSize pxBlock xBlockSize).size a = if a = pxBlock then xBlockSize else heap.size a := by
  unfold size setSize
  by_cases same : a = pxBlock <;> simp [same]

/-- Everything but the headers is the same. -/
structure SameRest (heap other : HeapState) : Prop where
  pxEnd : other.pxEnd = heap.pxEnd
  xFreeBytesRemaining : other.xFreeBytesRemaining = heap.xFreeBytesRemaining
  xMinimumEverFreeBytesRemaining :
    other.xMinimumEverFreeBytesRemaining = heap.xMinimumEverFreeBytesRemaining
  xNumberOfSuccessfulAllocations :
    other.xNumberOfSuccessfulAllocations = heap.xNumberOfSuccessfulAllocations
  xNumberOfSuccessfulFrees : other.xNumberOfSuccessfulFrees = heap.xNumberOfSuccessfulFrees

theorem SameRest.refl (heap : HeapState) : heap.SameRest heap :=
  ⟨rfl, rfl, rfl, rfl, rfl⟩

theorem SameRest.trans {middle : HeapState} (first : heap.SameRest middle)
    (second : middle.SameRest other) : heap.SameRest other :=
  ⟨second.1.trans first.1, second.2.trans first.2, second.3.trans first.3,
    second.4.trans first.4, second.5.trans first.5⟩

theorem sameRest_setNext (pxBlock pxNext : Nat) :
    heap.SameRest (heap.setNext pxBlock pxNext) :=
  ⟨rfl, rfl, rfl, rfl, rfl⟩

theorem sameRest_setSize (pxBlock xBlockSize : Nat) :
    heap.SameRest (heap.setSize pxBlock xBlockSize) :=
  ⟨rfl, rfl, rfl, rfl, rfl⟩

theorem memory_ext {a : Nat} (next : other.next a = heap.next a)
    (size : other.size a = heap.size a) : other.memory a = heap.memory a := by
  unfold HeapState.next HeapState.size at *
  cases first : other.memory a
  cases second : heap.memory a
  rw [first, second] at next size
  rw [BlockLink.mk.injEq]
  exact ⟨next, size⟩

/-- Each node links to the one behind it. -/
def Linked (heap : HeapState) (nodes : List Nat) : Prop :=
  nodes.IsChain fun node behind => heap.next node = behind

theorem Linked.congr {front : List Nat} {last : Nat} (linked : heap.Linked (front ++ [last]))
    (same : ∀ node ∈ front, other.next node = heap.next node) :
    other.Linked (front ++ [last]) := by
  induction front with
  | nil => exact List.isChain_singleton last
  | cons node front ih =>
      rw [List.forall_mem_cons] at same
      cases front with
      | nil =>
          rw [Linked, List.cons_append, List.nil_append, List.isChain_pair] at linked ⊢
          exact same.1.trans linked
      | cons behind front =>
          simp only [Linked, List.cons_append, List.isChain_cons_cons] at linked ih ⊢
          exact ⟨same.1.trans linked.1, ih linked.2 same.2⟩

theorem linked_append {front back : List Nat} {node : Nat} :
    heap.Linked (front ++ node :: back) ↔
      heap.Linked (front ++ [node]) ∧ heap.Linked (node :: back) :=
  List.isChain_split

theorem linked_cons_cons {node behind : Nat} {back : List Nat} :
    heap.Linked (node :: behind :: back) ↔
      heap.next node = behind ∧ heap.Linked (behind :: back) :=
  List.isChain_cons_cons

/-- The list of free blocks: where it leads, and the spans on the way. -/
structure FreeList (layout : HeapLayout) (heap : HeapState) (free : List Span) : Prop where
  linked : heap.Linked (layout.xStart :: free.map Span.start ++ [heap.pxEnd])
  sizes : ∀ span ∈ free, heap.size span.start = span.size
  startSize : heap.size layout.xStart = 0
  endNext : heap.next heap.pxEnd = 0
  endSize : heap.size heap.pxEnd = 0
  isEnd : heap.pxEnd = heapEnd layout
  separated : Separated free
  inside : ∀ span ∈ free, alignedHeap layout ≤ span.start ∧ span.stop ≤ heapEnd layout

theorem le_alignedHeap (layout : HeapLayout) : layout.ucHeap ≤ alignedHeap layout := by
  unfold alignedHeap
  split <;> simp only [alignDown, portByteAlignment] at * <;> omega

theorem alignedHeap_lt (layout : HeapLayout) : alignedHeap layout < layout.ucHeap + 8 := by
  unfold alignedHeap
  split <;> simp only [alignDown, portByteAlignment] at * <;> omega

theorem heapEnd_le (layout : HeapLayout) :
    heapEnd layout + 8 ≤ layout.ucHeap + layout.configTotalHeapSize := by
  have room := layout.room
  unfold heapEnd alignDown
  simp only [portByteAlignment, xHeapStructSize]
  omega

theorem lt_heapEnd (layout : HeapLayout) :
    layout.ucHeap + layout.configTotalHeapSize < heapEnd layout + 16 := by
  have room := layout.room
  unfold heapEnd alignDown
  simp only [portByteAlignment, xHeapStructSize]
  omega

theorem alignedHeap_mod (layout : HeapLayout) : alignedHeap layout % 8 = 0 := by
  unfold alignedHeap
  split <;> simp only [alignDown, portByteAlignment] at * <;> omega

theorem heapEnd_mod (layout : HeapLayout) : heapEnd layout % 8 = 0 := by
  unfold heapEnd alignDown
  simp only [portByteAlignment, xHeapStructSize]
  omega

theorem xStart_ne (layout : HeapLayout) {a : Nat} (after : alignedHeap layout ≤ a)
    (before : a ≤ heapEnd layout) : a ≠ layout.xStart := by
  have first := le_alignedHeap layout
  have last := heapEnd_le layout
  rcases layout.elsewhere with below | above
  · simp only [xHeapStructSize] at below
    omega
  · omega

/-- Spans of the heap are shorter than the bit that marks allocated blocks. -/
theorem size_lt (layout : HeapLayout) {span : Span} (after : alignedHeap layout ≤ span.start)
    (before : span.stop ≤ heapEnd layout) : span.size < 2 ^ 31 := by
  have first := le_alignedHeap layout
  have last := heapEnd_le layout
  have small := layout.small
  simp only [heapBlockAllocatedBitmask] at small
  rw [Span.stop] at before
  omega

/-! ## Inserting -/

/-- The loop stops at the last node in front of the block. -/
theorem insertLoop_eq {block node behind : Nat} {front back : List Nat}
    (linked : heap.Linked (node :: front ++ behind :: back)) (before : ∀ a ∈ front, a < block)
    (after : block ≤ behind) {turns : Nat} (enough : front.length < turns) :
    heap.insertLoop block turns node =
      some ((node :: front).getLast (List.cons_ne_nil node front)) := by
  induction front generalizing node turns with
  | nil =>
      obtain ⟨turns, rfl⟩ := Nat.exists_eq_succ_of_ne_zero (Nat.ne_of_gt enough)
      rw [List.cons_append, List.nil_append, linked_cons_cons] at linked
      rw [insertLoop, linked.1, if_neg (Nat.not_lt.mpr after)]
      rfl
  | cons first front ih =>
      obtain ⟨turns, rfl⟩ := Nat.exists_eq_succ_of_ne_zero (Nat.ne_zero_of_lt enough)
      rw [List.forall_mem_cons] at before
      rw [List.cons_append, List.cons_append, linked_cons_cons] at linked
      rw [insertLoop, linked.1, if_pos before.1,
        ih linked.2 before.2 (Nat.lt_of_succ_lt_succ enough)]
      rfl

/-- The node that a list of spans leads to. -/
def headOr (spans : List Span) (pxEnd : Nat) : Nat :=
  match spans with
  | [] => pxEnd
  | span :: _ => span.start

theorem map_start_append (spans : List Span) (pxEnd : Nat) :
    ∃ back, spans.map Span.start ++ [pxEnd] = headOr spans pxEnd :: back := by
  cases spans with
  | nil => exact ⟨[], rfl⟩
  | cons span spans => exact ⟨spans.map Span.start ++ [pxEnd], rfl⟩

theorem nodes_concat (layout : HeapLayout) (front : List Span) (span : Span) :
    layout.xStart :: (front ++ [span]).map Span.start =
      (layout.xStart :: front.map Span.start) ++ [span.start] := by
  rw [List.map_append]
  rfl

/-- What is done to the header of a block in front of free ones. -/
structure Joined (heap other : HeapState) (span : Span) (back : List Span) : Prop where
  rest : heap.SameRest other
  size : other.size span.start = span.size
  next : other.next span.start = headOr back heap.pxEnd
  memory : ∀ a ≠ span.start, other.memory a = heap.memory a

/-- A block takes in the one behind it as its span takes in the next one. -/
theorem joinNext_joined {span : Span} {back : List Span} {pxIterator : Nat}
    (size : heap.size span.start = span.size) (next : heap.next pxIterator = headOr back heap.pxEnd)
    (sizes : ∀ other ∈ back, heap.size other.start = other.size)
    (linked : heap.Linked (back.map Span.start ++ [heap.pxEnd]))
    (behind : ∀ other ∈ back, span.stop ≤ other.start ∧ other.start ≠ heap.pxEnd ∧
      0 < other.size ∧ span.size + other.size < sizeValues)
    (positive : 0 < span.size) :
    ∃ whole rest, Library.joinNext span back = whole :: rest ∧ whole.start = span.start ∧
      rest <:+ back ∧ heap.Joined (heap.joinNext pxIterator span.start) whole rest := by
  have noTouch (pxNext : Nat) : heap.Joined (heap.setNext span.start pxNext) span back ↔
      pxNext = headOr back heap.pxEnd := by
    constructor
    · intro joined
      simpa using joined.next
    · rintro rfl
      refine ⟨sameRest_setNext .., ?_, ?_, fun a differs => memory_ext ?_ ?_⟩
      · rw [size_setNext, size]
      · rw [next_setNext, if_pos rfl]
      · rw [next_setNext, if_neg differs]
      · rw [size_setNext]
  unfold joinNext
  rw [size, next]
  cases back with
  | nil =>
      refine ⟨span, [], rfl, rfl, List.suffix_refl _, ?_⟩
      rw [headOr]
      simp only [ne_eq, not_true_eq_false, if_false]
      split
      next => exact (noTouch _).mpr rfl
      next => exact (noTouch _).mpr rfl
  | cons first rest =>
      rcases behind first List.mem_cons_self with ⟨after, notEnd, firstPositive, fits⟩
      rw [Library.joinNext, headOr]
      by_cases touches : span.stop = first.start
      · rw [if_pos touches]
        dsimp only
        rw [← Span.stop, if_pos touches, if_pos notEnd]
        refine ⟨_, rest, rfl, rfl, List.suffix_cons first rest, ?_⟩
        have differs : first.start ≠ span.start := by
          rw [Span.stop] at touches
          omega
        have nextFirst : heap.next first.start = headOr rest heap.pxEnd := by
          rcases map_start_append rest heap.pxEnd with ⟨back, isBack⟩
          rw [List.map_cons, List.cons_append, isBack, linked_cons_cons] at linked
          exact linked.1
        refine ⟨(sameRest_setSize ..).trans (sameRest_setNext ..), ?_, ?_, fun a differs =>
          memory_ext ?_ ?_⟩
        · rw [size_setNext, size_setSize, if_pos rfl, sizes first List.mem_cons_self,
            Nat.mod_eq_of_lt fits]
        · rw [next_setNext, if_pos rfl, next_setSize, nextFirst]
        · rw [next_setNext, if_neg differs, next_setSize]
        · rw [size_setNext, size_setSize, if_neg differs]
      · rw [if_neg touches]
        dsimp only
        rw [← Span.stop, if_neg touches]
        exact ⟨span, first :: rest, rfl, rfl, List.suffix_refl _, (noTouch _).mpr rfl⟩

/-- What an insertion may have changed: links and sizes of the nodes in front, and one block. -/
theorem FreeList.replace {free front rest : List Span} {whole : Span}
    (list : FreeList layout heap free) (sameRest : heap.SameRest other)
    (separated : Separated (front ++ whole :: rest))
    (isFront : ∀ span ∈ front, span ∈ free) (isRest : ∃ middle, free = middle ++ rest)
    (linked : other.Linked (layout.xStart :: front.map Span.start ++ [whole.start]))
    (next : other.next whole.start = headOr rest heap.pxEnd)
    (size : other.size whole.start = whole.size)
    (inside : alignedHeap layout ≤ whole.start ∧ whole.stop ≤ heapEnd layout)
    (sizes : ∀ span ∈ front, other.size span.start = heap.size span.start)
    (startSize : other.size layout.xStart = heap.size layout.xStart)
    (same : ∀ a, whole.start < a → a ≤ heapEnd layout → (∃ span ∈ rest, a = span.start) ∨
      a = heapEnd layout → other.memory a = heap.memory a) :
    FreeList layout other (front ++ whole :: rest) := by
  obtain ⟨middle, rfl⟩ := isRest
  have gaps := (separated_cons.mp (separated.sublist (List.sublist_append_right ..))).1.2
  have later : ∀ span ∈ rest, other.memory span.start = heap.memory span.start := by
    intro span isSpan
    have bounds := list.inside span (List.mem_append_right _ isSpan)
    have gap := gaps span isSpan
    rw [Span.stop] at gap bounds
    exact same _ (by omega) (by omega) (Or.inl ⟨span, isSpan, rfl⟩)
  have atEnd : other.memory heap.pxEnd = heap.memory heap.pxEnd := by
    have positive := separated.positive whole (by simp)
    rw [Span.stop] at inside
    rw [list.isEnd]
    exact same _ (by omega) (Nat.le_refl _) (Or.inr rfl)
  have linkedRest : other.Linked (rest.map Span.start ++ [heap.pxEnd]) := by
    have old : heap.Linked (rest.map Span.start ++ [heap.pxEnd]) := by
      refine List.IsChain.suffix list.linked
        ⟨layout.xStart :: middle.map Span.start, ?_⟩
      rw [List.map_append, List.cons_append, List.cons_append, List.append_assoc]
    refine old.congr fun node isNode => ?_
    rcases List.mem_map.mp isNode with ⟨span, isSpan, rfl⟩
    exact congrArg BlockLink.pxNextFreeBlock (later span isSpan)
  have isEnd : other.pxEnd = heap.pxEnd := sameRest.pxEnd
  constructor
  case linked =>
    rcases map_start_append rest heap.pxEnd with ⟨back, isBack⟩
    rw [isEnd, List.map_append, List.map_cons, List.cons_append, List.append_assoc,
      List.cons_append, isBack, ← List.cons_append, linked_append, linked_cons_cons, ← isBack]
    exact ⟨linked, next, linkedRest⟩
  case sizes =>
    intro span isSpan
    rcases List.mem_append.mp isSpan with isSpan | isSpan
    · rw [sizes span isSpan, list.sizes span (isFront span isSpan)]
    · rcases List.mem_cons.mp isSpan with rfl | isSpan
      · exact size
      · rw [← list.sizes span (List.mem_append_right _ isSpan)]
        exact congrArg BlockLink.xBlockSize (later span isSpan)
  case startSize => exact startSize.trans list.startSize
  case endNext =>
    rw [isEnd, ← list.endNext]
    exact congrArg BlockLink.pxNextFreeBlock atEnd
  case endSize =>
    rw [isEnd, ← list.endSize]
    exact congrArg BlockLink.xBlockSize atEnd
  case isEnd => exact isEnd.trans list.isEnd
  case separated => exact separated
  case inside =>
    intro span isSpan
    rcases List.mem_append.mp isSpan with isSpan | isSpan
    · exact list.inside span (isFront span isSpan)
    · rcases List.mem_cons.mp isSpan with rfl | isSpan
      · exact inside
      · exact list.inside span (List.mem_append_right _ isSpan)

theorem FreeList.length_lt {free : List Span} (list : FreeList layout heap free) :
    free.length < layout.configTotalHeapSize := by
  have fits := list.separated.length_le list.inside
  have first := le_alignedHeap layout
  have last := heapEnd_le layout
  have room := layout.room
  omega

theorem FreeList.linked_back {front back : List Span}
    (list : FreeList layout heap (front ++ back)) :
    heap.Linked (back.map Span.start ++ [heap.pxEnd]) := by
  refine List.IsChain.suffix list.linked ⟨layout.xStart :: front.map Span.start, ?_⟩
  rw [List.map_append, List.cons_append, List.cons_append, List.append_assoc]

theorem FreeList.linked_front {front back : List Span}
    (list : FreeList layout heap (front ++ back)) :
    heap.Linked (layout.xStart :: front.map Span.start) := by
  refine List.IsChain.prefix list.linked ⟨back.map Span.start ++ [heap.pxEnd], ?_⟩
  rw [List.map_append, List.cons_append, List.cons_append, List.append_assoc]

theorem FreeList.nodup {free : List Span} (list : FreeList layout heap free) :
    (layout.xStart :: free.map Span.start).Nodup := by
  rw [List.nodup_cons]
  constructor
  · intro isIn
    rcases List.mem_map.mp isIn with ⟨span, isSpan, start⟩
    have bounds := list.inside span isSpan
    exact xStart_ne layout bounds.1 ((Nat.le_add_right _ _).trans bounds.2) start
  · exact list.separated.gaps.map Span.start fun first second gap =>
      Nat.ne_of_lt (Nat.lt_of_le_of_lt (Nat.le_add_right _ _) gap)

theorem FreeList.next_last {front back : List Span} {nodes : List Nat} {last : Nat}
    (list : FreeList layout heap (front ++ back))
    (isLast : layout.xStart :: front.map Span.start = nodes ++ [last]) :
    heap.next last = headOr back heap.pxEnd := by
  rcases map_start_append back heap.pxEnd with ⟨tail, isTail⟩
  have linked := list.linked
  rw [List.map_append, ← List.cons_append, List.append_assoc, isTail, isLast, List.append_assoc,
    List.cons_append, List.nil_append, linked_append, linked_cons_cons] at linked
  exact linked.2.1

/-- What is behind a span of the heap can be joined with it. -/
theorem FreeList.behind {front back : List Span} {span : Span}
    (list : FreeList layout heap (front ++ back)) (after : alignedHeap layout ≤ span.start)
    (isBehind : ∀ other ∈ back, span.stop ≤ other.start) :
    ∀ other ∈ back, span.stop ≤ other.start ∧ other.start ≠ heap.pxEnd ∧ 0 < other.size ∧
      span.size + other.size < sizeValues := by
  intro other isOther
  have isIn := List.mem_append_right front isOther
  have positive := list.separated.positive other isIn
  have bounds := list.inside other isIn
  have both := @size_lt layout ⟨span.start, other.stop - span.start⟩ after
  have later := isBehind other isOther
  rw [Span.stop] at bounds later both
  simp only [Span.stop] at both
  refine ⟨later, ?_, positive, ?_⟩
  · rw [list.isEnd]
    omega
  · simp only [sizeValues]
    omega

theorem FreeList.mem_front {front back : List Span} {place node : Nat}
    (list : FreeList layout heap (front ++ back)) (before : ∀ span ∈ front, span.stop ≤ place)
    (isNode : node ∈ layout.xStart :: front.map Span.start) :
    node = layout.xStart ∨ node < place := by
  rcases List.mem_cons.mp isNode with rfl | isNode
  · exact Or.inl rfl
  · rcases List.mem_map.mp isNode with ⟨span, isSpan, rfl⟩
    have positive := list.separated.positive span (List.mem_append_left back isSpan)
    have bounds := before span isSpan
    rw [Span.stop] at bounds
    exact Or.inr (by omega)

/-- A span that does not touch the one in front of it gets a node of its own. -/
theorem FreeList.insert_apart {front back : List Span} {span : Span} {nodes : List Nat}
    {pxIterator : Nat} (list : FreeList layout heap (front ++ back))
    (isLast : layout.xStart :: front.map Span.start = nodes ++ [pxIterator])
    (size : heap.size span.start = span.size) (positive : 0 < span.size)
    (inside : alignedHeap layout ≤ span.start ∧ span.stop ≤ heapEnd layout)
    (before : ∀ other ∈ front, other.stop < span.start)
    (behind : ∀ other ∈ back, span.stop ≤ other.start) :
    let after := (heap.joinNext pxIterator span.start).setNext pxIterator span.start
    pxIterator ≠ span.start ∧ FreeList layout after (insertSpan span (front ++ back)) ∧
      heap.SameRest after ∧
      ∀ a, a ≠ pxIterator → a ≠ span.start → after.memory a = heap.memory a := by
  intro after
  obtain ⟨whole, rest, isWhole, start, isRest, joined⟩ := joinNext_joined size
    (list.next_last isLast)
    (fun other isOther => list.sizes other (List.mem_append_right front isOther))
    list.linked_back (list.behind inside.1 behind) positive
  have isInserted : insertSpan span (front ++ back) = front ++ whole :: rest := by
    rw [insertSpan_append before, isWhole]
    exact fun other isOther => (Nat.le_add_right _ _).trans (behind other isOther)
  have separated := list.separated.insertSpan positive
    (List.forall_mem_append.mpr ⟨fun other isOther => Or.inr (before other isOther).le,
      fun other isOther => Or.inl (behind other isOther)⟩)
  have allInside := separated.inside_insertSpan list.inside inside
  rw [isInserted] at separated allInside
  have notStart : span.start ≠ layout.xStart :=
    xStart_ne layout inside.1 ((Nat.le_add_right _ _).trans inside.2)
  have isFront : ∀ node ∈ nodes ++ [pxIterator], node = layout.xStart ∨ node < span.start :=
    fun node isNode => list.mem_front (fun other isOther => (before other isOther).le)
      (isLast ▸ isNode)
  have iterator := isFront pxIterator (List.mem_append_right _ List.mem_cons_self)
  have differs : ∀ node, node = layout.xStart ∨ node < span.start → node ≠ span.start := by
    rintro node (rfl | less)
    · exact notStart.symm
    · exact Nat.ne_of_lt less
  have memory : ∀ a, a ≠ pxIterator → a ≠ span.start → after.memory a = heap.memory a := by
    intro a notIterator notSpan
    rw [← joined.memory a (start ▸ notSpan)]
    exact memory_ext (by rw [next_setNext, if_neg notIterator]) (size_setNext ..)
  have sizes : ∀ a, a ≠ span.start → after.size a = heap.size a := by
    intro a notSpan
    rw [size_setNext]
    exact congrArg BlockLink.xBlockSize (joined.memory a (start ▸ notSpan))
  have sameRest := joined.rest.trans (sameRest_setNext pxIterator span.start)
  refine ⟨differs _ iterator, ?_, sameRest, memory⟩
  rw [isInserted]
  apply list.replace sameRest separated (fun other isOther => List.mem_append_left _ isOther)
  case isRest =>
    rcases isRest with ⟨middle, rfl⟩
    exact ⟨front ++ middle, (List.append_assoc ..).symm⟩
  case linked =>
    rw [isLast, List.append_assoc, List.cons_append, List.nil_append, linked_append,
      linked_cons_cons]
    refine ⟨?_, ?_, List.isChain_singleton _⟩
    · have old := list.linked_front
      rw [isLast] at old
      refine old.congr fun node isNode => ?_
      have notIterator : node ≠ pxIterator := by
        have nodup := list.nodup
        rw [List.map_append, ← List.cons_append, isLast] at nodup
        rintro rfl
        have front := (List.nodup_append.mp nodup).1
        exact (List.nodup_append.mp front).2.2 node isNode node List.mem_cons_self rfl
      have notSpan := differs node (isFront node (List.mem_append_left _ isNode))
      exact congrArg BlockLink.pxNextFreeBlock (memory node notIterator notSpan)
    · rw [next_setNext, if_pos rfl, start]
  case next =>
    have next := joined.next
    rw [start] at next ⊢
    rw [next_setNext, if_neg (differs _ iterator).symm, next]
  case size =>
    rw [size_setNext]
    exact joined.size
  case inside => exact allInside whole (by simp)
  case sizes =>
    intro other isOther
    have bound := before other isOther
    rw [Span.stop] at bound
    exact sizes other.start (by omega)
  case startSize => exact sizes _ notStart.symm
  case same =>
    intro a above isBelow isNode
    refine memory a ?_ (Nat.ne_of_gt (start ▸ above))
    rcases iterator with rfl | less
    · exact xStart_ne layout (inside.1.trans (start ▸ above).le) isBelow
    · exact Nat.ne_of_gt (less.trans (start ▸ above))

/-- A span that touches the one in front of it becomes a part of it. -/
theorem FreeList.insert_touching {front back : List Span} {span previous : Span}
    (list : FreeList layout heap (front ++ previous :: back)) (positive : 0 < span.size)
    (inside : alignedHeap layout ≤ span.start ∧ span.stop ≤ heapEnd layout)
    (touches : previous.stop = span.start)
    (behind : ∀ other ∈ back, span.stop ≤ other.start) :
    let joined := heap.setSize previous.start ((previous.size + span.size) % sizeValues)
    let after := joined.joinNext previous.start previous.start
    FreeList layout after (insertSpan span (front ++ previous :: back)) ∧ heap.SameRest after ∧
      ∀ a, a ≠ previous.start → after.memory a = heap.memory a := by
  intro joined after
  have isPrevious : previous ∈ front ++ previous :: back := by simp
  have previousPositive := list.separated.positive previous isPrevious
  have previousInside := list.inside previous isPrevious
  have gaps := (List.pairwise_append.mp list.separated.gaps)
  have backGaps := (List.pairwise_cons.mp gaps.2.1).1
  obtain ⟨taken, isTaken⟩ : ∃ taken : Span,
      taken = ⟨previous.start, previous.size + span.size⟩ := ⟨_, rfl⟩
  have takenStart : taken.start = previous.start := by rw [isTaken]
  have takenSize : taken.size = previous.size + span.size := by rw [isTaken]
  have takenStop : taken.stop = span.stop := by
    rw [Span.stop] at touches
    rw [isTaken, Span.stop, Span.stop]
    dsimp only
    omega
  have small := size_lt layout (takenStart ▸ previousInside.1) (takenStop ▸ inside.2)
  have list' : FreeList layout heap ((front ++ [previous]) ++ back) := by
    rw [List.append_assoc]
    exact list
  have isLast := nodes_concat layout front previous
  have others : ∀ other ∈ back, other.start ≠ previous.start := by
    intro other isOther
    have gap := backGaps other isOther
    rw [Span.stop] at gap
    omega
  have next : joined.next taken.start = headOr back joined.pxEnd := by
    rw [takenStart, next_setSize]
    exact list'.next_last isLast
  have linked : joined.Linked (back.map Span.start ++ [joined.pxEnd]) :=
    list'.linked_back.congr fun node _ => next_setSize ..
  have size : joined.size taken.start = taken.size := by
    rw [takenStart, size_setSize, if_pos rfl, takenSize, Nat.mod_eq_of_lt]
    rw [takenSize] at small
    exact small.trans (by decide)
  obtain ⟨whole, rest, isWhole, start, isRest, isJoined⟩ := joinNext_joined size next
    (fun other isOther => by
      rw [size_setSize, if_neg (others other isOther)]
      exact list'.sizes other (List.mem_append_right _ isOther))
    linked
    (list'.behind (takenStart ▸ previousInside.1) (fun other isOther => by
      rw [takenStop]
      exact behind other isOther))
    (takenSize ▸ Nat.add_pos_left previousPositive _)
  rw [takenStart] at start isJoined
  have before : ∀ other ∈ front, other.stop < span.start := by
    intro other isOther
    have gap := gaps.2.2 other isOther previous List.mem_cons_self
    rw [Span.stop] at touches
    omega
  have isInserted : insertSpan span (front ++ previous :: back) = front ++ whole :: rest := by
    rw [insertSpan_append_cons before previousPositive touches, ← isTaken, isWhole]
  have separated := list.separated.insertSpan positive <| by
    refine List.forall_mem_append.mpr ⟨fun other isOther => Or.inr (before other isOther).le, ?_⟩
    exact List.forall_mem_cons.mpr ⟨Or.inr touches.le,
      fun other isOther => Or.inl (behind other isOther)⟩
  have allInside := separated.inside_insertSpan list.inside inside
  rw [isInserted] at separated allInside
  have memory : ∀ a, a ≠ previous.start → after.memory a = heap.memory a := by
    intro a notPrevious
    rw [isJoined.memory a (start ▸ notPrevious)]
    exact memory_ext (next_setSize ..) (by rw [size_setSize, if_neg notPrevious])
  have sameRest := (sameRest_setSize previous.start _).trans isJoined.rest
  refine ⟨?_, sameRest, memory⟩
  have old := list'.linked_front
  rw [isLast] at old
  rw [isInserted]
  apply list.replace sameRest separated (fun other isOther => List.mem_append_left _ isOther)
  case isRest =>
    rcases isRest with ⟨middle, rfl⟩
    exact ⟨front ++ previous :: middle, by rw [List.append_assoc, List.cons_append]⟩
  case linked =>
    rw [start]
    refine old.congr fun node isNode => congrArg BlockLink.pxNextFreeBlock (memory node ?_)
    have nodup := list'.nodup
    rw [List.map_append, ← List.cons_append, isLast] at nodup
    have isFront := (List.nodup_append.mp nodup).1
    exact (List.nodup_append.mp isFront).2.2 node isNode previous.start List.mem_cons_self
  case next => exact isJoined.next
  case size => exact isJoined.size
  case inside => exact allInside whole (by simp)
  case sizes =>
    intro other isOther
    have gap := gaps.2.2 other isOther previous List.mem_cons_self
    rw [Span.stop] at gap
    exact congrArg BlockLink.xBlockSize (memory other.start (by omega))
  case startSize =>
    refine congrArg BlockLink.xBlockSize (memory _ (Ne.symm ?_))
    exact xStart_ne layout previousInside.1 ((Nat.le_add_right _ _).trans previousInside.2)
  case same =>
    intro a above _ _
    exact memory a (Nat.ne_of_gt (start ▸ above))

/-- Inserting a block gives its span back. -/
theorem FreeList.insert {free : List Span} {span : Span} (list : FreeList layout heap free)
    (size : heap.size span.start = span.size) (positive : 0 < span.size)
    (inside : alignedHeap layout ≤ span.start ∧ span.stop ≤ heapEnd layout)
    (apart : ∀ other ∈ free, span.Apart other) :
    ∃ after, heap.prvInsertBlockIntoFreeList layout span.start = some after ∧
      FreeList layout after (insertSpan span free) ∧ heap.SameRest after ∧
      ∀ a, a ≠ layout.xStart → a ≠ span.start → (∀ other ∈ free, a ≠ other.start) →
        after.memory a = heap.memory a := by
  obtain ⟨front, back, rfl, before, behind⟩ := list.separated.exists_place apart
  rcases map_start_append back heap.pxEnd with ⟨tail, isTail⟩
  have linked := list.linked
  rw [List.map_append, List.cons_append, List.append_assoc, isTail] at linked
  have frontBefore : ∀ a ∈ front.map Span.start, a < span.start := by
    intro a isIn
    rcases List.mem_map.mp isIn with ⟨other, isOther, rfl⟩
    have otherPositive := list.separated.positive other (List.mem_append_left _ isOther)
    have bound := before other isOther
    rw [Span.stop] at bound
    omega
  have headBehind : span.start ≤ headOr back heap.pxEnd := by
    cases back with
    | nil =>
        rw [headOr, list.isEnd]
        exact (Nat.le_add_right _ _).trans inside.2
    | cons next rest => exact (Nat.le_add_right _ _).trans (behind next List.mem_cons_self)
  have enough : (front.map Span.start).length < layout.configTotalHeapSize := by
    have short := list.length_lt
    rw [List.length_append] at short
    rw [List.length_map]
    omega
  have found := insertLoop_eq linked frontBefore headBehind enough
  rw [prvInsertBlockIntoFreeList, found]
  rcases List.eq_nil_or_concat' front with rfl | ⟨front, previous, rfl⟩
  · -- the first block of the list
    have noTouch : layout.xStart + heap.size layout.xStart ≠ span.start := by
      rw [list.startSize]
      exact (xStart_ne layout inside.1 ((Nat.le_add_right _ _).trans inside.2)).symm
    have isLast : layout.xStart :: ([] : List Span).map Span.start = [] ++ [layout.xStart] := rfl
    rcases list.insert_apart isLast size positive inside (List.forall_mem_nil _) behind with
      ⟨differs, isList, sameRest, memory⟩
    refine ⟨_, ?_, isList, sameRest, fun a notStart notSpan _ => memory a notStart notSpan⟩
    simp only [List.map_nil, List.getLast_singleton, Option.bind_eq_bind, Option.bind_some,
      joinPrevious, if_neg noTouch, if_pos differs]
  · have isLast := nodes_concat layout front previous
    have isPrevious : previous ∈ front ++ [previous] := by simp
    have previousSize := list.sizes previous (List.mem_append_left back isPrevious)
    have iterator : (layout.xStart :: (front ++ [previous]).map Span.start).getLast
        (List.cons_ne_nil _ _) = previous.start := by
      simp only [isLast, List.getLast_append_singleton]
    rw [iterator]
    by_cases touches : previous.stop = span.start
    · have list' : FreeList layout heap (front ++ previous :: back) := by
        rw [List.append_assoc] at list
        exact list
      rcases list'.insert_touching positive inside touches behind with
        ⟨isList, sameRest, memory⟩
      have reaches : previous.start + previous.size = span.start := touches
      refine ⟨_, ?_, ?_, sameRest, fun a _ _ notFree => memory a (notFree previous ?_)⟩
      · simp only [Option.bind_eq_bind, Option.bind_some, joinPrevious, if_pos reaches, ne_eq,
          not_true_eq_false, if_false, previousSize, size]
      · rw [List.append_assoc]
        exact isList
      · exact List.mem_append_left _ isPrevious
    · have strictly : ∀ other ∈ front ++ [previous], other.stop < span.start := by
        intro other isOther
        rcases List.mem_append.mp isOther with isFront | isOther
        · have gap := (List.pairwise_append.mp (List.pairwise_append.mp
            list.separated.gaps).1).2.2 other isFront previous List.mem_cons_self
          have bound := before previous isPrevious
          rw [Span.stop] at bound
          omega
        · rw [List.mem_singleton.mp isOther]
          exact Nat.lt_of_le_of_ne (before previous isPrevious) touches
      rcases list.insert_apart isLast size positive inside strictly behind with
        ⟨differs, isList, sameRest, memory⟩
      have noTouch : previous.start + heap.size previous.start ≠ span.start := by
        rw [previousSize]
        exact touches
      refine ⟨_, ?_, isList, sameRest, fun a _ notSpan notFree => memory a
        (notFree previous (List.mem_append_left _ isPrevious)) notSpan⟩
      simp only [Option.bind_eq_bind, Option.bind_some, joinPrevious, if_neg noTouch,
        if_pos differs]

end HeapState

end SunWise.Heap
