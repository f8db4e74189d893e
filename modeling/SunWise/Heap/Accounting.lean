import Mathlib.Algebra.Order.BigOperators.Group.List
import Mathlib.Algebra.Order.Group.Nat
import SunWise.Heap.Clients

/-!
# What the heap reports

`vPortGetHeapStats` goes through the free blocks.  After every run its figures account for
the whole heap, and they tell which requests can be served.
-/

namespace SunWise.Heap

open Library

namespace HeapState

variable {heap : HeapState} {layout : HeapLayout} {free : List Span}

/-- The loop counts every node in front of the last one. -/
theorem countLoop_eq {nodes : List Nat} {pxBlock : Nat}
    (linked : heap.Linked (nodes ++ [heap.pxEnd])) (notEnd : ∀ a ∈ nodes, a ≠ heap.pxEnd)
    (isHead : (nodes ++ [heap.pxEnd]).head? = some pxBlock) (counted : BlockCount) {turns : Nat}
    (enough : nodes.length < turns) :
    heap.countLoop turns pxBlock counted =
      some (nodes.foldl (fun counted a => counted.count (heap.size a)) counted) := by
  induction nodes generalizing pxBlock counted turns with
  | nil =>
      obtain ⟨turns, rfl⟩ := Nat.exists_eq_succ_of_ne_zero (Nat.ne_of_gt enough)
      cases isHead
      rw [countLoop, if_neg (not_not.mpr rfl)]
      rfl
  | cons node nodes ih =>
      obtain ⟨turns, rfl⟩ := Nat.exists_eq_succ_of_ne_zero (Nat.ne_zero_of_lt enough)
      cases isHead
      rw [List.forall_mem_cons] at notEnd
      rw [countLoop, if_pos notEnd.1]
      have fewer := Nat.lt_of_succ_lt_succ enough
      cases nodes with
      | nil =>
          rw [List.cons_append, List.nil_append, linked_cons_cons] at linked
          exact ih linked.2 notEnd.2 (congrArg some linked.1.symm) _ fewer
      | cons behind nodes =>
          rw [List.cons_append, List.cons_append, linked_cons_cons] at linked
          exact ih linked.2 notEnd.2 (congrArg some linked.1.symm) _ fewer

/-- What is counted over some spans. -/
def countSpans (spans : List Span) (counted : BlockCount) : BlockCount :=
  spans.foldl (fun counted span => counted.count span.size) counted

theorem xBlocks_countSpans (spans : List Span) (counted : BlockCount) :
    (countSpans spans counted).xBlocks % sizeValues =
      (counted.xBlocks + spans.length) % sizeValues := by
  induction spans generalizing counted with
  | nil => rfl
  | cons span spans ih =>
      rw [countSpans, List.foldl_cons, ← countSpans, ih, BlockCount.count, List.length_cons]
      simp only [sizeValues]
      omega

theorem xBlocks_countSpans_lt {counted : BlockCount} (small : counted.xBlocks < sizeValues)
    (spans : List Span) : (countSpans spans counted).xBlocks < sizeValues := by
  induction spans generalizing counted with
  | nil => exact small
  | cons span spans ih => exact ih (Nat.mod_lt _ (by decide))

theorem xMaxSize_countSpans_lt (spans : List Span) (counted : BlockCount) (bound : Nat) :
    (countSpans spans counted).xMaxSize < bound ↔
      counted.xMaxSize < bound ∧ ∀ span ∈ spans, span.size < bound := by
  induction spans generalizing counted with
  | nil => simp [countSpans]
  | cons span spans ih =>
      rw [countSpans, List.foldl_cons, ← countSpans, ih, List.forall_mem_cons, ← and_assoc,
        BlockCount.count]
      refine and_congr_left fun _ => ?_
      dsimp only
      split <;> omega

/-- Nothing has been counted yet. -/
def uncounted : BlockCount :=
  ⟨0, 0, sizeValues - 1⟩

theorem Manages.vPortGetHeapStats (manages : Manages layout heap free) :
    heap.vPortGetHeapStats layout = some {
      xAvailableHeapSpaceInBytes := totalSize free
      xSizeOfLargestFreeBlockInBytes := (countSpans free uncounted).xMaxSize
      xSizeOfSmallestFreeBlockInBytes := (countSpans free uncounted).xMinSize
      xNumberOfFreeBlocks := (countSpans free uncounted).xBlocks
      xMinimumEverFreeBytesRemaining := heap.xMinimumEverFreeBytesRemaining
      xNumberOfSuccessfulAllocations := heap.xNumberOfSuccessfulAllocations
      xNumberOfSuccessfulFrees := heap.xNumberOfSuccessfulFrees } := by
  have list := manages.list
  have first := le_alignedHeap layout
  have placed := layout.placed
  have list' : FreeList layout heap ([] ++ free) := list
  have isLast : layout.xStart :: ([] : List Span).map Span.start = [] ++ [layout.xStart] := rfl
  have isNext := list'.next_last isLast
  have isHead : (free.map Span.start ++ [heap.pxEnd]).head? = some (heap.next layout.xStart) := by
    rw [isNext]
    cases free <;> rfl
  have notZero : heap.next layout.xStart ≠ 0 := by
    rw [isNext]
    cases free with
    | nil =>
        rw [headOr, list.isEnd]
        exact Nat.ne_of_gt (heapEnd_pos layout)
    | cons span free =>
        have inside := list.inside span List.mem_cons_self
        rw [headOr]
        omega
  have notEnd : ∀ a ∈ free.map Span.start, a ≠ heap.pxEnd := by
    intro a isNode
    rcases List.mem_map.mp isNode with ⟨span, isSpan, rfl⟩
    have inside := list.inside span isSpan
    have positive := list.separated.positive span isSpan
    rw [Span.stop] at inside
    rw [list.isEnd]
    omega
  have enough : (free.map Span.start).length < layout.configTotalHeapSize := by
    rw [List.length_map]
    exact list.length_lt
  have sizes : (free.map Span.start).foldl
      (fun counted a => counted.count (heap.size a)) uncounted = countSpans free uncounted := by
    rw [List.foldl_map]
    exact List.foldl_ext _ _ _ fun counted span isSpan => by rw [list.sizes span isSpan]
  have counts := countLoop_eq list'.linked_back notEnd isHead uncounted enough
  rw [sizes] at counts
  unfold HeapState.vPortGetHeapStats
  dsimp only
  rw [if_pos notZero, ← uncounted, counts, manages.xFreeBytesRemaining]
  rfl

theorem Manages.xBlocks_eq (manages : Manages layout heap free) :
    (countSpans free uncounted).xBlocks = free.length := by
  have count := xBlocks_countSpans free uncounted
  have small := xBlocks_countSpans_lt (show uncounted.xBlocks < sizeValues by decide) free
  have short := manages.list.length_lt
  have few := layout.small
  rw [Nat.mod_eq_of_lt small, uncounted, Nat.zero_add, Nat.mod_eq_of_lt] at count
  · exact count
  · exact short.trans (few.trans (by decide))

end HeapState

namespace System

open HeapState

variable {layout : HeapLayout} {start final : System} {calls : List Call}

/-- The size of the block that a pointer was given with. -/
def blockSize (heap : HeapState) (grant : Grant) : Nat :=
  (block heap grant).size

/-- What the statistics say about a heap and its clients. -/
structure Accounts (layout : HeapLayout) (state : System) (stats : HeapState.HeapStats) :
    Prop where
  total : stats.xAvailableHeapSpaceInBytes + (state.held.map (blockSize state.heap)).sum =
    heapEnd layout - alignedHeap layout
  blocks : ∀ grant ∈ state.held,
    grant.xWantedSize + xHeapStructSize < blockSize state.heap grant ∧
      blockSize state.heap grant ≤ grant.xWantedSize + 32
  fragments : stats.xNumberOfFreeBlocks ≤ state.held.length + 1
  largest : stats.xSizeOfLargestFreeBlockInBytes ≤ stats.xAvailableHeapSpaceInBytes ∧
    stats.xAvailableHeapSpaceInBytes ≤
      stats.xNumberOfFreeBlocks * stats.xSizeOfLargestFreeBlockInBytes
  minimum : stats.xMinimumEverFreeBytesRemaining ≤ stats.xAvailableHeapSpaceInBytes
  count : stats.xNumberOfSuccessfulAllocations % sizeValues =
    (stats.xNumberOfSuccessfulFrees + state.held.length) % sizeValues

/-- Once it is initialised, the heap serves its clients. -/
theorem serves_of_run (boot : Boot start)
    (throughout : Throughout (step layout) Allowed start calls)
    (runs : run (step layout) start calls = some final) (used : final.heap.pxEnd ≠ 0) :
    ∃ free, Serves layout final free := by
  rcases sound_of_run boot throughout runs with ⟨isBoot, -⟩ | ⟨serves, -⟩
  · exact absurd isBoot.pxEnd used
  · exact ⟨_, serves⟩

theorem reused_pxEnd : reused.heap.pxEnd ≠ 0 := by
  decide +kernel

/-- Heaps with the same spans give the same answers. -/
theorem Sound.alike {state other last : System} {division : Division} {later : List Call}
    (sound : Sound layout state division) (soundToo : Sound layout other division)
    (throughout : Throughout (System.step layout) Allowed state later)
    (runs : run (System.step layout) state later = some last) :
    ∃ lastToo, run (System.step layout) other later = some lastToo ∧ lastToo.held = last.held := by
  induction later generalizing state other division with
  | nil =>
      cases runs
      exact ⟨other, rfl, soundToo.held.trans sound.held.symm⟩
  | cons call later ih =>
      rcases Option.bind_eq_some_iff.mp runs with ⟨next, taken, runsOn⟩
      rcases throughout next taken with ⟨allowed, throughout⟩
      have sameHeld : other.held = state.held := soundToo.held.trans sound.held.symm
      have allowedToo : Allowed other call := by
        cases call with
        | malloc xWantedSize => exact allowed
        | free pv => exact allowed.imp_right fun isHeld => sameHeld ▸ isHeld
        | store address written =>
            rw [Allowed, sameHeld]
            exact allowed
      have servedToo : Served layout other call := by
        have served := served_of_step taken
        cases call with
        | malloc xWantedSize =>
            rw [Served, soundToo.callsHook_iff, ← sound.callsHook_iff]
            exact served
        | _ => trivial
      obtain ⟨nextToo, takenToo, soundNext, -⟩ := soundToo.step allowedToo servedToo
      obtain ⟨lastToo, runsToo, sameLast⟩ := ih
        (sound.preserved state division call next allowed taken) soundNext throughout runsOn
      exact ⟨lastToo, Option.bind_eq_some_iff.mpr ⟨nextToo, takenToo, runsToo⟩, sameLast⟩

/-- Once the application holds nothing, the heap is one free block again, and answers every
further run of calls as it would have answered it at first. -/
theorem restored_of_run (boot : Boot start)
    (throughout : Throughout (step layout) Allowed start calls)
    (runs : run (step layout) start calls = some final) (none : final.held = []) :
    (final.heap.pxEnd ≠ 0 → FreeList layout final.heap [wholeHeap layout] ∧
      final.heap.xFreeBytesRemaining = heapEnd layout - alignedHeap layout) ∧
    ∀ later last, Throughout (step layout) Allowed final later →
      run (step layout) final later = some last →
        ∃ other, run (step layout) start later = some other ∧ other.held = last.held := by
  have sound := sound_of_run boot throughout runs
  have whole : final.heap.pxEnd ≠ 0 → Refines layout final (.whole layout) := by
    intro used
    rcases sound with ⟨isBoot, -⟩ | ⟨serves, isDivision⟩
    · exact absurd isBoot.pxEnd used
    · have partition := serves.partition
      rw [none] at partition
      have isWhole := partition.restored (alignedHeap_lt_heapEnd layout)
      rw [isWhole] at serves
      refine ⟨serves, ?_⟩
      rw [division, none]
      rfl
  refine ⟨fun used => ⟨(whole used).1.manages.list, ?_⟩, fun later last isAllowed runsOn => ?_⟩
  · rw [(whole used).1.manages.xFreeBytesRemaining]
    rfl
  · have first : Sound layout start (.whole layout) := Or.inl ⟨boot, rfl⟩
    have again : Sound layout final (.whole layout) := by
      rcases sound with ⟨isBoot, -⟩ | ⟨serves, -⟩
      · exact Or.inl ⟨isBoot, rfl⟩
      · exact Or.inr (whole (by
          rw [serves.manages.list.isEnd]
          exact Nat.ne_of_gt (heapEnd_pos layout)))
    exact again.alike first isAllowed runsOn

/-- Both blocks are given back. -/
def giveBack : List Call :=
  [.malloc 100, .malloc 50, .free 0x20000010, .free 0x20000080]

theorem giveBack_allowed : Throughout (step soc2022Heap) Allowed booted giveBack := by
  decide +kernel

theorem giveBack_isSome : (run (step soc2022Heap) booted giveBack).isSome := by
  decide +kernel

def givenBack : System :=
  (run (step soc2022Heap) booted giveBack).get giveBack_isSome

theorem giveBack_runs : run (step soc2022Heap) booted giveBack = some givenBack :=
  (Option.some_get giveBack_isSome).symm

theorem restored_of_run_giveBack :
    (givenBack.heap.pxEnd ≠ 0 → FreeList soc2022Heap givenBack.heap [wholeHeap soc2022Heap] ∧
      givenBack.heap.xFreeBytesRemaining = heapEnd soc2022Heap - alignedHeap soc2022Heap) ∧
    ∀ later last, Throughout (step soc2022Heap) Allowed givenBack later →
      run (step soc2022Heap) givenBack later = some last →
        ∃ other, run (step soc2022Heap) booted later = some other ∧ other.held = last.held :=
  restored_of_run booted_boot giveBack_allowed giveBack_runs (by decide +kernel)

end System

end SunWise.Heap
