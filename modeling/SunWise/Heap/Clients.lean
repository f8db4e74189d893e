import SunWise.Heap.Allocator
import SunWise.Library.Runs

/-!
# The heap and its clients

The application allocates, frees what it was given, and writes to what it holds.  Through
every run of such calls its memory is its own, and the heap accounts for all of it.
-/

namespace SunWise.Heap

open Library HeapState

/-- A call of the application. -/
inductive Call where
  | malloc (xWantedSize : Nat)
  | free (pv : Nat)
  | store (address : Nat) (block : BlockLink)

/-- What the application was given, and how much of it was asked for. -/
structure Grant where
  pv : Nat
  xWantedSize : Nat
  deriving DecidableEq, Repr

/-- The heap, and what the application holds. -/
structure System where
  heap : HeapState
  held : List Grant

namespace System

variable {layout : HeapLayout} {state next : System} {free : List Span}

/-- One call. -/
def step (layout : HeapLayout) (state : System) : Call → Option System
  | .malloc xWantedSize => do
      let (pv, heap) ← state.heap.pvPortMalloc layout xWantedSize
      some ⟨heap, ⟨pv, xWantedSize⟩ :: state.held⟩
  | .free pv => do
      let heap ← state.heap.vPortFree layout pv
      some ⟨heap, state.held.eraseP fun grant => grant.pv = pv⟩
  | .store address block =>
      some { state with
        heap := { state.heap with memory := Function.update state.heap.memory address block } }

/-- A size is a `size_t`, only what is held is freed, and only to that is written. -/
def Allowed (state : System) : Call → Prop
  | .malloc xWantedSize => xWantedSize < sizeValues
  | .free pv => pv = 0 ∨ ∃ grant ∈ state.held, grant.pv = pv
  | .store address _ => ∃ grant ∈ state.held,
      grant.pv ≤ address ∧ address < grant.pv + grant.xWantedSize

/-- The call is no request that ends in `vApplicationMallocFailedHook`. -/
def Served (layout : HeapLayout) (state : System) : Call → Prop
  | .malloc xWantedSize => ¬ state.heap.CallsHook layout xWantedSize
  | _ => True

/-- The heap as spans of addresses: those that are free, and those that are held. -/
structure Division where
  free : List Span
  held : List (Grant × Span)

/-- One call, on spans. -/
def Division.step (division : Division) : Call → Division
  | .malloc xWantedSize =>
      match takeBlock xWantedSize division.free with
      | none => division
      | some (taken, left) =>
          ⟨left, (⟨taken.start + xHeapStructSize, xWantedSize⟩, taken) :: division.held⟩
  | .free pv =>
      match division.held.find? fun holds => holds.1.pv = pv with
      | none => division
      | some (_, span) =>
          ⟨insertSpan span division.free, division.held.eraseP fun holds => holds.1.pv = pv⟩
  | .store _ _ => division

instance (state : System) (call : Call) : Decidable (Allowed state call) :=
  match call with
  | .malloc xWantedSize => inferInstanceAs (Decidable (xWantedSize < sizeValues))
  | .free pv => inferInstanceAs (Decidable (pv = 0 ∨ ∃ grant ∈ state.held, grant.pv = pv))
  | .store address _ => inferInstanceAs (Decidable (∃ grant ∈ state.held,
      grant.pv ≤ address ∧ address < grant.pv + grant.xWantedSize))

/-- No memory has been given yet. -/
structure Boot (state : System) : Prop where
  pxEnd : state.heap.pxEnd = 0
  xNumberOfSuccessfulAllocations : state.heap.xNumberOfSuccessfulAllocations = 0
  xNumberOfSuccessfulFrees : state.heap.xNumberOfSuccessfulFrees = 0
  held : state.held = []

/-- The block that a pointer was given with. -/
def block (heap : HeapState) (grant : Grant) : Span :=
  ⟨grant.pv - xHeapStructSize,
    heap.size (grant.pv - xHeapStructSize) % heapBlockAllocatedBitmask⟩

/-- The spans of a state. -/
def division (state : System) (free : List Span) : Division :=
  ⟨free, state.held.map fun grant => (grant, block state.heap grant)⟩

/-- The header of a block is the one that the allocator wrote, and it is large enough. -/
structure Genuine (heap : HeapState) (grant : Grant) : Prop where
  pv : xHeapStructSize ≤ grant.pv
  header : heap.memory (grant.pv - xHeapStructSize) =
    ⟨0, (block heap grant).size ||| heapBlockAllocatedBitmask⟩
  size : grant.xWantedSize + xHeapStructSize < (block heap grant).size
  waste : (block heap grant).size ≤ grant.xWantedSize + 32

/-- The free list and the blocks that are held divide the heap. -/
structure Serves (layout : HeapLayout) (state : System) (free : List Span) : Prop where
  manages : state.heap.Manages layout free
  partition : Partition portByteAlignment (alignedHeap layout) (heapEnd layout) free
    (state.held.map (block state.heap))
  genuine : ∀ grant ∈ state.held, Genuine state.heap grant
  minimum : state.heap.xMinimumEverFreeBytesRemaining ≤ state.heap.xFreeBytesRemaining
  count : state.heap.xNumberOfSuccessfulAllocations % sizeValues =
    (state.heap.xNumberOfSuccessfulFrees + state.held.length) % sizeValues

theorem block_congr {heap other : HeapState} {grant : Grant}
    (same : other.memory (grant.pv - xHeapStructSize) =
      heap.memory (grant.pv - xHeapStructSize)) :
    block other grant = block heap grant := by
  unfold block HeapState.size
  rw [same]

theorem Genuine.congr {heap other : HeapState} {grant : Grant} (genuine : Genuine heap grant)
    (same : other.memory (grant.pv - xHeapStructSize) =
      heap.memory (grant.pv - xHeapStructSize)) :
    Genuine other grant where
  pv := genuine.pv
  header := by rw [same, genuine.header, block_congr same]
  size := by
    rw [block_congr same]
    exact genuine.size
  waste := by
    rw [block_congr same]
    exact genuine.waste

theorem Serves.block_mem (_ : Serves layout state free) {grant : Grant}
    (isHeld : grant ∈ state.held) :
    block state.heap grant ∈ state.held.map (block state.heap) :=
  List.mem_map_of_mem isHeld

theorem Serves.inside (serves : Serves layout state free) {grant : Grant}
    (isHeld : grant ∈ state.held) :
    alignedHeap layout ≤ (block state.heap grant).start ∧
      (block state.heap grant).stop ≤ heapEnd layout :=
  serves.partition.inside_held (serves.block_mem isHeld)

theorem Serves.not_free (serves : Serves layout state free) {grant : Grant}
    (isHeld : grant ∈ state.held) {a : Nat} (covers : (block state.heap grant).Covers a) :
    a ≠ layout.xStart ∧ a < heapEnd layout ∧ ¬ Covered free a := by
  have inside := serves.inside isHeld
  have before := covers.2.trans_le inside.2
  refine ⟨xStart_ne layout (inside.1.trans covers.1) before.le, before, ?_⟩
  have isBlock := serves.block_mem isHeld
  exact (Partition.apart_of_covered (serves.partition.positive _ isBlock)
    serves.partition.separated.positive).mp (serves.partition.notFree _ isBlock) a covers

theorem Serves.covers (serves : Serves layout state free) {grant : Grant}
    (isHeld : grant ∈ state.held) {a : Nat} (after : grant.pv ≤ a + xHeapStructSize)
    (before : a ≤ grant.pv + grant.xWantedSize) : (block state.heap grant).Covers a := by
  have genuine := serves.genuine grant isHeld
  have pv := genuine.pv
  have size := genuine.size
  have start : (block state.heap grant).start = grant.pv - xHeapStructSize := rfl
  rw [Span.covers_iff, start]
  simp only [xHeapStructSize] at *
  omega

theorem Serves.apart (serves : Serves layout state free) {grant other : Grant}
    (isHeld : grant ∈ state.held) (isHeldToo : other ∈ state.held) (differ : grant ≠ other) :
    (block state.heap grant).Apart (block state.heap other) := by
  have : Std.Symm fun grant other : Grant =>
      (block state.heap grant).Apart (block state.heap other) :=
    ⟨fun _ _ apart => Span.Apart.symm apart⟩
  exact (List.pairwise_map.mp serves.partition.apart).forall isHeld isHeldToo differ

theorem map_block {heap other : HeapState} {held : List Grant}
    (same : ∀ grant ∈ held, other.memory (grant.pv - xHeapStructSize) =
      heap.memory (grant.pv - xHeapStructSize)) :
    held.map (block other) = held.map (block heap) :=
  List.map_congr_left fun grant isHeld => block_congr (same grant isHeld)

theorem Serves.header (serves : Serves layout state free) {grant : Grant}
    (isHeld : grant ∈ state.held) :
    (block state.heap grant).Covers (grant.pv - xHeapStructSize) :=
  serves.covers isHeld (by omega) (by omega)

/-! ## One call -/

/-- A block has room for its header, and up to 8 bytes more. -/
theorem wantedBlock_eq (xWantedSize : Nat) :
    wantedBlock xWantedSize =
      if xWantedSize = 0 ∨ sizeValues ≤ xWantedSize + (16 - xWantedSize % 8) then 0
      else xWantedSize + (16 - xWantedSize % 8) := by
  unfold wantedBlock
  dsimp only
  have additional : xHeapStructSize + portByteAlignment - xWantedSize % portByteAlignment =
      16 - xWantedSize % 8 := rfl
  rw [additional]
  by_cases positive : xWantedSize > 0
  · rw [if_pos positive]
    by_cases large : xWantedSize > sizeValues - 1 - (16 - xWantedSize % 8)
    · have overflows : sizeValues ≤ xWantedSize + (16 - xWantedSize % 8) := by
        simp only [sizeValues] at *
        omega
      rw [if_pos large, if_pos (Or.inr overflows)]
    · have fits : ¬ (xWantedSize = 0 ∨ sizeValues ≤ xWantedSize + (16 - xWantedSize % 8)) := by
        simp only [sizeValues] at *
        omega
      rw [if_neg large, if_neg fits]
  · have isZero := Nat.eq_zero_of_not_pos positive
    rw [if_neg positive, if_pos (Or.inl isZero), isZero]

theorem wantedBlock_bounds {xWantedSize : Nat} (valid : wantedBlock xWantedSize ≠ 0) :
    wantedBlock xWantedSize = xWantedSize + (16 - xWantedSize % 8) ∧ 0 < xWantedSize ∧
      8 ∣ wantedBlock xWantedSize := by
  rw [wantedBlock_eq] at *
  split at valid
  next => exact absurd rfl valid
  next fits =>
    rw [if_neg fits]
    refine ⟨rfl, ?_, ?_⟩ <;> omega

/-- The block of a pointer is the one whose header stands in front of it. -/
theorem block_of_header {heap : HeapState} {span : Span} (xWantedSize : Nat)
    (header : heap.memory span.start = ⟨0, span.size ||| heapBlockAllocatedBitmask⟩)
    (small : span.size < 2 ^ 31) :
    block heap ⟨span.start + xHeapStructSize, xWantedSize⟩ = span := by
  unfold block HeapState.size
  dsimp only
  rw [Nat.add_sub_cancel, header, or_bitmask small, heapBlockAllocatedBitmask, Nat.add_mod_left,
    Nat.mod_eq_of_lt small]

/-- The memory of what stays held is as before. -/
def Keeps (state next : System) : Prop :=
  ∀ grant ∈ state.held, grant ∈ next.held → ∀ a, (block state.heap grant).Covers a →
    next.heap.memory a = state.heap.memory a

/-- A call has the effect that it has on spans. -/
def Refines (layout : HeapLayout) (next : System) (division : Division) : Prop :=
  Serves layout next division.free ∧ next.division division.free = division

theorem division_congr {heap other : HeapState} {held : List Grant}
    (same : ∀ grant ∈ held, other.memory (grant.pv - xHeapStructSize) =
      heap.memory (grant.pv - xHeapStructSize)) (free : List Span) :
    division ⟨other, held⟩ free = division ⟨heap, held⟩ free := by
  unfold division
  exact congrArg _ (List.map_congr_left fun grant isHeld => by
    rw [block_congr (same grant isHeld)])

theorem Serves.step_malloc (serves : Serves layout state free) {xWantedSize : Nat}
    (served : Served layout state (.malloc xWantedSize)) :
    ∃ next, step layout state (.malloc xWantedSize) = some next ∧
      Refines layout next ((state.division free).step (.malloc xWantedSize)) ∧
      Keeps state next := by
  have isFree : (state.division free).free = free := rfl
  rw [step, Division.step, isFree]
  cases takes : takeBlock xWantedSize free with
  | none => exact absurd ((serves.manages.callsHook_iff xWantedSize).mpr takes) served
  | some both =>
      obtain ⟨taken, left⟩ := both
      obtain ⟨after, found, manages, header, minimum, allocations, frees, frame⟩ :=
        serves.manages.pvPortMallocBlock_some takes
      have serviced := pvPortMalloc_of_block found
        (Nat.ne_of_gt (Nat.add_pos_right _ (by decide)))
      rw [takeBlock] at takes
      split at takes
      next => cases takes
      rename_i valid
      have wanted := wantedBlock_bounds valid
      have enough := le_size_of_takeSpan takes
      have notMore := size_le_of_takeSpan takes
      have total := totalSize_takeSpan takes
      have freeSmall := serves.manages.list.totalSize_lt
      have partition := serves.partition.take (Nat.pos_of_ne_zero valid) wanted.2.2 takes
      have isNew : block after ⟨taken.start + xHeapStructSize, xWantedSize⟩ = taken :=
        block_of_header xWantedSize header (by
          simp only [heapBlockAllocatedBitmask] at freeSmall
          omega)
      have kept : ∀ grant ∈ state.held, ∀ a, (block state.heap grant).Covers a →
          after.memory a = state.heap.memory a := by
        intro grant isHeld a covers
        have notFree := serves.not_free isHeld covers
        exact frame a notFree.1 notFree.2.2
      have headers := fun grant isHeld => kept grant isHeld _ (serves.header isHeld)
      refine ⟨⟨after, _⟩, by rw [serviced]; rfl, ?_, fun grant isHeld _ => kept grant isHeld⟩
      refine ⟨?_, ?_⟩
      swap
      · have rest := division_congr headers left
        rw [division, Division.mk.injEq] at rest ⊢
        refine ⟨rfl, ?_⟩
        rw [List.map_cons, isNew, rest.2]
        rfl
      constructor
      case manages => exact manages
      case partition =>
        rw [List.map_cons, isNew, map_block headers]
        exact partition
      case genuine =>
        refine List.forall_mem_cons.mpr ⟨⟨Nat.le_add_left _ _, ?_, ?_, ?_⟩,
          fun grant isHeld => (serves.genuine grant isHeld).congr (headers grant isHeld)⟩
        · rw [isNew, Nat.add_sub_cancel, header]
        · rw [isNew]
          simp only [xHeapStructSize]
          omega
        · rw [isNew]
          simp only [heapMinimumBlockSize, xHeapStructSize] at notMore
          dsimp only
          omega
      case minimum =>
        rw [minimum, manages.xFreeBytesRemaining]
        exact Nat.min_le_left _ _
      case count =>
        have count := serves.count
        dsimp only
        rw [allocations, frees, List.length_cons]
        simp only [sizeValues] at *
        omega

/-- A block that is given back leaves the held ones. -/
theorem division_step_free {front back : List Grant} {given : Grant} {pv : Nat}
    (isSplit : state.held = front ++ given :: back)
    (notFront : ∀ grant ∈ front, ¬ decide (grant.pv = pv) = true) (isGiven : given.pv = pv)
    (free : List Span) :
    (state.division free).step (.free pv) =
      division ⟨state.heap, front ++ back⟩ (insertSpan (block state.heap given) free) := by
  have found : (state.division free).held.find? (fun holds => holds.1.pv = pv) =
      some (given, block state.heap given) := by
    refine List.find?_eq_some_iff_append.mpr ⟨decide_eq_true isGiven,
      front.map fun grant => (grant, block state.heap grant),
      back.map fun grant => (grant, block state.heap grant), ?_, fun holds isIn => ?_⟩
    · rw [division, isSplit, List.map_append, List.map_cons]
    · rcases List.mem_map.mp isIn with ⟨other, isFront, rfl⟩
      exact Bool.not_eq_true' _ ▸ eq_false_of_ne_true (notFront other isFront)
  have erased : state.held.eraseP (fun grant => grant.pv = pv) = front ++ back := by
    rw [isSplit, List.eraseP_append_right _ notFront]
    exact congrArg (front ++ ·) (List.eraseP_cons_of_pos (decide_eq_true isGiven))
  rw [Division.step, found]
  dsimp only [division]
  rw [List.eraseP_map, ← erased]
  rfl

theorem Serves.step_free (serves : Serves layout state free) {pv : Nat}
    (allowed : Allowed state (.free pv)) :
    ∃ next, step layout state (.free pv) = some next ∧
      Refines layout next ((state.division free).step (.free pv)) ∧ Keeps state next := by
  rw [step]
  rcases allowed with rfl | isHeld
  · have notZero : ∀ grant ∈ state.held, ¬ decide (grant.pv = 0) = true := by
      intro grant isHeld isZero
      have pv := (serves.genuine grant isHeld).pv
      simp only [xHeapStructSize, decide_eq_true_eq] at pv isZero
      omega
    have notFound : (state.division free).held.find? (fun holds => holds.1.pv = 0) = none := by
      refine List.find?_eq_none.mpr fun holds isIn => ?_
      rcases List.mem_map.mp isIn with ⟨grant, isHeld, rfl⟩
      exact notZero grant isHeld
    have unchanged : (state.division free).step (.free 0) = state.division free := by
      rw [Division.step, notFound]
    rw [List.eraseP_of_forall_not notZero, unchanged]
    exact ⟨_, rfl, ⟨serves, rfl⟩, fun _ _ _ _ _ => rfl⟩
  · obtain ⟨grant, isHeld, isPv⟩ := isHeld
    obtain ⟨given, front, back, notFront, isGiven, isSplit, isErased⟩ :=
      List.exists_of_eraseP (p := fun grant => grant.pv = pv) isHeld (decide_eq_true isPv)
    rw [isErased]
    have givenHeld : given ∈ state.held := by
      rw [isSplit]
      exact List.mem_append_right _ List.mem_cons_self
    have genuine := serves.genuine given givenHeld
    have partition : Partition portByteAlignment (alignedHeap layout) (heapEnd layout) free
        (block state.heap given :: (front ++ back).map (block state.heap)) := by
      refine serves.partition.perm ?_
      rw [isSplit, ← List.map_cons]
      exact List.perm_middle.map _
    have notFree := (List.forall_mem_cons.mp partition.notFree).1
    obtain ⟨after, serviced, manages, minimum, allocations, frees, frame⟩ :=
      serves.manages.vPortFree genuine.header (List.forall_mem_cons.mp partition.positive).1
        (serves.inside givenHeld) notFree
    have isPointer : (block state.heap given).start + xHeapStructSize = pv :=
      (Nat.sub_add_cancel genuine.pv).trans (of_decide_eq_true isGiven)
    rw [isPointer] at serviced
    have isRest : ∀ other ∈ front ++ back, other ∈ state.held := by
      intro other isRest
      rw [isSplit]
      rcases List.mem_append.mp isRest with isFront | isBack
      · exact List.mem_append_left _ isFront
      · exact List.mem_append_right _ (List.mem_cons_of_mem _ isBack)
    have kept : ∀ other ∈ front ++ back, ∀ a, (block state.heap other).Covers a →
        after.memory a = state.heap.memory a := by
      intro other isOther a covers
      have others := serves.not_free (isRest other isOther) covers
      refine frame a others.1 ?_ others.2.2
      rintro rfl
      have apart := (List.pairwise_cons.mp partition.apart).1 _ (List.mem_map_of_mem isOther)
      have positive := (List.forall_mem_cons.mp partition.positive).1
      simp only [Span.Apart, Span.covers_iff, Span.stop] at apart covers
      omega
    have headers := fun other isOther =>
      kept other isOther _ (serves.header (isRest other isOther))
    have isDivision : (state.division free).step (.free pv) = _ :=
      division_step_free isSplit notFront (of_decide_eq_true isGiven) free
    rw [isDivision, ← division_congr headers]
    refine ⟨⟨after, front ++ back⟩, by rw [serviced]; rfl, ⟨?_, rfl⟩,
      fun other _ isOther => kept other isOther⟩
    constructor
    case manages => exact manages
    case partition =>
      rw [map_block headers]
      exact partition.give
    case genuine =>
      exact fun other isOther =>
        (serves.genuine other (isRest other isOther)).congr (headers other isOther)
    case minimum =>
      have before := serves.minimum
      rw [serves.manages.xFreeBytesRemaining] at before
      rw [minimum, manages.xFreeBytesRemaining, totalSize_insertSpan]
      exact before.trans (Nat.le_add_left _ _)
    case count =>
      have count := serves.count
      dsimp only
      rw [isSplit, List.length_append, List.length_cons] at count
      rw [allocations, frees, List.length_append]
      simp only [sizeValues] at *
      omega

theorem Serves.step_store (serves : Serves layout state free) {address : Nat} {written : BlockLink}
    (allowed : Allowed state (.store address written)) :
    ∃ next, step layout state (.store address written) = some next ∧
      Refines layout next ((state.division free).step (.store address written)) ∧
      ∀ a ≠ address, next.heap.memory a = state.heap.memory a := by
  rw [step, Division.step]
  obtain ⟨owner, isOwner, after, before⟩ := allowed
  have covers := serves.covers isOwner (by omega) before.le
  have notFree := serves.not_free isOwner covers
  have ownerPv := (serves.genuine owner isOwner).pv
  simp only [xHeapStructSize] at ownerPv
  have frame : ∀ a ≠ address, Function.update state.heap.memory address written a =
      state.heap.memory a := fun a differs => Function.update_of_ne differs ..
  -- the headers of the blocks are not written to
  have headers : ∀ grant ∈ state.held, Function.update state.heap.memory address written
      (grant.pv - xHeapStructSize) = state.heap.memory (grant.pv - xHeapStructSize) := by
    intro grant isHeld
    refine frame _ fun same => ?_
    by_cases isSame : grant = owner
    · subst isSame
      simp only [xHeapStructSize] at same
      omega
    · have apart := serves.apart isHeld isOwner isSame
      have header := serves.header isHeld
      rw [same] at header
      simp only [Span.Apart, Span.covers_iff, Span.stop] at apart covers header
      omega
  refine ⟨_, rfl, ⟨?_, division_congr headers free⟩, frame⟩
  constructor
  case manages =>
    refine ⟨serves.manages.list.congr rfl (frame _ notFree.1.symm) (frame _ ?_)
      fun span isSpan => frame _ ?_, serves.manages.xFreeBytesRemaining⟩
    · rw [serves.manages.list.isEnd]
      exact Nat.ne_of_gt notFree.2.1
    · rintro rfl
      exact notFree.2.2 ⟨span, isSpan, Nat.le_refl _,
        Nat.lt_add_of_pos_right (serves.partition.separated.positive span isSpan)⟩
  case partition =>
    rw [map_block headers]
    exact serves.partition
  case genuine =>
    exact fun grant isHeld => (serves.genuine grant isHeld).congr (headers grant isHeld)
  case minimum => exact serves.minimum
  case count => exact serves.count

/-- The heap is initialised by the first request. -/
def initial (layout : HeapLayout) (state : System) : System :=
  { state with heap := state.heap.initialised layout }

@[simp] theorem initial_held : (state.initial layout).held = state.held := rfl

theorem alignedHeap_lt_heapEnd (layout : HeapLayout) : alignedHeap layout < heapEnd layout := by
  have room := layout.room
  have first := alignedHeap_lt layout
  have last := lt_heapEnd layout
  omega

/-- The whole heap is one free block. -/
def wholeHeap (layout : HeapLayout) : Span :=
  ⟨alignedHeap layout, heapEnd layout - alignedHeap layout⟩

theorem manages_prvHeapInit (layout : HeapLayout) (heap : HeapState) :
    (heap.prvHeapInit layout).Manages layout [wholeHeap layout] := by
  have order := alignedHeap_lt_heapEnd layout
  have notStart := xStart_ne layout (Nat.le_refl _) order.le
  have endNotStart := xStart_ne layout order.le (Nat.le_refl _)
  have start : (heap.prvHeapInit layout).memory layout.xStart = ⟨alignedHeap layout, 0⟩ := by
    rw [prvHeapInit]
    dsimp only
    rw [Function.update_of_ne notStart.symm, Function.update_of_ne endNotStart.symm,
      Function.update_self]
  have first : (heap.prvHeapInit layout).memory (alignedHeap layout) =
      ⟨heapEnd layout, heapEnd layout - alignedHeap layout⟩ :=
    Function.update_self ..
  have last : (heap.prvHeapInit layout).memory (heapEnd layout) = ⟨0, 0⟩ := by
    rw [prvHeapInit]
    dsimp only
    rw [Function.update_of_ne (Nat.ne_of_gt order), Function.update_self]
  refine ⟨⟨?_, ?_, ?_, ?_, ?_, rfl, ?_, ?_⟩, rfl⟩
  · change Linked _ [layout.xStart, alignedHeap layout, heapEnd layout]
    refine linked_cons_cons.mpr ⟨?_, linked_cons_cons.mpr ⟨?_, List.isChain_singleton _⟩⟩
    · rw [HeapState.next, start]
    · rw [HeapState.next, first]
  · refine List.forall_mem_singleton.mpr ?_
    rw [HeapState.size, wholeHeap, first]
  · rw [HeapState.size, start]
  · exact congrArg BlockLink.pxNextFreeBlock last
  · exact congrArg BlockLink.xBlockSize last
  · exact separated_cons.mpr ⟨⟨Nat.sub_pos_of_lt order, List.forall_mem_nil _⟩, separated_nil⟩
  · refine List.forall_mem_singleton.mpr ⟨Nat.le_refl _, ?_⟩
    rw [Span.stop, wholeHeap]
    dsimp only
    omega

theorem Boot.serves (boot : Boot state) (layout : HeapLayout) :
    Serves layout (state.initial layout) [wholeHeap layout] := by
  have isInit : state.heap.initialised layout = state.heap.prvHeapInit layout :=
    if_pos boot.pxEnd
  have noneHeld : (state.initial layout).held = [] := boot.held
  have isHeap : (state.initial layout).heap = state.heap.prvHeapInit layout := isInit
  constructor
  case manages =>
    rw [isHeap]
    exact manages_prvHeapInit layout state.heap
  case partition =>
    rw [noneHeld]
    exact Partition.start (alignedHeap_lt_heapEnd layout)
      (Nat.dvd_of_mod_eq_zero (alignedHeap_mod layout))
      (Nat.dvd_of_mod_eq_zero (heapEnd_mod layout))
  case genuine =>
    rw [noneHeld]
    exact List.forall_mem_nil _
  case minimum =>
    rw [isHeap]
    exact Nat.le_refl _
  case count =>
    rw [noneHeld, isHeap]
    change state.heap.xNumberOfSuccessfulAllocations % sizeValues =
      state.heap.xNumberOfSuccessfulFrees % sizeValues
    rw [boot.xNumberOfSuccessfulAllocations, boot.xNumberOfSuccessfulFrees]

theorem Serves.initial (serves : Serves layout state free) : state.initial layout = state := by
  rw [System.initial, serves.manages.list.initialised]

/-- The first request finds the heap initialised. -/
theorem pvPortMallocBlock_initial (xWantedSize : Nat) :
    (state.initial layout).heap.pvPortMallocBlock layout xWantedSize =
      state.heap.pvPortMallocBlock layout xWantedSize := by
  have idempotent : (state.heap.initialised layout).initialised layout =
      state.heap.initialised layout := by
    unfold initialised
    split
    next =>
      rw [if_neg]
      exact Nat.ne_of_gt (heapEnd_pos layout)
    next => rfl
  simp only [System.initial, pvPortMallocBlock, idempotent]

theorem step_malloc_initial (xWantedSize : Nat) :
    step layout (state.initial layout) (.malloc xWantedSize) =
      step layout state (.malloc xWantedSize) := by
  simp only [step, pvPortMalloc, pvPortMallocBlock_initial, initial_held]

/-- Before the first call. -/
def Division.whole (layout : HeapLayout) : Division :=
  ⟨[wholeHeap layout], []⟩

/-- The invariant: the heap has not been used yet, or it serves its clients. -/
def Sound (layout : HeapLayout) (state : System) (division : Division) : Prop :=
  Boot state ∧ division = .whole layout ∨ Refines layout state division

/-- Whether a request ends in the hook depends on the spans. -/
theorem Sound.callsHook_iff {division : Division} (sound : Sound layout state division)
    (xWantedSize : Nat) :
    state.heap.CallsHook layout xWantedSize ↔ takeBlock xWantedSize division.free = none := by
  rcases sound with ⟨boot, rfl⟩ | ⟨serves, -⟩
  · rw [CallsHook, ← pvPortMallocBlock_initial]
    exact (boot.serves layout).manages.callsHook_iff xWantedSize
  · exact serves.manages.callsHook_iff xWantedSize

/-- A call that has returned was served. -/
theorem served_of_step {call : Call} (taken : step layout state call = some next) :
    Served layout state call := by
  cases call with
  | malloc xWantedSize =>
      intro isHook
      rcases Option.map_eq_some_iff.mp isHook with ⟨⟨pv, heap⟩, found, isNull⟩
      have fails : state.heap.pvPortMalloc layout xWantedSize = none := by
        unfold HeapState.pvPortMalloc
        rw [found]
        exact if_pos isNull
      rw [step, fails] at taken
      cases taken
  | free pv => trivial
  | store address written => trivial

/-- What one call does to a sound state. -/
theorem Sound.step {division : Division} (sound : Sound layout state division) {call : Call}
    (allowed : Allowed state call) (served : Served layout state call) :
    ∃ next, step layout state call = some next ∧ Sound layout next (division.step call) ∧
      ∀ grant ∈ state.held, grant ∈ next.held → ∀ a, (block state.heap grant).Covers a →
        (∀ written, call ≠ .store a written) → next.heap.memory a = state.heap.memory a := by
  rcases sound with ⟨boot, rfl⟩ | ⟨serves, isDivision⟩
  · have noGrant : ∀ grant, grant ∉ state.held := by
      rw [boot.held]
      exact fun _ => List.not_mem_nil
    have isWhole : (state.initial layout).division [wholeHeap layout] = .whole layout := by
      rw [System.division, initial_held, boot.held]
      rfl
    cases call with
    | malloc xWantedSize =>
        have servedToo : Served layout (state.initial layout) (.malloc xWantedSize) := by
          rw [Served, CallsHook, pvPortMallocBlock_initial]
          exact served
        obtain ⟨next, steps, refines, -⟩ := (boot.serves layout).step_malloc servedToo
        rw [step_malloc_initial] at steps
        rw [isWhole] at refines
        exact ⟨next, steps, Or.inr refines, fun grant isHeld => absurd isHeld (noGrant _)⟩
    | free pv =>
        rcases allowed with rfl | ⟨grant, isHeld, -⟩
        · refine ⟨⟨state.heap, state.held.eraseP _⟩, rfl, Or.inl ⟨?_, rfl⟩,
            fun grant isHeld => absurd isHeld (noGrant _)⟩
          exact ⟨boot.pxEnd, boot.xNumberOfSuccessfulAllocations,
            boot.xNumberOfSuccessfulFrees, by rw [boot.held]; rfl⟩
        · exact absurd isHeld (noGrant _)
    | store address written =>
        rcases allowed with ⟨grant, isHeld, -⟩
        exact absurd isHeld (noGrant _)
  · rw [← isDivision]
    cases call with
    | malloc xWantedSize =>
        obtain ⟨next, steps, refines, keeps⟩ := serves.step_malloc served
        refine ⟨next, steps, Or.inr refines, ?_⟩
        exact fun grant isHeld stays a covers _ => keeps grant isHeld stays a covers
    | free pv =>
        obtain ⟨next, steps, refines, keeps⟩ := serves.step_free allowed
        refine ⟨next, steps, Or.inr refines, ?_⟩
        exact fun grant isHeld stays a covers _ => keeps grant isHeld stays a covers
    | store address written =>
        obtain ⟨next, steps, refines, frame⟩ := serves.step_store allowed
        refine ⟨next, steps, Or.inr refines, ?_⟩
        intro grant _ _ a _ notThis
        refine frame a ?_
        rintro rfl
        exact notThis written rfl

/-! ## Runs -/

section Runs

variable {start final : System} {calls : List Call}

/-- What the application may rely on. -/
structure Safe (layout : HeapLayout) (state : System) : Prop where
  aligned : ∀ grant ∈ state.held, portByteAlignment ∣ grant.pv
  inside : ∀ grant ∈ state.held, layout.ucHeap + xHeapStructSize ≤ grant.pv ∧
    grant.pv + grant.xWantedSize ≤ layout.ucHeap + layout.configTotalHeapSize
  apart : state.held.Pairwise fun grant other =>
    grant.pv + grant.xWantedSize + xHeapStructSize ≤ other.pv ∨
      other.pv + other.xWantedSize + xHeapStructSize ≤ grant.pv
  answers : ∀ call, Allowed state call → Served layout state call →
    ∃ next, step layout state call = some next ∧ ∀ grant ∈ state.held, grant ∈ next.held →
      ∀ a, grant.pv ≤ a → a < grant.pv + grant.xWantedSize →
        (∀ written, call ≠ .store a written) → next.heap.memory a = state.heap.memory a

theorem Sound.safe {division : Division} (sound : Sound layout state division) :
    Safe layout state := by
  have answers := fun call (allowed : Allowed state call)
    (served : Served layout state call) => sound.step allowed served
  rcases sound with ⟨boot, -⟩ | ⟨serves, -⟩
  · have noGrant : ∀ grant ∈ state.held, False := by
      rw [boot.held]
      exact fun _ => List.not_mem_nil
    refine ⟨fun grant isHeld => (noGrant grant isHeld).elim,
      fun grant isHeld => (noGrant grant isHeld).elim, ?_, fun call allowed served => ?_⟩
    · rw [boot.held]
      exact List.Pairwise.nil
    · obtain ⟨next, steps, -⟩ := answers call allowed served
      exact ⟨next, steps, fun grant isHeld => (noGrant grant isHeld).elim⟩
  · constructor
    case aligned =>
      intro grant isHeld
      have aligned := serves.partition.aligned _
        (List.mem_append_right _ (serves.block_mem isHeld))
      have pv := (serves.genuine grant isHeld).pv
      have isPointer : (block state.heap grant).start + xHeapStructSize = grant.pv :=
        Nat.sub_add_cancel pv
      rw [← isPointer]
      exact Nat.dvd_add aligned.1 (by decide)
    case inside =>
      intro grant isHeld
      have inside := serves.inside isHeld
      have first := le_alignedHeap layout
      have last := heapEnd_le layout
      have start := serves.header isHeld
      have stop := serves.covers isHeld (Nat.le_add_right_of_le (Nat.le_add_right _ _))
        (Nat.le_refl (grant.pv + grant.xWantedSize))
      have pv := (serves.genuine grant isHeld).pv
      have before := stop.2.trans_le inside.2
      have after := inside.1.trans start.1
      omega
    case apart =>
      refine (List.pairwise_map.mp serves.partition.apart).imp_of_mem ?_
      intro grant other isHeld isHeldToo apart
      have first := serves.genuine grant isHeld
      have second := serves.genuine other isHeldToo
      have firstStart : (block state.heap grant).start = grant.pv - xHeapStructSize := rfl
      have secondStart : (block state.heap other).start = other.pv - xHeapStructSize := rfl
      have firstSize := first.size
      have secondSize := second.size
      have firstPv := first.pv
      have secondPv := second.pv
      simp only [Span.Apart, Span.stop, firstStart, secondStart] at apart
      omega
    case answers =>
      intro call allowed served
      obtain ⟨next, steps, -, keeps⟩ := answers call allowed served
      refine ⟨next, steps, fun grant isHeld stays a after before notThis => ?_⟩
      exact keeps grant isHeld stays a (serves.covers isHeld (by omega) before.le) notThis

theorem Sound.held {state : System} {division : Division}
    (sound : Sound layout state division) : state.held = division.held.map Prod.fst := by
  rcases sound with ⟨boot, rfl⟩ | ⟨-, isDivision⟩
  · exact boot.held
  · rw [← isDivision, System.division, List.map_map]
    exact (List.map_id _).symm

theorem Sound.preserved (state : System) (division : Division) (call : Call) (next : System)
    (sound : Sound layout state division) (allowed : Allowed state call)
    (taken : System.step layout state call = some next) :
    Sound layout next (division.step call) := by
  obtain ⟨_, steps, isSound, -⟩ := sound.step allowed (served_of_step taken)
  rw [taken] at steps
  cases steps
  exact isSound

/-- Through every run of calls, what the application holds is aligned, lies in the heap and
is its own, and every call returns that does not end in the hook. -/
theorem always_safe (boot : Boot start)
    (throughout : Throughout (step layout) Allowed start calls) :
    Always (step layout) (Safe layout) start calls := by
  have preserved : ∀ state call next, (∃ division, Sound layout state division) →
      Allowed state call → step layout state call = some next →
        ∃ division, Sound layout next division := by
    rintro state call next ⟨division, sound⟩ allowed taken
    exact ⟨_, sound.preserved state division call next allowed taken⟩
  refine (always_of_throughout preserved ⟨_, Or.inl ⟨boot, rfl⟩⟩ throughout).mono ?_
  rintro state ⟨division, sound⟩
  exact sound.safe

/-- A heap of 64 KiB that is not aligned. -/
def soc2022Heap : HeapLayout where
  ucHeap := 0x20000004
  configTotalHeapSize := 65536
  xStart := 0x20010010
  placed := by decide
  inside := by decide
  small := by decide
  room := by decide
  elsewhere := by decide

/-- Everything is zero at first. -/
def booted : System :=
  ⟨⟨fun _ => ⟨0, 0⟩, 0, 0, 0, 0, 0⟩, []⟩

theorem booted_boot : Boot booted :=
  ⟨rfl, rfl, rfl, rfl⟩

/-- Two blocks are taken, and one is given back and used again. -/
def reuse : List Call :=
  [.malloc 100, .malloc 50, .free 0x20000010, .store 0x20000080 ⟨1, 2⟩, .malloc 20]

theorem reuse_allowed : Throughout (step soc2022Heap) Allowed booted reuse := by
  decide +kernel

theorem always_safe_reuse : Always (step soc2022Heap) (Safe soc2022Heap) booted reuse :=
  always_safe booted_boot reuse_allowed

/-- The calls of a run have the effects that they have on spans. -/
theorem sound_of_run (boot : Boot start)
    (throughout : Throughout (step layout) Allowed start calls)
    (runs : run (step layout) start calls = some final) :
    Sound layout final (calls.foldl Division.step (.whole layout)) :=
  simulated_of_throughout Sound.preserved (Or.inl ⟨boot, rfl⟩) throughout runs

theorem reuse_isSome : (run (step soc2022Heap) booted reuse).isSome := by
  decide +kernel

def reused : System :=
  (run (step soc2022Heap) booted reuse).get reuse_isSome

theorem reuse_runs : run (step soc2022Heap) booted reuse = some reused :=
  (Option.some_get reuse_isSome).symm

end Runs

end System

end SunWise.Heap
