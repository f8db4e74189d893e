import SunWise.Library.Memory

/-!
# The heap of the kernel

`heap_4.c` of FreeRTOS, which all dynamic memory comes from.  A block begins with a header
(`BlockLink_t`); free blocks are linked in the order of their addresses, from `xStart` to
`pxEnd`.  The loops over the list are given a number of turns, and have no result when that
is not enough.
-/

namespace SunWise.Heap

/-- `portBYTE_ALIGNMENT`. -/
@[simp] def portByteAlignment : Nat := 8

/-- `xHeapStructSize`: the size of a header, aligned. -/
@[simp] def xHeapStructSize : Nat := 8

/-- `heapMINIMUM_BLOCK_SIZE`. -/
@[simp] def heapMinimumBlockSize : Nat := xHeapStructSize * 2

/-- The number of values of a `size_t`. -/
@[simp] def sizeValues : Nat := 2 ^ 32

/-- A difference of two `size_t`. -/
def sizeSub (left right : Nat) : Nat :=
  (left + sizeValues - right) % sizeValues

/-- `heapBLOCK_ALLOCATED_BITMASK`. -/
@[simp] def heapBlockAllocatedBitmask : Nat := 2 ^ 31

/-- `BlockLink_t`. -/
structure BlockLink where
  pxNextFreeBlock : Nat
  xBlockSize : Nat
  deriving DecidableEq, Repr

/-- `heapBLOCK_IS_ALLOCATED`. -/
def BlockLink.IsAllocated (block : BlockLink) : Prop :=
  block.xBlockSize / heapBlockAllocatedBitmask % 2 = 1

instance (block : BlockLink) : Decidable block.IsAllocated :=
  inferInstanceAs (Decidable (_ = _))

/-- `ucHeap` and `xStart`, which lies elsewhere. -/
structure HeapLayout where
  ucHeap : Nat
  configTotalHeapSize : Nat
  xStart : Nat
  placed : 0 < ucHeap
  inside : ucHeap + configTotalHeapSize ≤ sizeValues
  small : configTotalHeapSize < heapBlockAllocatedBitmask
  room : 32 ≤ configTotalHeapSize
  elsewhere : xStart + xHeapStructSize ≤ ucHeap ∨ ucHeap + configTotalHeapSize ≤ xStart

/-- The headers, by their addresses, and the static variables. Headers are aligned, so that
different ones do not overlap. -/
structure HeapState where
  memory : Nat → BlockLink
  pxEnd : Nat
  xFreeBytesRemaining : Nat
  xMinimumEverFreeBytesRemaining : Nat
  xNumberOfSuccessfulAllocations : Nat
  xNumberOfSuccessfulFrees : Nat

namespace HeapState

variable (heap : HeapState)

/-- `pxBlock->pxNextFreeBlock`. -/
def next (pxBlock : Nat) : Nat :=
  (heap.memory pxBlock).pxNextFreeBlock

/-- `pxBlock->xBlockSize`. -/
def size (pxBlock : Nat) : Nat :=
  (heap.memory pxBlock).xBlockSize

def setNext (pxBlock pxNextFreeBlock : Nat) : HeapState :=
  { heap with
    memory := Function.update heap.memory pxBlock { heap.memory pxBlock with pxNextFreeBlock } }

def setSize (pxBlock xBlockSize : Nat) : HeapState :=
  { heap with
    memory := Function.update heap.memory pxBlock { heap.memory pxBlock with xBlockSize } }

/-- The loop of `prvInsertBlockIntoFreeList`. -/
def insertLoop (pxBlockToInsert : Nat) : Nat → Nat → Option Nat
  | 0, _ => none
  | turns + 1, pxIterator =>
      if heap.next pxIterator < pxBlockToInsert then
        insertLoop pxBlockToInsert turns (heap.next pxIterator)
      else some pxIterator

/-- The block in front of an inserted one takes it in, if it reaches it. -/
def joinPrevious (pxIterator pxBlockToInsert : Nat) : Nat × HeapState :=
  if pxIterator + heap.size pxIterator = pxBlockToInsert then
    (pxIterator, heap.setSize pxIterator
      ((heap.size pxIterator + heap.size pxBlockToInsert) % sizeValues))
  else (pxBlockToInsert, heap)

/-- An inserted block takes in the block behind it, if it reaches it. -/
def joinNext (pxIterator pxBlockToInsert : Nat) : HeapState :=
  let pxNext := heap.next pxIterator
  if pxBlockToInsert + heap.size pxBlockToInsert = pxNext then
    if pxNext ≠ heap.pxEnd then
      let heap := heap.setSize pxBlockToInsert
        ((heap.size pxBlockToInsert + heap.size pxNext) % sizeValues)
      heap.setNext pxBlockToInsert (heap.next pxNext)
    else heap.setNext pxBlockToInsert heap.pxEnd
  else heap.setNext pxBlockToInsert pxNext

/-- `prvInsertBlockIntoFreeList`. -/
def prvInsertBlockIntoFreeList (layout : HeapLayout) (pxBlockToInsert : Nat) :
    Option HeapState := do
  let pxIterator ← heap.insertLoop pxBlockToInsert layout.configTotalHeapSize layout.xStart
  let (pxBlockToInsert, heap) := heap.joinPrevious pxIterator pxBlockToInsert
  let heap := heap.joinNext pxIterator pxBlockToInsert
  if pxIterator ≠ pxBlockToInsert then some (heap.setNext pxIterator pxBlockToInsert)
  else some heap

/-- The loop of `pvPortMalloc`: the block that is taken, and the one before it. -/
def fitLoop (xWantedSize : Nat) : Nat → Nat → Nat → Option (Nat × Nat)
  | 0, _, _ => none
  | turns + 1, pxPreviousBlock, pxBlock =>
      if heap.size pxBlock < xWantedSize ∧ heap.next pxBlock ≠ 0 then
        fitLoop xWantedSize turns pxBlock (heap.next pxBlock)
      else some (pxPreviousBlock, pxBlock)

/-- A block that is larger than required is split into two. -/
def split (layout : HeapLayout) (xWantedSize pxBlock : Nat) : Option HeapState :=
  if sizeSub (heap.size pxBlock) xWantedSize > heapMinimumBlockSize then
    let pxNewBlockLink := pxBlock + xWantedSize
    let heap := heap.setSize pxNewBlockLink (sizeSub (heap.size pxBlock) xWantedSize)
    let heap := heap.setSize pxBlock xWantedSize
    heap.prvInsertBlockIntoFreeList layout pxNewBlockLink
  else some heap

/-- A block that has been taken out of the list is given to the application. -/
def allocate (pxBlock : Nat) : HeapState :=
  let xFreeBytesRemaining := sizeSub heap.xFreeBytesRemaining (heap.size pxBlock)
  let heap := { heap with
    xFreeBytesRemaining
    xMinimumEverFreeBytesRemaining :=
      if xFreeBytesRemaining < heap.xMinimumEverFreeBytesRemaining then xFreeBytesRemaining
      else heap.xMinimumEverFreeBytesRemaining }
  let heap := heap.setSize pxBlock (heap.size pxBlock ||| heapBlockAllocatedBitmask)
  let heap := heap.setNext pxBlock 0
  { heap with
    xNumberOfSuccessfulAllocations := (heap.xNumberOfSuccessfulAllocations + 1) % sizeValues }

/-- The size of the block that is asked for, or 0 if there is no such size. -/
def wantedBlock (xWantedSize : Nat) : Nat :=
  if xWantedSize > 0 then
    let xAdditionalRequiredSize :=
      xHeapStructSize + portByteAlignment - xWantedSize % portByteAlignment
    if xWantedSize > sizeValues - 1 - xAdditionalRequiredSize then 0
    else xWantedSize + xAdditionalRequiredSize
  else xWantedSize

/-- An address, aligned downwards. -/
def alignDown (address : Nat) : Nat :=
  address / portByteAlignment * portByteAlignment

/-- The first block of the heap. -/
def alignedHeap (layout : HeapLayout) : Nat :=
  if layout.ucHeap % portByteAlignment ≠ 0 then
    alignDown (layout.ucHeap + (portByteAlignment - 1))
  else layout.ucHeap

/-- The header behind the last block. -/
def heapEnd (layout : HeapLayout) : Nat :=
  alignDown (layout.ucHeap + layout.configTotalHeapSize - xHeapStructSize)

/-- `prvHeapInit`. -/
def prvHeapInit (layout : HeapLayout) : HeapState :=
  let pucAlignedHeap := alignedHeap layout
  let pxEnd := heapEnd layout
  let xBlockSize := pxEnd - pucAlignedHeap
  let memory := Function.update heap.memory layout.xStart ⟨pucAlignedHeap, 0⟩
  let memory := Function.update memory pxEnd ⟨0, 0⟩
  { heap with
    memory := Function.update memory pucAlignedHeap ⟨pxEnd, xBlockSize⟩
    pxEnd
    xFreeBytesRemaining := xBlockSize
    xMinimumEverFreeBytesRemaining := xBlockSize }

/-- The heap is initialised by the first call of `pvPortMalloc`. -/
def initialised (layout : HeapLayout) : HeapState :=
  if heap.pxEnd = 0 then heap.prvHeapInit layout else heap

/-- `pvPortMalloc` up to `xTaskResumeAll`: the value of `pvReturn`, and the heap. -/
def pvPortMallocBlock (layout : HeapLayout) (xWantedSize : Nat) : Option (Nat × HeapState) :=
  let heap := heap.initialised layout
  let xWantedSize := wantedBlock xWantedSize
  if xWantedSize / heapBlockAllocatedBitmask % 2 = 0 ∧ xWantedSize > 0 ∧
      xWantedSize ≤ heap.xFreeBytesRemaining then do
    let (pxPreviousBlock, pxBlock) ← heap.fitLoop xWantedSize layout.configTotalHeapSize
      layout.xStart (heap.next layout.xStart)
    if pxBlock ≠ heap.pxEnd then
      let pvReturn := heap.next pxPreviousBlock + xHeapStructSize
      let heap := heap.setNext pxPreviousBlock (heap.next pxBlock)
      let heap ← heap.split layout xWantedSize pxBlock
      some (pvReturn, heap.allocate pxBlock)
    else some (0, heap)
  else some (0, heap)

/-- No block is found, and `vApplicationMallocFailedHook` is called. -/
def CallsHook (layout : HeapLayout) (xWantedSize : Nat) : Prop :=
  (heap.pvPortMallocBlock layout xWantedSize).map Prod.fst = some 0

/-- `pvPortMalloc`. There is no result behind the hook, which loops for ever. -/
def pvPortMalloc (layout : HeapLayout) (xWantedSize : Nat) : Option (Nat × HeapState) := do
  let (pvReturn, heap) ← heap.pvPortMallocBlock layout xWantedSize
  if pvReturn = 0 then none else some (pvReturn, heap)

/-- `vPortFree`. -/
def vPortFree (layout : HeapLayout) (pv : Nat) : Option HeapState :=
  if pv ≠ 0 then
    let pxLink := pv - xHeapStructSize
    if (heap.memory pxLink).IsAllocated ∧ heap.next pxLink = 0 then do
      let heap := heap.setSize pxLink (heap.size pxLink % heapBlockAllocatedBitmask)
      let heap := { heap with
        xFreeBytesRemaining := (heap.xFreeBytesRemaining + heap.size pxLink) % sizeValues }
      let heap ← heap.prvInsertBlockIntoFreeList layout pxLink
      some { heap with
        xNumberOfSuccessfulFrees := (heap.xNumberOfSuccessfulFrees + 1) % sizeValues }
    else some heap
  else some heap

/-- What `vPortGetHeapStats` counts over the free blocks. -/
structure BlockCount where
  xBlocks : Nat
  xMaxSize : Nat
  xMinSize : Nat
  deriving DecidableEq, Repr

/-- One more block is counted. -/
def BlockCount.count (counted : BlockCount) (xBlockSize : Nat) : BlockCount where
  xBlocks := (counted.xBlocks + 1) % sizeValues
  xMaxSize := if xBlockSize > counted.xMaxSize then xBlockSize else counted.xMaxSize
  xMinSize := if xBlockSize < counted.xMinSize then xBlockSize else counted.xMinSize

/-- The loop of `vPortGetHeapStats`. -/
def countLoop : Nat → Nat → BlockCount → Option BlockCount
  | 0, _, _ => none
  | turns + 1, pxBlock, counted =>
      if pxBlock ≠ heap.pxEnd then
        countLoop turns (heap.next pxBlock) (counted.count (heap.size pxBlock))
      else some counted

/-- `HeapStats_t`. -/
structure HeapStats where
  xAvailableHeapSpaceInBytes : Nat
  xSizeOfLargestFreeBlockInBytes : Nat
  xSizeOfSmallestFreeBlockInBytes : Nat
  xNumberOfFreeBlocks : Nat
  xMinimumEverFreeBytesRemaining : Nat
  xNumberOfSuccessfulAllocations : Nat
  xNumberOfSuccessfulFrees : Nat
  deriving DecidableEq, Repr

/-- `vPortGetHeapStats`. -/
def vPortGetHeapStats (layout : HeapLayout) : Option HeapStats := do
  let pxBlock := heap.next layout.xStart
  let uncounted : BlockCount := ⟨0, 0, sizeValues - 1⟩
  let counted ←
    if pxBlock ≠ 0 then heap.countLoop layout.configTotalHeapSize pxBlock uncounted
    else some uncounted
  some {
    xAvailableHeapSpaceInBytes := heap.xFreeBytesRemaining
    xSizeOfLargestFreeBlockInBytes := counted.xMaxSize
    xSizeOfSmallestFreeBlockInBytes := counted.xMinSize
    xNumberOfFreeBlocks := counted.xBlocks
    xMinimumEverFreeBytesRemaining := heap.xMinimumEverFreeBytesRemaining
    xNumberOfSuccessfulAllocations := heap.xNumberOfSuccessfulAllocations
    xNumberOfSuccessfulFrees := heap.xNumberOfSuccessfulFrees }

end HeapState

end SunWise.Heap
