import SunWise.Gmac.RxCopy

/-!
# The copy loop over any fragments

The loop of `low_level_input` for fragments of any lengths, empty ones among them, and any
chain without empty elements.  A turn that would leave an array, a list or a payload, or
follow a null pointer, stops the loop without a result.
-/

namespace SunWise.Gmac

open Library

namespace CopyState

section Loop

variable (rxBufferList rxBufferLen : Nat → Nat) (memory : Nat → UInt8)
  (rxBufferCount rxBufferTotalLen : Nat)

/-- `copy_size` of the next turn. -/
def copySize (copy : CopyState) : Nat :=
  let srcRemaining := rxBufferLen copy.bufferIndex - copy.bufferOffset
  let dstRemaining := copy.current.len - copy.payloadOffset
  if srcRemaining < dstRemaining then srcRemaining else dstRemaining

/-- The next turn looks at a fragment and an element that are there, and copies from inside
the one to inside the other. -/
structure Safe (copy : CopyState) : Prop where
  fragment : copy.bufferIndex < rxBufferCount
  element : copy.q < copy.chain.length
  source : copy.bufferOffset + copy.copySize rxBufferLen ≤ rxBufferLen copy.bufferIndex
  target : copy.payloadOffset + copy.copySize rxBufferLen ≤ copy.current.len

instance (copy : CopyState) : Decidable (copy.Safe rxBufferLen rxBufferCount) :=
  decidable_of_iff
    (copy.bufferIndex < rxBufferCount ∧ copy.q < copy.chain.length ∧
      copy.bufferOffset + copy.copySize rxBufferLen ≤ rxBufferLen copy.bufferIndex ∧
      copy.payloadOffset + copy.copySize rxBufferLen ≤ copy.current.len)
    ⟨fun ⟨fragment, element, source, target⟩ => ⟨fragment, element, source, target⟩,
      fun safe => ⟨safe.fragment, safe.element, safe.source, safe.target⟩⟩

/-- The loop, while `fuel` turns are left. -/
def loop : Nat → CopyState → Option CopyState
  | 0, copy => if copy.totalIndex < rxBufferTotalLen then none else some copy
  | fuel + 1, copy =>
      if copy.totalIndex < rxBufferTotalLen then
        if copy.Safe rxBufferLen rxBufferCount then
          loop fuel (copy.turn rxBufferList rxBufferLen memory)
        else none
      else some copy

/-- The fragments that the lists and the memory hold. -/
def fragments : List (List UInt8) :=
  (List.range rxBufferCount).map fun index =>
    load memory (rxBufferList index) (rxBufferLen index)

end Loop

/-- The first `total_index` bytes have been copied. The source cursor may stand at an empty
fragment. -/
structure Gathered (fragments : List (List UInt8)) (copy : CopyState) : Prop where
  positive : ∀ p ∈ copy.chain, 0 < p.len
  total : (copy.chain.map Pbuf.len).sum = fragments.flatten.length
  source : Between (fragments.map List.length) copy.bufferIndex copy.bufferOffset
  sourceAt :
    position (fragments.map List.length) copy.bufferIndex copy.bufferOffset =
      copy.totalIndex
  target : Inside (copy.chain.map Pbuf.len) copy.q copy.payloadOffset
  targetAt :
    position (copy.chain.map Pbuf.len) copy.q copy.payloadOffset = copy.totalIndex
  copied : (chainBytes copy.chain).take copy.totalIndex =
    fragments.flatten.take copy.totalIndex

section Turns

variable {rxBufferList rxBufferLen : Nat → Nat} {memory : Nat → UInt8}
  {rxBufferCount : Nat} {copy : CopyState}

theorem fragments_getElem? {index : Nat} {fragment : List UInt8}
    (isFragment : (fragments rxBufferList rxBufferLen memory rxBufferCount)[index]? =
      some fragment) :
    index < rxBufferCount ∧
      fragment = load memory (rxBufferList index) (rxBufferLen index) := by
  have below := (List.getElem?_eq_some_iff.mp isFragment).1
  rw [fragments, List.length_map, List.length_range] at below
  refine ⟨below, ?_⟩
  simpa [fragments, below] using isFragment.symm

/-- How far a state is from the end: every turn copies a byte or leaves a fragment. -/
def distance (rxBufferCount total : Nat) (copy : CopyState) : Nat :=
  (rxBufferCount - copy.bufferIndex) + (total - copy.totalIndex)

/-- A turn is safe, keeps what has been copied and comes closer to the end. -/
theorem Gathered.turn
    (gathered : Gathered (fragments rxBufferList rxBufferLen memory rxBufferCount) copy)
    (notDone : copy.totalIndex <
      (fragments rxBufferList rxBufferLen memory rxBufferCount).flatten.length) :
    copy.Safe rxBufferLen rxBufferCount ∧
      Gathered (fragments rxBufferList rxBufferLen memory rxBufferCount)
        (copy.turn rxBufferList rxBufferLen memory) ∧
      (copy.turn rxBufferList rxBufferLen memory).distance rxBufferCount
          (fragments rxBufferList rxBufferLen memory rxBufferCount).flatten.length <
        copy.distance rxBufferCount
          (fragments rxBufferList rxBufferLen memory rxBufferCount).flatten.length := by
  generalize isFragments :
    fragments rxBufferList rxBufferLen memory rxBufferCount = fragments_ at *
  have inSource := gathered.source.exists_segment
    (by rwa [gathered.sourceAt, ← List.length_flatten])
  have inTarget := gathered.target.exists_segment
    (by rwa [gathered.targetAt, gathered.total])
  simp only [List.getElem?_map, Option.map_eq_some_iff] at inSource inTarget
  rcases inSource with ⟨_, ⟨fragment, isFragment, rfl⟩, srcWithin⟩
  rcases inTarget with ⟨_, ⟨p, isElement, rfl⟩, dstBefore⟩
  rcases fragments_getElem? (isFragments ▸ isFragment) with ⟨inCount, isLoad⟩
  have isLen : rxBufferLen copy.bufferIndex = fragment.length := by
    rw [isLoad, load_length]
  have isCurrent : copy.current = p := by simp [current, isElement]
  generalize isSize : copy.copySize rxBufferLen = size
  have sizeIs := isSize
  simp only [copySize, isLen, isCurrent] at sizeIs
  have bounds : copy.bufferOffset + size ≤ fragment.length ∧
      copy.payloadOffset + size ≤ p.len ∧
      (size = 0 → copy.bufferOffset + size = fragment.length) := by
    split at sizeIs <;> omega
  rcases bounds with ⟨srcFits, dstFits, progress⟩
  generalize isData : load memory (rxBufferList copy.bufferIndex + copy.bufferOffset) size =
    data
  have dataLength : data.length = size := by rw [← isData, load_length]
  have dataIs : (fragment.drop copy.bufferOffset).take size = data := by
    rw [isLoad, take_drop_load _ _ (isLen ▸ srcFits), isData]
  have sameLens := map_len_set isElement (store p.payload copy.payloadOffset data)
  have isTarget : (copy.chain.map Pbuf.len)[copy.q]? = some p.len := by simp [isElement]
  have isSource : (fragments_.map List.length)[copy.bufferIndex]? = some fragment.length := by
    simp [isFragment]
  have positive : ∀ len ∈ copy.chain.map Pbuf.len, 0 < len := by
    simpa using gathered.positive
  refine ⟨⟨inCount, (List.getElem?_eq_some_iff.mp isElement).1, ?_, ?_⟩, ?_, ?_⟩
  · rwa [isSize, isLen]
  · rwa [isSize, isCurrent]
  · simp only [CopyState.turn, isLen, isCurrent, sizeIs, isData]
    constructor
    · rw [← List.forall_mem_map, sameLens]
      exact positive
    · rw [sameLens]
      exact gathered.total
    · exact between_advance isSource srcFits
    · rw [position_advance isSource, gathered.sourceAt]
    · rw [sameLens]
      exact inside_advance positive isTarget dstFits
    · rw [sameLens, position_advance isTarget, gathered.targetAt]
    · have seen := take_drop_position isFragment srcFits
      rw [gathered.sourceAt, dataIs] at seen
      rw [← dataLength] at seen dstFits ⊢
      exact take_chainBytes_set isElement dstFits gathered.targetAt gathered.copied seen
  · simp only [CopyState.turn, distance, isLen, isCurrent, sizeIs]
    split <;> omega

/-- The loop ends with the bytes of all fragments in the chain. -/
theorem Gathered.loop {fuel : Nat}
    (gathered : Gathered (fragments rxBufferList rxBufferLen memory rxBufferCount) copy)
    (enough : copy.distance rxBufferCount
      (fragments rxBufferList rxBufferLen memory rxBufferCount).flatten.length ≤ fuel) :
    ∃ final, CopyState.loop rxBufferList rxBufferLen memory rxBufferCount
        (fragments rxBufferList rxBufferLen memory rxBufferCount).flatten.length fuel copy =
          some final ∧
      chainBytes final.chain =
        (fragments rxBufferList rxBufferLen memory rxBufferCount).flatten := by
  generalize isFragments :
    fragments rxBufferList rxBufferLen memory rxBufferCount = fragments_ at *
  induction fuel generalizing copy with
  | zero =>
      have all : ¬copy.totalIndex < fragments_.flatten.length := by
        simp only [distance] at enough
        omega
      exact ⟨copy, by rw [CopyState.loop, if_neg all],
        chainBytes_eq_of_take gathered.total gathered.copied all⟩
  | succ fuel ih =>
      rcases Nat.lt_or_ge copy.totalIndex fragments_.flatten.length with more | all
      · rcases (isFragments ▸ gathered).turn (isFragments ▸ more) with
          ⟨safe, later, closer⟩
        rw [isFragments] at later closer
        rcases ih later (by omega) with ⟨final, returns, holds⟩
        exact ⟨final, by rw [CopyState.loop, if_pos more, if_pos safe, returns], holds⟩
      · have all : ¬copy.totalIndex < fragments_.flatten.length := Nat.not_lt.mpr all
        exact ⟨copy, by rw [CopyState.loop, if_neg all],
        chainBytes_eq_of_take gathered.total gathered.copied all⟩

theorem start_gathered {fragments : List (List UInt8)} {chain : List Pbuf}
    (positive : ∀ p ∈ chain, 0 < p.len)
    (total : (chain.map Pbuf.len).sum = fragments.flatten.length) :
    Gathered fragments (start chain) where
  positive := positive
  total := total
  source := Or.inr ⟨Nat.zero_le _, rfl⟩
  sourceAt := rfl
  target := inside_start (by simpa [start] using positive) (Nat.zero_le _)
  targetAt := rfl
  copied := rfl

end Turns

/-- The loop over fragments of any lengths and a chain for as many bytes, with no empty
element, returns after finitely many safe turns, and the chain holds the fragments. -/
theorem loop_gathers (rxBufferList rxBufferLen : Nat → Nat) (memory : Nat → UInt8)
    (rxBufferCount rxBufferTotalLen : Nat) (chain : List Pbuf)
    (isTotal : ((List.range rxBufferCount).map rxBufferLen).sum = rxBufferTotalLen)
    (positive : ∀ p ∈ chain, 0 < p.len)
    (sameTotal : (chain.map Pbuf.len).sum = rxBufferTotalLen) :
    ∃ final, loop rxBufferList rxBufferLen memory rxBufferCount rxBufferTotalLen
        (rxBufferCount + rxBufferTotalLen) (start chain) = some final ∧
      chainBytes final.chain =
        (fragments rxBufferList rxBufferLen memory rxBufferCount).flatten := by
  have length : (fragments rxBufferList rxBufferLen memory rxBufferCount).flatten.length =
      rxBufferTotalLen := by
    rw [List.length_flatten, fragments, List.map_map, ← isTotal]
    simp [Function.comp_def]
  have gathered := start_gathered positive (sameTotal.trans length.symm)
  have returns := gathered.loop (le_refl _)
  simpa [length, distance, start] using returns

/-- The loop for three fragments, the second one empty, and a chain of two elements. -/
theorem loop_gathers_three :
    ∃ final, loop (· * 4) (fun index => if index = 1 then 0 else 3)
        (fun address => .ofNat address) 3 6 (3 + 6)
          (start [⟨4, fun _ => 0⟩, ⟨2, fun _ => 0⟩]) = some final ∧
      chainBytes final.chain =
        (fragments (· * 4) (fun index => if index = 1 then 0 else 3)
          (fun address => .ofNat address) 3).flatten :=
  loop_gathers (· * 4) (fun index => if index = 1 then 0 else 3)
    (fun address => .ofNat address) 3 6 [⟨4, fun _ => 0⟩, ⟨2, fun _ => 0⟩] (by decide)
    (by decide) (by decide)

end CopyState

end SunWise.Gmac
