import SunWise.Gmac.Descriptor
import SunWise.Library.Memory
import SunWise.Library.Segments

/-!
# Copying a received frame

The loop of `low_level_input` that copies the fragments of a frame, one per descriptor,
into a `pbuf` chain whose elements may be of other lengths.
-/

namespace SunWise.Gmac

open Library

/-- A `pbuf` with the memory its payload points to. -/
structure Pbuf where
  len : Nat
  payload : Nat → UInt8

/-- The bytes of a `pbuf`. -/
def Pbuf.bytes (p : Pbuf) : List UInt8 :=
  load p.payload 0 p.len

/-- The bytes of a `pbuf` chain. -/
def chainBytes (chain : List Pbuf) : List UInt8 :=
  chain.flatMap Pbuf.bytes

/-- The lengths of the elements of a chain from the pool, for a remaining length. -/
def pbufLens (remLen : Nat) : List Nat :=
  let qlen := min remLen pbufPoolBufsize
  if remLen - qlen = 0 then [qlen] else qlen :: pbufLens (remLen - qlen)
termination_by remLen
decreasing_by
  simp only [pbufPoolBufsize] at *
  omega

/-- `pbuf_alloc(PBUF_RAW, length, PBUF_POOL)` when the pool is not exhausted. The length
is a 16-bit number; what the payloads hold before they are written is taken as zero. -/
def pbufAlloc (length : Nat) : List Pbuf :=
  (pbufLens (length % 2 ^ 16)).map fun len => { len, payload := fun _ => 0 }

/-- The local variables of the loop. `q` is the number of elements before the current
one. -/
structure CopyState where
  chain : List Pbuf
  q : Nat
  payloadOffset : Nat
  bufferOffset : Nat
  bufferIndex : Nat
  totalIndex : Nat

namespace CopyState

/-- The variables before the loop. -/
def start (chain : List Pbuf) : CopyState where
  chain := chain
  q := 0
  payloadOffset := 0
  bufferOffset := 0
  bufferIndex := 0
  totalIndex := 0

/-- The element `q` points to; behind the end of the chain there is none. -/
def current (copy : CopyState) : Pbuf :=
  copy.chain.getD copy.q { len := 0, payload := fun _ => 0 }

/-- One turn of the loop. -/
def turn (rxBufferList rxBufferLen : Nat → Nat) (memory : Nat → UInt8)
    (copy : CopyState) : CopyState :=
  let srcRemaining := rxBufferLen copy.bufferIndex - copy.bufferOffset
  let dstRemaining := copy.current.len - copy.payloadOffset
  let copySize := if srcRemaining < dstRemaining then srcRemaining else dstRemaining
  let source := rxBufferList copy.bufferIndex + copy.bufferOffset
  let payload :=
    store copy.current.payload copy.payloadOffset (load memory source copySize)
  let payloadOffset := copy.payloadOffset + copySize
  let bufferOffset := copy.bufferOffset + copySize
  let atBufferEnd := bufferOffset = rxBufferLen copy.bufferIndex
  let atPayloadEnd := payloadOffset = copy.current.len
  { chain := copy.chain.set copy.q { copy.current with payload }
    q := if atPayloadEnd then copy.q + 1 else copy.q
    payloadOffset := if atPayloadEnd then 0 else payloadOffset
    bufferOffset := if atBufferEnd then 0 else bufferOffset
    bufferIndex := if atBufferEnd then copy.bufferIndex + 1 else copy.bufferIndex
    totalIndex := copy.totalIndex + copySize }

/-- The lists and the memory behind them hold the fragments. -/
structure Sources (rxBufferList rxBufferLen : Nat → Nat) (memory : Nat → UInt8)
    (fragments : List (List UInt8)) : Prop where
  nonempty : ∀ fragment ∈ fragments, 0 < fragment.length
  len : ∀ index fragment, fragments[index]? = some fragment →
    rxBufferLen index = fragment.length
  bytes : ∀ index fragment, fragments[index]? = some fragment →
    load memory (rxBufferList index) fragment.length = fragment

/-- The first `total_index` bytes have been copied, and both cursors stand behind
them. -/
structure Copied (fragments : List (List UInt8)) (copy : CopyState) : Prop where
  positive : ∀ p ∈ copy.chain, 0 < p.len
  total : (copy.chain.map Pbuf.len).sum = fragments.flatten.length
  source : Inside (fragments.map List.length) copy.bufferIndex copy.bufferOffset
  sourceAt :
    position (fragments.map List.length) copy.bufferIndex copy.bufferOffset =
      copy.totalIndex
  target : Inside (copy.chain.map Pbuf.len) copy.q copy.payloadOffset
  targetAt :
    position (copy.chain.map Pbuf.len) copy.q copy.payloadOffset = copy.totalIndex
  copied : (chainBytes copy.chain).take copy.totalIndex =
    fragments.flatten.take copy.totalIndex

end CopyState

@[simp] theorem Pbuf.bytes_length (p : Pbuf) : p.bytes.length = p.len :=
  load_length _ _ _

theorem chainBytes_eq_flatten (chain : List Pbuf) :
    chainBytes chain = (chain.map Pbuf.bytes).flatten :=
  List.flatMap_def

@[simp] theorem map_bytes_length (chain : List Pbuf) :
    (chain.map Pbuf.bytes).map List.length = chain.map Pbuf.len := by
  simp [Function.comp_def]

@[simp] theorem chainBytes_length (chain : List Pbuf) :
    (chainBytes chain).length = (chain.map Pbuf.len).sum := by
  rw [chainBytes_eq_flatten, List.length_flatten, map_bytes_length]

/-- The elements of a chain hold what was asked for. -/
theorem pbufLens_sum (remLen : Nat) : (pbufLens remLen).sum = remLen := by
  induction remLen using pbufLens.induct with
  | case1 remLen qlen isLast =>
      rw [pbufLens, if_pos isLast, List.sum_singleton]
      simp only [qlen] at isLast
      omega
  | case2 remLen qlen notLast ih =>
      rw [pbufLens, if_neg notLast, List.sum_cons, ih]
      exact Nat.add_sub_cancel' (Nat.min_le_left _ _)

theorem pbufLens_positive {remLen : Nat} (positive : 0 < remLen) :
    ∀ len ∈ pbufLens remLen, 0 < len := by
  induction remLen using pbufLens.induct with
  | case1 remLen qlen isLast =>
      rw [pbufLens, if_pos isLast]
      intro len isElement
      rw [List.mem_singleton.mp isElement]
      exact Nat.lt_min.mpr ⟨positive, by decide⟩
  | case2 remLen qlen notLast ih =>
      rw [pbufLens, if_neg notLast]
      intro len isElement
      rcases List.mem_cons.mp isElement with rfl | later
      · exact Nat.lt_min.mpr ⟨positive, by decide⟩
      · exact ih (Nat.pos_of_ne_zero notLast) len later

theorem pbufAlloc_lens {length : Nat} (fits : length < 2 ^ 16) :
    (pbufAlloc length).map Pbuf.len = pbufLens length := by
  rw [pbufAlloc, Nat.mod_eq_of_lt fits, List.map_map]
  exact List.map_id' _

namespace CopyState

variable {rxBufferList rxBufferLen : Nat → Nat} {memory : Nat → UInt8}
  {fragments : List (List UInt8)} {copy : CopyState}

theorem start_copied (nonempty : ∀ fragment ∈ fragments, 0 < fragment.length)
    (some_bytes : 0 < fragments.flatten.length)
    (fits : fragments.flatten.length < 2 ^ 16) :
    Copied fragments (start (pbufAlloc fragments.flatten.length)) := by
  have lens := pbufAlloc_lens fits
  have positive : ∀ len ∈ pbufLens fragments.flatten.length, 0 < len :=
    pbufLens_positive some_bytes
  constructor
  · intro p isElement
    apply positive
    rw [← lens]
    exact List.mem_map_of_mem isElement
  · simp only [start, lens]
    exact pbufLens_sum _
  · exact inside_start (by simpa using nonempty) (Nat.zero_le _)
  · rfl
  · simp only [start, lens]
    exact inside_start positive (Nat.zero_le _)
  · rfl
  · rfl

theorem map_len_set {chain : List Pbuf} {q : Nat} {p : Pbuf}
    (isElement : chain[q]? = some p) (payload : Nat → UInt8) :
    (chain.set q { p with payload }).map Pbuf.len = chain.map Pbuf.len := by
  rcases List.getElem?_eq_some_iff.mp isElement with ⟨below, rfl⟩
  calc
    (chain.set q { chain[q] with payload }).map Pbuf.len
        = (chain.map Pbuf.len).set q chain[q].len := List.map_set
    _ = (chain.set q chain[q]).map Pbuf.len := List.map_set.symm
    _ = chain.map Pbuf.len := by rw [List.set_getElem_self]

theorem take_bytes_store (p : Pbuf) {offset : Nat} {data : List UInt8}
    (fits : offset + data.length ≤ p.len) :
    (Pbuf.bytes { p with payload := store p.payload offset data }).take offset =
      p.bytes.take offset := by
  have before : 0 + offset ≤ p.len := by omega
  calc
    (load (store p.payload offset data) 0 p.len).take offset
        = load (store p.payload offset data) (0 + 0) offset :=
          take_drop_load _ 0 before
    _ = load p.payload (0 + 0) offset := load_store_disjoint _ (Or.inl (by omega))
    _ = (load p.payload 0 p.len).take offset := (take_drop_load _ 0 before).symm

/-- A store into a payload is what its range holds afterwards. -/
theorem drop_bytes_store (p : Pbuf) {offset : Nat} {data : List UInt8}
    (fits : offset + data.length ≤ p.len) :
    ((Pbuf.bytes { p with payload := store p.payload offset data }).drop offset).take
        data.length = data := by
  have written := take_drop_load (store p.payload offset data) 0 fits
  rw [Nat.zero_add, load_store_self] at written
  exact written

/-- Storing the next bytes at the target cursor extends what has been copied. -/
theorem take_chainBytes_set {chain : List Pbuf} {q offset total : Nat} {p : Pbuf}
    {data whole : List UInt8} (isElement : chain[q]? = some p)
    (fits : offset + data.length ≤ p.len)
    (targetAt : position (chain.map Pbuf.len) q offset = total)
    (copied : (chainBytes chain).take total = whole.take total)
    (isNext : (whole.drop total).take data.length = data) :
    (chainBytes (chain.set q { p with payload := store p.payload offset data })).take
        (total + data.length) =
      whole.take (total + data.length) := by
  have isBytes : (chain.map Pbuf.bytes)[q]? = some p.bytes := by simp [isElement]
  have behind := take_position_set isBytes (by simp) (take_bytes_store p fits)
    (by simpa using fits)
  rw [map_bytes_length, targetAt, ← List.map_set, ← chainBytes_eq_flatten,
    ← chainBytes_eq_flatten, drop_bytes_store p fits, copied] at behind
  rw [behind, List.take_add, isNext]

/-- A chain that has been copied to its end holds all there is. -/
theorem chainBytes_eq_of_take {chain : List Pbuf} {whole : List UInt8} {total : Nat}
    (length : (chain.map Pbuf.len).sum = whole.length)
    (copied : (chainBytes chain).take total = whole.take total)
    (done : ¬total < whole.length) : chainBytes chain = whole := by
  have bytes : (chainBytes chain).length = whole.length := by
    rw [chainBytes_length, length]
  rwa [List.take_of_length_le (by omega), List.take_of_length_le (by omega)] at copied

/-- The copy size stays within both the fragment and the payload. -/
theorem copySize_bounds {srcLen srcOffset dstLen dstOffset copySize : Nat}
    (srcBefore : srcOffset < srcLen) (dstBefore : dstOffset < dstLen)
    (isSize : (if srcLen - srcOffset < dstLen - dstOffset then srcLen - srcOffset
      else dstLen - dstOffset) = copySize) :
    0 < copySize ∧ srcOffset + copySize ≤ srcLen ∧ dstOffset + copySize ≤ dstLen := by
  split at isSize <;> omega

/-- One turn copies at least one byte and keeps the bytes copied so far. -/
theorem turn_copied (sources : Sources rxBufferList rxBufferLen memory fragments)
    (copied : Copied fragments copy)
    (notDone : copy.totalIndex < fragments.flatten.length) :
    Copied fragments (copy.turn rxBufferList rxBufferLen memory) ∧
      copy.totalIndex < (copy.turn rxBufferList rxBufferLen memory).totalIndex := by
  have inSource := copied.source.exists_segment
    (by rwa [copied.sourceAt, ← List.length_flatten])
  have inTarget := copied.target.exists_segment
    (by rwa [copied.targetAt, copied.total])
  simp only [List.getElem?_map, Option.map_eq_some_iff] at inSource inTarget
  rcases inSource with ⟨_, ⟨fragment, isFragment, rfl⟩, srcBefore⟩
  rcases inTarget with ⟨_, ⟨p, isElement, rfl⟩, dstBefore⟩
  have isLen := sources.len _ _ isFragment
  have isCurrent : copy.current = p := by simp [current, isElement]
  generalize isSize :
    (if fragment.length - copy.bufferOffset < p.len - copy.payloadOffset
      then fragment.length - copy.bufferOffset
      else p.len - copy.payloadOffset) = copySize
  rcases copySize_bounds srcBefore dstBefore isSize with ⟨progress, srcFits, dstFits⟩
  generalize isData : load memory (rxBufferList copy.bufferIndex + copy.bufferOffset)
    copySize = data
  have dataLength : data.length = copySize := by rw [← isData, load_length]
  have dataIs : data = (fragment.drop copy.bufferOffset).take copySize := by
    rw [← sources.bytes _ _ isFragment, take_drop_load _ _ srcFits, isData]
  have sameLens :=
    map_len_set isElement (store p.payload copy.payloadOffset data)
  have isTarget : (copy.chain.map Pbuf.len)[copy.q]? = some p.len := by
    simp [isElement]
  have isSource : (fragments.map List.length)[copy.bufferIndex]? =
      some fragment.length := by
    simp [isFragment]
  have positive : ∀ len ∈ copy.chain.map Pbuf.len, 0 < len := by
    simpa using copied.positive
  simp only [turn, isLen, isCurrent, isSize, isData]
  refine ⟨?_, Nat.lt_add_of_pos_right progress⟩
  constructor
  · rw [← List.forall_mem_map, sameLens]
    exact positive
  · rw [sameLens]
    exact copied.total
  · exact inside_advance (by simpa using sources.nonempty) isSource srcFits
  · rw [position_advance isSource, copied.sourceAt]
  · rw [sameLens]
    exact inside_advance positive isTarget dstFits
  · rw [sameLens, position_advance isTarget, copied.targetAt]
  · have seen := take_drop_position isFragment srcFits
    rw [copied.sourceAt, ← dataIs] at seen
    rw [← dataLength] at seen dstFits ⊢
    exact take_chainBytes_set isElement dstFits copied.targetAt copied.copied seen

theorem Copied.chainBytes_eq (copied : Copied fragments copy)
    (done : ¬copy.totalIndex < fragments.flatten.length) :
    chainBytes copy.chain = fragments.flatten :=
  chainBytes_eq_of_take copied.total copied.copied done

end CopyState

end SunWise.Gmac
