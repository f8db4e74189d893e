import SunWise.Gmac.RxFrames
import SunWise.Gmac.RxLayout

/-!
# The frame under assembly

What the DMA has completed are the descriptors of the frames that have been delivered,
those of the frame under assembly, and those behind the read pointer.
`HW_GMAC_GetRecvPacket` moves one descriptor from the last group to the second.
-/

namespace SunWise.Gmac.RxRing

open Library

/-- `rx_desc_start`, the lists and the counts describe these descriptors. -/
structure Listed (config : RxConfig) (ring : RxRing) (start : Nat)
    (frame : List Fill) : Prop where
  start : ring.rxDescStart = some start
  count : ring.rxBufferCount = frame.length
  total : ring.rxBufferTotalLen = (frameBytes frame).length
  entry : ∀ index fill, frame[index]? = some fill →
    ring.rxBufferList index = config.rxBuffer + fill.slot * config.rxBufferSize ∧
      ring.rxBufferLen index = fill.bytes.length

/-- The ring while the descriptors of `frame` are in assembly, and those of `unread` are
behind the read pointer. -/
structure Assembling (config : RxConfig) (ring : RxRing)
    (delivered frame unread : List Fill) : Prop where
  layout : Layout config ring
  split : ring.filled = delivered ++ (frame ++ unread)
  accepts : Accepts underWay Continues [] ring.filled
  ended : delivered.foldl underWay [] = []
  pointer : ring.sLastRxDescriptor =
    (delivered.length + frame.length) % config.rxDescNum
  listed : frame ≠ [] → Listed config ring (delivered.length % config.rxDescNum) frame

/-- The driver has not consumed these descriptors. -/
def Fresh (ring : RxRing) (unread : List Fill) : Prop :=
  ∀ fill ∈ unread, ring.consumed fill.slot = false

/-- The driver has consumed these descriptors. -/
def Consumed (ring : RxRing) (frame : List Fill) : Prop :=
  ∀ fill ∈ frame, ring.consumed fill.slot = true

theorem fresh_nil (ring : RxRing) : Fresh ring [] := by
  intro fill isFill
  cases isFill

theorem consumed_nil (ring : RxRing) : Consumed ring [] := by
  intro fill isFill
  cases isFill

/-- A frame that is longer than the ring has filled it. -/
structure Stuck (config : RxConfig) (ring : RxRing) : Prop where
  full : ring.outstanding.length = config.rxDescNum
  unfinished : Unfinished ring.outstanding
  consumed : Consumed ring ring.outstanding

section Listed

variable {config : RxConfig} {ring : RxRing} {start : Nat} {frame : List Fill}

theorem beginFrame_listed (config : RxConfig) (ring : RxRing) :
    Listed config ring.beginFrame ring.sLastRxDescriptor [] where
  start := rfl
  count := rfl
  total := rfl
  entry := nofun

theorem Listed.addDescriptor (listed : Listed config ring start frame) {fill : Fill}
    (address : ring.current.buffer1Addr =
      config.rxBuffer + fill.slot * config.rxBufferSize)
    (len : ring.current.rxLength = fill.bytes.length) :
    Listed config ring.addDescriptor start (frame ++ [fill]) where
  start := listed.start
  count := by simp [RxRing.addDescriptor, listed.count]
  total := by simp [RxRing.addDescriptor, listed.total, len]
  entry := by
    intro index other isOther
    simp only [RxRing.addDescriptor, listed.count]
    rcases Nat.lt_trichotomy index frame.length with before | rfl | after
    · rw [List.getElem?_append_left before] at isOther
      rw [Function.update_of_ne before.ne, Function.update_of_ne before.ne]
      exact listed.entry index other isOther
    · rw [List.getElem?_concat_length] at isOther
      cases isOther
      rw [Function.update_self, Function.update_self]
      exact ⟨address, len⟩
    · rw [List.getElem?_eq_none (by rw [List.length_append]; exact after)] at isOther
      cases isOther

end Listed

namespace Assembling

variable {config : RxConfig} {ring : RxRing} {delivered frame unread : List Fill}

/-- What is outstanding while some descriptors of the frame have been given back. -/
theorem outstanding_eq (assembling : Assembling config ring delivered frame unread)
    {given : Nat} (back : ring.returned.length = delivered.length + given)
    (bound : given ≤ frame.length) :
    ring.outstanding = frame.drop given ++ unread := by
  rw [outstanding, assembling.split, back, List.drop_length_add_append,
    List.drop_append_of_le_length bound]

theorem outstanding_whole (assembling : Assembling config ring delivered frame unread)
    (back : ring.returned.length = delivered.length) :
    ring.outstanding = frame ++ unread :=
  assembling.outstanding_eq back (Nat.zero_le frame.length)

/-- The frames that are completed are the delivered ones and those that follow. -/
theorem frames_eq (assembling : Assembling config ring delivered frame unread) :
    framesFrom [] ring.filled =
      framesFrom [] delivered ++ framesFrom [] (frame ++ unread) := by
  rw [assembling.split, framesFrom_append, assembling.ended]

theorem accepts_rest (assembling : Assembling config ring delivered frame unread) :
    Accepts underWay Continues [] (frame ++ unread) := by
  have accepts := assembling.accepts
  rw [assembling.split, accepts_append, assembling.ended] at accepts
  exact accepts.2

theorem complete (assembling : Assembling config ring delivered frame unread)
    {status : BitVec 31} {bytes : List UInt8}
    (dma : (ring.desc ring.dmaHead).owner = true)
    (continues : Continues (ring.filled.foldl underWay []) (ring.entry status bytes))
    (len : (ring.completed status).rxLength = bytes.length)
    (fits : bytes.length ≤ config.rxBufferSize) :
    Assembling config (ring.complete status bytes) delivered frame
      (unread ++ [ring.entry status bytes]) where
  layout := (assembling.layout.complete dma len fits).1
  split := by
    simp only [RxRing.complete, assembling.split, List.append_assoc]
  accepts := by
    change Accepts underWay Continues [] (ring.filled ++ [ring.entry status bytes])
    rw [accepts_append, accepts_cons]
    exact ⟨assembling.accepts, continues, accepts_nil _⟩
  ended := assembling.ended
  pointer := assembling.pointer
  listed := by
    intro notEmpty
    have listed := assembling.listed notEmpty
    exact ⟨listed.start, listed.count, listed.total, listed.entry⟩

theorem fresh_complete (assembling : Assembling config ring delivered frame unread)
    {status : BitVec 31} {bytes : List UInt8}
    (dma : (ring.desc ring.dmaHead).owner = true) (fresh : Fresh ring unread) :
    Fresh (ring.complete status bytes) (unread ++ [ring.entry status bytes]) := by
  intro fill isUnread
  rcases List.mem_append.mp isUnread with before | isLast
  · exact fresh fill before
  · rw [List.mem_singleton.mp isLast]
    exact assembling.layout.unread _ assembling.layout.head_lt dma

theorem giveBack (assembling : Assembling config ring delivered frame unread)
    {fill : Fill} {rest : List Fill} (isFirst : ring.outstanding = fill :: rest) :
    Assembling config (ring.giveBack fill.slot) delivered frame unread where
  layout := (assembling.layout.giveBack isFirst).1
  split := assembling.split
  accepts := assembling.accepts
  ended := assembling.ended
  pointer := assembling.pointer
  listed := by
    intro notEmpty
    have listed := assembling.listed notEmpty
    exact ⟨listed.start, listed.count, listed.total, listed.entry⟩

theorem fresh_giveBack (fresh : Fresh ring unread) (descriptor : Nat) :
    Fresh (ring.giveBack descriptor) unread := by
  intro fill isUnread
  by_cases same : fill.slot = descriptor
  · simp [RxRing.giveBack, same]
  · simpa [RxRing.giveBack, same] using fresh fill isUnread

theorem consumed_giveBack (layout : Layout config ring) {fill : Fill}
    {rest : List Fill} (isFirst : ring.outstanding = fill :: rest) {frame : List Fill}
    (isRest : frame ⊆ rest) (consumed : Consumed ring frame) :
    Consumed (ring.giveBack fill.slot) frame := by
  have distinct := layout.outstanding_nodup
  rw [isFirst, List.map_cons, List.nodup_cons] at distinct
  intro other isOther
  have different : other.slot ≠ fill.slot := by
    intro same
    apply distinct.1
    rw [← same]
    exact List.mem_map_of_mem (isRest isOther)
  simpa [RxRing.giveBack, different] using consumed other isOther

theorem deliver (assembling : Assembling config ring delivered frame unread)
    (whole : Whole frame) : Assembling config ring (delivered ++ frame) [] unread where
  layout := assembling.layout
  split := by
    rw [assembling.split, List.nil_append, List.append_assoc]
  accepts := assembling.accepts
  ended := by
    rw [List.foldl_append, assembling.ended, whole.ended]
  pointer := by
    rw [assembling.pointer, List.length_append, List.length_nil, Nat.add_zero]
  listed := fun notEmpty => absurd rfl notEmpty

/-- The descriptor behind an unfinished part of what is outstanding continues it. -/
theorem continues (assembling : Assembling config ring delivered frame unread)
    (back : ring.returned.length = delivered.length) {kept rest : List Fill} {fill : Fill}
    (split : ring.outstanding = kept ++ fill :: rest) (unfinished : Unfinished kept) :
    Continues (frameBytes kept) fill ∧ fill.first = kept.isEmpty := by
  have accepts := assembling.accepts_rest
  rw [← assembling.outstanding_whole back, split] at accepts
  have continues := continues_of_accepts accepts unfinished
  refine ⟨continues, continues.first.trans (frameBytes_isEmpty ?_)⟩
  intro other isKept
  exact nonempty_of_accepts accepts other (List.mem_append_left _ isKept)

/-- Reading the descriptor behind `kept`, which is the frame under assembly, or nothing
if the frame is read from its start. -/
theorem read (assembling : Assembling config ring delivered frame unread)
    (back : ring.returned.length = delivered.length) {kept rest : List Fill} {fill : Fill}
    (split : ring.outstanding = kept ++ fill :: rest) (unfinished : Unfinished kept)
    (pointer : ring.sLastRxDescriptor = fill.slot) (isKept : kept = [] ∨ kept = frame) :
    Assembling config ring.getRecvPacket.2 delivered (kept ++ [fill]) rest ∧
      ring.getRecvPacket.1 =
        if fill.last then (frameBytes (kept ++ [fill])).length else 0 := by
  have layout := assembling.layout
  have isOutstanding : fill ∈ ring.outstanding := by simp [split]
  have isSlot := layout.slot_eq (show ring.outstanding[kept.length]? = some fill by
    simp [split])
  rw [back] at isSlot
  have inRing := layout.slot_lt isOutstanding
  have holds := layout.holds fill isOutstanding
  have isCurrent : ring.current = ring.desc fill.slot := by rw [current, pointer]
  have cpu : ring.current.owner = false := by
    rw [isCurrent, layout.owner_of_outstanding isOutstanding]
  have first : ring.current.first = kept.isEmpty := by
    rw [isCurrent, holds.first]
    exact (assembling.continues back split unfinished).2
  have base : ∃ base, (if ring.current.first then ring.beginFrame else ring) = base ∧
      Layout config base ∧ base.current = ring.current ∧ base.filled = ring.filled ∧
      Listed config base (delivered.length % config.rxDescNum) kept := by
    cases kept with
    | nil =>
        refine ⟨ring.beginFrame, if_pos first, layout.beginFrame, rfl, rfl, ?_⟩
        have listed := beginFrame_listed config ring
        rwa [pointer, isSlot] at listed
    | cons head tail =>
        have isFrame := isKept.resolve_left (List.cons_ne_nil head tail)
        refine ⟨ring, if_neg (by simp [first]), layout, rfl, rfl, ?_⟩
        rw [isFrame]
        exact assembling.listed (isFrame ▸ List.cons_ne_nil head tail)
  rcases base with ⟨base, isBase, baseLayout, sameCurrent, sameFilled, listed⟩
  have grown : Listed config base.addDescriptor (delivered.length % config.rxDescNum)
      (kept ++ [fill]) := by
    apply listed.addDescriptor
    · rw [sameCurrent, isCurrent, layout.wired.address _ inRing]
    · rw [sameCurrent, isCurrent, holds.len]
  rcases getRecvPacket_cpu cpu with ⟨isNext, len⟩
  rw [isBase] at isNext
  rw [len, isNext]
  constructor
  · constructor
    · exact baseLayout.addDescriptor (sameCurrent ▸ cpu)
    · change base.filled = _
      rw [sameFilled, assembling.split, ← assembling.outstanding_whole back, split]
      simp
    · change Accepts underWay Continues [] base.filled
      rw [sameFilled]
      exact assembling.accepts
    · exact assembling.ended
    · simp only [addDescriptor, sameCurrent, isCurrent]
      rw [layout.wired.next _ inRing, isSlot, Nat.mod_add_mod, List.length_append,
        List.length_singleton, Nat.add_assoc]
    · exact fun _ => grown
  · rw [isCurrent, holds.last]
    split
    next => exact grown.total
    next => rfl

theorem stuck_read (stuck : Stuck config ring) : Stuck config ring.getRecvPacket.2 where
  full := by
    rw [getRecvPacket_outstanding]
    exact stuck.full
  unfinished := by
    rw [getRecvPacket_outstanding]
    exact stuck.unfinished
  consumed := by
    intro fill isOutstanding
    rw [getRecvPacket_outstanding] at isOutstanding
    have consumed := stuck.consumed fill isOutstanding
    cases owner : ring.current.owner with
    | true => rwa [getRecvPacket_dma owner]
    | false =>
        rw [getRecvPacket_consumed owner, Function.update_apply, consumed, ite_self]

theorem consumed_read (cpu : ring.current.owner = false) {kept : List Fill} {fill : Fill}
    (pointer : ring.sLastRxDescriptor = fill.slot) (consumed : Consumed ring kept) :
    Consumed ring.getRecvPacket.2 (kept ++ [fill]) := by
  intro other isOther
  rw [getRecvPacket_consumed cpu, pointer]
  by_cases same : other.slot = fill.slot
  · rw [same, Function.update_self]
  · rw [Function.update_of_ne same]
    rcases List.mem_append.mp isOther with isKept | isFill
    · exact consumed other isKept
    · exact absurd (congrArg Fill.slot (List.mem_singleton.mp isFill)) same

theorem fresh_read (layout : Layout config ring) {kept rest : List Fill} {fill : Fill}
    (split : ring.outstanding = kept ++ fill :: rest) (cpu : ring.current.owner = false)
    (pointer : ring.sLastRxDescriptor = fill.slot) (fresh : Fresh ring (fill :: rest)) :
    Fresh ring.getRecvPacket.2 rest := by
  have distinct := layout.outstanding_nodup
  rw [split, List.map_append, List.map_cons] at distinct
  have notLater := (List.nodup_cons.mp distinct.of_append_right).1
  intro other isRest
  have unread := fresh other (List.mem_cons_of_mem _ isRest)
  have different : other.slot ≠ ring.sLastRxDescriptor := by
    rw [pointer]
    intro same
    apply notLater
    rw [← same]
    exact List.mem_map_of_mem isRest
  rw [getRecvPacket_consumed cpu, Function.update_of_ne different]
  exact unread

end Assembling

end SunWise.Gmac.RxRing
