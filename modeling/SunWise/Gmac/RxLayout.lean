import SunWise.Gmac.RxRing

/-!
# Layout of the receive ring

What the DMA has completed and the driver has not given back occupies consecutive
descriptors, which are the ones that the CPU owns, and their buffers keep what the DMA
has written.
-/

namespace SunWise.Gmac.RxRing

open Library

/-- The descriptors that are completed and have not been given back. -/
def outstanding (ring : RxRing) : List Fill :=
  ring.filled.drop ring.returned.length

@[simp] theorem getRecvPacket_outstanding (ring : RxRing) :
    ring.getRecvPacket.2.outstanding = ring.outstanding := by
  simp [outstanding]

/-- The descriptor and its buffer are as the DMA has left them. -/
structure Holds (config : RxConfig) (ring : RxRing) (fill : Fill) : Prop where
  first : (ring.desc fill.slot).first = fill.first
  last : (ring.desc fill.slot).last = fill.last
  len : (ring.desc fill.slot).rxLength = fill.bytes.length
  fits : fill.bytes.length ≤ config.rxBufferSize
  bytes : load ring.memory (ring.desc fill.slot).buffer1Addr fill.bytes.length =
    fill.bytes

theorem Holds.of_same {config : RxConfig} {ring after : RxRing} {fill : Fill}
    (holds : Holds config ring fill)
    (desc : after.desc fill.slot = ring.desc fill.slot)
    (bytes : load after.memory (ring.desc fill.slot).buffer1Addr fill.bytes.length =
      load ring.memory (ring.desc fill.slot).buffer1Addr fill.bytes.length) :
    Holds config after fill where
  first := desc ▸ holds.first
  last := desc ▸ holds.last
  len := desc ▸ holds.len
  fits := holds.fits
  bytes := by
    rw [desc, bytes, holds.bytes]

/-- The descriptor at the head of the DMA holds what has been written to it. -/
theorem entry_holds {config : RxConfig} {ring : RxRing} {status : BitVec 31}
    {bytes : List UInt8} (len : (ring.completed status).rxLength = bytes.length)
    (fits : bytes.length ≤ config.rxBufferSize) :
    Holds config (ring.complete status bytes) (ring.entry status bytes) := by
  have same : (ring.complete status bytes).desc (ring.entry status bytes).slot =
      ring.completed status := Function.update_self _ _ _
  constructor
  · rw [same]
    rfl
  · rw [same]
    rfl
  · rw [same]
    exact len
  · exact fits
  · rw [same]
    exact load_store_self _ _

/-- Descriptors are completed and given back in ring order, and the CPU owns those in
between. -/
structure Layout (config : RxConfig) (ring : RxRing) : Prop where
  wired : Wired config ring
  filled : ring.filled.map Fill.slot = slots config.rxDescNum 0 ring.filled.length
  head : ring.dmaHead = ring.filled.length % config.rxDescNum
  returned : ring.returned <+: ring.filled.map Fill.slot
  room : ring.outstanding.length ≤ config.rxDescNum
  owner : ∀ slot < config.rxDescNum,
    (ring.desc slot).owner = false ↔ slot ∈ ring.outstanding.map Fill.slot
  holds : ∀ fill ∈ ring.outstanding, Holds config ring fill
  unread : ∀ slot < config.rxDescNum,
    (ring.desc slot).owner = true → ring.consumed slot = false

namespace Layout

variable {config : RxConfig} {ring : RxRing}

theorem returned_le (layout : Layout config ring) :
    ring.returned.length ≤ ring.filled.length := by
  have bound := layout.returned.length_le
  rwa [List.length_map] at bound

theorem filled_length (layout : Layout config ring) :
    ring.filled.length = ring.returned.length + ring.outstanding.length := by
  rw [outstanding, List.length_drop, Nat.add_sub_cancel' layout.returned_le]

/-- The outstanding descriptors lie side by side. -/
theorem outstanding_slots (layout : Layout config ring) :
    ring.outstanding.map Fill.slot =
      slots config.rxDescNum ring.returned.length ring.outstanding.length := by
  have all := layout.filled
  rw [layout.filled_length, slots_add, Nat.zero_add] at all
  have later := congrArg (List.drop ring.returned.length) all
  rwa [List.drop_left' (slots_length _ _), ← List.map_drop] at later

theorem slot_eq (layout : Layout config ring) {fill : Fill} {index : Nat}
    (isOutstanding : ring.outstanding[index]? = some fill) :
    fill.slot = (ring.returned.length + index) % config.rxDescNum := by
  have below := (List.getElem?_eq_some_iff.mp isOutstanding).1
  have isSlot := congrArg (Option.map Fill.slot) isOutstanding
  rw [← List.getElem?_map, layout.outstanding_slots, slots_getElem? below] at isSlot
  exact (Option.some.inj isSlot).symm

theorem head_eq (layout : Layout config ring) :
    ring.dmaHead =
      (ring.returned.length + ring.outstanding.length) % config.rxDescNum := by
  rw [layout.head, layout.filled_length]

theorem head_lt (layout : Layout config ring) : ring.dmaHead < config.rxDescNum := by
  rw [layout.head]
  exact Nat.mod_lt _ config.positive

theorem slot_lt (layout : Layout config ring) {fill : Fill}
    (isOutstanding : fill ∈ ring.outstanding) : fill.slot < config.rxDescNum := by
  apply lt_of_mem_slots config.positive
  rw [← layout.outstanding_slots]
  exact List.mem_map_of_mem isOutstanding

theorem owner_of_outstanding (layout : Layout config ring) {fill : Fill}
    (isOutstanding : fill ∈ ring.outstanding) : (ring.desc fill.slot).owner = false :=
  (layout.owner _ (layout.slot_lt isOutstanding)).mpr
    (List.mem_map_of_mem isOutstanding)

theorem outstanding_nodup (layout : Layout config ring) :
    (ring.outstanding.map Fill.slot).Nodup := by
  rw [layout.outstanding_slots]
  exact slots_nodup layout.room

/-- The slot after the outstanding descriptors is the DMA's, unless they fill the
ring. -/
theorem head_owner_iff (layout : Layout config ring) :
    (ring.desc ring.dmaHead).owner = true ↔
      ring.outstanding.length < config.rxDescNum := by
  have isOutstanding := layout.owner _ layout.head_lt
  rw [layout.outstanding_slots] at isOutstanding
  conv at isOutstanding => rhs; rw [layout.head_eq]
  rw [next_mem_slots_iff config.positive layout.room] at isOutstanding
  rw [← Bool.not_eq_false, isOutstanding]
  have room := layout.room
  omega

theorem complete (layout : Layout config ring) {status : BitVec 31}
    {bytes : List UInt8} (dma : (ring.desc ring.dmaHead).owner = true)
    (len : (ring.completed status).rxLength = bytes.length)
    (fits : bytes.length ≤ config.rxBufferSize) :
    Layout config (ring.complete status bytes) ∧
      (ring.complete status bytes).outstanding =
        ring.outstanding ++ [ring.entry status bytes] := by
  have grown : (ring.complete status bytes).outstanding =
      ring.outstanding ++ [ring.entry status bytes] :=
    List.drop_append_of_le_length layout.returned_le
  have free := layout.head_owner_iff.mp dma
  refine ⟨?_, grown⟩
  constructor
  · exact layout.wired.complete status bytes
  · simp only [RxRing.complete, List.map_append, List.length_append, List.map_singleton,
      List.length_singleton]
    rw [layout.filled, slots_succ, Nat.zero_add]
    exact congrArg _ (congrArg (fun slot => [slot]) layout.head)
  · simp only [RxRing.complete, completed, List.length_append, List.length_singleton]
    rw [layout.wired.next _ layout.head_lt, layout.head, Nat.mod_add_mod]
  · simp only [RxRing.complete, List.map_append]
    exact layout.returned.trans (List.prefix_append _ _)
  · rw [grown, List.length_append, List.length_singleton]
    exact free
  · intro slot inRing
    rw [grown, List.map_append, List.mem_append]
    by_cases isHead : slot = ring.dmaHead
    · subst slot
      simp [RxRing.complete, completed, entry]
    · have before := layout.owner slot inRing
      simp [RxRing.complete, entry, isHead, before]
  · intro fill isOutstanding
    rw [grown, List.mem_append, List.mem_singleton] at isOutstanding
    rcases isOutstanding with before | rfl
    · have isOther : fill.slot ≠ ring.dmaHead := by
        intro isHead
        have cpu := layout.owner_of_outstanding before
        rw [isHead, dma] at cpu
        cases cpu
      have holds := layout.holds fill before
      apply holds.of_same (Function.update_of_ne isOther _ _)
      apply load_store_disjoint
      simp only [completed]
      rw [layout.wired.address _ (layout.slot_lt before),
        layout.wired.address _ layout.head_lt]
      have separate := buffers_disjoint config.rxBuffer config.rxBufferSize isOther
      have short := holds.fits
      omega
    · exact entry_holds len fits
  · exact unread_complete layout.unread status bytes

theorem giveBack (layout : Layout config ring) {fill : Fill} {rest : List Fill}
    (isFirst : ring.outstanding = fill :: rest) :
    Layout config (ring.giveBack fill.slot) ∧
      (ring.giveBack fill.slot).outstanding = rest := by
  have shrunk : (ring.giveBack fill.slot).outstanding = rest := by
    have tail := congrArg List.tail isFirst
    rw [outstanding, List.tail_drop] at tail
    simpa [outstanding, RxRing.giveBack] using tail
  have isOutstanding : fill ∈ ring.outstanding := by simp [isFirst]
  have distinct := layout.outstanding_nodup
  rw [isFirst, List.map_cons, List.nodup_cons] at distinct
  refine ⟨?_, shrunk⟩
  constructor
  · exact layout.wired.giveBack fill.slot
  · exact layout.filled
  · exact layout.head
  · have front := List.prefix_iff_eq_take.mp layout.returned
    have split := List.take_append_drop ring.returned.length (ring.filled.map Fill.slot)
    rw [← front, ← List.map_drop, ← outstanding, isFirst, List.map_cons,
      List.append_cons] at split
    exact ⟨_, split⟩
  · have room := layout.room
    rw [isFirst, List.length_cons] at room
    rw [shrunk]
    exact Nat.le_of_succ_le room
  · intro slot inRing
    rw [shrunk]
    by_cases same : slot = fill.slot
    · subst slot
      simpa [RxRing.giveBack] using distinct.1
    · have before := layout.owner slot inRing
      rw [isFirst, List.map_cons, List.mem_cons] at before
      simpa [RxRing.giveBack, same] using before
  · intro other isOther
    rw [shrunk] at isOther
    have holds := layout.holds other (by simp [isFirst, isOther])
    have different : other.slot ≠ fill.slot := by
      intro same
      apply distinct.1
      rw [← same]
      exact List.mem_map_of_mem isOther
    exact holds.of_same (Function.update_of_ne different _ _) rfl
  · exact unread_giveBack layout.unread fill.slot

theorem beginFrame (layout : Layout config ring) : Layout config ring.beginFrame where
  wired := ⟨layout.wired.next, layout.wired.address⟩
  filled := layout.filled
  head := layout.head
  returned := layout.returned
  room := layout.room
  owner := layout.owner
  holds := fun fill isOutstanding => (layout.holds fill isOutstanding).of_same rfl rfl
  unread := layout.unread

theorem addDescriptor (layout : Layout config ring)
    (cpu : ring.current.owner = false) : Layout config ring.addDescriptor where
  wired := ⟨layout.wired.next, layout.wired.address⟩
  filled := layout.filled
  head := layout.head
  returned := layout.returned
  room := layout.room
  owner := layout.owner
  holds := fun fill isOutstanding => (layout.holds fill isOutstanding).of_same rfl rfl
  unread := unread_addDescriptor layout.unread cpu

end Layout

theorem init_layout (config : RxConfig) (desc : Nat → GmacDes RxView)
    (memory : Nat → UInt8) : Layout config (init config desc memory) where
  wired := init_wired config desc memory
  filled := rfl
  head := (Nat.zero_mod _).symm
  returned := List.prefix_rfl
  room := Nat.zero_le _
  owner := by
    intro slot inRing
    simp [init, hwGmacInitRxDescriptor, inRing, outstanding]
  holds := nofun
  unread := fun _ _ _ => rfl

end SunWise.Gmac.RxRing
