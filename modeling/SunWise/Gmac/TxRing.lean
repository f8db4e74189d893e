import SunWise.Gmac.Descriptor
import SunWise.Library.Memory
import SunWise.Library.Ring

/-!
# Transmit ring

The descriptors, the buffers and the tail pointer that the send functions of
`drv_gmac.c` share with the DMA, and the DMA itself: it transmits owned descriptors in
ring order and clears their owner bit.  A descriptor reaches the DMA by `push_desc` and
`cache_flush` as a whole, which the model takes as one step.
-/

namespace SunWise.Gmac

open Library

/-- The transmit part of `DeviceGmacConfig_t`. There is a descriptor, and the length of a
buffer fits into the 11 bits that a descriptor has for it. -/
structure TxConfig where
  txDescNum : Nat
  txBufferSize : Nat
  txBuffer : Nat
  positive : 0 < txDescNum
  sized : txBufferSize < 2 ^ 11

/-- The sizes of `g_DeviceGmacDefaultConfig`: `GMAC_DESCRIPTOR_NUM` and
`GMAC_BUFFER_SIZE`. -/
def defaultTxConfig (txBuffer : Nat) : TxConfig where
  txDescNum := gmacDescriptorNum
  txBufferSize := gmacBufferSize
  txBuffer := txBuffer
  positive := gmacDescriptorNum_pos
  sized := gmacBufferSize_lt

/-- The transmit side. The last three fields are not part of the program: the frames the
DMA has put on the wire, the frames it has been handed and not yet released with their
descriptors, and all frames it has ever been handed. -/
structure TxRing where
  desc : Nat → GmacDes TxView
  sLastTxDescriptor : Nat
  memory : Nat → UInt8
  dmaHead : Nat
  wire : List (List UInt8)
  outstanding : List (Nat × List UInt8)
  accepted : List (List UInt8)

namespace TxRing

/-- The descriptor the tail pointer points to. -/
def tail (ring : TxRing) : GmacDes TxView :=
  ring.desc ring.sLastTxDescriptor

/-- `HW_GMAC_GetSendPacket`: the buffer of the tail descriptor, or `none` for the result
-1. -/
def getSendPacket (ring : TxRing) : Option Nat :=
  if ring.tail.owner then none else some ring.tail.buffer1Addr

/-- `HW_GMAC_StartSendPacket`. The frame is the one the caller means to send. -/
def startSendPacket (ring : TxRing) (len : Nat) (frame : List UInt8) : TxRing :=
  let current := { ring.tail with
    owner := true
    view := { ring.tail.view with
      buffer1Size := BitVec.ofNat 11 len
      cic := 3
      fs := true
      ls := true } }
  { ring with
    desc := Function.update ring.desc ring.sLastTxDescriptor current
    sLastTxDescriptor := current.next
    outstanding := ring.outstanding ++ [(ring.sLastTxDescriptor, frame)]
    accepted := ring.accepted ++ [frame] }

/-- A `memcpy` into the buffer memory. -/
def copy (ring : TxRing) (address : Nat) (bytes : List UInt8) : TxRing :=
  { ring with memory := store ring.memory address bytes }

/-- The DMA transmits the descriptor at its head, if it owns it. -/
def transmit (ring : TxRing) : Option TxRing :=
  let head := ring.desc ring.dmaHead
  if head.owner then
    some { ring with
      desc := Function.update ring.desc ring.dmaHead { head with owner := false }
      dmaHead := head.next
      wire := ring.wire ++
        [load ring.memory head.buffer1Addr head.view.buffer1Size.toNat]
      outstanding := ring.outstanding.filter fun entry => entry.1 ≠ ring.dmaHead }
  else none

/-- The DMA leaves the memory alone, and the tail descriptor while the CPU owns it. -/
theorem transmit_frame {ring next : TxRing} (sends : ring.transmit = some next) :
    next.memory = ring.memory ∧ next.accepted = ring.accepted ∧
      (ring.tail.owner = false → next.tail = ring.tail) := by
  simp only [transmit] at sends
  split at sends
  next dma =>
    cases sends
    refine ⟨rfl, rfl, ?_⟩
    intro cpu
    have different : ring.sLastTxDescriptor ≠ ring.dmaHead := by
      intro same
      rw [tail, same, dma] at cpu
      cases cpu
    simp [tail, different]
  next => cases sends

/-- The ring after `HW_GMAC_InitTxDescriptor`. -/
def init (config : TxConfig) (desc : Nat → GmacDes TxView) (memory : Nat → UInt8) :
    TxRing where
  desc := hwGmacInitTxDescriptor desc config.txDescNum config.txBuffer
    config.txBufferSize
  sLastTxDescriptor := 0
  memory := memory
  dmaHead := 0
  wire := []
  outstanding := []
  accepted := []

/-- The descriptor holds this frame for the DMA. -/
def Holds (ring : TxRing) (slot : Nat) (frame : List UInt8) : Prop :=
  (ring.desc slot).owner = true ∧
    (ring.desc slot).view.buffer1Size.toNat = frame.length ∧
    load ring.memory (ring.desc slot).buffer1Addr frame.length = frame

/-- A range of the memory that no buffer of a DMA-owned descriptor reaches into. -/
def Free (config : TxConfig) (ring : TxRing) (address count : Nat) : Prop :=
  ∀ slot < config.txDescNum, (ring.desc slot).owner = true →
    address + count ≤ (ring.desc slot).buffer1Addr ∨
      (ring.desc slot).buffer1Addr + config.txBufferSize ≤ address

/-- The frames with the DMA occupy a window of the ring that starts at its head and ends
at the tail pointer, and what has been handed over is what has been sent or is held. -/
structure Consistent (config : TxConfig) (ring : TxRing) : Prop where
  head : ring.dmaHead < config.txDescNum
  count : ring.outstanding.length ≤ config.txDescNum
  window : ring.outstanding.map Prod.fst =
    slots config.txDescNum ring.dmaHead ring.outstanding.length
  tailAt : ring.sLastTxDescriptor =
    (ring.dmaHead + ring.outstanding.length) % config.txDescNum
  chain : ∀ slot < config.txDescNum,
    (ring.desc slot).buffer1Addr = config.txBuffer + slot * config.txBufferSize ∧
      (ring.desc slot).next = (slot + 1) % config.txDescNum
  owner : ∀ slot < config.txDescNum,
    (ring.desc slot).owner = true ↔
      slot ∈ slots config.txDescNum ring.dmaHead ring.outstanding.length
  holds : ∀ entry ∈ ring.outstanding, ring.Holds entry.1 entry.2
  short : ∀ entry ∈ ring.outstanding, entry.2.length ≤ config.txBufferSize
  sent : ring.wire ++ ring.outstanding.map Prod.snd = ring.accepted

namespace Consistent

variable {config : TxConfig} {ring : TxRing}

theorem tail_lt (consistent : Consistent config ring) :
    ring.sLastTxDescriptor < config.txDescNum := by
  rw [consistent.tailAt]
  exact Nat.mod_lt _ config.positive

/-- The tail descriptor is DMA-owned exactly when the ring is full. -/
theorem tail_owner_iff (consistent : Consistent config ring) :
    ring.tail.owner = true ↔ ring.outstanding.length = config.txDescNum := by
  rw [tail, consistent.owner _ consistent.tail_lt, consistent.tailAt]
  exact next_mem_slots_iff config.positive consistent.count

theorem slot_lt (consistent : Consistent config ring) {entry : Nat × List UInt8}
    (held : entry ∈ ring.outstanding) : entry.1 < config.txDescNum := by
  have inWindow : entry.1 ∈ ring.outstanding.map Prod.fst :=
    List.mem_map_of_mem held
  rw [consistent.window] at inWindow
  exact lt_of_mem_slots config.positive inWindow

theorem distinct (consistent : Consistent config ring) :
    (ring.outstanding.map Prod.fst).Nodup := by
  rw [consistent.window]
  exact slots_nodup consistent.count

/-- The buffer of a descriptor the CPU owns is free. -/
theorem free_of_not_owner (consistent : Consistent config ring) {slot offset count : Nat}
    (inRing : slot < config.txDescNum) (cpu : (ring.desc slot).owner = false)
    (inside : offset + count ≤ config.txBufferSize) :
    Free config ring ((ring.desc slot).buffer1Addr + offset) count := by
  intro other otherInRing dma
  have different : slot ≠ other := by
    rintro rfl
    rw [cpu] at dma
    cases dma
  rw [(consistent.chain slot inRing).1, (consistent.chain other otherInRing).1]
  have apart := buffers_disjoint config.txBuffer config.txBufferSize different
  omega

theorem copy (consistent : Consistent config ring) {address : Nat} {bytes : List UInt8}
    (free : Free config ring address bytes.length) :
    Consistent config (ring.copy address bytes) where
  head := consistent.head
  count := consistent.count
  window := consistent.window
  tailAt := consistent.tailAt
  chain := consistent.chain
  owner := consistent.owner
  short := consistent.short
  sent := consistent.sent
  holds := by
    intro entry held
    rcases consistent.holds entry held with ⟨dma, size, bytes_⟩
    refine ⟨dma, size, ?_⟩
    have short := consistent.short entry held
    have apart := free entry.1 (consistent.slot_lt held) dma
    change load (store ring.memory address bytes) (ring.desc entry.1).buffer1Addr _ = _
    rw [load_store_disjoint, bytes_]
    omega

/-- The DMA's head descriptor holds the oldest frame. -/
theorem outstanding_eq_cons (consistent : Consistent config ring)
    (dma : (ring.desc ring.dmaHead).owner = true) :
    ∃ frame rest, ring.outstanding = (ring.dmaHead, frame) :: rest ∧
      rest.map Prod.fst = slots config.txDescNum (ring.dmaHead + 1) rest.length ∧
      ring.dmaHead ∉ rest.map Prod.fst := by
  have inWindow := (consistent.owner _ consistent.head).mp dma
  have window := consistent.window
  have distinct := consistent.distinct
  cases entries : ring.outstanding with
  | nil =>
      rw [entries] at inWindow
      cases inWindow
  | cons entry rest =>
      rw [entries, List.map_cons, List.length_cons, slots_cons,
        Nat.mod_eq_of_lt consistent.head] at window
      rw [entries, List.map_cons, List.nodup_cons] at distinct
      rcases List.cons.inj window with ⟨first, others⟩
      rw [first] at distinct
      refine ⟨entry.2, rest, ?_, others, distinct.1⟩
      rw [← first]

theorem transmit (consistent : Consistent config ring) {next : TxRing}
    (sends : ring.transmit = some next) : Consistent config next := by
  simp only [TxRing.transmit] at sends
  split at sends
  next dma =>
    rcases consistent.outstanding_eq_cons dma with ⟨frame, rest, entries, others, fresh⟩
    have left : ring.outstanding.filter (fun entry => entry.1 ≠ ring.dmaHead) = rest := by
      rw [entries, List.filter_cons_of_neg (by simp), List.filter_eq_self]
      intro entry held
      have different : entry.1 ≠ ring.dmaHead := by
        intro same
        exact fresh (same ▸ List.mem_map_of_mem held)
      simpa using different
    have notLater : ring.dmaHead ∉
        slots config.txDescNum (ring.dmaHead + 1) rest.length := others ▸ fresh
    have length : ring.outstanding.length = rest.length + 1 := by
      rw [entries, List.length_cons]
    have count := consistent.count
    have chain := consistent.chain
    have nextHead := (chain _ consistent.head).2
    have held := consistent.holds (ring.dmaHead, frame) (by simp [entries])
    simp only [left] at sends
    cases sends
    constructor
    · simp only [nextHead]
      exact Nat.mod_lt _ config.positive
    · simp only
      omega
    · simp only [nextHead, slots_mod]
      exact others
    · simp only [nextHead, consistent.tailAt, length, Nat.mod_add_mod]
      rw [Nat.add_right_comm, Nat.add_assoc]
    · intro slot inRing
      by_cases isHead : slot = ring.dmaHead
      · subst slot
        simpa using chain _ inRing
      · simpa [isHead] using chain slot inRing
    · intro slot inRing
      simp only [nextHead, slots_mod]
      by_cases isHead : slot = ring.dmaHead
      · subst slot
        simp [notLater]
      · have owner := consistent.owner slot inRing
        rw [length, slots_cons, Nat.mod_eq_of_lt consistent.head] at owner
        simpa [isHead] using owner
    · intro entry isHeld
      have different : entry.1 ≠ ring.dmaHead := by
        intro same
        exact fresh (same ▸ List.mem_map_of_mem isHeld)
      have before := consistent.holds entry (by simp [entries, isHeld])
      simpa [Holds, different] using before
    · intro entry isHeld
      exact consistent.short entry (by simp [entries, isHeld])
    · have sent := consistent.sent
      rw [entries, List.map_cons] at sent
      rcases held with ⟨-, size, bytes⟩
      simp only [size, bytes]
      rw [← sent, List.append_assoc, List.singleton_append]
  next => cases sends

/-- A frame that lies in the tail buffer is handed over. -/
theorem startSendPacket (consistent : Consistent config ring) {frame : List UInt8}
    (cpu : ring.tail.owner = false) (short : frame.length ≤ config.txBufferSize)
    (copied : load ring.memory ring.tail.buffer1Addr frame.length = frame) :
    Consistent config (ring.startSendPacket frame.length frame) := by
  have notFull : ring.outstanding.length ≠ config.txDescNum := by
    intro full
    rw [consistent.tail_owner_iff.mpr full] at cpu
    cases cpu
  have count := consistent.count
  have tailAt := consistent.tailAt
  have outside : ring.sLastTxDescriptor ∉
      slots config.txDescNum ring.dmaHead ring.outstanding.length := by
    rw [tailAt, next_mem_slots_iff config.positive count]
    exact notFull
  have chain := consistent.chain
  have nextTail := (chain _ consistent.tail_lt).2
  have grown : slots config.txDescNum ring.dmaHead (ring.outstanding.length + 1) =
      slots config.txDescNum ring.dmaHead ring.outstanding.length ++
        [ring.sLastTxDescriptor] := by
    rw [slots_succ, tailAt]
  constructor
  · exact consistent.head
  · simp only [TxRing.startSendPacket, List.length_append, List.length_singleton]
    omega
  · simp only [TxRing.startSendPacket, List.map_append, List.length_append,
      List.length_singleton, grown, consistent.window, List.map_cons, List.map_nil]
  · simp only [TxRing.startSendPacket, List.length_append, List.length_singleton,
      TxRing.tail, nextTail]
    rw [tailAt, Nat.mod_add_mod, Nat.add_assoc]
  · intro slot inRing
    by_cases isTail : slot = ring.sLastTxDescriptor
    · subst slot
      simpa [TxRing.startSendPacket, TxRing.tail] using chain _ inRing
    · simpa [TxRing.startSendPacket, isTail] using chain slot inRing
  · intro slot inRing
    simp only [TxRing.startSendPacket, List.length_append, List.length_singleton, grown,
      List.mem_append, List.mem_singleton]
    by_cases isTail : slot = ring.sLastTxDescriptor
    · subst slot
      simp
    · simpa [isTail] using consistent.owner slot inRing
  · intro entry held
    simp only [TxRing.startSendPacket, List.mem_append, List.mem_singleton] at held
    rcases held with old | rfl
    · have different : entry.1 ≠ ring.sLastTxDescriptor := by
        intro same
        apply outside
        rw [← same, ← consistent.window]
        exact List.mem_map_of_mem old
      simpa [Holds, TxRing.startSendPacket, different] using consistent.holds entry old
    · have size : (BitVec.ofNat 11 frame.length).toNat = frame.length := by
        rw [BitVec.toNat_ofNat, Nat.mod_eq_of_lt (Nat.lt_of_le_of_lt short config.sized)]
      refine ⟨by simp [TxRing.startSendPacket], ?_, ?_⟩
      · simpa [TxRing.startSendPacket] using size
      · simpa [TxRing.startSendPacket] using copied
  · intro entry held
    simp only [TxRing.startSendPacket, List.mem_append, List.mem_singleton] at held
    rcases held with old | rfl
    · exact consistent.short entry old
    · exact short
  · simp only [TxRing.startSendPacket, List.map_append, List.map_cons, List.map_nil]
    rw [← consistent.sent, List.append_assoc]

end Consistent

theorem init_consistent (config : TxConfig) (desc : Nat → GmacDes TxView)
    (memory : Nat → UInt8) : Consistent config (init config desc memory) where
  head := config.positive
  count := Nat.zero_le _
  window := rfl
  tailAt := (Nat.zero_mod _).symm
  chain := by
    intro slot inRing
    simp [init, hwGmacInitTxDescriptor, inRing, ← next_eq_mod inRing]
  owner := by
    intro slot inRing
    simp [init, hwGmacInitTxDescriptor, inRing]
  holds := by
    intro entry held
    cases held
  short := by
    intro entry held
    cases held
  sent := rfl

end TxRing

end SunWise.Gmac
