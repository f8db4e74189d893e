import SunWise.Gmac.Descriptor
import SunWise.Library.Memory
import SunWise.Library.Ring

/-!
# Receive ring

The descriptors, the buffers, the read pointer and the frame under assembly that the
receive functions of `drv_gmac.c` work on, and the DMA that fills descriptors in ring
order.
-/

namespace SunWise.Gmac

open Library

/-- The receive part of `DeviceGmacConfig_t`. The lists `rx_buffer_list` and
`rx_buffer_len` have `GMAC_DESCRIPTOR_NUM` places, which is also the number of
descriptors. -/
structure RxConfig where
  rxDescNum : Nat
  rxBufferSize : Nat
  rxBuffer : Nat
  positive : 0 < rxDescNum
  sized : rxBufferSize < 2 ^ 11

/-- The sizes of `g_DeviceGmacDefaultConfig`. -/
def defaultRxConfig (rxBuffer : Nat) : RxConfig where
  rxDescNum := gmacDescriptorNum
  rxBufferSize := gmacBufferSize
  rxBuffer := rxBuffer
  positive := gmacDescriptorNum_pos
  sized := gmacBufferSize_lt

namespace GmacDes

variable (descriptor : GmacDes RxView)

/-- `status & BIT(9)`: the descriptor holds the start of a frame. -/
def first : Bool :=
  descriptor.status.getLsbD 9

/-- `status & BIT(8)`: the descriptor holds the end of a frame. -/
def last : Bool :=
  descriptor.status.getLsbD 8

/-- `GMAC_GET_RX_LENGTH(status)`. -/
def rxLength : Nat :=
  ((descriptor.status >>> 16) &&& 0x3fff).toNat

end GmacDes

/-- A descriptor as the DMA has completed it. -/
structure Fill where
  slot : Nat
  first : Bool
  last : Bool
  bytes : List UInt8
  deriving DecidableEq, Repr

/-- The receive side. The last three fields are not part of the program: which
descriptors the driver has consumed since it handed them to the DMA, what the DMA has
completed, and the descriptors the driver has given back. -/
structure RxRing where
  desc : Nat → GmacDes RxView
  sLastRxDescriptor : Nat
  rxDescStart : Option Nat
  rxBufferList : Nat → Nat
  rxBufferLen : Nat → Nat
  rxBufferTotalLen : Nat
  rxBufferCount : Nat
  memory : Nat → UInt8
  dmaHead : Nat
  consumed : Nat → Bool
  filled : List Fill
  returned : List Nat

namespace RxRing

/-- The descriptor at the read pointer. -/
def current (ring : RxRing) : GmacDes RxView :=
  ring.desc ring.sLastRxDescriptor

/-- The frame under assembly starts at the read pointer. -/
def beginFrame (ring : RxRing) : RxRing :=
  { ring with
    rxDescStart := some ring.sLastRxDescriptor
    rxBufferTotalLen := 0
    rxBufferCount := 0 }

/-- The descriptor at the read pointer is added to the frame under assembly. -/
def addDescriptor (ring : RxRing) : RxRing :=
  { ring with
    rxBufferList :=
      Function.update ring.rxBufferList ring.rxBufferCount ring.current.buffer1Addr
    rxBufferLen :=
      Function.update ring.rxBufferLen ring.rxBufferCount ring.current.rxLength
    rxBufferCount := ring.rxBufferCount + 1
    rxBufferTotalLen := ring.rxBufferTotalLen + ring.current.rxLength
    sLastRxDescriptor := ring.current.next
    consumed := Function.update ring.consumed ring.sLastRxDescriptor true }

/-- `HW_GMAC_GetRecvPacket`. -/
def getRecvPacket (ring : RxRing) : Nat × RxRing :=
  if ring.current.owner then (0, ring)
  else
    let next := (if ring.current.first then ring.beginFrame else ring).addDescriptor
    (if ring.current.last then next.rxBufferTotalLen else 0, next)

/-- A descriptor that the CPU owns is added to a frame. -/
theorem getRecvPacket_cpu {ring : RxRing} (cpu : ring.current.owner = false) :
    ring.getRecvPacket.2 =
        (if ring.current.first then ring.beginFrame else ring).addDescriptor ∧
      ring.getRecvPacket.1 =
        if ring.current.last then ring.getRecvPacket.2.rxBufferTotalLen else 0 := by
  simp [getRecvPacket, cpu]

theorem getRecvPacket_dma {ring : RxRing} (dma : ring.current.owner = true) :
    ring.getRecvPacket = (0, ring) :=
  if_pos dma

/-- What neither starting a frame nor adding to it changes is not changed by a read. -/
theorem getRecvPacket_same {Field : Type} (field : RxRing → Field)
    (start : ∀ ring : RxRing, field ring.beginFrame = field ring)
    (add : ∀ ring : RxRing, field ring.addDescriptor = field ring) (ring : RxRing) :
    field ring.getRecvPacket.2 = field ring := by
  cases owner : ring.current.owner with
  | true => rw [getRecvPacket_dma owner]
  | false =>
      rw [(getRecvPacket_cpu owner).1, add]
      split
      · exact start ring
      · rfl

@[simp] theorem getRecvPacket_filled (ring : RxRing) :
    ring.getRecvPacket.2.filled = ring.filled :=
  getRecvPacket_same RxRing.filled (fun _ => rfl) (fun _ => rfl) ring

@[simp] theorem getRecvPacket_returned (ring : RxRing) :
    ring.getRecvPacket.2.returned = ring.returned :=
  getRecvPacket_same RxRing.returned (fun _ => rfl) (fun _ => rfl) ring

@[simp] theorem getRecvPacket_desc (ring : RxRing) :
    ring.getRecvPacket.2.desc = ring.desc :=
  getRecvPacket_same RxRing.desc (fun _ => rfl) (fun _ => rfl) ring

theorem getRecvPacket_consumed {ring : RxRing} (cpu : ring.current.owner = false) :
    ring.getRecvPacket.2.consumed =
      Function.update ring.consumed ring.sLastRxDescriptor true := by
  rw [(getRecvPacket_cpu cpu).1]
  split <;> rfl

/-- One turn of the loop of `HW_GMAC_StopRecvPacket`. -/
def giveBack (ring : RxRing) (descriptor : Nat) : RxRing :=
  { ring with
    desc := Function.update ring.desc descriptor
      { ring.desc descriptor with owner := true, status := rxStatusReset }
    consumed := Function.update ring.consumed descriptor false
    returned := ring.returned ++ [descriptor] }

/-- The descriptor at the head of the DMA once it is completed. -/
def completed (ring : RxRing) (status : BitVec 31) : GmacDes RxView :=
  { ring.desc ring.dmaHead with owner := false, status }

/-- What the DMA completes at its head. -/
def entry (ring : RxRing) (status : BitVec 31) (bytes : List UInt8) : Fill where
  slot := ring.dmaHead
  first := (ring.completed status).first
  last := (ring.completed status).last
  bytes := bytes

/-- The ring once the DMA has written the bytes to the buffer and left a status word. -/
def complete (ring : RxRing) (status : BitVec 31) (bytes : List UInt8) : RxRing :=
  { ring with
    desc := Function.update ring.desc ring.dmaHead (ring.completed status)
    memory := store ring.memory (ring.completed status).buffer1Addr bytes
    dmaHead := (ring.completed status).next
    filled := ring.filled ++ [ring.entry status bytes] }

/-- The DMA completes the descriptor at its head, if it owns it. -/
def fill (ring : RxRing) (status : BitVec 31) (bytes : List UInt8) : Option RxRing :=
  if (ring.desc ring.dmaHead).owner then some (ring.complete status bytes) else none

/-- The ring after `HW_GMAC_InitRxDescriptor`. -/
def init (config : RxConfig) (desc : Nat → GmacDes RxView) (memory : Nat → UInt8) :
    RxRing where
  desc := hwGmacInitRxDescriptor desc config.rxDescNum config.rxBuffer
    config.rxBufferSize
  sLastRxDescriptor := 0
  rxDescStart := none
  rxBufferList := fun _ => 0
  rxBufferLen := fun _ => 0
  rxBufferTotalLen := 0
  rxBufferCount := 0
  memory := memory
  dmaHead := 0
  consumed := fun _ => false
  filled := []
  returned := []

/-- The CPU owns the descriptor and has not consumed it yet. -/
def Waiting (ring : RxRing) (slot : Nat) : Prop :=
  (ring.desc slot).owner = false ∧ ring.consumed slot = false

/-- The CPU owns the descriptor and has consumed it. -/
def Held (ring : RxRing) (slot : Nat) : Prop :=
  (ring.desc slot).owner = false ∧ ring.consumed slot = true

/-- The descriptor is one of the `rx_buffer_count` descriptors from `rx_desc_start` on. -/
def InFrame (config : RxConfig) (ring : RxRing) (slot : Nat) : Prop :=
  ∃ start, ring.rxDescStart = some start ∧
    slot ∈ slots config.rxDescNum start ring.rxBufferCount

/-- The descriptors form a ring and have buffers side by side. -/
structure Wired (config : RxConfig) (ring : RxRing) : Prop where
  next : ∀ slot < config.rxDescNum,
    (ring.desc slot).next = (slot + 1) % config.rxDescNum
  address : ∀ slot < config.rxDescNum,
    (ring.desc slot).buffer1Addr = config.rxBuffer + slot * config.rxBufferSize

theorem fill_eq_some_iff {ring after : RxRing} {status : BitVec 31}
    {bytes : List UInt8} :
    ring.fill status bytes = some after ↔
      (ring.desc ring.dmaHead).owner = true ∧ ring.complete status bytes = after := by
  simp [fill]

namespace Wired

variable {config : RxConfig} {ring : RxRing}

theorem of_same {after : RxRing} (wired : Wired config ring)
    (next : ∀ slot, (after.desc slot).next = (ring.desc slot).next)
    (address : ∀ slot, (after.desc slot).buffer1Addr = (ring.desc slot).buffer1Addr) :
    Wired config after where
  next := fun slot inRing => (next slot).trans (wired.next slot inRing)
  address := fun slot inRing => (address slot).trans (wired.address slot inRing)

theorem complete (wired : Wired config ring) (status : BitVec 31)
    (bytes : List UInt8) : Wired config (ring.complete status bytes) := by
  apply wired.of_same
  all_goals
    intro slot
    by_cases isHead : slot = ring.dmaHead
    · subst slot
      simp [RxRing.complete, RxRing.completed]
    · simp [RxRing.complete, isHead]

theorem giveBack (wired : Wired config ring) (descriptor : Nat) :
    Wired config (ring.giveBack descriptor) := by
  apply wired.of_same
  all_goals
    intro slot
    by_cases same : slot = descriptor
    · subst slot
      simp [RxRing.giveBack]
    · simp [RxRing.giveBack, same]

end Wired

section Unread

variable {config : RxConfig} {ring : RxRing}

theorem unread_complete
    (unread : ∀ slot < config.rxDescNum,
      (ring.desc slot).owner = true → ring.consumed slot = false)
    (status : BitVec 31) (bytes : List UInt8) :
    ∀ slot < config.rxDescNum, ((ring.complete status bytes).desc slot).owner = true →
      (ring.complete status bytes).consumed slot = false := by
  intro slot inRing
  by_cases isHead : slot = ring.dmaHead
  · subst slot
    simp [complete, completed]
  · simpa [complete, isHead] using unread slot inRing

theorem unread_giveBack
    (unread : ∀ slot < config.rxDescNum,
      (ring.desc slot).owner = true → ring.consumed slot = false) (descriptor : Nat) :
    ∀ slot < config.rxDescNum, ((ring.giveBack descriptor).desc slot).owner = true →
      (ring.giveBack descriptor).consumed slot = false := by
  intro slot inRing
  by_cases same : slot = descriptor
  · subst slot
    simp [giveBack]
  · simpa [giveBack, same] using unread slot inRing

theorem unread_addDescriptor
    (unread : ∀ slot < config.rxDescNum,
      (ring.desc slot).owner = true → ring.consumed slot = false)
    (cpu : ring.current.owner = false) :
    ∀ slot < config.rxDescNum, (ring.addDescriptor.desc slot).owner = true →
      ring.addDescriptor.consumed slot = false := by
  intro slot inRing dma
  have isOther : slot ≠ ring.sLastRxDescriptor := by
    rintro rfl
    change ring.current.owner = true at dma
    rw [cpu] at dma
    cases dma
  simpa [addDescriptor, isOther] using unread slot inRing dma

end Unread

theorem init_wired (config : RxConfig) (desc : Nat → GmacDes RxView)
    (memory : Nat → UInt8) : Wired config (init config desc memory) where
  next := by
    intro slot inRing
    simp [init, hwGmacInitRxDescriptor, inRing, ← next_eq_mod inRing]
  address := by
    intro slot inRing
    simp [init, hwGmacInitRxDescriptor, inRing]

end RxRing

end SunWise.Gmac
