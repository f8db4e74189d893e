import SunWise.Gmac.Endianness
import SunWise.Gmac.RxRing
import SunWise.Gmac.TxRing

/-!
# The fields of descriptors in memory

What the words of a descriptor hold, field by field, and the functions on words as the
functions on fields that the rings are modelled with.
-/

namespace SunWise.Gmac

open Library

/-- A bit-field of one bit. -/
def flag (field : BitField) (word : UInt32) : Bool :=
  field.get word ≠ 0

/-- A bit-field of more bits. -/
def number (width : Nat) (field : BitField) (word : UInt32) : BitVec width :=
  (field.get word).toBitVec.setWidth width

/-- The second word as `tx`. -/
def txView (word : UInt32) : TxView where
  buffer1Size := number 11 (txPlace .little .buffer1Size) word
  buffer2Size := number 11 (txPlace .little .buffer2Size) word
  ttse := flag (txPlace .little .ttse) word
  dp := flag (txPlace .little .dp) word
  tch := flag (txPlace .little .tch) word
  ter := flag (txPlace .little .ter) word
  dc := flag (txPlace .little .dc) word
  cic := number 2 (txPlace .little .cic) word
  fs := flag (txPlace .little .fs) word
  ls := flag (txPlace .little .ls) word
  ic := flag (txPlace .little .ic) word

/-- The second word as `rx`. -/
def rxView (word : UInt32) : RxView where
  buffer1Size := number 11 (rxPlace .little .buffer1Size) word
  buffer2Size := number 11 (rxPlace .little .buffer2Size) word
  reserved2 := number 2 (rxPlace .little .reserved2) word
  rch := flag (rxPlace .little .rch) word
  rer := flag (rxPlace .little .rer) word
  reserved1 := number 5 (rxPlace .little .reserved1) word
  dic := flag (rxPlace .little .dic) word

/-- The descriptor with the fields of these words, in an array that starts at `base`. -/
def DesWords.toDes {View : Type} (words : DesWords) (base : Nat) (view : UInt32 → View) :
    GmacDes View where
  owner := flag (desPlace .little .owner) words.control
  status := number 31 (desPlace .little .status) words.control
  view := view words.view
  buffer1Addr := words.buffer1Addr.toNat
  next := (words.next.toNat - base) / 16

section Assignment

variable {field other : BitField} {word value : UInt32} {width : Nat}

theorem number_set (fits : field.offset + width ≤ 32) (same : field.width = width) :
    number width field (field.set word value) = BitVec.ofNat width value.toNat := by
  rw [number, BitField.get_set_self _ _ _ (same ▸ fits), UInt32.toBitVec_ofBitVec,
    ← UInt32.toNat_toBitVec, BitVec.ofNat_toNat]
  apply BitVec.eq_of_getLsbD_eq
  intro index inside
  have short : index < 32 := by omega
  simp [BitField.getLsbD_mask, inside, short, same]

theorem flag_set_apart (apart : field.offset + field.width ≤ other.offset ∨
      other.offset + other.width ≤ field.offset) :
    flag other (field.set word value) = flag other word := by
  rw [flag, BitField.get_set_apart _ _ _ apart, flag]

theorem number_set_apart (apart : field.offset + field.width ≤ other.offset ∨
      other.offset + other.width ≤ field.offset) :
    number width other (field.set word value) = number width other word := by
  rw [number, BitField.get_set_apart _ _ _ apart, number]

end Assignment

namespace DescriptorArray

variable {array : DescriptorArray} {order : ByteOrder} {memory : Nat → UInt8}
  {control view : UInt32}

theorem loadDesc_ringWords {i : Nat} (inside : i < array.num.toNat) :
    loadDesc order (ByteOrder.little.writeAll memory array.descriptor.toNat
        (ringWords control view array.descriptor array.num array.pbuf array.len))
      (array.place i) =
      { control := control
        view := view
        buffer1Addr := array.pbuf + .ofNat i * array.len
        next := ringNext array.descriptor array.num.toNat i } := by
  have word (offset : Nat) (short : offset < 4) :=
    @dmaWord_ringWords memory array control view i offset inside short
  have words (memory : Nat → UInt8) (pointer : Nat) : loadDesc .little memory pointer =
      { control := dmaWord memory (pointer + 4 * 0)
        view := dmaWord memory (pointer + 4 * 1)
        buffer1Addr := dmaWord memory (pointer + 4 * 2)
        next := dmaWord memory (pointer + 4 * 3) } := rfl
  rw [loadDesc_order, words, word 0 (by decide), word 1 (by decide), word 2 (by decide),
    word 3 (by decide)]
  rfl

theorem ringNext_index {i : Nat} (inside : i < array.num.toNat) :
    ((ringNext array.descriptor array.num.toNat i).toNat - array.descriptor.toNat) / 16 =
      if i + 1 = array.num.toNat then 0 else i + 1 := by
  rw [ringNext_toNat inside, next_eq_mod inside, place, Nat.add_sub_cancel_left,
    Nat.mul_div_cancel_left _ (by decide)]

/-- `HW_GMAC_InitTxDescriptor` on bytes and on fields. -/
theorem toDes_initTx (descriptor : Nat → GmacDes TxView) {i : Nat}
    (inside : i < array.num.toNat) :
    (loadDesc order (initTxDescriptorBytes order memory array.descriptor array.num array.pbuf
        array.len) (array.place i)).toDes array.descriptor.toNat txView =
      hwGmacInitTxDescriptor descriptor array.num.toNat array.pbuf.toNat array.len.toNat i := by
  have owner : flag (desPlace .little .owner) 0 = false := by decide
  have status : number 31 (desPlace .little .status) 0 = 0 := by decide
  have view : txView txInitView =
      { buffer1Size := 0, buffer2Size := 0, ttse := false, dp := false, tch := true
        ter := false, dc := false, cic := 0, fs := false, ls := false, ic := false } := by
    decide
  rw [initTxDescriptorBytes_words, loadDesc_ringWords inside, hwGmacInitTxDescriptor,
    if_pos inside, DesWords.toDes, ringNext_index inside, buffer_toNat inside, owner, status,
    view]

theorem rxView_rxInitView (len : UInt32) : rxView (rxInitView true len) =
    { buffer1Size := BitVec.ofNat 11 len.toNat, buffer2Size := BitVec.ofNat 11 len.toNat
      reserved2 := 0, rch := true, rer := false, reserved1 := 0, dic := false } := by
  simp (disch := decide) only [rxView, rxInitView, flag_set_apart, number_set_apart,
    number_set]
  congr

/-- `HW_GMAC_InitRxDescriptor` on bytes and on fields. -/
theorem toDes_initRx (descriptor : Nat → GmacDes RxView) {i : Nat}
    (inside : i < array.num.toNat) :
    (loadDesc order (initRxDescriptorBytes order true memory array.descriptor array.num
        array.pbuf array.len) (array.place i)).toDes array.descriptor.toNat rxView =
      hwGmacInitRxDescriptor descriptor array.num.toNat array.pbuf.toNat array.len.toNat i := by
  have owner : flag (desPlace .little .owner) rxInitControl = true := by decide
  have status : number 31 (desPlace .little .status) rxInitControl = rxStatusReset := by decide
  rw [initRxDescriptorBytes_words, loadDesc_ringWords inside, hwGmacInitRxDescriptor,
    if_pos inside, DesWords.toDes, ringNext_index inside, buffer_toNat inside, owner, status,
    rxView_rxInitView]

end DescriptorArray

variable {order : ByteOrder} {memory : Nat → UInt8} {base : Nat}

theorem loadDesc_pushDesc (pointer : Nat) (words : DesWords) :
    loadDesc order (pushDesc order memory pointer words) pointer = words := by
  have word (offset : Nat) (short : offset < 4) := @ByteOrder.read_writeAll .little memory pointer
    [words.control, words.view, words.buffer1Addr, words.next] offset short
  have loaded (memory : Nat → UInt8) : loadDesc .little memory pointer =
      { control := dmaWord memory (pointer + 4 * 0)
        view := dmaWord memory (pointer + 4 * 1)
        buffer1Addr := dmaWord memory (pointer + 4 * 2)
        next := dmaWord memory (pointer + 4 * 3) } := rfl
  rw [pushDesc, writeAll_swapData, loadDesc_order, loaded]
  simp only [dmaWord, word 0 (by decide), word 1 (by decide), word 2 (by decide),
    word 3 (by decide)]
  rfl

theorem flag_set_one {field : BitField} {word : UInt32} (fits : field.offset + 1 ≤ 32)
    (same : field.width = 1) : flag field (field.set word 1) = true := by
  have mask : field.mask = 1 := by rw [BitField.mask, same]; rfl
  rw [flag, BitField.get_set_self _ _ _ (same ▸ fits), mask]
  rfl

theorem pollDemand_memory (state : DescriptorState) : state.pollDemand.memory = state.memory := by
  rw [DescriptorState.pollDemand]
  split <;> rfl

section Ring

variable {ring : TxRing} {state : DescriptorState}
  (tail : ring.tail = (loadDesc order state.memory state.sLastTxDescriptor.toNat).toDes base txView)
include tail

/-- `HW_GMAC_GetSendPacket` on words and on the ring. -/
theorem getSendPacket_eq :
    ring.getSendPacket = (hwGmacGetSendPacket order state true).2.map UInt32.toNat := by
  rw [TxRing.getSendPacket, tail, hwGmacGetSendPacket, desPlace_order]
  by_cases owner : (desPlace .little .owner).get
      (loadDesc order state.memory state.sLastTxDescriptor.toNat).control = 0
  · simp [DesWords.toDes, flag, owner]
  · simp [DesWords.toDes, flag, owner]

/-- `HW_GMAC_StartSendPacket` on words and on the ring. -/
theorem startSendPacket_eq (len : UInt32) (frame : List UInt8) :
    (ring.startSendPacket len.toNat frame).desc ring.sLastTxDescriptor =
      (loadDesc order (hwGmacStartSendPacket order state len).memory
        state.sLastTxDescriptor.toNat).toDes base txView := by
  have memory : (hwGmacStartSendPacket order state len).memory = pushDesc order state.memory
      state.sLastTxDescriptor.toNat _ := pollDemand_memory _
  have stored : (ring.startSendPacket len.toNat frame).desc ring.sLastTxDescriptor =
      { ring.tail with
        owner := true
        view := { ring.tail.view with
          buffer1Size := BitVec.ofNat 11 len.toNat, cic := 3, fs := true, ls := true } } :=
    Function.update_self _ _ _
  rw [memory, loadDesc_pushDesc, stored, tail]
  simp (disch := decide) only [DesWords.toDes, txView, desPlace_order, txPlace_order,
    flag_set_one, flag_set_apart, number_set_apart, number_set]
  rfl

end Ring

theorem statusBit_iff (words : DesWords) {bit : Nat} (small : bit < 31) :
    (words.toDes base rxView).status.getLsbD bit ↔
      (desPlace .little .status).get words.control &&& .ofBitVec (.twoPow 32 bit) ≠ 0 := by
  have inWord : bit < 32 := Nat.lt_succ_of_lt small
  have isBit : BitVec.twoPow 32 bit ≠ 0 := by
    intro none
    have found := congrArg (BitVec.getLsbD · bit) none
    simp [inWord] at found
  rw [DesWords.toDes, number, BitVec.getLsbD_setWidth, ne_eq, ← UInt32.toBitVec_inj,
    UInt32.toBitVec_and, UInt32.toBitVec_ofBitVec, BitVec.and_twoPow]
  cases ((desPlace .little .status).get words.control).toBitVec.getLsbD bit with
  | false => simp
  | true => simpa [small] using isBit

theorem first_iff (words : DesWords) : (words.toDes base rxView).first ↔
    (desPlace .little .status).get words.control &&& (1 : UInt32) <<< 9 ≠ 0 :=
  statusBit_iff words (by decide)

theorem last_iff (words : DesWords) : (words.toDes base rxView).last ↔
    (desPlace .little .status).get words.control &&& (1 : UInt32) <<< 8 ≠ 0 :=
  statusBit_iff words (by decide)

theorem rxLength_eq (words : DesWords) : (words.toDes base rxView).rxLength =
    (gmacGetRxLength ((desPlace .little .status).get words.control)).toNat := by
  have bits (index : Nat) : (((words.toDes base rxView).status >>> 16) &&& 0x3fff).getLsbD index =
      (gmacGetRxLength ((desPlace .little .status).get words.control)).toBitVec.getLsbD index := by
    have mask (width : Nat) (wide : 14 ≤ width) : (BitVec.ofNat width 0x3fff).getLsbD index =
        decide (index < 14) := by
      have ones : (0x3fff : Nat) = 2 ^ 14 - 1 := rfl
      rw [BitVec.getLsbD_ofNat, ones, Nat.testBit_two_pow_sub_one, Bool.and_eq_right_iff_imp]
      intro low
      exact decide_eq_true ((of_decide_eq_true low).trans_le wide)
    have narrow := mask 31 (by decide)
    have whole := mask 32 (by decide)
    simp only [DesWords.toDes, number, gmacGetRxLength, UInt32.toBitVec_and, BitVec.getLsbD_and]
    by_cases low : index < 14
    · have inStatus : 16 + index < 31 := by omega
      simp [inStatus, narrow, whole]
    · simp [narrow, whole, low]
  apply Nat.eq_of_testBit_eq
  intro index
  rw [GmacDes.rxLength, BitVec.testBit_toNat, bits]
  exact (BitVec.testBit_toNat _).symm

theorem gmacGetRxLength_lt (status : UInt32) : (gmacGetRxLength status).toNat < 2 ^ 14 := by
  rw [gmacGetRxLength, UInt32.toNat_and]
  exact Nat.and_lt_two_pow _ (by decide)

/-- `HW_GMAC_GetRecvPacket` on words and on the ring, while the length does not wrap. -/
theorem getRecvPacket_eq {ring : RxRing} {state : DescriptorState}
    (current : ring.current =
      (loadDesc order state.memory state.sLastRxDescriptor.toNat).toDes base rxView)
    (total : ring.rxBufferTotalLen = state.rxBufferTotalLen.toNat)
    (room : state.rxBufferTotalLen.toNat + 2 ^ 14 ≤ 2 ^ 32) :
    ring.getRecvPacket.1 = (hwGmacGetRecvPacket order state).1.toNat := by
  have owner : ring.current.owner = flag (desPlace .little .owner)
      (loadDesc order state.memory state.sLastRxDescriptor.toNat).control := by rw [current]; rfl
  have first := @first_iff base (loadDesc order state.memory state.sLastRxDescriptor.toNat)
  have last := @last_iff base (loadDesc order state.memory state.sLastRxDescriptor.toNat)
  have length := @rxLength_eq base (loadDesc order state.memory state.sLastRxDescriptor.toNat)
  rw [← current] at first last length
  rw [hwGmacGetRecvPacket, @desPlace_order order .owner, @desPlace_order order .status]
  cases dma : flag (desPlace .little .owner)
      (loadDesc order state.memory state.sLastRxDescriptor.toNat).control with
  | true =>
      rw [RxRing.getRecvPacket_dma (owner.trans dma), if_pos (of_decide_eq_true dma)]
      rfl
  | false =>
      have cpu := of_decide_eq_false dma
      rw [(RxRing.getRecvPacket_cpu (owner.trans dma)).2, (RxRing.getRecvPacket_cpu
        (owner.trans dma)).1, if_neg cpu]
      extract_lets status started count added len
      have short := gmacGetRxLength_lt status
      have sum : (if ring.current.first then ring.beginFrame
          else ring).addDescriptor.rxBufferTotalLen = added.rxBufferTotalLen.toNat := by
        have summed : added.rxBufferTotalLen =
            started.rxBufferTotalLen + gmacGetRxLength status := rfl
        rw [summed, UInt32.toNat_add]
        by_cases isFirst : status &&& (1 : UInt32) <<< 9 ≠ 0
        · have begun : started.rxBufferTotalLen = 0 :=
            congrArg DescriptorState.rxBufferTotalLen (if_pos isFirst)
          have zero : (0 : UInt32).toNat = 0 := rfl
          rw [if_pos (first.mpr isFirst), begun, zero, Nat.mod_eq_of_lt (by omega), ← length]
          rfl
        · have goesOn : started.rxBufferTotalLen = state.rxBufferTotalLen :=
            congrArg DescriptorState.rxBufferTotalLen (if_neg isFirst)
          rw [if_neg fun found => isFirst (first.mp found), goesOn, Nat.mod_eq_of_lt (by omega),
            ← length, ← total]
          rfl
      change _ = len.toNat
      rw [sum]
      by_cases isLast : status &&& (1 : UInt32) <<< 8 ≠ 0
      · rw [if_pos (last.mpr isLast)]
        exact congrArg UInt32.toNat (if_pos isLast).symm
      · rw [if_neg fun found => isLast (last.mp found)]
        have nothing : len = 0 := if_neg isLast
        rw [nothing]
        rfl

/-- A turn of `HW_GMAC_StopRecvPacket` on words and on fields. -/
theorem toDes_stopRecv (pointer : UInt32) :
    (loadDesc order (stopRecvLoop order memory pointer 1) pointer.toNat).toDes base rxView =
      { (loadDesc order memory pointer.toNat).toDes base rxView with
        owner := true
        status := rxStatusReset } := by
  rw [stopRecvLoop, stopRecvLoop, loadDesc_pushDesc]
  simp (disch := decide) only [DesWords.toDes, desPlace_order, flag_set_one, flag_set_apart,
    number_set]
  rfl

end SunWise.Gmac
