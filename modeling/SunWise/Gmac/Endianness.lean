import Mathlib.Tactic.IntervalCases
import SunWise.Gmac.DescriptorWords
import SunWise.Library.Segments

/-!
# Descriptors in either byte order

A driver that is built for the other `BYTE_ORDER` leaves the same bytes in memory, whatever
it is called for and whatever the DMA does in between.  The rings that it sets up are closed.
-/

namespace SunWise.Gmac

open Library

/-- A swapped word has its bytes in the order the DMA takes. -/
theorem bytes_swapData (order : ByteOrder) (data : UInt32) :
    order.bytes (swapData order data) = littleEndian data := by
  cases order with
  | little => rfl
  | big =>
      simp only [ByteOrder.bytes, swapData, bigEndian, littleEndian, List.reverse_cons,
        List.reverse_nil, List.nil_append, List.cons_append, List.cons.injEq, and_true]
      refine ⟨?_, ?_, ?_, ?_⟩ <;>
        (apply UInt8.eq_of_toBitVec_eq
         apply BitVec.eq_of_getLsbD_eq
         intro index inside
         interval_cases index <;> simp)

theorem swapData_swapData (order : ByteOrder) (data : UInt32) :
    swapData order (swapData order data) = data := by
  cases order with
  | little => rfl
  | big =>
      apply littleEndian_injective
      calc littleEndian (swapData .big (swapData .big data))
          = (ByteOrder.big.bytes (swapData .big (swapData .big data))).reverse := rfl
        _ = (littleEndian (swapData .big data)).reverse := by rw [bytes_swapData]
        _ = ByteOrder.big.bytes (swapData .big data) := List.reverse_reverse _
        _ = littleEndian data := bytes_swapData .big data

variable {order : ByteOrder} {memory : Nat → UInt8} {address : Nat}

theorem write_swapData (data : UInt32) :
    order.write memory address (swapData order data) =
      ByteOrder.little.write memory address data := by
  rw [ByteOrder.write, bytes_swapData]
  rfl

theorem swapData_read :
    swapData order (order.read memory address) = ByteOrder.little.read memory address := by
  have swapped : swapData order (ByteOrder.little.read memory address) =
      order.read memory address := by
    apply ByteOrder.bytes_injective
    rw [bytes_swapData, ByteOrder.bytes_read]
    exact ByteOrder.bytes_read .little memory address
  rw [← swapped, swapData_swapData]

theorem writeAll_swapData (words : List UInt32) :
    order.writeAll memory address (words.map (swapData order)) =
      ByteOrder.little.writeAll memory address words := by
  induction words generalizing memory address with
  | nil => rfl
  | cons word words ih =>
      rw [List.map_cons, ByteOrder.writeAll, write_swapData, ih]
      rfl

/-- `swap_desc` of words that the CPU has written. -/
theorem swapDesc_writeAll (words : List UInt32) :
    swapDesc order (order.writeAll memory address words) address words.length =
      ByteOrder.little.writeAll memory address words := by
  induction words generalizing memory address with
  | nil => rfl
  | cons word words ih =>
      rw [List.length_cons, swapDesc, ByteOrder.read_writeAll_head, ByteOrder.writeAll,
        ByteOrder.write_writeAll_before (Nat.le_refl _), ByteOrder.write_write,
        write_swapData, ih]
      rfl

theorem loadDesc_order (pointer : Nat) :
    loadDesc order memory pointer = loadDesc .little memory pointer := by
  simp only [loadDesc, swapData_read]

theorem pushDesc_order (pointer : Nat) (words : DesWords) :
    pushDesc order memory pointer words = pushDesc .little memory pointer words := by
  rw [pushDesc, pushDesc, writeAll_swapData, writeAll_swapData]

theorem desPlace_order (name : DesField) : desPlace order name = desPlace .little name :=
  ByteOrder.place_mirrored desFields rfl (by decide) rfl

theorem txPlace_order (name : TxField) : txPlace order name = txPlace .little name :=
  ByteOrder.place_mirrored txFields rfl (by decide) rfl

theorem rxPlace_order (name : RxField) : rxPlace order name = rxPlace .little name :=
  ByteOrder.place_mirrored rxFields rfl (by decide) rfl

/-- The words of descriptor `i` of a ring whose links are `next`. -/
def blockWords (control view pbuf len : UInt32) (next : Nat → UInt32) (i : Nat) :
    List UInt32 :=
  [control, view, pbuf + .ofNat i * len, next i]

/-- The link that a turn of the loop stores. -/
def turnNext (descriptor : UInt32) (i : Nat) : UInt32 :=
  .ofNat (descriptor.toNat + 16 * i + 16)

/-- The last link leads back to the first descriptor. -/
def ringNext (descriptor : UInt32) (num i : Nat) : UInt32 :=
  if i + 1 = num then descriptor else turnNext descriptor i

/-- The words of the descriptors of a ring. -/
def ringWords (control view descriptor num pbuf len : UInt32) : List UInt32 :=
  (List.range num.toNat).flatMap
    (blockWords control view pbuf len (ringNext descriptor num.toNat))

theorem blockWords_length (control view pbuf len : UInt32) (next : Nat → UInt32) (count : Nat) :
    ((List.range count).flatMap (blockWords control view pbuf len next)).length = 4 * count :=
  length_blocks (fun i => (rfl : (blockWords control view pbuf len next i).length = 4)) count

/-- The link of the last descriptor is the one that is stored again. -/
theorem set_last (control view descriptor pbuf len : UInt32) (last : Nat) :
    ((List.range (last + 1)).flatMap
        (blockWords control view pbuf len (turnNext descriptor))).set (4 * last + 3) descriptor =
      (List.range (last + 1)).flatMap
        (blockWords control view pbuf len (ringNext descriptor (last + 1))) := by
  have before := blockWords_length control view pbuf len (turnNext descriptor) last
  have others : (List.range last).flatMap (blockWords control view pbuf len
        (ringNext descriptor (last + 1))) =
      (List.range last).flatMap (blockWords control view pbuf len (turnNext descriptor)) := by
    apply List.flatMap_congr
    intro i inside
    have apart : i + 1 ≠ last + 1 := by
      have := List.mem_range.mp inside
      omega
    rw [blockWords, blockWords, ringNext, if_neg apart]
  rw [List.range_succ, List.flatMap_append, List.flatMap_append, others,
    List.set_append_right _ _ (by rw [before]; exact Nat.le_add_right _ _), before,
    Nat.add_sub_cancel_left]
  simp [blockWords, ringNext]

theorem store_zeros :
    store memory address (List.replicate 16 0) = order.writeAll memory address [0, 0, 0, 0] := by
  rw [ByteOrder.writeAll_eq_store]
  cases order <;> rfl

theorem assignField_writeAll {words : List UInt32} {index : Nat} (inside : index < words.length)
    (field : BitField) (value : UInt32) :
    assignField order (order.writeAll memory address words) (address + 4 * index) field value =
      order.writeAll memory address (words.set index (field.set words[index] value)) := by
  rw [assignField, ByteOrder.read_writeAll inside, ByteOrder.write_writeAll inside]

/-- The assignments to the bit-fields of a cleared descriptor give these words. -/
def Assigns (order : ByteOrder) (assign : (Nat → UInt8) → Nat → Nat → UInt8)
    (control view : UInt32) : Prop :=
  ∀ memory current, assign (order.writeAll memory current [0, 0, 0, 0]) current =
    order.writeAll memory current [control, view, 0, 0]

section Init

variable {assign : (Nat → UInt8) → Nat → Nat → UInt8} {control view : UInt32}
  (assigns : Assigns order assign control view) (descriptor num pbuf len : UInt32)
include assigns

theorem initTurn_words (i : Nat) :
    initTurn order assign descriptor pbuf len memory i =
      order.writeAll memory (descriptor.toNat + 16 * i)
        (blockWords control view pbuf len (turnNext descriptor) i) := by
  have third (current : Nat) (buffer : UInt32) :
      order.write (order.writeAll memory current [control, view, 0, 0]) (current + 8) buffer =
        order.writeAll memory current [control, view, buffer, 0] :=
    @ByteOrder.write_writeAll _ _ _ [control, view, 0, 0] 2 (by simp) buffer
  have fourth (current : Nat) (buffer next : UInt32) :
      order.write (order.writeAll memory current [control, view, buffer, 0]) (current + 12)
          next = order.writeAll memory current [control, view, buffer, next] :=
    @ByteOrder.write_writeAll _ _ _ [control, view, buffer, 0] 3 (by simp) next
  rw [initTurn, store_zeros, assigns, third, fourth]
  rfl

theorem initLoop_words (count : Nat) :
    (List.range count).foldl (initTurn order assign descriptor pbuf len) memory =
      order.writeAll memory descriptor.toNat ((List.range count).flatMap
        (blockWords control view pbuf len (turnNext descriptor))) := by
  induction count with
  | zero => rfl
  | succ count ih =>
      have place : descriptor.toNat + 4 * (4 * count) = descriptor.toNat + 16 * count := by omega
      rw [List.range_succ, List.foldl_append, ih, List.flatMap_append,
        ByteOrder.writeAll_append, blockWords_length, List.flatMap_singleton, place]
      exact initTurn_words assigns descriptor pbuf len count

theorem initDescriptors_words :
    initDescriptors order assign memory descriptor num pbuf len =
      ByteOrder.little.writeAll memory descriptor.toNat
        (ringWords control view descriptor num pbuf len) := by
  have positive : num > 0 ↔ 0 < num.toNat := UInt32.lt_iff_toNat_lt
  have length : (ringWords control view descriptor num pbuf len).length = 4 * num.toNat :=
    blockWords_length _ _ _ _ _ _
  rw [initDescriptors, initLoop_words assigns, ← length]
  cases count : num.toNat with
  | zero =>
      have none : ¬ num > 0 := by
        rw [positive, count]
        exact Nat.lt_irrefl 0
      rw [if_neg none, ringWords, count]
      rfl
  | succ last =>
      have some : num > 0 := positive.mpr (count ▸ Nat.succ_pos last)
      have place : descriptor.toNat + 16 * (last + 1 - 1) + 12 =
          descriptor.toNat + 4 * (4 * last + 3) := by omega
      rw [if_pos some, place, ByteOrder.write_writeAll, set_last, ← count]
      · exact swapDesc_writeAll _
      · rw [blockWords_length]
        omega

end Init

/-- `TCH` is set and everything else clear. -/
def txInitView : UInt32 := 0x01000000

/-- The DMA owns the descriptor, and its status is reset. -/
def rxInitControl : UInt32 := 0x80400300

def rxInitView (interrupt : Bool) (len : UInt32) : UInt32 :=
  let view := (rxPlace .little .dic).set 0 (if interrupt then 0 else 1)
  let view := (rxPlace .little .rch).set view 1
  let view := (rxPlace .little .buffer1Size).set view len
  (rxPlace .little .buffer2Size).set view len

theorem assignField_control (current : Nat) (control view : UInt32) (field : BitField)
    (value : UInt32) :
    assignField order (order.writeAll memory current [control, view, 0, 0]) current field value =
      order.writeAll memory current [field.set control value, view, 0, 0] :=
  @assignField_writeAll _ _ _ [control, view, 0, 0] 0 (by simp) field value

theorem assignField_view (current : Nat) (control view : UInt32) (field : BitField)
    (value : UInt32) :
    assignField order (order.writeAll memory current [control, view, 0, 0]) (current + 4) field
        value =
      order.writeAll memory current [control, field.set view value, 0, 0] :=
  @assignField_writeAll _ _ _ [control, view, 0, 0] 1 (by simp) field value

theorem assigns_tx : Assigns order (assignTx order) 0 txInitView := by
  intro memory current
  have view : (txPlace .little .tch).set
      ((txPlace .little .dc).set ((txPlace .little .ic).set 0 0) 0) 1 = txInitView := by decide
  simp only [assignTx, assignField_view, txPlace_order, view]

theorem assigns_rx (interrupt : Bool) (len : UInt32) :
    Assigns order (assignRx order interrupt len) rxInitControl (rxInitView interrupt len) := by
  intro memory current
  have control : (desPlace .little .status).set
      ((desPlace .little .owner).set 0 1) 0x00400300 = rxInitControl := by decide
  simp only [assignRx, assignField_control, assignField_view, desPlace_order, rxPlace_order,
    control]
  rfl

theorem initTxDescriptorBytes_words (descriptor num pbuf len : UInt32) :
    initTxDescriptorBytes order memory descriptor num pbuf len =
      ByteOrder.little.writeAll memory descriptor.toNat
        (ringWords 0 txInitView descriptor num pbuf len) :=
  initDescriptors_words assigns_tx descriptor num pbuf len

theorem initRxDescriptorBytes_words (interrupt : Bool) (descriptor num pbuf len : UInt32) :
    initRxDescriptorBytes order interrupt memory descriptor num pbuf len =
      ByteOrder.little.writeAll memory descriptor.toNat
        (ringWords rxInitControl (rxInitView interrupt len) descriptor num pbuf len) :=
  initDescriptors_words (assigns_rx interrupt len) descriptor num pbuf len

/-- A call of the driver, or what the DMA does to memory and to its own register. -/
inductive DescriptorCall where
  | initTx (descriptor num pbuf len : UInt32)
  | initRx (descriptor num pbuf len : UInt32)
  | getSend (pbuf : Bool)
  | startSend (len : UInt32)
  | getRecv
  | stopRecv
  | dma (update : (Nat → UInt8) → Nat → UInt8) (register5 : UInt32)

/-- What a call returns. -/
inductive DescriptorResult where
  | none
  | sent (result : Int) (buffer : Option UInt32)
  | received (length : UInt32)
  deriving DecidableEq, Repr

/-- A call of a driver that is built for `order`. -/
def descriptorStep (order : ByteOrder) (interrupt : Bool) (state : DescriptorState) :
    DescriptorCall → DescriptorResult × DescriptorState
  | .initTx descriptor num pbuf len =>
      (.none, { state with
        memory := initTxDescriptorBytes order state.memory descriptor num pbuf len })
  | .initRx descriptor num pbuf len =>
      (.none, { state with
        memory := initRxDescriptorBytes order interrupt state.memory descriptor num pbuf len })
  | .getSend pbuf =>
      let (result, buffer) := hwGmacGetSendPacket order state pbuf
      (.sent result buffer, state)
  | .startSend len => (.none, hwGmacStartSendPacket order state len)
  | .getRecv =>
      let (length, state) := hwGmacGetRecvPacket order state
      (.received length, state)
  | .stopRecv => (.none, hwGmacStopRecvPacket order state)
  | .dma update register5 =>
      (.none, { state with memory := update state.memory, register5 := register5 })

/-- A run, with what its calls return. -/
def descriptorRun (order : ByteOrder) (interrupt : Bool) (state : DescriptorState) :
    List DescriptorCall → List DescriptorResult × DescriptorState
  | [] => ([], state)
  | call :: calls =>
      let (result, state) := descriptorStep order interrupt state call
      let (results, state) := descriptorRun order interrupt state calls
      (result :: results, state)

theorem stopRecvLoop_order (memory : Nat → UInt8) (nextDescriptor : UInt32) (left : Nat) :
    stopRecvLoop order memory nextDescriptor left =
      stopRecvLoop .little memory nextDescriptor left := by
  induction left generalizing memory nextDescriptor with
  | zero => rfl
  | succ left ih =>
      rw [stopRecvLoop, stopRecvLoop, ih]
      simp only [loadDesc_order, pushDesc_order, desPlace_order]

/-- A call does the same in either order. -/
theorem descriptorStep_order (interrupt : Bool) (state : DescriptorState)
    (call : DescriptorCall) :
    descriptorStep order interrupt state call = descriptorStep .little interrupt state call := by
  cases call with
  | initTx descriptor num pbuf len =>
      simp only [descriptorStep, initTxDescriptorBytes_words]
  | initRx descriptor num pbuf len =>
      simp only [descriptorStep, initRxDescriptorBytes_words]
  | getSend pbuf =>
      simp only [descriptorStep, hwGmacGetSendPacket, loadDesc_order, desPlace_order]
  | startSend len =>
      simp only [descriptorStep, hwGmacStartSendPacket, loadDesc_order, pushDesc_order,
        desPlace_order, txPlace_order]
  | getRecv =>
      simp only [descriptorStep, hwGmacGetRecvPacket, loadDesc_order, desPlace_order]
  | stopRecv =>
      simp only [descriptorStep, hwGmacStopRecvPacket, stopRecvLoop_order]
  | dma update register5 => rfl

theorem descriptorRun_order (interrupt : Bool) (state : DescriptorState)
    (calls : List DescriptorCall) :
    descriptorRun order interrupt state calls = descriptorRun .little interrupt state calls := by
  induction calls generalizing state with
  | nil => rfl
  | cons call calls ih =>
      rw [descriptorRun, descriptorRun, descriptorStep_order]
      simp only [ih]

/-! ## Rings -/

/-- A word as the DMA reads it. -/
def dmaWord (memory : Nat → UInt8) (address : Nat) : UInt32 :=
  ByteOrder.little.read memory address

/-- The arguments of an initialisation: arrays of descriptors and of buffers that lie in the
address space. -/
structure DescriptorArray where
  descriptor : UInt32
  num : UInt32
  pbuf : UInt32
  len : UInt32
  nonempty : 0 < num.toNat
  descriptorsFit : descriptor.toNat + 16 * num.toNat < 2 ^ 32
  buffersFit : pbuf.toNat + num.toNat * len.toNat ≤ 2 ^ 32

namespace DescriptorArray

variable (array : DescriptorArray)

/-- The descriptors of two arrays are apart. -/
def Apart (other : DescriptorArray) : Prop :=
  array.descriptor.toNat + 16 * array.num.toNat ≤ other.descriptor.toNat ∨
    other.descriptor.toNat + 16 * other.num.toNat ≤ array.descriptor.toNat

def initTx : DescriptorCall :=
  .initTx array.descriptor array.num array.pbuf array.len

def initRx : DescriptorCall :=
  .initRx array.descriptor array.num array.pbuf array.len

/-- Where descriptor `i` is. -/
def place (i : Nat) : Nat :=
  array.descriptor.toNat + 16 * i

/-- The buffer of descriptor `i`. -/
def buffer (memory : Nat → UInt8) (i : Nat) : Nat :=
  (dmaWord memory (array.place i + 8)).toNat

/-- The DMA goes round all descriptors, and their buffers do not overlap. -/
structure Ring (memory : Nat → UInt8) : Prop where
  cycle : ∀ count, (fun pointer => (dmaWord memory (pointer + 12)).toNat)^[count]
    (array.place 0) = array.place (count % array.num.toNat)
  disjoint : ∀ first < array.num.toNat, ∀ second < array.num.toNat, first ≠ second →
    array.buffer memory first + array.len.toNat ≤ array.buffer memory second ∨
      array.buffer memory second + array.len.toNat ≤ array.buffer memory first

variable {array} {control view : UInt32}

theorem dmaWord_ringWords {i offset : Nat} (inside : i < array.num.toNat) (short : offset < 4) :
    dmaWord (ByteOrder.little.writeAll memory array.descriptor.toNat
        (ringWords control view array.descriptor array.num array.pbuf array.len))
      (array.place i + 4 * offset) =
      (blockWords control view array.pbuf array.len
        (ringNext array.descriptor array.num.toNat) i)[offset] := by
  have found := getElem?_blocks (fun i => (rfl : (blockWords control view array.pbuf array.len
    (ringNext array.descriptor array.num.toNat) i).length = 4)) inside short
  have within : 4 * i + offset <
      (ringWords control view array.descriptor array.num array.pbuf array.len).length := by
    rw [ringWords, blockWords_length]
    omega
  have address : array.place i + 4 * offset =
      array.descriptor.toNat + 4 * (4 * i + offset) := by
    rw [place]
    omega
  rw [address, dmaWord, ByteOrder.read_writeAll within]
  exact Option.some.inj ((List.getElem?_eq_getElem within).symm.trans
    (found.trans (List.getElem?_eq_getElem short)))

theorem ringNext_toNat {i : Nat} (inside : i < array.num.toNat) :
    (ringNext array.descriptor array.num.toNat i).toNat =
      array.place ((i + 1) % array.num.toNat) := by
  rw [ringNext, ← next_eq_mod inside]
  split
  · rfl
  next other =>
    have fits := array.descriptorsFit
    rw [turnNext, UInt32.toNat_ofNat_of_lt' (by rw [UInt32.size]; omega), place]
    omega

theorem buffer_toNat {i : Nat} (inside : i < array.num.toNat) :
    (array.pbuf + .ofNat i * array.len).toNat = array.pbuf.toNat + i * array.len.toNat := by
  have fits := array.buffersFit
  have small : i < UInt32.size := inside.trans array.num.toNat_lt
  have within : array.pbuf.toNat + i * array.len.toNat < 2 ^ 32 := by
    rcases Nat.eq_zero_or_pos array.len.toNat with empty | positive
    · rw [empty, Nat.mul_zero]
      exact array.pbuf.toNat_lt
    · have before := Nat.mul_lt_mul_of_pos_right inside positive
      omega
  rw [UInt32.toNat_add, UInt32.toNat_mul, UInt32.toNat_ofNat_of_lt' small, Nat.add_mod_mod,
    Nat.mod_eq_of_lt within]

theorem ring_ringWords : array.Ring (ByteOrder.little.writeAll memory array.descriptor.toNat
    (ringWords control view array.descriptor array.num array.pbuf array.len)) where
  cycle := by
    intro count
    induction count with
    | zero => rw [Nat.zero_mod, Function.iterate_zero, id]
    | succ count ih =>
        have inside := Nat.mod_lt count array.nonempty
        rw [Function.iterate_succ_apply', ih]
        have next := @dmaWord_ringWords memory array control view _ 3 inside (by decide)
        calc (dmaWord _ (array.place (count % array.num.toNat) + 12)).toNat
            = (ringNext array.descriptor array.num.toNat (count % array.num.toNat)).toNat :=
              congrArg UInt32.toNat next
          _ = array.place ((count % array.num.toNat + 1) % array.num.toNat) :=
              ringNext_toNat inside
          _ = array.place ((count + 1) % array.num.toNat) := by rw [Nat.mod_add_mod]
  disjoint := by
    have buffers (i : Nat) (inside : i < array.num.toNat) : array.buffer
        (ByteOrder.little.writeAll memory array.descriptor.toNat
          (ringWords control view array.descriptor array.num array.pbuf array.len)) i =
        array.pbuf.toNat + i * array.len.toNat := by
      have word := @dmaWord_ringWords memory array control view _ 2 inside (by decide)
      exact (congrArg UInt32.toNat word).trans (buffer_toNat inside)
    intro first firstInside second secondInside different
    rw [buffers first firstInside, buffers second secondInside]
    exact buffers_disjoint _ _ different

/-- A ring stays while its descriptors are left alone. -/
theorem Ring.of_reads {after : Nat → UInt8} (ring : array.Ring memory)
    (same : ∀ i < array.num.toNat, ∀ offset < 4,
      dmaWord after (array.place i + 4 * offset) =
        dmaWord memory (array.place i + 4 * offset)) : array.Ring after where
  cycle := by
    intro count
    induction count with
    | zero => rw [Nat.zero_mod, Function.iterate_zero, id]
    | succ count ih =>
        have inside := Nat.mod_lt count array.nonempty
        have next := ring.cycle (count + 1)
        rw [Function.iterate_succ_apply', ring.cycle count] at next
        rw [Function.iterate_succ_apply', ih, ← next]
        exact congrArg UInt32.toNat (same _ inside 3 (by decide))
  disjoint := by
    intro first firstInside second secondInside different
    have buffers (i : Nat) (inside : i < array.num.toNat) :
        array.buffer after i = array.buffer memory i :=
      congrArg UInt32.toNat (same i inside 2 (by decide))
    rw [buffers first firstInside, buffers second secondInside]
    exact ring.disjoint first firstInside second secondInside different

/-- Setting up another array keeps a ring. -/
theorem Ring.ringWords {other : DescriptorArray} (ring : array.Ring memory)
    (apart : array.Apart other) : array.Ring
      (ByteOrder.little.writeAll memory other.descriptor.toNat
        (ringWords control view other.descriptor other.num other.pbuf other.len)) := by
  refine ring.of_reads fun i inside offset short => ?_
  have length : (Gmac.ringWords control view other.descriptor other.num other.pbuf
      other.len).length = 4 * other.num.toNat := blockWords_length _ _ _ _ _ _
  rw [dmaWord, dmaWord, place]
  rcases apart with before | after
  · exact ByteOrder.read_writeAll_before (by omega) _
  · exact ByteOrder.read_writeAll_after (by omega)

end DescriptorArray

/-- Builds for either byte order return the same and leave the same words to the DMA, and
the arrays they set up are rings. -/
theorem descriptors_in_either_order (interrupt : Bool) (state : DescriptorState) :
    (∀ calls, (descriptorRun .big interrupt state calls).1 =
          (descriptorRun .little interrupt state calls).1 ∧
        ∀ address, dmaWord (descriptorRun .big interrupt state calls).2.memory address =
          dmaWord (descriptorRun .little interrupt state calls).2.memory address) ∧
      ∀ order (tx rx : DescriptorArray), tx.Apart rx →
        let memory := (descriptorRun order interrupt state [tx.initTx, rx.initRx]).2.memory
        tx.Ring memory ∧ rx.Ring memory := by
  constructor
  · intro calls
    rw [descriptorRun_order]
    exact ⟨rfl, fun _ => rfl⟩
  · intro order tx rx apart memory
    have final : memory = initRxDescriptorBytes order interrupt
        (initTxDescriptorBytes order state.memory tx.descriptor tx.num tx.pbuf tx.len)
        rx.descriptor rx.num rx.pbuf rx.len := rfl
    rw [final, initTxDescriptorBytes_words, initRxDescriptorBytes_words]
    exact ⟨DescriptorArray.ring_ringWords.ringWords apart, DescriptorArray.ring_ringWords⟩

/-- Two rings, one behind the other, as a big-endian CPU sets them up. -/
theorem descriptors_in_either_order_pair :
    let state : DescriptorState :=
      { memory := fun _ => 0, sLastTxDescriptor := 0, sLastRxDescriptor := 0, rxDescStart := 0
        rxBufferList := fun _ => 0, rxBufferLen := fun _ => 0, rxBufferTotalLen := 0
        rxBufferCount := 0, register5 := 0, gdmaWrites := [] }
    let tx : DescriptorArray := ⟨0x1000, 2, 0x2000, 1600, by decide, by decide, by decide⟩
    let rx : DescriptorArray := ⟨0x1020, 3, 0x4000, 1600, by decide, by decide, by decide⟩
    let memory := (descriptorRun .big true state [tx.initTx, rx.initRx]).2.memory
    tx.Apart rx ∧ tx.Ring memory ∧ rx.Ring memory := by
  intro state tx rx memory
  have apart : tx.Apart rx := Or.inl (by decide)
  exact ⟨apart, (descriptors_in_either_order true state).2 .big tx rx apart⟩

end SunWise.Gmac
