import SunWise.Gmac.Descriptor
import SunWise.Library.BitField

/-!
# Descriptors in memory

`GmacDes_t` as `drv_gmac.h` declares it for either `BYTE_ORDER`, and the functions of
`drv_gmac.c` that share descriptors with the DMA, on bytes.  The DMA takes the bytes of a
word in little-endian order.  A pointer is an address.
-/

namespace SunWise.Gmac

open Library

/-- The bit-fields of the first word of `GmacDes_t`. -/
inductive DesField where
  | status
  | owner
  deriving DecidableEq, Repr

/-- The bit-fields of `tx`. -/
inductive TxField where
  | buffer1Size
  | buffer2Size
  | ttse
  | dp
  | tch
  | ter
  | dc
  | cic
  | fs
  | ls
  | ic
  deriving DecidableEq, Repr

/-- The bit-fields of `rx`. -/
inductive RxField where
  | buffer1Size
  | buffer2Size
  | reserved2
  | rch
  | rer
  | reserved1
  | dic
  deriving DecidableEq, Repr

/-- The declarations of the first word. -/
def desFields : ByteOrder → List (DesField × Nat)
  | .little => [(.status, 31), (.owner, 1)]
  | .big => [(.owner, 1), (.status, 31)]

/-- The declarations of `tx`. -/
def txFields : ByteOrder → List (TxField × Nat)
  | .little =>
      [(.buffer1Size, 11), (.buffer2Size, 11), (.ttse, 1), (.dp, 1), (.tch, 1), (.ter, 1),
        (.dc, 1), (.cic, 2), (.fs, 1), (.ls, 1), (.ic, 1)]
  | .big =>
      [(.ic, 1), (.ls, 1), (.fs, 1), (.cic, 2), (.dc, 1), (.ter, 1), (.tch, 1), (.dp, 1),
        (.ttse, 1), (.buffer2Size, 11), (.buffer1Size, 11)]

/-- The declarations of `rx`. -/
def rxFields : ByteOrder → List (RxField × Nat)
  | .little =>
      [(.buffer1Size, 11), (.buffer2Size, 11), (.reserved2, 2), (.rch, 1), (.rer, 1),
        (.reserved1, 5), (.dic, 1)]
  | .big =>
      [(.dic, 1), (.reserved1, 5), (.rer, 1), (.rch, 1), (.reserved2, 2), (.buffer2Size, 11),
        (.buffer1Size, 11)]

variable (order : ByteOrder)

def desPlace (name : DesField) : BitField :=
  order.place 0 (desFields order) name

def txPlace (name : TxField) : BitField :=
  order.place 0 (txFields order) name

def rxPlace (name : RxField) : BitField :=
  order.place 0 (rxFields order) name

/-- `swap_data`. -/
def swapData (data : UInt32) : UInt32 :=
  match order with
  | .little => data
  | .big =>
      (data &&& 0xff000000) >>> 24 ||| (data &&& 0x00ff0000) >>> 8 |||
        (data &&& 0x0000ff00) <<< 8 ||| (data &&& 0x000000ff) <<< 24

/-- `swap_desc`, from the word at `p` on. -/
def swapDesc (memory : Nat → UInt8) (p : Nat) : Nat → Nat → UInt8
  | 0 => memory
  | words + 1 =>
      swapDesc (order.write memory p (swapData order (order.read memory p))) (p + 4) words

/-- A local `GmacDes_t`, as the words the CPU has in it. -/
structure DesWords where
  control : UInt32
  view : UInt32
  buffer1Addr : UInt32
  next : UInt32
  deriving DecidableEq, Repr

/-- `load_desc`. -/
def loadDesc (memory : Nat → UInt8) (pointer : Nat) : DesWords where
  control := swapData order (order.read memory pointer)
  view := swapData order (order.read memory (pointer + 4))
  buffer1Addr := swapData order (order.read memory (pointer + 8))
  next := swapData order (order.read memory (pointer + 12))

/-- `push_desc`. -/
def pushDesc (memory : Nat → UInt8) (pointer : Nat) (words : DesWords) : Nat → UInt8 :=
  order.writeAll memory pointer
    ([words.control, words.view, words.buffer1Addr, words.next].map (swapData order))

/-- An assignment to a bit-field of the word at `address`. -/
def assignField (memory : Nat → UInt8) (address : Nat) (field : BitField) (value : UInt32) :
    Nat → UInt8 :=
  order.write memory address (field.set (order.read memory address) value)

/-- A turn of the loop of `HW_GMAC_InitTxDescriptor` or `HW_GMAC_InitRxDescriptor`, which
differ in the bit-fields that they assign. -/
def initTurn (assign : (Nat → UInt8) → Nat → Nat → UInt8) (descriptor pbuf len : UInt32)
    (memory : Nat → UInt8) (i : Nat) : Nat → UInt8 :=
  let current := descriptor.toNat + 16 * i
  let memory := store memory current (List.replicate 16 0)
  let memory := assign memory current
  let memory := order.write memory (current + 8) (pbuf + .ofNat i * len)
  order.write memory (current + 12) (.ofNat (current + 16))

/-- The body of the two functions. -/
def initDescriptors (assign : (Nat → UInt8) → Nat → Nat → UInt8) (memory : Nat → UInt8)
    (descriptor num pbuf len : UInt32) : Nat → UInt8 :=
  let memory :=
    (List.range num.toNat).foldl (initTurn order assign descriptor pbuf len) memory
  let memory :=
    if num > 0 then
      order.write memory (descriptor.toNat + 16 * (num.toNat - 1) + 12) descriptor
    else memory
  swapDesc order memory descriptor.toNat (4 * num.toNat)

def assignTx (memory : Nat → UInt8) (current : Nat) : Nat → UInt8 :=
  let memory := assignField order memory (current + 4) (txPlace order .ic) 0
  let memory := assignField order memory (current + 4) (txPlace order .dc) 0
  assignField order memory (current + 4) (txPlace order .tch) 1

/-- `HW_GMAC_InitTxDescriptor`, on the bytes of memory. -/
def initTxDescriptorBytes : (Nat → UInt8) → UInt32 → UInt32 → UInt32 → UInt32 → Nat → UInt8 :=
  initDescriptors order (assignTx order)

/-- The descriptors interrupt when `LWIP_FREERTOS_WITH_INTERRUPT` is defined. -/
def assignRx (interrupt : Bool) (len : UInt32) (memory : Nat → UInt8) (current : Nat) :
    Nat → UInt8 :=
  let memory := assignField order memory current (desPlace order .owner) 1
  let memory := assignField order memory current (desPlace order .status) 0x00400300
  let memory := assignField order memory (current + 4) (rxPlace order .dic)
    (if interrupt then 0 else 1)
  let memory := assignField order memory (current + 4) (rxPlace order .rch) 1
  let memory := assignField order memory (current + 4) (rxPlace order .buffer1Size) len
  assignField order memory (current + 4) (rxPlace order .buffer2Size) len

/-- `HW_GMAC_InitRxDescriptor`, on the bytes of memory. -/
def initRxDescriptorBytes (interrupt : Bool) (memory : Nat → UInt8)
    (descriptor num pbuf len : UInt32) : Nat → UInt8 :=
  initDescriptors order (assignRx order interrupt len) memory descriptor num pbuf len

/-- A write to a register of the GDMA. -/
inductive GdmaWrite where
  | register1 (value : UInt32)
  | register5 (value : UInt32)
  deriving DecidableEq, Repr

/-- The memory, the pointers to the last descriptors, the receive part of
`DeviceGmacConfig_t`, and the GDMA as the driver reads and writes it. -/
structure DescriptorState where
  memory : Nat → UInt8
  sLastTxDescriptor : UInt32
  sLastRxDescriptor : UInt32
  rxDescStart : UInt32
  rxBufferList : Nat → UInt32
  rxBufferLen : Nat → UInt32
  rxBufferTotalLen : UInt32
  rxBufferCount : UInt32
  register5 : UInt32
  gdmaWrites : List GdmaWrite

variable (state : DescriptorState)

/-- `HW_GMAC_GetSendPacket`: the result and what is stored to `pbuf[0]`. -/
def hwGmacGetSendPacket (pbuf : Bool) : Int × Option UInt32 :=
  let current := loadDesc order state.memory state.sLastTxDescriptor.toNat
  if (desPlace order .owner).get current.control ≠ 0 then (-1, none)
  else (0, if pbuf then some current.buffer1Addr else none)

/-- The end of `HW_GMAC_StartSendPacket`, where a suspended DMA is woken. -/
def DescriptorState.pollDemand : DescriptorState :=
  if state.register5 &&& (1 : UInt32) <<< 2 ≠ 0 then
    { state with gdmaWrites := state.gdmaWrites ++ [.register5 ((1 : UInt32) <<< 2), .register1 0] }
  else state

/-- `HW_GMAC_StartSendPacket`. -/
def hwGmacStartSendPacket (len : UInt32) : DescriptorState :=
  let current := loadDesc order state.memory state.sLastTxDescriptor.toNat
  let current :=
    { current with
      control := (desPlace order .owner).set current.control 1
      view :=
        let view := (txPlace order .buffer1Size).set current.view len
        let view := (txPlace order .cic).set view 0x3
        let view := (txPlace order .fs).set view 1
        (txPlace order .ls).set view 1 }
  { state with
    memory := pushDesc order state.memory state.sLastTxDescriptor.toNat current
    sLastTxDescriptor := current.next }.pollDemand

/-- `GMAC_GET_RX_LENGTH`. -/
def gmacGetRxLength (status : UInt32) : UInt32 :=
  (status >>> 16) &&& 0x3fff

/-- `HW_GMAC_GetRecvPacket`, with its result. -/
def hwGmacGetRecvPacket : UInt32 × DescriptorState :=
  let current := loadDesc order state.memory state.sLastRxDescriptor.toNat
  if (desPlace order .owner).get current.control ≠ 0 then (0, state)
  else
    let status := (desPlace order .status).get current.control
    let state :=
      if status &&& (1 : UInt32) <<< 9 ≠ 0 then
        { state with
          rxDescStart := state.sLastRxDescriptor, rxBufferTotalLen := 0, rxBufferCount := 0 }
      else state
    let count := state.rxBufferCount.toNat
    let state :=
      { state with
        rxBufferList := Function.update state.rxBufferList count current.buffer1Addr
        rxBufferLen := Function.update state.rxBufferLen count (gmacGetRxLength status)
        rxBufferCount := state.rxBufferCount + 1
        rxBufferTotalLen := state.rxBufferTotalLen + gmacGetRxLength status }
    let len := if status &&& (1 : UInt32) <<< 8 ≠ 0 then state.rxBufferTotalLen else 0
    (len, { state with sLastRxDescriptor := current.next })

/-- The loop of `HW_GMAC_StopRecvPacket`, with the descriptors that are left. -/
def stopRecvLoop (memory : Nat → UInt8) (nextDescriptor : UInt32) : Nat → Nat → UInt8
  | 0 => memory
  | left + 1 =>
      let current := loadDesc order memory nextDescriptor.toNat
      let control := (desPlace order .owner).set current.control 1
      let control := (desPlace order .status).set control 0x00400300
      let current := { current with control := control }
      stopRecvLoop (pushDesc order memory nextDescriptor.toNat current) current.next left

/-- `HW_GMAC_StopRecvPacket`. -/
def hwGmacStopRecvPacket : DescriptorState :=
  { state with
    memory := stopRecvLoop order state.memory state.rxDescStart state.rxBufferCount.toNat }

end SunWise.Gmac
