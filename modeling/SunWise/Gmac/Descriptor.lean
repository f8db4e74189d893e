import Mathlib.Algebra.Ring.Nat
import Mathlib.Data.List.Basic

/-!
# GMAC descriptors

`GmacDes_t` at the level of its fields: `load_desc` and `push_desc` swap the same bytes
on the way in and out.  The second word is a union with one view for transmission and one
for reception.  A descriptor pointer is an index into the descriptor array.
-/

namespace SunWise.Gmac

/-- `GMAC_DESCRIPTOR_NUM`. -/
def gmacDescriptorNum : Nat := 32

/-- `PBUF_POOL_BUFSIZE`. -/
def pbufPoolBufsize : Nat := 1600

/-- `GMAC_BUFFER_SIZE`. -/
def gmacBufferSize : Nat := pbufPoolBufsize

theorem gmacDescriptorNum_pos : 0 < gmacDescriptorNum := by decide

/-- The length fields of a descriptor have eleven bits. -/
theorem gmacBufferSize_lt : gmacBufferSize < 2 ^ 11 := by decide

/-- `GmacDes_t`, with the view of its union as a parameter. -/
structure GmacDes (View : Type) where
  owner : Bool
  status : BitVec 31
  view : View
  buffer1Addr : Nat
  next : Nat
  deriving DecidableEq, Inhabited, Repr

/-- The view `tx` of the union. -/
structure TxView where
  buffer1Size : BitVec 11
  buffer2Size : BitVec 11
  ttse : Bool
  dp : Bool
  tch : Bool
  ter : Bool
  dc : Bool
  cic : BitVec 2
  fs : Bool
  ls : Bool
  ic : Bool
  deriving DecidableEq, Inhabited, Repr

/-- The view `rx` of the union. -/
structure RxView where
  buffer1Size : BitVec 11
  buffer2Size : BitVec 11
  reserved2 : BitVec 2
  rch : Bool
  rer : Bool
  reserved1 : BitVec 5
  dic : Bool
  deriving DecidableEq, Inhabited, Repr

/-- `HW_GMAC_InitTxDescriptor`. The descriptors after the first `num` are not touched. -/
def hwGmacInitTxDescriptor (descriptor : Nat → GmacDes TxView) (num pbuf len : Nat) :
    Nat → GmacDes TxView :=
  fun i =>
    if i < num then
      { owner := false
        status := 0
        view := {
          buffer1Size := 0, buffer2Size := 0, ttse := false, dp := false, tch := true
          ter := false, dc := false, cic := 0, fs := false, ls := false, ic := false }
        buffer1Addr := pbuf + i * len
        next := if i + 1 = num then 0 else i + 1 }
    else descriptor i

/-- The status word of a descriptor that is handed to the receiver. -/
def rxStatusReset : BitVec 31 := 0x00400300

/-- `HW_GMAC_InitRxDescriptor`, built with `LWIP_FREERTOS_WITH_INTERRUPT`. -/
def hwGmacInitRxDescriptor (descriptor : Nat → GmacDes RxView) (num pbuf len : Nat) :
    Nat → GmacDes RxView :=
  fun i =>
    if i < num then
      { owner := true
        status := rxStatusReset
        view := {
          buffer1Size := BitVec.ofNat 11 len, buffer2Size := BitVec.ofNat 11 len
          reserved2 := 0, rch := true, rer := false, reserved1 := 0, dic := false }
        buffer1Addr := pbuf + i * len
        next := if i + 1 = num then 0 else i + 1 }
    else descriptor i

/-- The chain of a descriptor ring closes after its last descriptor. -/
theorem next_eq_mod {num i : Nat} (inRing : i < num) :
    (if i + 1 = num then 0 else i + 1) = (i + 1) % num := by
  by_cases last : i + 1 = num
  · rw [if_pos last, last, Nat.mod_self]
  · rw [if_neg last, Nat.mod_eq_of_lt (by omega)]

theorem buffers_disjoint {first second : Nat} (pbuf len : Nat)
    (different : first ≠ second) :
    pbuf + first * len + len ≤ pbuf + second * len ∨
      pbuf + second * len + len ≤ pbuf + first * len := by
  rcases Nat.lt_or_gt_of_ne different with before | after
  · have ordered := Nat.mul_le_mul_right len (Nat.succ_le_of_lt before)
    rw [Nat.succ_mul] at ordered
    omega
  · have ordered := Nat.mul_le_mul_right len (Nat.succ_le_of_lt after)
    rw [Nat.succ_mul] at ordered
    omega

end SunWise.Gmac
