import Mathlib.Algebra.Order.BigOperators.Group.List
import Mathlib.Algebra.Order.Ring.Nat
import SunWise.Gmac.Descriptor
import SunWise.Library.Memory
import SunWise.Library.Ring
import SunWise.Library.Runs

/-!
# Sending a packet over several descriptors

`HW_GMAC_SendPacket` cuts a packet into pieces of the buffer size and hands one descriptor
to the DMA for each.  It looks at the owner bit of the first one only.
-/

namespace SunWise.Gmac

open Library

/-- What `HW_GMAC_SendPacket` uses of `DeviceGmacConfig_t`, for any buffer size. -/
structure SendConfig where
  txDescNum : Nat
  txBufferSize : UInt32
  txBuffer : Nat
  positive : 0 < txDescNum
  nonempty : 0 < txBufferSize.toNat

/-- The transmit descriptors, the tail pointer and the buffers. -/
structure SendRing where
  desc : Nat → GmacDes TxView
  sLastTxDescriptor : Nat
  memory : Nat → UInt8

/-- What a call writes outside its own variables. -/
inductive SendWrite where
  /-- `memcpy` into the memory. -/
  | copy (address count : Nat)
  /-- `push_desc` to a descriptor. -/
  | push (slot : Nat)
  deriving DecidableEq, Repr

/-- A call in progress: the shared data and what has been written. -/
structure SendCall where
  ring : SendRing
  trace : List SendWrite

namespace SendCall

/-- `HW_GMAC_GenTxDescriptor` on the descriptor at the tail pointer, with the flags, the
`push_desc` and the new tail pointer that follow it. -/
def sendPiece (call : SendCall) (piece : List UInt8) (fs ls : Bool) : SendCall :=
  let slot := call.ring.sLastTxDescriptor
  let loaded := call.ring.desc slot
  let current := { loaded with
    owner := true
    view := { loaded.view with
      buffer1Size := BitVec.ofNat 11 piece.length
      fs
      ls } }
  { ring := {
      desc := Function.update call.ring.desc slot current
      sLastTxDescriptor := current.next
      memory := store call.ring.memory loaded.buffer1Addr piece }
    trace := call.trace ++ [.copy loaded.buffer1Addr piece.length, .push slot] }

/-- The loop of `HW_GMAC_SendPacket`, by the number of its remaining turns. -/
def sendLoop (txBufferSize packetNum : Nat) : Nat → List UInt8 → SendCall → SendCall
  | 0, _, call => call
  | remaining + 1, pbuf, call =>
      let i := packetNum - (remaining + 1)
      let packetLen := if i = packetNum - 1 then pbuf.length else txBufferSize
      sendLoop txBufferSize packetNum remaining (pbuf.drop packetLen)
        (call.sendPiece (pbuf.take packetLen) (i = 0) (i = packetNum - 1))

end SendCall

/-- `packet_num`, in 32-bit arithmetic. -/
def packetNum (config : SendConfig) (len : UInt32) : Nat :=
  ((len + config.txBufferSize - 1) / config.txBufferSize).toNat

/-- `HW_GMAC_SendPacket`: its result, and the call as it ends. -/
def hwGmacSendPacket (config : SendConfig) (ring : SendRing) (pbuf : List UInt8) :
    Int × SendCall :=
  let call : SendCall := { ring, trace := [] }
  if (ring.desc ring.sLastTxDescriptor).owner then (-1, call)
  else
    let num := packetNum config (UInt32.ofNat pbuf.length)
    (0, call.sendLoop config.txBufferSize.toNat num num pbuf)

section Purpose

variable (config : SendConfig) (ring : SendRing)

/-- The ring as `HW_GMAC_InitTxDescriptor` chains it. Owners, sizes and flags are
arbitrary. -/
structure SendRing.Chained : Prop where
  tail : ring.sLastTxDescriptor < config.txDescNum
  buffer : ∀ slot < config.txDescNum,
    (ring.desc slot).buffer1Addr = config.txBuffer + slot * config.txBufferSize.toNat
  next : ∀ slot < config.txDescNum,
    (ring.desc slot).next = (slot + 1) % config.txDescNum

/-- A write that leaves alone what the DMA owned on entry and what has been handed over
since. -/
def SendRing.Permits (handed : List Nat) : SendWrite → Prop
  | .copy address count =>
      ∀ slot < config.txDescNum, (ring.desc slot).owner = true ∨ slot ∈ handed →
        address + count ≤ (ring.desc slot).buffer1Addr ∨
          (ring.desc slot).buffer1Addr + config.txBufferSize.toNat ≤ address
  | .push slot => (ring.desc slot).owner = false ∧ slot ∉ handed

/-- The descriptors handed over, after a write. -/
def handOver (handed : List Nat) : SendWrite → List Nat
  | .copy _ _ => handed
  | .push slot => handed ++ [slot]

/-- The descriptors a call has handed over, in order. -/
def SendCall.handed (call : SendCall) : List Nat :=
  call.trace.foldl handOver []

/-- The bytes that a descriptor tells the DMA to send. -/
def SendRing.segment (slot : Nat) : List UInt8 :=
  load ring.memory (ring.desc slot).buffer1Addr (ring.desc slot).view.buffer1Size.toNat

/-- What is to hold of a call that starts in a ring. -/
structure Sends (packet : List UInt8) (result : Int) (call : SendCall) : Prop where
  untouched : Accepts handOver (ring.Permits config) [] call.trace
  consecutive : result = 0 →
    call.handed = slots config.txDescNum ring.sLastTxDescriptor call.handed.length
  packet : result = 0 → call.handed.flatMap call.ring.segment = packet
  flags : result = 0 → ∀ index slot, call.handed[index]? = some slot →
    (call.ring.desc slot).owner = true ∧
      ((call.ring.desc slot).view.fs = true ↔ index = 0) ∧
      ((call.ring.desc slot).view.ls = true ↔ index + 1 = call.handed.length)
  unchanged : result = -1 → call = { ring, trace := [] }

end Purpose

/-- The piece of a turn of the loop. -/
def pieceAt (size num : Nat) (packet : List UInt8) (i : Nat) : List UInt8 :=
  if i = num - 1 then packet.drop (i * size) else (packet.drop (i * size)).take size

section Pieces

variable {size num : Nat} {packet : List UInt8}

theorem flatMap_pieceAt_lt {turns : Nat} (before : turns < num) :
    (List.range turns).flatMap (pieceAt size num packet) = packet.take (turns * size) := by
  induction turns with
  | zero => simp
  | succ turns ih =>
      have notLast : turns ≠ num - 1 := by omega
      rw [List.range_succ, List.flatMap_append, ih (by omega), List.flatMap_singleton,
        pieceAt, if_neg notLast, Nat.succ_mul, List.take_add]

theorem flatMap_pieceAt (positive : 0 < num) :
    (List.range num).flatMap (pieceAt size num packet) = packet := by
  obtain ⟨turns, rfl⟩ := Nat.exists_eq_succ_of_ne_zero positive.ne'
  rw [Nat.succ_eq_add_one, List.range_succ, List.flatMap_append,
    flatMap_pieceAt_lt (Nat.lt_succ_self turns), List.flatMap_singleton, pieceAt,
    Nat.add_sub_cancel, if_pos rfl, List.take_append_drop]

theorem pieceAt_length_le_packet (size num : Nat) (packet : List UInt8) (i : Nat) :
    (pieceAt size num packet i).length ≤ packet.length := by
  unfold pieceAt
  split
  · exact (List.drop_sublist _ _).length_le
  · exact ((List.take_sublist _ _).trans (List.drop_sublist _ _)).length_le

theorem pieceAt_length_le (fits : packet.length ≤ num * size) {i : Nat} (inside : i < num) :
    (pieceAt size num packet i).length ≤ size := by
  unfold pieceAt
  split
  next last =>
    have total : i * size + size = num * size := by
      rw [← Nat.succ_mul]
      congr 1
      omega
    rw [List.length_drop]
    omega
  next => simp

theorem pieceAt_zero_length (fits : packet.length ≤ num * size) :
    (pieceAt size num packet 0).length = min packet.length size := by
  unfold pieceAt
  split
  next single =>
    have few : num * size ≤ 1 * size := Nat.mul_le_mul_right size (by omega)
    rw [Nat.zero_mul, List.drop_zero]
    omega
  next =>
    rw [Nat.zero_mul, List.drop_zero, List.length_take, Nat.min_comm]

end Pieces

section Number

variable (config : SendConfig) {len : Nat}

theorem packetNum_eq (small : len < 2 ^ 32) :
    packetNum config (UInt32.ofNat len) =
      (len + config.txBufferSize.toNat - 1) % 2 ^ 32 / config.txBufferSize.toNat := by
  have positive := config.nonempty
  have bound := config.txBufferSize.toNat_lt
  have value : (UInt32.ofNat len).toNat = len := UInt32.toNat_ofNat_of_lt' small
  have one : (1 : UInt32).toNat = 1 := rfl
  rw [packetNum, UInt32.toNat_div, UInt32.toNat_sub, UInt32.toNat_add, value, one]
  congr 1
  omega

/-- Without overflow the number is rounded up. -/
theorem packetNum_spec (small : len < 2 ^ 32)
    (inRange : len + config.txBufferSize.toNat ≤ 2 ^ 32) :
    len ≤ packetNum config (UInt32.ofNat len) * config.txBufferSize.toNat ∧
      (0 < len → 0 < packetNum config (UInt32.ofNat len)) := by
  have positive := config.nonempty
  rw [packetNum_eq config small, Nat.mod_eq_of_lt (by omega)]
  generalize config.txBufferSize.toNat = size at *
  have divided := Nat.div_add_mod (len + size - 1) size
  have rest := Nat.mod_lt (len + size - 1) positive
  generalize (len + size - 1) / size = num at *
  rw [Nat.mul_comm] at divided
  refine ⟨by omega, fun some_ => ?_⟩
  by_contra notPositive
  rw [Nat.eq_zero_of_not_pos notPositive, Nat.zero_mul] at divided
  omega

/-- An overflow of the sum leaves nothing to be sent. -/
theorem packetNum_overflow (small : len < 2 ^ 32)
    (overflows : 2 ^ 32 < len + config.txBufferSize.toNat) :
    packetNum config (UInt32.ofNat len) = 0 := by
  have bound := config.txBufferSize.toNat_lt
  rw [packetNum_eq config small]
  apply Nat.div_eq_of_lt
  omega

end Number

/-! ## The loop -/

/-- The writes of a turn. -/
def pieceWrites (config : SendConfig) (slot : Nat) (piece : List UInt8) : List SendWrite :=
  [.copy (config.txBuffer + slot * config.txBufferSize.toNat) piece.length, .push slot]

/-- A descriptor has been handed over with a piece. -/
structure HandedOver (call : SendCall) (slot : Nat) (piece : List UInt8) (fs ls : Bool) :
    Prop where
  owner : (call.ring.desc slot).owner = true
  size : (call.ring.desc slot).view.buffer1Size = BitVec.ofNat 11 piece.length
  fs : (call.ring.desc slot).view.fs = fs
  ls : (call.ring.desc slot).view.ls = ls
  bytes : load call.ring.memory (call.ring.desc slot).buffer1Addr piece.length = piece

/-- The first turns of the loop are done. As long as the ring is not used up, what they
have handed over is still there. -/
structure Progress (config : SendConfig) (start num : Nat) (packet : List UInt8)
    (turns : Nat) (call : SendCall) : Prop where
  tail : call.ring.sLastTxDescriptor = (start + turns) % config.txDescNum
  chained : call.ring.Chained config
  trace : call.trace = (List.range turns).flatMap fun i =>
    pieceWrites config ((start + i) % config.txDescNum)
      (pieceAt config.txBufferSize.toNat num packet i)
  handed : turns ≤ config.txDescNum → ∀ i < turns,
    HandedOver call ((start + i) % config.txDescNum)
      (pieceAt config.txBufferSize.toNat num packet i) (i = 0) (i = num - 1)

section Loop

variable {config : SendConfig} {start num turns : Nat} {packet : List UInt8}
  {call : SendCall}

theorem SendRing.Chained.sendPiece (chained : call.ring.Chained config)
    (piece : List UInt8) (fs ls : Bool) :
    (call.sendPiece piece fs ls).ring.Chained config where
  tail := by
    change (call.ring.desc call.ring.sLastTxDescriptor).next < _
    rw [chained.next _ chained.tail]
    exact Nat.mod_lt _ config.positive
  buffer := by
    intro slot inRing
    by_cases isTail : slot = call.ring.sLastTxDescriptor
    · subst slot
      simpa [SendCall.sendPiece] using chained.buffer _ inRing
    · simpa [SendCall.sendPiece, isTail] using chained.buffer slot inRing
  next := by
    intro slot inRing
    by_cases isTail : slot = call.ring.sLastTxDescriptor
    · subst slot
      simpa [SendCall.sendPiece] using chained.next _ inRing
    · simpa [SendCall.sendPiece, isTail] using chained.next slot inRing

theorem handedOver_sendPiece (piece : List UInt8) (fs ls : Bool) :
    HandedOver (call.sendPiece piece fs ls) call.ring.sLastTxDescriptor piece fs ls where
  owner := by simp [SendCall.sendPiece]
  size := by simp [SendCall.sendPiece]
  fs := by simp [SendCall.sendPiece]
  ls := by simp [SendCall.sendPiece]
  bytes := by simpa [SendCall.sendPiece] using load_store_self _ piece

theorem HandedOver.sendPiece {slot : Nat} {old piece : List UInt8} {fs ls fs' ls' : Bool}
    (handed : HandedOver call slot old fs ls) (chained : call.ring.Chained config)
    (inRing : slot < config.txDescNum) (other : slot ≠ call.ring.sLastTxDescriptor)
    (oldFits : old.length ≤ config.txBufferSize.toNat)
    (fits : piece.length ≤ config.txBufferSize.toNat) :
    HandedOver (call.sendPiece piece fs' ls') slot old fs ls where
  owner := by simpa [SendCall.sendPiece, other] using handed.owner
  size := by simpa [SendCall.sendPiece, other] using handed.size
  fs := by simpa [SendCall.sendPiece, other] using handed.fs
  ls := by simpa [SendCall.sendPiece, other] using handed.ls
  bytes := by
    have apart := buffers_disjoint config.txBuffer config.txBufferSize.toNat other
    rw [← chained.buffer _ inRing, ← chained.buffer _ chained.tail] at apart
    simp only [SendCall.sendPiece, Function.update_of_ne other]
    rw [load_store_disjoint, handed.bytes]
    omega

theorem Progress.turn (progress : Progress config start num packet turns call)
    (fits : packet.length ≤ num * config.txBufferSize.toNat) (inside : turns < num) :
    Progress config start num packet (turns + 1)
      (call.sendPiece (pieceAt config.txBufferSize.toNat num packet turns) (turns = 0)
        (turns = num - 1)) where
  tail := by
    change (call.ring.desc call.ring.sLastTxDescriptor).next = _
    rw [progress.chained.next _ progress.chained.tail, progress.tail, Nat.mod_add_mod]
    rfl
  chained := progress.chained.sendPiece _ _ _
  trace := by
    have buffer := progress.chained.buffer _ progress.chained.tail
    rw [List.range_succ, List.flatMap_append, List.flatMap_singleton, ← progress.trace,
      ← progress.tail, pieceWrites, ← buffer]
    rfl
  handed := by
    intro room i before
    rcases Nat.lt_succ_iff_lt_or_eq.mp before with earlier | rfl
    · have other : (start + i) % config.txDescNum ≠ call.ring.sLastTxDescriptor := by
        intro same
        rw [progress.tail] at same
        have equal := counter_eq_of_mod_eq (by omega) (by omega) same
        omega
      exact (progress.handed (by omega) i earlier).sendPiece progress.chained
        (Nat.mod_lt _ config.positive) other (pieceAt_length_le fits (by omega))
        (pieceAt_length_le fits inside)
    · rw [← progress.tail]
      exact handedOver_sendPiece _ _ _

theorem Progress.sendLoop {remaining : Nat}
    (progress : Progress config start num packet turns call)
    (fits : packet.length ≤ num * config.txBufferSize.toNat)
    (total : turns + remaining = num) :
    Progress config start num packet num
      (call.sendLoop config.txBufferSize.toNat num remaining
        (packet.drop (turns * config.txBufferSize.toNat))) := by
  induction remaining generalizing turns call with
  | zero =>
      rw [Nat.add_zero] at total
      subst turns
      exact progress
  | succ remaining ih =>
      have index : num - (remaining + 1) = turns := by omega
      have later := ih (progress.turn fits (by omega)) (by omega)
      have piece : (packet.drop (turns * config.txBufferSize.toNat)).take
          (if turns = num - 1 then (packet.drop (turns * config.txBufferSize.toNat)).length
            else config.txBufferSize.toNat) =
          pieceAt config.txBufferSize.toNat num packet turns := by
        unfold pieceAt
        split
        · exact List.take_length
        · rfl
      have rest : (packet.drop (turns * config.txBufferSize.toNat)).drop
          (if turns = num - 1 then (packet.drop (turns * config.txBufferSize.toNat)).length
            else config.txBufferSize.toNat) =
          packet.drop ((turns + 1) * config.txBufferSize.toNat) := by
        split
        next last =>
          have all : turns + 1 = num := by omega
          rw [List.drop_length, all, List.drop_eq_nil_of_le fits]
        next => rw [List.drop_drop, Nat.succ_mul]
      simpa only [SendCall.sendLoop, index, piece, rest] using later

end Loop

section Writes

variable {config : SendConfig} {ring : SendRing} (start : Nat) (pieces : Nat → List UInt8)

theorem foldl_handOver (turns : Nat) :
    ((List.range turns).flatMap fun i =>
        pieceWrites config ((start + i) % config.txDescNum) (pieces i)).foldl handOver [] =
      slots config.txDescNum start turns := by
  induction turns with
  | zero => rfl
  | succ turns ih =>
      rw [List.range_succ, List.flatMap_append, List.foldl_append, ih, List.flatMap_singleton,
        slots_succ]
      rfl

/-- Writing to a buffer is no worse than pushing its descriptor. -/
theorem SendRing.Chained.permits_copy (chained : ring.Chained config) {handed : List Nat}
    {slot count : Nat} (pushed : ring.Permits config handed (.push slot))
    (fits : count ≤ config.txBufferSize.toNat) :
    ring.Permits config handed
      (.copy (config.txBuffer + slot * config.txBufferSize.toNat) count) := by
  intro other inRing dma
  have different : slot ≠ other := by
    rintro rfl
    rcases dma with owned | again
    · exact Bool.noConfusion (pushed.1.symm.trans owned)
    · exact pushed.2 again
  have apart := buffers_disjoint config.txBuffer config.txBufferSize.toNat different
  rw [chained.buffer other inRing]
  omega

/-- The writes of the loop leave alone what they must exactly when the descriptors are all
different and none of them is owned by the DMA. -/
theorem SendRing.Chained.accepts_iff (chained : ring.Chained config) {turns : Nat}
    (fits : ∀ i < turns, (pieces i).length ≤ config.txBufferSize.toNat) :
    Accepts handOver (ring.Permits config) []
        ((List.range turns).flatMap fun i =>
          pieceWrites config ((start + i) % config.txDescNum) (pieces i)) ↔
      turns ≤ config.txDescNum ∧
        ∀ slot ∈ slots config.txDescNum start turns, (ring.desc slot).owner = false := by
  rw [← slots_nodup_iff config.positive]
  induction turns with
  | zero => simp
  | succ turns ih =>
      have one : Accepts handOver (ring.Permits config) (slots config.txDescNum start turns)
            (pieceWrites config ((start + turns) % config.txDescNum) (pieces turns)) ↔
          ring.Permits config (slots config.txDescNum start turns)
            (.push ((start + turns) % config.txDescNum)) := by
        constructor
        · rintro ⟨-, pushed, -⟩
          exact pushed
        · intro pushed
          exact ⟨chained.permits_copy pushed (fits turns (Nat.lt_succ_self turns)), pushed,
            trivial⟩
      rw [List.range_succ, List.flatMap_append, accepts_append, foldl_handOver,
        List.flatMap_singleton, one, ih fun i before => fits i (Nat.lt_succ_of_lt before),
        slots_succ, List.nodup_append, List.forall_mem_append]
      simp only [SendRing.Permits, List.nodup_singleton, List.mem_singleton, true_and,
        forall_eq]
      constructor
      · rintro ⟨⟨distinct, cpu⟩, last, fresh⟩
        exact ⟨⟨distinct, fun slot earlier same => fresh (same ▸ earlier)⟩, cpu, last⟩
      · rintro ⟨⟨distinct, fresh⟩, cpu, last⟩
        exact ⟨⟨distinct, cpu⟩, last, fun again => fresh _ again rfl⟩

end Writes

/-- The packet is cut into pieces that a descriptor can describe, and the ring has a free
descriptor for each of them. -/
structure SendRing.Fits (config : SendConfig) (ring : SendRing) (packet : List UInt8) :
    Prop where
  inRange : packet.length + config.txBufferSize.toNat ≤ 2 ^ 32
  describable : min packet.length config.txBufferSize.toNat < 2 ^ 11
  room : packetNum config (UInt32.ofNat packet.length) ≤ config.txDescNum
  free : ∀ slot ∈ slots config.txDescNum ring.sLastTxDescriptor
      (packetNum config (UInt32.ofNat packet.length)),
    (ring.desc slot).owner = false

section Sends

variable {config : SendConfig} {ring : SendRing} {packet : List UInt8} {call : SendCall}
  {start num : Nat}

theorem HandedOver.segment_eq {slot : Nat} {piece : List UInt8} {fs ls : Bool}
    (handed : HandedOver call slot piece fs ls) :
    call.ring.segment slot = piece.take (piece.length % 2 ^ 11) := by
  have short : min (piece.length % 2 ^ 11) piece.length = piece.length % 2 ^ 11 :=
    Nat.min_eq_left (Nat.mod_le _ _)
  rw [SendRing.segment, handed.size, BitVec.toNat_ofNat, ← short, load_min, handed.bytes,
    short]

/-- What the DMA is told to send is the packet exactly when no piece is too long for the
length field. -/
theorem Progress.segments_iff (progress : Progress config start num packet num call)
    (room : num ≤ config.txDescNum) (fits : packet.length ≤ num * config.txBufferSize.toNat)
    (someTurn : 0 < packet.length → 0 < num) :
    (slots config.txDescNum start num).flatMap call.ring.segment = packet ↔
      min packet.length config.txBufferSize.toNat < 2 ^ 11 := by
  generalize isSize : config.txBufferSize.toNat = size at *
  have each : (slots config.txDescNum start num).flatMap call.ring.segment =
      (List.range num).flatMap fun i =>
        (pieceAt size num packet i).take ((pieceAt size num packet i).length % 2 ^ 11) := by
    rw [slots, List.flatMap_map]
    apply List.flatMap_congr
    intro i inside
    rw [(progress.handed room i (List.mem_range.mp inside)).segment_eq, isSize]
  rw [each]
  constructor
  · intro same
    by_contra long
    have turn : 0 < num := someTurn (by omega)
    have whole := congrArg List.length (@flatMap_pieceAt size num packet turn)
    have cut := congrArg List.length same
    rw [List.length_flatMap] at whole cut
    have first := pieceAt_zero_length fits
    have less : ((List.range num).map fun i =>
        ((pieceAt size num packet i).take
          ((pieceAt size num packet i).length % 2 ^ 11)).length).sum <
        ((List.range num).map fun i => (pieceAt size num packet i).length).sum := by
      apply List.sum_lt_sum
      · intro i inside
        exact (List.take_sublist _ _).length_le
      · refine ⟨0, List.mem_range.mpr turn, ?_⟩
        rw [List.length_take, first]
        omega
    omega
  · intro short
    have full : (List.range num).flatMap (fun i =>
        (pieceAt size num packet i).take ((pieceAt size num packet i).length % 2 ^ 11)) =
        (List.range num).flatMap (pieceAt size num packet) := by
      apply List.flatMap_congr
      intro i inside
      have atMost := pieceAt_length_le fits (List.mem_range.mp inside)
      have within := pieceAt_length_le_packet size num packet i
      rw [Nat.mod_eq_of_lt (by omega), List.take_length]
    rw [full]
    rcases Nat.eq_zero_or_pos num with rfl | turn
    · rw [Nat.zero_mul] at fits
      rw [List.eq_nil_of_length_eq_zero (Nat.le_zero.mp fits)]
      rfl
    · exact flatMap_pieceAt turn

theorem SendRing.Chained.progress (chained : ring.Chained config) (num : Nat)
    (packet : List UInt8) :
    Progress config ring.sLastTxDescriptor num packet 0 { ring, trace := [] } where
  tail := (Nat.mod_eq_of_lt chained.tail).symm
  chained := chained
  trace := rfl
  handed := fun _ _ before => absurd before (Nat.not_lt_zero _)

/-- A call that finds the tail descriptor free runs its loop. -/
theorem hwGmacSendPacket_of_free (cpu : (ring.desc ring.sLastTxDescriptor).owner = false) :
    hwGmacSendPacket config ring packet =
      (0, SendCall.sendLoop config.txBufferSize.toNat
        (packetNum config (UInt32.ofNat packet.length))
        (packetNum config (UInt32.ofNat packet.length)) packet { ring, trace := [] }) := by
  simp [hwGmacSendPacket, cpu]

/-- A call that does not find the tail descriptor free changes nothing. -/
theorem sends_of_owner (dma : (ring.desc ring.sLastTxDescriptor).owner = true) :
    Sends config ring packet (hwGmacSendPacket config ring packet).1
      (hwGmacSendPacket config ring packet).2 := by
  have refused : hwGmacSendPacket config ring packet = (-1, { ring, trace := [] }) := by
    simp [hwGmacSendPacket, dma]
  have failed : (-1 : Int) ≠ 0 := by decide
  rw [refused]
  exact ⟨trivial, fun sent => absurd sent failed, fun sent => absurd sent failed,
    fun sent => absurd sent failed, fun _ => rfl⟩

/-- A call whose sum overflows sends nothing, and says it has sent the packet. -/
theorem not_sends_of_overflow (cpu : (ring.desc ring.sLastTxDescriptor).owner = false)
    (small : packet.length < 2 ^ 32)
    (overflows : 2 ^ 32 < packet.length + config.txBufferSize.toNat) :
    ¬Sends config ring packet (hwGmacSendPacket config ring packet).1
      (hwGmacSendPacket config ring packet).2 := by
  have nothing : hwGmacSendPacket config ring packet = (0, { ring, trace := [] }) := by
    rw [hwGmacSendPacket_of_free cpu, packetNum_overflow config small overflows]
    rfl
  have bound := config.txBufferSize.toNat_lt
  rw [nothing]
  intro sends
  have empty : [] = packet := sends.packet rfl
  rw [← empty, List.length_nil] at overflows
  omega

/-- What the loop hands over is the packet exactly when it fits. -/
theorem Progress.sends_iff (chained : ring.Chained config)
    (progress : Progress config ring.sLastTxDescriptor num packet num call)
    (fits : packet.length ≤ num * config.txBufferSize.toNat)
    (someTurn : 0 < packet.length → 0 < num) :
    Sends config ring packet 0 call ↔
      min packet.length config.txBufferSize.toNat < 2 ^ 11 ∧ num ≤ config.txDescNum ∧
        ∀ slot ∈ slots config.txDescNum ring.sLastTxDescriptor num,
          (ring.desc slot).owner = false := by
  have handed : call.handed = slots config.txDescNum ring.sLastTxDescriptor num := by
    rw [SendCall.handed, progress.trace]
    exact foldl_handOver _ _ _
  have accepts := chained.accepts_iff ring.sLastTxDescriptor
    (pieceAt config.txBufferSize.toNat num packet)
    (fun i inside => pieceAt_length_le fits inside)
  rw [← progress.trace] at accepts
  constructor
  · intro sends
    have ⟨room, free⟩ := accepts.mp sends.untouched
    have whole := sends.packet rfl
    rw [handed] at whole
    exact ⟨(progress.segments_iff room fits someTurn).mp whole, room, free⟩
  · rintro ⟨describable, room, free⟩
    refine ⟨accepts.mpr ⟨room, free⟩, ?_, ?_, ?_, ?_⟩
    · intro _
      rw [handed, slots_length]
    · intro _
      rw [handed]
      exact (progress.segments_iff room fits someTurn).mpr describable
    · intro _ index slot isHanded
      rw [handed] at isHanded ⊢
      have inside : index < num := by
        have below := (List.getElem?_eq_some_iff.mp isHanded).1
        rwa [slots_length] at below
      rw [slots_getElem? inside] at isHanded
      cases isHanded
      have sent := progress.handed room index inside
      rw [sent.fs, sent.ls, slots_length, decide_eq_true_iff, decide_eq_true_iff]
      exact ⟨sent.owner, Iff.rfl, by omega⟩
    · intro failed
      exact absurd failed (by decide)

/-- A call does what it is for exactly when it finds the tail descriptor taken, or the
packet fits into the free descriptors. -/
theorem hwGmacSendPacket_sends_iff (config : SendConfig) (ring : SendRing)
    (chained : ring.Chained config) (packet : List UInt8)
    (small : packet.length < 2 ^ 32) :
    Sends config ring packet (hwGmacSendPacket config ring packet).1
        (hwGmacSendPacket config ring packet).2 ↔
      (ring.desc ring.sLastTxDescriptor).owner = true ∨ ring.Fits config packet := by
  cases owner : (ring.desc ring.sLastTxDescriptor).owner with
  | true => exact iff_of_true (sends_of_owner owner) (Or.inl rfl)
  | false =>
      rw [Bool.false_eq_true, false_or]
      rcases Nat.lt_or_ge (2 ^ 32) (packet.length + config.txBufferSize.toNat) with
        overflows | inRange
      · refine iff_of_false (not_sends_of_overflow owner small overflows) ?_
        intro fits
        exact Nat.not_le.mpr overflows fits.inRange
      · have ⟨enough, someTurn⟩ := packetNum_spec config small inRange
        have progress := (chained.progress _ packet).sendLoop enough (Nat.zero_add _)
        have sends := progress.sends_iff chained enough someTurn
        rw [Nat.zero_mul, List.drop_zero] at sends
        rw [hwGmacSendPacket_of_free owner, sends]
        constructor
        · rintro ⟨describable, room, free⟩
          exact ⟨inRange, describable, room, free⟩
        · intro fits
          exact ⟨fits.describable, fits.room, fits.free⟩

end Sends

/-- Two descriptors with buffers of two bytes, the second one owned by the DMA or not. -/
def pairRing (second : Bool) : SendRing where
  desc slot := {
    owner := second && slot = 1
    status := 0
    view := default
    buffer1Addr := slot * 2
    next := (slot + 1) % 2 }
  sLastTxDescriptor := 0
  memory := fun _ => 0

/-- The configuration of those descriptors. -/
def pairConfig : SendConfig where
  txDescNum := 2
  txBufferSize := 2
  txBuffer := 0
  positive := Nat.zero_lt_two
  nonempty := Nat.zero_lt_two

theorem pairRing_chained (second : Bool) : (pairRing second).Chained pairConfig where
  tail := Nat.zero_lt_two
  buffer := fun slot _ => (Nat.zero_add (slot * 2)).symm
  next := fun _ _ => rfl

/-- The rule for a packet of three bytes in a free ring. -/
theorem hwGmacSendPacket_sends_three :
    Sends pairConfig (pairRing false) [1, 2, 3]
        (hwGmacSendPacket pairConfig (pairRing false) [1, 2, 3]).1
        (hwGmacSendPacket pairConfig (pairRing false) [1, 2, 3]).2 ↔
      ((pairRing false).desc (pairRing false).sLastTxDescriptor).owner = true ∨
        (pairRing false).Fits pairConfig [1, 2, 3] :=
  hwGmacSendPacket_sends_iff pairConfig (pairRing false)
    (pairRing_chained false) [1, 2, 3] (by decide)

/-- When the second descriptor is still with the DMA, it is overwritten. -/
theorem hwGmacSendPacket_not_sends :
    ¬Sends pairConfig (pairRing true) [1, 2, 3]
      (hwGmacSendPacket pairConfig (pairRing true) [1, 2, 3]).1
      (hwGmacSendPacket pairConfig (pairRing true) [1, 2, 3]).2 := by
  intro sends
  have trace : (hwGmacSendPacket pairConfig (pairRing true) [1, 2, 3]).2.trace =
      [.copy 0 2, .push 0, .copy 2 1, .push 1] := by
    decide
  have untouched := sends.untouched
  rw [trace] at untouched
  have second := untouched.2.2.2.1.1
  exact absurd second (by decide)

end SunWise.Gmac
