import SunWise.Gmac.RxCopy
import SunWise.Gmac.RxRing
import SunWise.Library.Runs

/-!
# Receiving

`low_level_input` called again and again, one call or one turn of a loop at a time, next
to the DMA.  Whether `pbuf_alloc` finds memory is chosen by the label.
-/

namespace SunWise.Gmac

open Library

/-- Where `low_level_input` is. -/
inductive InputPc where
  /-- Between two calls, before `HW_GMAC_GetRecvPacket`. -/
  | idle
  /-- `pbuf_alloc` for a frame of this length. -/
  | alloc (len : Nat)
  /-- In the copy loop. -/
  | copying (copy : CopyState)
  /-- In the loop of `HW_GMAC_StopRecvPacket`. -/
  | stopping (p : Option (List Pbuf)) (i : Nat) (nextDescriptor : Option Nat)

/-- The receive side with the task that calls `low_level_input`. `results` lists the
frames that have been returned; calls that return `NULL` add nothing. -/
structure InputState where
  ring : RxRing
  pc : InputPc
  results : List (List UInt8)

/-- Who moves. -/
inductive InputLabel where
  /-- The DMA completes a descriptor. -/
  | dma (status : BitVec 31) (bytes : List UInt8)
  /-- `pbuf_alloc` returns, with a chain or with `NULL`. -/
  | alloc (ok : Bool)
  /-- Any other step of `low_level_input`. -/
  | input
  deriving DecidableEq

/-- One move. A `NULL` descriptor in `HW_GMAC_StopRecvPacket` is a fault; the model stops
there. -/
def inputStep (state : InputState) : InputLabel → Option InputState
  | .dma status bytes =>
      (state.ring.fill status bytes).map fun ring => { state with ring }
  | .alloc ok =>
      match state.pc with
      | .alloc len =>
          some { state with
            pc :=
              if ok then .copying (CopyState.start (pbufAlloc len))
              else .stopping none 0 state.ring.rxDescStart }
      | _ => none
  | .input =>
      match state.pc with
      | .idle =>
          let (len, ring) := state.ring.getRecvPacket
          some { state with ring, pc := if len = 0 then .idle else .alloc len }
      | .alloc _ => none
      | .copying copy =>
          if copy.totalIndex < state.ring.rxBufferTotalLen then
            some { state with
              pc := .copying
                (copy.turn state.ring.rxBufferList state.ring.rxBufferLen
                  state.ring.memory) }
          else
            some { state with pc := .stopping (some copy.chain) 0 state.ring.rxDescStart }
      | .stopping p i nextDescriptor =>
          if i < state.ring.rxBufferCount then
            nextDescriptor.map fun descriptor =>
              { state with
                ring := state.ring.giveBack descriptor
                pc := .stopping p (i + 1) (some (state.ring.desc descriptor).next) }
          else
            some { state with
              pc := .idle
              results := state.results ++ (p.map chainBytes).toList }

/-- Before the first call: the receive descriptors are initialised. -/
def InputState.init (config : RxConfig) (desc : Nat → GmacDes RxView)
    (memory : Nat → UInt8) : InputState where
  ring := RxRing.init config desc memory
  pc := .idle
  results := []

end SunWise.Gmac
