import SunWise.Gmac.InputSteps

/-!
# Waking the receive task

The DMA raises the receive interrupt, the handler gives a counting semaphore, and the
task `ethernetif_input` takes it, drains the ring and blocks again.  A frame is completed
at once, with all of its descriptors; the handler runs only outside the critical sections
of the task, and the task does not run while the handler does.
-/

namespace SunWise.Gmac

open Library

/-- `TCPIP_MBOX_SIZE`, the maximum of `g_eth_semaphore`. -/
def tcpipMboxSize : Nat := 20

/-- What the DMA leaves in one descriptor: a status word, and bytes in the buffer. -/
structure Segment where
  status : BitVec 31
  bytes : List UInt8

namespace Segment

variable (segment : Segment)

/-- A descriptor with the status word of the segment. -/
def descriptor : GmacDes RxView :=
  { (default : GmacDes RxView) with status := segment.status }

/-- The segment as a completed descriptor, wherever it lies. -/
def fill : Fill where
  slot := 0
  first := segment.descriptor.first
  last := segment.descriptor.last
  bytes := segment.bytes

end Segment

/-- A frame in one or several descriptors. -/
structure RxFrame (config : RxConfig) where
  segments : List Segment
  accepts : Accepts underWay Continues [] (segments.map Segment.fill)
  whole : Whole (segments.map Segment.fill)
  len : ∀ segment ∈ segments, segment.descriptor.rxLength = segment.bytes.length
  fits : ∀ segment ∈ segments, segment.bytes.length ≤ config.rxBufferSize

/-- Where `GMAC_IRQHandler` is. -/
inductive IsrPc where
  | idle
  /-- `status` has been read, the register has not been written. -/
  | read (status : Bool)
  /-- The register has been cleared. -/
  | cleared (status : Bool)
  deriving DecidableEq, Repr

/-- Where `ethernetif_input` is. -/
inductive TaskPc where
  /-- At `xSemaphoreTake(g_eth_semaphore, portMAX_DELAY)`. -/
  | take
  /-- In `low_level_input`, in a critical section. -/
  | input
  /-- Between the two critical sections, with a frame. -/
  | exited
  /-- At `netif->input`, in a critical section. -/
  | deliver
  /-- At `xSemaphoreTake(g_eth_semaphore, 0)`, in a critical section. -/
  | drain
  deriving DecidableEq, Repr

/-- A critical section masks the interrupt. -/
def TaskPc.critical : TaskPc → Bool
  | .input | .deliver | .drain => true
  | .take | .exited => false

/-- The receive side with the interrupt. `ri` is bit 6 of `Register5`, the only one that
is enabled in `Register7` besides the summary bit. -/
structure WakeState where
  input : InputState
  ri : Bool
  isr : IsrPc
  gmacRxFlag : Bool
  ethSemaphore : Nat
  task : TaskPc

/-- Who moves. -/
inductive WakeLabel (config : RxConfig) where
  /-- The DMA completes a frame. -/
  | frame (frame : RxFrame config)
  /-- The handler is entered, or makes its next step. -/
  | isr
  /-- `pbuf_alloc` returns in `low_level_input`. -/
  | alloc (ok : Bool)
  /-- `netif->input` returns, with `ERR_OK` or not. -/
  | netif (ok : Bool)
  /-- Any other step of the task. -/
  | task

/-- The DMA completes the descriptors of a frame. -/
def completeFrame (input : InputState) (segments : List Segment) : Option InputState :=
  run inputStep input (segments.map fun segment => .dma segment.status segment.bytes)

/-- A step of `GMAC_IRQHandler`. -/
def gmacIrqHandlerStep (state : WakeState) : Option WakeState :=
  match state.isr with
  | .idle =>
      if state.ri && !state.task.critical then some { state with isr := .read state.ri }
      else none
  | .read status => some { state with ri := false, isr := .cleared status }
  | .cleared status =>
      if status || state.gmacRxFlag then
        some { state with
          isr := .idle
          gmacRxFlag := false
          ethSemaphore := min (state.ethSemaphore + 1) tcpipMboxSize }
      else some { state with isr := .idle }

/-- Where `ethernetif_input` goes after a step of `low_level_input`: it stays there until
`low_level_input` returns, which it does with the chain it has, or with `NULL`. -/
def afterInput (before after : InputPc) : TaskPc :=
  match after, before with
  | .idle, .stopping (some _) _ _ => .exited
  | .idle, _ => .take
  | _, _ => .input

/-- A step of `ethernetif_input` without a choice. -/
def ethernetifInputStep (state : WakeState) : Option WakeState :=
  match state.task with
  | .take =>
      if 0 < state.ethSemaphore then
        some { state with ethSemaphore := state.ethSemaphore - 1, task := .input }
      else none
  | .input =>
      (inputStep state.input .input).map fun input =>
        { state with input, task := afterInput state.input.pc input.pc }
  | .exited => some { state with task := .deliver }
  | .deliver => none
  | .drain =>
      some { state with ethSemaphore := state.ethSemaphore - 1, task := .input }

/-- One move. -/
def wakeStep (config : RxConfig) (state : WakeState) :
    WakeLabel config → Option WakeState
  | .frame frame =>
      (completeFrame state.input frame.segments).map fun input =>
        { state with input, ri := true }
  | .isr => gmacIrqHandlerStep state
  | .alloc ok =>
      if state.isr = .idle ∧ state.task = .input then
        (inputStep state.input (.alloc ok)).map fun input => { state with input }
      else none
  | .netif ok =>
      if state.isr = .idle ∧ state.task = .deliver then
        some { state with task := if ok then .drain else .take }
      else none
  | .task => if state.isr = .idle then ethernetifInputStep state else none

/-- Before the task starts. -/
def WakeState.init (config : RxConfig) (desc : Nat → GmacDes RxView)
    (memory : Nat → UInt8) : WakeState where
  input := InputState.init config desc memory
  ri := false
  isr := .idle
  gmacRxFlag := false
  ethSemaphore := 0
  task := .take

end SunWise.Gmac
