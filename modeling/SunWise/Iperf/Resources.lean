import SunWise.Iperf.Tasks
import SunWise.Library.Interaction

/-!
# Resources of the network tests

The ledger holds what a run has to give back: the memory, the connections, the netbufs, and
the flag that the shell command has set.
-/

namespace SunWise.Iperf

open Library

/-- What is live. `payload` is the size of the payload that `netbuf_alloc` returned. -/
structure Ledger where
  heap : Option Nat
  netconns : List Nat
  netbufs : List Nat
  payload : Option Nat
  created : Bool
  deriving DecidableEq, Repr

namespace Ledger

/-- The ledger before a run. -/
def initial (created : Bool) : Ledger where
  heap := none
  netconns := []
  netbufs := []
  payload := none
  created := created

@[simp] def next (ledger : Ledger) : Effect → Ledger
  | .pvPortMalloc size => { ledger with heap := some size }
  | .vPortFree _ => { ledger with heap := none }
  | .netconnNew conn => { ledger with netconns := conn :: ledger.netconns }
  | .netconnDelete conn => { ledger with netconns := ledger.netconns.erase conn }
  | .netbuf buf => { ledger with netbufs := buf :: ledger.netbufs }
  | .netbufAlloc _ size => { ledger with payload := some size }
  | .netbufDelete buf => { ledger with netbufs := ledger.netbufs.erase buf, payload := none }
  | .clearCreated => { ledger with created := false }
  | _ => ledger

/-- The size of the live memory behind a pointer. -/
@[simp] def size (ledger : Ledger) : Pointer → Option Nat
  | .null => none
  | .heap => ledger.heap
  | .payload => ledger.payload

/-- Only live memory is written, only live handles are used, and `vPortFree` gets what
`pvPortMalloc` returned, once. -/
@[simp] def Permits (ledger : Ledger) : Effect → Prop
  | .stored pointer start count => ∃ size ∈ ledger.size pointer, start + count ≤ size
  | .vPortFree pointer => pointer = .heap ∧ ledger.heap.isSome
  | .netconnWrite conn _ _ | .netconnClose conn | .netconnDelete conn => conn ∈ ledger.netconns
  | .netconnSendto conn buf => conn ∈ ledger.netconns ∧ buf ∈ ledger.netbufs
  | .netbufAlloc buf _ | .netbufDelete buf => buf ∈ ledger.netbufs
  | _ => True

/-- Everything is given back. -/
structure Settled (ledger : Ledger) : Prop where
  heap : ledger.heap = none
  netconns : ledger.netconns = []
  netbufs : ledger.netbufs = []
  created : ledger.created = false

theorem settled_iff (ledger : Ledger) :
    ledger.Settled ↔ ledger.heap = none ∧ ledger.netconns = [] ∧ ledger.netbufs = [] ∧
      ledger.created = false :=
  ⟨fun ⟨heap, netconns, netbufs, created⟩ => ⟨heap, netconns, netbufs, created⟩,
    fun ⟨heap, netconns, netbufs, created⟩ => ⟨heap, netconns, netbufs, created⟩⟩

end Ledger

/-- A function, and whether the shell command has set a flag for it. -/
structure IperfTask where
  Point : Type
  start : Point
  step : Point → Reply → Option (Point × List Effect)
  Returned : Point → Prop
  created : Bool

/-- The functions. -/
inductive IperfFunction where
  | tcpClient
  | udpServer
  | udpClient
  | udpSpeedClient
  | tcpSpeedClient
  deriving DecidableEq, Repr

def IperfFunction.task : IperfFunction → IperfTask
  | .tcpClient => ⟨TcpClientPoint, .pvPortMalloc, tcpClientStep, (· = .returned), false⟩
  | .udpServer => ⟨UdpServerPoint, .pvPortMalloc, udpServerStep, fun _ => False, false⟩
  | .udpClient => ⟨UdpClientPoint, .pvPortMalloc, udpClientStep, (· = .returned), false⟩
  | .udpSpeedClient => ⟨UdpSpeedPoint, .pvPortMalloc, udpSpeedStep, (· = .returned), true⟩
  | .tcpSpeedClient => ⟨TcpSpeedPoint, .pvPortMalloc, tcpSpeedStep, (· = .returned), true⟩

/-- A run of a function on the results of its calls. -/
def IperfTask.run (task : IperfTask) (replies : List Reply) :
    Option (task.Point × List Effect) :=
  interact task.step task.start replies

/-- The run uses its resources well, and has given them back if it has returned. -/
def IperfTask.KeepsResources (task : IperfTask) (final : task.Point) (effects : List Effect) :
    Prop :=
  Disciplined Ledger.next Ledger.Permits Ledger.Settled task.Returned
    (.initial task.created) final effects

/-- If the connection ends, every attempt to connect succeeded and nothing was received. -/
def TcpClientClear (replies : List Reply) : Prop :=
  .netconnRecv .failed ∈ replies →
    (∀ err, .netconnConnect err ∈ replies → err = errOk) ∧
      ∀ buf first others, .netconnRecv (.data buf first others) ∉ replies

/-- No datagram has 4096 bytes, or none is empty when there is no memory. -/
def UdpServerClear (replies : List Reply) : Prop :=
  ∀ buf first others, .netconnRecv (.data buf first others) ∈ replies →
    first + others.sum ≠ if [.pvPortMalloc true] <+: replies then 4096 else 0

/-- There is a netbuf if there is memory. -/
def UdpClientClear (replies : List Reply) : Prop :=
  ¬ [.pvPortMalloc true, .netbufNew none] <+: replies

/-- There is memory, and a connection. -/
def SpeedClientClear (replies : List Reply) : Prop :=
  ¬ [.pvPortMalloc false] <+: replies ∧ ¬ [.pvPortMalloc true, .netconnNew none] <+: replies

def IperfFunction.Clear : IperfFunction → List Reply → Prop
  | .tcpClient => TcpClientClear
  | .udpServer => UdpServerClear
  | .udpClient => UdpClientClear
  | .udpSpeedClient => SpeedClientClear
  | .tcpSpeedClient => SpeedClientClear

end SunWise.Iperf
