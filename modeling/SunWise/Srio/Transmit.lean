import Mathlib.Logic.Function.Basic
import SunWise.Library.Register

/-!
# SRIO transfers

The four transfer functions of `drv_srio.c`, called by any number of tasks next to the
DMA engines.  A call programs its engine, starts it, polls the completion bit of the
engine, and in the descriptor variants clears the whole status register.
-/

namespace SunWise.Srio

open Library

/-- `SrioMode_e`. -/
inductive SrioMode where
  | eSrioModeRdma
  | eSrioModeWdma
  deriving DecidableEq, Repr

namespace SrioMode

/-- `BCTLR_RDMA_EN` and `BCTLR_WDMA_EN`. -/
def enablePos : SrioMode → Nat
  | .eSrioModeRdma => 3
  | .eSrioModeWdma => 2

/-- The value of the enumerator. -/
def value : SrioMode → BitVec 32
  | .eSrioModeRdma => 0
  | .eSrioModeWdma => 1

end SrioMode

/-- `SrioEngine_e`. -/
abbrev SrioEngine := Fin 8

@[simp] def rabPageSize : BitVec 32 := 0x800
@[simp] def pageSelectMask : BitVec 32 := 0xf000ffff
@[simp] def pageSelectShift : Nat := 16

/-- `SRIO_DMA_desc_setting`. -/
structure SrioDmaDescSetting where
  valid : BitVec 32
  nextDescPointerValid : BitVec 32
  transmitLength : BitVec 32
  sourceAddr : BitVec 32
  destAddr : BitVec 32
  nextDescAddr : BitVec 32
  deriving DecidableEq, Repr

/-- `SRIO_DMA_desc_node`. -/
structure SrioDmaDescNode where
  descCtrlW0 : BitVec 32
  sourceAddrW1 : BitVec 32
  destAddrW2 : BitVec 32
  nextDescAddrW3 : BitVec 32
  deriving DecidableEq, Repr

/-- The registers `DMAIAD*` through which a descriptor is written into an engine. -/
structure SrioDmaEntry where
  dmaiadsr : BitVec 32
  dmaiadcr : BitVec 32
  dmaiadsar : BitVec 32
  dmaiaddar : BitVec 32
  dmaiadnpar : BitVec 32
  deriving DecidableEq, Repr

/-- The registers of one device that a transfer uses, and the transfers of its engines.
Transfers are numbered in the order of their starts; `running` and `completed` are not
visible to the driver. -/
structure SrioDevice where
  bctlr : BitVec 32
  apbcs : BitVec 32
  dmacr : SrioMode → SrioEngine → BitVec 32
  /-- The descriptor node that `DMADAR` points at. -/
  dmadar : SrioMode → SrioEngine → Option SrioDmaDescNode
  entry : SrioDmaEntry
  /-- `WDMAISR` and `RDMAISR`. -/
  dmaisr : SrioMode → BitVec 32
  running : SrioMode → SrioEngine → Option Nat
  completed : List Nat
  started : Nat

/-- `_BuildEntry`. -/
def buildEntry (mode : SrioMode) (engine : SrioEngine)
    (srcAddr dstAddr len index : BitVec 32) : SrioDmaEntry where
  dmaiadsr := mode.value ||| (BitVec.ofNat 32 engine <<< 1) ||| ((index &&& 0xf) <<< 4)
  dmaiadcr := 1 ||| 2 ||| ((len >>> 2) <<< 5)
  dmaiadsar := srcAddr >>> 2
  dmaiaddar := dstAddr >>> 2
  dmaiadnpar := (index >>> 7) &&& 1

/-- `_set_DMA_desc_node`. -/
def setDmaDescNode (setting : SrioDmaDescSetting) : SrioDmaDescNode where
  descCtrlW0 := setting.valid ||| (setting.nextDescPointerValid <<< 1) |||
    (((setting.transmitLength >>> 2) &&& 0x3ffff) <<< 5)
  sourceAddrW1 := setting.sourceAddr >>> 2
  destAddrW2 := setting.destAddr >>> 2
  nextDescAddrW3 := setting.nextDescAddr >>> 3

/-- A register write of a call before its engine is started. -/
inductive Setup where
  /-- `BCTLR |= BCTLR_xDMA_EN`. -/
  | enable
  /-- `_PageConfig`. -/
  | pageConfig (offset : BitVec 32)
  /-- `xDMACR = value`. -/
  | control (value : BitVec 32)
  /-- `_BuildEntry`. -/
  | entry (srcAddr dstAddr len index : BitVec 32)
  /-- `xDMADAR`, set to the address of the node, and `xDMADAER`. -/
  | descriptor (desc : SrioDmaDescNode)
  deriving DecidableEq, Repr

/-- A call of one of the transfer functions. -/
structure SrioCall where
  mode : SrioMode
  engine : SrioEngine
  setup : List Setup
  /-- The call ends with `xDMAISR = 0xffffffff`. -/
  clears : Bool
  deriving DecidableEq, Repr

/-- `SRIO_WDMA_Transmit` and `SRIO_RDMA_Transmit`. -/
def srioTransmit (mode : SrioMode) (engine : SrioEngine)
    (srcAddr dstAddr len destId : BitVec 32) : SrioCall where
  mode := mode
  engine := engine
  setup :=
    [.enable, .pageConfig 0x20800, .control (4 ||| (destId <<< 16)),
      .entry srcAddr dstAddr len 0]
  clears := false

/-- `SRIO_WDMA_desc_transmit` and `SRIO_RDMA_desc_transmit`. -/
def srioDescTransmit (mode : SrioMode) (engine : SrioEngine) (desc : SrioDmaDescNode)
    (destId : BitVec 32) : SrioCall where
  mode := mode
  engine := engine
  setup :=
    [.enable, .pageConfig 0x20800, .control (destId <<< 16), .descriptor desc]
  clears := true

/-- `SRIO_WDMA_Transmit2` and `SRIO_RDMA_Transmit2`. -/
def srioTransmit2 (mode : SrioMode) (engine : SrioEngine)
    (srcAddr dstAddr len destId : BitVec 32) : SrioCall :=
  srioDescTransmit mode engine
    (setDmaDescNode
      { sourceAddr := srcAddr, destAddr := dstAddr, transmitLength := len
        nextDescPointerValid := 1, nextDescAddr := 0, valid := 1 })
    destId

def srioWdmaTransmit := srioTransmit .eSrioModeWdma
def srioRdmaTransmit := srioTransmit .eSrioModeRdma
def srioWdmaTransmit2 := srioTransmit2 .eSrioModeWdma
def srioRdmaTransmit2 := srioTransmit2 .eSrioModeRdma

/-- A function of mode and engine with one value replaced. -/
def updateEngine {Value : Type*} (values : SrioMode → SrioEngine → Value) (mode : SrioMode)
    (engine : SrioEngine) (value : Value) : SrioMode → SrioEngine → Value :=
  Function.update values mode (Function.update (values mode) engine value)

namespace SrioDevice

variable (device : SrioDevice) (mode : SrioMode) (engine : SrioEngine)

/-- `xDMAISR & BIT(engine)`. -/
def done : Bool := (device.dmaisr mode).getLsbD engine

/-- A register write before the start. -/
def apply : Setup → SrioDevice
  | .enable => { device with bctlr := setBit device.bctlr mode.enablePos true }
  | .pageConfig offset =>
      { device with
        apbcs := (device.apbcs &&& pageSelectMask) |||
          ((offset / rabPageSize) <<< pageSelectShift) }
  | .control value => { device with dmacr := updateEngine device.dmacr mode engine value }
  | .entry srcAddr dstAddr len index =>
      { device with entry := buildEntry mode engine srcAddr dstAddr len index }
  | .descriptor desc =>
      { device with dmadar := updateEngine device.dmadar mode engine (some desc) }

/-- `xDMACR |= DMACR_START`. An engine that is started while it runs is taken over by the
new transfer. -/
def start : SrioDevice :=
  { device with
    dmacr := updateEngine device.dmacr mode engine (device.dmacr mode engine ||| 1)
    running := updateEngine device.running mode engine (some device.started)
    started := device.started + 1 }

/-- `xDMAISR = 0xffffffff`. -/
def clear : SrioDevice :=
  { device with
    dmaisr := Function.update device.dmaisr mode
      (writeOneToClear 0xffffffff (device.dmaisr mode) 0xffffffff) }

/-- The engine completes the transfer that it runs. -/
def complete : Option SrioDevice :=
  (device.running mode engine).map fun transfer =>
    { device with
      dmaisr := Function.update device.dmaisr mode
        (setBit (device.dmaisr mode) engine true)
      running := updateEngine device.running mode engine none
      completed := transfer :: device.completed }

end SrioDevice

/-! ## The tasks -/

/-- Where a task is. -/
inductive SrioPc where
  | idle
  /-- Before the start, with the writes that are still to be made. -/
  | prepare (call : SrioCall) (rest : List Setup)
  /-- In the polling loop, for this transfer. -/
  | poll (call : SrioCall) (transfer : Nat)
  /-- Before the status register is cleared. -/
  | clear (call : SrioCall) (transfer : Nat)
  /-- Before the return. -/
  | leave (call : SrioCall) (transfer : Nat)
  deriving DecidableEq, Repr

/-- The device and its tasks. `returned` lists the transfers of the calls that have
returned. -/
structure SrioState (Task : Type) where
  device : SrioDevice
  pc : Task → SrioPc
  returned : List Nat

/-- Who moves. -/
inductive SrioLabel (Task : Type) where
  /-- A task calls a transfer function. -/
  | call (task : Task) (call : SrioCall)
  /-- A task makes its next step. -/
  | step (task : Task)
  /-- An engine completes. -/
  | complete (mode : SrioMode) (engine : SrioEngine)

section Machine

variable {Task : Type} [DecidableEq Task]

/-- The task goes on with another device. -/
def SrioState.goto (state : SrioState Task) (task : Task) (device : SrioDevice)
    (pc : SrioPc) : SrioState Task :=
  { state with device, pc := Function.update state.pc task pc }

/-- The next step of a task. The polling loop is left when the bit is set. -/
def taskStep (state : SrioState Task) (task : Task) : Option (SrioState Task) :=
  let device := state.device
  match state.pc task with
  | .idle => none
  | .prepare call (write :: rest) =>
      some (state.goto task (device.apply call.mode call.engine write) (.prepare call rest))
  | .prepare call [] =>
      some (state.goto task (device.start call.mode call.engine)
        (.poll call device.started))
  | .poll call transfer =>
      if device.done call.mode call.engine then
        some (state.goto task device
          (if call.clears then .clear call transfer else .leave call transfer))
      else none
  | .clear call transfer =>
      some (state.goto task (device.clear call.mode) (.leave call transfer))
  | .leave _ transfer =>
      some { state.goto task device .idle with returned := transfer :: state.returned }

/-- One move. -/
def srioStep (state : SrioState Task) : SrioLabel Task → Option (SrioState Task)
  | .call task call =>
      if state.pc task = .idle then
        some (state.goto task state.device (.prepare call call.setup))
      else none
  | .step task => taskStep state task
  | .complete mode engine =>
      (state.device.complete mode engine).map fun device => { state with device }

end Machine

/-- The device after reset. -/
def SrioDevice.init : SrioDevice where
  bctlr := 0
  apbcs := 0
  dmacr := fun _ _ => 0
  dmadar := fun _ _ => none
  entry := ⟨0, 0, 0, 0, 0⟩
  dmaisr := fun _ => 0
  running := fun _ _ => none
  completed := []
  started := 0

/-- No task has called yet. -/
def SrioState.init (Task : Type) : SrioState Task where
  device := SrioDevice.init
  pc := fun _ => .idle
  returned := []

end SunWise.Srio
