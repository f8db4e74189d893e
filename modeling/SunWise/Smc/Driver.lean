import Mathlib.Logic.Function.Basic

/-!
# Static memory controller

The NAND functions of `drv_smc.c`.  The controller takes a command from the address bits of
an access: a write in the command phase sends a start command and the address that is
written, and accesses in the data phase transfer bytes.  What is behind the controller is a
parameter, the bus.  `WaitTicks` only takes time and is left out; the loops that poll the
status have no limit of their own, so the model is given a number of polls.
-/

namespace SunWise.Smc

/-- `SmcBank_e`. -/
inductive SmcBank where
  | eSmcBank0
  | eSmcBank1
  | eSmcBank2
  | eSmcBank3
  | eSmcBank4
  | eSmcBank5
  | eSmcBank6
  | eSmcBank7
  deriving DecidableEq, Repr

/-- `SMC_MEM_BASE`. -/
def smcMemBase : UInt32 := 0x80000000

/-- `GET_SMC_MEM_BANK_BASE_ADDR`, which `HW_SMC_InitConfig` binds to `bank_addr`. -/
def getSmcMemBankBaseAddr (bank : SmcBank) : UInt32 :=
  smcMemBase + UInt32.ofNat bank.ctorIdx * (64 * 1024 * 1024)

/-- `NandCommand_e`. -/
inductive NandCommand where
  | eNandCommandReadData
  | eNandCommandRandomDataOutput
  | eNandCommandReadID
  | eNandCommandReadStatus
  | eNandCommandPageProgram
  | eNandCommandRandomDataInput
  | eNandCommandEraseBlock
  | eNandCommandReset
  | eNandCommandNone
  deriving DecidableEq, Repr

/-- `NandCommandInfo_t`. -/
structure NandCommandInfo where
  startCmd : UInt32
  endCmd : UInt32
  addrCycles : UInt32
  endCmdValid1 : UInt32
  endCmdValid2 : UInt32
  deriving DecidableEq, Repr

/-- `_s_NandCommandInfoList`. -/
def nandCommandInfo : NandCommand → NandCommandInfo
  | .eNandCommandReadData => ⟨0x00, 0x30, 5, 1, 0⟩
  | .eNandCommandRandomDataOutput => ⟨0x05, 0xe0, 2, 1, 0⟩
  | .eNandCommandReadID => ⟨0x90, 0x00, 1, 0, 0⟩
  | .eNandCommandReadStatus => ⟨0x70, 0x00, 0, 0, 0⟩
  | .eNandCommandPageProgram => ⟨0x80, 0x10, 5, 0, 1⟩
  | .eNandCommandRandomDataInput => ⟨0x85, 0x00, 2, 0, 0⟩
  | .eNandCommandEraseBlock => ⟨0x60, 0xd0, 3, 1, 0⟩
  | .eNandCommandReset => ⟨0xff, 0x00, 0, 1, 0⟩
  | .eNandCommandNone => ⟨0x00, 0x00, 0, 0, 0⟩

def nandCommandPhase : UInt32 := 0
def nandDataPhase : UInt32 := 1

/-- `BIT`. -/
def bit (bitn : UInt32) : UInt32 := 1 <<< bitn

/-- `CMD_PHASE_ADDR`. -/
def cmdPhaseAddr (addr nc sc ecv ec : UInt32) : UInt32 :=
  (addr <<< 24) ||| (nc <<< 21) ||| (ecv <<< 20) ||| (nandCommandPhase <<< 19) |||
    (ec <<< 11) ||| (sc <<< 3)

/-- `DATA_PHASE_ADDR`. -/
def dataPhaseAddr (addr last ecc ecv ec : UInt32) : UInt32 :=
  (addr <<< 24) ||| (last <<< 21) ||| (ecv <<< 20) ||| (nandDataPhase <<< 19) |||
    (ec <<< 11) ||| (ecc <<< 10)

/-- `DATA_PHASE_ADDR_MODIFY`. -/
def dataPhaseAddrModify (dpa last ecc : UInt32) : UInt32 :=
  (dpa &&& ~~~(bit 21 ||| bit 10)) ||| (last <<< 21) ||| (ecc <<< 10)

/-- `GetNandPhaseAddr`: the addresses of the command phase and of the data phase. -/
def getNandPhaseAddr (baseAddr : UInt32) (cmd : NandCommand) : UInt32 × UInt32 :=
  let cmdInfo := nandCommandInfo cmd
  (baseAddr + cmdPhaseAddr 0 cmdInfo.addrCycles cmdInfo.startCmd cmdInfo.endCmdValid1
      cmdInfo.endCmd,
    baseAddr + dataPhaseAddr 0 1 0 cmdInfo.endCmdValid2 cmdInfo.endCmd)

/-- What the accesses of the driver do to the device behind the controller. -/
structure SmcBus (Device : Type*) where
  write32 : Device → UInt32 → UInt32 → Device
  write8 : Device → UInt32 → UInt8 → Device
  read8 : Device → UInt32 → UInt8 × Device

variable {Device : Type*} (bus : SmcBus Device)

/-- The loop that reads the status until bit 1 is set, and whether it ends. -/
def nandWaitStatus (dataPhase : UInt32) : Nat → Device → Bool × Device
  | 0, device => (false, device)
  | polls + 1, device =>
      let (data8, device) := bus.read8 device dataPhase
      if (data8 >>> 1) &&& 0x1 = 0 then nandWaitStatus dataPhase polls device
      else (true, device)

/-- The two writes that send a column and a row. -/
def sendAddress (cmdPhase colAddr rowAddr : UInt32) (device : Device) : Device :=
  let device := bus.write32 device cmdPhase (colAddr >>> 8)
  bus.write32 device cmdPhase ((colAddr <<< 24) ||| (rowAddr &&& 0xffffff))

/-- The data phase of transfer `i` of `len`; the last one is marked and checked, as
`DEBUG_SMC_EDAC` is defined. -/
def transferPhase (dataPhase : UInt32) (i len : Nat) : UInt32 :=
  if i = len - 1 then dataPhaseAddrModify dataPhase 1 1
  else dataPhaseAddrModify dataPhase 0 0

/-- The loop of `HW_SMC_NandFlashRead` from transfer `i` on. -/
def readLoop (len : Nat) : Nat → Nat → UInt32 → Device → List UInt8 × Device
  | 0, _, _, device => ([], device)
  | rest + 1, i, dataPhase, device =>
      let dataPhase := transferPhase dataPhase i len
      let (byte, device) := bus.read8 device dataPhase
      let (bytes, device) := readLoop len rest (i + 1) dataPhase device
      (byte :: bytes, device)

/-- The loop of `HW_SMC_NandFlashProgram` from transfer `i` on. -/
def programLoop (len : Nat) : List UInt8 → Nat → UInt32 → Device → Device
  | [], _, _, device => device
  | byte :: bytes, i, dataPhase, device =>
      let dataPhase := transferPhase dataPhase i len
      programLoop len bytes (i + 1) dataPhase (bus.write8 device dataPhase byte)

/-- `HW_SMC_NandFlashErase`. The result is `none` while the status is still polled. -/
def hwSmcNandFlashErase (polls : Nat) (baseAddr rowAddr : UInt32) (device : Device) :
    Option Int × Device :=
  let (cmdPhase, _) := getNandPhaseAddr baseAddr .eNandCommandEraseBlock
  let device := bus.write32 device cmdPhase (rowAddr &&& 0xffffff)
  let (_, dataPhase) := getNandPhaseAddr baseAddr .eNandCommandReadStatus
  let (ready, device) := nandWaitStatus bus dataPhase polls device
  (if ready then some 0 else none, device)

/-- `HW_SMC_NandFlashRead`: the result and the bytes it puts into `pbuf`. -/
def hwSmcNandFlashRead (baseAddr colAddr rowAddr : UInt32) (len : Nat) (device : Device) :
    Int × List UInt8 × Device :=
  let (cmdPhase, dataPhase) := getNandPhaseAddr baseAddr .eNandCommandReadData
  let device := sendAddress bus cmdPhase colAddr rowAddr device
  let (bytes, device) := readLoop bus len len 0 dataPhase device
  (0, bytes, device)

/-- `HW_SMC_NandFlashProgram` with the `len` bytes of `pbuf`. -/
def hwSmcNandFlashProgram (polls : Nat) (baseAddr colAddr rowAddr : UInt32)
    (pbuf : List UInt8) (device : Device) : Option Int × Device :=
  let (cmdPhase, dataPhase) := getNandPhaseAddr baseAddr .eNandCommandPageProgram
  let device := sendAddress bus cmdPhase colAddr rowAddr device
  let device := programLoop bus pbuf.length pbuf 0 dataPhase device
  let (_, dataPhase) := getNandPhaseAddr baseAddr .eNandCommandReadStatus
  let (ready, device) := nandWaitStatus bus dataPhase polls device
  (if ready then some 0 else none, device)

/-- `NandFlashChipInfo_t`. -/
structure NandFlashChipInfo where
  capacity : UInt32
  blocks : UInt32
  blockSize : UInt32
  pages : UInt32
  pageSize : UInt32
  deriving DecidableEq, Repr

/-- `NandFlash_Erase` on a bank. The result is `none` while the status is still polled. -/
def nandFlashErase (polls : Nat) (bank : SmcBank) (chipInfo : NandFlashChipInfo)
    (addr : UInt32) (device : Device) : Option UInt32 × Device :=
  let row := addr / chipInfo.blockSize
  let (result, device) :=
    hwSmcNandFlashErase bus polls (getSmcMemBankBaseAddr bank) row device
  (result.map fun _ => addr, device)

/-- `NandFlash_Read` on a bank. -/
def nandFlashRead (bank : SmcBank) (chipInfo : NandFlashChipInfo) (addr : UInt32)
    (len : Nat) (device : Device) : Nat × List UInt8 × Device :=
  let row := addr / chipInfo.blockSize
  let col := addr % chipInfo.blockSize
  let (_, bytes, device) :=
    hwSmcNandFlashRead bus (getSmcMemBankBaseAddr bank) col row len device
  (len, bytes, device)

/-- `NandFlash_Write` on a bank. The result is `none` while the status is still polled. -/
def nandFlashWrite (polls : Nat) (bank : SmcBank) (chipInfo : NandFlashChipInfo)
    (addr : UInt32) (pbuf : List UInt8) (device : Device) : Option Nat × Device :=
  let row := addr / chipInfo.blockSize
  let col := addr % chipInfo.blockSize
  let (result, device) :=
    hwSmcNandFlashProgram bus polls (getSmcMemBankBaseAddr bank) col row pbuf device
  (result.map fun _ => pbuf.length, device)

end SunWise.Smc
