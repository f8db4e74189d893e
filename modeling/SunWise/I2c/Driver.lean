import SunWise.Library.Register

/-!
# I2C driver

The block transfers of `drv_i2c.c`.  What the controller answers is not known to the driver:
a register that is polled or read has a stream of values.  The words that are written to
`DATA_CMD` are kept in the order of the writes, and so is every byte that is stored.
-/

namespace SunWise.I2c

open Library

@[simp] def i2cDataCmdRestartPos : Nat := 10
@[simp] def i2cDataCmdStopPos : Nat := 9
@[simp] def i2cDataCmdCmdPos : Nat := 8
@[simp] def i2cDataCmdDatPos : Nat := 0

@[simp] def i2cEnableEnablePos : Nat := 0

@[simp] def i2cStatusRfnePos : Nat := 3
@[simp] def i2cStatusTfePos : Nat := 2
@[simp] def i2cStatusTfnfPos : Nat := 1

/-- `CMD_WRITE`. -/
@[simp] def cmdWrite : Bool := false

/-- `CMD_READ`. -/
@[simp] def cmdRead : Bool := true

/-- The polls of `_wait_status` in the transfers. -/
def waitTimeout : Nat := 10 * 1000

/-- The registers of `I2C_TypeDef` that the transfers use. `status` and `received` are the
values of the next reads of `STATUS` and of `DATA_CMD`. -/
structure I2cTypeDef where
  enable : BitVec 32
  status : Nat → BitVec 32
  received : Nat → BitVec 32
  dataCmd : List (BitVec 32)

/-- The member of `DeviceI2cConfig_t` that the transfers use. -/
structure DeviceI2cConfig where
  master : BitVec 8
  deriving DecidableEq, Repr

namespace I2cTypeDef

variable (i2c : I2cTypeDef)

/-- A read of `STATUS`. -/
def readStatus : BitVec 32 × I2cTypeDef :=
  (i2c.status 0, { i2c with status := fun read => i2c.status (read + 1) })

/-- A read of `DATA_CMD`. -/
def readData : BitVec 32 × I2cTypeDef :=
  (i2c.received 0, { i2c with received := fun read => i2c.received (read + 1) })

/-- A write to `DATA_CMD`. -/
def push (word : BitVec 32) : I2cTypeDef :=
  { i2c with dataCmd := i2c.dataCmd ++ [word] }

/-- A master is enabled for a transfer, and disabled behind it. -/
def setEnable (config : DeviceI2cConfig) (value : Bool) : I2cTypeDef :=
  if config.master ≠ 0 then
    { i2c with enable := setBit i2c.enable i2cEnableEnablePos value }
  else i2c

end I2cTypeDef

/-- `_wait_status`. The body of the loop is run at least once. -/
def waitStatus (flag : Nat) (value : Bool) : Nat → I2cTypeDef → Bool × I2cTypeDef
  | timeout + 2, i2c =>
      let (status, i2c) := i2c.readStatus
      if status.getLsbD flag = value then (true, i2c) else waitStatus flag value (timeout + 1) i2c
  | _, i2c =>
      let (status, i2c) := i2c.readStatus
      (status.getLsbD flag = value, i2c)

/-- The number of bytes that a loop has transferred, and whether it was left for
a timeout. -/
structure Progress where
  count : Nat
  timedOut : Bool
  deriving DecidableEq, Repr

/-- A loop that waits for room in the FIFO before each word, with the turns that are left. -/
def pushLoop (word : Nat → BitVec 32) : Nat → Nat → I2cTypeDef → Progress × I2cTypeDef
  | 0, txCnt, i2c => (⟨txCnt, false⟩, i2c)
  | turns + 1, txCnt, i2c =>
      let (ready, i2c) := waitStatus i2cStatusTfnfPos true waitTimeout i2c
      if ready then pushLoop word turns (txCnt + 1) (i2c.push (word txCnt))
      else (⟨txCnt, true⟩, i2c)

/-- The word for byte `txCnt` of a write of `total` bytes. -/
def writeWord (pcmd pdata : Nat → BitVec 8) (cmdLen total txCnt : Nat) : BitVec 32 :=
  let reg := setBit 0 i2cDataCmdCmdPos cmdWrite
  let reg := setBit reg i2cDataCmdRestartPos false
  let reg := setBit reg i2cDataCmdStopPos (¬ txCnt + 1 < total)
  if txCnt < cmdLen then reg ||| ((pcmd txCnt).setWidth 32 <<< i2cDataCmdDatPos)
  else reg ||| ((pdata (txCnt - cmdLen)).setWidth 32 <<< i2cDataCmdDatPos)

/-- `HW_I2C_WriteBlock`: what it returns, whether it was left for a timeout, and the
registers. -/
def hwI2cWriteBlock (config? : Option DeviceI2cConfig) (pcmd : Nat → BitVec 8)
    (cmdLen : BitVec 32) (pdata : Nat → BitVec 8) (dataLen : BitVec 32) (i2c : I2cTypeDef) :
    Progress × I2cTypeDef :=
  match config? with
  | none => (⟨0, false⟩, i2c)
  | some config =>
      let total := (cmdLen + dataLen).toNat
      let (progress, i2c) := pushLoop (writeWord pcmd pdata cmdLen.toNat total) total 0
        (i2c.setEnable config true)
      let i2c :=
        if progress.timedOut then i2c else (waitStatus i2cStatusTfePos true waitTimeout i2c).2
      (progress, i2c.setEnable config false)

/-- The word for byte `txCnt` of the command. -/
def commandWord (pcmd : Nat → BitVec 8) (txCnt : Nat) : BitVec 32 :=
  let reg := setBit 0 i2cDataCmdCmdPos cmdWrite
  let reg := setBit reg i2cDataCmdRestartPos false
  let reg := setBit reg i2cDataCmdStopPos false
  reg ||| ((pcmd txCnt).setWidth 32 <<< i2cDataCmdDatPos)

/-- The word that asks for byte `rxCnt`, behind `txCnt` bytes of a command. -/
def readWord (txCnt dataLen rxCnt : Nat) : BitVec 32 :=
  let reg := setBit 0 i2cDataCmdCmdPos cmdRead
  let reg := setBit reg i2cDataCmdRestartPos (txCnt > 0 ∧ rxCnt = 0)
  let reg := setBit reg i2cDataCmdStopPos (¬ rxCnt + 1 < dataLen)
  reg ||| ((0xff : BitVec 32) <<< i2cDataCmdDatPos)

/-- The loop of `HW_I2C_ReadBlock` over the data, with the turns that are left. The bytes are
stored to `pdata`, one after the other. -/
def readLoop (word : Nat → BitVec 32) :
    Nat → Nat → List (BitVec 8) → I2cTypeDef → Progress × List (BitVec 8) × I2cTypeDef
  | 0, rxCnt, pdata, i2c => (⟨rxCnt, false⟩, pdata, i2c)
  | turns + 1, rxCnt, pdata, i2c =>
      let (ready, i2c) := waitStatus i2cStatusRfnePos true waitTimeout (i2c.push (word rxCnt))
      if ready then
        let (data, i2c) := i2c.readData
        readLoop word turns (rxCnt + 1) (pdata ++ [data.setWidth 8]) i2c
      else (⟨rxCnt, true⟩, pdata, i2c)

/-- `HW_I2C_ReadBlock`: what it returns, whether it was left for a timeout, what it has
stored, and the registers. -/
def hwI2cReadBlock (config? : Option DeviceI2cConfig) (pcmd : Nat → BitVec 8)
    (cmdLen dataLen : BitVec 32) (i2c : I2cTypeDef) :
    Progress × List (BitVec 8) × I2cTypeDef :=
  match config? with
  | none => (⟨0, false⟩, [], i2c)
  | some config =>
      let (sent, i2c) := pushLoop (commandWord pcmd) cmdLen.toNat 0 (i2c.setEnable config true)
      let (progress, pdata, i2c) :=
        if sent.timedOut then (⟨0, true⟩, [], i2c)
        else readLoop (readWord sent.count dataLen.toNat) dataLen.toNat 0 [] i2c
      (progress, pdata, i2c.setEnable config false)

end SunWise.I2c
