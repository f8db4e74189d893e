import SunWise.Shell.Editor

/-!
# Shell commands

The handlers of `xshell_command.c` and their table `gsShellCommands`.  A handler gets the
strings behind the argument pointers; a pointer that was never stored has none, and a
handler that reads it fails.  Otherwise it returns its static variables and what it does: calls
of the drivers, and texts.  What a device answers shows up only as an argument of a text.
-/

namespace SunWise.Shell

open Library

/-- An argument of `xprintf`. -/
inductive PrintArgument where
  | number (value : UInt32)
  | text (text : List UInt8)
  /-- A value that a device has returned. -/
  | device
  deriving DecidableEq, Repr

/-- `CanFormat_e`. -/
inductive CanFormat where
  | eCanFormat_Standard
  | eCanFormat_Extend
  deriving DecidableEq, Repr

/-- The tasks that handlers create. -/
inductive ShellTask where
  | tcpClientTask
  | udpSpeedClientTask
  | tcpSpeedClientTask
  deriving DecidableEq, Repr

/-- What a handler does. -/
inductive ShellAction where
  | xprintf (format : String) (arguments : List PrintArgument)
  /-- The text that `Shell_SplitCommand` prints. -/
  | print (text : List UInt8)
  /-- `"%02x "` for bytes of `m_aui8DummyBuffer`, then a line feed. There are as many as the
  device has returned when `count` is missing. -/
  | printBuffer (count : Option Nat)
  | regRead (bytes : Nat) (uinAddress : UInt32)
  | regWrite (bytes : Nat) (uinAddress uinData : UInt32)
  /-- `_ShellCommandDumpMemory`, of memory at the displayed address. -/
  | dumpMemory (uinAddress uinLength : UInt32)
  /-- `_ShellCommandDumpMemory`, of `m_aui8DummyBuffer`. -/
  | dumpBuffer (uinAddressForDisplay uinLength : UInt32)
  | udelay (us : Nat)
  | selftestEpwm
  | smcInitConfig
  | nandFlashReset
  | nandFlashReadId (length : Nat)
  | nandFlashErase (address : UInt32)
  | nandFlashWrite (address : UInt32) (length : Nat)
  | nandFlashRead (address : UInt32) (length : Nat)
  | amcInitConfig
  | norFlashReadId
  | norFlashErase (address : UInt32)
  | norFlashWrite (address : UInt32) (length : Nat)
  | norFlashRead (address : UInt32) (length : Nat)
  | flashInit
  | flashReadId
  | flashEraseSector (address : UInt32)
  | flashReadData (address length : UInt32)
  | flashProgramData (address data : UInt32)
  | spiInitConfig (index : Nat)
  | spiReadWriteBlock (index count : Nat)
  | canInitConfig (format : CanFormat)
  | canWriteBlock (format : CanFormat) (id : UInt32) (length : Nat)
  | canReadBlock (length : Nat)
  | gmacInitConfig (mac : List UInt8)
  /-- The loop of `gmac send`, which sends each packet until there is a descriptor for it. -/
  | gmacSendPackets (count : UInt32)
  | phyGetLinkSpeed
  | phyGetLinkDuplex
  /-- `PHY_Read`, of the configured `phy_id` when there is no other. -/
  | phyRead (phyId : Option UInt32) (register : Nat)
  | vTaskList
  | createTask (task : ShellTask)
  | iperfUdpClient
  | taskEnterCritical
  | taskExitCritical
  deriving Repr

/-- The static variables of the handlers, and the CAN format of `g_DeviceCanDefaultConfig`. -/
structure ShellCommandStatics where
  m_can_init_flag : Bool
  canFormat : CanFormat
  m_tcp_client_created : Bool
  m_udp_speed_client_created : Bool
  m_tcp_speed_client_created : Bool
  deriving DecidableEq, Repr

/-- The strings behind `apszArgv`. -/
abbrev Arguments := Nat → Option (List UInt8)

/-- `PFN_Command_Handler`. -/
abbrev CommandHandler :=
  ShellCommandStatics → Nat → Arguments → Option (ShellCommandStatics × List ShellAction)

/-- Byte `index` of a string, which ends with NUL. -/
def byteAt (text : List UInt8) (index : Nat) : UInt8 :=
  text.getD index 0

/-- `_ShellCommandMatchOps`. -/
def shellCommandMatchOps (szParam : UInt8) (apszList : List UInt8) : Bool :=
  apszList.any (szParam == ·)

/-- `_ShellCommandMatchName`. -/
def shellCommandMatchName (szName szPattern : List UInt8) : Bool :=
  strncmp (literal szName) (literal szPattern) szName.length = 0

/-- `SHELL_UNKNOWN_OPERATION`. -/
def unknownOperation (op : List UInt8) : ShellAction :=
  .xprintf "Unknown operation [%s]!\n" [.text op]

/-- `strtoul` of an optional argument. -/
def numberOr (ui8Argc : Nat) (apszArgv : Arguments) (index base : Nat) (default : UInt32) :
    Option UInt32 :=
  if ui8Argc > index then (apszArgv index).map (strtoul · base) else some default

/-- The usage text of a handler that needs more arguments. -/
def unlessUsage (needed : Nat) (usage : String) (statics : ShellCommandStatics) (ui8Argc : Nat)
    (body : Option (ShellCommandStatics × List ShellAction)) :
    Option (ShellCommandStatics × List ShellAction) :=
  if ui8Argc < needed then some (statics, [.xprintf usage []]) else body

/-- `_ShellCommandCheckAligned`. -/
def shellCommandCheckAligned (szOp : UInt8) (uinAddress : UInt32) : Bool :=
  let ui8Mask : UInt32 :=
    if szOp = 'b'.toUInt8 then 0x0
    else if szOp = 'h'.toUInt8 then 0x1
    else 0x3
  uinAddress &&& ui8Mask = 0

/-- `_ShellCommandGetEchoInfo`. -/
def shellCommandGetEchoInfo (szReadWrite szOp : UInt8) : String :=
  if szOp = 'b'.toUInt8 then
    if szReadWrite = 'r'.toUInt8 then "address[%08x] read: %02x\n"
    else "address[%08x] write: %02x, read-back: %02x\n"
  else if szOp = 'h'.toUInt8 then
    if szReadWrite = 'r'.toUInt8 then "address[%08x] read: %04x\n"
    else "address[%08x] write: %04x, read-back: %04x\n"
  else
    if szReadWrite = 'r'.toUInt8 then "address[%08x] read: %08x\n"
    else "address[%08x] write: %08x, read-back: %08x\n"

/-- The bytes of an access. -/
def accessBytes (szOp : UInt8) : Option Nat :=
  if szOp = 'b'.toUInt8 then some 1
  else if szOp = 'h'.toUInt8 then some 2
  else if szOp = 'w'.toUInt8 then some 4
  else none

/-- `_ShellCommandReadMemory`. -/
def shellCommandReadMemory (szOp : UInt8) (uinAddress : UInt32) : List ShellAction :=
  match accessBytes szOp with
  | some bytes =>
      [.regRead bytes uinAddress,
        .xprintf (shellCommandGetEchoInfo 'r'.toUInt8 szOp) [.number uinAddress, .device]]
  | none => []

/-- `_ShellCommandWriteMemory`. -/
def shellCommandWriteMemory (szOp : UInt8) (uinAddress uinData : UInt32) :
    List ShellAction :=
  match accessBytes szOp with
  | some bytes =>
      [.regWrite bytes uinAddress uinData, .regRead bytes uinAddress,
        .xprintf (shellCommandGetEchoInfo 'w'.toUInt8 szOp)
          [.number uinAddress, .number uinData, .device]]
  | none => []

/-! ## Handlers -/

/-- The help texts of `gsShellCommands`, in the order of the table. -/
def gsShellCommandHelp : List String :=
  ["Show help information", "Clear screen", "Register read/write", "Memory read/write",
    "Epwm test", "Nand flash test", "Nor flash test", "Qspi flash test", "Spi flash test",
    "Can test", "Gmac test", "Gmac Phy test", "Gmac Phy link check", "List task",
    "Running raw tcp send Test", "Running raw udp send Test", "UDP speed test (20s client)",
    "TCP speed test (20s client)"]

/-- `ShellCommand_Help`. -/
def shellCommandHelp : CommandHandler := fun statics _ _ =>
  some (statics, (gsShellCommandNames.zip gsShellCommandHelp).map fun (name, help) =>
    .xprintf "%-12s- %s\n" [.text name, .text (ascii help)])

/-- `ShellCommand_Clear`. -/
def shellCommandClear : CommandHandler := fun statics _ _ =>
  some (statics, [.xprintf "\x1b[2J\x1b[0;0H" []])

/-- `ShellCommand_Reg`, with its arguments. -/
def regActions (pszOp : List UInt8) (uinAddress uinData : UInt32) : List ShellAction :=
  if pszOp.length < 2 then [unknownOperation pszOp]
  else if shellCommandMatchOps (byteAt pszOp 0) (ascii "rw") then
    if shellCommandCheckAligned (byteAt pszOp 1) uinAddress then
      if byteAt pszOp 0 = 'r'.toUInt8 then shellCommandReadMemory (byteAt pszOp 1) uinAddress
      else if byteAt pszOp 0 = 'w'.toUInt8 then
        shellCommandWriteMemory (byteAt pszOp 1) uinAddress uinData
      else []
    else [.xprintf "Un-aligned address!\n" []]
  else [unknownOperation pszOp]

/-- `ShellCommand_Reg`. -/
def shellCommandReg : CommandHandler := fun statics ui8Argc apszArgv =>
  unlessUsage 3
    ("Unknown command parameter!\n" ++
      "Usage: reg [op] [address] [data]\n" ++
      "Where: op = r[b|h|w] | w[b|h|w]\n" ++
      "       address and data is in hex\n" ++
      "       reg r[b|h|w] address\n" ++
      "       reg w[b|h|w] address data\n")
    statics ui8Argc do
      let pszOp ← apszArgv 1
      let uinAddress ← (apszArgv 2).map (strtoul · 16)
      let uinData ← numberOr ui8Argc apszArgv 3 16 0
      return (statics, regActions pszOp uinAddress uinData)

/-- `ShellCommand_Mem`, with its arguments. -/
def memActions (pszOp : List UInt8) (uinAddress uinLengthOrData : UInt32) :
    List ShellAction :=
  if byteAt pszOp 0 = 'r'.toUInt8 then [.dumpMemory uinAddress uinLengthOrData]
  else if byteAt pszOp 0 = 'w'.toUInt8 ∧ pszOp.length ≥ 2 then
    if shellCommandCheckAligned (byteAt pszOp 1) uinAddress then
      shellCommandWriteMemory (byteAt pszOp 1) uinAddress uinLengthOrData
    else [.xprintf "Un-aligned address!\n" []]
  else [unknownOperation pszOp]

/-- `ShellCommand_Mem`. -/
def shellCommandMem : CommandHandler := fun statics ui8Argc apszArgv =>
  unlessUsage 4
    ("Unknown command parameter!\n" ++
      "Usage: mem [op] [address] [length | data]\n" ++
      "Where: op = r | w[b|h|w]\n" ++
      "       address/length/data is in hex\n" ++
      "       mem r address length\n" ++
      "       mem w[b|h|w] address data\n")
    statics ui8Argc do
      let pszOp ← apszArgv 1
      let uinAddress ← (apszArgv 2).map (strtoul · 16)
      let uinLengthOrData ← (apszArgv 3).map (strtoul · 16)
      return (statics, memActions pszOp uinAddress uinLengthOrData)

/-- `ShellCommand_Epwm`. -/
def shellCommandEpwm : CommandHandler := fun statics _ _ =>
  some (statics, [.selftestEpwm])

/-- `ShellCommand_Nand`, with its arguments. -/
def nandActions (pszOp : List UInt8) (uinAddress : UInt32) : List ShellAction :=
  let ui32TmpLength := min 256 256
  let ui32TmpAddr := uinAddress * (256 * (16 * 1024))
  let size := .number (UInt32.ofNat ui32TmpLength)
  let read : List ShellAction :=
    [.nandFlashRead ui32TmpAddr ui32TmpLength,
      .xprintf "read  done, address: %08x, size %d.\n" [.number ui32TmpAddr, size],
      .printBuffer (some ui32TmpLength)]
  [.xprintf "SMC PERIPH_ID = %02x%02x%02x%02x\n" (List.replicate 4 .device),
    .xprintf "SMC PCELL_ID = %02x%02x%02x%02x\n" (List.replicate 4 .device),
    .smcInitConfig, .nandFlashReset, .udelay 500, .nandFlashReadId 8,
    .xprintf "nand flash id: %02x %02x %02x %02x %02x %02x %02x %02x\n"
      (List.replicate 8 .device)] ++
  if byteAt pszOp 0 = 'e'.toUInt8 then
    [.nandFlashErase ui32TmpAddr,
      .xprintf "erase done, address %08x.\n" [.number ui32TmpAddr]]
  else if byteAt pszOp 0 = 'w'.toUInt8 then
    -- the case has no `break`
    [.nandFlashWrite ui32TmpAddr ui32TmpLength,
      .xprintf "write done, address: %08x, size %d.\n" [.number ui32TmpAddr, size]] ++ read
  else if byteAt pszOp 0 = 'r'.toUInt8 then read
  else [unknownOperation pszOp]

/-- `ShellCommand_Nand`. -/
def shellCommandNand : CommandHandler := fun statics ui8Argc apszArgv =>
  unlessUsage 2
    ("Unknown command parameter!\n" ++
      "Usage: nand [op] [address]\n" ++
      "Where: op = e[rase] | w[rite] | r[ead]\n" ++
      "       address is in hex\n" ++
      "       nand erase 0\n" ++
      "       nand write 0\n" ++
      "       nand read 0\n")
    statics ui8Argc do
      let pszOp ← apszArgv 1
      let uinAddress ← numberOr ui8Argc apszArgv 2 16 0
      return (statics, nandActions pszOp uinAddress)

/-- `ShellCommand_Nor`, with its arguments. -/
def norActions (pszOp : List UInt8) (uinAddress : UInt32) : List ShellAction :=
  let ui32TmpLength := min 256 16
  let ui32TmpAddr := uinAddress
  let size := .number (UInt32.ofNat ui32TmpLength)
  let read : List ShellAction :=
    [.norFlashRead ui32TmpAddr ui32TmpLength,
      .xprintf "read  done, address: %08x, size %d.\n" [.number ui32TmpAddr, size],
      .printBuffer (some (ui32TmpLength * 2))]
  [.amcInitConfig, .udelay 500, .norFlashReadId,
    .xprintf "nor flash id: %04x %04x\n" (List.replicate 2 .device)] ++
  if byteAt pszOp 0 = 'e'.toUInt8 then
    [.norFlashErase ui32TmpAddr,
      .xprintf "erase done, address %08x.\n" [.number ui32TmpAddr]]
  else if byteAt pszOp 0 = 'w'.toUInt8 then
    -- the case has no `break`
    [.norFlashWrite ui32TmpAddr ui32TmpLength,
      .xprintf "write done, address: %08x, size %d.\n" [.number ui32TmpAddr, size]] ++ read
  else if byteAt pszOp 0 = 'r'.toUInt8 then read
  else [unknownOperation pszOp]

/-- `ShellCommand_Nor`. -/
def shellCommandNor : CommandHandler := fun statics ui8Argc apszArgv =>
  unlessUsage 2
    ("Unknown command parameter!\n" ++
      "Usage: nor [op] [address]\n" ++
      "Where: op = e[rase] | w[rite] | r[ead]\n" ++
      "       address is in hex\n" ++
      "       nor erase 0\n" ++
      "       nor write 0\n" ++
      "       nor read 0\n")
    statics ui8Argc do
      let pszOp ← apszArgv 1
      let uinAddress ← numberOr ui8Argc apszArgv 2 16 0
      return (statics, norActions pszOp uinAddress)

/-- The loop of `qspi read`, in pages of `FLASH_PAGE_SIZE`. -/
def qspiReadLoop (uinAddress uinLengthOrData : UInt32) : List ShellAction :=
  if uinLengthOrData > 0 then
    let ui32CntInBlock := if uinLengthOrData > 256 then 256 else uinLengthOrData
    [.flashReadData uinAddress ui32CntInBlock, .dumpBuffer uinAddress ui32CntInBlock] ++
      qspiReadLoop (uinAddress + ui32CntInBlock) (uinLengthOrData - ui32CntInBlock)
  else []
termination_by uinLengthOrData.toNat
decreasing_by
  rename_i more
  split
  next long =>
    have fits : 256 ≤ uinLengthOrData := UInt32.le_of_lt long
    rw [UInt32.toNat_sub_of_le _ _ fits]
    exact Nat.sub_lt more (by decide)
  next =>
    rw [UInt32.sub_self]
    exact more

/-- `ShellCommand_Qspi`, with its arguments. -/
def qspiActions (pszOp : List UInt8) (uinAddress uinLengthOrData : UInt32) :
    List ShellAction :=
  [.flashInit, .flashReadId, .xprintf "flash id: %06x.\n" [.device]] ++
  if byteAt pszOp 0 = 'e'.toUInt8 then
    let uinAddress := uinAddress / (4 * 1024) * (4 * 1024)
    [.xprintf "erase sector, address: 0x%08x\n" [.number uinAddress],
      .flashEraseSector uinAddress]
  else if byteAt pszOp 0 = 'r'.toUInt8 then qspiReadLoop uinAddress uinLengthOrData
  else if byteAt pszOp 0 = 'w'.toUInt8 then
    [.xprintf "address[%08x] write: %08x, " [.number uinAddress, .number uinLengthOrData],
      .flashProgramData uinAddress uinLengthOrData, .flashReadData uinAddress 4,
      .xprintf "read-back: %08x\n" [.device]]
  else [unknownOperation pszOp]

/-- `ShellCommand_Qspi`. -/
def shellCommandQspi : CommandHandler := fun statics ui8Argc apszArgv =>
  unlessUsage 2
    ("Unknown command parameter!\n" ++
      "Usage: qspi [op] [address] [length | data]\n" ++
      "Where: op = e[rase] | r[ead] | w[rite]\n" ++
      "       address/length/data/size is in hex\n" ++
      "       qspi erase 200\n" ++
      "       qspi read 200 40\n" ++
      "       qspi write 200 80\n")
    statics ui8Argc do
      let pszOp ← apszArgv 1
      let uinAddress ← numberOr ui8Argc apszArgv 2 16 0
      let uinLengthOrData ← numberOr ui8Argc apszArgv 3 16 0x10
      return (statics, qspiActions pszOp uinAddress uinLengthOrData)

/-- `ShellCommand_Spi`, with its arguments. The device is `SPI0` for other operations. -/
def spiActions (pszOp : List UInt8) (uinIndex : UInt32) : List ShellAction :=
  let probes := byteAt pszOp 0 = 'p'.toUInt8
  let psDevice := if probes then uinIndex.toNat else 0
  (if probes then [] else [unknownOperation pszOp]) ++
    [.spiInitConfig psDevice, .spiReadWriteBlock psDevice 4,
      .xprintf "flash <%d> id: %06x.\n" [.number uinIndex, .device]]

/-- `ShellCommand_Spi`. -/
def shellCommandSpi : CommandHandler := fun statics ui8Argc apszArgv =>
  unlessUsage 2
    ("Unknown command parameter!\n" ++
      "Usage: spi [op] [index]\n" ++
      "Where: op = p[robe]\n" ++
      "       index is in dec\n" ++
      "       spi probe 0\n")
    statics ui8Argc do
      let pszOp ← apszArgv 1
      let uinIndex ← (numberOr ui8Argc apszArgv 2 10 0).map (min · 5)
      return (statics, spiActions pszOp uinIndex)

/-- The name of a CAN format in a text. -/
def canFormatText (format : CanFormat) : List UInt8 :=
  if format = .eCanFormat_Extend then ascii "extend" else ascii "standard"

/-- `ShellCommand_Can`, with its arguments. -/
def canActions (statics : ShellCommandStatics) (pszOp : List UInt8) (ui32Id : UInt32)
    (pszMode : List UInt8) : ShellCommandStatics × List ShellAction :=
  let ui32TmpLength := min 256 8
  if ¬ statics.m_can_init_flag ∧ byteAt pszOp 0 ≠ 'i'.toUInt8 then
    (statics, [.xprintf "device not init!\n" []])
  else if byteAt pszOp 0 = 'i'.toUInt8 then
    let extended := shellCommandMatchName pszMode (ascii "ext")
    let format : CanFormat := if extended then .eCanFormat_Extend else .eCanFormat_Standard
    ({ statics with canFormat := format, m_can_init_flag := true },
      [.xprintf (if extended then "format: extend\n" else "format: standard\n") [],
        .canInitConfig format, .xprintf "init done.\n" []])
  else if byteAt pszOp 0 = 's'.toUInt8 then
    let sFormat := statics.canFormat
    (statics,
      [.canWriteBlock sFormat ui32Id ui32TmpLength,
        .xprintf "send %d to id %08x (%s).\n"
          [.device, .number ui32Id, .text (canFormatText sFormat)],
        .printBuffer none])
  else if byteAt pszOp 0 = 'r'.toUInt8 then
    (statics,
      [.canReadBlock ui32TmpLength,
        .xprintf "recv %d from id %08x (%s).\n"
          [.number (UInt32.ofNat ui32TmpLength), .device, .device],
        .printBuffer (some ui32TmpLength)])
  else (statics, [unknownOperation pszOp])

/-- `ShellCommand_Can`. -/
def shellCommandCan : CommandHandler := fun statics ui8Argc apszArgv =>
  unlessUsage 2
    ("Unknown command parameter!\n" ++
      "Usage: can [op] [mode | id]\n" ++
      "Where: op = i[nit] | s[end] | r[ecv]\n" ++
      "       mode is in string\n" ++
      "       id is in dec\n" ++
      "       can init std\n" ++
      "       can init ext\n" ++
      "       can send 1\n" ++
      "       can recv\n")
    statics ui8Argc do
      let pszOp ← apszArgv 1
      let ui32Id ← numberOr ui8Argc apszArgv 2 10 0
      let pszMode ← (if ui8Argc > 2 then apszArgv 2 else some (ascii "std"))
      return canActions statics pszOp ui32Id pszMode

/-- `ShellCommand_Gmac`, with its arguments. -/
def gmacActions (pszOp : List UInt8) (uinCount : UInt32) : List ShellAction :=
  let pui8SourceMac := [0xd4, 0xbe, 0xd9, 0x45, 0x22, 0x60]
  (if shellCommandMatchName pszOp (ascii "init") then
    [.xprintf "GMAC VERSION = %08x\n" [.device], .gmacInitConfig pui8SourceMac,
      .phyGetLinkSpeed, .xprintf "link speed: %d Mbps\n" [.device], .phyGetLinkDuplex,
      .xprintf "link duplex(0:link down/1:half/2:full): %d\n" [.device]]
  else []) ++
  if shellCommandMatchName pszOp (ascii "send") then [.gmacSendPackets uinCount] else []

/-- `ShellCommand_Gmac`. -/
def shellCommandGmac : CommandHandler := fun statics ui8Argc apszArgv =>
  unlessUsage 2
    ("Unknown command parameter!\n" ++
      "Usage: gmac [op] [count]\n" ++
      "Where: op = init | send\n" ++
      "       count is in dec\n" ++
      "       gmac init\n" ++
      "       gmac send 32\n")
    statics ui8Argc do
      let uinCount ← numberOr ui8Argc apszArgv 2 10 1
      let pszOp ← apszArgv 1
      return (statics, gmacActions pszOp uinCount)

/-- `ShellCommand_Phy`, with its argument. -/
def phyActions (uinPhyId : Option UInt32) : List ShellAction :=
  let registers := (List.range 30).flatMap fun i =>
    [.phyRead uinPhyId i,
      .xprintf "reg[%02d] = %04x " [.number (UInt32.ofNat i), .device]] ++
    if i % 4 = 3 then [.xprintf "\n" []] else []
  [.xprintf "phy id: %d\n" [uinPhyId.elim .device .number]] ++ registers ++ [.xprintf "\n" []]

/-- `ShellCommand_Phy`. -/
def shellCommandPhy : CommandHandler := fun statics ui8Argc apszArgv =>
  if ui8Argc > 1 then
    (apszArgv 1).map fun argument => (statics, phyActions (some (strtoul argument 10)))
  else some (statics, phyActions none)

/-- `ShellCommand_Link`. -/
def shellCommandLink : CommandHandler := fun statics _ _ =>
  some (statics,
    [.xprintf "phy id: %d\n" [.device], .phyGetLinkSpeed,
      .xprintf "link speed: %d Mbps\n" [.device], .phyGetLinkDuplex,
      .xprintf "link duplex(0:link down/1:half/2:full): %d\n" [.device]])

/-- `ShellCommand_Ps`. -/
def shellCommandPs : CommandHandler := fun statics _ _ =>
  some (statics,
    [.xprintf "%2s %-8s %3s %-8s %-8s %s\n"
        (["Nr", "Name", "Pri", "Stack", "Sp", "State"].map fun text => .text (ascii text)),
      .xprintf "-- -------- --- -------- -------- -----\n" [], .vTaskList])

/-- `ShellCommand_Tcp`. -/
def shellCommandTcp : CommandHandler := fun statics _ _ =>
  if ¬ statics.m_tcp_client_created then
    some ({ statics with m_tcp_client_created := true }, [.createTask .tcpClientTask])
  else some (statics, [.xprintf "tcp client already created!\n" []])

/-- `ShellCommand_Udp`. -/
def shellCommandUdp : CommandHandler := fun statics _ _ =>
  some (statics, [.iperfUdpClient])

/-- `ShellCommand_UdpSpeed`. -/
def shellCommandUdpSpeed : CommandHandler := fun statics _ _ =>
  if ¬ statics.m_udp_speed_client_created then
    some ({ statics with m_udp_speed_client_created := true },
      [.createTask .udpSpeedClientTask, .xprintf "UDP speed test task created\n" []])
  else some (statics, [.xprintf "UDP speed test already running!\n" []])

/-- `ShellCommand_TcpSpeed`. -/
def shellCommandTcpSpeed : CommandHandler := fun statics _ _ =>
  if ¬ statics.m_tcp_speed_client_created then
    some ({ statics with m_tcp_speed_client_created := true },
      [.createTask .tcpSpeedClientTask, .xprintf "TCP speed test task created\n" []])
  else some (statics, [.xprintf "TCP speed test already running!\n" []])

/-- `SHELL_COMMAND_T`. -/
structure ShellCommand where
  pszCommand : List UInt8
  pfnCommand : CommandHandler
  pszHelpStr : String

/-- `gsShellCommands`. -/
def gsShellCommands : List ShellCommand :=
  [⟨ascii "help", shellCommandHelp, "Show help information"⟩,
    ⟨ascii "clear", shellCommandClear, "Clear screen"⟩,
    ⟨ascii "reg", shellCommandReg, "Register read/write"⟩,
    ⟨ascii "mem", shellCommandMem, "Memory read/write"⟩,
    ⟨ascii "epwm", shellCommandEpwm, "Epwm test"⟩,
    ⟨ascii "nand", shellCommandNand, "Nand flash test"⟩,
    ⟨ascii "nor", shellCommandNor, "Nor flash test"⟩,
    ⟨ascii "qspi", shellCommandQspi, "Qspi flash test"⟩,
    ⟨ascii "spi", shellCommandSpi, "Spi flash test"⟩,
    ⟨ascii "can", shellCommandCan, "Can test"⟩,
    ⟨ascii "gmac", shellCommandGmac, "Gmac test"⟩,
    ⟨ascii "phy", shellCommandPhy, "Gmac Phy test"⟩,
    ⟨ascii "link", shellCommandLink, "Gmac Phy link check"⟩,
    ⟨ascii "ps", shellCommandPs, "List task"⟩,
    ⟨ascii "tcp", shellCommandTcp, "Running raw tcp send Test"⟩,
    ⟨ascii "udp", shellCommandUdp, "Running raw udp send Test"⟩,
    ⟨ascii "udp_speed", shellCommandUdpSpeed, "UDP speed test (20s client)"⟩,
    ⟨ascii "tcp_speed", shellCommandTcpSpeed, "TCP speed test (20s client)"⟩]

end SunWise.Shell
