import Mathlib.Data.List.Infix
import Mathlib.Data.List.Range
import SunWise.I2c.Driver

/-!
# Framing of I2C transfers

Which words a transfer writes to `DATA_CMD`, and which of them end it.  A write ends with its
last word, but computes its length in 32 bits; a read ends with its last request, so that
a command without any request behind it never ends.
-/

namespace SunWise.I2c

open Library

/-- What a word written to `DATA_CMD` asks for. -/
inductive I2cRequest where
  | write (byte : BitVec 8)
  | read
  deriving DecidableEq, Repr

/-- The fields `CMD` and `DAT`. -/
def requestOf (word : BitVec 32) : I2cRequest :=
  if word.getLsbD i2cDataCmdCmdPos then .read else .write (word.extractLsb' i2cDataCmdDatPos 8)

/-- The field `STOP`. -/
def hasStop (word : BitVec 32) : Bool :=
  word.getLsbD i2cDataCmdStopPos

/-- The field `RESTART`. -/
def hasRestart (word : BitVec 32) : Bool :=
  word.getLsbD i2cDataCmdRestartPos

section Words

variable {reg : BitVec 32}

theorem extractLsb'_or_byte (clear : ∀ index < 8, reg.getLsbD index = false)
    (byte : BitVec 8) :
    (reg ||| (byte.setWidth 32 <<< i2cDataCmdDatPos)).extractLsb' i2cDataCmdDatPos 8 = byte := by
  apply BitVec.eq_of_getLsbD_eq
  intro index inside
  have below : index < 32 := by omega
  rw [BitVec.getLsbD_extractLsb', BitVec.getLsbD_or, i2cDataCmdDatPos, Nat.zero_add,
    clear index inside]
  simp [inside, below]

theorem getLsbD_or_byte (byte : BitVec 8) {index : Nat} (above : 8 ≤ index) :
    (reg ||| (byte.setWidth 32 <<< i2cDataCmdDatPos)).getLsbD index = reg.getLsbD index := by
  have outside : byte.getLsbD index = false := BitVec.getLsbD_of_ge byte index above
  rw [BitVec.getLsbD_or, i2cDataCmdDatPos]
  simp [outside]

end Words

/-- The word with these fields. -/
def dataCmdWord (cmd restart stop : Bool) (byte : BitVec 8) : BitVec 32 :=
  let reg := setBit 0 i2cDataCmdCmdPos cmd
  let reg := setBit reg i2cDataCmdRestartPos restart
  let reg := setBit reg i2cDataCmdStopPos stop
  reg ||| (byte.setWidth 32 <<< i2cDataCmdDatPos)

theorem dataCmdWord_fields (cmd restart stop : Bool) (byte : BitVec 8) :
    requestOf (dataCmdWord cmd restart stop byte) = (if cmd then .read else .write byte) ∧
      hasStop (dataCmdWord cmd restart stop byte) = stop ∧
      hasRestart (dataCmdWord cmd restart stop byte) = restart := by
  have clear : ∀ index < 8, (setBit (setBit (setBit (0 : BitVec 32) i2cDataCmdCmdPos cmd)
      i2cDataCmdRestartPos restart) i2cDataCmdStopPos stop).getLsbD index = false := by
    cases cmd <;> cases restart <;> cases stop <;> decide
  unfold dataCmdWord requestOf hasStop hasRestart
  dsimp only
  rw [extractLsb'_or_byte clear, getLsbD_or_byte byte (by decide),
    getLsbD_or_byte byte (by decide), getLsbD_or_byte byte (by decide)]
  cases cmd <;> cases restart <;> cases stop <;> exact ⟨rfl, rfl, rfl⟩

/-- Byte `txCnt` of a command and data. -/
def byteOf (pcmd pdata : Nat → BitVec 8) (cmdLen txCnt : Nat) : BitVec 8 :=
  if txCnt < cmdLen then pcmd txCnt else pdata (txCnt - cmdLen)

theorem writeWord_eq (pcmd pdata : Nat → BitVec 8) (cmdLen total txCnt : Nat) :
    writeWord pcmd pdata cmdLen total txCnt =
      dataCmdWord cmdWrite false (¬ txCnt + 1 < total) (byteOf pcmd pdata cmdLen txCnt) := by
  unfold writeWord byteOf
  split <;> rfl

theorem commandWord_eq (pcmd : Nat → BitVec 8) (txCnt : Nat) :
    commandWord pcmd txCnt = dataCmdWord cmdWrite false false (pcmd txCnt) := rfl

theorem readWord_eq (txCnt dataLen rxCnt : Nat) :
    readWord txCnt dataLen rxCnt =
      dataCmdWord cmdRead (txCnt > 0 ∧ rxCnt = 0) (¬ rxCnt + 1 < dataLen) 0xff := rfl

section Loops

theorem waitStatus_kept (flag : Nat) (value : Bool) (timeout : Nat) (i2c : I2cTypeDef) :
    ∃ status, (waitStatus flag value timeout i2c).2 = { i2c with status } := by
  fun_induction waitStatus flag value timeout i2c with
  | case1 timeout i2c status after read hit =>
      cases read
      exact ⟨_, rfl⟩
  | case2 timeout i2c status after read differs ih =>
      rcases ih with ⟨later, isLater⟩
      rw [isLater]
      cases read
      exact ⟨later, rfl⟩
  | case3 timeout i2c status after read last =>
      cases read
      exact ⟨_, rfl⟩

/-- The words of a loop, as far as it came. -/
theorem pushLoop_spec (word : Nat → BitVec 32) (turns txCnt : Nat) (i2c : I2cTypeDef) :
    ∃ pushed ≤ turns, ∃ status,
      (pushLoop word turns txCnt i2c).1.count = txCnt + pushed ∧
      ((pushLoop word turns txCnt i2c).1.timedOut = false → pushed = turns) ∧
      (pushLoop word turns txCnt i2c).2 =
        { i2c with status, dataCmd := i2c.dataCmd ++ (List.range' txCnt pushed).map word } := by
  induction turns generalizing txCnt i2c with
  | zero => exact ⟨0, Nat.le_refl 0, i2c.status, rfl, fun _ => rfl, by simp [pushLoop]⟩
  | succ turns ih =>
      rcases waitStatus_kept i2cStatusTfnfPos true waitTimeout i2c with ⟨status, kept⟩
      rw [pushLoop]
      split
      next ready after waited =>
        obtain rfl : after = { i2c with status } := by rw [← kept, waited]
        split
        next =>
          rcases ih (txCnt + 1) (I2cTypeDef.push { i2c with status } (word txCnt)) with
            ⟨pushed, fits, later, count, finished, registers⟩
          refine ⟨pushed + 1, Nat.succ_le_succ fits, later, ?_, ?_, ?_⟩
          · rw [count, Nat.add_assoc, Nat.add_comm 1]
          · intro inTime
            rw [finished inTime]
          · rw [registers, I2cTypeDef.push, List.range'_succ, List.map_cons, List.append_assoc]
            rfl
        next =>
          refine ⟨0, Nat.zero_le _, status, rfl, ?_, ?_⟩
          · intro inTime
            cases inTime
          · rw [List.range'_zero, List.map_nil, List.append_nil]

/-- The requests of a loop, as far as it came, and a byte for each but perhaps the last. -/
theorem readLoop_spec (word : Nat → BitVec 32) (turns rxCnt : Nat) (pdata : List (BitVec 8))
    (i2c : I2cTypeDef) :
    ∃ pushed ≤ turns, ∃ status received stored,
      (readLoop word turns rxCnt pdata i2c).1.count = rxCnt + stored.length ∧
      ((readLoop word turns rxCnt pdata i2c).1.timedOut = false → pushed = turns) ∧
      (readLoop word turns rxCnt pdata i2c).2.1 = pdata ++ stored ∧
      (readLoop word turns rxCnt pdata i2c).2.2 =
        { i2c with
          status, received, dataCmd := i2c.dataCmd ++ (List.range' rxCnt pushed).map word } := by
  induction turns generalizing rxCnt pdata i2c with
  | zero =>
      exact ⟨0, Nat.le_refl 0, i2c.status, i2c.received, [], rfl, fun _ => rfl,
        (List.append_nil _).symm, by simp [readLoop]⟩
  | succ turns ih =>
      rcases waitStatus_kept i2cStatusRfnePos true waitTimeout (i2c.push (word rxCnt)) with
        ⟨status, kept⟩
      rw [readLoop]
      split
      next ready after waited =>
        obtain rfl : after = { i2c.push (word rxCnt) with status } := by rw [← kept, waited]
        split
        next =>
          let data := I2cTypeDef.readData { i2c.push (word rxCnt) with status }
          rcases ih (rxCnt + 1) (pdata ++ [data.1.setWidth 8]) data.2 with
            ⟨pushed, fits, later, received, stored, count, finished, bytes, registers⟩
          refine ⟨pushed + 1, Nat.succ_le_succ fits, later, received,
            data.1.setWidth 8 :: stored, ?_, ?_, ?_, ?_⟩
          · exact count.trans (by rw [List.length_cons]; omega)
          · intro inTime
            rw [finished inTime]
          · exact bytes.trans (List.append_assoc _ _ _)
          · refine registers.trans ?_
            rw [List.range'_succ, List.map_cons, List.append_cons]
            rfl
        next =>
          refine ⟨1, Nat.succ_le_succ (Nat.zero_le _), status, i2c.received, [], rfl, ?_, ?_, rfl⟩
          · intro inTime
            cases inTime
          · exact (List.append_nil _).symm

end Loops

/-- A block of memory. -/
def block (bytes : Nat → BitVec 8) (length : BitVec 32) : List (BitVec 8) :=
  (List.range length.toNat).map bytes

/-- What is expected of any transfer: the words that it pushes are some of those that it was
asked for, in order; a transfer without a timeout pushes them all and ends with its last word,
and only there; and a master is disabled again. `asked` is what is asked for, and `restart` the
place of a repeated start. -/
structure Framed (config? : Option DeviceI2cConfig) (before after : I2cTypeDef)
    (progress : Progress) (asked : List I2cRequest) (restart? : Option Nat) : Prop where
  words : ∃ words, after.dataCmd = before.dataCmd ++ words ∧
    words.map requestOf <+: asked ∧
    (config? ≠ none → progress.timedOut = false → words.length = asked.length) ∧
    (progress.timedOut = false →
      words.map hasStop =
        (List.range words.length).map (fun index => decide (index + 1 = words.length)) ∧
      words.map hasRestart =
        (List.range words.length).map fun index => decide (restart? = some index))
  disabled : ∀ config ∈ config?, config.master ≠ 0 →
    after.enable.getLsbD i2cEnableEnablePos = false

/-- `HW_I2C_WriteBlock` pushes the command and the data, and counts the bytes. -/
structure WriteFramed (config? : Option DeviceI2cConfig) (pcmd : Nat → BitVec 8)
    (cmdLen : BitVec 32) (pdata : Nat → BitVec 8) (dataLen : BitVec 32) (before : I2cTypeDef) :
    Prop where
  framed : Framed config? before
    (hwI2cWriteBlock config? pcmd cmdLen pdata dataLen before).2
    (hwI2cWriteBlock config? pcmd cmdLen pdata dataLen before).1
    ((block pcmd cmdLen ++ block pdata dataLen).map .write) none
  count : (hwI2cWriteBlock config? pcmd cmdLen pdata dataLen before).2.dataCmd.length =
    before.dataCmd.length + (hwI2cWriteBlock config? pcmd cmdLen pdata dataLen before).1.count

/-- `HW_I2C_ReadBlock` pushes the command and requests for the data, with a repeated start
between them, and counts the bytes that it stores. -/
structure ReadFramed (config? : Option DeviceI2cConfig) (pcmd : Nat → BitVec 8)
    (cmdLen dataLen : BitVec 32) (before : I2cTypeDef) : Prop where
  framed : Framed config? before (hwI2cReadBlock config? pcmd cmdLen dataLen before).2.2
    (hwI2cReadBlock config? pcmd cmdLen dataLen before).1
    ((block pcmd cmdLen).map .write ++ List.replicate dataLen.toNat .read)
    (if cmdLen = 0 then none else some cmdLen.toNat)
  count : (hwI2cReadBlock config? pcmd cmdLen dataLen before).2.1.length =
    (hwI2cReadBlock config? pcmd cmdLen dataLen before).1.count

section Parts

variable (i2c : I2cTypeDef) (config : DeviceI2cConfig)

@[simp] theorem setEnable_dataCmd (value : Bool) :
    (i2c.setEnable config value).dataCmd = i2c.dataCmd := by
  unfold I2cTypeDef.setEnable
  split <;> rfl

@[simp] theorem waitStatus_dataCmd (flag : Nat) (value : Bool) (timeout : Nat) :
    (waitStatus flag value timeout i2c).2.dataCmd = i2c.dataCmd := by
  rcases waitStatus_kept flag value timeout i2c with ⟨status, kept⟩
  rw [kept]

theorem setEnable_disabled {other : DeviceI2cConfig} (same : other ∈ some config)
    (master : other.master ≠ 0) :
    (i2c.setEnable config false).enable.getLsbD i2cEnableEnablePos = false := by
  cases same
  rw [I2cTypeDef.setEnable, if_pos master, getLsbD_setBit]
  rfl

theorem map_range_isPrefix {Value : Type} (value : Nat → Value) {count total : Nat}
    (fits : count ≤ total) : (List.range count).map value <+: (List.range total).map value := by
  obtain ⟨rest, rfl⟩ := Nat.exists_eq_add_of_le fits
  rw [List.range_add, List.map_append]
  exact List.prefix_append _ _

variable (pcmd pdata : Nat → BitVec 8) (cmdLen dataLen : BitVec 32)

theorem block_append :
    block pcmd cmdLen ++ block pdata dataLen =
      (List.range (cmdLen.toNat + dataLen.toNat)).map (byteOf pcmd pdata cmdLen.toNat) := by
  rw [List.range_add, List.map_append, List.map_map, block, block]
  congr 1
  · apply List.map_congr_left
    intro index inside
    rw [byteOf, if_pos (List.mem_range.mp inside)]
  · apply List.map_congr_left
    intro index inside
    rw [Function.comp_apply, byteOf, if_neg (Nat.not_lt.mpr (Nat.le_add_right _ _)),
      Nat.add_sub_cancel_left]

theorem length_block : (block pcmd cmdLen).length = cmdLen.toNat := by
  rw [block, List.length_map, List.length_range]

theorem add_toNat_le : (cmdLen + dataLen).toNat ≤ cmdLen.toNat + dataLen.toNat := by
  rw [BitVec.toNat_add]
  exact Nat.mod_le _ _

end Parts

theorem framed_none (before : I2cTypeDef) (asked : List I2cRequest) (restart? : Option Nat) :
    Framed none before before ⟨0, false⟩ asked restart? where
  words := ⟨[], (List.append_nil _).symm, List.nil_prefix, fun isSome => absurd rfl isSome,
    fun _ => ⟨rfl, rfl⟩⟩
  disabled config isNone := by cases isNone

/-- What a write pushes and returns. The sum of the lengths is the one of 32 bits. -/
theorem hwI2cWriteBlock_spec (config : DeviceI2cConfig) (pcmd pdata : Nat → BitVec 8)
    (cmdLen dataLen : BitVec 32) (before : I2cTypeDef) :
    let result := hwI2cWriteBlock (some config) pcmd cmdLen pdata dataLen before
    ∃ words, result.2.dataCmd = before.dataCmd ++ words ∧
      words.map requestOf <+: (block pcmd cmdLen ++ block pdata dataLen).map .write ∧
      words.length = result.1.count ∧
      (result.1.timedOut = false →
        words.length = (cmdLen + dataLen).toNat ∧
        words.map hasStop =
          (List.range words.length).map (fun index => decide (index + 1 = words.length)) ∧
        words.map hasRestart =
          (List.range words.length).map fun index => decide (none = some index)) := by
  intro result
  let total := (cmdLen + dataLen).toNat
  let word := writeWord pcmd pdata cmdLen.toNat total
  let loop := pushLoop word total 0 (before.setEnable config true)
  let after := if loop.1.timedOut then loop.2
    else (waitStatus i2cStatusTfePos true waitTimeout loop.2).2
  have unfolded : result = (loop.1, after.setEnable config false) := rfl
  rcases pushLoop_spec word total 0 (before.setEnable config true) with
    ⟨pushed, fits, status, count, finished, registers⟩
  have pushes : (after.setEnable config false).dataCmd =
      before.dataCmd ++ (List.range pushed).map word := by
    have loopPushes : loop.2.dataCmd = before.dataCmd ++ (List.range pushed).map word := by
      rw [List.range_eq_range']
      exact (congrArg I2cTypeDef.dataCmd registers).trans (by rw [setEnable_dataCmd])
    rw [setEnable_dataCmd, ← loopPushes]
    show (if loop.1.timedOut then loop.2 else _).dataCmd = _
    split
    next => rfl
    next => exact waitStatus_dataCmd ..
  refine ⟨(List.range pushed).map word, ?_, ?_, ?_, ?_⟩
  · rw [unfolded, pushes]
  · rw [block_append, List.map_map, List.map_map]
    have requests : requestOf ∘ word = I2cRequest.write ∘ byteOf pcmd pdata cmdLen.toNat := by
      funext index
      exact (congrArg requestOf (writeWord_eq ..)).trans (dataCmdWord_fields ..).1
    rw [requests]
    exact map_range_isPrefix _ (fits.trans (add_toNat_le cmdLen dataLen))
  · rw [List.length_map, List.length_range]
    exact (count.trans (Nat.zero_add pushed)).symm
  · intro inTime
    have whole : pushed = total := finished inTime
    rw [List.length_map, List.length_range, List.map_map, List.map_map, whole]
    refine ⟨rfl, ?_, ?_⟩
    · apply List.map_congr_left
      intro index inside
      have below := List.mem_range.mp inside
      refine ((congrArg hasStop (writeWord_eq ..)).trans (dataCmdWord_fields ..).2.1).trans ?_
      exact decide_eq_decide.mpr (by omega)
    · apply List.map_congr_left
      intro index inside
      exact (congrArg hasRestart (writeWord_eq ..)).trans (dataCmdWord_fields ..).2.2

/-- A write is framed where its length fits into 32 bits. -/
theorem hwI2cWriteBlock_framed (config? : Option DeviceI2cConfig) (pcmd pdata : Nat → BitVec 8)
    {cmdLen dataLen : BitVec 32}
    (fits : config? ≠ none → cmdLen.toNat + dataLen.toNat < 2 ^ 32) (before : I2cTypeDef) :
    WriteFramed config? pcmd cmdLen pdata dataLen before := by
  cases config? with
  | none => exact ⟨framed_none before _ _, rfl⟩
  | some config =>
      rcases hwI2cWriteBlock_spec config pcmd pdata cmdLen dataLen before with
        ⟨words, pushed, asked, count, whole⟩
      refine ⟨⟨⟨words, pushed, asked, fun isSome inTime => ?_, fun inTime => (whole inTime).2⟩,
        fun other same master => setEnable_disabled _ config same master⟩, ?_⟩
      · rw [(whole inTime).1, List.length_map, List.length_append, length_block, length_block,
          BitVec.toNat_add, Nat.mod_eq_of_lt (fits isSome)]
      · rw [pushed, List.length_append, count]

section Read

variable (pcmd : Nat → BitVec 8) (cmdLen dataLen : Nat)

/-- All words of a read. -/
def readWords : List (BitVec 32) :=
  (List.range cmdLen).map (commandWord pcmd) ++
    (List.range dataLen).map (readWord cmdLen dataLen)

theorem length_readWords : (readWords pcmd cmdLen dataLen).length = cmdLen + dataLen := by
  simp [readWords]

theorem commandWords_requests (count : Nat) :
    ((List.range count).map (commandWord pcmd)).map requestOf =
      ((List.range count).map pcmd).map .write := by
  rw [List.map_map, List.map_map]
  apply List.map_congr_left
  intro index inside
  exact (congrArg requestOf (commandWord_eq pcmd index)).trans (dataCmdWord_fields ..).1

theorem readWords_requests (count : Nat) :
    ((List.range count).map (readWord cmdLen dataLen)).map requestOf =
      List.replicate count .read := by
  rw [List.map_map, List.eq_replicate_iff]
  refine ⟨by rw [List.length_map, List.length_range], fun request isRequest => ?_⟩
  rcases List.mem_map.mp isRequest with ⟨index, -, rfl⟩
  exact (congrArg requestOf (readWord_eq ..)).trans (dataCmdWord_fields ..).1

/-- The repeated start stands between the command and the requests. -/
theorem readWords_restart :
    (readWords pcmd cmdLen dataLen).map hasRestart =
      (List.range (cmdLen + dataLen)).map
        fun index => decide ((if cmdLen = 0 then none else some cmdLen) = some index) := by
  rw [readWords, List.range_add, List.map_append, List.map_append, List.map_map, List.map_map,
    List.map_map]
  congr 1
  · apply List.map_congr_left
    intro index inside
    have below := List.mem_range.mp inside
    refine ((congrArg hasRestart (commandWord_eq ..)).trans (dataCmdWord_fields ..).2.2).trans ?_
    rw [if_neg (Nat.ne_of_gt (Nat.zero_lt_of_lt below))]
    exact (decide_eq_false fun same => Nat.ne_of_gt below (Option.some.inj same)).symm
  · apply List.map_congr_left
    intro index inside
    refine ((congrArg hasRestart (readWord_eq ..)).trans (dataCmdWord_fields ..).2.2).trans ?_
    rw [Function.comp_apply]
    by_cases none : cmdLen = 0
    · simp [none]
    · simp [none, Nat.pos_of_ne_zero none]

/-- The last word, and no other, ends the transfer, unless there is a command only. -/
theorem readWords_stop_iff :
    (readWords pcmd cmdLen dataLen).map hasStop =
        (List.range (cmdLen + dataLen)).map
          (fun index => decide (index + 1 = cmdLen + dataLen)) ↔
      cmdLen = 0 ∨ dataLen ≠ 0 := by
  have requests : ((List.range dataLen).map (readWord cmdLen dataLen)).map hasStop =
      ((List.range dataLen).map (cmdLen + ·)).map
        fun index => decide (index + 1 = cmdLen + dataLen) := by
    rw [List.map_map, List.map_map]
    apply List.map_congr_left
    intro index inside
    have below := List.mem_range.mp inside
    refine ((congrArg hasStop (readWord_eq ..)).trans (dataCmdWord_fields ..).2.1).trans ?_
    rw [Function.comp_apply, decide_eq_decide]
    omega
  have command : ∀ index, hasStop (commandWord pcmd index) = false := fun index =>
    (congrArg hasStop (commandWord_eq pcmd index)).trans (dataCmdWord_fields ..).2.1
  rw [readWords, List.range_add, List.map_append, List.map_append, requests,
    List.append_left_inj, List.map_map, List.map_inj_left]
  constructor
  · -- the last byte of the command
    intro same
    by_contra bare
    rw [not_or, not_not] at bare
    have last := same (cmdLen - 1) (List.mem_range.mpr (by omega))
    rw [Function.comp_apply, command] at last
    exact of_decide_eq_false last.symm (by omega)
  · intro ends index inside
    have below := List.mem_range.mp inside
    rw [Function.comp_apply, command]
    exact (decide_eq_false (by omega)).symm

end Read

/-- What a read pushes, returns and stores. -/
theorem hwI2cReadBlock_spec (config : DeviceI2cConfig) (pcmd : Nat → BitVec 8)
    (cmdLen dataLen : BitVec 32) (before : I2cTypeDef) :
    let result := hwI2cReadBlock (some config) pcmd cmdLen dataLen before
    (∃ words, result.2.2.dataCmd = before.dataCmd ++ words ∧
      words.map requestOf <+:
        (block pcmd cmdLen).map .write ++ List.replicate dataLen.toNat .read ∧
      (result.1.timedOut = false → words = readWords pcmd cmdLen.toNat dataLen.toNat)) ∧
    result.2.1.length = result.1.count ∧
    ∀ other ∈ some config, other.master ≠ 0 →
      result.2.2.enable.getLsbD i2cEnableEnablePos = false := by
  intro result
  let sent := pushLoop (commandWord pcmd) cmdLen.toNat 0 (before.setEnable config true)
  let loop := if sent.1.timedOut then (⟨0, true⟩, [], sent.2)
    else readLoop (readWord sent.1.count dataLen.toNat) dataLen.toNat 0 [] sent.2
  have unfolded : result = (loop.1, loop.2.1, loop.2.2.setEnable config false) := rfl
  rcases pushLoop_spec (commandWord pcmd) cmdLen.toNat 0 (before.setEnable config true) with
    ⟨pushed, fits, status, count, finished, registers⟩
  have commands : sent.2.dataCmd =
      before.dataCmd ++ (List.range pushed).map (commandWord pcmd) := by
    rw [List.range_eq_range']
    exact (congrArg I2cTypeDef.dataCmd registers).trans (by rw [setEnable_dataCmd])
  rw [unfolded]
  refine ⟨?_, ?_, fun other same master => setEnable_disabled loop.2.2 config same master⟩
  · rw [setEnable_dataCmd]
    by_cases late : sent.1.timedOut
    · have left : loop = (⟨0, true⟩, [], sent.2) := if_pos late
      refine ⟨(List.range pushed).map (commandWord pcmd), ?_, ?_, ?_⟩
      · rw [left, commands]
      · rw [commandWords_requests, block, List.map_map, List.map_map]
        exact (map_range_isPrefix _ fits).trans (List.prefix_append _ _)
      · rw [left]
        intro inTime
        cases inTime
    · have entered : loop = readLoop (readWord sent.1.count dataLen.toNat) dataLen.toNat 0 []
        sent.2 := if_neg late
      have whole : pushed = cmdLen.toNat := finished (Bool.eq_false_iff.mpr late)
      rcases readLoop_spec (readWord sent.1.count dataLen.toNat) dataLen.toNat 0 [] sent.2 with
        ⟨requested, fits', status', received, stored, count', finished', bytes, registers'⟩
      have counted : sent.1.count = cmdLen.toNat := by rw [count, Nat.zero_add, whole]
      rw [← entered, counted, ← List.range_eq_range'] at registers'
      refine ⟨(List.range cmdLen.toNat).map (commandWord pcmd) ++
        (List.range requested).map (readWord cmdLen.toNat dataLen.toNat), ?_, ?_, ?_⟩
      · rw [registers', commands, whole, List.append_assoc]
      · rw [List.map_append, commandWords_requests, readWords_requests]
        refine (List.prefix_append_right_inj _).mpr ?_
        obtain ⟨rest, isRest⟩ := Nat.exists_eq_add_of_le fits'
        rw [isRest, List.replicate_add]
        exact List.prefix_append _ _
      · intro inTime
        rw [readWords, finished' (entered ▸ inTime)]
  · by_cases late : sent.1.timedOut
    · have left : loop = (⟨0, true⟩, [], sent.2) := if_pos late
      rw [left]
      rfl
    · have entered : loop = readLoop (readWord sent.1.count dataLen.toNat) dataLen.toNat 0 []
        sent.2 := if_neg late
      rcases readLoop_spec (readWord sent.1.count dataLen.toNat) dataLen.toNat 0 [] sent.2 with
        ⟨requested, fits', status', received, stored, count', finished', bytes, registers'⟩
      rw [entered, bytes, count', List.nil_append, Nat.zero_add]

/-! ## Transfers in time -/

theorem waitStatus_ready {flag : Nat} {value : Bool} (timeout : Nat) {i2c : I2cTypeDef}
    (ready : (i2c.status 0).getLsbD flag = value) :
    waitStatus flag value timeout i2c =
      (true, { i2c with status := fun read => i2c.status (read + 1) }) := by
  match timeout with
  | 0 | 1 => simp only [waitStatus, I2cTypeDef.readStatus, ready, decide_true]
  | timeout + 2 => simp only [waitStatus, I2cTypeDef.readStatus, ready, if_true]

/-- While there is room in the FIFO, a loop is not left. -/
theorem pushLoop_inTime (word : Nat → BitVec 32) (turns txCnt : Nat) {i2c : I2cTypeDef}
    (ready : ∀ read, (i2c.status read).getLsbD i2cStatusTfnfPos = true) :
    (pushLoop word turns txCnt i2c).1.timedOut = false := by
  induction turns generalizing txCnt i2c with
  | zero => rfl
  | succ turns ih =>
      rw [pushLoop, waitStatus_ready waitTimeout (ready 0)]
      exact ih (txCnt + 1) fun read => ready (read + 1)

/-- A controller that is always ready. -/
def readyController : I2cTypeDef where
  enable := 0
  status := fun _ => BitVec.allOnes 32
  received := fun _ => 0
  dataCmd := []

theorem setEnable_status (i2c : I2cTypeDef) (config : DeviceI2cConfig) (value : Bool) :
    (i2c.setEnable config value).status = i2c.status := by
  unfold I2cTypeDef.setEnable
  split <;> rfl

/-- No loop is left early on a controller that is always ready. -/
theorem pushLoop_ready (word : Nat → BitVec 32) (turns : Nat) (config : DeviceI2cConfig) :
    (pushLoop word turns 0 (readyController.setEnable config true)).1.timedOut = false := by
  apply pushLoop_inTime
  intro read
  rw [setEnable_status]
  exact (by decide : (BitVec.allOnes 32).getLsbD i2cStatusTfnfPos = true)

theorem hwI2cReadBlock_ready (config : DeviceI2cConfig) (pcmd : Nat → BitVec 8)
    (cmdLen : BitVec 32) :
    (hwI2cReadBlock (some config) pcmd cmdLen 0 readyController).1.timedOut = false := by
  have sent := pushLoop_ready (commandWord pcmd) cmdLen.toNat config
  simp only [hwI2cReadBlock, sent, Bool.false_eq_true, if_false]
  rfl

theorem pushed_unique {before after : I2cTypeDef} {words other : List (BitVec 32)}
    (same : after.dataCmd = before.dataCmd ++ words)
    (same' : after.dataCmd = before.dataCmd ++ other) : words = other :=
  List.append_cancel_left (same ▸ same')

/-- A read of no data behind a command ends with a word without `STOP`. -/
theorem not_readFramed_bare (config : DeviceI2cConfig) (pcmd : Nat → BitVec 8)
    {cmdLen : BitVec 32} (isCommand : cmdLen ≠ 0) :
    ¬ ReadFramed (some config) pcmd cmdLen 0 readyController := by
  intro framed
  rcases framed.framed.words with ⟨words, pushed, -, -, flags⟩
  rcases (hwI2cReadBlock_spec config pcmd cmdLen 0 readyController).1 with
    ⟨other, pushed', -, whole⟩
  have inTime := hwI2cReadBlock_ready config pcmd cmdLen
  obtain rfl := pushed_unique pushed pushed'
  have stops := (flags inTime).1
  rw [whole inTime, length_readWords, readWords_stop_iff] at stops
  rcases stops with isZero | isData
  · exact isCommand (BitVec.eq_of_toNat_eq isZero)
  · exact isData rfl

/-- A write whose length does not fit into 32 bits leaves words out. -/
theorem not_writeFramed_wrapped (config : DeviceI2cConfig) (pcmd pdata : Nat → BitVec 8)
    {cmdLen dataLen : BitVec 32} (wraps : 2 ^ 32 ≤ cmdLen.toNat + dataLen.toNat) :
    ¬ WriteFramed (some config) pcmd cmdLen pdata dataLen readyController := by
  intro framed
  rcases framed.framed.words with ⟨words, pushed, -, all, -⟩
  rcases hwI2cWriteBlock_spec config pcmd pdata cmdLen dataLen readyController with
    ⟨other, pushed', -, -, whole⟩
  have inTime : (hwI2cWriteBlock (some config) pcmd cmdLen pdata dataLen
      readyController).1.timedOut = false := pushLoop_ready _ _ config
  obtain rfl := pushed_unique pushed pushed'
  have asked := all nofun inTime
  rw [(whole inTime).1, List.length_map, List.length_append, length_block, length_block] at asked
  exact absurd (asked ▸ BitVec.isLt _) (Nat.not_lt.mpr wraps)

end SunWise.I2c
