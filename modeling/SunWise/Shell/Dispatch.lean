import SunWise.Shell.Commands
import SunWise.Shell.Split

/-!
# Dispatching a command line

`Shell_HandleCommand` of `xshell.c`, built with `USE_OS_FREERTOS`.
-/

namespace SunWise.Shell

open Library

/-- The loop of `Shell_HandleCommand`. `strcmp` of two strings is zero when they are equal. -/
def dispatchCommand (statics : ShellCommandStatics) (ui8Argc : Nat) (apszArgv : Arguments) :
    List ShellCommand → Option (ShellCommandStatics × List ShellAction)
  | [] => some (statics, [.xprintf "Unknown command!\n" []])
  | command :: commands => do
      let name ← apszArgv 0
      if name = command.pszCommand then
        let (statics, actions) ← command.pfnCommand statics ui8Argc apszArgv
        return (statics, .taskEnterCritical :: actions ++ [.taskExitCritical])
      else dispatchCommand statics ui8Argc apszArgv commands

/-- The strings behind the argument pointers, in `ui32Length` bytes and one more. -/
def Split.arguments (split : Split) (ui32Length : Nat) : Arguments := fun index =>
  (split.apszArgv index).map (cString split.pszData (ui32Length + 1))

/-- `Shell_HandleCommand`. It fails when it, or the handler, reads an argument pointer that
`Shell_SplitCommand` has not stored. -/
def shellHandleCommand (statics : ShellCommandStatics) (pszData : Nat → UInt8)
    (ui32Length : Nat) : Option (ShellCommandStatics × List ShellAction) :=
  if ui32Length < 1 then some (statics, [])
  else do
    let split ← shellSplitCommand pszData ui32Length
    let (statics, actions) ←
      dispatchCommand statics split.ui8Argc (split.arguments ui32Length) gsShellCommands
    return (statics, .print split.output :: actions)

/-- The handler reads argument pointers below `ui8Argc` only. -/
def ReadsArguments (handler : CommandHandler) : Prop :=
  ∀ statics ui8Argc apszArgv, (∀ index < ui8Argc, (apszArgv index).isSome) →
    (handler statics ui8Argc apszArgv).isSome

/-- A step that returns something may be left out. -/
theorem isSome_bind {α β : Type} {value : Option α} {next : α → Option β}
    (isValue : value.isSome) (returns : ∀ value, (next value).isSome) :
    (value >>= next).isSome := by
  obtain ⟨value, rfl⟩ := Option.isSome_iff_exists.mp isValue
  exact returns value

section Arguments

variable {ui8Argc : Nat} {apszArgv : Arguments}

theorem numberOr_isSome (stored : ∀ index < ui8Argc, (apszArgv index).isSome)
    (index base : Nat) (default : UInt32) :
    (numberOr ui8Argc apszArgv index base default).isSome := by
  unfold numberOr
  split
  next given => simpa using stored index given
  next => rfl

/-- Behind the usage text, the needed arguments are there. -/
theorem unlessUsage_isSome {needed : Nat} {usage : String} {statics : ShellCommandStatics}
    {body : Option (ShellCommandStatics × List ShellAction)}
    (returns : needed ≤ ui8Argc → body.isSome) :
    (unlessUsage needed usage statics ui8Argc body).isSome := by
  unfold unlessUsage
  split
  next => rfl
  next enough => exact returns (Nat.le_of_not_lt enough)

end Arguments

theorem readsArguments_reg : ReadsArguments shellCommandReg := by
  intro statics ui8Argc apszArgv stored
  apply unlessUsage_isSome
  intro enough
  apply isSome_bind (stored 1 (by omega))
  intro pszOp
  apply isSome_bind (by simpa using stored 2 (by omega))
  intro uinAddress
  exact isSome_bind (numberOr_isSome stored 3 16 0) fun uinData => rfl

theorem readsArguments_mem : ReadsArguments shellCommandMem := by
  intro statics ui8Argc apszArgv stored
  apply unlessUsage_isSome
  intro enough
  apply isSome_bind (stored 1 (by omega))
  intro pszOp
  apply isSome_bind (by simpa using stored 2 (by omega))
  intro uinAddress
  exact isSome_bind (by simpa using stored 3 (by omega)) fun uinLengthOrData => rfl

theorem readsArguments_nand : ReadsArguments shellCommandNand := by
  intro statics ui8Argc apszArgv stored
  apply unlessUsage_isSome
  intro enough
  apply isSome_bind (stored 1 (by omega))
  intro pszOp
  exact isSome_bind (numberOr_isSome stored 2 16 0) fun uinAddress => rfl

theorem readsArguments_nor : ReadsArguments shellCommandNor := by
  intro statics ui8Argc apszArgv stored
  apply unlessUsage_isSome
  intro enough
  apply isSome_bind (stored 1 (by omega))
  intro pszOp
  exact isSome_bind (numberOr_isSome stored 2 16 0) fun uinAddress => rfl

theorem readsArguments_qspi : ReadsArguments shellCommandQspi := by
  intro statics ui8Argc apszArgv stored
  apply unlessUsage_isSome
  intro enough
  apply isSome_bind (stored 1 (by omega))
  intro pszOp
  apply isSome_bind (numberOr_isSome stored 2 16 0)
  intro uinAddress
  exact isSome_bind (numberOr_isSome stored 3 16 0x10) fun uinLengthOrData => rfl

theorem readsArguments_spi : ReadsArguments shellCommandSpi := by
  intro statics ui8Argc apszArgv stored
  apply unlessUsage_isSome
  intro enough
  apply isSome_bind (stored 1 (by omega))
  intro pszOp
  exact isSome_bind (by simpa using numberOr_isSome stored 2 10 0) fun uinIndex => rfl

theorem readsArguments_can : ReadsArguments shellCommandCan := by
  intro statics ui8Argc apszArgv stored
  apply unlessUsage_isSome
  intro enough
  apply isSome_bind (stored 1 (by omega))
  intro pszOp
  apply isSome_bind (numberOr_isSome stored 2 10 0)
  intro ui32Id
  have mode : (if ui8Argc > 2 then apszArgv 2 else some (ascii "std")).isSome := by
    split
    next given => exact stored 2 given
    next => rfl
  exact isSome_bind mode fun pszMode => rfl

theorem readsArguments_gmac : ReadsArguments shellCommandGmac := by
  intro statics ui8Argc apszArgv stored
  apply unlessUsage_isSome
  intro enough
  apply isSome_bind (numberOr_isSome stored 2 10 1)
  intro uinCount
  exact isSome_bind (stored 1 (by omega)) fun pszOp => rfl

theorem readsArguments_phy : ReadsArguments shellCommandPhy := by
  intro statics ui8Argc apszArgv stored
  unfold shellCommandPhy
  split
  next given => simpa using stored 1 given
  next => rfl

/-- A handler that creates its task once reads no argument. -/
theorem readsArguments_once {created : ShellCommandStatics → Bool}
    {first again : ShellCommandStatics → ShellCommandStatics × List ShellAction} :
    ReadsArguments fun statics _ _ =>
      if ¬ created statics then some (first statics) else some (again statics) := by
  intro statics ui8Argc apszArgv stored
  dsimp only
  split <;> rfl

/-- Every handler reads argument pointers below `ui8Argc` only. -/
theorem readsArguments_gsShellCommands :
    ∀ command ∈ gsShellCommands, ReadsArguments command.pfnCommand := by
  simp only [gsShellCommands, List.forall_mem_cons]
  exact ⟨fun _ _ _ _ => rfl, fun _ _ _ _ => rfl, readsArguments_reg, readsArguments_mem,
    fun _ _ _ _ => rfl, readsArguments_nand, readsArguments_nor, readsArguments_qspi,
    readsArguments_spi, readsArguments_can, readsArguments_gmac, readsArguments_phy,
    fun _ _ _ _ => rfl, fun _ _ _ _ => rfl, readsArguments_once, fun _ _ _ _ => rfl,
    readsArguments_once, readsArguments_once, List.forall_mem_nil _⟩

theorem dispatchCommand_isSome {ui8Argc : Nat} {apszArgv : Arguments}
    (statics : ShellCommandStatics) {commands : List ShellCommand} (some : 0 < ui8Argc)
    (stored : ∀ index < ui8Argc, (apszArgv index).isSome)
    (handlers : ∀ command ∈ commands, ReadsArguments command.pfnCommand) :
    (dispatchCommand statics ui8Argc apszArgv commands).isSome := by
  induction commands with
  | nil => rfl
  | cons command commands ih =>
      have ⟨first, others⟩ := List.forall_mem_cons.mp handlers
      apply isSome_bind (stored 0 some)
      intro name
      split
      · exact isSome_bind (first statics ui8Argc apszArgv stored) fun result => rfl
      · exact ih others

/-- `Shell_HandleCommand` reads only argument pointers that are stored, which are those
below the number of arguments. -/
def ReadsStored (statics : ShellCommandStatics) (pszData : Nat → UInt8) (ui32Length : Nat) :
    Prop :=
  (∃ split, shellSplitCommand pszData ui32Length = some split ∧
    ∀ index, (split.apszArgv index).isSome ↔ index < split.ui8Argc) ∧
  (shellHandleCommand statics pszData ui32Length).isSome

/-- A line reads stored argument pointers only, except one of blanks and tabs: there the
first command name is compared with an argument that does not exist. -/
theorem shellHandleCommand_reads_stored_iff (statics : ShellCommandStatics)
    (pszData : Nat → UInt8) (ui32Length : Nat) :
    ReadsStored statics pszData ui32Length ↔
      ui32Length = 0 ∨ ∃ index < ui32Length, ¬ IsBlank (pszData index) := by
  obtain ⟨split, returns, stored, counted⟩ := shellSplitCommand_spec pszData ui32Length
  have arguments : ∀ index, (split.arguments ui32Length index).isSome ↔ index < split.ui8Argc := by
    intro index
    rw [Split.arguments, Option.isSome_map]
    exact stored index
  rw [ReadsStored, and_iff_right ⟨split, returns, stored⟩]
  unfold shellHandleCommand
  split
  next isEmpty => exact iff_of_true rfl (Or.inl (Nat.lt_one_iff.mp isEmpty))
  next isLine =>
    have positive : ui32Length ≠ 0 := fun isZero => isLine (isZero ▸ Nat.one_pos)
    rw [or_iff_right positive, ← counted]
    simp only [returns, Option.bind_eq_bind, Option.bind_some]
    constructor
    · -- the first comparison reads the first argument
      intro dispatched
      by_contra none
      have missing : split.arguments ui32Length 0 = Option.none := by
        rw [← Option.not_isSome_iff_eq_none, arguments]
        exact none
      simp [gsShellCommands, dispatchCommand, missing] at dispatched
    · intro some
      exact isSome_bind
        (dispatchCommand_isSome statics some (fun index => (arguments index).mpr)
          readsArguments_gsShellCommands)
        fun result => rfl

/-- A line of one blank. -/
theorem shellHandleCommand_blank_reads_missing :
    ¬ ReadsStored ⟨false, .eCanFormat_Standard, false, false, false⟩ (literal [0x20]) 1 := by
  rintro ⟨-, dispatched⟩
  exact absurd dispatched (by decide)

end SunWise.Shell
