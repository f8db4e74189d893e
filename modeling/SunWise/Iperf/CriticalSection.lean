import SunWise.Iperf.Tasks
import SunWise.Library.Interaction
import SunWise.Shell.Dispatch

/-!
# Commands in a critical section

`Shell_HandleCommand` calls a handler between `taskENTER_CRITICAL` and `taskEXIT_CRITICAL`.
The nesting count is followed through the whole command, calls of the handler included, and a
call that waits does so from where it is reached.  The
handler of `udp` does not create a task, as those of the other network tests do: it runs
`iperf_udp_client` itself, which waits for the TCP/IP thread and delays the task.
-/

namespace SunWise.Iperf

open Library Shell

/-- What a task does to the critical nesting count, or in spite of it. -/
inductive CriticalEvent where
  | enter
  | exit
  /-- The task waits until another one, or the tick, wakes it up. -/
  | block
  deriving DecidableEq, Repr

namespace CriticalEvent

/-- The critical nesting count. -/
def next (nesting : Nat) : CriticalEvent → Nat
  | enter => nesting + 1
  | exit => nesting - 1
  | block => nesting

/-- No task waits in a critical section. -/
def Permits (nesting : Nat) : CriticalEvent → Prop
  | block => nesting = 0
  | _ => True

/-- Critical sections in which nothing waits. -/
def sections (count : Nat) : List CriticalEvent :=
  (List.replicate count [enter, exit]).flatten

end CriticalEvent

/-- The calls that delay the task, or wait for the TCP/IP thread and give no result that the
client goes by. -/
def Effect.blocks : Effect → Bool
  | .netconnWrite .. | .netconnClose _ | .netconnDelete _ | .vTaskDelay _ => true
  | _ => false

/-- The calls with a result that wait for the TCP/IP thread. -/
def UdpClientPoint.blocks : UdpClientPoint → Bool
  | .netconnNew _ | .netconnSendto .. => true
  | _ => false

/-- What `iperf_udp_client` does: it reaches a call with a result, which may not return, or it
has done something on a result. -/
inductive ClientCall where
  | reached (point : UdpClientPoint)
  | performed (effect : Effect)

/-- The call waits until another task, or the tick, wakes the task up. -/
def ClientCall.blocks : ClientCall → Bool
  | .reached point => point.blocks
  | .performed effect => effect.blocks

/-- `iperf_udp_client` on a result, up to the next call with a result. -/
def clientTurn (point : UdpClientPoint) (reply : Reply) :
    Option (UdpClientPoint × List ClientCall) :=
  (udpClientStep point reply).map fun turn =>
    (turn.1, turn.2.map .performed ++ [.reached turn.1])

/-- A call of a command, by the shell or its handler, or by `iperf_udp_client`. -/
inductive CommandCall where
  | shell (action : ShellAction)
  | network (call : ClientCall)

/-- The events of a call, which may have critical sections of its own: every `xprintf` is
one. No driver waits for another task; `udelay` and the polls of the drivers keep the core
busy. -/
def CommandCall.events (own : CommandCall → Nat) : CommandCall → List CriticalEvent
  | .shell .taskEnterCritical => [.enter]
  | .shell .taskExitCritical => [.exit]
  | .shell action => CriticalEvent.sections (own (.shell action))
  | .network call =>
      CriticalEvent.sections (own (.network call)) ++ if call.blocks then [.block] else []

/-- The calls of a command, and whether it has returned: it has not while it waits for a
result. -/
structure CommandRun where
  calls : List CommandCall
  returned : Bool

/-- What a handler does, on results of the network stack. -/
def performActions (replies : List Reply) : List ShellAction → Option CommandRun
  | [] => some ⟨[], true⟩
  | .iperfUdpClient :: actions => do
      let (final, calls) ← interact clientTurn .pvPortMalloc replies
      let calls := (.reached .pvPortMalloc :: calls).map .network
      if final = .returned then
        let rest ← performActions [] actions
        return ⟨calls ++ rest.calls, rest.returned⟩
      else return ⟨calls, false⟩
  | action :: actions => do
      let rest ← performActions replies actions
      return ⟨.shell action :: rest.calls, rest.returned⟩

/-- `Shell_HandleCommand`, with what its handler calls. -/
def handleCommandRun (statics : ShellCommandStatics) (pszData : Nat → UInt8) (ui32Length : Nat)
    (replies : List Reply) : Option CommandRun := do
  let (_, actions) ← shellHandleCommand statics pszData ui32Length
  performActions replies actions

/-- No call waits where the nesting count is above zero, and behind a command that has
returned the count is what it was. -/
def CommandRun.Unblocked (own : CommandCall → Nat) (nesting : Nat) (run : CommandRun) : Prop :=
  Disciplined CriticalEvent.next CriticalEvent.Permits (· = nesting) (· = true) nesting
    run.returned (run.calls.flatMap (CommandCall.events own))

/-- The command of a line. -/
def firstArgument (pszData : Nat → UInt8) (ui32Length : Nat) : Option (List UInt8) := do
  let split ← shellSplitCommand pszData ui32Length
  split.arguments ui32Length 0

/-- There are memory and a netbuf, so that `netconn_new` is called. -/
def ReachesStack : List Reply → Prop
  | .pvPortMalloc true :: .netbufNew (some _) :: _ => True
  | _ => False

/-! ## Handlers -/

/-- The action belongs to the shell alone, and leaves the nesting count. -/
def quiet : ShellAction → Bool
  | .iperfUdpClient | .taskEnterCritical | .taskExitCritical => false
  | _ => true

/-- What is returned is quiet. -/
def Quiet (result : Option (ShellCommandStatics × List ShellAction)) : Prop :=
  ∀ output ∈ result, output.2.all quiet

theorem quiet_bind {α : Type} {value : Option α}
    {next : α → Option (ShellCommandStatics × List ShellAction)}
    (later : ∀ value, Quiet (next value)) : Quiet (value >>= next) := by
  intro output isOutput
  rcases Option.bind_eq_some_iff.mp isOutput with ⟨value, -, returned⟩
  exact later value output returned

theorem quiet_some {statics : ShellCommandStatics} {actions : List ShellAction}
    (each : actions.all quiet) : Quiet (some (statics, actions)) := by
  rintro output ⟨⟩
  exact each

theorem quiet_unlessUsage {needed ui8Argc : Nat} {usage : String} {statics : ShellCommandStatics}
    {body : Option (ShellCommandStatics × List ShellAction)} (rest : Quiet body) :
    Quiet (unlessUsage needed usage statics ui8Argc body) := by
  unfold unlessUsage
  split
  next => exact quiet_some rfl
  next => exact rest

theorem regActions_quiet (pszOp : List UInt8) (uinAddress uinData : UInt32) :
    (regActions pszOp uinAddress uinData).all quiet := by
  unfold regActions shellCommandReadMemory shellCommandWriteMemory
  repeat' split
  all_goals rfl

theorem memActions_quiet (pszOp : List UInt8) (uinAddress uinLengthOrData : UInt32) :
    (memActions pszOp uinAddress uinLengthOrData).all quiet := by
  unfold memActions shellCommandWriteMemory
  repeat' split
  all_goals rfl

theorem nandActions_quiet (pszOp : List UInt8) (uinAddress : UInt32) :
    (nandActions pszOp uinAddress).all quiet := by
  unfold nandActions
  repeat' split
  all_goals rfl

theorem norActions_quiet (pszOp : List UInt8) (uinAddress : UInt32) :
    (norActions pszOp uinAddress).all quiet := by
  unfold norActions
  repeat' split
  all_goals rfl

theorem qspiReadLoop_quiet (uinAddress uinLengthOrData : UInt32) :
    (qspiReadLoop uinAddress uinLengthOrData).all quiet := by
  fun_induction qspiReadLoop uinAddress uinLengthOrData with
  | case1 uinAddress uinLengthOrData more count ih => exact ih
  | case2 => rfl

theorem qspiActions_quiet (pszOp : List UInt8) (uinAddress uinLengthOrData : UInt32) :
    (qspiActions pszOp uinAddress uinLengthOrData).all quiet := by
  unfold qspiActions
  repeat' split
  next => rfl
  next => exact qspiReadLoop_quiet uinAddress uinLengthOrData
  next => rfl
  next => rfl

theorem spiActions_quiet (pszOp : List UInt8) (uinIndex : UInt32) :
    (spiActions pszOp uinIndex).all quiet := by
  unfold spiActions
  dsimp only
  split <;> rfl

theorem canActions_quiet (statics : ShellCommandStatics) (pszOp : List UInt8) (ui32Id : UInt32)
    (pszMode : List UInt8) : (canActions statics pszOp ui32Id pszMode).2.all quiet := by
  unfold canActions
  repeat' split
  all_goals rfl

theorem gmacActions_quiet (pszOp : List UInt8) (uinCount : UInt32) :
    (gmacActions pszOp uinCount).all quiet := by
  unfold gmacActions
  dsimp only
  split <;> split <;> rfl

theorem phyActions_quiet (uinPhyId : Option UInt32) : (phyActions uinPhyId).all quiet := by
  unfold phyActions
  simp only [List.all_append, List.all_flatMap]
  rfl

/-- Every handler but that of `udp` is quiet. -/
theorem gsShellCommands_quiet :
    ∀ command ∈ gsShellCommands, ∀ statics ui8Argc apszArgv,
      command.pszCommand = ascii "udp" ∧
          command.pfnCommand statics ui8Argc apszArgv = some (statics, [.iperfUdpClient]) ∨
        command.pszCommand ≠ ascii "udp" ∧
          Quiet (command.pfnCommand statics ui8Argc apszArgv) := by
  have once (created : Prop) [Decidable created]
      {first again : ShellCommandStatics × List ShellAction} (isFirst : first.2.all quiet)
      (isAgain : again.2.all quiet) : Quiet (if created then some first else some again) := by
    split
    next => exact quiet_some isFirst
    next => exact quiet_some isAgain
  simp only [gsShellCommands, List.forall_mem_cons]
  refine ⟨?help, ?clear, ?reg, ?mem, ?epwm, ?nand, ?nor, ?qspi, ?spi, ?can, ?gmac, ?phy, ?link,
    ?ps, ?tcp, ?udp, ?udpSpeed, ?tcpSpeed, List.forall_mem_nil _⟩
  all_goals intro statics ui8Argc apszArgv
  case udp => exact Or.inl ⟨trivial, rfl⟩
  all_goals refine Or.inr ⟨by decide, ?_⟩
  case help | clear | epwm | link | ps => exact quiet_some rfl
  case tcp | udpSpeed | tcpSpeed => exact once _ rfl rfl
  case phy =>
    unfold shellCommandPhy
    split
    next =>
      intro output isOutput
      rcases Option.map_eq_some_iff.mp isOutput with ⟨argument, -, rfl⟩
      exact phyActions_quiet _
    next => exact quiet_some (phyActions_quiet _)
  all_goals apply quiet_unlessUsage
  case reg =>
    exact quiet_bind fun _ => quiet_bind fun _ => quiet_bind fun _ =>
      quiet_some (regActions_quiet _ _ _)
  case mem =>
    exact quiet_bind fun _ => quiet_bind fun _ => quiet_bind fun _ =>
      quiet_some (memActions_quiet _ _ _)
  case nand => exact quiet_bind fun _ => quiet_bind fun _ => quiet_some (nandActions_quiet _ _)
  case nor => exact quiet_bind fun _ => quiet_bind fun _ => quiet_some (norActions_quiet _ _)
  case qspi =>
    exact quiet_bind fun _ => quiet_bind fun _ => quiet_bind fun _ =>
      quiet_some (qspiActions_quiet _ _ _)
  case spi => exact quiet_bind fun _ => quiet_bind fun _ => quiet_some (spiActions_quiet _ _)
  case can =>
    exact quiet_bind fun _ => quiet_bind fun _ => quiet_bind fun _ =>
      quiet_some (canActions_quiet _ _ _ _)
  case gmac => exact quiet_bind fun _ => quiet_bind fun _ => quiet_some (gmacActions_quiet _ _)

/-- What a line does: nothing, an unknown command, that of `udp`, or a quiet one. -/
theorem dispatchCommand_cases {statics after : ShellCommandStatics} {ui8Argc : Nat}
    {apszArgv : Arguments} {commands : List ShellCommand} {actions : List ShellAction}
    (dispatched : dispatchCommand statics ui8Argc apszArgv commands = some (after, actions)) :
    actions = [.xprintf "Unknown command!\n" []] ∧
        (∀ command ∈ commands, apszArgv 0 ≠ some command.pszCommand) ∨
      ∃ command ∈ commands, apszArgv 0 = some command.pszCommand ∧
        ∃ body, command.pfnCommand statics ui8Argc apszArgv = some (after, body) ∧
          actions = .taskEnterCritical :: body ++ [.taskExitCritical] := by
  induction commands with
  | nil =>
      cases dispatched
      exact Or.inl ⟨rfl, List.forall_mem_nil _⟩
  | cons command commands ih =>
      rcases Option.bind_eq_some_iff.mp dispatched with ⟨name, isName, dispatched⟩
      split at dispatched
      next same =>
        rcases Option.bind_eq_some_iff.mp dispatched with ⟨⟨handled, body⟩, returned, result⟩
        cases result
        exact Or.inr ⟨command, List.mem_cons_self, same ▸ isName, body, returned, rfl⟩
      next differs =>
        rcases ih dispatched with ⟨unknown, others⟩ | ⟨found, isFound, named, rest⟩
        · refine Or.inl ⟨unknown, List.forall_mem_cons.mpr ⟨?_, others⟩⟩
          rw [isName]
          exact fun same => differs (Option.some.inj same)
        · exact Or.inr ⟨found, List.mem_cons_of_mem _ isFound, named, rest⟩

/-- Nothing waits in the events, and the nesting count is the same behind them. -/
structure Neutral (nesting : Nat) (events : List CriticalEvent) : Prop where
  permitted : Accepts CriticalEvent.next CriticalEvent.Permits nesting events
  same : events.foldl CriticalEvent.next nesting = nesting

theorem neutral_nil (nesting : Nat) : Neutral nesting [] :=
  ⟨trivial, rfl⟩

theorem Neutral.append {nesting : Nat} {front back : List CriticalEvent}
    (first : Neutral nesting front) (second : Neutral nesting back) :
    Neutral nesting (front ++ back) where
  permitted := by
    rw [accepts_append, first.same]
    exact ⟨first.permitted, second.permitted⟩
  same := by rw [List.foldl_append, first.same, second.same]

theorem Neutral.section {nesting : Nat} {events : List CriticalEvent}
    (inside : Neutral (nesting + 1) events) : Neutral nesting (.enter :: events ++ [.exit]) where
  permitted := by
    rw [List.cons_append, accepts_cons, accepts_append]
    exact ⟨trivial, inside.permitted, trivial, trivial⟩
  same := by
    rw [List.cons_append, List.foldl_cons, List.foldl_append]
    show CriticalEvent.next (events.foldl CriticalEvent.next (nesting + 1)) .exit = nesting
    rw [inside.same]
    rfl

theorem neutral_sections (nesting count : Nat) :
    Neutral nesting (CriticalEvent.sections count) := by
  induction count with
  | zero => exact neutral_nil nesting
  | succ count ih =>
      rw [CriticalEvent.sections, List.replicate_succ, List.flatten_cons]
      exact (neutral_nil (nesting + 1)).section.append ih

section Calls

variable (own : CommandCall → Nat) (nesting : Nat)

theorem neutral_quiet {actions : List ShellAction} (isQuiet : actions.all quiet) :
    Neutral nesting ((actions.map CommandCall.shell).flatMap (CommandCall.events own)) := by
  induction actions with
  | nil => exact neutral_nil nesting
  | cons action actions ih =>
      rw [List.all_cons, Bool.and_eq_true] at isQuiet
      rw [List.map_cons, List.flatMap_cons]
      refine Neutral.append ?_ (ih isQuiet.2)
      cases action <;> first
        | exact neutral_sections nesting _
        | cases isQuiet.1

/-- In a critical section, the calls of the client that wait are the ones that must not. -/
theorem neutral_network (calls : List ClientCall) :
    (Accepts CriticalEvent.next CriticalEvent.Permits (nesting + 1)
        ((calls.map CommandCall.network).flatMap (CommandCall.events own)) ↔
      ∀ call ∈ calls, call.blocks = false) ∧
    ((calls.map CommandCall.network).flatMap (CommandCall.events own)).foldl CriticalEvent.next
      (nesting + 1) = nesting + 1 := by
  induction calls with
  | nil => exact ⟨iff_of_true trivial (List.forall_mem_nil _), rfl⟩
  | cons call calls ih =>
      have inside := neutral_sections (nesting + 1) (own (.network call))
      simp only [List.map_cons, List.flatMap_cons, List.forall_mem_cons, CommandCall.events,
        accepts_append, List.foldl_append, inside.same, inside.permitted, true_and]
      cases waits : call.blocks with
      | false =>
          rw [if_neg Bool.false_ne_true, and_iff_right rfl]
          exact ⟨(and_iff_right trivial).trans ih.1, ih.2⟩
      | true =>
          rw [if_pos rfl]
          refine ⟨iff_of_false ?_ ?_, ih.2⟩
          · rintro ⟨⟨blocked, -⟩, -⟩
            exact absurd blocked (Nat.succ_ne_zero nesting)
          · rintro ⟨contra, -⟩
            exact absurd contra (by decide)

end Calls

/-! ## Runs -/

theorem performActions_shell {actions : List ShellAction}
    (others : ShellAction.iperfUdpClient ∉ actions) (replies : List Reply) :
    performActions replies actions = some ⟨actions.map .shell, true⟩ := by
  induction actions with
  | nil => rfl
  | cons action actions ih =>
      rw [List.mem_cons, not_or] at others
      rw [performActions, ih others.2]
      · rfl
      · exact fun same => others.1 same.symm

theorem not_mem_of_quiet {actions : List ShellAction} (isQuiet : actions.all quiet) :
    ShellAction.iperfUdpClient ∉ actions := by
  intro isAction
  exact absurd (List.all_eq_true.mp isQuiet _ isAction) Bool.false_ne_true

theorem Neutral.unblocked {own : CommandCall → Nat} {nesting : Nat} {run : CommandRun}
    (neutral : Neutral nesting (run.calls.flatMap (CommandCall.events own))) :
    run.Unblocked own nesting :=
  ⟨neutral.permitted, fun _ => neutral.same⟩

theorem performActions_udp {replies : List Reply} {run : CommandRun} {output : List UInt8}
    (runs : performActions replies
      [.print output, .taskEnterCritical, .iperfUdpClient, .taskExitCritical] = some run) :
    ∃ final calls, interact clientTurn .pvPortMalloc replies = some (final, calls) ∧
      run.calls = .shell (.print output) :: .shell .taskEnterCritical ::
        (.reached .pvPortMalloc :: calls).map .network ++
          (if run.returned then [.shell .taskExitCritical] else []) := by
  simp only [performActions, Option.bind_eq_bind, Option.bind_eq_some_iff] at runs
  rcases runs with ⟨_, ⟨_, ⟨⟨final, calls⟩, talk, ending⟩, entered⟩, printed⟩
  obtain rfl := Option.some.inj entered
  obtain rfl := Option.some.inj printed
  refine ⟨final, calls, talk, ?_⟩
  split at ending <;> obtain rfl := Option.some.inj ending
  next => rfl
  next => exact (List.append_nil _).symm

theorem udpClient_returned {replies : List Reply} {final : UdpClientPoint}
    {calls : List ClientCall}
    (talk : interact clientTurn .returned replies = some (final, calls)) : calls = [] := by
  have none : replies = [] := replies_eq_nil (fun _ => rfl) (Option.isSome_of_mem talk)
  rw [none] at talk
  cases talk
  rfl

theorem udpClient_netbufNew {replies : List Reply} {final : UdpClientPoint}
    {calls : List ClientCall}
    (talk : interact clientTurn .netbufNew replies = some (final, calls)) :
    (∀ call ∈ calls, call.blocks = false) ↔ ¬ ReachesStack (.pvPortMalloc true :: replies) := by
  rcases replies with _ | ⟨reply, replies⟩
  · cases talk
    exact iff_of_true (List.forall_mem_nil _) not_false
  rcases interact_cons.mp talk with ⟨middle, front, back, turn, later, rfl⟩
  rcases reply with _ | _ | _ | _ | _ | _ | buf | _ | _
  case netbufNew =>
    cases buf with
    | none =>
        cases turn
        rw [udpClient_returned later]
        exact iff_of_true (by decide) not_false
    | some buf =>
        -- the client is in `netconn_new` now
        cases turn
        refine iff_of_false (fun none => ?_) (not_not_intro trivial)
        have quiet : UdpClientPoint.blocks (.netconnNew buf) = false :=
          none (.reached (.netconnNew buf)) (by simp)
        cases quiet
  all_goals cases turn

/-- `iperf_udp_client` waits as soon as `netconn_new` is reached. -/
theorem udpClient_blocks_iff {replies : List Reply} {final : UdpClientPoint}
    {calls : List ClientCall}
    (talk : interact clientTurn .pvPortMalloc replies = some (final, calls)) :
    (∀ call ∈ .reached .pvPortMalloc :: calls, call.blocks = false) ↔
      ¬ ReachesStack replies := by
  have first : (ClientCall.reached .pvPortMalloc).blocks = false := rfl
  rw [List.forall_mem_cons, and_iff_right first]
  rcases replies with _ | ⟨reply, replies⟩
  · cases talk
    exact iff_of_true (List.forall_mem_nil _) not_false
  rcases interact_cons.mp talk with ⟨middle, front, back, turn, later, rfl⟩
  rcases reply with succeeds | _ | _ | _ | _ | _ | _ | _ | _
  case pvPortMalloc =>
    cases succeeds with
    | false =>
        cases turn
        rw [udpClient_returned later]
        exact iff_of_true (by decide) not_false
    | true =>
        cases turn
        rw [← udpClient_netbufNew later, List.forall_mem_append, and_iff_right (by decide)]
  all_goals cases turn

/-- A line does nothing but print, or runs a quiet handler, or that of `udp`. -/
theorem shellHandleCommand_cases {statics after : ShellCommandStatics} {pszData : Nat → UInt8}
    {ui32Length : Nat} {actions : List ShellAction}
    (handled : shellHandleCommand statics pszData ui32Length = some (after, actions)) :
    firstArgument pszData ui32Length ≠ some (ascii "udp") ∧
        (actions.all quiet ∨
          ∃ output body, body.all quiet ∧
            actions = .print output :: .taskEnterCritical :: body ++ [.taskExitCritical]) ∨
      firstArgument pszData ui32Length = some (ascii "udp") ∧
        ∃ output,
          actions = [.print output, .taskEnterCritical, .iperfUdpClient, .taskExitCritical] := by
  obtain ⟨split, splits, stored, counted⟩ := shellSplitCommand_spec pszData ui32Length
  have isFirst : firstArgument pszData ui32Length = split.arguments ui32Length 0 := by
    rw [firstArgument, splits]
    rfl
  rw [isFirst]
  unfold shellHandleCommand at handled
  split at handled
  next isEmpty =>
    cases handled
    have missing : split.arguments ui32Length 0 = none := by
      rw [← Option.not_isSome_iff_eq_none, Split.arguments, Option.isSome_map, stored, counted]
      rintro ⟨index, inside, -⟩
      exact Nat.not_lt_zero index (Nat.lt_of_lt_of_le inside (Nat.le_of_lt_succ isEmpty))
    rw [missing]
    exact Or.inl ⟨(Option.some_ne_none _).symm, Or.inl rfl⟩
  next isLine =>
    simp only [splits, Option.bind_eq_bind, Option.bind_some, Option.bind_eq_some_iff] at handled
    rcases handled with ⟨⟨between, dispatched⟩, isDispatched, returned⟩
    cases returned
    rcases dispatchCommand_cases isDispatched with
      ⟨rfl, unknown⟩ | ⟨command, isCommand, named, body, performed, rfl⟩
    · have isUdp : ⟨ascii "udp", shellCommandUdp, "Running raw udp send Test"⟩ ∈
          gsShellCommands := List.mem_of_getElem? (i := 15) rfl
      exact Or.inl ⟨unknown _ isUdp, Or.inl rfl⟩
    · -- the command is one of the table
      rcases gsShellCommands_quiet command isCommand statics split.ui8Argc
          (split.arguments ui32Length) with ⟨isUdp, client⟩ | ⟨notUdp, isQuiet⟩
      · rw [client] at performed
        cases performed
        exact Or.inr ⟨named.trans (congrArg some isUdp), split.output, rfl⟩
      · refine Or.inl ⟨?_, Or.inr ⟨split.output, body, isQuiet _ performed, rfl⟩⟩
        rw [named]
        exact fun same => notUdp (Option.some.inj same)

/-- The command `udp` waits in its critical section exactly if a call of `iperf_udp_client`
waits. -/
theorem unblocked_udp_iff {own : CommandCall → Nat} {nesting : Nat} {run : CommandRun}
    {output : List UInt8} {client : List ClientCall}
    (calls : run.calls = .shell (.print output) :: .shell .taskEnterCritical ::
      client.map .network ++ (if run.returned then [.shell .taskExitCritical] else [])) :
    run.Unblocked own nesting ↔ ∀ call ∈ client, call.blocks = false := by
  have printed := neutral_sections nesting (own (.shell (.print output)))
  rcases neutral_network own nesting client with ⟨permitted, same⟩
  have events : run.calls.flatMap (CommandCall.events own) =
      CriticalEvent.sections (own (.shell (.print output))) ++ .enter ::
        (client.map CommandCall.network).flatMap (CommandCall.events own) ++
          if run.returned then [.exit] else [] := by
    rw [calls]
    cases run.returned <;> simp [CommandCall.events]
  have ends : Accepts CriticalEvent.next CriticalEvent.Permits (nesting + 1)
      (if run.returned then [.exit] else []) := by
    split <;> simp [CriticalEvent.Permits]
  rw [← permitted, CommandRun.Unblocked, events]
  constructor
  · rintro ⟨accepted, -⟩
    simp only [accepts_append, accepts_cons, List.foldl_append, printed.same] at accepted
    exact accepted.1.2.2
  · intro accepted
    constructor
    · simp only [accepts_append, accepts_cons, List.foldl_append, List.foldl_cons, printed.same]
      exact ⟨⟨printed.permitted, trivial, accepted⟩, same.symm ▸ ends⟩
    · intro returned
      rw [returned, if_pos rfl, List.foldl_append, List.foldl_append, printed.same,
        List.foldl_cons]
      show CriticalEvent.next (List.foldl _ (nesting + 1) _) .exit = nesting
      rw [same]
      rfl

/-- No command waits in a critical section, except `udp` as soon as it reaches the network
stack. -/
theorem handleCommand_unblocked_iff (own : CommandCall → Nat) (nesting : Nat)
    (statics : ShellCommandStatics) (pszData : Nat → UInt8) (ui32Length : Nat)
    (replies : List Reply) (run : CommandRun)
    (runs : handleCommandRun statics pszData ui32Length replies = some run) :
    run.Unblocked own nesting ↔
      ¬ (firstArgument pszData ui32Length = some (ascii "udp") ∧ ReachesStack replies) := by
  rcases Option.bind_eq_some_iff.mp runs with ⟨⟨after, actions⟩, handled, performed⟩
  replace performed : performActions replies actions = some run := performed
  rcases shellHandleCommand_cases handled with ⟨notUdp, isQuiet | ⟨output, body, isQuiet, rfl⟩⟩ |
    ⟨isUdp, output, rfl⟩
  · rw [performActions_shell (not_mem_of_quiet isQuiet)] at performed
    cases performed
    exact iff_of_true (neutral_quiet own nesting isQuiet).unblocked fun h => notUdp h.1
  · rw [performActions_shell (by simpa using not_mem_of_quiet isQuiet)] at performed
    cases performed
    refine iff_of_true (Neutral.unblocked ?_) fun h => notUdp h.1
    have inside := (neutral_quiet own (nesting + 1) isQuiet).section
    have printed := neutral_sections nesting (own (.shell (.print output)))
    simpa [CommandCall.events] using printed.append inside
  · rcases performActions_udp performed with ⟨final, client, talk, calls⟩
    rw [isUdp, and_iff_right rfl, ← udpClient_blocks_iff talk]
    exact unblocked_udp_iff calls

/-- Without a netbuf, `udp` waits for nothing. -/
theorem handleCommand_unblocked_udp :
    ∃ run, handleCommandRun ⟨false, .eCanFormat_Standard, false, false, false⟩
        (literal (ascii "udp")) 3 [.pvPortMalloc true, .netbufNew none] = some run ∧
      run.returned = true ∧ run.Unblocked (fun _ => 1) 0 := by
  let client : List ClientCall := [.reached .pvPortMalloc, .performed remoteText,
    .performed (.pvPortMalloc 4096), .performed (.stored .heap 0 4096),
    .performed (.stored .heap 1460 1), .reached .netbufNew,
    .performed (text "Create netbuf failed\n"), .reached .returned]
  refine ⟨⟨.shell (.print []) :: .shell .taskEnterCritical :: client.map .network ++
    [.shell .taskExitCritical], true⟩, rfl, rfl, ?_⟩
  exact (handleCommand_unblocked_iff (fun _ => 1) 0
    ⟨false, .eCanFormat_Standard, false, false, false⟩ (literal (ascii "udp")) 3
    [.pvPortMalloc true, .netbufNew none] _ rfl).mpr fun reaches => reaches.2

/-- With memory and a netbuf, `udp` calls `netconn_new` in its critical section. -/
theorem handleCommand_udp_blocks :
    ∃ run, handleCommandRun ⟨false, .eCanFormat_Standard, false, false, false⟩
        (literal (ascii "udp")) 3 [.pvPortMalloc true, .netbufNew (some 0)] = some run ∧
      ¬ run.Unblocked (fun _ => 1) 0 := by
  let client : List ClientCall := [.reached .pvPortMalloc, .performed remoteText,
    .performed (.pvPortMalloc 4096), .performed (.stored .heap 0 4096),
    .performed (.stored .heap 1460 1), .reached .netbufNew, .performed (.netbuf 0),
    .reached (.netconnNew 0)]
  refine ⟨⟨.shell (.print []) :: .shell .taskEnterCritical :: client.map .network, false⟩, rfl, ?_⟩
  rw [unblocked_udp_iff (List.append_nil _).symm]
  decide

end SunWise.Iperf
