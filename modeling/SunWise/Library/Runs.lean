import Mathlib.Data.List.Basic

/-!
# Runs of a labelled machine

A machine is a partial step function: the label says who moves and which way its
choices fall, and a label that is not enabled yields `none`.  `Always` and `Throughout`
speak about every state and every step of the run that a list of labels describes, up
to the first label that is not enabled.
-/

namespace SunWise.Library

variable {State Label : Type*} (step : State → Label → Option State)

/-- `P` holds in every state of the run. -/
def Always (P : State → Prop) (state : State) : List Label → Prop
  | [] => P state
  | label :: labels =>
      P state ∧ ∀ next, step state label = some next → Always P next labels

/-- Every step of the run is one that its state allows. -/
def Throughout (allowed : State → Label → Prop) (state : State) : List Label → Prop
  | [] => True
  | label :: labels =>
      ∀ next, step state label = some next →
        allowed state label ∧ Throughout allowed next labels

/-- Whether a run takes allowed steps only can be computed. -/
instance throughoutDecidable (allowed : State → Label → Prop)
    [∀ state label, Decidable (allowed state label)] (state : State) (labels : List Label) :
    Decidable (Throughout step allowed state labels) :=
  match labels with
  | [] => isTrue trivial
  | label :: labels =>
      match taken : step state label with
      | none => isTrue fun _ takenToo => nomatch taken.symm.trans takenToo
      | some next =>
          have := throughoutDecidable allowed next labels
          decidable_of_iff (allowed state label ∧ Throughout step allowed next labels)
            ⟨fun both _ takenToo => Option.some.inj (taken.symm.trans takenToo) ▸ both,
              fun throughout => throughout next taken⟩

/-- The state at the end of a run whose labels are all enabled. -/
def run (state : State) : List Label → Option State
  | [] => some state
  | label :: labels => (step state label).bind fun next => run next labels

section Rules

variable {step} {P Q inv : State → Prop} {allowed : State → Label → Prop}

theorem Always.head {state : State} {labels : List Label}
    (always : Always step P state labels) : P state := by
  cases labels with
  | nil => exact always
  | cons label labels => exact always.1

theorem Always.mono (weaken : ∀ state, P state → Q state) {state : State}
    {labels : List Label} (always : Always step P state labels) :
    Always step Q state labels := by
  induction labels generalizing state with
  | nil => exact weaken state always
  | cons label labels ih =>
      exact ⟨weaken state always.1, fun next taken => ih (always.2 next taken)⟩

theorem Always.of_run {state final : State} {labels : List Label}
    (always : Always step P state labels) (runs : run step state labels = some final) :
    P final := by
  induction labels generalizing state with
  | nil =>
      cases runs
      exact always
  | cons label labels ih =>
      rcases Option.bind_eq_some_iff.mp runs with ⟨next, taken, later⟩
      exact ih (always.2 next taken) later

theorem throughout_cons {state next : State} {label : Label} {labels : List Label}
    (taken : step state label = some next) (isAllowed : allowed state label)
    (later : Throughout step allowed next labels) :
    Throughout step allowed state (label :: labels) := by
  intro other takenToo
  rw [taken] at takenToo
  cases takenToo
  exact ⟨isAllowed, later⟩

/-- What is said of the labels alone can be said of the whole run at once. -/
theorem throughout_of_forall {labelled : Label → Prop} {labels : List Label}
    (each : ∀ label ∈ labels, labelled label) (state : State) :
    Throughout step (fun _ label => labelled label) state labels := by
  induction labels generalizing state with
  | nil => trivial
  | cons label labels ih =>
      intro next _
      refine ⟨each label List.mem_cons_self, ih ?_ next⟩
      intro later isLater
      exact each later (List.mem_cons_of_mem _ isLater)

/-- An invariant of the allowed steps holds in every state of a run that takes no
others. -/
theorem always_of_throughout
    (preserved : ∀ state label next, inv state → allowed state label →
      step state label = some next → inv next)
    {state : State} (start : inv state) {labels : List Label}
    (throughout : Throughout step allowed state labels) :
    Always step inv state labels := by
  induction labels generalizing state with
  | nil => exact start
  | cons label labels ih =>
      refine ⟨start, fun next taken => ?_⟩
      rcases throughout next taken with ⟨isAllowed, later⟩
      exact ih (preserved state label next start isAllowed taken) later

/-- A machine whose allowed steps are matched by an abstract one reaches what that one
computes. -/
theorem simulated_of_throughout {Abstract : Type*} {matched : State → Abstract → Prop}
    {abstractStep : Abstract → Label → Abstract}
    (preserved : ∀ state abstract label next, matched state abstract → allowed state label →
      step state label = some next → matched next (abstractStep abstract label))
    {state final : State} {abstract : Abstract} (start : matched state abstract)
    {labels : List Label} (throughout : Throughout step allowed state labels)
    (runs : run step state labels = some final) :
    matched final (labels.foldl abstractStep abstract) := by
  induction labels generalizing state abstract with
  | nil =>
      cases runs
      exact start
  | cons label labels ih =>
      rcases Option.bind_eq_some_iff.mp runs with ⟨next, taken, later⟩
      rcases throughout next taken with ⟨isAllowed, throughout⟩
      exact ih (preserved state abstract label next start isAllowed taken) throughout later

/-- If the allowed steps keep an invariant that implies `P`, and every other step ends
outside `P`, then `P` holds along exactly the runs whose steps are all allowed. -/
theorem always_iff_throughout
    (implies : ∀ state, inv state → P state)
    (preserved : ∀ state label next, inv state → allowed state label →
      step state label = some next → inv next)
    (breaks : ∀ state label next, inv state → ¬allowed state label →
      step state label = some next → ¬P next)
    {state : State} (start : inv state) (labels : List Label) :
    Always step P state labels ↔ Throughout step allowed state labels := by
  constructor
  · intro always
    induction labels generalizing state with
    | nil => trivial
    | cons label labels ih =>
        intro next taken
        have later := always.2 next taken
        have isAllowed : allowed state label := by
          by_contra refused
          exact breaks state label next start refused taken later.head
        exact ⟨isAllowed,
          ih (preserved state label next start isAllowed taken) later⟩
  · intro throughout
    exact (always_of_throughout preserved start throughout).mono implies

end Rules

section Total

variable (next : State → Label → State) (allowed : State → Label → Prop)

/-- `Throughout` for a machine whose labels are all enabled. -/
def Accepts (state : State) : List Label → Prop
  | [] => True
  | label :: labels => allowed state label ∧ Accepts (next state label) labels

variable {next allowed}

@[simp] theorem accepts_nil (state : State) : Accepts next allowed state [] :=
  trivial

@[simp] theorem accepts_cons (state : State) (label : Label) (labels : List Label) :
    Accepts next allowed state (label :: labels) ↔
      allowed state label ∧ Accepts next allowed (next state label) labels :=
  Iff.rfl

theorem accepts_append (state : State) (front back : List Label) :
    Accepts next allowed state (front ++ back) ↔
      Accepts next allowed state front ∧
        Accepts next allowed (front.foldl next state) back := by
  induction front generalizing state with
  | nil => simp
  | cons label front ih => simp [ih, and_assoc]

theorem accepts_congr {other : State → Label → Prop}
    (same : ∀ state label, allowed state label ↔ other state label)
    (state : State) (labels : List Label) :
    Accepts next allowed state labels ↔ Accepts next other state labels := by
  induction labels generalizing state with
  | nil => exact Iff.rfl
  | cons label labels ih => rw [accepts_cons, accepts_cons, same, ih]

/-- A property that survives exactly the allowed steps survives exactly the runs that take
no others. -/
theorem survives_iff_accepts {P inv : State → Prop} {labelled : Label → Prop}
    (survives : ∀ state label, inv state → labelled label →
      inv (next state label) ∧ (P (next state label) ↔ P state ∧ allowed state label))
    {state : State} (start : inv state) {labels : List Label}
    (each : ∀ label ∈ labels, labelled label) :
    P (labels.foldl next state) ↔ P state ∧ Accepts next allowed state labels := by
  induction labels generalizing state with
  | nil => simp
  | cons label labels ih =>
      rw [List.forall_mem_cons] at each
      rcases survives state label start each.1 with ⟨later, survivesOne⟩
      rw [List.foldl_cons, ih later each.2, survivesOne, accepts_cons, and_assoc]

/-- Acceptance says that every label is allowed by the labels before it. -/
theorem accepts_iff (state : State) (labels : List Label) :
    Accepts next allowed state labels ↔
      ∀ before label after, labels = before ++ label :: after →
        allowed (before.foldl next state) label := by
  induction labels generalizing state with
  | nil => simp
  | cons head labels ih =>
      rw [accepts_cons, ih]
      constructor
      · rintro ⟨first, later⟩ before label after isSplit
        cases before with
        | nil =>
            cases isSplit
            exact first
        | cons earlier before =>
            cases isSplit
            exact later before label after rfl
      · intro everywhere
        refine ⟨everywhere [] head labels rfl, ?_⟩
        intro before label after isSplit
        exact everywhere (head :: before) label after (by rw [isSplit, List.cons_append])

end Total

end SunWise.Library
