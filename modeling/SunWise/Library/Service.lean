import Mathlib.Tactic.TypeStar

/-!
# Services

A service gets one call after another and answers each of them, unless a call never returns.
-/

namespace SunWise.Library

variable {State Abstract Call Reply : Type*}

/-- The state after some calls, and the replies to them. There is none where a call does not
return. -/
def serve (step : State → Call → Option (State × Reply)) :
    State → List Call → Option (State × List Reply)
  | state, [] => some (state, [])
  | state, call :: calls =>
      (step state call).bind fun turn =>
        (serve step turn.1 calls).map fun rest => (rest.1, turn.2 :: rest.2)

/-- The same for a service whose calls all return. -/
def serveAll (step : State → Call → State × Reply) : State → List Call → State × List Reply
  | state, [] => (state, [])
  | state, call :: calls =>
      let turn := step state call
      let rest := serveAll step turn.1 calls
      (rest.1, turn.2 :: rest.2)

/-- A call returns with the reply that is expected. -/
def Answers (matched : State → Abstract → Prop) (turn : Option (State × Reply))
    (expected : Abstract × Reply) : Prop :=
  ∃ state, turn = some (state, expected.2) ∧ matched state expected.1

theorem serve_simulated {step : State → Call → Option (State × Reply)}
    {expected : Abstract → Call → Abstract × Reply} {matched : State → Abstract → Prop}
    {Allowed : Call → Prop}
    (answers : ∀ state abstract call, matched state abstract → Allowed call →
      Answers matched (step state call) (expected abstract call))
    {state : State} {abstract : Abstract} {calls : List Call} (start : matched state abstract)
    (allowed : ∀ call ∈ calls, Allowed call) :
    ∃ final, serve step state calls = some (final, (serveAll expected abstract calls).2) ∧
      matched final (serveAll expected abstract calls).1 := by
  induction calls generalizing state abstract with
  | nil => exact ⟨state, rfl, start⟩
  | cons call calls ih =>
      rcases answers state abstract call start (allowed call List.mem_cons_self) with
        ⟨next, returns, keeps⟩
      rcases ih keeps fun other isCall => allowed other (List.mem_cons_of_mem call isCall) with
        ⟨final, served, kept⟩
      refine ⟨final, ?_, kept⟩
      rw [serve, returns, Option.bind_some, served]
      rfl

end SunWise.Library
