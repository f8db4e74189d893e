import SunWise.Library.Runs

/-!
# Asking and answering

A party that waits for an answer, has effects when it comes, and waits for the next one.  A
monitor keeps a ledger of the effects; it permits some of them, and demands that the ledger
is settled where the party has returned.
-/

namespace SunWise.Library

variable {Point Reply Effect Ledger : Type*}

/-- The run on a list of answers: where it ends, and all effects. There is no run when an
answer is not one that was waited for. -/
def interact (step : Point → Reply → Option (Point × List Effect)) :
    Point → List Reply → Option (Point × List Effect)
  | point, [] => some (point, [])
  | point, reply :: replies =>
      (step point reply).bind fun turn =>
        (interact step turn.1 replies).map fun rest => (rest.1, turn.2 ++ rest.2)

/-- Every effect is permitted by the ledger before it, and a party that has returned leaves a
settled ledger. -/
structure Disciplined (next : Ledger → Effect → Ledger) (Permits : Ledger → Effect → Prop)
    (Settled : Ledger → Prop) (Returned : Point → Prop) (ledger : Ledger) (final : Point)
    (effects : List Effect) : Prop where
  permitted : Accepts next Permits ledger effects
  settled : Returned final → Settled (effects.foldl next ledger)

/-- A turn keeps what holds of point and ledger. The answers are clear exactly when the
effects of the first one are permitted and the others are clear behind it. -/
structure Judged (step : Point → Reply → Option (Point × List Effect))
    (next : Ledger → Effect → Ledger) (Permits : Ledger → Effect → Prop)
    (Holds : Point → Ledger → Prop) (Clear : Point → Ledger → List Reply → Prop)
    (point : Point) (ledger : Ledger) (reply : Reply) (middle : Point)
    (effects : List Effect) : Prop where
  keeps : Accepts next Permits ledger effects → Holds middle (effects.foldl next ledger)
  clear : ∀ replies, (interact step middle replies).isSome →
    (Clear point ledger (reply :: replies) ↔
      Accepts next Permits ledger effects ∧
        Clear middle (effects.foldl next ledger) replies)

section Rules

variable {step : Point → Reply → Option (Point × List Effect)}
variable {next : Ledger → Effect → Ledger} {Permits : Ledger → Effect → Prop}
variable {Settled : Ledger → Prop} {Returned : Point → Prop}

theorem interact_cons {point final : Point} {reply : Reply} {replies : List Reply}
    {effects : List Effect} :
    interact step point (reply :: replies) = some (final, effects) ↔
      ∃ middle front back, step point reply = some (middle, front) ∧
        interact step middle replies = some (final, back) ∧ effects = front ++ back := by
  simp only [interact, Option.bind_eq_some_iff, Option.map_eq_some_iff, Prod.exists,
    Prod.mk.injEq]
  constructor
  · rintro ⟨middle, front, turn, last, back, rest, rfl, rfl⟩
    exact ⟨middle, front, back, turn, rest, rfl⟩
  · rintro ⟨middle, front, back, turn, rest, rfl⟩
    exact ⟨middle, front, turn, final, back, rest, rfl, rfl⟩

/-- The effects of one turn are judged before the rest of the run. -/
theorem disciplined_append {ledger : Ledger} {final : Point} {front back : List Effect} :
    Disciplined next Permits Settled Returned ledger final (front ++ back) ↔
      Accepts next Permits ledger front ∧
        Disciplined next Permits Settled Returned (front.foldl next ledger) final back := by
  constructor
  · rintro ⟨permitted, settled⟩
    rw [accepts_append] at permitted
    rw [List.foldl_append] at settled
    exact ⟨permitted.1, permitted.2, settled⟩
  · rintro ⟨first, permitted, settled⟩
    exact ⟨(accepts_append _ _ _).mpr ⟨first, permitted⟩, List.foldl_append ▸ settled⟩

theorem replies_eq_nil {point : Point} (waits : ∀ reply, step point reply = none)
    {replies : List Reply} (runs : (interact step point replies).isSome) : replies = [] := by
  cases replies with
  | nil => rfl
  | cons reply replies => simp [interact, waits] at runs

/-- Effects that the ledger permits and ignores. -/
theorem accepts_of_ignored {ledger : Ledger} {effects : List Effect}
    (ignored : ∀ effect ∈ effects, Permits ledger effect ∧ next ledger effect = ledger) :
    Accepts next Permits ledger effects ∧ effects.foldl next ledger = ledger := by
  induction effects with
  | nil => exact ⟨trivial, rfl⟩
  | cons effect effects ih =>
      rw [List.forall_mem_cons] at ignored
      rcases ignored with ⟨⟨permitted, same⟩, others⟩
      rw [accepts_cons, List.foldl_cons, same]
      exact ⟨⟨permitted, (ih others).1⟩, (ih others).2⟩

/-- A turn between two points where all answers are clear. -/
theorem judged_of_permitted {Holds : Point → Ledger → Prop}
    {Clear : Point → Ledger → List Reply → Prop} {point middle : Point} {ledger : Ledger}
    {reply : Reply} {effects : List Effect} (before : ∀ replies, Clear point ledger replies)
    (permitted : Accepts next Permits ledger effects)
    (holds : Holds middle (effects.foldl next ledger))
    (after : ∀ replies, Clear middle (effects.foldl next ledger) replies) :
    Judged step next Permits Holds Clear point ledger reply middle effects where
  keeps _ := holds
  clear replies _ := iff_of_true (before (reply :: replies)) ⟨permitted, after replies⟩

/-- Runs are disciplined exactly when the answers are clear, if that is so where a run stops
and every turn is judged so. -/
theorem disciplined_iff_clear (Holds : Point → Ledger → Prop)
    (Clear : Point → Ledger → List Reply → Prop)
    (stop : ∀ point ledger, Holds point ledger →
      ((Returned point → Settled ledger) ↔ Clear point ledger []))
    (turn : ∀ point ledger reply middle effects, Holds point ledger →
      step point reply = some (middle, effects) →
        Judged step next Permits Holds Clear point ledger reply middle effects)
    {point final : Point} {ledger : Ledger} {replies : List Reply} {effects : List Effect}
    (holds : Holds point ledger)
    (run : interact step point replies = some (final, effects)) :
    Disciplined next Permits Settled Returned ledger final effects ↔
      Clear point ledger replies := by
  induction replies generalizing point ledger effects with
  | nil =>
      cases run
      rw [← stop _ ledger holds]
      exact ⟨Disciplined.settled, fun settled => ⟨trivial, settled⟩⟩
  | cons reply replies ih =>
      rcases interact_cons.mp run with ⟨middle, front, back, first, rest, rfl⟩
      rcases turn point ledger reply middle front holds first with ⟨keeps, clear⟩
      rw [disciplined_append, clear replies (rest ▸ rfl)]
      exact and_congr_right fun permitted => ih (keeps permitted) rest

end Rules

end SunWise.Library
