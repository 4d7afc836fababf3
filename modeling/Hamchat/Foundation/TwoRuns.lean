import Mathlib.Data.List.Forall2
import Mathlib.Data.Option.Basic

/-!
# Two runs with the same output

A step puts something out, and it may produce a next state.  If related states
and alike events put out the same and lead to related states again, then two runs
over alike events cannot be told apart by what they put out.
-/

namespace Hamchat
namespace Foundation

section TwoRuns

variable {σ ε ο : Type} (step : σ → ε → Option σ) (output : σ → ε → ο)

/-- What the steps of a run put out, up to the first one without a next state. -/
def outputs : σ → List ε → List ο
  | _, [] => []
  | state, event :: rest =>
      output state event ::
        match step state event with
        | none => []
        | some next => outputs next rest

variable {step output}

/-- Two options are both empty, or both are not and hold related values. -/
theorem rel_of_map_eq {τ : Type} {project : σ → τ} {first second : Option σ}
    (same : first.map project = second.map project) :
    Option.Rel (fun left right => project left = project right) first
      second := by
  cases first with
  | none =>
      cases second with
      | none => exact .none
      | some right => cases same
  | some left =>
      cases second with
      | none => cases same
      | some right => exact .some (Option.some.inj same)

/-- Unwinding: what one pair of steps keeps, two runs keep. -/
theorem outputs_eq_of_alike (related : σ → σ → Prop) (alike : ε → ε → Prop)
    (sameOutput : ∀ left right first second, related left right →
      alike first second → output left first = output right second)
    (sameStep : ∀ left right first second, related left right →
      alike first second →
        Option.Rel related (step left first) (step right second))
    {left right : σ} (start : related left right) {first second : List ε}
    (events : List.Forall₂ alike first second) :
    outputs step output left first = outputs step output right second := by
  induction events generalizing left right with
  | nil => rfl
  | @cons head head' tail tail' heads _ inductionHypothesis =>
      rw [outputs, outputs, sameOutput left right head head' start heads]
      have stepped := sameStep left right head head' start heads
      congr 1
      generalize step left head = leftNext, step right head' = rightNext
        at stepped
      cases stepped with
      | none => rfl
      | some nexts => exact inductionHypothesis nexts

end TwoRuns

end Foundation
end Hamchat
