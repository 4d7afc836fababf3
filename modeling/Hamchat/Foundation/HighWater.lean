import Hamchat.Foundation.PartialRun
import Mathlib.Order.Bounds.Basic

/-!
# High-water marks

A mark follows a value that changes from step to step, and is raised whenever
the value passes it.  Then it is the greatest value of the run so far.
-/

namespace Hamchat
namespace Foundation

section HighWater

variable {σ ε β : Type}
variable (step : σ → ε → Option σ) (start : σ) (value : σ → β)

/-- The values in the states that a run has gone through. -/
def reachedValues (events : List ε) : Set β :=
  {reached | ∃ past state, past <+: events ∧
    runFrom step start past = some state ∧ value state = reached}

variable {step start value} {mark : σ → β}

theorem reachedValues_nil :
    reachedValues step start value [] = {value start} := by
  ext reached
  constructor
  · rintro ⟨past, state, within, run, rfl⟩
    obtain rfl := List.prefix_nil.mp within
    obtain rfl := Option.some.inj run
    rfl
  · rintro rfl
    exact ⟨[], start, List.nil_prefix, rfl, rfl⟩

theorem reachedValues_concat {past : List ε} {event : ε} {next : σ}
    (reached : runFrom step start (past ++ [event]) = some next) :
    reachedValues step start value (past ++ [event]) =
      insert (value next) (reachedValues step start value past) := by
  ext bound
  constructor
  · rintro ⟨before, state, within, run, rfl⟩
    rcases List.prefix_concat_iff.mp within with rfl | earlier
    · obtain rfl := Option.some.inj (reached.symm.trans run)
      exact Set.mem_insert _ _
    · exact Set.mem_insert_of_mem _ ⟨before, state, earlier, run, rfl⟩
  · rintro (rfl | ⟨before, state, within, run, rfl⟩)
    · exact ⟨_, next, List.prefix_rfl, reached, rfl⟩
    · exact ⟨before, state, within.trans (List.prefix_append _ _), run, rfl⟩

/-- A mark that every step raises to the value, if it has to, is the greatest
value of the run. -/
theorem Always.isGreatest_mark [LinearOrder β]
    {holds : List ε → σ → Prop} {events : List ε}
    (always : Always step start holds events)
    (initial : mark start = value start)
    (raised : ∀ past state event next, holds past state →
      step state event = some next →
      mark next = max (value next) (mark state)) :
    Always step start (fun past state =>
      IsGreatest (reachedValues step start value past) (mark state))
      events := by
  refine Always.of_reached _ ?_ ?_
  · rw [reachedValues_nil, initial]
    exact isGreatest_singleton
  · intro past state event next within reached greatest stepped
    have held := always past ((List.prefix_append _ _).trans within) state
      reached
    rw [reachedValues_concat
        ((runFrom_concat_eq_some step start).mpr ⟨state, reached, stepped⟩),
      raised past state event next held stepped]
    exact greatest.insert (value next)

end HighWater

end Foundation
end Hamchat
