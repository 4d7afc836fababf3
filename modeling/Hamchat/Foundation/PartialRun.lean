import Mathlib.Data.List.Induction
import Mathlib.Data.List.Infix
import Mathlib.Data.List.Range

/-!
# Runs of a partial step function

A step either produces a next state or does not complete.  The predicates of
this module speak about all states and all completed steps along one run; the
induction over runs is done here once.
-/

namespace Hamchat
namespace Foundation

section PartialRun

variable {σ ε : Type} (step : σ → ε → Option σ) (start : σ)

/-- The state after a list of events, if every event completes. -/
def runFrom (events : List ε) : Option σ :=
  events.foldlM step start

@[simp] theorem runFrom_nil : runFrom step start [] = some start := rfl

theorem runFrom_concat (past : List ε) (event : ε) :
    runFrom step start (past ++ [event]) =
      (runFrom step start past).bind fun state => step state event := by
  simp [runFrom, List.foldlM_append]

/-- A run over one more event reaches a state through a state before it. -/
theorem runFrom_concat_eq_some {past : List ε} {event : ε} {next : σ} :
    runFrom step start (past ++ [event]) = some next ↔
      ∃ state, runFrom step start past = some state ∧
        step state event = some next := by
  rw [runFrom_concat, Option.bind_eq_some_iff]

theorem runFrom_append (past rest : List ε) :
    runFrom step start (past ++ rest) =
      (runFrom step start past).bind fun state => runFrom step state rest :=
  List.foldlM_append

/-- A run over an earlier event starts with its step. -/
theorem runFrom_cons_eq_some {first : ε} {rest : List ε} {final : σ} :
    runFrom step start (first :: rest) = some final ↔
      ∃ next, step start first = some next ∧
        runFrom step next rest = some final := by
  rw [runFrom, List.foldlM_cons, Option.bind_eq_bind, Option.bind_eq_some_iff]
  rfl

/-- A property of a past and a state holds in every state of a run. -/
def Always (holds : List ε → σ → Prop) (events : List ε) : Prop :=
  ∀ past, past <+: events → ∀ state,
    runFrom step start past = some state → holds past state

/-- A condition on the state before a step and its event holds at every step
of a run that completes. -/
def EachStep (admits : σ → ε → Prop) (events : List ε) : Prop :=
  ∀ past event, past ++ [event] <+: events → ∀ state next,
    runFrom step start past = some state → step state event = some next →
      admits state event

/-- A condition on a state and the next event holds at every call of a run,
whether it completes or not. -/
def EachCall (admits : σ → ε → Prop) (events : List ε) : Prop :=
  ∀ past event, past ++ [event] <+: events → ∀ state,
    runFrom step start past = some state → admits state event

variable {step start}
variable {holds : List ε → σ → Prop} {admits : σ → ε → Prop}
variable {events : List ε}

/-- A run that completes is unchanged by a step function that completes more
often. -/
theorem runFrom_mono {larger : σ → ε → Option σ}
    (extension : ∀ state event next, step state event = some next →
      larger state event = some next)
    {final : σ} (completed : runFrom step start events = some final) :
    runFrom larger start events = some final := by
  induction events using List.reverseRecOn generalizing final with
  | nil => exact completed
  | append_singleton past event inductionHypothesis =>
      obtain ⟨state, before, stepped⟩ :=
        (runFrom_concat_eq_some step start).mp completed
      exact (runFrom_concat_eq_some larger start).mpr
        ⟨state, inductionHypothesis before, extension _ _ _ stepped⟩

/-- Induction over a counting loop whose body may fail to complete. -/
theorem runFrom_range_induction (invariant : Nat → σ → Prop)
    {body : σ → Nat → Option σ} {count : Nat}
    (initial : invariant 0 start)
    (preserved : ∀ i < count, ∀ state next, invariant i state →
      body state i = some next → invariant (i + 1) next)
    {final : σ}
    (completed : runFrom body start (List.range count) = some final) :
    invariant count final := by
  induction count generalizing final with
  | zero =>
      obtain rfl : start = final := by simpa using completed
      exact initial
  | succ count inductionHypothesis =>
      rw [List.range_succ, runFrom_concat_eq_some] at completed
      obtain ⟨state, before, stepped⟩ := completed
      exact preserved count (Nat.lt_succ_self count) state final
        (inductionHypothesis
          (fun i less => preserved i (Nat.lt_succ_of_lt less)) before)
        stepped

/-- A counting loop over embedded states does what the loop over the states
themselves does, if its body does so in the states that are reached. -/
theorem runFrom_range_map {τ : Type} (embed : σ → τ)
    (invariant : Nat → σ → Prop) {body : σ → Nat → Option σ}
    {embeddedBody : τ → Nat → Option τ} {count : Nat}
    (initial : invariant 0 start)
    (preserved : ∀ i < count, ∀ state next, invariant i state →
      body state i = some next → invariant (i + 1) next)
    (commutes : ∀ i < count, ∀ state, invariant i state →
      embeddedBody (embed state) i = (body state i).map embed) :
    runFrom embeddedBody (embed start) (List.range count) =
      (runFrom body start (List.range count)).map embed := by
  induction count with
  | zero => rfl
  | succ count inductionHypothesis =>
      have before := inductionHypothesis
        (fun i less => preserved i (Nat.lt_succ_of_lt less))
        (fun i less => commutes i (Nat.lt_succ_of_lt less))
      rw [List.range_succ, runFrom_concat, runFrom_concat, before]
      cases reached : runFrom body start (List.range count) with
      | none => rfl
      | some state =>
          exact commutes count (Nat.lt_succ_self count) state
            (runFrom_range_induction invariant initial
              (fun i less => preserved i (Nat.lt_succ_of_lt less)) reached)

/-- A counting loop completes when its body does. -/
theorem runFrom_range_completes (invariant : Nat → σ → Prop)
    {body : σ → Nat → Option σ} {count : Nat}
    (initial : invariant 0 start)
    (completes : ∀ i < count, ∀ state, invariant i state →
      ∃ next, body state i = some next ∧ invariant (i + 1) next) :
    ∃ final, runFrom body start (List.range count) = some final ∧
      invariant count final := by
  induction count with
  | zero => exact ⟨start, rfl, initial⟩
  | succ count inductionHypothesis =>
      obtain ⟨state, before, held⟩ := inductionHypothesis
        fun i less => completes i (Nat.lt_succ_of_lt less)
      obtain ⟨next, stepped, holds⟩ :=
        completes count (Nat.lt_succ_self count) state held
      refine ⟨next, ?_, holds⟩
      rw [List.range_succ, runFrom_concat_eq_some]
      exact ⟨state, before, stepped⟩

/-- An initial property that is preserved by every step that is reached holds
throughout a run. -/
theorem Always.of_reached (holds : List ε → σ → Prop)
    (initial : holds [] start)
    (preserved : ∀ past state event next, past ++ [event] <+: events →
      runFrom step start past = some state → holds past state →
      step state event = some next → holds (past ++ [event]) next) :
    Always step start holds events := by
  intro past
  induction past using List.reverseRecOn with
  | nil =>
      intro _ state reached
      obtain rfl : start = state := by simpa using reached
      exact initial
  | append_singleton past event inductionHypothesis =>
      intro within next reached
      obtain ⟨state, before, stepped⟩ :=
        (runFrom_concat_eq_some step start).mp reached
      exact preserved past state event next within before
        (inductionHypothesis ((List.prefix_append _ _).trans within) state
          before)
        stepped

/-- An initial property that every admitted step preserves holds throughout a
run whose steps are all admitted. -/
theorem Always.of_eachStep (holds : List ε → σ → Prop)
    (initial : holds [] start)
    (preserved : ∀ past state event next, past ++ [event] <+: events →
      holds past state → step state event = some next → admits state event →
      holds (past ++ [event]) next)
    (admitted : EachStep step start admits events) :
    Always step start holds events :=
  Always.of_reached holds initial
    fun past state event next within reached held stepped =>
      preserved past state event next within held stepped
        (admitted past event within state next reached stepped)

/-- An initial property that every step preserves holds throughout any run. -/
theorem Always.of_step (holds : List ε → σ → Prop)
    (initial : holds [] start)
    (preserved : ∀ past state event next, holds past state →
      step state event = some next → holds (past ++ [event]) next) :
    Always step start holds events :=
  Always.of_eachStep holds initial
    (fun past state event next _ before stepped _ =>
      preserved past state event next before stepped)
    (show EachStep step start (fun _ _ => True) events from
      fun _ _ _ _ _ _ _ => trivial)

/-- What holds throughout a run holds at its end. -/
theorem Always.final {state : σ}
    (always : Always step start holds events)
    (reached : runFrom step start events = some state) :
    holds events state :=
  always events (List.prefix_refl events) state reached

/-- When the failure of a step condition shows in the very next state, a
property holds throughout a run exactly if every completed step of the run
meets the condition. -/
theorem Always.iff_eachStep (invariant : List ε → σ → Prop)
    (initial : invariant [] start)
    (sound : ∀ past state, invariant past state → holds past state)
    (preserved : ∀ past state event next, past ++ [event] <+: events →
      invariant past state → step state event = some next →
      admits state event → invariant (past ++ [event]) next)
    (necessary : ∀ past state event next, past ++ [event] <+: events →
      invariant past state → step state event = some next →
      holds (past ++ [event]) next → admits state event) :
    Always step start holds events ↔ EachStep step start admits events := by
  constructor
  · intro always
    have invariantAt : Always step start invariant events :=
      Always.of_reached invariant initial
        fun past state event next within reached held stepped =>
          preserved past state event next within held stepped
            (necessary past state event next within held stepped
              (always _ within next
                ((runFrom_concat_eq_some step start).mpr
                  ⟨state, reached, stepped⟩)))
    intro past event within state next before stepped
    exact necessary past state event next within
      (invariantAt past ((List.prefix_append _ _).trans within) state before)
      stepped
      (always _ within next
        ((runFrom_concat_eq_some step start).mpr ⟨state, before, stepped⟩))
  · intro admitted past within state reached
    exact sound past state
      (Always.of_eachStep invariant initial preserved admitted past within
        state reached)

/-- Beside an invariant of every step, a property of single states holds
throughout a run exactly if it holds at the start and every step meets the
condition that decides whether the property survives it. -/
theorem Always.iff_of_step_iff (invariant property : σ → Prop)
    (initial : invariant start)
    (preserved : ∀ state event next, invariant state →
      step state event = some next → invariant next)
    (survives : ∀ state event next, invariant state → property state →
      step state event = some next → (property next ↔ admits state event)) :
    Always step start (fun _ state => property state) events ↔
      property start ∧ EachStep step start admits events := by
  have steps (begins : property start) :
      Always step start (fun _ state => property state) events ↔
        EachStep step start admits events := by
    refine Always.iff_eachStep
      (fun _ state => invariant state ∧ property state) ⟨initial, begins⟩
      (fun _ _ both => both.2) ?_ ?_
    · intro past state event next _ both stepped admitted
      exact ⟨preserved state event next both.1 stepped,
        (survives state event next both.1 both.2 stepped).mpr admitted⟩
    · intro past state event next _ both stepped after
      exact (survives state event next both.1 both.2 stepped).mp after
  constructor
  · intro always
    have begins : property start := always [] List.nil_prefix start rfl
    exact ⟨begins, (steps begins).mp always⟩
  · rintro ⟨begins, admitted⟩
    exact (steps begins).mpr admitted

/-- A condition that every call meets is met by every completed step. -/
theorem EachCall.eachStep (admitted : EachCall step start admits events) :
    EachStep step start admits events :=
  fun past event within state _ reached _ =>
    admitted past event within state reached

/-- A condition that holds wherever an invariant and another condition hold. -/
theorem EachCall.of_always {condition : σ → ε → Prop}
    (always : Always step start holds events)
    (admitted : EachCall step start admits events)
    (implies : ∀ past state event, holds past state → admits state event →
      condition state event) : EachCall step start condition events :=
  fun past event within state reached =>
    implies past state event
      (always past ((List.prefix_append _ _).trans within) state reached)
      (admitted past event within state reached)

/-- Two conditions on a state and the call that finds it agree along a run if
they agree wherever a property that holds throughout the run holds. -/
theorem EachCall.congr {first second : σ → ε → Prop}
    (always : Always step start holds events)
    (agree : ∀ past state event, holds past state →
      (first state event ↔ second state event)) :
    EachCall step start first events ↔ EachCall step start second events := by
  refine forall_congr' fun past => forall_congr' fun event =>
    forall_congr' fun within => forall_congr' fun state =>
    forall_congr' fun reached => ?_
  exact agree past state event
    (always past ((List.prefix_append _ _).trans within) state reached)

theorem EachCall.nil : EachCall step start admits [] :=
  fun _ _ within => absurd (List.prefix_nil.mp within) (by simp)

/-- The calls of a run are its first call and those of the run behind it. -/
theorem EachCall.cons {first : ε} {rest : List ε} (head : admits start first)
    (tail : ∀ next, step start first = some next →
      EachCall step next admits rest) :
    EachCall step start admits (first :: rest) := by
  intro past event within state reached
  cases past with
  | nil =>
      obtain rfl : start = state := by simpa using reached
      obtain ⟨rfl, -⟩ := List.cons_prefix_cons.mp within
      exact head
  | cons head past =>
      obtain ⟨rfl, later⟩ := List.cons_prefix_cons.mp within
      obtain ⟨second, stepped, reached⟩ :=
        (runFrom_cons_eq_some step start).mp reached
      exact tail second stepped past event later state reached

/-- A completed step is a call that completes. -/
theorem eachStep_iff_eachCall :
    EachStep step start admits events ↔
      EachCall step start (fun state event =>
        ∀ next, step state event = some next → admits state event) events := by
  refine forall_congr' fun past => forall_congr' fun event =>
    forall_congr' fun within => forall_congr' fun state => ?_
  exact forall_comm

/-- Decides whether every completed step of a run meets a condition. -/
def eachStepCheck (step : σ → ε → Option σ) (admits : σ → ε → Prop)
    [∀ state event, Decidable (admits state event)] : σ → List ε → Bool
  | _, [] => true
  | state, event :: rest =>
      match step state event with
      | none => true
      | some next =>
          decide (admits state event) && eachStepCheck step admits next rest

theorem EachStep.of_check [∀ state event, Decidable (admits state event)]
    (checked : eachStepCheck step admits start events = true) :
    EachStep step start admits events := by
  rw [eachStep_iff_eachCall]
  induction events generalizing start with
  | nil => exact .nil
  | cons first rest inductionHypothesis =>
      have completed : ∀ next, step start first = some next →
          admits start first ∧
            eachStepCheck step admits next rest = true := by
        intro next stepped
        rw [eachStepCheck, stepped, Bool.and_eq_true, decide_eq_true_iff]
          at checked
        exact checked
      exact .cons (fun next stepped => (completed next stepped).1)
        fun next stepped => inductionHypothesis (completed next stepped).2

/-- Decides whether every call of a run meets a condition. -/
def eachCallCheck (step : σ → ε → Option σ) (admits : σ → ε → Prop)
    [∀ state event, Decidable (admits state event)] : σ → List ε → Bool
  | _, [] => true
  | state, event :: rest =>
      decide (admits state event) &&
        match step state event with
        | none => true
        | some next => eachCallCheck step admits next rest

theorem EachCall.of_check [∀ state event, Decidable (admits state event)]
    (checked : eachCallCheck step admits start events = true) :
    EachCall step start admits events := by
  induction events generalizing start with
  | nil => exact .nil
  | cons first rest inductionHypothesis =>
      rw [eachCallCheck, Bool.and_eq_true, decide_eq_true_iff] at checked
      refine .cons checked.1 fun next stepped => inductionHypothesis ?_
      rw [stepped] at checked
      exact checked.2

end PartialRun

end Foundation
end Hamchat
