import Mathlib.Logic.Function.Iterate

/-!
# Loops with a test

A loop repeats its body while a test of the state holds.  It returns the state
after the first number of rounds whose state fails the test, if there is one.
-/

namespace Hamchat
namespace Foundation

section WhileLoop

variable {σ : Type} (test : σ → Bool) (body : σ → σ)

/-- `while (test) body`, for at most `fuel` tests. -/
def whileLoop : (fuel : Nat) → σ → Option σ
  | 0, _ => none
  | fuel + 1, state =>
      if test state then whileLoop fuel (body state) else some state

/-- `do body while (test)` -/
def doWhileLoop (fuel : Nat) (state : σ) : Option σ :=
  whileLoop test body fuel (body state)

variable {test body}

/-- What a round leaves alone, all rounds leave alone. -/
theorem apply_iterate_of_preserved {α : Type} {part : σ → α}
    (preserved : ∀ state, part (body state) = part state) (rounds : Nat)
    (state : σ) : part (body^[rounds] state) = part state := by
  induction rounds with
  | zero => rfl
  | succ rounds inductionHypothesis =>
      rw [Function.iterate_succ_apply', preserved, inductionHypothesis]

/-- A loop returns after some rounds exactly if the test fails then and not
before. -/
theorem whileLoop_eq_some_iff {fuel : Nat} {state final : σ} :
    whileLoop test body fuel state = some final ↔
      ∃ rounds < fuel, body^[rounds] state = final ∧ test final = false ∧
        ∀ earlier < rounds, test (body^[earlier] state) = true := by
  induction fuel generalizing state with
  | zero => simp [whileLoop]
  | succ fuel inductionHypothesis =>
      rw [whileLoop]
      cases here : test state with
      | true =>
          rw [if_pos rfl, inductionHypothesis]
          constructor
          · rintro ⟨rounds, enough, reached, stops, goesOn⟩
            refine ⟨rounds + 1, Nat.succ_lt_succ enough, reached, stops, ?_⟩
            intro earlier before
            cases earlier with
            | zero => exact here
            | succ earlier =>
                exact goesOn earlier (Nat.lt_of_succ_lt_succ before)
          · rintro ⟨rounds, enough, reached, stops, goesOn⟩
            cases rounds with
            | zero =>
                rw [← reached, Function.iterate_zero_apply, here] at stops
                cases stops
            | succ rounds =>
                refine ⟨rounds, Nat.lt_of_succ_lt_succ enough, reached, stops,
                  ?_⟩
                intro earlier before
                exact goesOn (earlier + 1) (Nat.succ_lt_succ before)
      | false =>
          rw [if_neg Bool.false_ne_true]
          constructor
          · intro returned
            obtain rfl := Option.some.inj returned
            exact ⟨0, Nat.succ_pos fuel, rfl, here, by simp⟩
          · rintro ⟨rounds, -, reached, -, goesOn⟩
            cases rounds with
            | zero => rw [← reached, Function.iterate_zero_apply]
            | succ rounds =>
                have first := goesOn 0 (Nat.succ_pos rounds)
                rw [Function.iterate_zero_apply, here] at first
                cases first

/-- The body of a `do` loop runs once more than its test succeeds. -/
theorem doWhileLoop_eq_some_iff {fuel : Nat} {state final : σ} :
    doWhileLoop test body fuel state = some final ↔
      ∃ rounds, 0 < rounds ∧ rounds ≤ fuel ∧ body^[rounds] state = final ∧
        test final = false ∧
        ∀ earlier, 0 < earlier → earlier < rounds →
          test (body^[earlier] state) = true := by
  rw [doWhileLoop, whileLoop_eq_some_iff]
  constructor
  · rintro ⟨rounds, enough, reached, stops, goesOn⟩
    refine ⟨rounds + 1, Nat.succ_pos rounds, enough, reached, stops, ?_⟩
    intro earlier positive before
    obtain ⟨earlier, rfl⟩ :=
      Nat.exists_eq_succ_of_ne_zero (Nat.ne_of_gt positive)
    exact goesOn earlier (Nat.lt_of_succ_lt_succ before)
  · rintro ⟨rounds, positive, enough, reached, stops, goesOn⟩
    obtain ⟨rounds, rfl⟩ :=
      Nat.exists_eq_succ_of_ne_zero (Nat.ne_of_gt positive)
    refine ⟨rounds, enough, reached, stops, fun earlier before => ?_⟩
    exact goesOn (earlier + 1) (Nat.succ_pos earlier) (Nat.succ_lt_succ before)

/-- A loop whose test first fails after `count` rounds returns then. -/
theorem whileLoop_eq_some_iff_of_count {fuel count : Nat} {state final : σ}
    (goesOn : ∀ earlier < count, test (body^[earlier] state) = true)
    (stops : test (body^[count] state) = false) :
    whileLoop test body fuel state = some final ↔
      count < fuel ∧ body^[count] state = final := by
  rw [whileLoop_eq_some_iff]
  constructor
  · rintro ⟨rounds, enough, rfl, fails, before⟩
    rcases Nat.lt_trichotomy rounds count with less | rfl | greater
    · rw [goesOn rounds less] at fails
      cases fails
    · exact ⟨enough, rfl⟩
    · rw [before count greater] at stops
      cases stops
  · rintro ⟨enough, rfl⟩
    exact ⟨count, enough, rfl, stops, goesOn⟩

end WhileLoop

end Foundation
end Hamchat
