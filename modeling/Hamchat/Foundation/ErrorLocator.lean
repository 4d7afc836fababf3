import Hamchat.Foundation.RegisterSynthesis
import Mathlib.Algebra.Polynomial.Derivative
import Mathlib.LinearAlgebra.Lagrange
import Mathlib.RingTheory.PowerSeries.Trunc

/-!
# Errors and their syndromes

Errors with values at locations of a field have power sums for syndromes.  A
register that continues the syndromes has the inverse locations for the roots
of its connection polynomial, and a second polynomial evaluates to the values
there.  A shortest register for twice as many syndromes as there are errors is
the one with exactly these roots.
-/

namespace Hamchat
namespace Foundation

open Polynomial
open scoped PowerSeries

variable {F : Type*} [Field F] {ι : Type*} (errors : Finset ι)
  (location value : ι → F)

/-- The power sums of the locations, from the first power on. -/
noncomputable def syndromes : F⟦X⟧ :=
  PowerSeries.mk fun index =>
    ∑ error ∈ errors, value error * location error ^ (index + 1)

/-- The polynomial with the inverse locations for its roots. -/
noncomputable def errorLocator : F[X] :=
  ∏ error ∈ errors, (1 - C (location error) * X)

/-- The polynomial from which the values of the errors are read. -/
noncomputable def errorEvaluator [DecidableEq ι] : F[X] :=
  ∑ error ∈ errors, C (value error * location error) *
    errorLocator (errors.erase error) location

/-- What the other errors contribute at the root of an error. -/
noncomputable def others [DecidableEq ι] (error : ι) : F :=
  (errorLocator (errors.erase error) location).eval (location error)⁻¹

variable {errors location value}

/-! ## The locator -/

theorem coeff_zero_errorLocator :
    (errorLocator errors location).coeff 0 = 1 := by
  unfold errorLocator
  rw [Polynomial.coeff_zero_prod]
  apply Finset.prod_eq_one
  intro error _
  simp

theorem natDegree_errorLocator_le :
    (errorLocator errors location).natDegree ≤ errors.card := by
  unfold errorLocator
  refine (natDegree_prod_le _ _).trans ?_
  rw [Finset.card_eq_sum_ones]
  apply Finset.sum_le_sum
  intro error _
  refine (natDegree_sub_le _ _).trans ?_
  rw [natDegree_one, Nat.zero_max]
  exact (natDegree_C_mul_le _ _).trans natDegree_X_le

theorem eval_errorLocator (point : F) :
    (errorLocator errors location).eval point =
      ∏ error ∈ errors, (1 - location error * point) := by
  unfold errorLocator
  rw [eval_prod]
  simp

theorem eval_errorLocator_eq_zero_iff
    (nonzero : ∀ error ∈ errors, location error ≠ 0) (point : F) :
    (errorLocator errors location).eval point = 0 ↔
      ∃ error ∈ errors, point = (location error)⁻¹ := by
  rw [eval_errorLocator, Finset.prod_eq_zero_iff]
  apply exists_congr
  intro error
  apply and_congr_right
  intro inside
  rw [sub_eq_zero, eq_comm, mul_comm, mul_eq_one_iff_eq_inv₀ (nonzero error inside)]

section Roots

variable [DecidableEq ι]

theorem others_ne_zero
    (nonzero : ∀ error ∈ errors, location error ≠ 0)
    (distinct : Set.InjOn location errors) {error : ι} (inside : error ∈ errors) :
    others errors location error ≠ 0 := by
  unfold others
  rw [Ne, eval_errorLocator_eq_zero_iff
    fun other among => nonzero other (Finset.mem_of_mem_erase among)]
  rintro ⟨other, among, same⟩
  apply Finset.ne_of_mem_erase among
  exact distinct (Finset.mem_of_mem_erase among) inside (inv_injective same).symm

/-- The derivative of the locator at the root of an error. -/
theorem eval_derivative_errorLocator
    (nonzero : ∀ error ∈ errors, location error ≠ 0) {error : ι}
    (inside : error ∈ errors) :
    (derivative (errorLocator errors location)).eval (location error)⁻¹ =
      -(location error * others errors location error) := by
  have factored : errorLocator errors location =
      (1 - C (location error) * X) *
        errorLocator (errors.erase error) location :=
    (Finset.mul_prod_erase errors _ inside).symm
  rw [factored, derivative_mul, eval_add, eval_mul, eval_mul]
  simp [others, mul_inv_cancel₀ (nonzero error inside)]

/-! ## The evaluator -/

theorem natDegree_errorEvaluator_lt (some : errors.Nonempty) :
    (errorEvaluator errors location value).natDegree < errors.card := by
  rw [errorEvaluator, Nat.lt_iff_le_pred (Finset.card_pos.mpr some)]
  refine natDegree_sum_le_of_forall_le errors _ ?_
  intro error inside
  refine (natDegree_C_mul_le _ _).trans (natDegree_errorLocator_le.trans ?_)
  rw [Finset.card_erase_of_mem inside]

/-- The evaluator at the root of an error. -/
theorem eval_errorEvaluator
    (nonzero : ∀ error ∈ errors, location error ≠ 0) {error : ι}
    (inside : error ∈ errors) :
    (errorEvaluator errors location value).eval (location error)⁻¹ =
      value error * location error * others errors location error := by
  rw [errorEvaluator, eval_finsetSum, Finset.sum_eq_single_of_mem error inside]
  · simp [others]
  · intro other among different
    have root : (errorLocator (errors.erase other) location).eval
        (location error)⁻¹ = 0 := by
      rw [eval_errorLocator_eq_zero_iff
        fun third within => nonzero third (Finset.mem_of_mem_erase within)]
      exact ⟨error, Finset.mem_erase.mpr ⟨different.symm, inside⟩, rfl⟩
    rw [eval_mul, root, mul_zero]

/-- The value of an error is the quotient of the evaluator by the derivative of
the locator at its root. -/
theorem value_eq_neg_div
    (nonzero : ∀ error ∈ errors, location error ≠ 0)
    (distinct : Set.InjOn location errors) {error : ι} (inside : error ∈ errors) :
    -((errorEvaluator errors location value).eval (location error)⁻¹ /
      (derivative (errorLocator errors location)).eval (location error)⁻¹) =
        value error := by
  rw [eval_errorEvaluator nonzero inside,
    eval_derivative_errorLocator nonzero inside]
  have factor : location error * others errors location error ≠ 0 :=
    mul_ne_zero (nonzero error inside) (others_ne_zero nonzero distinct inside)
  rw [div_neg, neg_neg, mul_assoc, mul_div_cancel_right₀ _ factor]

/-! ## The key equation -/

/-- A geometric series. -/
theorem one_sub_mul_geometric (ratio : F) :
    ((1 - C ratio * X : F[X]) : F⟦X⟧) * PowerSeries.mk (fun index => ratio ^ index) =
      1 := by
  ext index
  rw [Polynomial.coe_sub, Polynomial.coe_mul, Polynomial.coe_C, Polynomial.coe_X,
    Polynomial.coe_one, sub_mul, one_mul, map_sub, mul_assoc,
    PowerSeries.coeff_C_mul, PowerSeries.coeff_mk, PowerSeries.coeff_one]
  cases index with
  | zero => simp
  | succ index =>
      rw [PowerSeries.coeff_succ_X_mul, PowerSeries.coeff_mk]
      simp [pow_succ']

omit [DecidableEq ι] in
theorem syndromes_eq_sum :
    syndromes errors location value =
      ∑ error ∈ errors, PowerSeries.C (value error * location error) *
        PowerSeries.mk (fun index => location error ^ index) := by
  ext index
  rw [syndromes, PowerSeries.coeff_mk, map_sum]
  apply Finset.sum_congr rfl
  intro error _
  rw [PowerSeries.coeff_C_mul, PowerSeries.coeff_mk, pow_succ', mul_assoc]

/-- The locator times the syndromes is the evaluator. -/
theorem errorLocator_mul_syndromes :
    (errorLocator errors location : F⟦X⟧) * syndromes errors location value =
      errorEvaluator errors location value := by
  have expanded : (errorEvaluator errors location value : F⟦X⟧) =
      ∑ error ∈ errors, ((C (value error * location error) *
        errorLocator (errors.erase error) location : F[X]) : F⟦X⟧) :=
    map_sum Polynomial.coeToPowerSeries.ringHom _ _
  rw [syndromes_eq_sum, expanded, Finset.mul_sum]
  apply Finset.sum_congr rfl
  intro error inside
  have factored : errorLocator errors location =
      errorLocator (errors.erase error) location *
        (1 - C (location error) * X) :=
    (Finset.prod_erase_mul errors _ inside).symm
  rw [factored, Polynomial.coe_mul,
    Polynomial.coe_mul, Polynomial.coe_C, mul_left_comm, mul_assoc,
    one_sub_mul_geometric, mul_one]

/-- The locator is a register that produces the syndromes. -/
theorem produces_errorLocator (bound : Nat) :
    Produces (syndromes errors location value) bound
      (errorLocator errors location) errors.card where
  constant := coeff_zero_errorLocator
  short := natDegree_errorLocator_le
  recurrence index inside _ := by
    rw [errorLocator_mul_syndromes, Polynomial.coeff_coe]
    rcases errors.eq_empty_or_nonempty with rfl | some
    · simp [errorEvaluator]
    · exact coeff_eq_zero_of_natDegree_lt
        ((natDegree_errorEvaluator_lt some).trans_le inside)

/-- No more errors than syndromes leave one that is not zero. -/
theorem exists_syndrome_ne_zero {bound : Nat} (some : errors.Nonempty)
    (few : errors.card ≤ bound)
    (nonzero : ∀ error ∈ errors, location error ≠ 0)
    (distinct : Set.InjOn location errors)
    (real : ∀ error ∈ errors, value error ≠ 0) :
    ∃ index < bound,
      PowerSeries.coeff index (syndromes errors location value) ≠ 0 := by
  by_contra! zero
  -- Then the evaluator vanishes.
  have none : errorEvaluator errors location value = 0 := by
    ext index
    rw [coeff_zero]
    rcases Nat.lt_or_ge index errors.card with inside | beyond
    · rw [← Polynomial.coeff_coe, ← errorLocator_mul_syndromes,
        PowerSeries.coeff_mul]
      apply Finset.sum_eq_zero
      intro split among
      have total := Finset.HasAntidiagonal.mem_antidiagonal.mp among
      rw [zero split.2 (by omega), mul_zero]
    · exact coeff_eq_zero_of_natDegree_lt
        ((natDegree_errorEvaluator_lt some).trans_le beyond)
  obtain ⟨error, inside⟩ := some
  have evaluated : (errorEvaluator errors location value).eval (location error)⁻¹ =
      value error * location error * others errors location error :=
    eval_errorEvaluator nonzero inside
  rw [none, eval_zero, eq_comm] at evaluated
  exact mul_ne_zero (mul_ne_zero (real error inside) (nonzero error inside))
    (others_ne_zero nonzero distinct inside) evaluated

/-! ## Uniqueness -/

/-- What a register leaves over of the syndromes is a multiple of the locator. -/
theorem Produces.errorLocator_dvd {bound length : Nat} {connection : F[X]}
    (produces : Produces (syndromes errors location value) bound connection length)
    (short : length ≤ errors.card) (enough : 2 * errors.card ≤ bound)
    (some : errors.Nonempty) :
    errorLocator errors location ∣
      connection * errorEvaluator errors location value := by
  -- Both sides agree in front of the bound, and neither reaches it.
  set leftOver : F[X] := PowerSeries.trunc length
    (connection * syndromes errors location value : F⟦X⟧) with leftOver_eq
  have coefficients : ∀ index < bound,
      leftOver.coeff index = PowerSeries.coeff index
        (connection * syndromes errors location value : F⟦X⟧) := by
    intro index before
    rw [leftOver_eq, PowerSeries.coeff_trunc]
    split
    · rfl
    · next beyond =>
        exact (produces.recurrence index (Nat.le_of_not_lt beyond) before).symm
  refine ⟨leftOver, Eq.symm ?_⟩
  have positive := Finset.card_pos.mpr some
  have leftDegree : (errorLocator errors location * leftOver).natDegree < bound := by
    rcases Nat.eq_zero_or_pos length with rfl | lengthPositive
    · have none : leftOver = 0 := by simp [leftOver_eq]
      rw [none, mul_zero, natDegree_zero]
      omega
    · have leftOverDegree : leftOver.natDegree < length := by
        obtain ⟨length, rfl⟩ := Nat.exists_eq_succ_of_ne_zero lengthPositive.ne'
        exact PowerSeries.natDegree_trunc_lt _ length
      have product := natDegree_mul_le (p := errorLocator errors location)
        (q := leftOver)
      have locatorDegree : (errorLocator errors location).natDegree ≤
          errors.card := natDegree_errorLocator_le
      omega
  have rightDegree :
      (connection * errorEvaluator errors location value).natDegree < bound := by
    have product := natDegree_mul_le (p := connection)
      (q := errorEvaluator errors location value)
    have evaluatorDegree : (errorEvaluator errors location value).natDegree <
        errors.card := natDegree_errorEvaluator_lt some
    have connectionDegree := produces.short
    omega
  ext index
  rcases Nat.lt_or_ge index bound with before | beyond
  · calc (errorLocator errors location * leftOver).coeff index
        = PowerSeries.coeff index ((errorLocator errors location : F⟦X⟧) *
            ((connection : F⟦X⟧) * syndromes errors location value)) := by
          rw [coeff_mul, PowerSeries.coeff_mul]
          apply Finset.sum_congr rfl
          intro split inside
          rw [Polynomial.coeff_coe, coefficients]
          have total := Finset.HasAntidiagonal.mem_antidiagonal.mp inside
          omega
      _ = PowerSeries.coeff index ((connection : F⟦X⟧) *
            (errorEvaluator errors location value : F⟦X⟧)) := by
          rw [mul_left_comm, errorLocator_mul_syndromes]
      _ = (connection * errorEvaluator errors location value).coeff index := by
          rw [← Polynomial.coe_mul, Polynomial.coeff_coe]
  · rw [coeff_eq_zero_of_natDegree_lt (leftDegree.trans_le beyond),
      coeff_eq_zero_of_natDegree_lt (rightDegree.trans_le beyond)]

/-- A register that is not longer than the locator and produces twice as many
syndromes as there are errors is the locator. -/
theorem eq_errorLocator_of_produces {bound length : Nat} {connection : F[X]}
    (produces : Produces (syndromes errors location value) bound connection length)
    (short : length ≤ errors.card) (enough : 2 * errors.card ≤ bound)
    (nonzero : ∀ error ∈ errors, location error ≠ 0)
    (distinct : Set.InjOn location errors)
    (real : ∀ error ∈ errors, value error ≠ 0) :
    connection = errorLocator errors location := by
  classical
  -- The inverse locations are roots of the connection polynomial.
  have root : ∀ error ∈ errors, connection.eval (location error)⁻¹ = 0 := by
    intro error inside
    obtain ⟨rest, product⟩ :=
      produces.errorLocator_dvd short enough ⟨error, inside⟩
    have vanishes : (errorLocator errors location).eval (location error)⁻¹ = 0 :=
      (eval_errorLocator_eq_zero_iff nonzero _).mpr ⟨error, inside, rfl⟩
    have evaluated := congrArg (eval (location error)⁻¹) product
    rw [eval_mul, eval_mul, vanishes, zero_mul,
      eval_errorEvaluator nonzero inside] at evaluated
    refine (mul_eq_zero.mp evaluated).resolve_right ?_
    exact mul_ne_zero (mul_ne_zero (real error inside) (nonzero error inside))
      (others_ne_zero nonzero distinct inside)
  -- Two polynomials of this degree agree there and at zero.
  set points : Finset F := errors.image fun error => (location error)⁻¹
    with points_eq
  have zeroOutside : (0 : F) ∉ points := by
    rw [points_eq, Finset.mem_image]
    rintro ⟨error, inside, isZero⟩
    exact inv_ne_zero (nonzero error inside) isZero
  have count : (insert 0 points).card = errors.card + 1 := by
    rw [Finset.card_insert_of_notMem zeroOutside, points_eq,
      Finset.card_image_of_injOn]
    exact inv_injective.injOn.comp distinct (Set.mapsTo_univ _ _)
  apply eq_of_degree_sub_lt_of_eval_finset_eq (insert 0 points)
  · rw [count, Nat.cast_succ]
    refine (degree_le_of_natDegree_le (n := errors.card) ?_).trans_lt ?_
    · refine (natDegree_sub_le _ _).trans (Nat.max_le.mpr ⟨?_, ?_⟩)
      · exact produces.short.trans short
      · exact natDegree_errorLocator_le
    · exact_mod_cast Nat.lt_succ_self errors.card
  · intro point among
    rw [Finset.mem_insert, points_eq, Finset.mem_image] at among
    rcases among with rfl | ⟨error, inside, rfl⟩
    · rw [← coeff_zero_eq_eval_zero, ← coeff_zero_eq_eval_zero,
        produces.constant, coeff_zero_errorLocator]
    · rw [root error inside, eq_comm, eval_errorLocator_eq_zero_iff nonzero]
      exact ⟨error, inside, rfl⟩

/-- The synthesis finds the locator. -/
theorem Synthesis.eq_errorLocator {bound length : Nat}
    {connection correction : F[X]}
    (synthesis : Synthesis (syndromes errors location value) bound connection
      correction length) (enough : 2 * errors.card ≤ bound)
    (nonzero : ∀ error ∈ errors, location error ≠ 0)
    (distinct : Set.InjOn location errors)
    (real : ∀ error ∈ errors, value error ≠ 0) :
    connection = errorLocator errors location :=
  eq_errorLocator_of_produces synthesis.produces
    (synthesis.shortest _ _ (produces_errorLocator bound)) enough nonzero
    distinct real

end Roots

end Foundation
end Hamchat
