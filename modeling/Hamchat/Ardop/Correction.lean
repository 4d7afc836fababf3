import Hamchat.Ardop.Encoding
import Hamchat.Ardop.Locator

/-!
# Correction

A received row differs from a sent one in the errors, whose places are the
powers of `X` in the polynomials of the rows.  `decode_data` finds their
syndromes, `Find_Roots` their places and the loop over the error locations their
values, if there are no more errors than half of the check bytes.
-/

namespace Hamchat
namespace Ardop

open Foundation Polynomial

/-- The places at which two arrays of bytes differ. -/
def errorPlaces (sent received : List UInt8) : Finset Nat :=
  (Finset.range 255).filter fun place => entry received place ≠ entry sent place

/-- The location of an error in the field. -/
def errorLocation (place : Nat) : GaloisByte := alpha ^ place

/-- What an error adds. -/
def errorValue (sent received : List UInt8) (place : Nat) : GaloisByte :=
  entry received place - entry sent place

theorem mem_errorPlaces {sent received : List UInt8} {place : Nat} :
    place ∈ errorPlaces sent received ↔
      place < 255 ∧ entry received place ≠ entry sent place := by
  rw [errorPlaces, Finset.mem_filter, Finset.mem_range]

theorem errorLocation_ne_zero (place : Nat) : errorLocation place ≠ 0 :=
  pow_ne_zero _ alpha_ne_zero

theorem errorLocation_injOn (sent received : List UInt8) :
    Set.InjOn errorLocation (errorPlaces sent received) := by
  apply alpha_pow_injOn.mono
  intro place among
  exact (mem_errorPlaces.mp among).1

theorem errorValue_ne_zero {sent received : List UInt8} {place : Nat}
    (among : place ∈ errorPlaces sent received) :
    errorValue sent received place ≠ 0 :=
  sub_ne_zero.mpr (mem_errorPlaces.mp among).2

/-- A location is inverted by the rest of the round through the powers. -/
theorem alpha_pow_eq_inv {place : Nat} (inside : place ≤ 255) :
    alpha ^ (255 - place) = (errorLocation place)⁻¹ := by
  apply eq_inv_of_mul_eq_one_left
  rw [errorLocation, ← pow_add, Nat.sub_add_cancel inside, alpha_pow_255]

/-! ## The syndromes of the errors -/

section Rows

variable {npar : Nat} {sent received : List UInt8}

/-- The received row is the sent one with the errors. -/
theorem bytesPolynomial_received (sentSized : sent.length = 255)
    (receivedSized : received.length = 255) :
    bytesPolynomial received.reverse = bytesPolynomial sent.reverse +
      ∑ place ∈ errorPlaces sent received,
        C (errorValue sent received place) * X ^ place := by
  ext place
  rw [coeff_add, coeff_bytesPolynomial_reverse, coeff_bytesPolynomial_reverse,
    finsetSum_coeff]
  simp only [coeff_C_mul_X_pow]
  rw [Finset.sum_ite_eq, errorValue]
  by_cases differs : place ∈ errorPlaces sent received
  · rw [if_pos differs, add_sub_cancel]
  · rw [if_neg differs, add_zero]
    by_contra different
    apply differs
    refine mem_errorPlaces.mpr ⟨?_, different⟩
    by_contra! beyond
    exact different (by
      rw [entry_of_length_le (by omega), entry_of_length_le (by omega)])

/-- A multiple of the generator with errors has the syndromes of the errors. -/
theorem areSyndromes_decodeData (small : npar < 255)
    (sentSized : sent.length = 255) (receivedSized : received.length = 255)
    (code : generator npar ∣ bytesPolynomial sent.reverse)
    (synBytes : List UInt8) :
    AreSyndromes npar (decodeData npar synBytes received.reverse 255)
      (syndromes (errorPlaces sent received) errorLocation
        (errorValue sent received)) := by
  intro j inside
  have root := (generator_dvd_iff small _).mp code j inside
  rw [entry_decodeData synBytes (by simp [receivedSized]) (Nat.le_of_lt small) inside,
    bytesPolynomial_received sentSized receivedSized, eval_add, root, zero_add,
    eval_finsetSum, syndromes, PowerSeries.coeff_mk]
  apply Finset.sum_congr rfl
  intro place _
  rw [eval_C_mul, eval_X_pow, errorLocation, ← pow_mul, ← pow_mul, Nat.mul_comm]

/-! ## The places -/

variable {lambda omega : List UInt8}

/-- `Find_Roots` finds the places of the errors. -/
theorem mem_findRoots (positive : 0 < npar)
    (holds : Holds npar lambda
      (errorLocator (errorPlaces sent received) errorLocation))
    (few : 2 * (errorPlaces sent received).card ≤ npar) (place : Nat) :
    place ∈ findRoots npar lambda ↔ place ∈ errorPlaces sent received := by
  have root : ∀ r, xorLoop (npar + 1) (fun k =>
      gmult (gexp (k * r % 255)) (lambda.getD k 0)) = 0 ↔
        (errorLocator (errorPlaces sent received) errorLocation).eval
          (alpha ^ r) = 0 := by
    intro r
    have degree : (errorLocator (errorPlaces sent received)
        errorLocation).natDegree ≤ (errorPlaces sent received).card :=
      natDegree_errorLocator_le
    rw [← symbol_eq_zero_iff, symbol_xorLoop,
      eval_eq_sum_range' (show _ < npar + 1 by omega)]
    apply Eq.congr_left
    apply Finset.sum_congr rfl
    intro k among
    rw [Finset.mem_range] at among
    have small := Nat.mod_lt (k * r) (show 0 < 255 by decide)
    rw [symbol_gmult, symbol_gexp_eq_pow (by omega), alpha_pow_mod,
      ← holds k (by omega), mul_comm, Nat.mul_comm, pow_mul]
    rfl
  have located : ∀ r, 1 ≤ r → r < 256 →
      ((errorLocator (errorPlaces sent received) errorLocation).eval
        (alpha ^ r) = 0 ↔ 255 - r ∈ errorPlaces sent received) := by
    intro r first last
    rw [eval_errorLocator_eq_zero_iff fun place _ => errorLocation_ne_zero place]
    have other := alpha_pow_eq_inv (Nat.sub_le 255 r)
    rw [Nat.sub_sub_self (by omega)] at other
    constructor
    · rintro ⟨error, among, same⟩
      have inside := (mem_errorPlaces.mp among).1
      rw [other] at same
      have place_eq := alpha_pow_injOn (Set.mem_Iio.mpr (by omega))
        (Set.mem_Iio.mpr inside) (inv_injective same)
      rwa [place_eq]
    · exact fun among => ⟨255 - r, among, other⟩
  rw [findRoots, List.mem_map]
  constructor
  · rintro ⟨r, among, rfl⟩
    rw [List.mem_filter, List.mem_range'_1, decide_eq_true_eq, root] at among
    exact (located r among.1.1 among.1.2).mp among.2
  · intro among
    have inside := (mem_errorPlaces.mp among).1
    refine ⟨255 - place, ?_, Nat.sub_sub_self (Nat.le_of_lt inside)⟩
    rw [List.mem_filter, List.mem_range'_1, decide_eq_true_eq, root]
    refine ⟨⟨by omega, by omega⟩, ?_⟩
    rw [located _ (by omega) (by omega), Nat.sub_sub_self (Nat.le_of_lt inside)]
    exact among

theorem nodup_findRoots (npar : Nat) (lambda : List UInt8) :
    (findRoots npar lambda).Nodup := by
  apply List.Nodup.map_on
  · intro first firstAmong second secondAmong same
    rw [List.mem_filter, List.mem_range'_1] at firstAmong secondAmong
    omega
  · exact (List.nodup_range' 1).filter _

/-- As many roots as errors. -/
theorem length_findRoots (positive : 0 < npar)
    (holds : Holds npar lambda
      (errorLocator (errorPlaces sent received) errorLocation))
    (few : 2 * (errorPlaces sent received).card ≤ npar) :
    (findRoots npar lambda).length = (errorPlaces sent received).card := by
  rw [← List.toFinset_card_of_nodup (nodup_findRoots npar lambda)]
  congr 1
  ext place
  rw [List.mem_toFinset, mem_findRoots positive holds few]

/-! ## The values -/

theorem symbol_errorMagnitude (positive : 0 < npar)
    (locator : Holds npar lambda
      (errorLocator (errorPlaces sent received) errorLocation))
    (evaluator : Holds npar omega
      (errorEvaluator (errorPlaces sent received) errorLocation
        (errorValue sent received)))
    (few : 2 * (errorPlaces sent received).card ≤ npar) {place : Nat}
    (among : place ∈ errorPlaces sent received) :
    symbol (errorMagnitude npar lambda omega place) =
      errorValue sent received place := by
  have inside := (mem_errorPlaces.mp among).1
  have inverse := alpha_pow_eq_inv (Nat.le_of_lt inside)
  have nonzero := fun place (_ : place ∈ errorPlaces sent received) =>
    errorLocation_ne_zero place
  have distinct := errorLocation_injOn sent received
  -- The numerator is the value of the evaluator.
  have num : symbol (xorLoop (npar * 2) fun j =>
      gmult (omega.getD j 0) (gexp ((255 - place) * j % 255))) =
        (errorEvaluator (errorPlaces sent received) errorLocation
          (errorValue sent received)).eval (errorLocation place)⁻¹ := by
    have degree : (errorEvaluator (errorPlaces sent received) errorLocation
        (errorValue sent received)).natDegree < _ :=
      natDegree_errorEvaluator_lt ⟨place, among⟩
    rw [symbol_xorLoop, eval_eq_sum_range' (show _ < npar * 2 by omega), ← inverse]
    apply Finset.sum_congr rfl
    intro j within
    have small := Nat.mod_lt ((255 - place) * j) (show 0 < 255 by decide)
    rw [symbol_gmult, symbol_gexp_eq_pow (by omega), alpha_pow_mod,
      ← evaluator j (Finset.mem_range.mp within), pow_mul]
    rfl
  -- The denominator is the value of the derivative.
  have denom : symbol (xorLoop (npar * 2) fun j =>
      if j % 2 = 1 then
        gmult (lambda.getD j 0) (gexp ((255 - place) * (j - 1) % 255))
      else 0) =
        (derivative (errorLocator (errorPlaces sent received)
          errorLocation)).eval (errorLocation place)⁻¹ := by
    have degree : (errorLocator (errorPlaces sent received)
        errorLocation).natDegree ≤ _ := natDegree_errorLocator_le
    rw [symbol_xorLoop, derivative_eval,
      sum_over_range' _ _ (npar * 2) (by omega), ← inverse]
    · apply Finset.sum_congr rfl
      intro j within
      have small := Nat.mod_lt ((255 - place) * (j - 1)) (show 0 < 255 by decide)
      rw [CharTwo.natCast_eq_ite]
      by_cases odd : j % 2 = 1
      · rw [if_pos odd, if_neg (by rw [Nat.even_iff]; omega), symbol_gmult,
          symbol_gexp_eq_pow (by omega), alpha_pow_mod,
          ← locator j (Finset.mem_range.mp within), pow_mul, mul_one]
        rfl
      · rw [if_neg odd, if_pos (by rw [Nat.even_iff]; omega), mul_zero, zero_mul,
          symbol_zero]
    · intro j
      rw [zero_mul, zero_mul]
  have denomNonzero : (derivative (errorLocator (errorPlaces sent received)
      errorLocation)).eval (errorLocation place)⁻¹ ≠ 0 := by
    rw [eval_derivative_errorLocator nonzero among]
    exact neg_ne_zero.mpr (mul_ne_zero (errorLocation_ne_zero place)
      (others_ne_zero nonzero distinct among))
  have value_eq := @value_eq_neg_div _ _ _ _ _ (errorValue sent received) _ nonzero
    distinct place among
  rw [CharTwo.neg_eq, ← num, ← denom] at value_eq
  rw [errorMagnitude, symbol_gmult, symbol_ginv, ← div_eq_mul_inv, value_eq]
  rw [Ne, ← symbol_eq_zero_iff, denom]
  exact denomNonzero

end Rows

end Ardop
end Hamchat
