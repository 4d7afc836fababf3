import Mathlib.Algebra.Polynomial.Div
import Mathlib.RingTheory.Coprime.Basic
import Mathlib.RingTheory.Polynomial.Basic

/-!
# Serial division

A shift register that divides by a monic polynomial takes one symbol of the
dividend at a time, the leading one first, and keeps the remainder of what it
has seen, times the power of `X` that the divisor reserves for the check
symbols.  Two rows of symbols that differ within a window no longer than the
register leave different remainders, if `X` does not divide the divisor.
-/

namespace Hamchat
namespace Foundation

open Polynomial

variable {R : Type*} [CommRing R]

/-- The polynomial whose coefficients are a row of symbols, the leading one
first. -/
noncomputable def rowPolynomial : List R → R[X]
  | [] => 0
  | symbol :: rest => C symbol * X ^ rest.length + rowPolynomial rest

/-- A register that divides by `divisor` takes one more symbol. -/
noncomputable def shiftIn (divisor register : R[X]) (symbol : R) : R[X] :=
  (X * register + C symbol * X ^ divisor.natDegree) %ₘ divisor

/-- A register that divides by `divisor` takes one more symbol at its end. -/
noncomputable def appendIn (divisor register : R[X]) (symbol : R) : R[X] :=
  (X * register + C symbol) %ₘ divisor

/-! ## Rows -/

theorem rowPolynomial_append (front back : List R) :
    rowPolynomial (front ++ back) =
      X ^ back.length * rowPolynomial front + rowPolynomial back := by
  induction front with
  | nil => simp [rowPolynomial]
  | cons symbol rest inductionHypothesis =>
      rw [List.cons_append, rowPolynomial, inductionHypothesis, rowPolynomial,
        List.length_append, pow_add]
      ring

/-- Adding rows symbol by symbol adds their polynomials. -/
theorem rowPolynomial_map_add {ι : Type*} (first second : ι → R)
    (indices : List ι) :
    rowPolynomial (indices.map fun index => first index + second index) =
      rowPolynomial (indices.map first) +
        rowPolynomial (indices.map second) := by
  induction indices with
  | nil => simp [rowPolynomial]
  | cons index rest inductionHypothesis =>
      simp only [List.map_cons, rowPolynomial, inductionHypothesis,
        List.length_map, map_add]
      ring

/-- The coefficients of a row are its symbols, read from the end. -/
theorem coeff_rowPolynomial (row : List R) (position : Nat) :
    (rowPolynomial row).coeff position =
      (row.reverse[position]?).getD 0 := by
  induction row with
  | nil => simp [rowPolynomial]
  | cons symbol rest inductionHypothesis =>
      rw [rowPolynomial, coeff_add, inductionHypothesis, coeff_C_mul,
        coeff_X_pow, List.reverse_cons]
      rcases Nat.lt_trichotomy position rest.length with inside | here | beyond
      · rw [List.getElem?_append_left (by simpa using inside)]
        simp [Nat.ne_of_lt inside]
      · subst here
        rw [List.getElem?_append_right (by simp)]
        simp
      · rw [List.getElem?_append_right (by simpa using Nat.le_of_lt beyond)]
        have later : position - rest.length ≠ 0 := by omega
        simp [Nat.ne_of_gt beyond, Nat.le_of_lt beyond, later]

theorem degree_rowPolynomial_lt (row : List R) :
    (rowPolynomial row).degree < row.length := by
  rw [degree_lt_iff_coeff_zero]
  intro position beyond
  rw [coeff_rowPolynomial, List.getElem?_eq_none (by simpa using beyond),
    Option.getD_none]

/-- Two rows of one length with one polynomial are one row. -/
theorem rowPolynomial_inj {first second : List R}
    (sameLength : first.length = second.length)
    (equal : rowPolynomial first = rowPolynomial second) : first = second := by
  rw [← List.reverse_inj]
  apply List.ext_getElem (by simpa using sameLength)
  intro position inFirst inSecond
  have coefficient := congrArg (fun p => p.coeff position) equal
  simp only [coeff_rowPolynomial] at coefficient
  rw [List.getElem?_eq_getElem inFirst, List.getElem?_eq_getElem inSecond]
    at coefficient
  exact coefficient

/-! ## The register -/

/-- Positions do not matter to a divisor that `X` does not divide. -/
theorem dvd_X_pow_mul_iff {divisor : R[X]} (coprime : IsCoprime divisor X)
    {p : R[X]} {position : Nat} :
    divisor ∣ X ^ position * p ↔ divisor ∣ p :=
  ⟨(IsCoprime.pow_right coprime).dvd_of_dvd_mul_left,
    fun divides => Dvd.dvd.mul_left divides _⟩

section Register

variable {divisor : R[X]} (monic : divisor.Monic)
include monic

/-- The register keeps the remainder of what it has seen. -/
theorem foldl_shiftIn {register : R[X]}
    (reduced : register %ₘ divisor = register) (row : List R) :
    row.foldl (shiftIn divisor) register =
      (X ^ row.length * register +
        X ^ divisor.natDegree * rowPolynomial row) %ₘ divisor := by
  induction row generalizing register with
  | nil => simp [rowPolynomial, reduced]
  | cons symbol rest inductionHypothesis =>
      have next : shiftIn divisor register symbol %ₘ divisor =
          shiftIn divisor register symbol :=
        modByMonic_eq_of_dvd_sub monic (dvd_modByMonic_sub _ _)
      rw [List.foldl_cons, inductionHypothesis next]
      apply modByMonic_eq_of_dvd_sub monic
      have step : divisor ∣ shiftIn divisor register symbol -
          (X * register + C symbol * X ^ divisor.natDegree) :=
        dvd_modByMonic_sub _ _
      have difference :
          X ^ rest.length * shiftIn divisor register symbol +
              X ^ divisor.natDegree * rowPolynomial rest -
            (X ^ (symbol :: rest).length * register +
              X ^ divisor.natDegree * rowPolynomial (symbol :: rest)) =
          X ^ rest.length * (shiftIn divisor register symbol -
            (X * register + C symbol * X ^ divisor.natDegree)) := by
        rw [rowPolynomial, List.length_cons, pow_succ]
        ring
      rw [difference]
      exact Dvd.dvd.mul_left step _

/-- Two rows of one length leave one remainder exactly if the divisor divides
the difference of their polynomials. -/
theorem foldl_shiftIn_eq_iff (coprime : IsCoprime divisor X)
    {register : R[X]} (reduced : register %ₘ divisor = register)
    {first second : List R} (sameLength : first.length = second.length) :
    first.foldl (shiftIn divisor) register =
        second.foldl (shiftIn divisor) register ↔
      divisor ∣ rowPolynomial first - rowPolynomial second := by
  have difference :
      X ^ first.length * register +
          X ^ divisor.natDegree * rowPolynomial first -
        (X ^ second.length * register +
          X ^ divisor.natDegree * rowPolynomial second) =
      X ^ divisor.natDegree *
        (rowPolynomial first - rowPolynomial second) := by
    rw [sameLength]
    ring
  rw [foldl_shiftIn monic reduced, foldl_shiftIn monic reduced,
    ← sub_eq_zero, ← sub_modByMonic, modByMonic_eq_zero_iff_dvd monic,
    difference]
  exact dvd_X_pow_mul_iff coprime

/-- A burst no longer than the register changes the remainder. -/
theorem foldl_shiftIn_ne_of_burst [Nontrivial R]
    (coprime : IsCoprime divisor X)
    {register : R[X]} (reduced : register %ₘ divisor = register)
    (front back : List R) {first second : List R}
    (sameLength : first.length = second.length)
    (short : first.length ≤ divisor.natDegree) (differ : first ≠ second) :
    (front ++ first ++ back).foldl (shiftIn divisor) register ≠
      (front ++ second ++ back).foldl (shiftIn divisor) register := by
  rw [Ne, foldl_shiftIn_eq_iff monic coprime reduced (by simp [sameLength])]
  have difference :
      rowPolynomial (front ++ first ++ back) -
          rowPolynomial (front ++ second ++ back) =
        X ^ back.length * (rowPolynomial first - rowPolynomial second) := by
    simp only [rowPolynomial_append, sameLength]
    ring
  rw [difference, dvd_X_pow_mul_iff coprime]
  have nonzero : rowPolynomial first - rowPolynomial second ≠ 0 := fun equal =>
    differ (rowPolynomial_inj sameLength (sub_eq_zero.mp equal))
  -- The difference is of smaller degree than the divisor.
  refine monic.not_dvd_of_degree_lt nonzero ?_
  rw [degree_eq_natDegree monic.ne_zero]
  calc (rowPolynomial first - rowPolynomial second).degree
      ≤ max (rowPolynomial first).degree (rowPolynomial second).degree :=
        degree_sub_le _ _
    _ < first.length := max_lt (degree_rowPolynomial_lt first)
        (sameLength ▸ degree_rowPolynomial_lt second)
    _ ≤ divisor.natDegree := Nat.cast_le.mpr short

/-- The register that takes its symbols at the end keeps the remainder of the
row itself. -/
theorem foldl_appendIn {register : R[X]}
    (reduced : register %ₘ divisor = register) (row : List R) :
    row.foldl (appendIn divisor) register =
      (X ^ row.length * register + rowPolynomial row) %ₘ divisor := by
  induction row generalizing register with
  | nil => simp [rowPolynomial, reduced]
  | cons symbol rest inductionHypothesis =>
      have next : appendIn divisor register symbol %ₘ divisor =
          appendIn divisor register symbol :=
        modByMonic_eq_of_dvd_sub monic (dvd_modByMonic_sub _ _)
      rw [List.foldl_cons, inductionHypothesis next]
      apply modByMonic_eq_of_dvd_sub monic
      have step : divisor ∣ appendIn divisor register symbol -
          (X * register + C symbol) :=
        dvd_modByMonic_sub _ _
      have difference :
          X ^ rest.length * appendIn divisor register symbol +
              rowPolynomial rest -
            (X ^ (symbol :: rest).length * register +
              rowPolynomial (symbol :: rest)) =
          X ^ rest.length * (appendIn divisor register symbol -
            (X * register + C symbol)) := by
        rw [rowPolynomial, List.length_cons, pow_succ]
        ring
      rw [difference]
      exact Dvd.dvd.mul_left step _

/-- Two rows of one length leave one remainder exactly if the divisor divides
their difference. -/
theorem foldl_appendIn_eq_iff {register : R[X]}
    (reduced : register %ₘ divisor = register) {first second : List R}
    (sameLength : first.length = second.length) :
    first.foldl (appendIn divisor) register =
        second.foldl (appendIn divisor) register ↔
      divisor ∣ rowPolynomial first - rowPolynomial second := by
  have difference :
      X ^ first.length * register + rowPolynomial first -
          (X ^ second.length * register + rowPolynomial second) =
        rowPolynomial first - rowPolynomial second := by
    rw [sameLength]
    ring
  rw [foldl_appendIn monic reduced, foldl_appendIn monic reduced, ← sub_eq_zero,
    ← sub_modByMonic, modByMonic_eq_zero_iff_dvd monic, difference]

/-- A burst no longer than a factor of the divisor changes the remainder of the
row itself, if `X` does not divide the factor. -/
theorem foldl_appendIn_ne_of_burst [Nontrivial R] {factor : R[X]}
    (factorMonic : factor.Monic) (coprime : IsCoprime factor X)
    (divides : factor ∣ divisor) {register : R[X]}
    (reduced : register %ₘ divisor = register)
    (front back : List R) {first second : List R}
    (sameLength : first.length = second.length)
    (short : first.length ≤ factor.natDegree) (differ : first ≠ second) :
    (front ++ first ++ back).foldl (appendIn divisor) register ≠
      (front ++ second ++ back).foldl (appendIn divisor) register := by
  rw [Ne, foldl_appendIn_eq_iff monic reduced (by simp [sameLength])]
  intro divided
  have difference :
      rowPolynomial (front ++ first ++ back) -
          rowPolynomial (front ++ second ++ back) =
        X ^ back.length * (rowPolynomial first - rowPolynomial second) := by
    simp only [rowPolynomial_append, sameLength]
    ring
  rw [difference] at divided
  have inWindow := (dvd_X_pow_mul_iff coprime).mp (divides.trans divided)
  have nonzero : rowPolynomial first - rowPolynomial second ≠ 0 := fun equal =>
    differ (rowPolynomial_inj sameLength (sub_eq_zero.mp equal))
  refine factorMonic.not_dvd_of_degree_lt nonzero ?_ inWindow
  rw [degree_eq_natDegree factorMonic.ne_zero]
  calc (rowPolynomial first - rowPolynomial second).degree
      ≤ max (rowPolynomial first).degree (rowPolynomial second).degree :=
        degree_sub_le _ _
    _ < first.length := max_lt (degree_rowPolynomial_lt first)
        (sameLength ▸ degree_rowPolynomial_lt second)
    _ ≤ factor.natDegree := Nat.cast_le.mpr short

end Register

end Foundation
end Hamchat
