import Hamchat.Ardop.Arrays
import Mathlib.Algebra.Polynomial.RingDivision

/-!
# Check bytes and syndromes

The shift register of `encode_data` divides by the generator, so that a row of
bytes with its check bytes is a multiple of the generator.  The syndromes of
`decode_data` are the values of a row at the roots of the generator.
-/

namespace Hamchat
namespace Ardop

open Foundation Polynomial

/-- The polynomial of a row of bytes, the leading byte first. -/
noncomputable def bytesPolynomial (row : List UInt8) : GaloisByte[X] :=
  rowPolynomial (row.map symbol)

theorem coeff_bytesPolynomial_reverse (row : List UInt8) (i : Nat) :
    (bytesPolynomial row.reverse).coeff i = entry row i := by
  rw [bytesPolynomial, coeff_rowPolynomial, ← List.map_reverse, List.reverse_reverse,
    entry_eq_getElem?]

theorem bytesPolynomial_append (front back : List UInt8) :
    bytesPolynomial (front ++ back) =
      X ^ back.length * bytesPolynomial front + bytesPolynomial back := by
  rw [bytesPolynomial, List.map_append, rowPolynomial_append, List.length_map]
  rfl

theorem degree_bytesPolynomial_lt (row : List UInt8) :
    (bytesPolynomial row).degree < row.length := by
  have bound := degree_rowPolynomial_lt (row.map symbol)
  rwa [List.length_map] at bound

variable {npar : Nat}

/-! ## The shift register -/

/-- A round of `encode_data` divides by the generator. -/
theorem bytesPolynomial_encodeRound (positive : 0 < npar) {genPoly lfsr : List UInt8}
    (holds : Holds npar genPoly (generator npar)) (sized : lfsr.length = npar)
    (byte : UInt8) :
    bytesPolynomial (encodeRound npar genPoly lfsr byte).reverse =
      shiftIn (generator npar) (bytesPolynomial lfsr.reverse) (symbol byte) := by
  set dbyte := byte ^^^ lfsr.getD (npar - 1) 0 with dbyte_eq
  have top : symbol dbyte = symbol byte + entry lfsr (npar - 1) := by
    rw [dbyte_eq, symbol_xor]
    rfl
  -- The register with the new symbol, less a multiple of the generator.
  have step : bytesPolynomial (encodeRound npar genPoly lfsr byte).reverse =
      X * bytesPolynomial lfsr.reverse + C (symbol byte) * X ^ npar -
        C (symbol dbyte) * generator npar := by
    ext i
    rw [coeff_bytesPolynomial_reverse, encodeRound, entry_tabulate, coeff_sub,
      coeff_add, coeff_C_mul, coeff_C_mul, coeff_X_pow, CharTwo.sub_eq_add]
    rcases Nat.lt_trichotomy i npar with inside | rfl | beyond
    · rw [if_pos inside, if_neg (Nat.ne_of_lt inside), mul_zero, add_zero]
      cases i with
      | zero =>
          rw [if_neg (Nat.lt_irrefl 0), coeff_X_mul_zero, zero_add, symbol_gmult,
            mul_comm, ← holds 0 (by omega)]
          rfl
      | succ i =>
          rw [if_pos (Nat.succ_pos i), coeff_X_mul, coeff_bytesPolynomial_reverse,
            symbol_xor, symbol_gmult, mul_comm, ← holds (i + 1) (by omega)]
          rfl
    · obtain ⟨i, rfl⟩ := Nat.exists_eq_succ_of_ne_zero positive.ne'
      have leading : (generator (i + 1)).coeff (i + 1) = 1 := by
        have monic := monic_generator (i + 1)
        rwa [Monic, leadingCoeff, natDegree_generator] at monic
      rw [if_neg (Nat.lt_irrefl _), if_pos rfl, coeff_X_mul,
        coeff_bytesPolynomial_reverse, leading, top, Nat.succ_sub_one, mul_one,
        mul_one, add_comm (entry lfsr i), CharTwo.add_self_eq_zero]
    · obtain ⟨i, rfl⟩ := Nat.exists_eq_succ_of_ne_zero (Nat.ne_of_gt
        (Nat.zero_lt_of_lt beyond))
      have high : (generator npar).coeff (i + 1) = 0 :=
        coeff_eq_zero_of_natDegree_lt (by rwa [natDegree_generator])
      rw [if_neg (Nat.not_lt_of_lt beyond), if_neg (Nat.ne_of_gt beyond),
        coeff_X_mul, coeff_bytesPolynomial_reverse,
        entry_of_length_le (by omega), high, mul_zero, mul_zero, add_zero, add_zero]
  have small : (bytesPolynomial (encodeRound npar genPoly lfsr byte).reverse).degree <
      (generator npar).degree := by
    refine (degree_bytesPolynomial_lt _).trans_eq ?_
    rw [degree_eq_natDegree (monic_generator npar).ne_zero, natDegree_generator,
      List.length_reverse, encodeRound, length_tabulate]
  rw [shiftIn, natDegree_generator,
    ← (modByMonic_eq_self_iff (monic_generator npar)).mpr small]
  apply modByMonic_eq_of_dvd_sub (monic_generator npar)
  rw [step, sub_sub_cancel_left, dvd_neg]
  exact Dvd.intro_left _ rfl

theorem length_foldl_encodeRound (genPoly row : List UInt8) {lfsr : List UInt8}
    (sized : lfsr.length = npar) :
    (row.foldl (encodeRound npar genPoly) lfsr).length = npar := by
  induction row generalizing lfsr with
  | nil => exact sized
  | cons byte rest inductionHypothesis =>
      exact inductionHypothesis (length_tabulate _ _)

theorem length_encodeData (genPoly msg : List UInt8) (nbytes : Nat) :
    (encodeData npar genPoly msg nbytes).length = npar :=
  length_foldl_encodeRound _ _ (length_tabulate _ _)

/-- The whole loop of `encode_data`. -/
theorem bytesPolynomial_foldl_encodeRound (positive : 0 < npar)
    {genPoly : List UInt8} (holds : Holds npar genPoly (generator npar))
    (row : List UInt8) {lfsr : List UInt8} (sized : lfsr.length = npar) :
    bytesPolynomial (row.foldl (encodeRound npar genPoly) lfsr).reverse =
      (row.map symbol).foldl (shiftIn (generator npar))
        (bytesPolynomial lfsr.reverse) := by
  induction row generalizing lfsr with
  | nil => rfl
  | cons byte rest inductionHypothesis =>
      have next : (encodeRound npar genPoly lfsr byte).length = npar :=
        length_tabulate _ _
      rw [List.foldl_cons, inductionHypothesis next,
        bytesPolynomial_encodeRound positive holds sized, List.map_cons,
        List.foldl_cons]

/-- A row in the order in which it is divided, followed by the check bytes, is a
multiple of the generator. -/
theorem generator_dvd_encodeData (positive : 0 < npar) {genPoly : List UInt8}
    (holds : Holds npar genPoly (generator npar)) (msg : List UInt8)
    {nbytes : Nat} (all : msg.length ≤ nbytes) :
    generator npar ∣ bytesPolynomial
      (msg.reverse ++ (encodeData npar genPoly msg nbytes).reverse) := by
  have zero : bytesPolynomial (tabulate npar fun _ => 0).reverse = 0 := by
    ext i
    rw [coeff_bytesPolynomial_reverse, entry_tabulate, symbol_zero, ite_self,
      coeff_zero]
  have remainder : bytesPolynomial (encodeData npar genPoly msg nbytes).reverse =
      (X ^ npar * bytesPolynomial msg.reverse) %ₘ generator npar := by
    rw [encodeData, bytesPolynomial_foldl_encodeRound positive holds _
      (length_tabulate _ _), zero,
      foldl_shiftIn (monic_generator npar) (zero_modByMonic _), mul_zero, zero_add,
      natDegree_generator, List.take_of_length_le all]
    rfl
  rw [bytesPolynomial_append, List.length_reverse, length_encodeData, remainder,
    ← CharTwo.sub_eq_add, ← dvd_neg, neg_sub]
  exact dvd_modByMonic_sub _ _

/-! ## The syndromes -/

theorem symbol_foldl_horner (point sum : UInt8) (row : List UInt8) :
    symbol (row.foldl (fun sum byte => byte ^^^ gmult point sum) sum) =
      symbol point ^ row.length * symbol sum +
        (bytesPolynomial row).eval (symbol point) := by
  induction row generalizing sum with
  | nil => simp [bytesPolynomial, rowPolynomial]
  | cons byte rest inductionHypothesis =>
      have leading : bytesPolynomial (byte :: rest) =
          C (symbol byte) * X ^ rest.length + bytesPolynomial rest := by
        rw [bytesPolynomial, List.map_cons, rowPolynomial, List.length_map]
        rfl
      rw [List.foldl_cons, inductionHypothesis, symbol_xor, symbol_gmult, leading,
        eval_add, eval_C_mul, eval_X_pow, List.length_cons, pow_succ]
      ring

theorem entry_decodeData (synBytes : List UInt8) {data : List UInt8} {nbytes : Nat}
    (all : data.length ≤ nbytes) (small : npar ≤ 255) {j : Nat} (inside : j < npar) :
    entry (decodeData npar synBytes data nbytes) j =
      (bytesPolynomial data).eval (alpha ^ (j + 1)) := by
  rw [decodeData, entry_overwrite, length_tabulate, if_pos inside, entry_tabulate,
    if_pos inside, symbol_foldl_horner, symbol_zero, mul_zero, zero_add,
    symbol_gexp_eq_pow (by omega), List.take_of_length_le all]

theorem checkSyndrome_eq_false_iff (synBytes : List UInt8) :
    checkSyndrome npar synBytes = false ↔ ∀ j < npar, entry synBytes j = 0 := by
  rw [checkSyndrome, List.any_eq_false]
  simp only [List.mem_range, decide_eq_true_eq, not_not]
  rfl

/-- The multiples of the generator vanish at the first powers. -/
theorem generator_dvd_iff (small : npar < 255) (p : GaloisByte[X]) :
    generator npar ∣ p ↔ ∀ j < npar, p.eval (alpha ^ (j + 1)) = 0 := by
  constructor
  · intro divides j inside
    have factor : X - C (alpha ^ (j + 1)) ∣ generator npar :=
      Finset.dvd_prod_of_mem _ (Finset.mem_range.mpr inside)
    exact dvd_iff_isRoot.mp (factor.trans divides)
  · intro roots
    apply Finset.prod_dvd_of_coprime
    · intro i iInside j jInside different
      rw [Finset.mem_coe, Finset.mem_range] at iInside jInside
      apply isCoprime_X_sub_C_of_isUnit_sub
      rw [isUnit_iff_ne_zero, sub_ne_zero]
      intro same
      apply different
      have places := alpha_pow_injOn (Set.mem_Iio.mpr (by omega))
        (Set.mem_Iio.mpr (by omega)) same
      omega
    · intro j inside
      exact dvd_iff_isRoot.mpr (roots j (Finset.mem_range.mp inside))

/-- The check accepts the multiples of the generator. -/
theorem checkSyndrome_decodeData_iff (small : npar < 255) (synBytes : List UInt8)
    {data : List UInt8} {nbytes : Nat} (all : data.length ≤ nbytes) :
    checkSyndrome npar (decodeData npar synBytes data nbytes) = false ↔
      generator npar ∣ bytesPolynomial data := by
  rw [checkSyndrome_eq_false_iff, generator_dvd_iff small]
  apply forall_congr'
  intro j
  apply forall_congr'
  intro inside
  rw [entry_decodeData synBytes all (Nat.le_of_lt small) inside]

end Ardop
end Hamchat
