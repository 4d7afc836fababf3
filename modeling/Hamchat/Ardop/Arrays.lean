import Hamchat.Ardop.Coder
import Mathlib.Algebra.BigOperators.Intervals
import Mathlib.Algebra.Polynomial.BigOperators
import Mathlib.Algebra.Polynomial.Coeff

/-!
# The arrays of the coder as polynomials

The loops over arrays compute the coefficients of sums, products and multiples
of polynomials over the field of bytes, and `compute_genpoly` leaves the product
of the linear factors at the first powers.
-/

namespace Hamchat
namespace Ardop

open Foundation Polynomial

/-- The element in an array. -/
def entry (array : List UInt8) (i : Nat) : GaloisByte :=
  symbol (array.getD i 0)

theorem entry_eq_getElem? (array : List UInt8) (i : Nat) :
    entry array i = ((array.map symbol)[i]?).getD 0 := by
  rw [entry, List.getD_eq_getElem?_getD, List.getElem?_map]
  cases array[i]? with
  | none => rfl
  | some byte => rfl

theorem entry_of_length_le {array : List UInt8} {i : Nat}
    (beyond : array.length ≤ i) : entry array i = 0 := by
  rw [entry, List.getD_eq_getElem?_getD, List.getElem?_eq_none beyond,
    Option.getD_none, symbol_zero]

@[simp] theorem length_tabulate (count : Nat) (f : Nat → UInt8) :
    (tabulate count f).length = count := by
  rw [tabulate, List.length_map, List.length_range]

@[simp] theorem entry_tabulate (count : Nat) (f : Nat → UInt8) (i : Nat) :
    entry (tabulate count f) i = if i < count then symbol (f i) else 0 := by
  split
  · next inside =>
      rw [entry, tabulate, List.getD_eq_getElem?_getD, List.getElem?_map,
        List.getElem?_range inside]
      rfl
  · next beyond =>
      exact entry_of_length_le (by simpa using Nat.le_of_not_lt beyond)

theorem entry_overwrite (array front : List UInt8) (i : Nat) :
    entry (overwrite array front) i =
      if i < front.length then entry front i else entry array i := by
  rw [entry, overwrite, List.getD_eq_getElem?_getD, List.getElem?_append]
  split
  · rw [entry, List.getD_eq_getElem?_getD]
  · next beyond =>
      rw [List.getElem?_drop, Nat.add_sub_cancel' (Nat.le_of_not_lt beyond),
        entry, List.getD_eq_getElem?_getD]

theorem entry_set (array : List UInt8) (place i : Nat) (byte : UInt8) :
    entry (array.set place byte) i =
      if place = i ∧ i < array.length then symbol byte else entry array i := by
  rw [entry, List.getD_eq_getElem?_getD, List.getElem?_set]
  by_cases here : place = i
  · by_cases inside : i < array.length
    · subst here
      simp [inside]
    · rw [entry_of_length_le (Nat.le_of_not_lt inside)]
      subst here
      simp [inside]
  · simp [here, entry, List.getD_eq_getElem?_getD]

/-- The loops add up. -/
@[simp] theorem symbol_xorLoop (count : Nat) (term : Nat → UInt8) :
    symbol (xorLoop count term) = ∑ i ∈ Finset.range count, symbol (term i) := by
  unfold xorLoop
  induction count with
  | zero => rfl
  | succ count inductionHypothesis =>
      rw [List.range_succ, List.foldl_append, List.foldl_cons, List.foldl_nil,
        symbol_xor, inductionHypothesis, Finset.sum_range_succ]

/-- The array holds the coefficients of a polynomial, as far as the loops over
polynomials go. -/
def Holds (npar : Nat) (array : List UInt8) (p : GaloisByte[X]) : Prop :=
  ∀ i < npar * 2, entry array i = p.coeff i

variable {npar : Nat}

theorem Holds.copyPoly {array : List UInt8} {p : GaloisByte[X]}
    (holds : Holds npar array p) : Holds npar (copyPoly npar array) p := by
  intro i inside
  rw [Ardop.copyPoly, entry_tabulate, if_pos inside]
  exact holds i inside

theorem Holds.mulZPoly {array : List UInt8} {p : GaloisByte[X]}
    (holds : Holds npar array p) : Holds npar (mulZPoly npar array) (X * p) := by
  intro i inside
  rw [Ardop.mulZPoly, entry_tabulate, if_pos inside]
  cases i with
  | zero => rw [if_neg (Nat.lt_irrefl 0), coeff_X_mul_zero, symbol_zero]
  | succ i =>
      rw [if_pos (Nat.succ_pos i), coeff_X_mul]
      exact holds i (Nat.lt_of_succ_lt inside)

/-- A loop that adds a multiple of another polynomial. -/
theorem Holds.add_multiple {array other : List UInt8} {p q : GaloisByte[X]}
    (holds : Holds npar array p) (otherHolds : Holds npar other q) (d : UInt8) :
    Holds npar
      (tabulate (npar * 2) fun i => array.getD i 0 ^^^ gmult d (other.getD i 0))
      (p + C (symbol d) * q) := by
  intro i inside
  rw [entry_tabulate, if_pos inside, symbol_xor, symbol_gmult, coeff_add,
    coeff_C_mul, ← holds i inside, ← otherHolds i inside]
  rfl

/-- A loop that multiplies by a constant from the right. -/
theorem Holds.multiple {array : List UInt8} {p : GaloisByte[X]}
    (holds : Holds npar array p) (d : UInt8) :
    Holds npar (tabulate (npar * 2) fun i => gmult (array.getD i 0) d)
      (C (symbol d) * p) := by
  intro i inside
  rw [entry_tabulate, if_pos inside, symbol_gmult, coeff_C_mul, ← holds i inside,
    mul_comm]
  rfl

/-- The array in front of a loop that begins with one. -/
theorem holds_one : Holds npar ((zeroPoly npar).set 0 1) 1 := by
  intro i inside
  rw [entry_set, zeroPoly, length_tabulate, entry_tabulate, coeff_one, if_pos inside]
  cases i with
  | zero => rw [if_pos ⟨rfl, inside⟩, if_pos rfl, symbol_one]
  | succ i => rw [if_neg (by omega), if_neg (Nat.succ_ne_zero i), symbol_zero]

/-! ## Products -/

theorem entry_multPolysRound (p1 p2 dst : List UInt8) (i : Nat) {k : Nat}
    (inside : k < npar * 2) :
    entry (multPolysRound npar p1 p2 dst i) k =
      entry dst k + if i ≤ k then entry p1 i * entry p2 (k - i) else 0 := by
  have within : k < npar * 2 * 2 := by omega
  rw [multPolysRound, entry_tabulate, if_pos within, symbol_xor]
  congr 1
  change entry (tabulate _ _) k = _
  rw [entry_tabulate, if_pos within]
  split
  · change entry (tabulate _ _) (k - i) = _
    rw [entry_tabulate, if_pos (by omega), if_pos (by omega), symbol_gmult,
      mul_comm]
    rfl
  · rfl

theorem length_multPolys (p1 p2 : List UInt8) :
    (multPolys npar p1 p2).length = npar * 2 * 2 := by
  have rounds : ∀ (indices : List Nat) (dst : List UInt8),
      dst.length = npar * 2 * 2 →
        (indices.foldl (multPolysRound npar p1 p2) dst).length = npar * 2 * 2 := by
    intro indices
    induction indices with
    | nil => exact fun _ same => same
    | cons i rest inductionHypothesis =>
        exact fun dst _ => inductionHypothesis _ (length_tabulate _ _)
  exact rounds _ _ (length_tabulate _ _)

/-- `mult_polys` multiplies. -/
theorem entry_multPolys (p1 p2 : List UInt8) {k : Nat} (inside : k < npar * 2) :
    entry (multPolys npar p1 p2) k =
      ∑ i ∈ Finset.range (k + 1), entry p1 i * entry p2 (k - i) := by
  have rounds : ∀ count, entry ((List.range count).foldl
      (multPolysRound npar p1 p2) (tabulate (npar * 2 * 2) fun _ => 0)) k =
        ∑ i ∈ Finset.range count,
          if i ≤ k then entry p1 i * entry p2 (k - i) else 0 := by
    intro count
    induction count with
    | zero =>
        rw [List.range_zero, List.foldl_nil, entry_tabulate, symbol_zero, ite_self,
          Finset.sum_range_zero]
    | succ count inductionHypothesis =>
        rw [List.range_succ, List.foldl_append, List.foldl_cons, List.foldl_nil,
          entry_multPolysRound _ _ _ _ inside, inductionHypothesis,
          Finset.sum_range_succ]
  rw [multPolys, rounds, ← Finset.sum_filter]
  apply Finset.sum_congr
  · ext i
    rw [Finset.mem_filter, Finset.mem_range, Finset.mem_range]
    omega
  · intro i _
    rfl

theorem Holds.multPolys {p1 p2 : List UInt8} {p q : GaloisByte[X]}
    (first : Holds npar p1 p) (second : Holds npar p2 q) :
    Holds npar (multPolys npar p1 p2) (p * q) := by
  intro k inside
  rw [entry_multPolys p1 p2 inside, coeff_mul,
    Finset.Nat.sum_antidiagonal_eq_sum_range_succ_mk]
  apply Finset.sum_congr rfl
  intro i among
  rw [Finset.mem_range] at among
  rw [first i (by omega), second (k - i) (by omega)]

/-! ## The generator -/

/-- The product of the linear factors at the first powers. -/
noncomputable def generator (npar : Nat) : GaloisByte[X] :=
  ∏ i ∈ Finset.range npar, (X - C (alpha ^ (i + 1)))

theorem monic_generator (npar : Nat) : (generator npar).Monic :=
  monic_prod_of_monic _ _ fun i _ => monic_X_sub_C (alpha ^ (i + 1))

theorem natDegree_generator (npar : Nat) : (generator npar).natDegree = npar := by
  rw [generator, natDegree_prod_of_monic _ _ fun i _ => monic_X_sub_C _]
  simp only [natDegree_X_sub_C, Finset.sum_const, Finset.card_range, smul_eq_mul,
    mul_one]

theorem generator_succ (npar : Nat) :
    generator (npar + 1) = (X - C (alpha ^ (npar + 1))) * generator npar := by
  rw [generator, Finset.prod_range_succ, mul_comm]
  rfl

/-- What one round of `compute_genpoly` multiplies with. -/
theorem holds_linear {i : Nat} (inside : i < 511) :
    Holds npar (((zeroPoly npar).set 0 (gexp i)).set 1 1) (X - C (alpha ^ i)) := by
  intro place within
  rw [entry_set, entry_set, List.length_set, zeroPoly, length_tabulate,
    entry_tabulate, CharTwo.sub_eq_add, coeff_add, coeff_X, coeff_C]
  rcases place with _ | _ | place
  · rw [if_neg (fun both => absurd both.1 (by decide)), if_pos ⟨rfl, within⟩,
      if_neg (by decide), if_pos rfl, zero_add, symbol_gexp_eq_pow inside]
  · rw [if_pos ⟨rfl, within⟩, if_pos rfl, if_neg (by decide), add_zero, symbol_one]
  · rw [if_neg (by omega), if_neg (by omega), if_pos within, if_neg (by omega),
      if_neg (by omega), symbol_zero, add_zero]

/-- `compute_genpoly` computes the generator. -/
theorem holds_computeGenpoly (positive : 0 < npar) (small : npar ≤ 255)
    (genpoly : List UInt8) :
    Holds npar (computeGenpoly npar genpoly) (generator npar) := by
  have rounds : ∀ count ≤ npar,
      Holds npar ((List.range' 1 count).foldl (computeGenpolyRound npar)
          (genpoly, (zeroPoly npar).set 0 1)).2 (generator count) ∧
        (0 < count → Holds npar
          ((List.range' 1 count).foldl (computeGenpolyRound npar)
            (genpoly, (zeroPoly npar).set 0 1)).1 (generator count)) := by
    intro count
    induction count with
    | zero =>
        intro _
        exact ⟨holds_one, fun none => absurd none (Nat.lt_irrefl 0)⟩
    | succ count inductionHypothesis =>
        intro within
        have earlier := (inductionHypothesis (Nat.le_of_succ_le within)).1
        have product := (holds_linear
          (show 1 + count < 511 by omega)).multPolys earlier
        rw [Nat.add_comm 1 count, ← generator_succ] at product
        have written : ∀ array : List UInt8, Holds npar
            (overwrite array (multPolys npar
              (((zeroPoly npar).set 0 (gexp (count + 1))).set 1 1)
              ((List.range' 1 count).foldl (computeGenpolyRound npar)
                (genpoly, (zeroPoly npar).set 0 1)).2)) (generator (count + 1)) := by
          intro array i inside
          rw [entry_overwrite, if_pos]
          · exact product i inside
          · rw [length_multPolys]
            omega
        rw [List.range'_1_concat, List.foldl_append, List.foldl_cons,
          List.foldl_nil, Nat.add_comm 1 count]
        exact ⟨(written _).copyPoly, fun _ => written _⟩
  exact (rounds npar (Nat.le_refl npar)).2 positive

end Ardop
end Hamchat
