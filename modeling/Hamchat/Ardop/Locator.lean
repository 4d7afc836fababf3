import Hamchat.Ardop.Arrays
import Hamchat.Foundation.ErrorLocator

/-!
# The search for the error locator

The loop of `Modified_Berlekamp_Massey` builds a shortest register for the
syndromes, one syndrome a round: `psi` is its connection polynomial, `D` the
correction for the next failure, and `k` follows the length `L`.
-/

namespace Hamchat
namespace Ardop

open Foundation Polynomial
open scoped PowerSeries

variable {npar : Nat} {sequence : GaloisByte⟦X⟧} {synBytes : List UInt8}

/-- The variables of the loop hold a register for the symbols in front of a
bound. -/
structure Massey.Builds (npar : Nat) (sequence : GaloisByte⟦X⟧) (bound : Nat)
    (state : Massey) (connection correction : GaloisByte[X]) (length : Nat) :
    Prop where
  synthesis : Synthesis sequence bound connection correction length
  psi : Holds npar state.psi connection
  D : Holds npar state.D correction
  L : state.L = length
  k : state.k = length - 1

/-- The syndromes are the first symbols of a sequence. -/
def AreSyndromes (npar : Nat) (synBytes : List UInt8)
    (sequence : GaloisByte⟦X⟧) : Prop :=
  ∀ j < npar, entry synBytes j = PowerSeries.coeff j sequence

section Round

variable {bound length : Nat} {state : Massey} {connection correction : GaloisByte[X]}

/-- `compute_discrepancy` computes what the register gets wrong. -/
theorem Massey.Builds.symbol_discrepancy
    (builds : state.Builds npar sequence bound connection correction length)
    (syndromes : AreSyndromes npar synBytes sequence) (inside : bound < npar) :
    symbol (computeDiscrepancy state.psi synBytes state.L bound) =
      discrepancy sequence connection bound := by
  have within := builds.synthesis.length_le
  have count : (state.L + 1).toNat = length + 1 := by
    rw [builds.L]
    rfl
  rw [computeDiscrepancy, symbol_xorLoop, count, discrepancy,
    coeff_mul_eq_sum builds.synthesis.produces.short within]
  apply Finset.sum_congr rfl
  intro back among
  rw [Finset.mem_range] at among
  rw [symbol_gmult, ← builds.psi back (by omega), ← syndromes (bound - back) (by omega)]
  rfl

/-- One round takes one more syndrome. -/
theorem Massey.Builds.masseyRound
    (builds : state.Builds npar sequence bound connection correction length)
    (syndromes : AreSyndromes npar synBytes sequence) (inside : bound < npar) :
    ∃ connection' correction' length',
      (masseyRound npar synBytes state bound).Builds npar sequence (bound + 1)
        connection' correction' length' := by
  have discrepancy_eq := builds.symbol_discrepancy syndromes inside
  have L_eq := builds.L
  have k_eq := builds.k
  have within := builds.synthesis.length_le
  set d := computeDiscrepancy state.psi synBytes state.L bound with d_eq
  by_cases right : d = 0
  · -- The register is right.
    refine ⟨connection, X * correction, length, ?_⟩
    rw [Ardop.masseyRound, ← d_eq, if_neg (not_not.mpr right)]
    have none : discrepancy sequence connection bound = 0 := by
      rw [← discrepancy_eq, right, symbol_zero]
    exact
      { synthesis := builds.synthesis.of_right none
        psi := builds.psi
        D := builds.D.mulZPoly
        L := L_eq
        k := k_eq }
  · have wrong : discrepancy sequence connection bound ≠ 0 := by
      rw [← discrepancy_eq, Ne, symbol_eq_zero_iff]
      exact right
    have corrected := builds.psi.add_multiple builds.D d
    rw [discrepancy_eq, ← CharTwo.sub_eq_add] at corrected
    by_cases tooShort : state.L < bound - state.k
    · -- The register becomes longer.
      refine ⟨connection - C (discrepancy sequence connection bound) * correction,
        X * (C (discrepancy sequence connection bound)⁻¹ * connection),
        bound + 1 - length, ?_⟩
      rw [Ardop.masseyRound, ← d_eq, if_pos right, if_pos tooShort]
      have scaled := builds.psi.multiple (ginv d)
      rw [symbol_ginv right, discrepancy_eq] at scaled
      exact
        { synthesis := builds.synthesis.of_short wrong (by omega)
          psi := corrected
          D := scaled.mulZPoly
          L := by dsimp only; omega
          k := by dsimp only; omega }
    · -- The register keeps its length.
      refine ⟨connection - C (discrepancy sequence connection bound) * correction,
        X * correction, length, ?_⟩
      rw [Ardop.masseyRound, ← d_eq, if_pos right, if_neg tooShort]
      exact
        { synthesis := builds.synthesis.of_long (by omega)
          psi := corrected
          D := builds.D.mulZPoly
          L := L_eq
          k := k_eq }

end Round

/-- The polynomial `Lambda` connects a shortest register for the syndromes. -/
theorem exists_synthesis_modifiedBerlekampMassey
    (syndromes : AreSyndromes npar synBytes sequence) :
    ∃ connection correction length,
      Synthesis sequence npar connection correction length ∧
        Holds npar (modifiedBerlekampMassey npar synBytes []) connection := by
  have rounds : ∀ count ≤ npar, ∃ connection correction length,
      ((List.range' 0 count).foldl (masseyRound npar synBytes)
        { psi := copyPoly npar (initGamma npar [])
          D := mulZPoly npar (copyPoly npar (initGamma npar []))
          L := 0
          k := -1 }).Builds npar sequence count connection correction length := by
    intro count
    induction count with
    | zero =>
        intro _
        have one : Holds npar (copyPoly npar (initGamma npar [])) 1 :=
          holds_one.copyPoly
        refine ⟨1, X, 0, ?_⟩
        exact
          { synthesis := Synthesis.start sequence
            psi := one
            D := by
              have shifted := one.mulZPoly
              rwa [mul_one] at shifted
            L := rfl
            k := rfl }
    | succ count inductionHypothesis =>
        intro within
        obtain ⟨connection, correction, length, builds⟩ :=
          inductionHypothesis (Nat.le_of_succ_le within)
        rw [List.range'_concat, List.foldl_append, List.foldl_cons, List.foldl_nil,
          Nat.zero_add, Nat.one_mul]
        exact builds.masseyRound syndromes within
  obtain ⟨connection, correction, length, builds⟩ := rounds npar (Nat.le_refl npar)
  exact ⟨connection, correction, length, builds.synthesis, builds.psi⟩

/-! ## The locator of few errors -/

section Errors

variable {ι : Type} [DecidableEq ι] {errors : Finset ι} {location value : ι → GaloisByte}

/-- With few errors, `Lambda` is their locator. -/
theorem holds_modifiedBerlekampMassey
    (sums : AreSyndromes npar synBytes (syndromes errors location value))
    (few : 2 * errors.card ≤ npar)
    (nonzero : ∀ error ∈ errors, location error ≠ 0)
    (distinct : Set.InjOn location errors)
    (real : ∀ error ∈ errors, value error ≠ 0) :
    Holds npar (modifiedBerlekampMassey npar synBytes [])
      (errorLocator errors location) := by
  obtain ⟨connection, correction, length, synthesis, holds⟩ :=
    exists_synthesis_modifiedBerlekampMassey sums
  rwa [synthesis.eq_errorLocator few nonzero distinct real] at holds

/-- `Omega` is the evaluator. -/
theorem holds_computeModifiedOmega {lambda : List UInt8}
    (sums : AreSyndromes npar synBytes (syndromes errors location value))
    (few : 2 * errors.card ≤ npar) (some : errors.Nonempty)
    (holds : Holds npar lambda (errorLocator errors location)) :
    Holds npar (computeModifiedOmega npar lambda synBytes)
      (errorEvaluator errors location value) := by
  intro i inside
  have positive := Finset.card_pos.mpr some
  rw [computeModifiedOmega, entry_tabulate, if_pos inside]
  split
  · next within =>
      change entry (multPolys npar lambda synBytes) i = _
      rw [entry_multPolys lambda synBytes inside, ← Polynomial.coeff_coe,
        ← errorLocator_mul_syndromes, PowerSeries.coeff_mul,
        Finset.Nat.sum_antidiagonal_eq_sum_range_succ_mk]
      apply Finset.sum_congr rfl
      intro split among
      rw [Finset.mem_range] at among
      rw [holds split (by omega), sums (i - split) (by omega), Polynomial.coeff_coe]
  · rw [symbol_zero]
    symm
    apply coeff_eq_zero_of_natDegree_lt
    have short : (errorEvaluator errors location value).natDegree < errors.card :=
      natDegree_errorEvaluator_lt some
    omega

end Errors

end Ardop
end Hamchat
