import Mathlib.RingTheory.ZMod.UnitsCyclic
import Mathlib.Data.Fintype.EquivFin

/-!
# Probe sequences that visit every index

The map `i ↦ 5 * i + 1` permutes the residues of a power of two in one single
cycle.  A sequence that follows this map up to a perturbation which dies out
after finitely many steps therefore visits every residue, and does so within
one period after the perturbation has vanished.
-/

namespace Hamchat
namespace Foundation

/-- One step of the unperturbed affine recurrence. -/
def affineStep (modulus index : Nat) : Nat :=
  (5 * index + 1) % modulus

/-- Scaling by four turns the affine recurrence into multiplication by five. -/
theorem four_mul_iterate_affineStep
    (modulus index count : Nat) :
    4 * (affineStep modulus)^[count] index + 1 ≡
      5 ^ count * (4 * index + 1) [MOD 4 * modulus] := by
  induction count with
  | zero => simp [Nat.ModEq.refl]
  | succ count inductionHypothesis =>
      rw [Function.iterate_succ_apply']
      set current := (affineStep modulus)^[count] index
      have reduced : 4 * affineStep modulus current + 1 ≡
          4 * (5 * current + 1) + 1 [MOD 4 * modulus] :=
        ((Nat.mod_modEq _ _).mul_left' 4).add_right 1
      calc 4 * affineStep modulus current + 1
          ≡ 4 * (5 * current + 1) + 1 [MOD 4 * modulus] := reduced
        _ = 5 * (4 * current + 1) := by ring
        _ ≡ 5 * (5 ^ count * (4 * index + 1)) [MOD 4 * modulus] :=
            inductionHypothesis.mul_left 5
        _ = 5 ^ (count + 1) * (4 * index + 1) := by ring

/-- Five as a unit modulo a power of two. -/
def fiveUnit (exponent : Nat) : (ZMod (2 ^ exponent))ˣ :=
  ZMod.unitOfCoprime 5 (Nat.Coprime.pow_right exponent (by decide))

/-- Powers of five modulo `2 ^ (exponent + 2)` repeat with period
`2 ^ exponent`. -/
theorem modEq_of_five_pow_modEq
    {exponent first second : Nat}
    (equal : 5 ^ first ≡ 5 ^ second [MOD 2 ^ (exponent + 2)]) :
    first ≡ second [MOD 2 ^ exponent] := by
  have order : orderOf (fiveUnit (exponent + 2)) = 2 ^ exponent := by
    rw [← orderOf_units, fiveUnit, ZMod.coe_unitOfCoprime]
    exact_mod_cast ZMod.orderOf_five exponent
  have units : fiveUnit (exponent + 2) ^ first =
      fiveUnit (exponent + 2) ^ second := by
    apply Units.ext
    simp only [Units.val_pow_eq_pow_val, fiveUnit, ZMod.coe_unitOfCoprime]
    exact_mod_cast (ZMod.natCast_eq_natCast_iff _ _ _).mpr equal
  rw [← order]
  exact pow_eq_pow_iff_modEq.mp units

/-- Within one period the affine recurrence does not revisit an index. -/
theorem iterate_affineStep_injOn
    {exponent index first second : Nat}
    (firstBound : first < 2 ^ exponent)
    (secondBound : second < 2 ^ exponent)
    (equal : (affineStep (2 ^ exponent))^[first] index =
      (affineStep (2 ^ exponent))^[second] index) :
    first = second := by
  have modulus : 4 * 2 ^ exponent = 2 ^ (exponent + 2) := by ring
  have scaledFirst := four_mul_iterate_affineStep (2 ^ exponent) index first
  have scaledSecond := four_mul_iterate_affineStep (2 ^ exponent) index second
  rw [equal] at scaledFirst
  rw [modulus] at scaledFirst scaledSecond
  have scaled : 5 ^ first * (4 * index + 1) ≡
      5 ^ second * (4 * index + 1) [MOD 2 ^ (exponent + 2)] :=
    scaledFirst.symm.trans scaledSecond
  have odd : Nat.Coprime (2 ^ (exponent + 2)) (4 * index + 1) := by
    apply Nat.Coprime.pow_left
    rw [Nat.coprime_two_left]
    exact ⟨2 * index, by ring⟩
  have powers := Nat.ModEq.cancel_right_of_coprime odd scaled
  have residues := modEq_of_five_pow_modEq powers
  rw [Nat.ModEq, Nat.mod_eq_of_lt firstBound,
    Nat.mod_eq_of_lt secondBound] at residues
  exact residues

/-- The affine recurrence reaches every residue within one period. -/
theorem exists_iterate_affineStep_eq
    {exponent start target : Nat}
    (startBound : start < 2 ^ exponent)
    (targetBound : target < 2 ^ exponent) :
    ∃ count < 2 ^ exponent,
      (affineStep (2 ^ exponent))^[count] start = target := by
  have bounded (count : Nat) :
      (affineStep (2 ^ exponent))^[count] start < 2 ^ exponent := by
    cases count with
    | zero => exact startBound
    | succ count =>
        rw [Function.iterate_succ_apply']
        exact Nat.mod_lt _ (Nat.two_pow_pos exponent)
  let visit (count : Fin (2 ^ exponent)) : Fin (2 ^ exponent) :=
    ⟨(affineStep (2 ^ exponent))^[count.val] start, bounded count⟩
  have injective : Function.Injective visit := by
    intro first second equal
    exact Fin.ext (iterate_affineStep_injOn first.isLt second.isLt
      (congrArg Fin.val equal))
  obtain ⟨count, reached⟩ :=
    Finite.injective_iff_surjective.mp injective ⟨target, targetBound⟩
  exact ⟨count, count.isLt, congrArg Fin.val reached⟩

/-- A perturbed affine sequence whose perturbation vanishes from `settled` on
visits every index before `settled + 2 ^ exponent` steps. -/
theorem exists_perturbed_eq
    (perturbation : Nat → Nat)
    {exponent settled target : Nat}
    {path : Nat → Nat}
    (startBound : path 0 < 2 ^ exponent)
    (step : ∀ count, path (count + 1) =
      (5 * path count + perturbation count + 1) % 2 ^ exponent)
    (vanishes : ∀ count, settled ≤ count → perturbation count = 0)
    (targetBound : target < 2 ^ exponent) :
    ∃ count < settled + 2 ^ exponent, path count = target := by
  have settledBound : path settled < 2 ^ exponent := by
    cases settled with
    | zero => exact startBound
    | succ settled =>
        rw [step]
        exact Nat.mod_lt _ (Nat.two_pow_pos exponent)
  have tail (count : Nat) :
      path (settled + count) =
        (affineStep (2 ^ exponent))^[count] (path settled) := by
    induction count with
    | zero => rfl
    | succ count inductionHypothesis =>
        rw [← Nat.add_assoc, step, vanishes _ (Nat.le_add_right _ _),
          inductionHypothesis, Function.iterate_succ_apply']
        rfl
  obtain ⟨count, countBound, reached⟩ :=
    exists_iterate_affineStep_eq settledBound targetBound
  exact ⟨settled + count, by omega, by rw [tail, reached]⟩

end Foundation
end Hamchat
