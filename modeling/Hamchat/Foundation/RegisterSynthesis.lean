import Mathlib.RingTheory.PowerSeries.Basic

/-!
# The shortest feedback register of a sequence

A register with feedback continues a sequence by a fixed combination of its last
symbols, and its connection polynomial holds the coefficients.  The registers
are built symbol by symbol: one that fails at a symbol is corrected by an older
one that has failed before.  No register that is shorter than the one that is
built produces the same symbols.
-/

namespace Hamchat
namespace Foundation

open Polynomial
open scoped PowerSeries

variable {F : Type*} [Field F]

/-- A register of some length with this connection polynomial produces the
symbols of a sequence in front of a bound. -/
structure Produces (sequence : F⟦X⟧) (bound : Nat) (connection : F[X])
    (length : Nat) : Prop where
  /-- The symbol itself enters the recurrence once. -/
  constant : connection.coeff 0 = 1
  /-- The register is long enough for its connections. -/
  short : connection.natDegree ≤ length
  /-- The recurrence. -/
  recurrence : ∀ index, length ≤ index → index < bound →
    PowerSeries.coeff index (connection * sequence : F⟦X⟧) = 0

/-- What a register gets wrong at an index. -/
noncomputable def discrepancy (sequence : F⟦X⟧) (connection : F[X])
    (index : Nat) : F :=
  PowerSeries.coeff index (connection * sequence : F⟦X⟧)

section Coefficients

variable {sequence : F⟦X⟧} {connection : F[X]} {length index : Nat}

/-- A coefficient of a product takes the symbols back to the length of the
register. -/
theorem coeff_mul_eq_sum (short : connection.natDegree ≤ length)
    (inside : length ≤ index) :
    PowerSeries.coeff index (connection * sequence : F⟦X⟧) =
      ∑ back ∈ Finset.range (length + 1),
        connection.coeff back * PowerSeries.coeff (index - back) sequence := by
  rw [PowerSeries.coeff_mul, Finset.Nat.sum_antidiagonal_eq_sum_range_succ_mk]
  symm
  apply Finset.sum_subset_zero_on_sdiff
  · exact Finset.range_mono (Nat.succ_le_succ inside)
  · intro back outside
    rw [Finset.mem_sdiff, Finset.mem_range, Finset.mem_range] at outside
    dsimp only
    rw [Polynomial.coeff_coe,
      coeff_eq_zero_of_natDegree_lt (Nat.lt_of_le_of_lt short (by omega)),
      zero_mul]
  · intro back _
    rw [Polynomial.coeff_coe]

theorem coeff_X_mul_mul (connection : F[X]) (sequence : F⟦X⟧) (index : Nat) :
    PowerSeries.coeff (index + 1) (((X * connection : F[X]) : F⟦X⟧) * sequence) =
      PowerSeries.coeff index (connection * sequence : F⟦X⟧) := by
  rw [Polynomial.coe_mul, Polynomial.coe_X, mul_assoc,
    PowerSeries.coeff_succ_X_mul]

theorem coeff_C_mul_mul (scale : F) (connection : F[X]) (sequence : F⟦X⟧)
    (index : Nat) :
    PowerSeries.coeff index (((C scale * connection : F[X]) : F⟦X⟧) * sequence) =
      scale * PowerSeries.coeff index (connection * sequence : F⟦X⟧) := by
  rw [Polynomial.coe_mul, Polynomial.coe_C, mul_assoc, PowerSeries.coeff_C_mul]

theorem coeff_sub_mul (first second : F[X]) (sequence : F⟦X⟧) (index : Nat) :
    PowerSeries.coeff index (((first - second : F[X]) : F⟦X⟧) * sequence) =
      PowerSeries.coeff index (first * sequence : F⟦X⟧) -
        PowerSeries.coeff index (second * sequence : F⟦X⟧) := by
  rw [Polynomial.coe_sub, sub_mul, map_sub]

end Coefficients

theorem Produces.of_succ {sequence : F⟦X⟧} {bound length : Nat}
    {connection : F[X]}
    (produces : Produces sequence (bound + 1) connection length) :
    Produces sequence bound connection length where
  constant := produces.constant
  short := produces.short
  recurrence index inside before :=
    produces.recurrence index inside (Nat.lt_succ_of_lt before)

/-- A register that produces more symbols than another one, which fails at the
first of them, is so long that both lengths together pass the index of the
failure. -/
theorem Produces.lt_add_of_discrepancy {sequence : F⟦X⟧} {bound length
    otherLength : Nat} {connection other : F[X]}
    (produces : Produces sequence bound connection length)
    (fails : discrepancy sequence connection bound ≠ 0)
    (otherProduces : Produces sequence (bound + 1) other otherLength) :
    bound < length + otherLength := by
  by_contra! within
  -- The product with both connection polynomials, in the two orders.
  have first : PowerSeries.coeff bound
      (other * (connection * sequence) : F⟦X⟧) =
        discrepancy sequence connection bound := by
    rw [coeff_mul_eq_sum otherProduces.short (by omega),
      Finset.sum_eq_single_of_mem 0 (by simp)]
    · rw [otherProduces.constant, one_mul, Nat.sub_zero, discrepancy]
    · intro back inside positive
      rw [Finset.mem_range] at inside
      rw [produces.recurrence _ (by omega) (by omega), mul_zero]
  have second : PowerSeries.coeff bound
      (connection * (other * sequence) : F⟦X⟧) = 0 := by
    rw [coeff_mul_eq_sum produces.short (by omega)]
    apply Finset.sum_eq_zero
    intro back inside
    rw [Finset.mem_range] at inside
    rw [otherProduces.recurrence _ (by omega) (by omega), mul_zero]
  apply fails
  rw [← first, mul_left_comm, second]

/-- A shortest register, and the older one that corrects it when it fails. -/
structure Synthesis (sequence : F⟦X⟧) (bound : Nat)
    (connection correction : F[X]) (length : Nat) : Prop where
  /-- The register works so far. -/
  produces : Produces sequence bound connection length
  /-- It takes no symbols from in front of the sequence. -/
  length_le : length ≤ bound
  /-- No shorter register works as well. -/
  shortest : ∀ other otherLength,
    Produces sequence bound other otherLength → length ≤ otherLength
  /-- The correction keeps the constant. -/
  constant : correction.coeff 0 = 0
  /-- The correction does not need a longer register than a failure makes. -/
  short : correction.natDegree ≤ bound + 1 - length
  /-- The correction keeps what is right. -/
  keeps : ∀ index, bound + 1 - length ≤ index → index < bound →
    PowerSeries.coeff index (correction * sequence : F⟦X⟧) = 0
  /-- The correction changes the next symbol. -/
  corrects : 0 < length → discrepancy sequence correction bound = 1

namespace Synthesis

variable {sequence : F⟦X⟧} {bound length : Nat} {connection correction : F[X]}

/-- In front of the first symbol. -/
theorem start (sequence : F⟦X⟧) : Synthesis sequence 0 1 X 0 where
  produces :=
    { constant := coeff_one_zero
      short := by simp
      recurrence := fun _ _ none => absurd none (Nat.not_lt_zero _) }
  length_le := Nat.le_refl 0
  shortest _ _ _ := Nat.zero_le _
  constant := coeff_X_zero
  short := natDegree_X_le
  keeps _ _ none := absurd none (Nat.not_lt_zero _)
  corrects positive := absurd positive (Nat.lt_irrefl 0)

/-- A correction is worth a factor `X` more at the next symbol. -/
theorem shift (synthesis : Synthesis sequence bound connection correction length)
    {next : F[X]} (produces : Produces sequence (bound + 1) next length) :
    Synthesis sequence (bound + 1) next (X * correction) length where
  produces := produces
  length_le := Nat.le_succ_of_le synthesis.length_le
  shortest other otherLength works :=
    synthesis.shortest other otherLength (Produces.of_succ works)
  constant := by rw [mul_comm, coeff_mul_X_zero]
  short := by
    have inside := synthesis.length_le
    calc (X * correction).natDegree
        ≤ X.natDegree + correction.natDegree := natDegree_mul_le
      _ ≤ 1 + (bound + 1 - length) :=
          Nat.add_le_add natDegree_X_le synthesis.short
      _ = bound + 1 + 1 - length := by omega
  keeps index inside before := by
    obtain ⟨index, rfl⟩ := Nat.exists_eq_succ_of_ne_zero
      (show index ≠ 0 by have := synthesis.length_le; omega)
    rw [coeff_X_mul_mul]
    exact synthesis.keeps index (by omega) (by omega)
  corrects positive := by
    rw [discrepancy, coeff_X_mul_mul]
    exact synthesis.corrects positive

/-- A register that is right at the next symbol stays. -/
theorem of_right (synthesis : Synthesis sequence bound connection correction length)
    (right : discrepancy sequence connection bound = 0) :
    Synthesis sequence (bound + 1) connection (X * correction) length := by
  refine synthesis.shift
    ⟨synthesis.produces.constant, synthesis.produces.short, ?_⟩
  intro index inside before
  rcases Nat.lt_succ_iff_lt_or_eq.mp before with earlier | rfl
  · exact synthesis.produces.recurrence index inside earlier
  · exact right

/-- The corrected register, of a length that suffices for the correction. -/
theorem produces_corrected
    (synthesis : Synthesis sequence bound connection correction length)
    {longer : Nat} (enough : length ≤ longer)
    (room : bound + 1 - length ≤ longer) :
    Produces sequence (bound + 1)
      (connection - C (discrepancy sequence connection bound) * correction)
      longer where
  constant := by
    rw [coeff_sub, coeff_C_mul, synthesis.constant, mul_zero, sub_zero]
    exact synthesis.produces.constant
  short := by
    refine (natDegree_sub_le _ _).trans (Nat.max_le.mpr ⟨?_, ?_⟩)
    · exact synthesis.produces.short.trans enough
    · exact ((natDegree_C_mul_le _ _).trans synthesis.short).trans room
  recurrence index inside before := by
    rw [coeff_sub_mul, coeff_C_mul_mul]
    rcases Nat.lt_succ_iff_lt_or_eq.mp before with earlier | rfl
    · rw [synthesis.produces.recurrence index (by omega) earlier,
        synthesis.keeps index (by omega) earlier, mul_zero, sub_zero]
    · have one := synthesis.corrects (by omega)
      rw [discrepancy] at one ⊢
      rw [one, mul_one, sub_self]

/-- A register that is wrong and long enough is corrected. -/
theorem of_long (synthesis : Synthesis sequence bound connection correction length)
    (long : bound < 2 * length) :
    Synthesis sequence (bound + 1)
      (connection - C (discrepancy sequence connection bound) * correction)
      (X * correction) length :=
  synthesis.shift
    (synthesis.produces_corrected (Nat.le_refl _) (by omega))

/-- A register that is wrong and too short is corrected and becomes longer, and
what it was becomes the correction. -/
theorem of_short (synthesis : Synthesis sequence bound connection correction length)
    (wrong : discrepancy sequence connection bound ≠ 0)
    (tooShort : 2 * length ≤ bound) :
    Synthesis sequence (bound + 1)
      (connection - C (discrepancy sequence connection bound) * correction)
      (X * (C (discrepancy sequence connection bound)⁻¹ * connection))
      (bound + 1 - length) where
  produces := synthesis.produces_corrected (by omega) (Nat.le_refl _)
  length_le := Nat.sub_le _ _
  shortest other otherLength works := by
    have passes := synthesis.produces.lt_add_of_discrepancy wrong works
    omega
  constant := by rw [mul_comm, coeff_mul_X_zero]
  short := by
    calc (X * (C (discrepancy sequence connection bound)⁻¹ *
            connection)).natDegree
        ≤ X.natDegree + (C (discrepancy sequence connection bound)⁻¹ *
            connection).natDegree := natDegree_mul_le
      _ ≤ 1 + length := Nat.add_le_add natDegree_X_le
          ((natDegree_C_mul_le _ _).trans synthesis.produces.short)
      _ = bound + 1 + 1 - (bound + 1 - length) := by
          have inside := synthesis.length_le
          omega
  keeps index inside before := by
    have longEnough := synthesis.length_le
    obtain ⟨index, rfl⟩ :=
      Nat.exists_eq_succ_of_ne_zero (show index ≠ 0 by omega)
    rw [coeff_X_mul_mul, coeff_C_mul_mul,
      synthesis.produces.recurrence index (by omega) (by omega), mul_zero]
  corrects _ := by
    rw [discrepancy, coeff_X_mul_mul, coeff_C_mul_mul]
    exact inv_mul_cancel₀ wrong

end Synthesis

end Foundation
end Hamchat
