import Hamchat.Crc
import Hamchat.Foundation.PowerTable
import Mathlib.Algebra.CharP.Two
import Mathlib.Data.List.Iterate
import Mathlib.GroupTheory.OrderOfElement

/-!
# Arithmetic of the coder

`galois.c` of `src/ext/ardop1`.  A shift register of eight bits fills the table
of powers, the table of logarithms is searched in it, and bytes are multiplied
by the addition of their logarithms.  The bytes are a field, and the product is
the one of polynomials over the field with two elements, reduced by the
polynomial that the code names.
-/

namespace Hamchat
namespace Ardop

open Foundation Polynomial

/-- `p1` to `p8` of `init_exp_table`. -/
structure ExpBits where
  p1 : Bool
  p2 : Bool
  p3 : Bool
  p4 : Bool
  p5 : Bool
  p6 : Bool
  p7 : Bool
  p8 : Bool
  deriving DecidableEq

namespace ExpBits

/-- The bits in front of the first round. -/
def start : ExpBits :=
  ⟨true, false, false, false, false, false, false, false⟩

/-- One round of the first loop. -/
def round (bits : ExpBits) : ExpBits :=
  let pinit := bits.p8
  { p8 := bits.p7
    p7 := bits.p6
    p6 := bits.p5
    p5 := bits.p4 ^^ pinit
    p4 := bits.p3 ^^ pinit
    p3 := bits.p2 ^^ pinit
    p2 := bits.p1
    p1 := pinit }

/-- `p1 + p2*2 + p3*4 + p4*8 + p5*16 + p6*32 + p7*64 + p8*128` -/
def value (bits : ExpBits) : UInt8 :=
  UInt8.ofNat (bits.p1.toNat + bits.p2.toNat * 2 + bits.p3.toNat * 4 +
    bits.p4.toNat * 8 + bits.p5.toNat * 16 + bits.p6.toNat * 32 +
    bits.p7.toNat * 64 + bits.p8.toNat * 128)

end ExpBits

/-- `gexp[0]` to `gexp[255]`. -/
def gexpRounds : List UInt8 :=
  (List.iterate ExpBits.round ExpBits.start 256).map ExpBits.value

/-- The array `gexp` as `init_exp_table` leaves it: the powers but for the first
are stored twice, and the last entry is never written. -/
def gexpTable : List UInt8 :=
  gexpRounds ++ (gexpRounds.tail ++ [0])

/-- `gexp[index]` -/
def gexp (index : Nat) : UInt8 :=
  gexpTable.getD index 0

/-- The array `glog` as `init_exp_table` leaves it. -/
def glogTable : List Nat :=
  0 :: (List.range' 1 255).map fun i =>
    ((List.range 256).find? fun z => gexp z == UInt8.ofNat i).getD 0

/-- `glog[elt]` -/
def glog (elt : UInt8) : Nat :=
  glogTable.getD elt.toNat 0

/-- `gmult` -/
def gmult (a b : UInt8) : UInt8 :=
  if a = 0 ∨ b = 0 then 0 else gexp (glog a + glog b)

/-- `ginv` -/
def ginv (elt : UInt8) : UInt8 :=
  gexp (255 - glog elt)

/-! ## The register -/

namespace ExpBits

/-- The bits of a byte. -/
def ofByte (byte : UInt8) : ExpBits :=
  ⟨byte.toNat.testBit 0, byte.toNat.testBit 1, byte.toNat.testBit 2,
    byte.toNat.testBit 3, byte.toNat.testBit 4, byte.toNat.testBit 5,
    byte.toNat.testBit 6, byte.toNat.testBit 7⟩

/-- Exclusive or, bit by bit. -/
def xor (first second : ExpBits) : ExpBits :=
  ⟨first.p1 ^^ second.p1, first.p2 ^^ second.p2, first.p3 ^^ second.p3,
    first.p4 ^^ second.p4, first.p5 ^^ second.p5, first.p6 ^^ second.p6,
    first.p7 ^^ second.p7, first.p8 ^^ second.p8⟩

theorem ofByte_value (bits : ExpBits) : ofByte bits.value = bits := by
  obtain ⟨p1, p2, p3, p4, p5, p6, p7, p8⟩ := bits
  revert p1 p2 p3 p4 p5 p6 p7 p8
  decide +kernel

theorem value_ofByte (byte : UInt8) : (ofByte byte).value = byte := by
  have all : ∀ number < 256,
      (ofByte (UInt8.ofNat number)).value = UInt8.ofNat number := by
    decide +kernel
  simpa using all byte.toNat byte.toNat_lt

theorem ofByte_xor (first second : UInt8) :
    ofByte (first ^^^ second) = (ofByte first).xor (ofByte second) := by
  simp only [ofByte, xor, UInt8.toNat_xor, Nat.testBit_xor]

theorem value_xor (first second : ExpBits) :
    (first.xor second).value = first.value ^^^ second.value := by
  rw [← value_ofByte (first.value ^^^ second.value), ofByte_xor, ofByte_value,
    ofByte_value]

theorem round_xor (first second : ExpBits) :
    (first.xor second).round = first.round.xor second.round := by
  simp only [round, xor, ExpBits.mk.injEq, Bool.xor_assoc, true_and, and_true]
  simp only [Bool.xor_left_comm, and_self]

theorem round_period : round^[255] start = start := by
  decide +kernel

end ExpBits

/-- Multiplication by the element that the register starts the powers with. -/
def timesAlpha (byte : UInt8) : UInt8 :=
  (ExpBits.ofByte byte).round.value

theorem timesAlpha_xor (first second : UInt8) :
    timesAlpha (first ^^^ second) = timesAlpha first ^^^ timesAlpha second := by
  unfold timesAlpha
  rw [ExpBits.ofByte_xor, ExpBits.round_xor, ExpBits.value_xor]

theorem iterate_timesAlpha (count : Nat) (bits : ExpBits) :
    timesAlpha^[count] bits.value = (ExpBits.round^[count] bits).value := by
  induction count with
  | zero => rfl
  | succ count inductionHypothesis =>
      rw [Function.iterate_succ_apply', Function.iterate_succ_apply',
        inductionHypothesis, timesAlpha, ExpBits.ofByte_value]

/-! ## The tables -/

theorem length_gexpRounds : gexpRounds.length = 256 := by
  rw [gexpRounds, List.length_map, List.length_iterate]

theorem getElem?_gexpRounds {index : Nat} (inside : index < 256) :
    gexpRounds[index]? = some (timesAlpha^[index] 1) := by
  have one : (1 : UInt8) = ExpBits.start.value := rfl
  rw [one, iterate_timesAlpha, gexpRounds, List.getElem?_map,
    List.getElem?_iterate _ _ _ _ inside, Option.map_some]

theorem gexp_of_lt_256 {index : Nat} (inside : index < 256) :
    gexp index = timesAlpha^[index] 1 := by
  have within : index < gexpRounds.length := by rwa [length_gexpRounds]
  rw [gexp, gexpTable, List.getD_eq_getElem?_getD,
    List.getElem?_append_left within, getElem?_gexpRounds inside,
    Option.getD_some]

theorem gexp_add_255 {index : Nat} (positive : 0 < index) (inside : index < 256) :
    gexp (index + 255) = timesAlpha^[index] 1 := by
  obtain ⟨index, rfl⟩ := Nat.exists_eq_succ_of_ne_zero positive.ne'
  have place : index + 1 + 255 - 256 = index := by omega
  have beyond : gexpRounds.length ≤ index + 1 + 255 := by
    rw [length_gexpRounds]
    omega
  have within : index < gexpRounds.tail.length := by
    rw [List.length_tail, length_gexpRounds]
    omega
  rw [gexp, gexpTable, List.getD_eq_getElem?_getD,
    List.getElem?_append_right beyond, length_gexpRounds, place,
    List.getElem?_append_left within, List.getElem?_tail,
    getElem?_gexpRounds inside, Option.getD_some]

theorem timesAlpha_period : timesAlpha^[255] 1 = 1 := by
  have one : (1 : UInt8) = ExpBits.start.value := rfl
  rw [one, iterate_timesAlpha, ExpBits.round_period]

/-- The table holds the powers. -/
theorem gexp_eq {index : Nat} (inside : index < 511) :
    gexp index = timesAlpha^[index] 1 := by
  rcases Nat.lt_or_ge index 256 with low | high
  · exact gexp_of_lt_256 low
  · obtain ⟨index, rfl⟩ := Nat.exists_eq_add_of_le' (show 255 ≤ index by omega)
    rw [gexp_add_255 (by omega) (by omega), Function.iterate_add_apply,
      timesAlpha_period]

theorem glog_zero : glog 0 = 0 := rfl

theorem glog_eq {elt : UInt8} (nonzero : elt ≠ 0) :
    glog elt = ((List.range 256).find? fun z => gexp z == elt).getD 0 := by
  have positive : elt.toNat ≠ 0 := fun isZero =>
    nonzero (UInt8.toNat_inj.mp isZero)
  obtain ⟨number, same⟩ := Nat.exists_eq_succ_of_ne_zero positive
  have small := elt.toNat_lt
  have byte : UInt8.ofNat (1 + 1 * number) = elt := by
    rw [Nat.one_mul, Nat.add_comm, ← Nat.succ_eq_add_one, ← same,
      UInt8.ofNat_toNat]
  rw [glog, glogTable, same, List.getD_eq_getElem?_getD,
    List.getElem?_cons_succ, List.getElem?_map,
    List.getElem?_range' (by omega), Option.map_some, Option.getD_some, byte]

theorem glog_lt (elt : UInt8) : glog elt < 256 := by
  by_cases nonzero : elt = 0
  · rw [nonzero, glog_zero]
    decide
  · rw [glog_eq nonzero]
    cases found : (List.range 256).find? fun z => gexp z == elt with
    | none => decide
    | some z => exact List.mem_range.mp (List.mem_of_find?_eq_some found)

/-- Every byte but zero is a power. -/
theorem exists_gexp_eq {elt : UInt8} (nonzero : elt ≠ 0) :
    ∃ z < 256, gexp z = elt := by
  have all : ∀ number < 256, number ≠ 0 →
      UInt8.ofNat number ∈ gexpTable.take 256 := by
    decide +kernel
  have among := all elt.toNat elt.toNat_lt fun isZero =>
    nonzero (UInt8.toNat_inj.mp isZero)
  rw [UInt8.ofNat_toNat, List.mem_iff_getElem?] at among
  obtain ⟨z, found⟩ := among
  have inside : z < 256 := by
    have bound := (List.getElem?_eq_some_iff.mp found).1
    exact lt_of_lt_of_le bound (List.length_take_le _ _)
  rw [List.getElem?_take_of_lt inside] at found
  refine ⟨z, inside, ?_⟩
  rw [gexp, List.getD_eq_getElem?_getD, found, Option.getD_some]

theorem gexp_glog {elt : UInt8} (nonzero : elt ≠ 0) : gexp (glog elt) = elt := by
  obtain ⟨z, inside, here⟩ := exists_gexp_eq nonzero
  rw [glog_eq nonzero]
  cases found : (List.range 256).find? fun z => gexp z == elt with
  | none =>
      have missed := List.find?_eq_none.mp found z (List.mem_range.mpr inside)
      exact absurd (beq_iff_eq.mpr here) missed
  | some first =>
      have hit : (gexp first == elt) = true :=
        @List.find?_some _ (fun z => gexp z == elt) _ _ found
      exact beq_iff_eq.mp hit

/-! ## The field -/

/-- A byte as an element of the field of the coder. -/
def GaloisByte : Type := UInt8
  deriving DecidableEq

/-- The element that a byte stands for. -/
def symbol (byte : UInt8) : GaloisByte := byte

theorem symbol_injective : Function.Injective symbol := fun _ _ same => same

instance : Zero GaloisByte := ⟨symbol 0⟩

instance : Add GaloisByte :=
  ⟨fun first second => symbol (@XorOp.xor UInt8 _ first second)⟩

@[simp] theorem symbol_zero : symbol 0 = 0 := rfl

@[simp] theorem symbol_xor (first second : UInt8) :
    symbol (first ^^^ second) = symbol first + symbol second := rfl

theorem symbol_eq_zero_iff (byte : UInt8) : symbol byte = 0 ↔ byte = 0 := Iff.rfl

instance : Neg GaloisByte := ⟨fun element => element⟩

instance : AddCommGroup GaloisByte where
  add_assoc := UInt8.xor_assoc
  zero_add _ := UInt8.zero_xor
  add_zero _ := UInt8.xor_zero
  neg_add_cancel _ := UInt8.xor_self
  add_comm := UInt8.xor_comm
  nsmul := nsmulRec
  zsmul := zsmulRec

/-- The powers and logarithms of the code. -/
def galoisTable : PowerTable GaloisByte where
  shift :=
    { toFun := timesAlpha
      map_zero' := show timesAlpha 0 = 0 by decide
      map_add' := timesAlpha_xor }
  one := symbol 1
  period := 255
  log := glog
  one_ne_zero := by decide
  period_pos := by decide
  shift_period := timesAlpha_period
  log_le elt := Nat.le_of_lt_succ (glog_lt elt)
  shift_log elt nonzero := by
    have power := gexp_eq (Nat.lt_trans (glog_lt elt) (by decide))
    exact power.symm.trans (gexp_glog nonzero)

instance : Field GaloisByte := galoisTable.field

theorem symbol_one : symbol 1 = 1 := rfl

theorem symbol_gexp {index : Nat} (inside : index < 511) :
    symbol (gexp index) = galoisTable.power index :=
  congrArg symbol (gexp_eq inside)

/-- The code multiplies as the field does. -/
@[simp] theorem symbol_gmult (a b : UInt8) :
    symbol (gmult a b) = symbol a * symbol b := by
  change _ = galoisTable.mul (symbol a) (symbol b)
  unfold gmult PowerTable.mul
  by_cases none : a = 0 ∨ b = 0
  · simp only [symbol_eq_zero_iff, if_pos none, symbol_zero]
  · have firstSmall := glog_lt a
    have secondSmall := glog_lt b
    simp only [symbol_eq_zero_iff, if_neg none]
    exact symbol_gexp (by omega)

theorem symbol_ginv {elt : UInt8} (nonzero : elt ≠ 0) :
    symbol (ginv elt) = (symbol elt)⁻¹ := by
  change _ = galoisTable.inv (symbol elt)
  unfold ginv PowerTable.inv
  rw [if_neg ((symbol_eq_zero_iff elt).not.mpr nonzero)]
  exact symbol_gexp (by omega)

/-- The element whose powers the table holds. -/
def alpha : GaloisByte := galoisTable.power 1

theorem power_eq_alpha_pow (index : Nat) :
    galoisTable.power index = alpha ^ index := by
  induction index with
  | zero => rfl
  | succ index inductionHypothesis =>
      rw [pow_succ', ← inductionHypothesis, Nat.add_comm,
        ← galoisTable.iterate_shift_power]
      exact (galoisTable.power_mul 1 (galoisTable.power index)).symm

theorem symbol_gexp_eq_pow {index : Nat} (inside : index < 511) :
    symbol (gexp index) = alpha ^ index := by
  rw [symbol_gexp inside, power_eq_alpha_pow]

theorem alpha_ne_zero : alpha ≠ 0 := galoisTable.power_ne_zero 1

theorem alpha_pow_255 : alpha ^ 255 = 1 := by
  rw [← power_eq_alpha_pow]
  exact timesAlpha_period

theorem alpha_pow_mod (index : Nat) : alpha ^ (index % 255) = alpha ^ index := by
  conv_rhs => rw [← Nat.mod_add_div index 255, pow_add, pow_mul, alpha_pow_255,
    one_pow, mul_one]

instance : CharP GaloisByte 2 :=
  CharTwo.of_one_ne_zero_of_two_eq_zero one_ne_zero
    ((one_add_one_eq_two (R := GaloisByte)).symm.trans UInt8.xor_self)

theorem orderOf_alpha : orderOf alpha = 255 := by
  apply orderOf_eq_of_pow_and_pow_div_prime (by decide) alpha_pow_255
  intro p prime divides
  have factors : p = 3 ∨ p = 5 ∨ p = 17 := by
    rw [show 255 = 3 * (5 * 17) by rfl, prime.dvd_mul, prime.dvd_mul,
      Nat.prime_dvd_prime_iff_eq prime (by decide),
      Nat.prime_dvd_prime_iff_eq prime (by decide),
      Nat.prime_dvd_prime_iff_eq prime (by decide)] at divides
    exact divides
  -- The table is read at 85, 51 and 15.
  rcases factors with rfl | rfl | rfl <;>
    rw [← symbol_gexp_eq_pow (by decide), ← symbol_one] <;>
    exact fun same => absurd (symbol_injective same) (by decide +kernel)

/-- The powers of one round through the table differ. -/
theorem alpha_pow_injOn : Set.InjOn (fun index => alpha ^ index) (Set.Iio 255) := by
  have injective := pow_injOn_Iio_orderOf (x := alpha)
  rwa [orderOf_alpha] at injective

/-! ## Bytes as polynomials -/

/-- `x^8 + x^4 + x^3 + x^2 + 1`, which the code gives for its constant. -/
noncomputable def primitivePolynomial : (ZMod 2)[X] :=
  X ^ 8 + X ^ 4 + X ^ 3 + X ^ 2 + 1

/-- The polynomial whose coefficients are eight bits, the lowest first. -/
noncomputable def ExpBits.polynomial (bits : ExpBits) : (ZMod 2)[X] :=
  C (bitSymbol bits.p1) + C (bitSymbol bits.p2) * X +
    C (bitSymbol bits.p3) * X ^ 2 + C (bitSymbol bits.p4) * X ^ 3 +
    C (bitSymbol bits.p5) * X ^ 4 + C (bitSymbol bits.p6) * X ^ 5 +
    C (bitSymbol bits.p7) * X ^ 6 + C (bitSymbol bits.p8) * X ^ 7

/-- The polynomial of a byte. -/
noncomputable def bytePolynomial (byte : UInt8) : (ZMod 2)[X] :=
  (ExpBits.ofByte byte).polynomial

theorem natDegree_primitivePolynomial : primitivePolynomial.natDegree = 8 := by
  unfold primitivePolynomial
  compute_degree!

theorem monic_primitivePolynomial : primitivePolynomial.Monic := by
  unfold primitivePolynomial
  monicity!

theorem bytePolynomial_modByMonic (byte : UInt8) :
    bytePolynomial byte %ₘ primitivePolynomial = bytePolynomial byte := by
  rw [modByMonic_eq_self_iff monic_primitivePolynomial,
    degree_eq_natDegree monic_primitivePolynomial.ne_zero,
    natDegree_primitivePolynomial]
  have bound : (bytePolynomial byte).natDegree ≤ 7 := by
    unfold bytePolynomial ExpBits.polynomial
    compute_degree
  exact degree_le_natDegree.trans_lt
    (Nat.cast_lt.mpr (Nat.lt_succ_of_le bound))

/-- A round multiplies by `X`. -/
theorem polynomial_round (bits : ExpBits) :
    primitivePolynomial ∣ bits.round.polynomial - X * bits.polynomial := by
  have two : (2 : (ZMod 2)[X]) = 0 := CharTwo.two_eq_zero
  refine ⟨C (bitSymbol bits.p8), ?_⟩
  simp only [ExpBits.round, ExpBits.polynomial, primitivePolynomial,
    bitSymbol_xor, map_add]
  linear_combination (-(C (bitSymbol bits.p8) * X ^ 8)) * two

theorem bytePolynomial_timesAlpha (byte : UInt8) :
    bytePolynomial (timesAlpha byte) =
      (X * bytePolynomial byte) %ₘ primitivePolynomial := by
  rw [← bytePolynomial_modByMonic]
  apply modByMonic_eq_of_dvd_sub monic_primitivePolynomial
  rw [bytePolynomial, timesAlpha, ExpBits.ofByte_value]
  exact polynomial_round _

theorem bytePolynomial_iterate (count : Nat) (byte : UInt8) :
    bytePolynomial (timesAlpha^[count] byte) =
      (X ^ count * bytePolynomial byte) %ₘ primitivePolynomial := by
  induction count with
  | zero => rw [pow_zero, one_mul, bytePolynomial_modByMonic, Function.iterate_zero_apply]
  | succ count inductionHypothesis =>
      rw [Function.iterate_succ_apply', bytePolynomial_timesAlpha,
        inductionHypothesis]
      apply modByMonic_eq_of_dvd_sub monic_primitivePolynomial
      have earlier : primitivePolynomial ∣
          (X ^ count * bytePolynomial byte) %ₘ primitivePolynomial -
            X ^ count * bytePolynomial byte :=
        dvd_modByMonic_sub _ _
      have factored : X * ((X ^ count * bytePolynomial byte) %ₘ primitivePolynomial) -
          X ^ (count + 1) * bytePolynomial byte =
            X * ((X ^ count * bytePolynomial byte) %ₘ primitivePolynomial -
              X ^ count * bytePolynomial byte) := by
        ring
      rw [factored]
      exact Dvd.dvd.mul_left earlier _

theorem bytePolynomial_one : bytePolynomial 1 = 1 := by
  have bits : ExpBits.ofByte 1 = ExpBits.start := by decide
  rw [bytePolynomial, bits]
  simp [ExpBits.start, ExpBits.polynomial, bitSymbol]

/-- `gmult` is the multiplication of polynomials over the field with two
elements, reduced by the polynomial of the code, and `ginv` inverts it. -/
theorem gmult_eq_polynomial_mul (a b : UInt8) :
    bytePolynomial (gmult a b) =
        (bytePolynomial a * bytePolynomial b) %ₘ primitivePolynomial ∧
      (a ≠ 0 → gmult a (ginv a) = 1) := by
  constructor
  · by_cases nonzero : a = 0
    · have zero : bytePolynomial 0 = 0 := by
        have bits : ExpBits.ofByte 0 =
            ⟨false, false, false, false, false, false, false, false⟩ := by
          decide
        rw [bytePolynomial, bits]
        simp [ExpBits.polynomial, bitSymbol]
      rw [nonzero, gmult, if_pos (Or.inl rfl), zero, zero_mul, zero_modByMonic]
    · -- The first factor is a power of `X`, and so is the step to the product.
      have product : gmult a b = timesAlpha^[glog a] b :=
        (symbol_gmult a b).trans (galoisTable.mul_eq_iterate nonzero b)
      have power : a = timesAlpha^[glog a] 1 :=
        (@PowerTable.power_log _ _ galoisTable a nonzero).symm
      have first := bytePolynomial_iterate (glog a) 1
      rw [← power, bytePolynomial_one, mul_one] at first
      rw [product, bytePolynomial_iterate, first]
      apply modByMonic_eq_of_dvd_sub monic_primitivePolynomial
      rw [← sub_mul]
      refine Dvd.dvd.mul_right ?_ _
      rw [dvd_sub_comm]
      exact dvd_modByMonic_sub _ _
  · intro nonzero
    apply symbol_injective
    rw [symbol_gmult, symbol_ginv nonzero]
    exact mul_inv_cancel₀ nonzero

theorem ginv_two : (2 : UInt8) ≠ 0 ∧ gmult 2 (ginv 2) = 1 :=
  ⟨by decide, (gmult_eq_polynomial_mul 2 2).2 (by decide)⟩

end Ardop
end Hamchat
