import Mathlib.Algebra.Field.Defs
import Mathlib.Algebra.Group.Hom.Basic
import Mathlib.Algebra.Ring.Basic
import Mathlib.Dynamics.PeriodicPts.Defs

/-!
# Multiplication by tables of powers

An additive map whose powers reach every nonzero element from one of them makes
a field of its domain: elements are multiplied by the addition of their
logarithms, as a program does it with one table of powers and one of logarithms.
-/

namespace Hamchat
namespace Foundation

/-- An additive map that reaches every nonzero element, with logarithms. -/
structure PowerTable (A : Type*) [AddCommGroup A] where
  /-- The multiplication by the element that generates the others. -/
  shift : A →+ A
  /-- The power with exponent zero. -/
  one : A
  /-- The exponent at which the powers start again. -/
  period : Nat
  /-- An exponent for each element. -/
  log : A → Nat
  one_ne_zero : one ≠ 0
  period_pos : 0 < period
  shift_period : shift^[period] one = one
  log_le : ∀ element, log element ≤ period
  shift_log : ∀ element, element ≠ 0 → shift^[log element] one = element

namespace PowerTable

variable {A : Type*} [AddCommGroup A] (table : PowerTable A)

/-- The table of powers. -/
def power (exponent : Nat) : A :=
  table.shift^[exponent] table.one

theorem power_log {element : A} (nonzero : element ≠ 0) :
    table.power (table.log element) = element :=
  table.shift_log element nonzero

theorem iterate_shift_power (count exponent : Nat) :
    table.shift^[count] (table.power exponent) = table.power (count + exponent) := by
  unfold power
  rw [← Function.iterate_add_apply]

theorem power_period_mul (count : Nat) :
    table.power (table.period * count) = table.one :=
  Function.IsPeriodicPt.mul_const
    (show Function.IsPeriodicPt table.shift table.period table.one from
      table.shift_period) count

theorem power_ne_zero (exponent : Nat) : table.power exponent ≠ 0 := by
  intro isZero
  have beyond : exponent ≤ table.period * exponent :=
    Nat.le_mul_of_pos_left exponent table.period_pos
  apply table.one_ne_zero
  calc table.one
      = table.shift^[table.period * exponent - exponent] (table.power exponent) := by
        rw [iterate_shift_power, Nat.sub_add_cancel beyond, power_period_mul]
    _ = 0 := by rw [isZero, iterate_map_zero]

variable [DecidableEq A]

/-- Multiplication by the addition of logarithms. -/
def mul (first second : A) : A :=
  if first = 0 ∨ second = 0 then 0
  else table.power (table.log first + table.log second)

/-- Inversion by the subtraction of logarithms. -/
def inv (element : A) : A :=
  if element = 0 then 0 else table.power (table.period - table.log element)

theorem zero_mul (element : A) : table.mul 0 element = 0 := by
  simp [mul]

theorem mul_comm (first second : A) :
    table.mul first second = table.mul second first := by
  simp only [mul, @or_comm (first = 0), Nat.add_comm (table.log first)]

theorem mul_zero (element : A) : table.mul element 0 = 0 := by
  rw [mul_comm, zero_mul]

/-- A product is an iterate of the map. -/
theorem mul_eq_iterate {first : A} (nonzero : first ≠ 0) (second : A) :
    table.mul first second = table.shift^[table.log first] second := by
  unfold mul
  by_cases secondZero : second = 0
  · rw [if_pos (Or.inr secondZero), secondZero, iterate_map_zero]
  · rw [if_neg (by tauto), ← iterate_shift_power, table.power_log secondZero]

theorem mul_add (first second third : A) :
    table.mul first (second + third) =
      table.mul first second + table.mul first third := by
  by_cases nonzero : first = 0
  · rw [nonzero, zero_mul, zero_mul, zero_mul, add_zero]
  · rw [table.mul_eq_iterate nonzero, table.mul_eq_iterate nonzero,
      table.mul_eq_iterate nonzero, iterate_map_add]

theorem power_mul (exponent : Nat) (element : A) :
    table.mul (table.power exponent) element = table.shift^[exponent] element := by
  rw [table.mul_eq_iterate (table.power_ne_zero exponent)]
  by_cases isZero : element = 0
  · rw [isZero, iterate_map_zero, iterate_map_zero]
  · -- Both exponents take the first power to the same place.
    rw [← table.power_log isZero, iterate_shift_power, iterate_shift_power,
      Nat.add_comm, Nat.add_comm exponent, ← iterate_shift_power,
      ← iterate_shift_power, table.power_log (table.power_ne_zero exponent)]

theorem mul_assoc (first second third : A) :
    table.mul (table.mul first second) third =
      table.mul first (table.mul second third) := by
  by_cases firstZero : first = 0
  · rw [firstZero, zero_mul, zero_mul, zero_mul]
  by_cases secondZero : second = 0
  · rw [secondZero, mul_zero, zero_mul, mul_zero]
  · rw [← table.power_log firstZero, ← table.power_log secondZero, power_mul,
      iterate_shift_power, power_mul, power_mul, power_mul,
      Function.iterate_add_apply]

theorem one_mul (element : A) : table.mul table.one element = element :=
  table.power_mul 0 element

theorem mul_inv_cancel {element : A} (nonzero : element ≠ 0) :
    table.mul element (table.inv element) = table.one := by
  unfold inv
  rw [if_neg nonzero, table.mul_eq_iterate nonzero, iterate_shift_power,
    Nat.add_sub_cancel' (table.log_le element)]
  exact table.shift_period

/-- The field of a table of powers. -/
abbrev field : Field A where
  toAddCommGroup := inferInstance
  mul := table.mul
  one := table.one
  inv := table.inv
  mul_assoc := table.mul_assoc
  mul_comm := table.mul_comm
  one_mul := table.one_mul
  mul_one element := (table.mul_comm element table.one).trans (table.one_mul element)
  zero_mul := table.zero_mul
  mul_zero := table.mul_zero
  left_distrib := table.mul_add
  right_distrib first second third := by
    change table.mul _ _ = table.mul _ _ + table.mul _ _
    rw [mul_comm, mul_add, mul_comm, table.mul_comm third second]
  exists_pair_ne := ⟨table.one, 0, table.one_ne_zero⟩
  mul_inv_cancel _ nonzero := table.mul_inv_cancel nonzero
  inv_zero := if_pos rfl
  nnqsmul := _
  nnqsmul_def _ _ := rfl
  qsmul := _
  qsmul_def _ _ := rfl

end PowerTable

end Foundation
end Hamchat
