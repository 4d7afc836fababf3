import Hamchat.CString
import Mathlib.Data.Int.ModEq
import Mathlib.Tactic.IntervalCases

/-!
# Numbers as text

The conversions of the C library between integers and their text: `"%d"` of
`printf`, `strtol` with the base left to the prefix, and `atoi`.  A `long` has
64 bits and an `int` has 32.
-/

namespace Hamchat

/-- `"%d"` -/
def formatInt (value : Int) : CString :=
  let digits := Nat.toDigits 10 value.natAbs
  .read <| (if value < 0 then '-' :: digits else digits).map fun char =>
    UInt8.ofNat char.toNat

/-- What `strtol` and `strtod` report: the value, the number of bytes before
`end`, and whether `errno` was set. -/
structure Conversion (ν : Type) where
  /-- The returned value. -/
  value : ν
  /-- `end - str` -/
  stopped : Nat
  /-- `errno` is not zero. -/
  rangeError : Bool
  deriving DecidableEq

/-- `isspace` in the C locale -/
def isSpace (byte : UInt8) : Bool := byte == 32 || (9 ≤ byte && byte ≤ 13)

/-- The value of a digit or letter in a number of base 36. -/
def digitValue (byte : UInt8) : Option Nat :=
  if 48 ≤ byte ∧ byte ≤ 57 then
    some (byte.toNat - 48)
  else if 97 ≤ CString.toLower byte ∧ CString.toLower byte ≤ 122 then
    some ((CString.toLower byte).toNat - 87)
  else
    none

/-- A digit of the given base. -/
def isDigitOf (base : Nat) (byte : UInt8) : Bool :=
  (digitValue byte).any (· < base)

/-- The base that a prefix selects, and the number of bytes of the prefix: a
`0x` counts only in front of a digit. -/
def numberBase (digits : List UInt8) : Nat × Nat :=
  match digits with
  | 48 :: 120 :: digit :: _ | 48 :: 88 :: digit :: _ =>
      if isDigitOf 16 digit then (16, 2) else (8, 0)
  | 48 :: _ => (8, 0)
  | _ => (10, 0)

/-- `strtol(str, &end, 0)` -/
def strtol (str : CString) : Conversion Int :=
  let blanks := (str.bytes.takeWhile isSpace).length
  let text := str.bytes.drop blanks
  let negative := text.head? = some 45
  let sign := if negative ∨ text.head? = some 43 then 1 else 0
  let (base, lead) := numberBase (text.drop sign)
  let digits := (text.drop (sign + lead)).takeWhile (isDigitOf base)
  let magnitude : Nat := digits.foldl
    (fun value byte => value * base + (digitValue byte).getD 0) 0
  let value : Int := if negative then -magnitude else magnitude
  if digits = [] then
    ⟨0, 0, false⟩
  else
    ⟨max (-2 ^ 63) (min (2 ^ 63 - 1) value),
      blanks + sign + lead + digits.length,
      value < -2 ^ 63 ∨ 2 ^ 63 - 1 < value⟩

/-- The value of a `long` assigned to an `int`. -/
def toInt32 (value : Int) : Int := Int.bmod value (2 ^ 32)

/-- `atoi`, which the C library defines as `(int) strtol(str, NULL, 10)`. -/
def atoi (str : CString) : Int :=
  let text := str.bytes.dropWhile isSpace
  let negative := text.head? = some 45
  let sign := if negative ∨ text.head? = some 43 then 1 else 0
  let digits := (text.drop sign).takeWhile (isDigitOf 10)
  let magnitude : Nat := digits.foldl
    (fun value byte => value * 10 + (digitValue byte).getD 0) 0
  let value : Int := if negative then -magnitude else magnitude
  toInt32 (max (-2 ^ 63) (min (2 ^ 63 - 1) value))

/-! ## Decimal digits -/

/-- The decimal digits of a number, the most significant first. -/
def decimalDigits (value : Nat) : List UInt8 :=
  (Nat.toDigits 10 value).map fun char => UInt8.ofNat char.toNat

theorem digitValue_digitChar : ∀ digit < 10,
    digitValue (UInt8.ofNat (Nat.digitChar digit).toNat) = some digit := by
  decide

theorem decimalDigits_of_lt {value : Nat} (small : value < 10) :
    decimalDigits value = [UInt8.ofNat (Nat.digitChar value).toNat] := by
  rw [decimalDigits, Nat.toDigits_of_lt_base small]
  rfl

theorem decimalDigits_append {front digit : Nat} (positive : 0 < front)
    (small : digit < 10) :
    decimalDigits (10 * front + digit) =
      decimalDigits front ++ [UInt8.ofNat (Nat.digitChar digit).toNat] := by
  rw [decimalDigits, ← Nat.toDigits_append_toDigits (by decide) positive small,
    Nat.toDigits_of_lt_base small, List.map_append]
  rfl

/-- The digits of a number are digits. -/
theorem isDigitOf_of_mem_decimalDigits {value : Nat} :
    ∀ byte ∈ decimalDigits value, isDigitOf 10 byte = true := by
  have isDigit {digit : Nat} (small : digit < 10) :
      isDigitOf 10 (UInt8.ofNat (Nat.digitChar digit).toNat) = true := by
    rw [isDigitOf, digitValue_digitChar digit small]
    simpa using small
  induction value using Nat.base_induction 10 (by decide) with
  | single digit small =>
      rw [decimalDigits_of_lt small]
      intro byte member
      rw [List.mem_singleton.mp member]
      exact isDigit small
  | digit front digit small positive inductionHypothesis =>
      rw [decimalDigits_append positive small]
      intro byte member
      rcases List.mem_append.mp member with earlier | last
      · exact inductionHypothesis byte earlier
      · rw [List.mem_singleton.mp last]
        exact isDigit small

/-- The value of a row of digits. -/
def digitsValue (base : Nat) (digits : List UInt8) : Nat :=
  digits.foldl (fun value byte => value * base + (digitValue byte).getD 0) 0

/-- The digits of a number have its value. -/
@[simp] theorem digitsValue_decimalDigits (value : Nat) :
    digitsValue 10 (decimalDigits value) = value := by
  induction value using Nat.base_induction 10 (by decide) with
  | single digit small =>
      rw [decimalDigits_of_lt small, digitsValue]
      simp [digitValue_digitChar digit small]
  | digit front digit small positive inductionHypothesis =>
      rw [digitsValue] at inductionHypothesis
      rw [decimalDigits_append positive small, digitsValue, List.foldl_append,
        inductionHypothesis]
      simp [digitValue_digitChar digit small, Nat.mul_comm]

/-- A positive number does not start with the digit zero. -/
theorem exists_decimalDigits_eq_cons {value : Nat} (positive : 0 < value) :
    ∃ first rest, decimalDigits value = first :: rest ∧ first ≠ 48 := by
  induction value using Nat.base_induction 10 (by decide) with
  | single digit small =>
      refine ⟨_, _, decimalDigits_of_lt small, ?_⟩
      interval_cases digit <;> decide
  | digit front digit small frontPositive inductionHypothesis =>
      obtain ⟨first, rest, shape, nonzero⟩ := inductionHypothesis frontPositive
      rw [decimalDigits_append frontPositive small, shape]
      exact ⟨first, _, rfl, nonzero⟩

/-- The decimal digits are `'0'` to `'9'`. -/
theorem isDigitOf_ten {byte : UInt8} :
    isDigitOf 10 byte = true ↔ 48 ≤ byte ∧ byte ≤ 57 := by
  unfold isDigitOf digitValue
  split
  · rename_i digit
    have above := UInt8.le_iff_toNat_le.mp digit.1
    have below := UInt8.le_iff_toNat_le.mp digit.2
    simp only [digit, and_self, iff_true, Option.any_some, decide_eq_true_iff]
    change 48 ≤ byte.toNat at above
    change byte.toNat ≤ 57 at below
    omega
  · rename_i other
    split
    · rename_i letter
      have above : 97 ≤ (CString.toLower byte).toNat :=
        UInt8.le_iff_toNat_le.mp letter.1
      simp only [other, iff_false, Option.any_some, decide_eq_true_iff]
      omega
    · simp only [other, Option.any_none, Bool.false_eq_true]

/-- A digit is neither a blank nor a sign. -/
theorem isSpace_of_isDigitOf {byte : UInt8} (digit : isDigitOf 10 byte = true) :
    isSpace byte = false := by
  have above : 48 ≤ byte.toNat :=
    UInt8.le_iff_toNat_le.mp (isDigitOf_ten.mp digit).1
  unfold isSpace
  rw [Bool.or_eq_false_iff, Bool.and_eq_false_iff]
  refine ⟨?_, .inr ?_⟩
  · rw [beq_eq_false_iff_ne]
    rintro rfl
    exact absurd above (by decide)
  · rw [decide_eq_false_iff_not, UInt8.le_iff_toNat_le]
    exact Nat.not_le_of_lt (Nat.lt_of_lt_of_le (by decide) above)

theorem ne_of_isDigitOf {byte : UInt8} (digit : isDigitOf 10 byte = true)
    {other : UInt8} (below : other < 48) : byte ≠ other := by
  rintro rfl
  exact absurd (isDigitOf_ten.mp digit).1 (UInt8.not_le.mpr below)

theorem decimalDigits_ne_nil (value : Nat) : decimalDigits value ≠ [] := by
  rw [decimalDigits, Ne, List.map_eq_nil_iff]
  exact Nat.toDigits_ne_nil

theorem ne_zero_of_mem_decimalDigits {value : Nat} :
    ∀ byte ∈ decimalDigits value, byte ≠ 0 := fun byte member =>
  ne_of_isDigitOf (isDigitOf_of_mem_decimalDigits byte member) (by decide)

/-- `"%d"` writes a minus sign in front of the digits of a negative number. -/
theorem formatInt_bytes (value : Int) :
    (formatInt value).bytes =
      (if value < 0 then [45] else []) ++ decimalDigits value.natAbs := by
  have nulFree : ∀ byte ∈ (if value < 0 then [45] else []) ++
      decimalDigits value.natAbs, byte ≠ 0 := by
    intro byte member
    rcases List.mem_append.mp member with sign | digit
    · split at sign
      · rw [List.mem_singleton.mp sign]
        decide
      · cases sign
    · exact ne_zero_of_mem_decimalDigits byte digit
  have mapped : ((if value < 0 then '-' :: Nat.toDigits 10 value.natAbs
      else Nat.toDigits 10 value.natAbs).map fun char =>
        UInt8.ofNat char.toNat) =
      (if value < 0 then [45] else []) ++ decimalDigits value.natAbs := by
    split <;> rfl
  rw [formatInt, CString.read, mapped, List.takeWhile_eq_self_iff]
  intro byte member
  simpa using nulFree byte member

theorem numberBase_of_ne {first : UInt8} (nonzero : first ≠ 48)
    (rest : List UInt8) : numberBase (first :: rest) = (10, 0) := by
  unfold numberBase
  split
  · rename_i shape
    exact absurd (List.cons.inj shape).1 nonzero
  · rename_i shape
    exact absurd (List.cons.inj shape).1 nonzero
  · rename_i shape
    exact absurd (List.cons.inj shape).1 nonzero
  · rfl

theorem takeWhile_decimalDigits (value : Nat) :
    (decimalDigits value).takeWhile (isDigitOf 10) = decimalDigits value :=
  List.takeWhile_eq_self_iff.mpr isDigitOf_of_mem_decimalDigits

/-- `strtol` reads back what `"%d"` has written, up to the range of `long`. -/
theorem strtol_formatInt (value : Int) :
    strtol (formatInt value) =
      ⟨max (-2 ^ 63) (min (2 ^ 63 - 1) value), (formatInt value).length,
        value < -2 ^ 63 ∨ 2 ^ 63 - 1 < value⟩ := by
  by_cases zero : value = 0
  · rw [zero]
    decide
  obtain ⟨first, rest, shape, nonzero⟩ :=
    exists_decimalDigits_eq_cons (Int.natAbs_pos.mpr zero)
  have digits := takeWhile_decimalDigits value.natAbs
  have magnitude := digitsValue_decimalDigits value.natAbs
  have member : first ∈ decimalDigits value.natAbs := by
    rw [shape]
    exact List.mem_cons_self
  have firstDigit := isDigitOf_of_mem_decimalDigits first member
  have notSpace := isSpace_of_isDigitOf firstDigit
  have notPlus : first ≠ 43 := ne_of_isDigitOf firstDigit (by decide)
  have notMinus : first ≠ 45 := ne_of_isDigitOf firstDigit (by decide)
  have base := numberBase_of_ne nonzero rest
  rw [shape] at digits magnitude
  unfold digitsValue at magnitude
  unfold strtol CString.length
  by_cases negative : value < 0
  · have bytes : (formatInt value).bytes = 45 :: first :: rest := by
      rw [formatInt_bytes, if_pos negative, shape]
      rfl
    have signed : -|value| = value := by rw [abs_of_neg negative, neg_neg]
    have minusNotSpace : isSpace 45 = false := by decide
    simp [bytes, minusNotSpace, base, digits, magnitude, signed, Nat.add_comm]
  · have bytes : (formatInt value).bytes = first :: rest := by
      rw [formatInt_bytes, if_neg negative, shape]
      rfl
    have signed : (value.natAbs : Int) = value := by omega
    simp [bytes, notSpace, notPlus, notMinus, base, digits, magnitude, signed]

/-- `atoi` of decimal digits, which `strtol` keeps in the range of `long`. -/
theorem atoi_of_digits {text : List UInt8}
    (digits : ∀ byte ∈ text, isDigitOf 10 byte = true) :
    atoi (.read text) = toInt32 (min (2 ^ 63 - 1) (digitsValue 10 text)) := by
  have nulFree : ∀ byte ∈ text, byte ≠ 0 := fun byte member =>
    ne_of_isDigitOf (digits byte member) (by decide)
  have whole : (CString.read text).bytes = text := by
    rw [CString.read, List.takeWhile_eq_self_iff]
    simpa using nulFree
  unfold atoi
  cases text with
  | nil => decide
  | cons first rest =>
      have firstDigit := digits first List.mem_cons_self
      have notPlus : first ≠ 43 := ne_of_isDigitOf firstDigit (by decide)
      have notMinus : first ≠ 45 := ne_of_isDigitOf firstDigit (by decide)
      have taken : (first :: rest).takeWhile (isDigitOf 10) = first :: rest :=
        List.takeWhile_eq_self_iff.mpr digits
      simp only [whole]
      simp [isSpace_of_isDigitOf firstDigit, notPlus, notMinus, taken,
        digitsValue]

/-! ## The ranges of `int` and `long` -/

/-- The range of `int`. -/
def FitsInt (value : Int) : Prop := -2 ^ 31 ≤ value ∧ value ≤ 2 ^ 31 - 1

/-- The range of `long`. -/
def FitsLong (value : Int) : Prop := -2 ^ 63 ≤ value ∧ value ≤ 2 ^ 63 - 1

instance (value : Int) : Decidable (FitsInt value) :=
  inferInstanceAs (Decidable (_ ∧ _))

instance (value : Int) : Decidable (FitsLong value) :=
  inferInstanceAs (Decidable (_ ∧ _))

/-- An `int` keeps a value of its own range. -/
theorem toInt32_of_fits {value : Int} (fits : FitsInt value) :
    toInt32 value = value := by
  obtain ⟨lower, upper⟩ := fits
  unfold toInt32
  rw [Int.bmod_def]
  split <;> omega

/-- A `long` that an `int` does not keep has changed by a multiple of
`2 ^ 32`. -/
theorem toInt32_modEq (value : Int) : toInt32 value ≡ value [ZMOD 2 ^ 32] := by
  unfold toInt32
  exact Int.bmod_emod

theorem fits_toInt32 (value : Int) : FitsInt (toInt32 value) := by
  have lower := Int.le_bmod (x := value) (m := 2 ^ 32) (by decide)
  have upper := Int.bmod_lt (x := value) (m := 2 ^ 32) (by decide)
  unfold FitsInt toInt32
  omega

/-- A narrowed value is a given `int` exactly if the two numbers are congruent
modulo `2 ^ 32`. -/
theorem toInt32_eq_iff {value defval : Int} (fits : FitsInt defval) :
    toInt32 value = defval ↔ value ≡ defval [ZMOD 2 ^ 32] := by
  constructor
  · rintro rfl
    exact (toInt32_modEq value).symm
  · intro congruent
    have same := (toInt32_modEq value).trans congruent
    have narrowed := fits_toInt32 value
    unfold Int.ModEq at same
    unfold FitsInt at fits narrowed
    omega

end Hamchat
