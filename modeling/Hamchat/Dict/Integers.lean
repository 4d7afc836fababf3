import Hamchat.Dict.Getters

/-!
# Integer settings

`dict_getInt` assigns the `long` that `strtol` returns to an `int` before it
looks at `errno`.  Text outside the range of `long` is reported by `strtol` and
falls back to the default; text between the two ranges is reduced modulo
`2 ^ 32` without notice.
-/

namespace Hamchat

/-- What an integer getter should answer for the setting `value`. -/
def integerOrDefault (value defval : Int) : Int :=
  if FitsInt value then value else defval

/-- What `dict_getInt` makes of the text of an integer. -/
theorem dictGetInt_formatInt {cp : Option (Dict α)} {key : CString}
    {value : Int}
    (stored : dictGet cp key none = some (some (formatInt value)))
    (defval : Int) :
    dictGetInt cp key defval =
      some (if FitsLong value then toInt32 value else defval) := by
  have written : (formatInt value).length ≠ 0 := by
    rw [CString.length, formatInt_bytes, List.length_append]
    have digits := List.length_pos_of_ne_nil (decimalDigits_ne_nil value.natAbs)
    omega
  have outside : (value < -2 ^ 63 ∨ 2 ^ 63 - 1 < value) ↔ ¬FitsLong value := by
    unfold FitsLong
    omega
  unfold dictGetInt
  simp only [stored, strtol_formatInt, Option.bind_eq_bind, Option.bind_some,
    outside, beq_eq_false_iff_ne.mpr written, Bool.and_false, Bool.or_false,
    decide_eq_true_eq]
  by_cases fits : FitsLong value
  · have clamped : max (-2 ^ 63) (min (2 ^ 63 - 1) value) = value := by
      rw [min_eq_right fits.2, max_eq_right fits.1]
    rw [if_neg (not_not.mpr fits), if_pos fits, clamped]
  · rw [if_pos fits, if_neg fits]

/-- Both integer getters answer the stored setting, or the default if no `int`
holds it. -/
def IntegerSurvives (cp : Option (Dict α)) (key : CString)
    (value defval : Int) : Prop :=
  dictGetInt cp key defval = some (integerOrDefault value defval) ∧
    Config.getInt ⟨cp⟩ key defval = some (integerOrDefault value defval)

/-- A stored integer survives exactly if it is in the range of `int`, outside
the range of `long`, or congruent to the default. -/
theorem integerSurvives_iff {cp : Option (Dict α)} {key : CString}
    {value defval : Int}
    (stored : dictGet cp key none = some (some (formatInt value)))
    (fits : FitsInt defval) :
    IntegerSurvives cp key value defval ↔
      FitsInt value ∨ ¬FitsLong value ∨ value ≡ defval [ZMOD 2 ^ 32] := by
  rw [IntegerSurvives, Config.getInt, and_self, dictGetInt_formatInt stored,
    Option.some.injEq, integerOrDefault]
  by_cases small : FitsInt value
  · have inLong : FitsLong value := by
      unfold FitsInt at small
      unfold FitsLong
      omega
    simp only [small, inLong, if_true, toInt32_of_fits small, true_or]
  · by_cases inLong : FitsLong value
    · rw [if_pos inLong, if_neg small, toInt32_eq_iff fits]
      simp only [small, inLong, not_true_eq_false, false_or]
    · simp only [small, inLong, if_false, not_false_eq_true, true_or, or_true]

/-- The dictionary in which one integer is stored under `key`. -/
def integerSetting (key : CString) (value : Int) : Option (Dict Unit) :=
  dictAfter [.add 1 key (some (formatInt value))]

theorem integerSurvives_iff_intMax :
    IntegerSurvives (integerSetting (.ofLiteral "ardop.leader") (2 ^ 31 - 1))
        (.ofLiteral "ardop.leader") (2 ^ 31 - 1) 240 ↔
      FitsInt (2 ^ 31 - 1) ∨ ¬FitsLong (2 ^ 31 - 1) ∨
        2 ^ 31 - 1 ≡ 240 [ZMOD 2 ^ 32] :=
  integerSurvives_iff (by decide +kernel) (by decide)

/-- The setting `4294967297` is stored and is answered as `1`. -/
theorem integer_narrowed :
    dictGet (integerSetting (.ofLiteral "ardop.leader") 4294967297)
        (.ofLiteral "ardop.leader") none =
          some (some (formatInt 4294967297)) ∧
      dictGetInt (integerSetting (.ofLiteral "ardop.leader") 4294967297)
        (.ofLiteral "ardop.leader") 240 = some 1 ∧
      ¬IntegerSurvives
        (integerSetting (.ofLiteral "ardop.leader") 4294967297)
        (.ofLiteral "ardop.leader") 4294967297 240 := by
  have answered : dictGetInt
      (integerSetting (.ofLiteral "ardop.leader") 4294967297)
      (.ofLiteral "ardop.leader") 240 = some 1 := by
    decide +kernel
  refine ⟨by decide +kernel, answered, ?_⟩
  rintro ⟨survives, -⟩
  rw [answered] at survives
  exact absurd survives (by decide)

end Hamchat
