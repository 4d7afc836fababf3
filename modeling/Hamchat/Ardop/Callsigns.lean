import Hamchat.Numbers

/-!
# Callsigns on the air

`CompressCallsign` and `DeCompressCallsign` of `src/ext/ardop1/ARDOPC.c`.  A connect
request carries each callsign in eight characters of six bits, the last of which
stands for the SSID.  Not every callsign that `CheckValidCallsignSyntax` accepts
comes out as it went in: a callsign of seven characters without SSID loses the last
one, and an SSID of zero is lost.
-/

namespace Hamchat
namespace Ardop

/-! ## Six bits a character -/

/-- The number that four characters make. -/
def sum6Bit (characters : List UInt8) : UInt64 :=
  characters.foldl (fun intSum byte => 64 * intSum + byte.toUInt64 - 32) 0

/-- The number that three bytes make. -/
def sum8Bit (bytes : List UInt8) : UInt64 :=
  bytes.foldl (fun intSum byte => (intSum <<< 8) + byte.toUInt64) 0

/-- Half of `ASCIIto6Bit`: four characters go to three bytes. -/
def pack6Bit (characters : List UInt8) : List UInt8 :=
  let intSum := sum6Bit characters
  [(intSum >>> 16).toUInt8, (intSum >>> 8).toUInt8, intSum.toUInt8]

/-- `ASCIIto6Bit` -/
def asciiTo6Bit (padded : List UInt8) : List UInt8 :=
  pack6Bit (padded.take 4) ++ pack6Bit ((padded.drop 4).take 4)

/-- Half of `Bit6ToASCII`: three bytes go to four characters. -/
def unpack6Bit (bytes : List UInt8) : List UInt8 :=
  let intSum := sum8Bit bytes
  [((intSum >>> 18) &&& 63).toUInt8 + 32, ((intSum >>> 12) &&& 63).toUInt8 + 32,
    ((intSum >>> 6) &&& 63).toUInt8 + 32, (intSum &&& 63).toUInt8 + 32]

/-- `Bit6ToASCII` -/
def bit6ToASCII (compressed : List UInt8) : List UInt8 :=
  unpack6Bit (compressed.take 3) ++ unpack6Bit ((compressed.drop 3).take 3)

/-- A character that six bits can hold. -/
def IsSixBit (byte : UInt8) : Prop := 32 ≤ byte ∧ byte ≤ 95

instance (byte : UInt8) : Decidable (IsSixBit byte) :=
  inferInstanceAs (Decidable (_ ∧ _))

theorem IsSixBit.bounds {byte : UInt8} (sixBit : IsSixBit byte) :
    32 ≤ byte.toNat ∧ byte.toNat ≤ 95 :=
  sixBit

theorem toNat_sum6Bit {first second third fourth : UInt8} (one : IsSixBit first)
    (two : IsSixBit second) (three : IsSixBit third) (four : IsSixBit fourth) :
    (sum6Bit [first, second, third, fourth]).toNat =
      (first.toNat - 32) * 64 ^ 3 + (second.toNat - 32) * 64 ^ 2 +
        (third.toNat - 32) * 64 + (fourth.toNat - 32) := by
  have := one.bounds
  have := two.bounds
  have := three.bounds
  have := four.bounds
  simp only [sum6Bit, List.foldl_cons, List.foldl_nil, UInt64.toNat_add, UInt64.toNat_sub,
    UInt64.toNat_mul, UInt8.toNat_toUInt64, UInt64.reduceToNat]
  omega

theorem toNat_sum8Bit (first second third : UInt8) :
    (sum8Bit [first, second, third]).toNat =
      first.toNat * 2 ^ 16 + second.toNat * 2 ^ 8 + third.toNat := by
  have := first.toNat_lt
  have := second.toNat_lt
  have := third.toNat_lt
  simp only [sum8Bit, List.foldl_cons, List.foldl_nil, UInt64.toNat_add,
    UInt64.toNat_shiftLeft, UInt8.toNat_toUInt64, UInt64.reduceToNat, Nat.shiftLeft_eq,
    Nat.reduceMod, Nat.reducePow]
  omega

/-- Six bits of a sum, from a place on, make the character that was put there. -/
theorem sixBit_eq {intSum shift : UInt64} {byte : UInt8} (sixBit : IsSixBit byte)
    (small : shift.toNat < 64)
    (place : intSum.toNat / 2 ^ shift.toNat % 64 = byte.toNat - 32) :
    ((intSum >>> shift) &&& 63).toUInt8 + 32 = byte := by
  have := sixBit.bounds
  have mask : (63 : UInt64).toNat = 2 ^ 6 - 1 := rfl
  apply UInt8.toNat_inj.mp
  rw [UInt8.toNat_add, UInt64.toNat_toUInt8, UInt64.toNat_and, UInt64.toNat_shiftRight,
    mask, Nat.and_two_pow_sub_one_eq_mod, Nat.mod_eq_of_lt small, Nat.shiftRight_eq_div_pow,
    show 2 ^ 6 = 64 from rfl, place]
  have space : (32 : UInt8).toNat = 32 := rfl
  omega

theorem unpack6Bit_pack6Bit {first second third fourth : UInt8} (one : IsSixBit first)
    (two : IsSixBit second) (three : IsSixBit third) (four : IsSixBit fourth) :
    unpack6Bit (pack6Bit [first, second, third, fourth]) =
      [first, second, third, fourth] := by
  have packed := toNat_sum6Bit one two three four
  have same : (sum8Bit (pack6Bit [first, second, third, fourth])).toNat =
      (sum6Bit [first, second, third, fourth]).toNat := by
    have := one.bounds
    have := two.bounds
    have := three.bounds
    have := four.bounds
    rw [pack6Bit, toNat_sum8Bit]
    simp only [UInt64.toNat_toUInt8, UInt64.toNat_shiftRight, UInt64.reduceToNat,
      Nat.shiftRight_eq_div_pow, Nat.reduceMod, Nat.reducePow]
    omega
  have := one.bounds
  have := two.bounds
  have := three.bounds
  have := four.bounds
  have last : sum8Bit (pack6Bit [first, second, third, fourth]) =
      sum8Bit (pack6Bit [first, second, third, fourth]) >>> 0 := by
    simp
  rw [unpack6Bit, sixBit_eq one (by decide), sixBit_eq two (by decide),
    sixBit_eq three (by decide)]
  · nth_rewrite 1 [last]
    rw [sixBit_eq four (by decide)]
    rw [same, packed]
    simp only [UInt64.reduceToNat]
    omega
  all_goals
    rw [same, packed]
    simp only [UInt64.reduceToNat]
    omega

/-- Eight characters come back. -/
theorem bit6ToASCII_asciiTo6Bit {padded : List UInt8} (eight : padded.length = 8)
    (sixBit : ∀ byte ∈ padded, IsSixBit byte) :
    bit6ToASCII (asciiTo6Bit padded) = padded := by
  match padded, eight with
  | [a, b, c, d, e, f, g, h], _ =>
      simp only [List.forall_mem_cons] at sixBit
      obtain ⟨one, two, three, four, five, six, seven, last, -⟩ := sixBit
      have front := unpack6Bit_pack6Bit one two three four
      have back := unpack6Bit_pack6Bit five six seven last
      rw [bit6ToASCII, asciiTo6Bit]
      change unpack6Bit (pack6Bit [a, b, c, d]) ++ unpack6Bit (pack6Bit [e, f, g, h]) = _
      rw [front, back]
      rfl

/-! ## Callsigns -/

/-- The characters in front of the dash. -/
def baseCall (callsign : CString) : List UInt8 := callsign.bytes.takeWhile (· ≠ 45)

/-- What stands behind the dash, if there is one. -/
def ssidText (callsign : CString) : Option CString :=
  if 45 ∈ callsign.bytes then
    some (.read (callsign.bytes.drop ((baseCall callsign).length + 1)))
  else
    none

/-- `isalnum` in the C locale -/
def isAlnum (byte : UInt8) : Bool := (digitValue byte).isSome

/-- `CheckValidCallsignSyntax` -/
def checkValidCallsignSyntax (strCallsign : CString) : Bool :=
  let ssid :=
    match ssidText strCallsign with
    | none => true
    | some ssid => atoi ssid ≤ 15 && ssid.length ≤ 2 && isAlnum (ssid.bytes.headD 0)
  let base := baseCall strCallsign
  ssid && 3 ≤ base.length && base.length ≤ 7 && base.all isAlnum

/-- `Padded[7]` in `CompressCallsign` -/
def ssidCharacter (callsign : CString) : UInt8 :=
  match ssidText callsign with
  | none => 48
  | some ssid =>
      if 10 ≤ atoi ssid then UInt8.ofNat (58 + (atoi ssid - 10).toNat)
      else ssid.bytes.headD 0

/-- `Padded` in `CompressCallsign`, for a callsign of at least two characters in front
of the dash and nine in all. -/
def paddedCallsign (callsign : CString) : List UInt8 :=
  (baseCall callsign ++ List.replicate 4 32 ++ [0]).take 7 ++ [ssidCharacter callsign]

/-- `CompressCallsign` -/
def compressCallsign (callsign : CString) : List UInt8 :=
  asciiTo6Bit (paddedCallsign callsign)

/-- The characters of an SSID that `DeCompressCallsign` appends. -/
def ssidOf (character : UInt8) : CString :=
  if 58 ≤ character ∧ character ≤ 63 then
    .concat [.ofLiteral "-", formatInt (character.toNat - 48 : Nat)]
  else
    .concat [.ofLiteral "-", .read [character]]

/-- `DeCompressCallsign` -/
def deCompressCallsign (bytCallsign : List UInt8) : CString :=
  let bytTest := bit6ToASCII bytCallsign
  let returned := (bytTest.take 7).takeWhile (· ≠ 32)
  let character := bytTest.getD 7 0
  if character = 48 then .read (returned.take 6)
  else .concat [.read returned, ssidOf character]

/-- What the receiver makes of a callsign. -/
def onAir (callsign : CString) : CString := deCompressCallsign (compressCallsign callsign)

/-- The characters of a callsign in front of the dash: from three to seven that six bits
can hold, without a space. -/
structure IsBase (base : List UInt8) : Prop where
  long : 3 ≤ base.length
  short : base.length ≤ 7
  each : ∀ byte ∈ base, 32 < byte ∧ byte ≤ 95 ∧ byte ≠ 45

variable {base : List UInt8} {callsign : CString}

theorem IsBase.take_padded (isBase : IsBase base) :
    (base ++ List.replicate 4 32 ++ [0]).take 7 =
      base ++ List.replicate (7 - base.length) 32 := by
  have long := isBase.long
  have short := isBase.short
  rw [List.append_assoc, List.take_append, List.take_of_length_le short]
  congr 1
  generalize base.length = length at long short
  interval_cases length <;> rfl

theorem IsBase.takeWhile_padded (isBase : IsBase base) (count : Nat) :
    (base ++ List.replicate count 32).takeWhile (· ≠ 32) = base := by
  have each : ∀ byte ∈ base, (byte ≠ 32) = true := by
    intro byte among
    have above := (isBase.each byte among).1
    simp only [ne_eq, eq_iff_iff, iff_true]
    rintro rfl
    exact absurd above (by decide)
  rw [List.takeWhile_append_of_pos (by simpa using each)]
  cases count with
  | zero => simp
  | succ count => simp [List.replicate_succ]

/-- What the receiver makes of a callsign with a base and a last character. -/
theorem onAir_eq (isBase : IsBase (baseCall callsign))
    (sixBit : IsSixBit (ssidCharacter callsign)) :
    onAir callsign =
      if ssidCharacter callsign = 48 then .read ((baseCall callsign).take 6)
      else .concat [.read (baseCall callsign), ssidOf (ssidCharacter callsign)] := by
  have long := isBase.long
  have short := isBase.short
  have padded : paddedCallsign callsign = baseCall callsign ++
      List.replicate (7 - (baseCall callsign).length) 32 ++ [ssidCharacter callsign] := by
    rw [paddedCallsign, isBase.take_padded]
  have front : (baseCall callsign ++
      List.replicate (7 - (baseCall callsign).length) 32).length = 7 := by
    rw [List.length_append, List.length_replicate]
    omega
  have back : bit6ToASCII (compressCallsign callsign) = paddedCallsign callsign := by
    apply bit6ToASCII_asciiTo6Bit
    · rw [padded, List.length_append, front]
      rfl
    · rw [padded]
      simp only [List.mem_append, List.mem_singleton, List.mem_replicate]
      rintro byte ((among | ⟨-, rfl⟩) | rfl)
      · obtain ⟨above, below, -⟩ := isBase.each byte among
        exact ⟨UInt8.le_of_lt above, below⟩
      · decide
      · exact sixBit
  have character : (paddedCallsign callsign).getD 7 0 = ssidCharacter callsign := by
    rw [padded, List.getD_eq_getElem?_getD, List.getElem?_append_right front.le, front]
    rfl
  have returned : ((paddedCallsign callsign).take 7).takeWhile (· ≠ 32) =
      baseCall callsign := by
    rw [padded, List.take_left' front]
    exact isBase.takeWhile_padded _
  rw [onAir, deCompressCallsign, back, character, returned]

/-- A callsign without SSID keeps its first six characters. -/
theorem onAir_of_plain (plain : 45 ∉ callsign.bytes) (isBase : IsBase callsign.bytes) :
    onAir callsign = .read (callsign.bytes.take 6) := by
  have whole : baseCall callsign = callsign.bytes := by
    rw [baseCall, List.takeWhile_eq_self_iff]
    intro byte among
    simp only [ne_eq, decide_not, Bool.not_eq_eq_eq_not, Bool.not_true,
      decide_eq_false_iff_not]
    rintro rfl
    exact plain among
  have zero : ssidCharacter callsign = 48 := by
    rw [ssidCharacter, ssidText, if_neg plain]
  rw [← whole] at isBase ⊢
  rw [onAir_eq isBase (by rw [zero]; decide), if_pos zero]

/-- A callsign of at most six characters comes out as it went in. -/
theorem onAir_eq_self_of_plain (plain : 45 ∉ callsign.bytes)
    (isBase : IsBase callsign.bytes) (short : callsign.bytes.length ≤ 6) :
    onAir callsign = callsign := by
  rw [onAir_of_plain plain isBase, List.take_of_length_le short, CString.read_bytes]

/-- The SSIDs that come out as they went in: 1 to 9, A to Z and 10 to 15. -/
def KeptSSID (ssid : List UInt8) : Prop :=
  ∃ byte, (49 ≤ byte ∧ byte ≤ 57 ∨ 65 ≤ byte ∧ byte ≤ 90) ∧ ssid = [byte] ∨
    (48 ≤ byte ∧ byte ≤ 53) ∧ ssid = [49, byte]

/-- What holds of every number below 256 holds of every type. -/
theorem of_numbers {holds : UInt8 → Prop}
    (numbers : ∀ number : Fin 256, holds (.ofFin number)) (byte : UInt8) :
    holds byte :=
  numbers byte.toFin

theorem kept_spec : ∀ byte : UInt8,
    (49 ≤ byte ∧ byte ≤ 57 ∨ 65 ≤ byte ∧ byte ≤ 90 →
      atoi (.read [byte]) < 10 ∧ (CString.read [byte]).bytes.headD 0 = byte ∧
        IsSixBit byte ∧ byte ≠ 48 ∧ ssidOf byte = .read [45, byte]) ∧
    (48 ≤ byte ∧ byte ≤ 53 → 10 ≤ atoi (.read [49, byte]) ∧
      IsSixBit (UInt8.ofNat (58 + (atoi (.read [49, byte]) - 10).toNat)) ∧
      UInt8.ofNat (58 + (atoi (.read [49, byte]) - 10).toNat) ≠ 48 ∧
      ssidOf (UInt8.ofNat (58 + (atoi (.read [49, byte]) - 10).toNat)) =
        .read [45, 49, byte]) := by
  apply of_numbers
  decide +kernel

/-- A callsign with such an SSID comes out as it went in. -/
theorem onAir_eq_self_of_ssid {ssid : List UInt8} (isBase : IsBase base)
    (kept : KeptSSID ssid) (whole : callsign.bytes = base ++ 45 :: ssid) :
    onAir callsign = callsign := by
  have baseEq : baseCall callsign = base := by
    have each : ∀ byte ∈ base, byte ≠ 45 := fun byte among => (isBase.each byte among).2.2
    rw [baseCall, whole, List.takeWhile_append_of_pos (by simpa using each)]
    simp
  have text : ssidText callsign = some (.read ssid) := by
    rw [ssidText, if_pos (by rw [whole]; simp), baseEq, whole, ← List.drop_drop,
      List.drop_left]
    rfl
  have free : ∀ byte ∈ base, byte ≠ 0 := by
    intro byte among
    exact callsign.nulFree byte (by rw [whole]; exact List.mem_append_left _ among)
  have joined {tail : List UInt8} (same : 45 :: ssid = tail)
      (nulFree : ∀ byte ∈ tail, byte ≠ 0) :
      CString.concat [.read base, .read tail] = callsign := by
    ext1
    simp only [CString.concat, CString.read, List.flatMap_cons, List.flatMap_nil,
      List.append_nil, whole, same]
    rw [List.takeWhile_eq_self_iff.mpr (by simpa using free),
      List.takeWhile_eq_self_iff.mpr (by simpa using nulFree)]
  have tailFree : ∀ byte ∈ 45 :: ssid, byte ≠ 0 := by
    intro byte among
    exact callsign.nulFree byte (by rw [whole]; exact List.mem_append_right _ among)
  rw [← baseEq] at isBase
  obtain ⟨byte, ⟨range, rfl⟩ | ⟨range, rfl⟩⟩ := kept
  · obtain ⟨small, first, sixBit, nonzero, appended⟩ := (kept_spec byte).1 range
    have character : ssidCharacter callsign = byte := by
      rw [ssidCharacter, text]
      dsimp only
      rw [if_neg (by omega), first]
    rw [← character] at sixBit nonzero
    rw [onAir_eq isBase sixBit, if_neg nonzero, baseEq, character, appended]
    exact joined rfl tailFree
  · obtain ⟨large, sixBit, nonzero, appended⟩ := (kept_spec byte).2 range
    have character : ssidCharacter callsign =
        UInt8.ofNat (58 + (atoi (.read [49, byte]) - 10).toNat) := by
      rw [ssidCharacter, text]
      exact if_pos large
    rw [← character] at sixBit nonzero
    rw [onAir_eq isBase sixBit, if_neg nonzero, baseEq, character, appended]
    exact joined rfl tailFree

end Ardop
end Hamchat
