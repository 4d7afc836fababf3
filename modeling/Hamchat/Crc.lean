import Hamchat.Foundation.SerialDivision
import Mathlib.Algebra.Field.ZMod
import Mathlib.Tactic.ComputeDegree
import Mathlib.Tactic.IntervalCases
import Mathlib.Tactic.LinearCombination

/-!
# The checksum

`ccitt_crc16` of `src/maths.cpp`.  The register of the code holds a polynomial
over the field with two elements, the leading coefficient in its lowest bit, and
each round of the inner loop shifts one bit of the data into it, the lowest bit
of a byte first.
-/

namespace Hamchat

open Foundation Polynomial

/-- One round of the inner loop, for the words `cs` and `work`. -/
def crcRound (cs work : BitVec 32) : BitVec 32 × BitVec 32 :=
  if (cs &&& 0x0001) ^^^ (work &&& 0x0001) ≠ 0 then
    ((cs >>> 1) ^^^ 0x8408, work >>> 1)
  else
    (cs >>> 1, work >>> 1)

/-- `for (i = 0; i < 8; i++)`, from a count of rounds that are left. -/
def crcRounds : (left : Nat) → (cs work : BitVec 32) → BitVec 32
  | 0, cs, _ => cs
  | left + 1, cs, work =>
      crcRounds left (crcRound cs work).1 (crcRound cs work).2

/-- One round of the outer loop. -/
def crcByte (cs : BitVec 32) (byte : UInt8) : BitVec 32 :=
  crcRounds 8 cs (0x00FF &&& byte.toBitVec.setWidth 32)

/-- The last lines: complement, exchange of the bytes, and mask. -/
def crcFinish (cs : BitVec 32) : BitVec 32 :=
  let cs := ~~~cs
  let work := cs
  let cs := (cs <<< 8) ||| ((work >>> 8) &&& 0x00FF)
  cs &&& 0xFFFF

/-- `ccitt_crc16` -/
def ccittCrc16 (data : List UInt8) : BitVec 32 :=
  let cs : BitVec 32 := 0xFFFF
  if data.length < 1 then
    ~~~cs
  else
    crcFinish (data.foldl crcByte cs)

/-! ## Words as polynomials -/

/-- A bit as an element of the field with two elements. -/
def bitSymbol (bit : Bool) : ZMod 2 := if bit then 1 else 0

/-- The lowest bits of a word, the lowest first. -/
def lowBits (count : Nat) (word : BitVec width) : List (ZMod 2) :=
  (List.range count).map fun position => bitSymbol (word.getLsbD position)

/-- The polynomial that the register holds. -/
noncomputable def registerPolynomial (cs : BitVec 32) : (ZMod 2)[X] :=
  rowPolynomial (lowBits 16 cs)

/-- `x^16 + x^12 + x^5 + 1` -/
noncomputable def crcGenerator : (ZMod 2)[X] := X ^ 16 + X ^ 12 + X ^ 5 + 1

/-- The data in the order in which it is divided. -/
def messageBits (data : List UInt8) : List (ZMod 2) :=
  data.flatMap fun byte => lowBits 8 byte.toBitVec

@[simp] theorem messageBits_cons (byte : UInt8) (rest : List UInt8) :
    messageBits (byte :: rest) =
      lowBits 8 byte.toBitVec ++ messageBits rest :=
  List.flatMap_cons

theorem natDegree_crcGenerator : crcGenerator.natDegree = 16 := by
  unfold crcGenerator
  compute_degree!

theorem monic_crcGenerator : crcGenerator.Monic := by
  unfold crcGenerator
  monicity!

theorem isCoprime_crcGenerator_X : IsCoprime crcGenerator X :=
  ⟨1, -(X ^ 15 + X ^ 11 + X ^ 4), by unfold crcGenerator; ring⟩

/-- The code keeps its working register below `2 ^ 16`. -/
def IsRegister (cs : BitVec 32) : Prop :=
  ∀ position, 16 ≤ position → cs.getLsbD position = false

theorem bitSymbol_xor (first second : Bool) :
    bitSymbol (first ^^ second) = bitSymbol first + bitSymbol second := by
  cases first <;> cases second <;> decide

theorem bitSymbol_inj {first second : Bool} :
    bitSymbol first = bitSymbol second ↔ first = second := by
  cases first <;> cases second <;> decide

@[simp] theorem length_lowBits (count : Nat) (word : BitVec width) :
    (lowBits count word).length = count := by
  simp [lowBits]

/-- The lowest bit of a word leads, and the shifted word follows. -/
theorem lowBits_succ (count : Nat) (word : BitVec width) :
    lowBits (count + 1) word =
      bitSymbol (word.getLsbD 0) :: lowBits count (word >>> 1) := by
  unfold lowBits
  rw [List.range_succ_eq_map, List.map_cons, List.map_map]
  congr 1
  apply List.map_congr_left
  intro position _
  rw [Function.comp_apply, BitVec.getLsbD_ushiftRight, Nat.add_comm]

theorem lowBits_append (count : Nat) (word : BitVec width) :
    lowBits (count + 1) word =
      lowBits count word ++ [bitSymbol (word.getLsbD count)] := by
  unfold lowBits
  rw [List.range_succ, List.map_append]
  rfl

theorem rowPolynomial_lowBits_xor (count : Nat) (first second : BitVec width) :
    rowPolynomial (lowBits count (first ^^^ second)) =
      rowPolynomial (lowBits count first) +
        rowPolynomial (lowBits count second) := by
  unfold lowBits
  rw [← rowPolynomial_map_add]
  simp only [BitVec.getLsbD_xor, bitSymbol_xor]

/-- The constant of the code is the generator without its leading term. -/
theorem registerPolynomial_8408 :
    registerPolynomial 0x8408 = X ^ 12 + X ^ 5 + 1 := by
  have bits : lowBits 16 (0x8408 : BitVec 32) =
      [0, 0, 0, 1, 0, 0, 0, 0, 0, 0, 1, 0, 0, 0, 0, 1] := by
    decide
  rw [registerPolynomial, bits]
  simp [rowPolynomial]
  ring

/-- A shift of the register multiplies its polynomial by `X` and drops the
leading term. -/
theorem registerPolynomial_shift {cs : BitVec 32} (register : IsRegister cs) :
    X * registerPolynomial cs =
      C (bitSymbol (cs.getLsbD 0)) * X ^ 16 + registerPolynomial (cs >>> 1) := by
  have shifted : registerPolynomial (cs >>> 1) =
      X * rowPolynomial (lowBits 15 (cs >>> 1)) := by
    have top : (cs >>> 1).getLsbD 15 = false := by
      rw [BitVec.getLsbD_ushiftRight]
      exact register 16 (Nat.le_refl 16)
    rw [registerPolynomial, lowBits_append, rowPolynomial_append, top]
    simp [bitSymbol, rowPolynomial]
  rw [shifted, registerPolynomial, lowBits_succ, rowPolynomial, length_lowBits]
  ring

theorem registerPolynomial_mod (cs : BitVec 32) :
    registerPolynomial cs %ₘ crcGenerator = registerPolynomial cs := by
  rw [modByMonic_eq_self_iff monic_crcGenerator,
    degree_eq_natDegree monic_crcGenerator.ne_zero, natDegree_crcGenerator]
  exact degree_rowPolynomial_lt (lowBits 16 cs)

/-! ## The loops -/

/-- The test of the inner loop compares the lowest bits. -/
theorem and_one_xor_ne_zero (cs work : BitVec 32) :
    (cs &&& 0x0001) ^^^ (work &&& 0x0001) ≠ 0 ↔
      (cs.getLsbD 0 ^^ work.getLsbD 0) = true := by
  have lowest (word : BitVec 32) : word &&& 0x0001 =
      BitVec.setWidth 32 (BitVec.ofBool (word.getLsbD 0)) :=
    BitVec.and_one_eq_setWidth_ofBool_getLsbD
  rw [lowest cs, lowest work]
  cases cs.getLsbD 0 <;> cases work.getLsbD 0 <;> decide

theorem isRegister_of_lt {cs : BitVec 32} (small : cs.toNat < 2 ^ 16) :
    IsRegister cs := by
  intro position beyond
  rw [← BitVec.testBit_toNat]
  apply Nat.testBit_lt_two_pow
  exact Nat.lt_of_lt_of_le small (Nat.pow_le_pow_right (by decide) beyond)

/-- A round keeps the register in its range. -/
theorem IsRegister.crcRound {cs : BitVec 32} (register : IsRegister cs)
    (work : BitVec 32) : IsRegister (crcRound cs work).1 := by
  intro position beyond
  have shifted : (cs >>> 1).getLsbD position = false := by
    rw [BitVec.getLsbD_ushiftRight]
    exact register _ (by omega)
  have constant : (0x8408 : BitVec 32).getLsbD position = false :=
    isRegister_of_lt (by decide) position beyond
  unfold Hamchat.crcRound
  split
  · rw [BitVec.getLsbD_xor, shifted, constant]
    rfl
  · exact shifted

/-- A round shifts the lowest bit of `work` into the register. -/
theorem registerPolynomial_crcRound {cs : BitVec 32} (register : IsRegister cs)
    (work : BitVec 32) :
    registerPolynomial (crcRound cs work).1 =
      shiftIn crcGenerator (registerPolynomial cs)
        (bitSymbol (work.getLsbD 0)) := by
  have combined : X * registerPolynomial cs +
        C (bitSymbol (work.getLsbD 0)) * X ^ crcGenerator.natDegree =
      C (bitSymbol (cs.getLsbD 0 ^^ work.getLsbD 0)) * X ^ 16 +
        registerPolynomial (cs >>> 1) := by
    rw [registerPolynomial_shift register, natDegree_crcGenerator,
      bitSymbol_xor, map_add]
    ring
  rw [shiftIn, combined, crcRound]
  by_cases differ : (cs.getLsbD 0 ^^ work.getLsbD 0) = true
  · have reduced : registerPolynomial ((cs >>> 1) ^^^ 0x8408) =
        registerPolynomial (cs >>> 1) + (X ^ 12 + X ^ 5 + 1) := by
      rw [← registerPolynomial_8408]
      exact rowPolynomial_lowBits_xor 16 _ _
    rw [if_pos ((and_one_xor_ne_zero cs work).mpr differ), differ,
      ← registerPolynomial_mod, reduced]
    apply modByMonic_eq_of_dvd_sub monic_crcGenerator
    have two : (2 : (ZMod 2)[X]) = 0 := CharP.cast_eq_zero _ 2
    have one : C (bitSymbol true) = (1 : (ZMod 2)[X]) := map_one C
    refine ⟨1, ?_⟩
    rw [one, crcGenerator]
    linear_combination -X ^ 16 * two
  · rw [if_neg (mt (and_one_xor_ne_zero cs work).mp differ),
      Bool.eq_false_of_not_eq_true differ]
    simp [bitSymbol, registerPolynomial_mod]

/-- The inner loop shifts in the lowest bits of `work`. -/
theorem crcRounds_spec {cs : BitVec 32} (register : IsRegister cs)
    (left : Nat) (work : BitVec 32) :
    IsRegister (crcRounds left cs work) ∧
      registerPolynomial (crcRounds left cs work) =
        (lowBits left work).foldl (shiftIn crcGenerator)
          (registerPolynomial cs) := by
  induction left generalizing cs work with
  | zero => exact ⟨register, rfl⟩
  | succ left inductionHypothesis =>
      have shifted : (crcRound cs work).2 = work >>> 1 := by
        unfold crcRound
        split <;> rfl
      have rest := inductionHypothesis (register.crcRound work)
        (crcRound cs work).2
      rw [crcRounds]
      refine ⟨rest.1, ?_⟩
      rw [rest.2, lowBits_succ, List.foldl_cons,
        registerPolynomial_crcRound register, shifted]

/-- A byte is shifted in from its lowest bit to its highest. -/
theorem crcByte_spec {cs : BitVec 32} (register : IsRegister cs)
    (byte : UInt8) :
    IsRegister (crcByte cs byte) ∧
      registerPolynomial (crcByte cs byte) =
        (lowBits 8 byte.toBitVec).foldl (shiftIn crcGenerator)
          (registerPolynomial cs) := by
  have masked : lowBits 8 (0x00FF &&& byte.toBitVec.setWidth 32) =
      lowBits 8 byte.toBitVec := by
    apply List.map_congr_left
    intro position member
    have inByte := List.mem_range.mp member
    have mask : (0x00FF : BitVec 32).getLsbD position = true := by
      interval_cases position <;> decide
    rw [BitVec.getLsbD_and, mask, BitVec.getLsbD_setWidth, Bool.true_and,
      decide_eq_true (Nat.lt_of_lt_of_le inByte (by decide)), Bool.true_and]
  rw [← masked]
  exact crcRounds_spec register 8 _

/-- The outer loop divides the whole message. -/
theorem foldl_crcByte_spec {cs : BitVec 32} (register : IsRegister cs)
    (data : List UInt8) :
    IsRegister (data.foldl crcByte cs) ∧
      registerPolynomial (data.foldl crcByte cs) =
        (messageBits data).foldl (shiftIn crcGenerator)
          (registerPolynomial cs) := by
  induction data generalizing cs with
  | nil => exact ⟨register, rfl⟩
  | cons byte rest inductionHypothesis =>
      obtain ⟨kept, held⟩ := crcByte_spec register byte
      have later := inductionHypothesis kept
      rw [List.foldl_cons]
      refine ⟨later.1, ?_⟩
      rw [later.2, held, messageBits_cons, List.foldl_append]

/-! ## The standard -/

/-- The polynomial of the initial value `0xFFFF`. -/
noncomputable def crcInitial : (ZMod 2)[X] :=
  ∑ exponent ∈ Finset.range 16, X ^ exponent

/-- The remainder of the data behind the initial value, with room for sixteen
check bits. -/
noncomputable def x25Remainder (data : List UInt8) : (ZMod 2)[X] :=
  (X ^ (messageBits data).length * crcInitial +
    X ^ 16 * rowPolynomial (messageBits data)) %ₘ crcGenerator

/-- The CRC-16/X-25 of the data: the complemented remainder, reflected, so that
the coefficient of `X ^ 15` is in the lowest bit. -/
def IsCrc16X25 (data : List UInt8) (checksum : BitVec 16) : Prop :=
  ∀ position < 16, bitSymbol (checksum.getLsbD position) =
    (x25Remainder data).coeff (15 - position) + 1

/-- Exchange of the two bytes of a word. -/
def byteSwap (word : BitVec 16) : BitVec 16 :=
  word.extractLsb' 0 8 ++ word.extractLsb' 8 8

/-- `ccitt_crc16` returns a value below `2 ^ 16`, which is the CRC-16/X-25 of
the data with its bytes exchanged. -/
def CrcMeetsStandard (data : List UInt8) : Prop :=
  (ccittCrc16 data).toNat < 2 ^ 16 ∧
    ∃ checksum, IsCrc16X25 data checksum ∧
      ccittCrc16 data = (byteSwap checksum).setWidth 32

/-- At most one word is the CRC-16/X-25 of the data. -/
theorem IsCrc16X25.unique {data : List UInt8} {first second : BitVec 16}
    (isFirst : IsCrc16X25 data first) (isSecond : IsCrc16X25 data second) :
    first = second := by
  apply BitVec.eq_of_getLsbD_eq
  intro position inside
  rw [← bitSymbol_inj, isFirst position inside, isSecond position inside]

theorem registerPolynomial_initial :
    registerPolynomial 0xFFFF = crcInitial := by
  have bits : lowBits 16 (0xFFFF : BitVec 32) = List.replicate 16 1 := by
    decide
  rw [registerPolynomial, bits, crcInitial]
  simp [rowPolynomial, Finset.sum_range_succ, List.replicate]
  ring

/-- The coefficients of the register are its bits, from the top. -/
theorem coeff_registerPolynomial (cs : BitVec 32) {position : Nat}
    (inside : position < 16) :
    (registerPolynomial cs).coeff (15 - position) =
      bitSymbol (cs.getLsbD position) := by
  rw [registerPolynomial, coeff_rowPolynomial,
    List.getElem?_reverse (by rw [length_lowBits]; omega), length_lowBits]
  have mirrored : 16 - 1 - (15 - position) = position := by omega
  rw [mirrored, lowBits, List.getElem?_map,
    List.getElem?_range (by omega)]
  rfl

/-- The bits of the masks of the code. -/
theorem getLsbD_mask (count : Nat) (inside : count < 32) (position : Nat) :
    (BitVec.ofNat 32 (2 ^ count - 1)).getLsbD position =
      decide (position < count) := by
  rw [BitVec.getLsbD_ofNat, Nat.testBit_two_pow_sub_one]
  by_cases low : position < count
  · simp [low, Nat.lt_trans low inside]
  · simp [low]

/-- What the last lines do to the bits of a word. -/
theorem crcFinish_eq (cs : BitVec 32) :
    crcFinish cs = (byteSwap (~~~cs.setWidth 16)).setWidth 32 := by
  apply BitVec.eq_of_getLsbD_eq
  intro position inside
  have low : (0x00FF : BitVec 32).getLsbD position = decide (position < 8) :=
    getLsbD_mask 8 (by decide) position
  have word : (0xFFFF : BitVec 32).getLsbD position = decide (position < 16) :=
    getLsbD_mask 16 (by decide) position
  simp only [crcFinish, byteSwap, BitVec.getLsbD_and, BitVec.getLsbD_or,
    BitVec.getLsbD_shiftLeft, BitVec.getLsbD_ushiftRight, BitVec.getLsbD_not,
    BitVec.getLsbD_setWidth, BitVec.getLsbD_append, BitVec.getLsbD_extractLsb',
    low, word, inside, decide_true, Bool.true_and]
  -- The high byte comes first, then the low byte, then the masked bits.
  rcases Nat.lt_or_ge position 8 with first | later
  · have bit : 8 + position < 16 := by omega
    have short : 8 + position < 32 := by omega
    have here : position < 16 := by omega
    simp [first, bit, short, here]
  · rcases Nat.lt_or_ge position 16 with second | beyond
    · have bit : position - 8 < 8 := by omega
      have short : position - 8 < 16 := by omega
      have inWord : position - 8 < 32 := by omega
      have notFirst : ¬position < 8 := by omega
      simp [notFirst, second, bit, short, inWord]
    · have notSecond : ¬position < 16 := by omega
      have notFirst : ¬position < 8 := by omega
      have outside : ¬position - 8 < 8 := by omega
      simp [notSecond, notFirst, outside]

/-- The working register ends with the remainder of the standard. -/
theorem registerPolynomial_foldl_crcByte (data : List UInt8) :
    registerPolynomial (data.foldl crcByte 0xFFFF) = x25Remainder data := by
  have start : IsRegister 0xFFFF := isRegister_of_lt (by decide)
  rw [(foldl_crcByte_spec start data).2,
    foldl_shiftIn monic_crcGenerator (registerPolynomial_mod _),
    natDegree_crcGenerator, registerPolynomial_initial]
  rfl

/-- The register, complemented, is the CRC-16/X-25 of the data. -/
theorem isCrc16X25_foldl_crcByte (data : List UInt8) :
    IsCrc16X25 data (~~~(data.foldl crcByte 0xFFFF).setWidth 16) := by
  intro position inside
  rw [← registerPolynomial_foldl_crcByte, coeff_registerPolynomial _ inside,
    BitVec.getLsbD_not, BitVec.getLsbD_setWidth, decide_eq_true inside,
    Bool.true_and, Bool.true_and]
  cases (data.foldl crcByte 0xFFFF).getLsbD position <;> decide

theorem ccittCrc16_of_ne_nil {data : List UInt8} (nonempty : data ≠ []) :
    ccittCrc16 data = crcFinish (data.foldl crcByte 0xFFFF) :=
  if_neg (Nat.not_lt.mpr (List.length_pos_of_ne_nil nonempty))

/-- The checksum meets the standard exactly for the data that is not empty: the
early exit for empty data skips the mask. -/
theorem crcMeetsStandard_iff (data : List UInt8) :
    CrcMeetsStandard data ↔ data ≠ [] := by
  constructor
  · rintro ⟨small, -⟩ rfl
    exact absurd small (by decide)
  · intro nonempty
    rw [CrcMeetsStandard, ccittCrc16_of_ne_nil nonempty, crcFinish_eq]
    refine ⟨?_, _, isCrc16X25_foldl_crcByte data, rfl⟩
    rw [BitVec.toNat_setWidth_of_le (by decide)]
    exact BitVec.isLt _

example : ccittCrc16 [49, 50, 51, 52, 53, 54, 55, 56, 57] = 0x6E90 := by
  decide +kernel

/-- Empty data has the checksum `0xFFFF0000`, where the standard has zero. -/
theorem crc_of_empty :
    ccittCrc16 [] = 0xFFFF0000 ∧ IsCrc16X25 [] 0 ∧ ¬CrcMeetsStandard [] := by
  refine ⟨by decide, ?_, ?_⟩
  · have remainder : x25Remainder [] = crcInitial := by
      have start := registerPolynomial_foldl_crcByte []
      rw [← start]
      exact registerPolynomial_initial
    intro position inside
    have ones : (0xFFFF : BitVec 32).getLsbD position = true := by
      rw [show (0xFFFF : BitVec 32) = BitVec.ofNat 32 (2 ^ 16 - 1) from rfl,
        getLsbD_mask 16 (by decide), decide_eq_true inside]
    rw [remainder, ← registerPolynomial_initial,
      coeff_registerPolynomial _ inside, ones]
    simp [bitSymbol]
    decide
  · rintro ⟨small, -⟩
    exact absurd small (by decide)

/-! ## Bursts -/

/-- The bit of the data at a position, the lowest bit of a byte first. -/
def messageBit (data : List UInt8) (position : Nat) : Bool :=
  ((data[position / 8]?).getD 0).toBitVec.getLsbD (position % 8)

/-- All bits in which two messages differ lie within sixteen positions in a
row. -/
def DifferInBurst (first second : List UInt8) : Prop :=
  ∃ start, ∀ position,
    messageBit first position ≠ messageBit second position →
      start ≤ position ∧ position < start + 16

theorem messageBit_cons_of_lt {position : Nat} (inByte : position < 8)
    (byte : UInt8) (rest : List UInt8) :
    messageBit (byte :: rest) position = byte.toBitVec.getLsbD position := by
  rw [messageBit, Nat.div_eq_of_lt inByte, Nat.mod_eq_of_lt inByte]
  rfl

theorem messageBit_cons_add (byte : UInt8) (rest : List UInt8)
    (position : Nat) :
    messageBit (byte :: rest) (8 + position) = messageBit rest position := by
  have quotient : (8 + position) / 8 = position / 8 + 1 := by omega
  have remainder : (8 + position) % 8 = position % 8 := by omega
  rw [messageBit, quotient, remainder, List.getElem?_cons_succ, messageBit]

/-- The bits are divided in the order of their positions. -/
theorem messageBits_eq_map (data : List UInt8) :
    messageBits data = (List.range (8 * data.length)).map fun position =>
      bitSymbol (messageBit data position) := by
  induction data with
  | nil => rfl
  | cons byte rest inductionHypothesis =>
      have length : 8 * (byte :: rest).length = 8 + 8 * rest.length := by
        rw [List.length_cons]
        omega
      rw [messageBits_cons, inductionHypothesis, length, List.range_add,
        List.map_append, List.map_map]
      refine congrArg₂ (· ++ ·) ?_ ?_
      · apply List.map_congr_left
        intro position member
        rw [messageBit_cons_of_lt (List.mem_range.mp member)]
      · apply List.map_congr_left
        intro position _
        rw [Function.comp_apply, messageBit_cons_add]

theorem messageBits_getElem? (data : List UInt8) (position : Nat) :
    (messageBits data)[position]? =
      if position < 8 * data.length then
        some (bitSymbol (messageBit data position)) else none := by
  rw [messageBits_eq_map, List.getElem?_map]
  split
  · rename_i inside
    rw [List.getElem?_range inside]
    rfl
  · rename_i outside
    rw [List.getElem?_eq_none (by rw [List.length_range]; omega)]
    rfl

/-- The low bits of a word of that width determine it. -/
theorem lowBits_inj {first second : BitVec width}
    (equal : lowBits width first = lowBits width second) : first = second := by
  apply BitVec.eq_of_getLsbD_eq
  intro position inside
  exact bitSymbol_inj.mp
    (List.map_inj_left.mp equal position (List.mem_range.mpr inside))

/-- Different messages have different bits. -/
theorem messageBits_injective {first second : List UInt8}
    (equal : messageBits first = messageBits second) : first = second := by
  induction first generalizing second with
  | nil =>
      cases second with
      | nil => rfl
      | cons byte rest => cases equal
  | cons byte rest inductionHypothesis =>
      cases second with
      | nil => cases equal
      | cons other others =>
          rw [messageBits_cons, messageBits_cons] at equal
          obtain ⟨here, later⟩ := List.append_inj equal (by simp)
          rw [UInt8.toBitVec_inj.mp (lowBits_inj here),
            inductionHypothesis later]

/-- The last lines lose nothing of a register. -/
theorem registerPolynomial_eq_of_crcFinish_eq {first second : BitVec 32}
    (equal : crcFinish first = crcFinish second) :
    registerPolynomial first = registerPolynomial second := by
  have swapped (word : BitVec 16) : byteSwap (byteSwap word) = word := by
    apply BitVec.eq_of_getLsbD_eq
    intro position inside
    simp only [byteSwap, BitVec.getLsbD_append, BitVec.getLsbD_extractLsb']
    rcases Nat.lt_or_ge position 8 with low | high
    · have bit : ¬8 + position < 8 := by omega
      simp [low, bit]
    · have bit : position - 8 < 8 := by omega
      have back : 8 + (position - 8) = position := by omega
      have notLow : ¬position < 8 := by omega
      simp [notLow, bit, back]
  have words : first.setWidth 16 = second.setWidth 16 := by
    rw [crcFinish_eq, crcFinish_eq] at equal
    have narrowed := congrArg (BitVec.setWidth 16) equal
    rw [BitVec.setWidth_setWidth_of_le _ (by decide), BitVec.setWidth_eq,
      BitVec.setWidth_setWidth_of_le _ (by decide), BitVec.setWidth_eq]
      at narrowed
    have complements := congrArg byteSwap narrowed
    rw [swapped, swapped] at complements
    exact BitVec.not_inj.mp complements
  have bits : lowBits 16 first = lowBits 16 second := by
    apply List.map_congr_left
    intro position member
    have bit := congrArg (BitVec.getLsbD · position) words
    simpa [List.mem_range.mp member] using congrArg bitSymbol bit
  rw [registerPolynomial, bits, registerPolynomial]

/-- Outside the burst the messages have the same bits. -/
theorem DifferInBurst.messageBits_eq {first second : List UInt8} {start : Nat}
    (sameLength : first.length = second.length)
    (burst : ∀ position,
      messageBit first position ≠ messageBit second position →
        start ≤ position ∧ position < start + 16) :
    (messageBits first).take start = (messageBits second).take start ∧
      (messageBits first).drop (start + 16) =
        (messageBits second).drop (start + 16) := by
  have same {position : Nat}
      (outside : ¬(start ≤ position ∧ position < start + 16)) :
      messageBit first position = messageBit second position :=
    not_not.mp (mt (burst position) outside)
  constructor
  · apply List.ext_getElem?
    intro position
    rw [List.getElem?_take, List.getElem?_take]
    split
    · rw [messageBits_getElem?, messageBits_getElem?, sameLength,
        same (by omega)]
    · rfl
  · apply List.ext_getElem?
    intro position
    rw [List.getElem?_drop, List.getElem?_drop, messageBits_getElem?,
      messageBits_getElem?, sameLength, same (by omega)]

/-- Two different messages of one length whose differing bits lie within
sixteen positions in a row have different checksums. -/
theorem ccittCrc16_ne_of_burst {first second : List UInt8}
    (sameLength : first.length = second.length) (differ : first ≠ second)
    (burst : DifferInBurst first second) :
    ccittCrc16 first ≠ ccittCrc16 second := by
  obtain ⟨start, within⟩ := burst
  obtain ⟨front, back⟩ := DifferInBurst.messageBits_eq sameLength within
  have positive : 0 < first.length := by
    by_contra empty
    have firstEmpty :=
      List.eq_nil_of_length_eq_zero (by omega : first.length = 0)
    have secondEmpty :=
      List.eq_nil_of_length_eq_zero (by omega : second.length = 0)
    exact differ (firstEmpty.trans secondEmpty.symm)
  have split (bits : List (ZMod 2)) : bits.take start ++
      (bits.drop start).take 16 ++ bits.drop (start + 16) = bits := by
    rw [List.append_assoc, ← List.drop_drop, List.take_append_drop,
      List.take_append_drop]
  have lengths : (messageBits first).length = (messageBits second).length := by
    rw [messageBits_eq_map, messageBits_eq_map, List.length_map,
      List.length_map, sameLength]
  intro equal
  rw [ccittCrc16_of_ne_nil (List.ne_nil_of_length_pos positive),
    ccittCrc16_of_ne_nil (List.ne_nil_of_length_pos (sameLength ▸ positive))]
    at equal
  have start16 : IsRegister 0xFFFF := isRegister_of_lt (by decide)
  have registers := registerPolynomial_eq_of_crcFinish_eq equal
  rw [(foldl_crcByte_spec start16 first).2,
    (foldl_crcByte_spec start16 second).2,
    ← split (messageBits first), ← split (messageBits second), ← front, ← back]
    at registers
  refine foldl_shiftIn_ne_of_burst monic_crcGenerator isCoprime_crcGenerator_X
    (registerPolynomial_mod _) _ _ ?_ ?_ ?_ registers
  · simp [lengths]
  · rw [natDegree_crcGenerator, List.length_take]
    exact Nat.min_le_left _ _
  · intro middle
    apply differ
    apply messageBits_injective
    rw [← split (messageBits first), ← split (messageBits second), front, back,
      middle]

theorem ccittCrc16_ne_of_burst_two_bytes :
    ccittCrc16 [0x80, 0x01] ≠ ccittCrc16 [0x00, 0x00] := by
  refine ccittCrc16_ne_of_burst rfl (by decide) ⟨0, ?_⟩
  intro position differs
  refine ⟨Nat.zero_le position, ?_⟩
  by_contra beyond
  have outside (bytes : List UInt8) (short : bytes.length = 2) :
      messageBit bytes position = false := by
    rw [messageBit, List.getElem?_eq_none (by omega)]
    simp
  exact differs ((outside _ rfl).trans (outside _ rfl).symm)

end Hamchat
