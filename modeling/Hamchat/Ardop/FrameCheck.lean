import Hamchat.Crc

/-!
# The checksum of the data frames

`GenCRC16` of `src/ext/ardop1/ARDOPC.c`, with the two functions that append and
check its bytes.  The register takes a bit of the data at its end, the highest
bit of a byte first, and keeps the remainder by the polynomial of its constant,
which is a multiple of `X ^ 4`.
-/

namespace Hamchat
namespace Ardop

open Foundation Polynomial

/-- One round of the inner loop of `GenCRC16`.  The width of the word is the
mask of the code. -/
def crcShift (intRegister : BitVec 16) (bit : Bool) : BitVec 16 :=
  if intRegister &&& 0x8000 ≠ 0 then
    (if bit then 1 + (intRegister <<< 1) else intRegister <<< 1) ^^^ 0x8810
  else
    if bit then 1 + (intRegister <<< 1) else intRegister <<< 1

/-- One round of the outer loop, which reads a byte from `0x80` down. -/
def genCRC16Byte (intRegister : BitVec 16) (byte : UInt8) : BitVec 16 :=
  (List.range 8).foldl
    (fun register i => crcShift register (byte.toBitVec.getLsbD (7 - i)))
    intRegister

/-- `GenCRC16` -/
def genCRC16 (data : List UInt8) : BitVec 16 :=
  data.foldl genCRC16Byte 0xffff

/-- The bytes that `GenCRC16FrameType` puts behind the data. -/
def crcBytes (data : List UInt8) (bytFrameType : UInt8) : List UInt8 :=
  let crc := genCRC16 data
  [⟨(crc >>> 8).setWidth 8⟩, ⟨crc.setWidth 8⟩ ^^^ bytFrameType]

/-- `GenCRC16FrameType` -/
def genCRC16FrameType (data : List UInt8) (bytFrameType : UInt8) : List UInt8 :=
  data ++ crcBytes data bytFrameType

/-- `CheckCRC16FrameType`, for the bytes of an array. -/
def checkCRC16FrameType (data : List UInt8) (length : Nat)
    (bytFrameType : UInt8) : Bool :=
  let crc := genCRC16 (data.take length)
  data.getD length 0 = ⟨(crc >>> 8).setWidth 8⟩ ∧
    ⟨crc.setWidth 8⟩ ^^^ bytFrameType = data.getD (length + 1) 0

/-! ## The register as a polynomial -/

/-- The polynomial that the constant `0x8810` stands for. -/
noncomputable def frameGenerator : (ZMod 2)[X] := X ^ 16 + X ^ 15 + X ^ 11 + X ^ 4

/-- The polynomial that a word holds, its lowest bit being the constant term. -/
noncomputable def wordPolynomial (word : BitVec 16) : (ZMod 2)[X] :=
  rowPolynomial (lowBits 16 word).reverse

/-- The bits of the data in the order in which they enter the register. -/
def dataBits (data : List UInt8) : List (ZMod 2) :=
  data.flatMap fun byte => (lowBits 8 byte.toBitVec).reverse

theorem coeff_wordPolynomial (word : BitVec 16) (position : Nat) :
    (wordPolynomial word).coeff position = bitSymbol (word.getLsbD position) := by
  rw [wordPolynomial, coeff_rowPolynomial, List.reverse_reverse, lowBits,
    List.getElem?_map]
  rcases Nat.lt_or_ge position 16 with inside | beyond
  · rw [List.getElem?_range inside]
    rfl
  · rw [List.getElem?_eq_none (by simpa using beyond),
      BitVec.getLsbD_of_ge _ _ beyond]
    rfl

theorem wordPolynomial_injective : Function.Injective wordPolynomial := by
  intro first second same
  apply BitVec.eq_of_getLsbD_eq
  intro position _
  apply bitSymbol_inj.mp
  rw [← coeff_wordPolynomial, ← coeff_wordPolynomial, same]

theorem wordPolynomial_xor (first second : BitVec 16) :
    wordPolynomial (first ^^^ second) =
      wordPolynomial first + wordPolynomial second := by
  ext position
  rw [coeff_add, coeff_wordPolynomial, coeff_wordPolynomial, coeff_wordPolynomial,
    BitVec.getLsbD_xor, bitSymbol_xor]

theorem natDegree_frameGenerator : frameGenerator.natDegree = 16 := by
  unfold frameGenerator
  compute_degree!

theorem monic_frameGenerator : frameGenerator.Monic := by
  unfold frameGenerator
  monicity!

theorem wordPolynomial_mod (word : BitVec 16) :
    wordPolynomial word %ₘ frameGenerator = wordPolynomial word := by
  rw [modByMonic_eq_self_iff monic_frameGenerator,
    degree_eq_natDegree monic_frameGenerator.ne_zero, natDegree_frameGenerator]
  refine (degree_rowPolynomial_lt _).trans_eq ?_
  rw [List.length_reverse, length_lowBits]

theorem wordPolynomial_8810 :
    wordPolynomial 0x8810 = X ^ 15 + X ^ 11 + X ^ 4 := by
  have bits : (lowBits 16 (0x8810 : BitVec 16)).reverse =
      [1, 0, 0, 0, 1, 0, 0, 0, 0, 0, 0, 1, 0, 0, 0, 0] := by
    decide
  rw [wordPolynomial, bits]
  simp [rowPolynomial]
  ring

/-- A bit at the free end of a shifted word. -/
theorem getLsbD_shift_one (word : BitVec 16) (bit : Bool) {position : Nat}
    (inside : position < 16) :
    (if bit then 1 + (word <<< 1) else word <<< 1).getLsbD position =
      if position = 0 then bit else word.getLsbD (position - 1) := by
  have appended : (if bit then 1 + (word <<< 1) else word <<< 1) =
      (word <<< 1) ||| (BitVec.ofBool bit).setWidth 16 := by
    cases bit with
    | false => simp
    | true =>
        rw [if_pos rfl, BitVec.add_comm, BitVec.add_eq_or_of_and_eq_zero]
        · rfl
        · apply BitVec.eq_of_getLsbD_eq
          intro position within
          cases position with
          | zero => simp
          | succ position => simp [BitVec.getLsbD_one]
  rw [appended, BitVec.getLsbD_or, BitVec.getLsbD_shiftLeft]
  cases position with
  | zero => simp
  | succ position =>
      rw [BitVec.getLsbD_setWidth, BitVec.getLsbD_of_ge _ (position + 1) (by omega)]
      simp [inside]

/-- A round takes a bit in at the end. -/
theorem wordPolynomial_crcShift (register : BitVec 16) (bit : Bool) :
    wordPolynomial (crcShift register bit) =
      appendIn frameGenerator (wordPolynomial register) (bitSymbol bit) := by
  set shifted := if bit then 1 + (register <<< 1) else register <<< 1 with shifted_eq
  have moved : X * wordPolynomial register + C (bitSymbol bit) =
      C (bitSymbol (register.getLsbD 15)) * X ^ 16 + wordPolynomial shifted := by
    ext position
    rw [coeff_add, coeff_add, coeff_wordPolynomial, coeff_C_mul_X_pow, coeff_C]
    rcases Nat.lt_trichotomy position 16 with inside | rfl | beyond
    · rw [shifted_eq, getLsbD_shift_one register bit inside,
        if_neg (Nat.ne_of_lt inside), zero_add]
      cases position with
      | zero => rw [coeff_X_mul_zero, if_pos rfl, if_pos rfl, zero_add]
      | succ position =>
          rw [coeff_X_mul, coeff_wordPolynomial, if_neg (Nat.succ_ne_zero _),
            if_neg (Nat.succ_ne_zero _), add_zero, Nat.add_sub_cancel]
    · rw [coeff_X_mul, coeff_wordPolynomial, if_pos rfl, if_neg (by decide),
        BitVec.getLsbD_of_ge shifted 16 (Nat.le_refl 16)]
      rfl
    · obtain ⟨position, rfl⟩ := Nat.exists_eq_succ_of_ne_zero
        (Nat.ne_of_gt (Nat.zero_lt_of_lt beyond))
      rw [coeff_X_mul, coeff_wordPolynomial, if_neg (Nat.succ_ne_zero _),
        if_neg (Nat.ne_of_gt beyond), BitVec.getLsbD_of_ge _ _ (by omega),
        BitVec.getLsbD_of_ge _ _ (by omega)]
      rfl
  have test : register &&& 0x8000 ≠ 0 ↔ register.getLsbD 15 = true := by
    have masked : register &&& 0x8000 =
        if register.getLsbD 15 then 0x8000 else 0 :=
      BitVec.and_twoPow register 15
    rw [masked]
    cases register.getLsbD 15 <;> decide
  rw [appendIn, moved, crcShift]
  cases top : register.getLsbD 15 with
  | false =>
      have zero : C (bitSymbol false) = (0 : (ZMod 2)[X]) := map_zero C
      rw [if_neg (mt test.mp (by rw [top]; decide)), ← shifted_eq, zero, zero_mul,
        zero_add, wordPolynomial_mod]
  | true =>
      rw [if_pos (test.mpr top), ← wordPolynomial_mod, wordPolynomial_xor,
        wordPolynomial_8810]
      apply modByMonic_eq_of_dvd_sub monic_frameGenerator
      have two : (2 : (ZMod 2)[X]) = 0 := CharP.cast_eq_zero _ 2
      have one : C (bitSymbol true) = (1 : (ZMod 2)[X]) := map_one C
      refine ⟨1, ?_⟩
      rw [one, frameGenerator]
      linear_combination -X ^ 16 * two

theorem wordPolynomial_genCRC16Byte (register : BitVec 16) (byte : UInt8) :
    wordPolynomial (genCRC16Byte register byte) =
      (lowBits 8 byte.toBitVec).reverse.foldl (appendIn frameGenerator)
        (wordPolynomial register) := by
  have bits : (lowBits 8 byte.toBitVec).reverse =
      (List.range 8).map fun i => bitSymbol (byte.toBitVec.getLsbD (7 - i)) := rfl
  rw [bits, List.foldl_map, genCRC16Byte]
  generalize List.range 8 = places
  induction places generalizing register with
  | nil => rfl
  | cons place rest inductionHypothesis =>
      rw [List.foldl_cons, List.foldl_cons, inductionHypothesis,
        wordPolynomial_crcShift]

/-- The loops keep the remainder of the data. -/
theorem wordPolynomial_foldl_genCRC16Byte (register : BitVec 16)
    (data : List UInt8) :
    wordPolynomial (data.foldl genCRC16Byte register) =
      (dataBits data).foldl (appendIn frameGenerator)
        (wordPolynomial register) := by
  induction data generalizing register with
  | nil => rfl
  | cons byte rest inductionHypothesis =>
      rw [List.foldl_cons, inductionHypothesis, wordPolynomial_genCRC16Byte,
        dataBits, dataBits, List.flatMap_cons, List.foldl_append]

theorem length_dataBits (data : List UInt8) :
    (dataBits data).length = 8 * data.length := by
  rw [dataBits, List.length_flatMap]
  simp only [List.length_reverse, length_lowBits, List.map_const', List.sum_replicate]
  rw [smul_eq_mul, Nat.mul_comm]

/-- The checksum decides nothing but divisibility of the difference. -/
theorem genCRC16_eq_iff_dvd {first second : List UInt8}
    (sameLength : first.length = second.length) :
    genCRC16 first = genCRC16 second ↔
      frameGenerator ∣ rowPolynomial (dataBits first) -
        rowPolynomial (dataBits second) := by
  rw [← wordPolynomial_injective.eq_iff, genCRC16, genCRC16,
    wordPolynomial_foldl_genCRC16Byte, wordPolynomial_foldl_genCRC16Byte]
  exact foldl_appendIn_eq_iff monic_frameGenerator (wordPolynomial_mod _)
    (by rw [length_dataBits, length_dataBits, sameLength])

/-! ## Bursts -/

/-- The factor of the generator that `X` does not divide. -/
noncomputable def burstGenerator : (ZMod 2)[X] := X ^ 12 + X ^ 11 + X ^ 7 + 1

theorem frameGenerator_eq : frameGenerator = X ^ 4 * burstGenerator := by
  unfold frameGenerator burstGenerator
  ring

theorem natDegree_burstGenerator : burstGenerator.natDegree = 12 := by
  unfold burstGenerator
  compute_degree!

theorem monic_burstGenerator : burstGenerator.Monic := by
  unfold burstGenerator
  monicity!

theorem isCoprime_burstGenerator_X : IsCoprime burstGenerator X :=
  ⟨1, -(X ^ 11 + X ^ 10 + X ^ 6), by unfold burstGenerator; ring⟩

/-- The bit of the data at a position, the highest bit of a byte first. -/
def dataBit (data : List UInt8) (position : Nat) : Bool :=
  ((data[position / 8]?).getD 0).toBitVec.getLsbD (7 - position % 8)

/-- All bits in which two rows of bytes differ lie within some positions in a
row. -/
def DifferWithin (count : Nat) (first second : List UInt8) : Prop :=
  ∃ start, ∀ position, dataBit first position ≠ dataBit second position →
    start ≤ position ∧ position < start + count

theorem dataBits_eq_map (data : List UInt8) :
    dataBits data = (List.range (8 * data.length)).map fun position =>
      bitSymbol (dataBit data position) := by
  induction data with
  | nil => rfl
  | cons byte rest inductionHypothesis =>
      have length : 8 * (byte :: rest).length = 8 + 8 * rest.length := by
        rw [List.length_cons]
        omega
      have here : (lowBits 8 byte.toBitVec).reverse = (List.range 8).map
          fun position => bitSymbol (byte.toBitVec.getLsbD (7 - position)) := rfl
      rw [dataBits, List.flatMap_cons, ← dataBits, inductionHypothesis, length,
        List.range_add, List.map_append, List.map_map, here]
      refine congrArg₂ (· ++ ·) ?_ ?_
      · apply List.map_congr_left
        intro position member
        have inByte := List.mem_range.mp member
        rw [dataBit, Nat.div_eq_of_lt inByte, Nat.mod_eq_of_lt inByte]
        rfl
      · apply List.map_congr_left
        intro position _
        have quotient : (8 + position) / 8 = position / 8 + 1 := by omega
        have remainder : (8 + position) % 8 = position % 8 := by omega
        rw [Function.comp_apply, dataBit, dataBit, quotient, remainder,
          List.getElem?_cons_succ]

theorem dataBits_injective {first second : List UInt8}
    (equal : dataBits first = dataBits second) : first = second := by
  induction first generalizing second with
  | nil =>
      cases second with
      | nil => rfl
      | cons byte rest => cases equal
  | cons byte rest inductionHypothesis =>
      cases second with
      | nil => cases equal
      | cons other others =>
          rw [dataBits, dataBits, List.flatMap_cons, List.flatMap_cons] at equal
          obtain ⟨here, later⟩ := List.append_inj equal (by simp)
          rw [UInt8.toBitVec_inj.mp (lowBits_inj (List.reverse_inj.mp here)),
            inductionHypothesis later]

theorem getElem?_dataBits (data : List UInt8) (position : Nat) :
    (dataBits data)[position]? =
      if position < 8 * data.length then
        some (bitSymbol (dataBit data position)) else none := by
  rw [dataBits_eq_map, List.getElem?_map]
  split
  · next inside =>
      rw [List.getElem?_range inside]
      rfl
  · next beyond =>
      rw [List.getElem?_eq_none (by rw [List.length_range]; omega)]
      rfl

/-- Two different rows of one length whose differing bits lie within twelve
positions in a row have different checksums. -/
theorem genCRC16_ne_of_differWithin {first second : List UInt8}
    (sameLength : first.length = second.length) (differ : first ≠ second)
    (burst : DifferWithin 12 first second) :
    genCRC16 first ≠ genCRC16 second := by
  obtain ⟨start, within⟩ := burst
  have same : ∀ position, ¬(start ≤ position ∧ position < start + 12) →
      (dataBits first)[position]? = (dataBits second)[position]? := by
    intro position outside
    rw [getElem?_dataBits, getElem?_dataBits, sameLength,
      not_not.mp (mt (within position) outside)]
  have front : (dataBits first).take start = (dataBits second).take start := by
    apply List.ext_getElem?
    intro position
    rw [List.getElem?_take, List.getElem?_take]
    split
    · exact same position (by omega)
    · rfl
  have back : (dataBits first).drop (start + 12) =
      (dataBits second).drop (start + 12) := by
    apply List.ext_getElem?
    intro position
    rw [List.getElem?_drop, List.getElem?_drop]
    exact same _ (by omega)
  have split (bits : List (ZMod 2)) : bits.take start ++
      (bits.drop start).take 12 ++ bits.drop (start + 12) = bits := by
    rw [List.append_assoc, ← List.drop_drop, List.take_append_drop,
      List.take_append_drop]
  intro equal
  have registers := congrArg wordPolynomial equal
  rw [genCRC16, genCRC16, wordPolynomial_foldl_genCRC16Byte,
    wordPolynomial_foldl_genCRC16Byte, ← split (dataBits first),
    ← split (dataBits second), ← front, ← back] at registers
  refine foldl_appendIn_ne_of_burst monic_frameGenerator monic_burstGenerator
    isCoprime_burstGenerator_X (Dvd.intro_left _ frameGenerator_eq.symm)
    (wordPolynomial_mod _) _ _ ?_ ?_ ?_ registers
  · rw [List.length_take, List.length_take, List.length_drop, List.length_drop,
      length_dataBits, length_dataBits, sameLength]
  · rw [natDegree_burstGenerator, List.length_take]
    exact Nat.min_le_left _ _
  · intro middle
    apply differ
    apply dataBits_injective
    rw [← split (dataBits first), ← split (dataBits second), front, back, middle]

/-! ## The check -/

/-- The two bytes of a word determine it. -/
theorem bytes_inj {first second : BitVec 16}
    (high : (first >>> 8).setWidth 8 = (second >>> 8).setWidth 8)
    (low : first.setWidth 8 = second.setWidth 8) : first = second := by
  apply BitVec.eq_of_getLsbD_eq
  intro position inside
  rcases Nat.lt_or_ge position 8 with below | above
  · have bit := congrArg (BitVec.getLsbD · position) low
    simpa [below] using bit
  · obtain ⟨offset, rfl⟩ := Nat.exists_eq_add_of_le above
    have bit := congrArg (BitVec.getLsbD · offset) high
    simpa [show offset < 8 by omega] using bit

/-- The check compares the checksums and the frame types. -/
theorem checkCRC16FrameType_append_iff {data received back : List UInt8}
    (sameLength : received.length = data.length) (sentType receivedType : UInt8) :
    checkCRC16FrameType (received ++ (crcBytes data sentType ++ back)) data.length
        receivedType = true ↔
      ((genCRC16 received >>> 8).setWidth 8 : BitVec 8) =
          (genCRC16 data >>> 8).setWidth 8 ∧
        (⟨(genCRC16 received).setWidth 8⟩ : UInt8) ^^^ receivedType =
          ⟨(genCRC16 data).setWidth 8⟩ ^^^ sentType := by
  have taken : (received ++ (crcBytes data sentType ++ back)).take data.length =
      received := List.take_left' sameLength
  have first : (received ++ (crcBytes data sentType ++ back)).getD data.length 0 =
      ⟨(genCRC16 data >>> 8).setWidth 8⟩ := by
    rw [List.getD_eq_getElem?_getD, ← sameLength,
      List.getElem?_append_right (Nat.le_refl _), Nat.sub_self]
    rfl
  have second :
      (received ++ (crcBytes data sentType ++ back)).getD (data.length + 1) 0 =
        ⟨(genCRC16 data).setWidth 8⟩ ^^^ sentType := by
    rw [List.getD_eq_getElem?_getD, ← sameLength,
      List.getElem?_append_right (Nat.le_add_right _ 1), Nat.add_sub_cancel_left]
    rfl
  rw [checkCRC16FrameType, decide_eq_true_eq, taken, first, second,
    eq_comm (a := (⟨(genCRC16 data >>> 8).setWidth 8⟩ : UInt8)),
    UInt8.ofBitVec.injEq]

theorem checkCRC16FrameType_same_iff {data received back : List UInt8}
    (sameLength : received.length = data.length) (bytFrameType : UInt8) :
    checkCRC16FrameType (received ++ (crcBytes data bytFrameType ++ back))
        data.length bytFrameType = true ↔
      genCRC16 received = genCRC16 data := by
  rw [checkCRC16FrameType_append_iff sameLength, UInt8.xor_left_inj,
    UInt8.ofBitVec.injEq]
  exact ⟨fun both => bytes_inj both.1 both.2, fun same => by rw [same]; trivial⟩

/-- Bytes with their checksum are accepted under their own frame type and no
other.  Damaged bytes in front of their checksum are accepted exactly if the
polynomial of the constant divides the damage, and never if the damage is a
burst of at most twelve bits. -/
theorem checkCRC16FrameType_crcBytes {data received : List UInt8}
    (sameLength : received.length = data.length) (sentType receivedType : UInt8) :
    (checkCRC16FrameType (genCRC16FrameType data sentType) data.length
        receivedType = true ↔ sentType = receivedType) ∧
      (checkCRC16FrameType (received ++ crcBytes data sentType) data.length
          sentType = true ↔
        frameGenerator ∣ rowPolynomial (dataBits received) -
          rowPolynomial (dataBits data)) ∧
      (received ≠ data → DifferWithin 12 received data →
        checkCRC16FrameType (received ++ crcBytes data sentType) data.length
          sentType = false) := by
  have whole := @checkCRC16FrameType_same_iff data received [] sameLength sentType
  rw [List.append_nil] at whole
  refine ⟨?_, ?_, ?_⟩
  · have own := @checkCRC16FrameType_append_iff data data [] rfl sentType receivedType
    rw [List.append_nil] at own
    rw [genCRC16FrameType, own, UInt8.xor_right_inj, @eq_comm _ receivedType]
    exact and_iff_right rfl
  · rw [whole, genCRC16_eq_iff_dvd sameLength]
  · intro differ burst
    rw [← Bool.not_eq_true, whole]
    exact genCRC16_ne_of_differWithin sameLength differ burst

theorem checkCRC16FrameType_of_text :
    checkCRC16FrameType (genCRC16FrameType [72, 105] 0x48) 2 0x48 = true :=
  (@checkCRC16FrameType_crcBytes [72, 105] [72, 105] rfl 0x48 0x48).1.mpr rfl

end Ardop
end Hamchat
