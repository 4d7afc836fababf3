import Hamchat.Ardop.Frames

/-!
# Delivery of data frames

A block that reaches the receiver with no more wrong bytes than half of its
check bytes delivers the data of its carrier, if its checksum does not accept
the wrong bytes by accident.  The blocks of a frame carry its data.
-/

namespace Hamchat
namespace Ardop

/-! ## Blocks -/

/-- A block carries some data: a count, the data and whatever fills the carrier,
the checksum and the check bytes. -/
structure BlockOf (bytFrameType : UInt8) (intDataLen intRSLen : Nat)
    (chunk block : List UInt8) : Prop where
  short : chunk.length ≤ intDataLen
  encoded : ∃ counted, counted.length = intDataLen + 1 ∧
    counted.getD 0 0 = UInt8.ofNat chunk.length ∧
    payload counted chunk.length = chunk ∧
    block = withCheckBytes Coder.initial (genCRC16FrameType counted bytFrameType)
      intRSLen

/-- The lengths for which the coder has room. -/
structure BlockLengths (intDataLen intRSLen : Nat) : Prop where
  checked : 0 < intRSLen
  small : intRSLen ≤ 64
  fits : intDataLen + 3 + intRSLen ≤ 255

/-- The received bytes are close to the block, and the checksum does not accept
them if the data or the checksum is wrong. -/
def Readable (bytFrameType : UInt8) (intDataLen intRSLen : Nat)
    (block received : List UInt8) : Prop :=
  received.length = block.length ∧ 2 * differences block received ≤ intRSLen ∧
    (checkCRC16FrameType received (intDataLen + 1) bytFrameType = true →
      received.take (intDataLen + 3) = block.take (intDataLen + 3))

/-- The checksum refuses the received bytes, and what the check bytes make of
them. -/
def Refused (bytFrameType : UInt8) (intDataLen intRSLen : Nat)
    (received : List UInt8) : Prop :=
  received.length = intDataLen + 3 + intRSLen ∧
    checkCRC16FrameType received (intDataLen + 1) bytFrameType = false ∧
    ((rsDecode Coder.initial received intRSLen).frameOK = true →
      checkCRC16FrameType (rsDecode Coder.initial received intRSLen).bytRcv
        (intDataLen + 1) bytFrameType = false)

section Arrays

theorem getD_take {array : List UInt8} {count i : Nat} (inside : i < count) :
    (array.take count).getD i 0 = array.getD i 0 := by
  rw [List.getD_eq_getElem?_getD, List.getElem?_take_of_lt inside,
    List.getD_eq_getElem?_getD]

theorem payload_congr {first second : List UInt8} {count : Nat}
    (same : first.take (count + 1) = second.take (count + 1)) :
    payload first count = payload second count := by
  apply tabulate_congr
  intro i inside
  rw [← getD_take (show i + 1 < count + 1 by omega), same, getD_take (by omega)]

/-- The checksum reads the front of an array only. -/
theorem checkCRC16FrameType_congr {first second : List UInt8} {length : Nat}
    (same : first.take (length + 2) = second.take (length + 2)) (bytFrameType : UInt8) :
    checkCRC16FrameType first length bytFrameType =
      checkCRC16FrameType second length bytFrameType := by
  have front : first.take length = second.take length := by
    have shorter := congrArg (List.take length) same
    rwa [List.take_take, List.take_take, Nat.min_eq_left (by omega)] at shorter
  rw [checkCRC16FrameType, checkCRC16FrameType, front,
    ← getD_take (show length < length + 2 by omega), same, getD_take (by omega),
    ← @getD_take first _ _ (show length + 1 < length + 2 by omega), same,
    getD_take (by omega)]

end Arrays

section Block

variable {bytFrameType : UInt8} {intDataLen intRSLen : Nat} {chunk block : List UInt8}

theorem BlockOf.length_eq (blockOf : BlockOf bytFrameType intDataLen intRSLen chunk block) :
    block.length = intDataLen + 3 + intRSLen := by
  obtain ⟨counted, sized, _, _, rfl⟩ := blockOf.encoded
  rw [length_withCheckBytes, genCRC16FrameType, List.length_append, sized]
  rfl

/-- The front of a block delivers its data. -/
theorem BlockOf.payload_eq (blockOf : BlockOf bytFrameType intDataLen intRSLen chunk block)
    (lengths : BlockLengths intDataLen intRSLen) {raw : List UInt8}
    (same : raw.take (intDataLen + 3) = block.take (intDataLen + 3)) :
    payload raw (raw.getD 0 0).toNat = chunk := by
  obtain ⟨counted, sized, count, data, rfl⟩ := blockOf.encoded
  have short := blockOf.short
  have fits := lengths.fits
  have front : raw.take (intDataLen + 1) = counted := by
    have shorter := congrArg (List.take (intDataLen + 1)) same
    rw [List.take_take, List.take_take, Nat.min_eq_left (by omega), withCheckBytes,
      genCRC16FrameType, List.append_assoc, List.take_left' sized] at shorter
    exact shorter
  have first : raw.getD 0 0 = UInt8.ofNat chunk.length := by
    rw [← getD_take (Nat.succ_pos intDataLen), front, count]
  have number : (UInt8.ofNat chunk.length).toNat = chunk.length := by
    rw [UInt8.toNat_ofNat', Nat.mod_eq_of_lt (by omega)]
  rw [first, number]
  refine Eq.trans (payload_congr ?_) data
  rw [← front, List.take_take, Nat.min_eq_left (by omega)]

/-- The checksum of a block is right. -/
theorem BlockOf.check (blockOf : BlockOf bytFrameType intDataLen intRSLen chunk block) :
    checkCRC16FrameType block (intDataLen + 1) bytFrameType = true := by
  obtain ⟨counted, sized, _, _, rfl⟩ := blockOf.encoded
  rw [withCheckBytes, genCRC16FrameType, List.append_assoc, ← sized]
  exact (checkCRC16FrameType_same_iff rfl bytFrameType).mpr rfl

/-- A carrier delivers its data once it is decoded. -/
def Delivers (chunk : List UInt8) (carrier : Carrier) : Prop :=
  carrier.carrierOk = true →
    payload carrier.bytRawData (carrier.bytRawData.getD 0 0).toNat = chunk

/-- A carrier that is not good yet and whose bytes are close to the block becomes
good. -/
theorem BlockOf.correct_of_readable
    (blockOf : BlockOf bytFrameType intDataLen intRSLen chunk block)
    (lengths : BlockLengths intDataLen intRSLen) {coder : Coder} (ready : coder.Ready)
    (totalRSErrors : Nat) {carrier : Carrier} (bad : ¬carrier.carrierOk = true)
    (readable : Readable bytFrameType intDataLen intRSLen block
      (carrier.bytRawData.take (intDataLen + 3 + intRSLen))) :
    (correctRawDataWithRS coder totalRSErrors carrier intDataLen intRSLen
        bytFrameType).carrier.carrierOk = true ∧
      Delivers chunk (correctRawDataWithRS coder totalRSErrors carrier intDataLen
        intRSLen bytFrameType).carrier := by
  obtain ⟨sameLength, few, honest⟩ := readable
  have blockLength := blockOf.length_eq
  set raw := carrier.bytRawData with raw_eq
  obtain ⟨received, whole⟩ : ∃ received, raw.take (intDataLen + 3 + intRSLen) = received :=
    ⟨_, rfl⟩
  rw [whole] at sameLength few honest
  have front : raw.take (intDataLen + 3) = received.take (intDataLen + 3) := by
    rw [← whole, List.take_take, Nat.min_eq_left (by omega)]
  have sameCheck := @checkCRC16FrameType_congr _ _ (intDataLen + 1) front bytFrameType
  rw [correctRawDataWithRS, if_neg bad]
  dsimp only
  by_cases accepted : checkCRC16FrameType raw (intDataLen + 1) bytFrameType = true
  · -- The checksum is right, and so is the front.
    rw [if_pos accepted]
    refine ⟨rfl, fun _ => blockOf.payload_eq lengths ?_⟩
    exact front.trans (honest (sameCheck ▸ accepted))
  · -- The check bytes restore the block.
    obtain ⟨counted, sized, _, _, encoded⟩ := blockOf.encoded
    have checkedLength : (genCRC16FrameType counted bytFrameType).length =
        intDataLen + 3 := by
      rw [genCRC16FrameType, List.length_append, sized]
      rfl
    have restored := @Coder.Ready.restores _ _ Coder.ready_initial ready
      (genCRC16FrameType counted bytFrameType) received _ lengths.checked
      lengths.small (List.length_pos_iff.mp (by omega))
      (by rw [checkedLength]; exact lengths.fits) (by omega) (by rwa [← encoded])
    dsimp only at restored
    rw [← encoded] at restored
    have again : (block ++ raw.drop (intDataLen + 3 + intRSLen)).take
        (intDataLen + 1 + 2) = block.take (intDataLen + 1 + 2) :=
      List.take_append_of_le_length (by omega)
    rw [if_neg accepted, whole, restored.2.1, if_pos ⟨restored.1,
      (checkCRC16FrameType_congr again bytFrameType).trans blockOf.check⟩]
    exact ⟨rfl, fun _ => blockOf.payload_eq lengths again⟩

/-- Bytes that are refused leave the carrier bad. -/
theorem correct_of_refused (lengths : BlockLengths intDataLen intRSLen) {coder : Coder}
    (ready : coder.Ready) (totalRSErrors : Nat) {carrier : Carrier}
    (bad : ¬carrier.carrierOk = true)
    (refused : Refused bytFrameType intDataLen intRSLen
      (carrier.bytRawData.take (intDataLen + 3 + intRSLen))) :
    (correctRawDataWithRS coder totalRSErrors carrier intDataLen intRSLen
      bytFrameType).carrier.carrierOk = false := by
  obtain ⟨sized, wrong, stillWrong⟩ := refused
  set raw := carrier.bytRawData with raw_eq
  obtain ⟨received, whole⟩ : ∃ received, raw.take (intDataLen + 3 + intRSLen) = received :=
    ⟨_, rfl⟩
  rw [whole] at sized wrong stillWrong
  have front : raw.take (intDataLen + 1 + 2) = received.take (intDataLen + 1 + 2) := by
    rw [← whole, List.take_take, Nat.min_eq_left (by omega)]
  have sameReturn := (rsDecode_returned_eq ready Coder.ready_initial received
    lengths.checked lengths.small).1
  have sameFrame := congrArg Prod.fst sameReturn
  have sameBytes := congrArg (fun returned => returned.2.2) sameReturn
  simp only [RSResult.returned] at sameFrame sameBytes
  rw [correctRawDataWithRS, if_neg bad]
  dsimp only
  rw [checkCRC16FrameType_congr front, if_neg (by rw [wrong]; exact Bool.false_ne_true),
    whole, if_neg]
  rintro ⟨frameOK, accepted⟩
  have kept : ((rsDecode coder received intRSLen).bytRcv ++
      raw.drop (intDataLen + 3 + intRSLen)).take (intDataLen + 1 + 2) =
        (rsDecode coder received intRSLen).bytRcv.take (intDataLen + 1 + 2) :=
    List.take_append_of_le_length (by rw [length_rsDecode]; omega)
  rw [checkCRC16FrameType_congr kept, sameBytes,
    stillWrong (sameFrame.symm.trans frameOK)] at accepted
  exact Bool.false_ne_true accepted

/-- What an attempt to correct a carrier makes of it. -/
theorem BlockOf.correct (blockOf : BlockOf bytFrameType intDataLen intRSLen chunk block)
    (lengths : BlockLengths intDataLen intRSLen) {coder : Coder} (ready : coder.Ready)
    (totalRSErrors : Nat) {carrier : Carrier} (delivers : Delivers chunk carrier)
    (decided : ¬carrier.carrierOk = true →
      Readable bytFrameType intDataLen intRSLen block
          (carrier.bytRawData.take (intDataLen + 3 + intRSLen)) ∨
        Refused bytFrameType intDataLen intRSLen
          (carrier.bytRawData.take (intDataLen + 3 + intRSLen))) :
    ((correctRawDataWithRS coder totalRSErrors carrier intDataLen intRSLen
        bytFrameType).carrier.carrierOk = true ↔
        carrier.carrierOk = true ∨ Readable bytFrameType intDataLen intRSLen block
          (carrier.bytRawData.take (intDataLen + 3 + intRSLen))) ∧
      Delivers chunk (correctRawDataWithRS coder totalRSErrors carrier intDataLen
        intRSLen bytFrameType).carrier := by
  by_cases good : carrier.carrierOk = true
  · -- The carrier is kept.
    rw [correctRawDataWithRS, if_pos good]
    exact ⟨iff_of_true good (.inl good), delivers⟩
  · rcases decided good with readable | refused
    · have corrected := blockOf.correct_of_readable lengths ready totalRSErrors good readable
      exact ⟨iff_of_true corrected.1 (.inr readable), corrected.2⟩
    · have bad := correct_of_refused lengths ready totalRSErrors good refused
      refine ⟨iff_of_false (by rw [bad]; exact Bool.false_ne_true) ?_, fun isGood => ?_⟩
      · rintro (isGood | readable)
        · exact good isGood
        · have corrected :=
            blockOf.correct_of_readable lengths ready totalRSErrors good readable
          exact Bool.false_ne_true (bad.symm.trans corrected.1)
      · exact absurd (bad.symm.trans isGood) Bool.false_ne_true

/-- A block of another type of frame is refused: its check bytes are right, but not its
checksum. -/
theorem BlockOf.refused {other : UInt8}
    (blockOf : BlockOf other intDataLen intRSLen chunk block)
    (lengths : BlockLengths intDataLen intRSLen) (different : other ≠ bytFrameType) :
    Refused bytFrameType intDataLen intRSLen block := by
  have blockLength := blockOf.length_eq
  obtain ⟨counted, sized, _, _, encoded⟩ := blockOf.encoded
  have wrong : checkCRC16FrameType block (intDataLen + 1) bytFrameType = false := by
    rw [← Bool.not_eq_true, encoded, withCheckBytes, genCRC16FrameType,
      List.append_assoc, ← sized, checkCRC16FrameType_append_iff rfl,
      UInt8.xor_right_inj]
    exact fun same => different same.2.symm
  have checkedLength : (genCRC16FrameType counted other).length = intDataLen + 3 := by
    rw [genCRC16FrameType, List.length_append, sized]
    rfl
  have restored := @Coder.Ready.restores _ _ Coder.ready_initial Coder.ready_initial
    (genCRC16FrameType counted other) block _ lengths.checked lengths.small
    (List.length_pos_iff.mp (by omega)) (by rw [checkedLength]; exact lengths.fits)
    (by omega) (by rw [← encoded, differences_self]; exact Nat.zero_le _)
  refine ⟨blockLength, wrong, fun _ => ?_⟩
  rw [restored.2.1, ← encoded]
  exact wrong

theorem correctRawDataWithRS_intSumCount (coder : Coder) (totalRSErrors : Nat)
    (carrier : Carrier) :
    (correctRawDataWithRS coder totalRSErrors carrier intDataLen intRSLen
      bytFrameType).carrier.intSumCount = carrier.intSumCount := by
  unfold correctRawDataWithRS
  dsimp only
  split
  · rfl
  · split
    · rfl
    · split <;> rfl

end Block

/-! ## Encoding -/

/-- The data of each carrier. -/
def carrierChunks (intDataLen : Nat) : Nat → List UInt8 → List (List UInt8)
  | 0, _ => []
  | carriers + 1, data =>
      data.take intDataLen :: carrierChunks intDataLen carriers (data.drop intDataLen)

theorem flatten_carrierChunks (intDataLen carriers : Nat) {data : List UInt8}
    (fits : data.length ≤ carriers * intDataLen) :
    (carrierChunks intDataLen carriers data).flatten = data := by
  induction carriers generalizing data with
  | zero =>
      rw [Nat.zero_mul, Nat.le_zero, List.length_eq_zero_iff] at fits
      rw [fits]
      rfl
  | succ carriers inductionHypothesis =>
      rw [carrierChunks, List.flatten_cons, inductionHypothesis,
        List.take_append_drop]
      rw [List.length_drop]
      rw [Nat.succ_mul] at fits
      omega

theorem length_encodeCarriers (wontFit : Nat → Nat → Bool) (bytFrameType : UInt8)
    (intDataLen intRSLen carriers : Nat) (coder : Coder) (data buffer : List UInt8) :
    (encodeCarriers wontFit bytFrameType intDataLen intRSLen carriers coder data
      buffer).1.length = carriers := by
  induction carriers generalizing coder data buffer with
  | zero => rfl
  | succ carriers inductionHypothesis =>
      rw [encodeCarriers]
      exact congrArg Nat.succ (inductionHypothesis _ _ _)

/-- Each carrier gets its part of the data, however the comparison is written. -/
theorem forall₂_encodeCarriers {wontFit : Nat → Nat → Bool} {intDataLen intRSLen : Nat}
    (lengths : BlockLengths intDataLen intRSLen)
    (compares : ∀ count, (if wontFit count intDataLen then intDataLen else count) =
      min count intDataLen) (bytFrameType : UInt8) (carriers : Nat) {coder : Coder}
    (ready : coder.Ready) (data buffer : List UInt8) :
    List.Forall₂ (BlockOf bytFrameType intDataLen intRSLen)
      (carrierChunks intDataLen carriers data)
      (encodeCarriers wontFit bytFrameType intDataLen intRSLen carriers coder data
        buffer).1 := by
  induction carriers generalizing coder data buffer with
  | zero => exact List.Forall₂.nil
  | succ carriers inductionHypothesis =>
      have chunkLength : (data.take intDataLen).length =
          min data.length intDataLen := by
        rw [List.length_take, Nat.min_comm]
      rw [carrierChunks, encodeCarriers, compares]
      dsimp only
      refine List.Forall₂.cons ?_ ?_
      · refine ⟨by omega, UInt8.ofNat (min data.length intDataLen) ::
          tabulate intDataLen fun i =>
            if i < min data.length intDataLen then data.getD i 0
            else buffer.getD (i + 1) 0, ?_, ?_, ?_, ?_⟩
        · rw [List.length_cons, length_tabulate]
        · rw [chunkLength]
          rfl
        · apply eq_of_entry_eq
          · rw [payload, length_tabulate]
          · intro i inside
            rw [payload, length_tabulate, chunkLength] at inside
            rw [payload, entry_tabulate, if_pos (by omega), List.getD_cons_succ]
            change entry (tabulate _ _) i = _
            rw [entry_tabulate, if_pos (by omega), if_pos inside, entry,
              getD_take (by omega)]
        · rw [withCheckBytes, rsEncode_eq ready Coder.ready_initial _ lengths.checked
            lengths.small]
      · have dropped : data.drop (min data.length intDataLen) = data.drop intDataLen := by
          rcases Nat.le_total data.length intDataLen with short | long
          · rw [Nat.min_eq_left short, List.drop_length, List.drop_of_length_le short]
          · rw [Nat.min_eq_right long]
        rw [dropped]
        exact inductionHypothesis (ready.setLength _).1 _ _

/-! ## Decoding -/

section Frame

variable {bytFrameType : UInt8} {intDataLen intRSLen : Nat}

theorem ready_correctRawDataWithRS {coder : Coder} (ready : coder.Ready)
    (totalRSErrors : Nat) (carrier : Carrier) :
    (correctRawDataWithRS coder totalRSErrors carrier intDataLen intRSLen
      bytFrameType).coder.Ready := by
  unfold correctRawDataWithRS
  dsimp only
  split
  · exact ready
  · split
    · exact ready
    · split <;> exact ready.rsDecode _ _

/-- A good carrier gives the payload of its array. -/
theorem data_correctRawDataWithRS {coder : Coder} {totalRSErrors : Nat}
    {carrier : Carrier}
    (good : (correctRawDataWithRS coder totalRSErrors carrier intDataLen intRSLen
      bytFrameType).carrier.carrierOk = true) :
    (correctRawDataWithRS coder totalRSErrors carrier intDataLen intRSLen
        bytFrameType).data =
      payload (correctRawDataWithRS coder totalRSErrors carrier intDataLen intRSLen
          bytFrameType).carrier.bytRawData
        ((correctRawDataWithRS coder totalRSErrors carrier intDataLen intRSLen
          bytFrameType).carrier.bytRawData.getD 0 0).toNat := by
  revert good
  unfold correctRawDataWithRS
  dsimp only
  split
  · exact fun _ => rfl
  · split
    · exact fun _ => rfl
    · split
      · exact fun _ => rfl
      · exact fun bad => absurd bad Bool.false_ne_true

/-- One carrier after the other, with whatever the coder has kept. -/
structure CorrectsEach (bytFrameType : UInt8) (intDataLen intRSLen : Nat)
    (carriers : List Carrier) (corrected : CorrectedCarriers) : Prop where
  ready : corrected.coder.Ready
  sameLength : corrected.carriers.length = carriers.length
  pieces : corrected.carriers.all Carrier.carrierOk = true →
    corrected.pieces = corrected.carriers.map fun carrier =>
      payload carrier.bytRawData (carrier.bytRawData.getD 0 0).toNat
  each : ∀ (place : Nat) (carrier : Carrier), carriers[place]? = some carrier →
    ∃ coder totalRSErrors, Coder.Ready coder ∧ corrected.carriers[place]? =
      some (correctRawDataWithRS coder totalRSErrors carrier intDataLen intRSLen
        bytFrameType).carrier

theorem correctsEach_correctCarriers (carriers : List Carrier) {coder : Coder}
    (ready : coder.Ready) (totalRSErrors : Nat) :
    CorrectsEach bytFrameType intDataLen intRSLen carriers
      (correctCarriers intDataLen intRSLen bytFrameType coder totalRSErrors carriers) := by
  induction carriers generalizing coder totalRSErrors with
  | nil =>
      exact
        { ready
          sameLength := rfl
          pieces := fun _ => rfl
          each := fun place carrier none => by
            rw [List.getElem?_nil] at none
            cases none }
  | cons carrier carriers inductionHypothesis =>
      have rest := inductionHypothesis
        (@ready_correctRawDataWithRS bytFrameType intDataLen intRSLen _ ready
          totalRSErrors carrier)
        (correctRawDataWithRS coder totalRSErrors carrier intDataLen intRSLen
          bytFrameType).totalRSErrors
      rw [correctCarriers]
      exact
        { ready := rest.ready
          sameLength := congrArg Nat.succ rest.sameLength
          pieces := by
            intro allGood
            rw [List.all_cons, Bool.and_eq_true] at allGood
            rw [List.map_cons, ← rest.pieces allGood.2,
              ← data_correctRawDataWithRS allGood.1]
          each := by
            intro place other here
            cases place with
            | zero =>
                rw [List.getElem?_cons_zero, Option.some.injEq] at here
                subst here
                exact ⟨coder, totalRSErrors, ready, rfl⟩
            | succ place => exact rest.each place other here }

end Frame

/-! ## Whole frames -/

/-- A type of frame whose blocks have room for the coder as they are. -/
def WholeBlocks (bytFrameType : UInt8) (info : FrameParameters) : Prop :=
  (info.intBaud < 600 ∨ info.intDataLen < 600) ∧ bytFrameType ≠ 0x7A ∧
    bytFrameType ≠ 0x7B ∧ 0 < info.intRSLen ∧ info.intRSLen ≤ 64 ∧
    info.intDataLen + 3 + info.intRSLen ≤ 255

/-- A type of frame that is split in three. -/
def SplitBlocks (bytFrameType : UInt8) (info : FrameParameters) : Prop :=
  ¬(info.intBaud < 600 ∨ info.intDataLen < 600) ∧
    (bytFrameType = 0x7A ∨ bytFrameType = 0x7B) ∧ info.strMod = .fsk4 ∧
    info.intDataLen = 600 ∧ info.intRSLen = 150 ∧ info.intNumCar = 1

instance (bytFrameType : UInt8) (info : FrameParameters) :
    Decidable (WholeBlocks bytFrameType info) :=
  inferInstanceAs (Decidable (_ ∧ _))

instance (bytFrameType : UInt8) (info : FrameParameters) :
    Decidable (SplitBlocks bytFrameType info) :=
  inferInstanceAs (Decidable (_ ∧ _))

/-- Every case of `FrameInfo` that carries data is of one of the two kinds. -/
theorem frameCases_blocks : ∀ frame ∈ frameCases, ∀ bytFrameType ∈ frame.types,
    0x40 ≤ bytFrameType → bytFrameType ≤ 0x7D →
      WholeBlocks bytFrameType (frame.parameters bytFrameType) ∨
        SplitBlocks bytFrameType (frame.parameters bytFrameType) := by
  decide +kernel

theorem frameInfo_blocks {packet : PacketSettings} {bytFrameType : UInt8}
    {info : FrameParameters} (known : frameInfo packet bytFrameType = some info)
    (low : 0x40 ≤ bytFrameType) (high : bytFrameType ≤ 0x7D) :
    WholeBlocks bytFrameType info ∨ SplitBlocks bytFrameType info := by
  have lowNumber : 64 ≤ bytFrameType.toNat := low
  have highNumber : bytFrameType.toNat ≤ 125 := high
  have noControl : ¬(bytFrameType ≤ 0x1F ∨ 0xE0 ≤ bytFrameType) := by
    rintro (small | large)
    · have number : bytFrameType.toNat ≤ 31 := small
      omega
    · have number : 224 ≤ bytFrameType.toNat := large
      omega
  have noHeader : bytFrameType ≠ pktFrameHeader := by
    rintro rfl
    exact absurd high (by decide)
  have noData : bytFrameType ≠ pktFrameData := by
    rintro rfl
    exact absurd high (by decide)
  rw [frameInfo, if_neg noControl, if_neg noHeader, if_neg noData,
    Option.map_eq_some_iff] at known
  obtain ⟨frame, found, rfl⟩ := known
  have among := List.mem_of_find?_eq_some found
  have hit : bytFrameType ∈ frame.types :=
    of_decide_eq_true (@List.find?_some _
      (fun frame : FrameCase => decide (bytFrameType ∈ frame.types)) _ _ found)
  exact frameCases_blocks frame among bytFrameType hit low high

/-- The blocks of a data frame carry its data in the lengths with which they are
decoded. -/
theorem encodeDataFrame_spec {packet : PacketSettings} {bytFrameType : UInt8}
    {info : FrameParameters} (known : frameInfo packet bytFrameType = some info)
    (low : 0x40 ≤ bytFrameType) (high : bytFrameType ≤ 0x7D) {coder : Coder}
    (ready : coder.Ready) {bytSessionID : UInt8} {data buffer : List UInt8}
    (fits : data.length ≤ info.intNumCar * info.intDataLen) {frame : EncodedFrame}
    (sent : (encodeDataFrame packet info coder bytSessionID bytFrameType data
      buffer).1 = some frame) :
    BlockLengths (decodeLengths bytFrameType info).1 (decodeLengths bytFrameType info).2 ∧
      ∃ chunks, chunks.flatten = data ∧
        List.Forall₂ (BlockOf bytFrameType (decodeLengths bytFrameType info).1
          (decodeLengths bytFrameType info).2) chunks frame.blocks := by
  have greater (dataLen count : Nat) :
      (if decide (count > dataLen) then dataLen else count) = min count dataLen := by
    simp only [decide_eq_true_eq]
    split <;> omega
  have atLeast (dataLen count : Nat) :
      (if decide (count ≥ dataLen) then dataLen else count) = min count dataLen := by
    simp only [decide_eq_true_eq]
    split <;> omega
  rcases frameInfo_blocks known low high with
    ⟨short, notFirst, notSecond, checked, small, room⟩ |
      ⟨long, isLong, isFSK, dataLen, rsLen, one⟩
  · have same : decodeLengths bytFrameType info = (info.intDataLen, info.intRSLen) :=
      if_neg (not_or.mpr ⟨notFirst, notSecond⟩)
    have lengths : BlockLengths info.intDataLen info.intRSLen := ⟨checked, small, room⟩
    rw [same]
    refine ⟨lengths, carrierChunks info.intDataLen info.intNumCar data,
      flatten_carrierChunks _ _ fits, ?_⟩
    rw [encodeDataFrame] at sent
    split at sent
    · rw [encodeFSKData, known] at sent
      simp only [if_pos short] at sent
      split at sent
      · cases sent
      · rw [Option.some.injEq] at sent
        rw [← sent]
        exact forall₂_encodeCarriers lengths (atLeast _) _ _ ready _ _
    · rw [encodePSKData, known] at sent
      dsimp only at sent
      split at sent
      · cases sent
      · rw [Option.some.injEq] at sent
        rw [← sent]
        exact forall₂_encodeCarriers lengths (greater _) _ _ ready _ _
  · have same : decodeLengths bytFrameType info = (200, 50) := if_pos isLong
    have lengths : BlockLengths 200 50 := ⟨by decide, by decide, by decide⟩
    rw [same]
    rw [dataLen, one] at fits
    refine ⟨lengths, carrierChunks 200 3 data, flatten_carrierChunks _ _ fits, ?_⟩
    rw [encodeDataFrame, if_pos isFSK, encodeFSKData, known] at sent
    simp only [if_neg long] at sent
    split at sent
    · cases sent
    · rw [dataLen, rsLen, Option.some.injEq] at sent
      rw [← sent]
      exact @forall₂_encodeCarriers (fun count dataLen => decide (count ≥ dataLen))
        _ _ lengths (atLeast 200) _ 3 _ ready _ _

end Ardop
end Hamchat
