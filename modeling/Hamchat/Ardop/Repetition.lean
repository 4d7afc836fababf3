import Hamchat.Ardop.MemoryArq

/-!
# Repeated data frames

A frame that is repeated is decoded when each of its carriers has come through at
least once, in a reception or in the average of some.
-/

namespace Hamchat
namespace Ardop

/-! ## Repetitions -/

/-- The receiver after some receptions of one type of frame. -/
def Receiver.receiveAll (receiver : Receiver) (strMod : Modulation) (bytFrameType : UInt8)
    (intDataLen intRSLen : Nat) (receptions : List Samples) : Receiver :=
  receptions.foldl
    (fun receiver samples =>
      (receiver.receiveFrame strMod bytFrameType intDataLen intRSLen samples).1)
    receiver

/-- A carrier has been heard well in one of the receptions, or from the second one on in
an average. -/
def Heard (strMod : Modulation) (bytFrameType : UInt8) (intDataLen intRSLen : Nat)
    (blocks : List (List UInt8)) (receptions : List Samples) (place : Nat) : Prop :=
  ∃ (count : Nat) (samples : Samples), receptions[count]? = some samples ∧
    (Readable bytFrameType intDataLen intRSLen (blocks.getD place [])
        (samples.received.getD place []) ∨
      0 < count ∧ Retried strMod place ∧
        Readable bytFrameType intDataLen intRSLen (blocks.getD place [])
          (samples.average intDataLen intRSLen place))

/-- What the receiver holds while a frame is repeated. -/
structure Receiver.Holds (receiver : Receiver) (strMod : Modulation)
    (bytFrameType : UInt8) (intDataLen intRSLen : Nat) (chunks blocks : List (List UInt8))
    (receptions : List Samples) : Prop where
  frameType : receiver.lastDataFrameType = bytFrameType
  ready : receiver.coder.Ready
  stand : Stand strMod chunks (Heard strMod bytFrameType intDataLen intRSLen blocks receptions)
    receptions.length receiver.carriers

section Repetitions

variable {strMod : Modulation} {bytFrameType : UInt8} {intDataLen intRSLen : Nat}
  {chunks blocks : List (List UInt8)} {samples : Samples}

theorem heard_concat {receptions : List Samples} {last : Samples} {place : Nat} :
    Heard strMod bytFrameType intDataLen intRSLen blocks (receptions ++ [last]) place ↔
      (Heard strMod bytFrameType intDataLen intRSLen blocks receptions place ∨
        Readable bytFrameType intDataLen intRSLen (blocks.getD place [])
          (last.received.getD place [])) ∨
        0 < receptions.length ∧ Retried strMod place ∧
          Readable bytFrameType intDataLen intRSLen (blocks.getD place [])
            (last.average intDataLen intRSLen place) := by
  rw [or_assoc]
  constructor
  · rintro ⟨count, samples, here, heard⟩
    rcases Nat.lt_or_ge count receptions.length with inside | beyond
    · rw [List.getElem?_append_left inside] at here
      exact .inl ⟨count, samples, here, heard⟩
    · rw [List.getElem?_append_right beyond] at here
      have first := (List.getElem?_eq_some_iff.mp here).1
      rw [List.length_singleton] at first
      obtain rfl : count = receptions.length := by omega
      rw [Nat.sub_self, List.getElem?_cons_zero, Option.some.injEq] at here
      exact .inr (here ▸ heard)
  · rintro (⟨count, samples, here, heard⟩ | heard)
    · refine ⟨count, samples, ?_, heard⟩
      rw [List.getElem?_append_left (List.getElem?_eq_some_iff.mp here).1]
      exact here
    · exact ⟨receptions.length, last, List.getElem?_concat_length, heard⟩

theorem Receiver.Holds.correctFrame {receiver : Receiver} {receptions : List Samples}
    (holds : receiver.Holds strMod bytFrameType intDataLen intRSLen chunks blocks receptions)
    (lengths : BlockLengths intDataLen intRSLen)
    (encoded : List.Forall₂ (BlockOf bytFrameType intDataLen intRSLen) chunks blocks)
    {samples : Samples}
    (decided : Decided strMod bytFrameType intDataLen intRSLen blocks samples) :
    let demodulation :=
      receiver.correctFrame bytFrameType intDataLen intRSLen samples.received
    let known := fun place =>
      Heard strMod bytFrameType intDataLen intRSLen blocks receptions place ∨
        Readable bytFrameType intDataLen intRSLen (blocks.getD place [])
          (samples.received.getD place [])
    demodulation.Knows strMod chunks known receptions.length ∧
      ((∀ place < chunks.length, known place) → demodulation.Moves chunks.flatten) := by
  intro demodulation known
  have chunkCount := encoded.length_eq
  have receivedCount : samples.received.length = chunks.length :=
    decided.1.trans chunkCount.symm
  have usedLength : (List.zipWith demodulate receiver.carriers samples.received).length =
      chunks.length := by
    rw [List.length_zipWith, receivedCount, Nat.min_eq_right holds.stand.enough]
  have corrects := @correctsEach_correctCarriers bytFrameType intDataLen intRSLen
    (List.zipWith demodulate receiver.carriers samples.received) _ holds.ready 0
  have decides (place : Nat) (inside : place < chunks.length) :=
    (decided.2 place (chunkCount ▸ inside)).1
  have tries (place : Nat) (carrier : Carrier)
      (here : (List.zipWith demodulate receiver.carriers samples.received)[place]? =
        some carrier)
      (bad : ¬carrier.carrierOk = true) :
      carrier.bytRawData.take (intDataLen + 3 + intRSLen) =
        samples.received.getD place [] := by
    have inside : place < chunks.length :=
      usedLength ▸ (List.getElem?_eq_some_iff.mp here).1
    exact holds.stand.prepare_tries here inside (by omega) bad
      (length_of_decided (blockOf_getD encoded inside) (decides place inside))
  have corrected := (holds.stand.prepare receivedCount).correct
    (fun place => samples.received.getD place []) lengths encoded tries
    (fun place inside => decides place (usedLength ▸ inside)) corrects
  have after : Stand strMod chunks known receptions.length demodulation.carriers := by
    refine corrected.mono (Nat.le_refl _) ?_ (.inl rfl)
    intro place inside
    exact or_congr_right (and_iff_right (usedLength ▸ inside))
  refine ⟨⟨corrects.ready, after⟩, fun heard => ?_⟩
  have pieces := after.pieces_eq corrects usedLength heard
  have moved : demodulation.bytData.take demodulation.frameLen =
      (correctCarriers intDataLen intRSLen bytFrameType receiver.coder 0
        (List.zipWith demodulate receiver.carriers samples.received)).pieces.flatten :=
    List.take_left
  exact moved.trans (congrArg List.flatten pieces)

theorem Receiver.startFrame_eq_self {receiver : Receiver}
    (noPacket : bytFrameType ≠ pktFrameHeader ∧ bytFrameType ≠ pktFrameData)
    (same : receiver.lastDataFrameType = bytFrameType) :
    receiver.startFrame bytFrameType = receiver := by
  rw [Receiver.startFrame, if_neg]
  rintro (isHeader | isData | different)
  · exact noPacket.1 isHeader
  · exact noPacket.2 isData
  · exact different same

/-- One reception more. -/
theorem Receiver.Holds.receiveFrame {receiver : Receiver} {receptions : List Samples}
    (holds : receiver.Holds strMod bytFrameType intDataLen intRSLen chunks blocks receptions)
    (lengths : BlockLengths intDataLen intRSLen)
    (encoded : List.Forall₂ (BlockOf bytFrameType intDataLen intRSLen) chunks blocks)
    (noPacket : bytFrameType ≠ pktFrameHeader ∧ bytFrameType ≠ pktFrameData)
    (decided : Decided strMod bytFrameType intDataLen intRSLen blocks samples) :
    let received := receiver.receiveFrame strMod bytFrameType intDataLen intRSLen samples
    received.1.Holds strMod bytFrameType intDataLen intRSLen chunks blocks
        (receptions ++ [samples]) ∧
      (received.2.2 = true ↔ ∀ place < blocks.length,
        Heard strMod bytFrameType intDataLen intRSLen blocks (receptions ++ [samples])
          place) ∧
      (received.2.2 = true →
        Undisturbed strMod blocks.length (fun place =>
          Heard strMod bytFrameType intDataLen intRSLen blocks receptions place ∨
            Readable bytFrameType intDataLen intRSLen (blocks.getD place [])
              (samples.received.getD place [])) →
          received.2.1 = chunks.flatten) := by
  intro received
  have chunkCount := encoded.length_eq
  have corrected := holds.correctFrame lengths encoded decided
  have retried := corrected.1.retryFrame noPacket.1 lengths encoded decided corrected.2
  have heard (place : Nat) : AlsoAveraged strMod bytFrameType intDataLen intRSLen blocks
      samples receptions.length (fun place =>
        Heard strMod bytFrameType intDataLen intRSLen blocks receptions place ∨
          Readable bytFrameType intDataLen intRSLen (blocks.getD place [])
            (samples.received.getD place [])) place ↔
      Heard strMod bytFrameType intDataLen intRSLen blocks (receptions ++ [samples])
        place :=
    heard_concat.symm
  have numCar : samples.received.length = chunks.length := decided.1.trans chunkCount.symm
  have received_eq : received = _ :=
    show receiver.receiveFrame strMod bytFrameType intDataLen intRSLen samples = _ by
      rw [Receiver.receiveFrame, startFrame_eq_self noPacket holds.frameType, numCar]
  have stand := retried.1.stand.mono (Nat.le_refl _) (fun place _ => heard place) (.inl rfl)
  rw [received_eq]
  refine ⟨⟨holds.frameType, retried.1.ready, ?_⟩, ?_, fun all whole => ?_⟩
  · rw [List.length_append, List.length_singleton]
    exact stand
  · rw [← chunkCount]
    exact stand.all_iff
  · rw [← chunkCount] at whole
    exact retried.2 (fun place inside => (heard place).mpr (stand.all_iff.mp all place inside))
      whole

/-- The first reception of a type of frame forgets the frame before it. -/
theorem Receiver.holds_startFrame {receiver : Receiver} (ready : receiver.coder.Ready)
    (fresh : receiver.lastDataFrameType ≠ bytFrameType)
    (enough : chunks.length ≤ receiver.carriers.length) :
    (receiver.startFrame bytFrameType).Holds strMod bytFrameType intDataLen intRSLen chunks
      blocks [] := by
  rw [Receiver.startFrame, if_pos (Or.inr (Or.inr fresh))]
  refine ⟨rfl, ready, ⟨by rwa [clearCarriers, List.length_map], ?_, ?_⟩⟩
  · intro place inside
    have within : place < receiver.carriers.length := by omega
    refine ⟨{ receiver.carriers[place] with carrierOk := false, intSumCount := 0 }, ?_,
      iff_of_false Bool.false_ne_true ?_, fun good => absurd good Bool.false_ne_true,
      fun _ _ => rfl⟩
    · dsimp only
      rw [clearCarriers, List.getElem?_map, List.getElem?_eq_getElem within]
      rfl
    · rintro ⟨count, samples, here, -⟩
      rw [List.getElem?_nil] at here
      cases here
  · intro carrier among
    obtain ⟨before, -, rfl⟩ := List.mem_map.mp among
    exact Nat.le_refl 0

theorem Receiver.receiveFrame_startFrame {receiver : Receiver}
    (noPacket : bytFrameType ≠ pktFrameHeader ∧ bytFrameType ≠ pktFrameData)
    (strMod : Modulation) (intDataLen intRSLen : Nat) (samples : Samples) :
    (receiver.startFrame bytFrameType).receiveFrame strMod bytFrameType intDataLen intRSLen
        samples =
      receiver.receiveFrame strMod bytFrameType intDataLen intRSLen samples := by
  have same : (receiver.startFrame bytFrameType).lastDataFrameType = bytFrameType := by
    unfold Receiver.startFrame
    split
    · rfl
    · next kept => exact not_not.mp fun other => kept (Or.inr (Or.inr other))
  rw [Receiver.receiveFrame, startFrame_eq_self noPacket same, ← Receiver.receiveFrame]

/-- The run of all receptions but the last. -/
theorem Receiver.holds_receiveAll {receiver : Receiver}
    (lengths : BlockLengths intDataLen intRSLen)
    (encoded : List.Forall₂ (BlockOf bytFrameType intDataLen intRSLen) chunks blocks)
    (noPacket : bytFrameType ≠ pktFrameHeader ∧ bytFrameType ≠ pktFrameData)
    (ready : receiver.coder.Ready) (fresh : receiver.lastDataFrameType ≠ bytFrameType)
    (enough : chunks.length ≤ receiver.carriers.length) {receptions : List Samples}
    (decided : ∀ samples ∈ receptions,
      Decided strMod bytFrameType intDataLen intRSLen blocks samples) :
    ((receiver.receiveAll strMod bytFrameType intDataLen intRSLen receptions).startFrame
      bytFrameType).Holds strMod bytFrameType intDataLen intRSLen chunks blocks
        receptions := by
  induction receptions using List.reverseRecOn with
  | nil => exact holds_startFrame ready fresh enough
  | append_singleton receptions samples inductionHypothesis =>
      have earlier := inductionHypothesis fun other among =>
        decided other (List.mem_append_left _ among)
      have step := (earlier.receiveFrame lengths encoded noPacket
        (decided samples (List.mem_append_right _ List.mem_cons_self))).1
      rw [receiveFrame_startFrame noPacket] at step
      have last : receiver.receiveAll strMod bytFrameType intDataLen intRSLen
          (receptions ++ [samples]) = ((receiver.receiveAll strMod bytFrameType intDataLen
            intRSLen receptions).receiveFrame strMod bytFrameType intDataLen intRSLen
              samples).1 := by
        rw [receiveAll, List.foldl_append, List.foldl_cons, List.foldl_nil, ← receiveAll]
      rw [last, startFrame_eq_self noPacket step.frameType]
      exact step

end Repetitions

/-! ## Whole frames -/

section Halves

variable {strMod : Modulation} {bytFrameType : UInt8} {intDataLen intRSLen : Nat}
  {sent noise : List (List UInt8)}

/-- A reception in which one block of two comes through. -/
def half (sent noise : List (List UInt8)) : Nat → Samples
  | 0 => ⟨[sent.getD 0 [], noise.getD 1 []], noise⟩
  | _ => ⟨[noise.getD 0 [], sent.getD 1 []], noise⟩

theorem readable_self (block : List UInt8) :
    Readable bytFrameType intDataLen intRSLen block block :=
  ⟨rfl, by rw [differences_self]; exact Nat.zero_le _, fun _ => rfl⟩

theorem decided_half (both : sent.length = 2)
    (refused : ∀ place < 2, Refused bytFrameType intDataLen intRSLen (noise.getD place []))
    (place : Nat) :
    Decided strMod bytFrameType intDataLen intRSLen sent (half sent noise place) := by
  have average (other : Nat) (inside : other < 2) : Refused bytFrameType intDataLen intRSLen
      ((noise.getD other []).take (intDataLen + 3 + intRSLen)) := by
    rw [List.take_of_length_le (Nat.le_of_eq (refused other inside).1)]
    exact refused other inside
  cases place with
  | zero =>
      refine ⟨both.symm, fun other inside => ?_⟩
      rw [both] at inside
      refine ⟨?_, fun _ => .inr (average other inside)⟩
      match other, inside with
      | 0, _ => exact .inl (readable_self _)
      | 1, _ => exact .inr (refused 1 (by decide))
  | succ place =>
      refine ⟨both.symm, fun other inside => ?_⟩
      rw [both] at inside
      refine ⟨?_, fun _ => .inr (average other inside)⟩
      match other, inside with
      | 0, _ => exact .inr (refused 0 (by decide))
      | 1, _ => exact .inl (readable_self _)

/-- After the first half the second one completes the frame by itself. -/
theorem heard_halves (place : Nat) (inside : place < 2) :
    Heard strMod bytFrameType intDataLen intRSLen sent [half sent noise 0] place ∨
      Readable bytFrameType intDataLen intRSLen (sent.getD place [])
        ((half sent noise 1).received.getD place []) := by
  match place, inside with
  | 0, _ => exact .inl ⟨0, half sent noise 0, rfl, .inl (readable_self _)⟩
  | 1, _ => exact .inr (readable_self _)

end Halves

/-- A data frame of any type, sent by a station and repeated over a channel that damages
its blocks: a carrier is kept once a reception, or from the second one on the average of
the receptions, has brought its block with no more wrong bytes than half of its check
bytes.  The frame is decoded in the very reception that completes the carriers.  The data
is then what was sent, unless that reception has needed the average for a frame of several
carriers, or for one of 16QAM with more than two. -/
theorem repeated_frame_delivered {packet : PacketSettings} {bytFrameType : UInt8}
    {info : FrameParameters} (known : frameInfo packet bytFrameType = some info)
    (low : 0x40 ≤ bytFrameType) (high : bytFrameType ≤ 0x7D)
    {senderCalls receiverCalls : List CoderCall} {bytSessionID : UInt8}
    {data buffer : List UInt8}
    (fits : data.length ≤ info.intNumCar * info.intDataLen) {frame : EncodedFrame}
    (sent : (encodeDataFrame packet info (coderAfter senderCalls) bytSessionID
      bytFrameType data buffer).1 = some frame)
    {receiver : Receiver} (coder : receiver.coder = coderAfter receiverCalls)
    (fresh : receiver.lastDataFrameType ≠ bytFrameType)
    (enough : frame.blocks.length ≤ receiver.carriers.length)
    {receptions : List Samples} {last : Samples}
    (decided : ∀ samples ∈ receptions ++ [last],
      Decided info.strMod bytFrameType (decodeLengths bytFrameType info).1
        (decodeLengths bytFrameType info).2 frame.blocks samples) :
    let lengths := decodeLengths bytFrameType info
    let decoded := ((receiver.receiveAll info.strMod bytFrameType lengths.1 lengths.2
      receptions).receiveFrame info.strMod bytFrameType lengths.1 lengths.2 last).2
    let heard := Heard info.strMod bytFrameType lengths.1 lengths.2 frame.blocks
    (decoded.2 = true ↔
        ∀ place < frame.blocks.length, heard (receptions ++ [last]) place) ∧
      (decoded.2 = true →
        Undisturbed info.strMod frame.blocks.length (fun place =>
          heard receptions place ∨ Readable bytFrameType lengths.1 lengths.2
            (frame.blocks.getD place []) (last.received.getD place [])) →
          decoded.1 = data) := by
  intro lengths decoded heard
  have noPacket : bytFrameType ≠ pktFrameHeader ∧ bytFrameType ≠ pktFrameData := by
    constructor <;> rintro rfl <;> exact absurd high (by decide)
  obtain ⟨blockLengths, chunks, whole, encoded⟩ := encodeDataFrame_spec known low high
    (ready_coderAfter senderCalls) fits sent
  have holds := Receiver.holds_receiveAll blockLengths encoded noPacket
    (coder ▸ ready_coderAfter receiverCalls) fresh (encoded.length_eq ▸ enough)
    fun samples among => decided samples (List.mem_append_left _ among)
  have step := (holds.receiveFrame blockLengths encoded noPacket
    (decided last (List.mem_append_right _ List.mem_cons_self))).2
  rw [Receiver.receiveFrame_startFrame noPacket, whole] at step
  exact step

theorem repeated_frame_delivered_of_greeting :
    let info : FrameParameters := ⟨false, 2, .psk4, 100, 64, 32, 50⟩
    let encode := fun bytFrameType => (encodeDataFrame ⟨1, .psk4, 64, 32⟩ info
      (coderAfter []) 0x2A bytFrameType (List.replicate 70 72) []).1.getD ⟨[], []⟩
    let sent := (encode 0x50).blocks
    let noise := (encode 0x51).blocks
    let receiver : Receiver :=
      ⟨0, [⟨false, [], 0⟩, ⟨false, [], 0⟩], coderAfter [], []⟩
    ((receiver.receiveAll .psk4 0x50 64 32 [half sent noise 0]).receiveFrame .psk4 0x50 64 32
      (half sent noise 1)).2 = (List.replicate 70 72, true) := by
  intro info encode sent noise receiver
  have both : sent.length = 2 :=
    length_encodeCarriers (fun count dataLen => count > dataLen) 0x50 64 32 2 (coderAfter [])
      (List.replicate 70 72) []
  have bothNoise : noise.length = 2 :=
    length_encodeCarriers (fun count dataLen => count > dataLen) 0x51 64 32 2 (coderAfter [])
      (List.replicate 70 72) []
  -- The blocks of a frame of the other type stand for what the noise leaves.
  obtain ⟨lengths, chunks, -, others⟩ := @encodeDataFrame_spec ⟨1, .psk4, 64, 32⟩ 0x51
    ⟨true, 2, .psk4, 100, 64, 32, 50⟩ rfl (by decide) (by decide) (coderAfter [])
    (ready_coderAfter []) 0x2A (List.replicate 70 72) [] (by decide) (encode 0x51) rfl
  have refused (place : Nat) (inside : place < 2) :
      Refused 0x50 64 32 (noise.getD place []) :=
    (blockOf_getD others (by rw [others.length_eq, bothNoise]; exact inside)).refused lengths
      (by decide)
  have decided (samples : Samples)
      (among : samples ∈ [half sent noise 0] ++ [half sent noise 1]) :
      Decided .psk4 0x50 64 32 sent samples := by
    rw [List.mem_append, List.mem_singleton, List.mem_singleton] at among
    rcases among with first | last
    · exact first ▸ decided_half both refused 0
    · exact last ▸ decided_half both refused 1
  obtain ⟨decodes, data⟩ := @repeated_frame_delivered ⟨1, .psk4, 64, 32⟩ 0x50 info rfl
    (by decide) (by decide) [] [] 0x2A (List.replicate 70 72) [] (by decide) (encode 0x50)
    rfl receiver rfl (by decide) (Nat.le_of_eq both) [half sent noise 0] (half sent noise 1)
    decided
  have good := decodes.mpr fun place inside =>
    heard_concat.mpr (.inl (heard_halves place (both ▸ inside)))
  exact Prod.ext (data good (.inl fun place inside => heard_halves place (both ▸ inside))) good

end Ardop
end Hamchat
