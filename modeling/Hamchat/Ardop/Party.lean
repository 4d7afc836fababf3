import Hamchat.Ardop.Gears
import Hamchat.Ardop.Protocol
import Hamchat.Foundation.TurnTaking

/-!
# A station as a party that takes turns

What a station is doing for its session, in the terms of a party, and what holds
of its variables in each of its states.
-/

namespace Hamchat
namespace Ardop

open Foundation (Party Role Signal)

/-! ## Frames as signals -/

/-- A data frame of the odd type of its mode. -/
def oddType (bytFrameType : UInt8) : Bool := bytFrameType &&& 1 == 1

/-- Two types that differ in the last bit. -/
theorem oddType_ne {first second : UInt8} (differ : first &&& 1 ≠ second &&& 1) :
    oddType first ≠ oddType second := by
  have bit : ∀ bits : UInt8, bits &&& 1 = 0 ∨ bits &&& 1 = 1 := by
    intro bits
    have number : (bits &&& 1).toNat = bits.toNat % 2 := by
      simp only [UInt8.toNat_and, UInt8.toNat_one, Nat.and_one_is_mod]
    rcases Nat.mod_two_eq_zero_or_one bits.toNat with even | odd
    · exact .inl (UInt8.toNat_inj.mp (number.trans even))
    · exact .inr (UInt8.toNat_inj.mp (number.trans odd))
  intro same
  simp only [oddType] at same
  rcases bit first with one | one <;> rcases bit second with two | two <;>
    simp [one, two] at same differ

theorem oddType_one : oddType 1 = true := by decide

/-- What a frame says to the other station. -/
def AirFrame.signal (frame : AirFrame) : Signal UInt8 Nat UInt8 :=
  if 0xE0 ≤ frame.bytFrameType then .ack
  else if frame.bytFrameType ≤ 0x1F then .nak
  else if frame.bytFrameType = breakFrame then .turn
  else if frame.bytFrameType = idleFrame then .idle
  else if frame.bytFrameType = discFrame ∨ frame.bytFrameType = endFrame then .stop
  else if frame.bytFrameType = conRejBusy ∨ frame.bytFrameType = conRejBW then .refuse
  else if isConReq frame.bytFrameType then .call
  else if isConAck frame.bytFrameType then
    .connect (conAckBandwidth frame.bytFrameType)
  else .block frame.bytFrameType frame.bytData

/-- The kinds of frames that are no short control frames exclude each other. -/
theorem kinds_exclude : ∀ bytFrameType : UInt8,
    (isDataFrame bytFrameType = true →
      isShortControlFrame bytFrameType = false ∧ isConReq bytFrameType = false ∧
        isConAck bytFrameType = false) ∧
    (isConReq bytFrameType = true → isShortControlFrame bytFrameType = false) ∧
    (isConAck bytFrameType = true →
      isShortControlFrame bytFrameType = false ∧ isConReq bytFrameType = false) := by
  apply of_numbers
  decide +kernel

namespace AirFrame

variable {frame : AirFrame}

theorem signal_of_long (long : isShortControlFrame frame.bytFrameType = false) :
    frame.signal =
      if isConReq frame.bytFrameType then .call
      else if isConAck frame.bytFrameType then
        .connect (conAckBandwidth frame.bytFrameType)
      else .block frame.bytFrameType frame.bytData := by
  simp only [isShortControlFrame, Bool.or_eq_false_iff, decide_eq_false_iff_not,
    beq_eq_false_iff_ne] at long
  obtain ⟨⟨⟨⟨⟨⟨⟨nak, turn⟩, idle⟩, disc⟩, ending⟩, busy⟩, width⟩, ack⟩ := long
  have noStop : ¬(frame.bytFrameType = discFrame ∨ frame.bytFrameType = endFrame) := by
    rintro (same | same)
    exacts [disc same, ending same]
  have noRefuse :
      ¬(frame.bytFrameType = conRejBusy ∨ frame.bytFrameType = conRejBW) := by
    rintro (same | same)
    exacts [busy same, width same]
  rw [signal, if_neg ack, if_neg nak, if_neg (show ¬_ = breakFrame from turn),
    if_neg (show ¬_ = idleFrame from idle), if_neg noStop, if_neg noRefuse]

theorem signal_ack (ack : 0xE0 ≤ frame.bytFrameType) : frame.signal = .ack :=
  if_pos ack

theorem signal_nak (nak : frame.bytFrameType ≤ 0x1F) : frame.signal = .nak := by
  have small : frame.bytFrameType.toNat ≤ 31 := nak
  have noAck : ¬0xE0 ≤ frame.bytFrameType := by
    intro large
    have number : 224 ≤ frame.bytFrameType.toNat := large
    omega
  rw [signal, if_neg noAck, if_pos nak]

theorem signal_turn (turn : frame.bytFrameType = breakFrame) : frame.signal = .turn := by
  rw [signal, turn]
  rfl

theorem signal_idle (idle : frame.bytFrameType = idleFrame) : frame.signal = .idle := by
  rw [signal, idle]
  rfl

theorem signal_call (call : isConReq frame.bytFrameType = true) :
    frame.signal = .call := by
  obtain ⟨-, long, -⟩ := kinds_exclude frame.bytFrameType
  rw [signal_of_long (long call), if_pos call]

theorem signal_connect (connect : isConAck frame.bytFrameType = true) :
    frame.signal = .connect (conAckBandwidth frame.bytFrameType) := by
  obtain ⟨-, -, long⟩ := kinds_exclude frame.bytFrameType
  obtain ⟨long, noCall⟩ := long connect
  rw [signal_of_long long, if_neg (ne_true_of_eq_false noCall), if_pos connect]

theorem signal_block (data : isDataFrame frame.bytFrameType = true) :
    frame.signal = .block frame.bytFrameType frame.bytData := by
  obtain ⟨long, -, -⟩ := kinds_exclude frame.bytFrameType
  obtain ⟨long, noCall, noConnect⟩ := long data
  rw [signal_of_long long, if_neg (ne_true_of_eq_false noCall),
    if_neg (ne_true_of_eq_false noConnect)]

/-- A frame that the receiver of its type can decode: a data frame has at least
one byte and not more than its type has room for. -/
def Fits (frame : AirFrame) : Prop :=
  if isDataFrame frame.bytFrameType then
    frame.bytFrameType ∈ dataFrameTypes ∧ 0 < frame.bytData.length ∧
      frame.bytData.length ≤ frameSize frame.bytFrameType
  else
    frame.bytData = []

end AirFrame

/-! ## The party of a station -/

namespace Station

/-- The role of a station in its session. -/
def role (station : Station) : Role :=
  match station.protocolState with
  | .disc => .off
  | .iss =>
      match station.arqState with
      | .issConReq => .calling
      | .issConAck => .confirming
      | _ => .leading
  | .idle => .leading
  | .irs => if station.arqState = .irsConAck then .answering else .following
  | .irsToISS => .turning

/-- The type of the last data frame that has been acknowledged to the other
station. -/
def answered (station : Station) : Option UInt8 :=
  if station.bytLastACKedDataFrameType = 0 then none
  else some station.bytLastACKedDataFrameType

/-- The party that a station is. -/
def party (station : Station) : Party UInt8 Nat UInt8 where
  role := station.role
  stopping := station.blnDISCRepeating
  offer := station.journal.offered
  parity := oddType station.bytLastARQDataFrameAcked
  seen := station.intLastARQDataFrameToHost
  answered := station.answered
  width := station.intSessionBW
  confirmed := station.journal.removed
  passed := station.journal.passed

end Station

/-! ## Books -/

/-- What the journal says about the queue and the frame that is out. -/
structure Balances (queued removed queue : List UInt8)
    (offered : Option (UInt8 × List UInt8)) (discarded : Nat) (undefined : Bool) :
    Prop where
  defined : undefined = false
  kept : (removed ++ queue).Sublist queued
  whole : discarded = 0 → removed ++ queue = queued
  out : ∀ tag items, offered = some (tag, items) →
    (removed ++ items).Sublist queued ∧ (discarded = 0 → removed ++ items <+: queued)

namespace Station

/-- The journal of a station agrees with its queue. -/
def Balanced (station : Station) : Prop :=
  Balances station.journal.queued station.journal.removed station.bytDataToSend
    station.journal.offered station.journal.discarded station.journal.undefined

variable {station : Station}

theorem Balanced.clearDataToSend (balanced : station.Balanced) :
    station.clearDataToSend.Balanced where
  defined := balanced.defined
  kept := by
    apply List.Sublist.trans _ balanced.kept
    exact List.Sublist.append_left (List.nil_sublist _) _
  whole none := by
    obtain ⟨before, empty⟩ := Nat.add_eq_zero_iff.mp none
    calc
      station.journal.removed ++ [] = station.journal.removed ++ station.bytDataToSend :=
        by rw [List.length_eq_zero_iff.mp empty]
      _ = station.journal.queued := balanced.whole before
  out tag items offered := by
    obtain ⟨sublist, whole⟩ := balanced.out tag items offered
    exact ⟨sublist, fun none => whole (Nat.add_eq_zero_iff.mp none).1⟩

theorem Balanced.withdraw (balanced : station.Balanced) : station.withdraw.Balanced where
  defined := balanced.defined
  kept := balanced.kept
  whole := balanced.whole
  out := by
    rintro _ _ ⟨⟩

/-- The bytes of a frame leave the queue once it does not wait any more. -/
theorem Balanced.removeDataFromQueue (balanced : station.Balanced) (len : Nat) :
    (station.removeDataFromQueue len).withdraw.Balanced := by
  rw [Station.removeDataFromQueue]
  split
  · exact balanced.withdraw
  · have same :
        (station.journal.removed ++ station.bytDataToSend.take len) ++
            station.bytDataToSend.drop len =
          station.journal.removed ++ station.bytDataToSend := by
      rw [List.append_assoc, List.take_append_drop]
    refine ⟨balanced.defined, same ▸ balanced.kept,
      fun none => same.trans (balanced.whole none), ?_⟩
    rintro _ _ ⟨⟩

theorem Balanced.addDataToDataToSend (balanced : station.Balanced)
    (bytNewData : List UInt8) : (station.addDataToDataToSend bytNewData).Balanced := by
  rw [Station.addDataToDataToSend]
  split
  · exact balanced
  split
  · exact balanced
  refine ⟨balanced.defined, ?_, fun none => ?_, fun tag items offered => ?_⟩
  · have longer := balanced.kept.append_right bytNewData
    rw [List.append_assoc] at longer
    exact longer
  · change _ ++ (_ ++ _) = _ ++ _
    rw [← List.append_assoc, balanced.whole none]
  · obtain ⟨sublist, whole⟩ := balanced.out tag items offered
    refine ⟨sublist.trans (List.sublist_append_left _ _), fun none => ?_⟩
    exact (whole none).trans (List.prefix_append _ _)

/-- The first bytes of the queue may be offered. -/
theorem Balanced.offers (balanced : station.Balanced) (len : Nat) :
    (station.journal.removed ++ station.bytDataToSend.take len).Sublist
        station.journal.queued ∧
      (station.journal.discarded = 0 →
        station.journal.removed ++ station.bytDataToSend.take len <+:
          station.journal.queued) := by
  constructor
  · apply List.Sublist.trans _ balanced.kept
    exact List.Sublist.append_left (List.take_sublist _ _) _
  · intro none
    rw [← balanced.whole none]
    exact (List.prefix_append_right_inj _).mpr (List.take_prefix _ _)

theorem Balanced.setARDOPProtocolState (balanced : station.Balanced)
    (value : ArdopState) : (station.setARDOPProtocolState value).Balanced := by
  rw [Station.setARDOPProtocolState]
  split
  · exact balanced
  · cases value with
    | disc =>
        have set : { station with protocolState := .disc }.Balanced := balanced
        exact set.clearDataToSend
    | iss => exact balanced
    | irs => exact balanced
    | idle => exact balanced
    | irsToISS => exact balanced

/-! ## States -/

@[simp]
theorem setARDOPProtocolState_protocolState (value : ArdopState) (station : Station) :
    (station.setARDOPProtocolState value).protocolState = value := by
  rw [Station.setARDOPProtocolState]
  split
  · assumption
  · cases value <;> rfl

@[simp]
theorem setARDOPProtocolState_played (value : ArdopState) (station : Station) :
    (station.setARDOPProtocolState value).played = station.played := by
  rw [Station.setARDOPProtocolState]
  split
  · rfl
  · cases value <;> rfl

/-- What a session leaves when it ends. -/
def estate (station : Station) :
    UInt8 × Option UInt8 × Option (UInt8 × List UInt8) × List UInt8 × List UInt8 :=
  (station.bytLastARQDataFrameAcked, station.intLastARQDataFrameToHost,
    station.journal.offered, station.journal.removed, station.journal.passed)

theorem setARDOPProtocolState_estate (value : ArdopState) (station : Station) :
    (station.setARDOPProtocolState value).estate = station.estate := by
  rw [Station.setARDOPProtocolState]
  split
  · rfl
  · cases value <;> rfl

/-- The station may send a signal again, unless it has asked to stop. -/
def Ready (station : Station) (signal : Signal UInt8 Nat UInt8) : Prop :=
  station.blnDISCRepeating = false →
    station.bytEncodedBytes.signal = signal ∧ station.bytEncodedBytes.Fits

/-- A data frame waits for its answer. -/
structure Offering (station : Station) : Prop where
  sentData : station.blnLastFrameSentData = true
  some : 0 < station.bytQDataInProcessLen
  within : station.bytQDataInProcessLen ≤ station.bytDataToSend.length
  fits : station.bytQDataInProcessLen ≤ frameSize station.bytLastARQDataFrameSent
  data : station.bytLastARQDataFrameSent ∈ dataFrameTypes
  differs :
    oddType station.bytLastARQDataFrameSent ≠ oddType station.bytLastARQDataFrameAcked
  offered : station.journal.offered =
    .some (station.bytLastARQDataFrameSent,
      station.bytDataToSend.take station.bytQDataInProcessLen)
  encoded : station.bytEncodedBytes =
    { bytFrameType := station.bytLastARQDataFrameSent
      bytData := station.bytDataToSend.take station.bytQDataInProcessLen }

/-- What holds of the variables in the states of a session. -/
inductive Phase (station : Station) : Prop
  | off (state : station.protocolState = .disc)
  | calling (state : station.protocolState = .iss)
      (substate : station.arqState = .issConReq)
      (free : station.journal.offered = none) (ready : station.Ready .call)
  | confirming (state : station.protocolState = .iss)
      (substate : station.arqState = .issConAck)
      (free : station.journal.offered = none) (geared : station.Geared)
      (ready : station.Ready (.connect station.intSessionBW))
  | leading (state : station.protocolState = .iss)
      (substate : station.arqState = .issData) (geared : station.Geared)
      (offering : station.blnDISCRepeating = true ∨ station.Offering)
  | idle (state : station.protocolState = .idle)
      (free : station.journal.offered = none) (geared : station.Geared)
      (ready : station.Ready .idle)
  | answering (state : station.protocolState = .irs)
      (substate : station.arqState = .irsConAck)
      (free : station.journal.offered = none) (quiet : station.blnEnbARQRpt = false)
      (unanswered : station.bytLastACKedDataFrameType = 0)
  | following (state : station.protocolState = .irs)
      (substate : station.arqState = .irsData ∨ station.arqState = .irsFromISS)
      (free : station.journal.offered = none) (quiet : station.blnEnbARQRpt = false)
      (geared : station.Geared)
      (answered : station.bytLastACKedDataFrameType = 0 ∨
        isDataFrame station.bytLastACKedDataFrameType = true)
  | turning (state : station.protocolState = .irsToISS)
      (free : station.journal.offered = none) (geared : station.Geared)
      (ready : station.Ready .turn)

/-- What holds of a station between any two events. -/
structure Sound (station : Station) : Prop where
  balanced : station.Balanced
  phase : station.Phase

/-- An event of a station is something that its party may do, and leaves the
station sound. -/
structure Steps (station : Station) (heard : Option (Signal UInt8 Nat UInt8))
    (next : Station) : Prop where
  sound : next.Sound
  acts : Party.Acts oddType station.party heard next.party
    (next.played.map AirFrame.signal)
  fits : ∀ frame, next.played = some frame → frame.Fits

end Station

end Ardop
end Hamchat
