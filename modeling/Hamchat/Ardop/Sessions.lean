import Hamchat.Ardop.Receiving
import Hamchat.Foundation.PartialRun

/-!
# Runs of one station

What may happen to a station, over any number of sessions: its host queues data and
gives commands, its timers run down, frames of any type, content and quality are
decoded or only their type is.  In every run a station stays within its arrays and
plays only frames that the other end can decode.
-/

namespace Hamchat
namespace Ardop

open Foundation (Party Role Signal runFrom Always)

/-- The frame type of a bandwidth is that of a connect request. -/
theorem isConReq_of_asked {bandwidth : ArqBandwidth} {bytFrameType : UInt8}
    (asked : conReqFrameType bandwidth = some bytFrameType) :
    isConReq bytFrameType = true := by
  cases bandwidth <;> cases asked <;> rfl

theorem call_spec {bytFrameType : UInt8} (call : isConReq bytFrameType = true)
    (strCaller strCallsign : CString) :
    ({ bytFrameType, strCaller, strCallsign } : AirFrame).Fits ∧
      ({ bytFrameType, strCaller, strCallsign } : AirFrame).signal = .call := by
  obtain ⟨long, -, -⟩ := kinds_exclude bytFrameType
  refine ⟨Station.fits_of_control ?_ rfl, AirFrame.signal_call call⟩
  apply eq_false_of_ne_true
  intro data
  rw [(long data).2.1] at call
  cases call

/-- A connect request, as it is received. -/
theorem encodeARQConRequest_eq_some {strMyCallsign strTargetCallsign : CString}
    {arqBandwidth : ArqBandwidth} {frame : AirFrame}
    (encoded : encodeARQConRequest strMyCallsign strTargetCallsign arqBandwidth =
      some frame) :
    isConReq frame.bytFrameType = true ∧
      frame =
        { bytFrameType := frame.bytFrameType
          strCaller := onAir strMyCallsign
          strCallsign := onAir strTargetCallsign } := by
  rw [encodeARQConRequest, Option.ite_none_left_eq_some] at encoded
  obtain ⟨-, encoded⟩ := encoded
  obtain ⟨bytFrameType, asked, rfl⟩ := Option.map_eq_some_iff.mp encoded
  exact ⟨isConReq_of_asked asked, rfl⟩

/-! ## The start -/

/-- The settings at the start, with a callsign. -/
def Settings.initial (callsign : String) : Settings where
  callsign := .ofLiteral callsign
  auxCalls := []
  arqBandwidth := .b2000Max
  callBandwidth := .undefined
  arqConReqRepeats := 5
  tuningRange := 100
  blnListen := true
  autoBreak := true
  fastStart := true
  fskOnly := false
  use600Modes := false
  packet := ⟨1, .psk4, 64, 32⟩

namespace Station

/-- A station at the start, in state DISC. -/
def initial : Station where
  protocolState := .disc
  arqState := .none
  bytDataToSend := []
  bytQDataInProcessLen := 0
  bytEncodedBytes := { bytFrameType := 0 }
  strRemoteCallsign := .empty
  intSessionBW := 0
  bytFrameTypesForBW := []
  bytFrameTypesForBWLength := 0
  bytShiftUpThresholds := []
  intFrameTypePtr := 0
  intShiftUpDn := 0
  bytCurrentFrameType := 0
  bytLastARQDataFrameSent := 0
  bytLastARQDataFrameAcked := 0
  bytLastACKedDataFrameType := 0
  intLastARQDataFrameToHost := none
  blnLastFrameSentData := false
  intAvgQuality := 0
  intACKctr := 0
  intNAKctr := 0
  modeHasWorked := List.replicate 16 0
  modeHasBeenTried := List.replicate 16 0
  blnEnbARQRpt := false
  blnDISCRepeating := false
  intRepeatCount := 0
  blnARQConnected := false
  blnPending := false
  blnARQDisconnect := false
  blnAbort := false
  blnBREAKCmd := false
  blnTimeoutTriggered := false
  tmrSendTimeout := false
  tmrIRSPendingTimeout := false
  played := none
  journal :=
    { queued := []
      removed := []
      offered := none
      passed := []
      discarded := 0
      undefined := false }

end Station

/-! ## Events -/

/-- What happens to a station. -/
inductive StationEvent where
  | addDataToDataToSend (bytNewData : List UInt8)
  | breakCommand
  | abort
  | disconnectCommand
  | checkTimers (timedOut : Bool)
  | sendTimeout
  | irsPendingTimeout
  | mainPoll (timedOut : Bool)
  | processNewSamples (frame : AirFrame) (reception : Reception)

/-- The signal that is heard. -/
def StationEvent.heard : StationEvent → Option (Signal UInt8 Nat UInt8)
  | .processNewSamples frame _ => some frame.signal
  | _ => none

namespace Station

/-- A station at an event. -/
def react (settings : Settings) (station : Station) (event : StationEvent) : Station :=
  let station := { station with played := none }
  match event with
  | .addDataToDataToSend bytNewData => station.addDataToDataToSend bytNewData
  | .breakCommand => station.breakCommand
  | .abort => station.abort settings
  | .disconnectCommand => station.disconnectCommand
  | .checkTimers timedOut => station.checkTimers settings timedOut
  | .sendTimeout => station.sendTimeout
  | .irsPendingTimeout => station.irsPendingTimeout
  | .mainPoll timedOut => station.mainPoll settings timedOut
  | .processNewSamples frame reception =>
      station.processNewSamples settings frame reception

/-- Every event is one of the party, and leaves the station sound. -/
theorem Sound.react {station : Station} (sound : station.Sound) (settings : Settings)
    (event : StationEvent) : Steps station event.heard (station.react settings event) := by
  have still : { station with played := none }.Sound :=
    ⟨sound.balanced, sound.phase.alike rfl rfl rfl rfl id⟩
  refine Steps.of_party ?_ (show { station with played := none }.party = _ from rfl)
  cases event with
  | addDataToDataToSend bytNewData => exact still.addDataToDataToSend rfl bytNewData
  | breakCommand => exact still.breakCommand rfl
  | abort => exact still.abort rfl settings
  | disconnectCommand => exact still.disconnectCommand rfl
  | checkTimers timedOut => exact still.checkTimers rfl settings timedOut
  | sendTimeout => exact still.sendTimeout rfl
  | irsPendingTimeout => exact still.irsPendingTimeout rfl
  | mainPoll timedOut => exact still.mainPoll rfl settings timedOut
  | processNewSamples frame reception =>
      exact still.processNewSamples rfl settings frame reception

/-- A station with an empty journal. -/
def opened (station : Station) : Station :=
  { station with
    played := none
    journal :=
      { queued := station.bytDataToSend
        removed := []
        offered := none
        passed := []
        discarded := 0
        undefined := false } }

/-- A call plays a connect request, where the bandwidth that is set has one. -/
theorem sendARQConnectRequest_spec {station : Station} (settings : Settings)
    (strTargetCall : CString) (state : station.protocolState = .disc)
    (balanced : station.Balanced) (silent : station.played = none) :
    (station.sendARQConnectRequest settings strTargetCall).Sound ∧
      (station.sendARQConnectRequest settings strTargetCall).journal.passed =
        station.journal.passed ∧
      (station.sendARQConnectRequest settings strTargetCall).journal.removed =
        station.journal.removed ∧
      ((station.sendARQConnectRequest settings strTargetCall).role = .off ∧
          (station.sendARQConnectRequest settings strTargetCall).played = none ∨
        (station.sendARQConnectRequest settings strTargetCall).role = .calling ∧
          ∃ frame, (station.sendARQConnectRequest settings strTargetCall).played =
              some frame ∧ frame.signal = .call ∧ frame.Fits) := by
  have withdrawn := balanced.withdraw
  have other : station.protocolState ≠ .iss := by rw [state]; decide
  rw [sendARQConnectRequest]
  dsimp only
  split
  · exact ⟨⟨withdrawn, .off state⟩, rfl, rfl, .inl ⟨role_off state, silent⟩⟩
  · next frame encoded =>
      obtain ⟨call, same⟩ := encodeARQConRequest_eq_some encoded
      obtain ⟨fits, signal⟩ := call_spec call (onAir settings.callsign) (onAir strTargetCall)
      rw [← same] at fits signal
      rw [setARDOPProtocolState_iss]
      · refine ⟨⟨withdrawn, ?_⟩, rfl, rfl, .inr ⟨role_calling rfl rfl, _, rfl, signal, fits⟩⟩
        exact .calling rfl rfl rfl fun _ => ⟨signal, fits⟩
      · exact other

/-! ## Runs -/

/-- What happens to a station over its sessions. -/
inductive SessionEvent where
  /-- The host calls another station. -/
  | calls (strTargetCall : CString)
  | takes (event : StationEvent)

/-- A station at an event, with the settings that it has then.  The host calls in
state DISC. -/
def advance (station : Station) : Settings × SessionEvent → Option Station
  | (settings, .calls strTargetCall) =>
      if station.protocolState = .disc then
        some ({ station with played := none }.sendARQConnectRequest settings strTargetCall)
      else
        none
  | (settings, .takes event) => some (station.react settings event)

theorem opened_balanced (station : Station) : station.opened.Balanced where
  defined := rfl
  kept := List.Sublist.refl _
  whole _ := rfl
  out := by
    rintro _ _ ⟨⟩

/-- Every event leaves a sound station sound, and what it plays can be decoded. -/
theorem Sound.advance {station next : Station} (sound : station.Sound)
    {event : Settings × SessionEvent} (stepped : station.advance event = some next) :
    next.Sound ∧ ∀ frame, next.played = some frame → frame.Fits := by
  obtain ⟨settings, event⟩ := event
  cases event with
  | calls strTargetCall =>
      rw [Station.advance] at stepped
      split at stepped
      · next rests =>
          obtain rfl := Option.some.inj stepped
          obtain ⟨sound, -, -, plays⟩ := sendARQConnectRequest_spec settings strTargetCall
            (show { station with played := none }.protocolState = .disc from rests)
            (show { station with played := none }.Balanced from sound.balanced) rfl
          refine ⟨sound, fun frame played => ?_⟩
          rcases plays with ⟨-, silent⟩ | ⟨-, sent, same, -, fits⟩
          · rw [silent] at played
            cases played
          · rw [same] at played
            cases played
            exact fits
      · cases stepped
  | takes event =>
      obtain rfl := Option.some.inj stepped
      have steps := sound.react settings event
      exact ⟨steps.sound, steps.fits⟩

/-- Whatever is heard, with any type, data and quality, and whatever the host
queues, commands and sets: a station never uses the arrays of its modes behind their
ends or before they are set, it plays data frames of data types only, with at least
one byte and no more than the type has room for, and no byte leaves its queue that
has not been queued, twice or out of order. -/
theorem bounds_of_run {station final : Station} (rests : station.protocolState = .disc)
    {events : List (Settings × SessionEvent)}
    (reached : runFrom advance station.opened events = some final) :
    final.journal.undefined = false ∧
      (∀ frame, final.played = some frame → frame.Fits) ∧
      (final.journal.removed ++ final.bytDataToSend).Sublist final.journal.queued := by
  have always : Always advance station.opened (fun _ station =>
      station.Sound ∧ ∀ frame, station.played = some frame → frame.Fits) events := by
    refine .of_step _ ⟨⟨opened_balanced station, .off rests⟩, ?_⟩ ?_
    · rintro _ ⟨⟩
    · exact fun _ _ _ _ held stepped => held.1.advance stepped
  obtain ⟨sound, fits⟩ := always.final reached
  exact ⟨sound.balanced.defined, fits, sound.balanced.kept⟩

theorem bounds_of_run_called :
    let settings := Settings.initial "N1CALL"
    let calls : AirFrame :=
      { bytFrameType := 0x34
        strCaller := .ofLiteral "N0CALL"
        strCallsign := .ofLiteral "N1CALL" }
    let heard (frame : AirFrame) : Settings × SessionEvent :=
      (settings, .takes (.processNewSamples frame ⟨true, 80, false⟩))
    let events : List (Settings × SessionEvent) :=
      [heard calls, heard { bytFrameType := conAck2000 },
        heard { bytFrameType := 0x4C, bytData := [72, 105] },
        (settings, .takes (.addDataToDataToSend [33])), heard { bytFrameType := idleFrame },
        heard { bytFrameType := dataACK 90 }]
    ∃ final, runFrom advance initial.opened events = some final ∧
      final.played = some { bytFrameType := 0x61, bytData := [33] } ∧
      final.journal.undefined = false := by
  intro settings calls heard events
  have plays : (runFrom advance initial.opened events).map Station.played =
      some (some { bytFrameType := 0x61, bytData := [33] }) := by
    decide +kernel
  obtain ⟨final, reached, played⟩ := Option.map_eq_some_iff.mp plays
  exact ⟨final, reached, played, (bounds_of_run rfl reached).1⟩

end Station

end Ardop
end Hamchat
