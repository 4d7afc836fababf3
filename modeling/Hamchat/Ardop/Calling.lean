import Hamchat.Ardop.Progress

/-!
# A call that succeeds

A connect request, the ConAck of the station that is called, that of the caller and an
ACK make the one the station that sends and the other the one that receives.  While the
channel loses nothing, a call so delivers the queue of the caller.
-/

namespace Hamchat
namespace Ardop

open Foundation (runFrom runFrom_append runFrom_cons_eq_some)

/-- The frames of a connection are neither short control frames nor data frames. -/
theorem connection_spec : ∀ bytFrameType : UInt8,
    isConReq bytFrameType = true ∨ isConAck bytFrameType = true →
    isShortControlFrame bytFrameType = false ∧ isDataFrame bytFrameType = false ∧
      ¬(bytFrameType ≤ 0x1F ∨ 0xE0 ≤ bytFrameType) ∧ bytFrameType ≠ pktFrameHeader ∧
      bytFrameType ≠ pktFrameData ∧
      (frameCases.find? fun frame => bytFrameType ∈ frame.types).isSome = true := by
  apply of_numbers
  decide +kernel

theorem frameInfo_connection {bytFrameType : UInt8}
    (connection : isConReq bytFrameType = true ∨ isConAck bytFrameType = true)
    (packet : PacketSettings) : (frameInfo packet bytFrameType).isNone = false := by
  obtain ⟨-, -, noControl, noHeader, noData, found⟩ :=
    connection_spec bytFrameType connection
  rw [frameInfo, if_neg noControl, if_neg noHeader, if_neg noData]
  simp [Option.isNone_eq_false_iff, found]

namespace Station

/-- A station in state DISC. -/
structure Attends (station : Station) : Prop where
  state : station.protocolState = .disc
  unbroken : station.blnBREAKCmd = false
  punctual : station.blnTimeoutTriggered = false

/-- A station that has accepted a call. -/
structure Answers (station : Station) : Prop where
  state : station.protocolState = .irs
  substate : station.arqState = .irsConAck
  unbroken : station.blnBREAKCmd = false
  punctual : station.blnTimeoutTriggered = false

/-- A station that has called, in one of the two substates before the first data. -/
structure Calls (station : Station) (substate : ArqSubState) : Prop where
  state : station.protocolState = .iss
  substate : station.arqState = substate
  awake : station.blnDISCRepeating = false
  unasked : station.blnARQDisconnect = false
  punctual : station.blnTimeoutTriggered = false

variable {station : Station}

/-! ## The four frames of a connection -/

/-- A frame of a connection goes to `ProcessRcvdARQFrame`, except where the host has
asked for BREAK. -/
theorem react_connection (settings : Settings) {frame : AirFrame}
    (connection : isConReq frame.bytFrameType = true ∨ isConAck frame.bytFrameType = true)
    (quiet : station.protocolState = .irs → station.arqState ≠ .irsData)
    (punctual : station.blnTimeoutTriggered = false) (reception : Reception) :
    station.react settings (.processNewSamples frame reception) =
      { station with played := none }.processRcvdARQFrame settings frame reception := by
  obtain ⟨long, noData, noControl, -, notPacket, -⟩ := connection_spec _ connection
  have known := frameInfo_connection connection settings.packet
  have noBreak : ¬(station.blnBREAKCmd = true ∧ station.protocolState = .irs ∧
      station.arqState = .irsData ∧
      frame.bytFrameType ≠ station.bytLastACKedDataFrameType) := by
    rintro ⟨-, state, substate, -⟩
    exact quiet state substate
  have noAck : ¬0xE0 ≤ frame.bytFrameType := fun ack => noControl (.inr ack)
  rw [react, Station.processNewSamples]
  simp only [known, long, noBreak, noData, noAck, processFrame, notPacket, punctual,
    and_false, Bool.false_eq_true, if_false, false_or]

/-- A call that is meant for this station and agrees on a bandwidth is accepted. -/
theorem Attends.processDISC (attends : station.Attends) {settings : Settings}
    (listens : settings.blnListen = true) {frame : AirFrame}
    (toMe : isCallToMe settings frame.strCallsign = true)
    (call : isConReq frame.bytFrameType = true) {width : Nat} {reply : UInt8}
    (agreed : irsNegotiateBW settings.arqBandwidth frame.bytFrameType =
      some (width, reply)) {reception : Reception}
    (decoded : reception.blnFrameDecodedOK = true) (free : reception.busy = false) :
    (station.processDISC settings frame reception).Answers ∧
      (station.processDISC settings frame reception).played =
        some { bytFrameType := reply } := by
  have noDisc : frame.bytFrameType ≠ discFrame := by
    intro same
    rw [same] at call
    exact absurd call (by decide)
  rw [Station.processDISC]
  simp only [noDisc, decoded, call, listens, toMe, free, agreed, and_false, if_false,
    Bool.not_true, Bool.false_eq_true, or_self, if_true]
  rw [setARDOPProtocolState_irs]
  · exact ⟨⟨rfl, rfl, attends.unbroken, attends.punctual⟩, rfl⟩
  · change station.protocolState ≠ .irs
    rw [attends.state]
    decide

theorem Attends.hearsCall (attends : station.Attends) {settings : Settings}
    (listens : settings.blnListen = true) (frame : AirFrame)
    (toMe : isCallToMe settings frame.strCallsign = true)
    (call : isConReq frame.bytFrameType = true) {width : Nat} {reply : UInt8}
    (agreed : irsNegotiateBW settings.arqBandwidth frame.bytFrameType =
      some (width, reply)) {reception : Reception}
    (decoded : reception.blnFrameDecodedOK = true) (free : reception.busy = false)
    {next : Station}
    (same : station.react settings (.processNewSamples frame reception) = next) :
    next.Answers ∧ next.played = some { bytFrameType := reply } := by
  have still : { station with played := none }.Attends :=
    ⟨attends.state, attends.unbroken, attends.punctual⟩
  have rests : { station with played := none }.processRcvdARQFrame settings frame reception =
      { station with played := none }.processDISC settings frame reception := by
    rw [processRcvdARQFrame, still.state]
  have quiet : station.protocolState = .irs → station.arqState ≠ .irsData := by
    rw [attends.state]
    intro other
    cases other
  rw [← same, react_connection settings (.inl call) quiet attends.punctual, rests]
  exact still.processDISC listens toMe call agreed decoded free

/-- The ConAck of the other station is repeated. -/
theorem Calls.processISSConReq (calls : station.Calls .issConReq) (settings : Settings)
    {frame : AirFrame} (connect : isConAck frame.bytFrameType = true)
    {reception : Reception} (decoded : reception.blnFrameDecodedOK = true) :
    (station.processISSConReq settings frame reception).Calls .issConAck ∧
      Keeps station (station.processISSConReq settings frame reception) ∧
      (station.processISSConReq settings frame reception).played =
        some { bytFrameType := frame.bytFrameType } := by
  obtain ⟨_, _, _, _, _, same, -⟩ := @initializeFrameData_geared
    { station with intSessionBW := conAckBandwidth frame.bytFrameType } settings
    (conAckBandwidth_known _)
  rw [Station.processISSConReq]
  simp only [decoded, connect, if_true, Bool.not_true, Bool.false_eq_true, if_false, same]
  exact ⟨⟨calls.state, rfl, calls.awake, calls.unasked, calls.punctual⟩,
    ⟨rfl, rfl, rfl⟩, rfl⟩

theorem Calls.hearsConAck (calls : station.Calls .issConReq) (settings : Settings)
    {reply : UInt8} (connect : isConAck reply = true) {reception : Reception}
    (decoded : reception.blnFrameDecodedOK = true) {next : Station}
    (same : station.react settings
      (.processNewSamples { bytFrameType := reply } reception) = next) :
    next.Calls .issConAck ∧ Keeps station next ∧
      next.played = some { bytFrameType := reply } := by
  have still : { station with played := none }.Calls .issConReq :=
    ⟨calls.state, calls.substate, calls.awake, calls.unasked, calls.punctual⟩
  have waits : { station with played := none }.processRcvdARQFrame settings
        { bytFrameType := reply } reception =
      { station with played := none }.processISSConReq settings
        { bytFrameType := reply } reception := by
    rw [processRcvdARQFrame, still.state, processISS, still.substate]
  have quiet : station.protocolState = .irs → station.arqState ≠ .irsData := by
    rw [calls.state]
    intro other
    cases other
  rw [← same, react_connection settings (.inr connect) quiet calls.punctual, waits]
  obtain ⟨confirms, keeps, plays⟩ := still.processISSConReq settings
    (show isConAck ({ bytFrameType := reply } : AirFrame).bytFrameType = true from connect)
    decoded
  exact ⟨confirms, ⟨keeps.queue, keeps.removed, keeps.orders⟩, plays⟩

theorem Listens.initializeFrameData (listens : station.Listens) (settings : Settings)
    (known : station.intSessionBW = 200 ∨ station.intSessionBW = 500 ∨
      station.intSessionBW = 1000 ∨ station.intSessionBW = 2000) :
    (station.initializeFrameData settings).Listens ∧
      (station.initializeFrameData settings).played = station.played := by
  obtain ⟨_, _, _, _, _, same, -⟩ := initializeFrameData_geared settings known
  rw [same]
  exact ⟨⟨listens.state, listens.substate, listens.unbroken, listens.punctual⟩, rfl⟩

/-- The ConAck of the caller is acknowledged. -/
theorem Answers.processIRSConAck (answers : station.Answers) (settings : Settings)
    {frame : AirFrame} (connect : isConAck frame.bytFrameType = true)
    {reception : Reception} (decoded : reception.blnFrameDecodedOK = true) :
    (station.processIRSConAck settings frame reception).Listens ∧
      (station.processIRSConAck settings frame reception).played =
        some { bytFrameType := dataACK reception.quality } := by
  obtain ⟨-, -, long⟩ := kinds_exclude frame.bytFrameType
  obtain ⟨-, noCall⟩ := long connect
  rw [Station.processIRSConAck]
  simp only [decoded, noCall, connect, if_true, Bool.not_true, Bool.false_eq_true, if_false]
  apply Listens.initializeFrameData
  · exact ⟨answers.state, .inl rfl, answers.unbroken, answers.punctual⟩
  · exact conAckBandwidth_known _

theorem Answers.hearsConAck (answers : station.Answers) (settings : Settings)
    {reply : UInt8} (connect : isConAck reply = true) {reception : Reception}
    (decoded : reception.blnFrameDecodedOK = true) {next : Station}
    (same : station.react settings
      (.processNewSamples { bytFrameType := reply } reception) = next) :
    next.Listens ∧ next.played = some { bytFrameType := dataACK reception.quality } := by
  have still : { station with played := none }.Answers :=
    ⟨answers.state, answers.substate, answers.unbroken, answers.punctual⟩
  have waits : { station with played := none }.processRcvdARQFrame settings
        { bytFrameType := reply } reception =
      { station with played := none }.processIRSConAck settings
        { bytFrameType := reply } reception := by
    rw [processRcvdARQFrame, still.state, still.substate]
  have quiet : station.protocolState = .irs → station.arqState ≠ .irsData := by
    intro _
    rw [answers.substate]
    decide
  rw [← same, react_connection settings (.inr connect) quiet answers.punctual, waits]
  exact still.processIRSConAck settings
    (show isConAck ({ bytFrameType := reply } : AirFrame).bytFrameType = true from connect)
    decoded

/-- After the ACK the caller sends its data. -/
theorem Calls.processISSConAck (calls : station.Calls .issConAck) (geared : station.Geared)
    (settings : Settings) (waits : 0 < station.bytDataToSend.length) {frame : AirFrame}
    (ack : 0xE0 ≤ frame.bytFrameType) {reception : Reception}
    (decoded : reception.blnFrameDecodedOK = true) :
    (station.processISSConAck settings frame reception).Transmits ∧
      Keeps station (station.processISSConAck settings frame reception) ∧
      (station.processISSConAck settings frame reception).played =
        some (station.processISSConAck settings frame reception).bytEncodedBytes := by
  have begins : { station with
      intAvgQuality := 0
      blnEnbARQRpt := false
      blnARQConnected := true
      bytLastARQDataFrameAcked := 1
      blnPending := false
      arqState := .issData
      intNAKctr := 0 }.Transmits :=
    ⟨calls.state, rfl, calls.awake, calls.unasked, calls.punctual⟩
  have noTurn : ¬(frame.bytFrameType = breakFrame ∧ station.bytDataToSend.length = 0) :=
    fun turn => waits.ne' turn.2
  rw [Station.processISSConAck]
  dsimp only
  rw [if_pos (.inl ⟨decoded, ack⟩), if_neg noTurn,
    sendData_eq settings begins.state begins.awake begins.unasked waits]
  obtain ⟨transmits, keeps, plays⟩ := begins.sendDataFrame (geared.alike rfl) settings
  exact ⟨transmits, ⟨keeps.queue, keeps.removed, keeps.orders⟩, plays⟩

theorem Calls.geared (calls : station.Calls .issConAck) (sound : station.Sound) :
    station.Geared := by
  rcases sound.phase.of_iss calls.state with ⟨other, -⟩ | ⟨-, geared⟩ | ⟨-, geared, -⟩
  · cases calls.substate.symm.trans other
  · exact geared
  · exact geared

theorem Calls.hearsACK (calls : station.Calls .issConAck) (sound : station.Sound)
    (settings : Settings) (waits : 0 < station.bytDataToSend.length) (quality : Nat)
    (reception : Reception) {next : Station}
    (same : station.react settings
      (.processNewSamples { bytFrameType := dataACK quality } reception) = next) :
    next.Transmits ∧ Keeps station next ∧ next.played = some next.bytEncodedBytes := by
  obtain ⟨ack, -⟩ := dataACK_spec quality
  obtain ⟨short, known⟩ := ack_spec settings quality
  have still : { station with played := none }.Calls .issConAck :=
    ⟨calls.state, calls.substate, calls.awake, calls.unasked, calls.punctual⟩
  have confirms (reception : Reception) :
      { station with played := none }.processRcvdARQFrame settings
          { bytFrameType := dataACK quality } reception =
        { station with played := none }.processISSConAck settings
          { bytFrameType := dataACK quality } reception := by
    rw [processRcvdARQFrame, still.state, processISS, still.substate]
  have notTurning : station.protocolState ≠ .irsToISS := by
    rw [calls.state]
    decide
  rw [← same, react_short settings short known notTurning calls.punctual, confirms]
  have geared := calls.geared sound
  obtain ⟨transmits, keeps, plays⟩ := still.processISSConAck (geared.alike rfl) settings waits
    (show 0xE0 ≤ ({ bytFrameType := dataACK quality } : AirFrame).bytFrameType from ack)
    (show { reception with blnFrameDecodedOK := true }.blnFrameDecodedOK = true from rfl)
  exact ⟨transmits, ⟨keeps.queue, keeps.removed, keeps.orders⟩, plays⟩

/-- A station that calls plays its connect request. -/
theorem calls_of_sendARQConnectRequest {settings : Settings} {strTargetCall : CString}
    (rests : station.protocolState = .disc) (awake : station.blnDISCRepeating = false)
    (unasked : station.blnARQDisconnect = false)
    (punctual : station.blnTimeoutTriggered = false) {request : AirFrame}
    (asks : encodeARQConRequest settings.callsign strTargetCall
      (if settings.callBandwidth = .undefined then settings.arqBandwidth
        else settings.callBandwidth) = some request) {next : Station}
    (same : station.opened.sendARQConnectRequest settings strTargetCall = next) :
    next.Calls .issConReq ∧ next.books = station.bytDataToSend ∧
      next.bytDataToSend = station.bytDataToSend ∧ next.blnAbort = false ∧
      next.played = some request := by
  rw [← same, sendARQConnectRequest]
  dsimp only
  rw [asks]
  dsimp only
  rw [setARDOPProtocolState_iss]
  · exact ⟨⟨rfl, rfl, awake, unasked, punctual⟩, rfl, rfl, rfl, rfl⟩
  · change station.protocolState ≠ .iss
    rw [rests]
    decide

end Station

namespace Link

/-- A connect request, two ConAcks and an ACK are heard. -/
def connection (request conAck confirmation answer : Reception) : List LinkEvent :=
  [.hears .called request, .hears .caller conAck, .hears .called confirmation,
    .hears .caller answer]

/-- When a call succeeds: the caller has nothing to do but to send its queue, both
callsigns come out of the request as they went in, so that both ends compute the same
session number, and the other takes calls with the callsign that is called and agrees on
a bandwidth. -/
structure CallSucceeds (settings : Side → Settings) (strTargetCall : CString)
    (caller called : Station) : Prop where
  rests : caller.protocolState = .disc
  awake : caller.blnDISCRepeating = false
  unasked : caller.blnARQDisconnect = false
  punctual : caller.blnTimeoutTriggered = false
  waits : 0 < caller.bytDataToSend.length
  attends : called.Attends
  listens : (settings .called).blnListen = true
  callerKept : onAir (settings .caller).callsign = (settings .caller).callsign
  targetKept : onAir strTargetCall = strTargetCall
  toMe : isCallToMe (settings .called) strTargetCall = true
  agrees : ∃ request answer,
    encodeARQConRequest (settings .caller).callsign strTargetCall
        (if (settings .caller).callBandwidth = .undefined then
          (settings .caller).arqBandwidth else (settings .caller).callBandwidth) =
      some request ∧
    irsNegotiateBW (settings .called).arqBandwidth request.bytFrameType = some answer

section Call

variable {settings : Side → Settings} {strTargetCall : CString} {caller called : Station}

/-- A call to a station that takes it makes the two stations connected. -/
theorem CallSucceeds.connects
    (succeeds : CallSucceeds settings strTargetCall caller called)
    {request conAck confirmation : Reception} (answer : Reception)
    (decoded : ∀ reception ∈ [request, conAck, confirmation],
      reception.blnFrameDecodedOK = true) (free : request.busy = false) :
    ∃ link, runFrom (step settings) (start settings strTargetCall caller called)
          (connection request conAck confirmation answer) = some link ∧
      link.Transmission .caller ∧
      (link.station .caller).books = caller.bytDataToSend ∧
      (link.station .caller).bytDataToSend = caller.bytDataToSend ∧
      (link.station .caller).blnAbort = false := by
  obtain ⟨rests, awake, unasked, punctual, waits, attends, listens, callerKept, targetKept,
    toMe, requested, ⟨width, reply⟩, asks, agreed⟩ := succeeds
  have requestDecoded := decoded request (by simp)
  have conAckDecoded := decoded conAck (by simp)
  have confirmationDecoded := decoded confirmation (by simp)
  have sound := @start_sound caller called settings strTargetCall rests attends.state
  obtain ⟨calls, books, queue, going, plays⟩ :=
    Station.calls_of_sendARQConnectRequest rests awake unasked punctual asks rfl
  obtain ⟨call, form⟩ := encodeARQConRequest_eq_some asks
  have air : (start settings strTargetCall caller called).air =
      some (Side.called.other, requested) := by
    rw [start, plays]
    rfl
  have target : requested.strCallsign = strTargetCall :=
    (congrArg AirFrame.strCallsign form).trans targetKept
  rw [← target] at toMe
  have opens : ((start settings strTargetCall caller called).station .called).Attends :=
    ⟨attends.state, attends.unbroken, attends.punctual⟩
  obtain ⟨connect, -⟩ := irsNegotiateBW_spec agreed
  obtain ⟨accepts, plays⟩ := opens.hearsCall listens requested toMe call agreed
    requestDecoded free rfl
  obtain ⟨first, hearsCall, firstSound, firstAir, firstCalled, firstCaller⟩ :=
    sound.hears settings .called air request plays
  rw [← firstCalled] at accepts
  have callerWaits : first.station .caller =
      caller.opened.sendARQConnectRequest (settings .caller) strTargetCall := firstCaller
  rw [← callerWaits] at calls books queue going
  obtain ⟨confirms, keeps, plays⟩ := calls.hearsConAck (settings .caller) connect
    conAckDecoded rfl
  obtain ⟨second, hearsConAck, secondSound, secondAir, secondCaller, secondCalled⟩ :=
    firstSound.hears settings .caller firstAir conAck plays
  have calledWaits : second.station .called = first.station .called := secondCalled
  rw [← secondCaller] at confirms keeps
  rw [← calledWaits] at accepts
  obtain ⟨listening, plays⟩ := accepts.hearsConAck (settings .called) connect
    confirmationDecoded rfl
  obtain ⟨third, hearsConfirmation, thirdSound, thirdAir, thirdCalled, thirdCaller⟩ :=
    secondSound.hears settings .called secondAir confirmation plays
  have callerWaits : third.station .caller = second.station .caller := thirdCaller
  rw [← thirdCalled] at listening
  rw [← callerWaits] at confirms keeps
  obtain ⟨transmits, sends, plays⟩ := confirms.hearsACK (thirdSound.sound .caller)
    (settings .caller) (by rw [keeps.queue, queue]; exact waits) confirmation.quality answer
    rfl
  obtain ⟨fourth, hearsACK, fourthSound, fourthAir, fourthCaller, fourthCalled⟩ :=
    thirdSound.hears settings .caller thirdAir answer plays
  have calledWaits : fourth.station .called = third.station .called := fourthCalled
  rw [← fourthCaller] at transmits sends fourthAir
  rw [← calledWaits] at listening
  have kept := keeps.trans sends
  have orders := congrArg (fun orders => orders.2.2.2) kept.orders
  refine ⟨fourth, ?_, ⟨fourthSound, transmits, listening, fourthAir⟩,
    kept.books.trans books, kept.queue.trans queue, ?_⟩
  · rw [connection, runFrom_cons_eq_some]
    refine ⟨first, hearsCall, ?_⟩
    rw [runFrom_cons_eq_some]
    refine ⟨second, hearsConAck, ?_⟩
    rw [runFrom_cons_eq_some]
    refine ⟨third, hearsConfirmation, ?_⟩
    rw [runFrom_cons_eq_some]
    exact ⟨fourth, hearsACK, rfl⟩
  · exact orders.trans going

end Call

end Link

end Ardop
end Hamchat
