import Hamchat.Ardop.Callsigns
import Hamchat.Ardop.Station

/-!
# The ARQ protocol

`SendData`, `ProcessRcvdARQFrame`, `GetNextARQFrame` and the commands of the host
of `src/ext/ardop1/ARQ.c`, the timers of `ARDOPC.c` and the end of
`ProcessNewSamples` of `SoundInput.c`.  PING frames, the FEC mode and the messages
to the host other than received data are left out.
-/

namespace Hamchat
namespace Ardop

/-! ## Connect requests -/

/-- `IsCallToMe` -/
def isCallToMe (settings : Settings) (strCallsign : CString) : Bool :=
  strCallsign == settings.callsign || settings.auxCalls.contains strCallsign

/-- `IRSNegotiateBW`: the session bandwidth and the ConAck, or nothing where it
returns `ConRejBW`.  The case of `B1000MAX` falls through to that of
`B2000MAX`. -/
def irsNegotiateBW (arqBandwidth : ArqBandwidth) (intConReqFrameType : UInt8) :
    Option (Nat × UInt8) :=
  let between (low high : UInt8) := low ≤ intConReqFrameType ∧ intConReqFrameType ≤ high
  let is (frameType : UInt8) := intConReqFrameType = frameType
  let b2000Max :=
    if is 0x31 ∨ is 0x35 then some (200, conAck200)
    else if is 0x32 ∨ is 0x36 then some (500, conAck500)
    else if is 0x33 ∨ is 0x37 then some (1000, conAck1000)
    else if is 0x34 ∨ is 0x38 then some (2000, conAck2000)
    else none
  match arqBandwidth with
  | .b200Forced =>
      if between 0x31 0x34 ∨ is 0x35 then some (200, conAck200) else none
  | .b500Forced =>
      if between 0x32 0x34 ∨ is 0x36 then some (500, conAck500) else none
  | .b1000Forced =>
      if between 0x33 0x34 ∨ is 0x37 then some (1000, conAck1000) else none
  | .b2000Forced => if is 0x34 ∨ is 0x38 then some (2000, conAck2000) else none
  | .b200Max => if between 0x31 0x35 then some (200, conAck200) else none
  | .b500Max =>
      if is 0x31 ∨ is 0x35 then some (200, conAck200)
      else if between 0x32 0x34 ∨ is 0x36 then some (500, conAck500)
      else none
  | .b1000Max =>
      if is 0x31 ∨ is 0x35 then some (200, conAck200)
      else if is 0x32 ∨ is 0x36 then some (500, conAck500)
      else if between 0x33 0x34 ∨ is 0x37 then some (1000, conAck1000)
      else b2000Max
  | .b2000Max => b2000Max
  | .undefined => none

/-- The frame type of a connect request for a bandwidth, if it has one. -/
def conReqFrameType : ArqBandwidth → Option UInt8
  | .b200Max => some 0x31
  | .b500Max => some 0x32
  | .b1000Max => some 0x33
  | .b2000Max => some 0x34
  | .b200Forced => some 0x35
  | .b500Forced => some 0x36
  | .b1000Forced => some 0x37
  | .b2000Forced => some 0x38
  | .undefined => none

/-- `EncodeARQConRequest`, or nothing where it returns zero.  The syntax of the
callsigns is not checked in a call of `CQ`. -/
def encodeARQConRequest (strMyCallsign strTargetCallsign : CString)
    (arqBandwidth : ArqBandwidth) : Option AirFrame :=
  if strTargetCallsign ≠ .ofLiteral "CQ" ∧
      (!checkValidCallsignSyntax strMyCallsign ∨
        !checkValidCallsignSyntax strTargetCallsign) then
    none
  else
    (conReqFrameType arqBandwidth).map fun bytFrameType =>
      { bytFrameType := bytFrameType
        strCaller := onAir strMyCallsign
        strCallsign := onAir strTargetCallsign }

/-- The bandwidth that a ConAck names. -/
def conAckBandwidth (intFrameType : UInt8) : Nat :=
  if intFrameType = 0x39 then 200
  else if intFrameType = 0x3A then 500
  else if intFrameType = 0x3B then 1000
  else 2000

/-- A ConReq frame. -/
def isConReq (intFrameType : UInt8) : Bool := 0x31 ≤ intFrameType && intFrameType ≤ 0x38

/-- A ConAck frame. -/
def isConAck (intFrameType : UInt8) : Bool := 0x39 ≤ intFrameType && intFrameType ≤ 0x3C

/-- What a received frame comes with. -/
structure Reception where
  blnFrameDecodedOK : Bool
  /-- `intLastRcvdFrameQuality` -/
  quality : Fin 101
  /-- `BusyBlock` is set and the channel has been busy. -/
  busy : Bool
  deriving DecidableEq

namespace Station

/-! ## Sending -/

/-- `CheckForDisconnect`, which also says whether it has sent DISC. -/
def checkForDisconnect (station : Station) : Bool × Station :=
  if station.blnARQDisconnect then
    (true,
      { station with
        intRepeatCount := 1
        blnARQDisconnect := false
        blnDISCRepeating := true
        blnEnbARQRpt := false }.play discFrame)
  else
    (false, station)

/-- The next data frame is played. -/
def sendDataFrame (settings : Settings) (station : Station) : Station :=
  let next := station.getNextFrameData settings
  let station := next.2
  let bytData := station.bytDataToSend.take next.1
  ({ station with
      bytQDataInProcessLen := next.1
      blnLastFrameSentData := true
      blnEnbARQRpt := true
      arqState := .issData
      journal :=
        { station.journal with
          offered := some (station.bytCurrentFrameType, bytData) } }.encode
    { bytFrameType := station.bytCurrentFrameType, bytData := bytData }).playEncoded

/-- `SendData` -/
def sendData (settings : Settings) (station : Station) : Station :=
  if station.blnDISCRepeating then
    station
  else if station.protocolState = .iss then
    let check := station.checkForDisconnect
    if check.1 then
      check.2
    else if station.bytDataToSend.length > 0 then
      station.sendDataFrame settings
    else
      { station.setARDOPProtocolState .idle with
        blnEnbARQRpt := true
        blnLastFrameSentData := false }.clearDataToSend.play idleFrame
  else
    station

/-! ## Connecting -/

/-- `SendARQConnectRequest` -/
def sendARQConnectRequest (settings : Settings) (strTargetCall : CString)
    (station : Station) : Station :=
  let station :=
    { station.initializeConnection.withdraw with strRemoteCallsign := strTargetCall }
  let bandwidth :=
    if settings.callBandwidth = .undefined then settings.arqBandwidth
    else settings.callBandwidth
  match encodeARQConRequest settings.callsign strTargetCall bandwidth with
  | none => station
  | some frame =>
      let station := station.encode frame
      { ({ station with blnAbort := false }.setARDOPProtocolState .iss) with
        arqState := .issConReq
        intRepeatCount := 1
        blnPending := true
        blnARQConnected := false
        blnEnbARQRpt := true }.playEncoded

/-- A session that ends: the queue is cleared and the state is DISC. -/
def disconnect (station : Station) : Station :=
  { (station.clearDataToSend.setARDOPProtocolState .disc).initializeConnection with
    blnEnbARQRpt := false
    blnDISCRepeating := false }

/-! ## Repeating -/

/-- `GetNextARQFrame`.  The argument `timedOut` says that the time of the last
progress is further back than `ARQTimeout`. -/
def getNextARQFrame (settings : Settings) (timedOut : Bool) (station : Station) :
    Bool × Station :=
  if station.blnAbort then
    (false,
      { (station.clearDataToSend.setARDOPProtocolState .disc).initializeConnection with
        blnAbort := false
        blnEnbARQRpt := false
        blnDISCRepeating := false
        intRepeatCount := 0 })
  else if station.blnDISCRepeating then
    let station :=
      { station with
        intRepeatCount := station.intRepeatCount + 1
        blnEnbARQRpt := false }
    if station.intRepeatCount > 5 then
      let station :=
        { station with
          blnDISCRepeating := false
          blnEnbARQRpt := false }.clearDataToSend.setARDOPProtocolState .disc
      (false, { station with intRepeatCount := 0 }.initializeConnection)
    else
      (true, station.encode { bytFrameType := discFrame })
  else if (station.protocolState = .iss ∨ station.protocolState = .idle) ∧
      station.blnARQDisconnect then
    (false, station.checkForDisconnect.2)
  else if station.protocolState = .iss ∧ station.arqState = .issConReq then
    let station := { station with intRepeatCount := station.intRepeatCount + 1 }
    if station.intRepeatCount > settings.arqConReqRepeats then
      let station := station.clearDataToSend.setARDOPProtocolState .disc
      (false,
        { station with
          intRepeatCount := 0
          blnPending := false }.initializeConnection)
    else
      (true, station)
  else if station.protocolState = .iss ∧ station.arqState = .irsConAck then
    -- The source means the repetition of the ConAck of the ISS.
    let station := { station with intRepeatCount := station.intRepeatCount + 1 }
    if station.intRepeatCount ≤ settings.arqConReqRepeats then
      (true, station)
    else
      (false,
        { station.setARDOPProtocolState .disc with
          arqState := .discArqEnd
          intRepeatCount := 0 }.initializeConnection)
  else if station.protocolState ≠ .disc ∧ timedOut ∧ !station.blnTimeoutTriggered then
    (false,
      { station with
        blnEnbARQRpt := false
        blnTimeoutTriggered := true
        tmrSendTimeout := true })
  else if station.protocolState = .disc then
    (false, { station with blnARQDisconnect := false, intRepeatCount := 0 })
  else
    (station.blnEnbARQRpt, station)

/-- The first part of `CheckTimers`, when it is time to repeat a frame. -/
def checkTimers (settings : Settings) (timedOut : Bool) (station : Station) : Station :=
  if station.blnEnbARQRpt ∨ station.blnDISCRepeating then
    let next := station.getNextARQFrame settings timedOut
    if next.1 then
      next.2.remodulateLastFrame settings
    else
      { next.2 with blnEnbARQRpt := false }
  else
    station

/-- The second part of `CheckTimers`, when `tmrSendTimeout` has run down. -/
def sendTimeout (station : Station) : Station :=
  if station.tmrSendTimeout then
    let station :=
      { station with
        tmrSendTimeout := false
        blnEnbARQRpt := false }.clearDataToSend.play discFrame
    { (station.setARDOPProtocolState .disc).initializeConnection with
      blnTimeoutTriggered := false }
  else
    station

/-- The third part of `CheckTimers`, when `tmrIRSPendingTimeout` has run down. -/
def irsPendingTimeout (station : Station) : Station :=
  if station.tmrIRSPendingTimeout then
    { station with
      tmrIRSPendingTimeout := false
      blnEnbARQRpt := false
      protocolState := .disc
      blnPending := false }.initializeConnection
  else
    station

/-- `MainPoll` -/
def mainPoll (settings : Settings) (timedOut : Bool) (station : Station) : Station :=
  if !station.blnEnbARQRpt ∧ !station.blnDISCRepeating then
    (station.getNextARQFrame settings timedOut).2
  else
    station

/-! ## Commands of the host -/

/-- `Break` -/
def breakCommand (station : Station) : Station :=
  if station.protocolState ≠ .irs then
    station
  else
    { station with blnBREAKCmd := true }

/-- `Abort` -/
def abort (settings : Settings) (station : Station) : Station :=
  let station := { station with blnAbort := true }
  if station.protocolState = .idle ∨ station.protocolState = .irs ∨
      station.protocolState = .irsToISS then
    (station.getNextARQFrame settings false).2
  else
    station

/-- The command `DISCONNECT`. -/
def disconnectCommand (station : Station) : Station :=
  if station.protocolState ≠ .disc then
    { station with blnARQDisconnect := true }
  else
    station

/-! ## Received frames -/

/-- A connect request is accepted. -/
def acceptConReq (frame : AirFrame) (reply : UInt8) (station : Station) : Station :=
  { (station.clearDataToSend.withdraw) with
    tmrIRSPendingTimeout := true
    arqState := .irsConAck
    intLastARQDataFrameToHost := none
    strRemoteCallsign := frame.strCaller
    intAvgQuality := 0 }.play reply

/-- The state changes to ISS when the BREAK of this station is acknowledged. -/
def becomeISS (settings : Settings) (station : Station) : Station :=
  let station :=
    { station with
      blnEnbARQRpt := false
      intLastARQDataFrameToHost := none }
  let station :=
    if station.bytCurrentFrameType = 0 then station.initializeFrameData settings
    else station
  { station.setARDOPProtocolState .iss with arqState := .issData }.sendData settings

/-- The state changes to IRStoISS with a BREAK that is repeated. -/
def becomeIRStoISS (station : Station) : Station :=
  { station.setARDOPProtocolState .irsToISS with blnEnbARQRpt := true }.play breakFrame

/-- The state changes to IRS after the BREAK of the other station. -/
def becomeIRS (station : Station) : Station :=
  { (station.play (dataACK 100)).setARDOPProtocolState .irs with
    arqState := .irsFromISS
    intLastARQDataFrameToHost := none }

/-- `ProcessRcvdARQFrame` in state DISC. -/
def processDISC (settings : Settings) (frame : AirFrame) (reception : Reception)
    (station : Station) : Station :=
  let intFrameType := frame.bytFrameType
  if reception.blnFrameDecodedOK ∧ intFrameType = discFrame then
    { station with blnEnbARQRpt := false }.play endFrame
  else if !reception.blnFrameDecodedOK ∨ !isConReq intFrameType then
    station
  else
    let station := { station with strRemoteCallsign := frame.strCaller }
    if !settings.blnListen then
      station
    else if isCallToMe settings frame.strCallsign then
      if reception.busy then
        station.play conRejBusy
      else
        match irsNegotiateBW settings.arqBandwidth intFrameType with
        | some (intBW, reply) =>
            let station := { station with intSessionBW := intBW }.initializeConnection
            let station :=
              { station with
                blnPending := true
                blnEnbARQRpt := false }.setARDOPProtocolState .irs
            { station.acceptConReq frame reply with blnEnbARQRpt := false }
        | none => { station.play conRejBW with blnEnbARQRpt := false }
    else
      { station with blnEnbARQRpt := false }

/-- `ProcessRcvdARQFrame` in state IRS and substate IRSConAck. -/
def processIRSConAck (settings : Settings) (frame : AirFrame) (reception : Reception)
    (station : Station) : Station :=
  let intFrameType := frame.bytFrameType
  if !reception.blnFrameDecodedOK then
    station
  else if isConReq intFrameType then
    if !settings.blnListen then
      station
    else if isCallToMe settings frame.strCallsign then
      match irsNegotiateBW settings.arqBandwidth intFrameType with
      | some (intBW, reply) =>
          let station := { station with intSessionBW := intBW }.setARDOPProtocolState .irs
          station.initializeConnection.acceptConReq frame reply
      | none => station.play conRejBW
    else
      station
  else if isConAck intFrameType then
    let station :=
      { station with
        intSessionBW := conAckBandwidth intFrameType
        blnARQConnected := true
        blnPending := false
        tmrIRSPendingTimeout := false
        arqState := .irsData
        intLastARQDataFrameToHost := none
        intNAKctr := 0
        blnEnbARQRpt := false }.play (dataACK reception.quality)
    station.initializeFrameData settings
  else
    station

/-- The change from ISS to IRS is complete with the first data frame. -/
def completeChange (station : Station) : Station :=
  if station.arqState = .irsFromISS then { station with arqState := .irsData }
  else station

/-- IDLE in state IRS and substate IRSData or IRSfromISS. -/
def processIdleFrame (settings : Settings) (station : Station) : Station :=
  if station.checkForDisconnect.1 then
    station.checkForDisconnect.2
  else if settings.autoBreak ∧ station.bytDataToSend.length > 0 ∨
      station.blnBREAKCmd then
    station.becomeIRStoISS
  else
    station.play (dataACK 100)

/-- The data of a frame is passed to the host, unless it has been before. -/
def passToHost (frame : AirFrame) (station : Station) : Station :=
  if station.intLastARQDataFrameToHost = some frame.bytFrameType then
    station
  else
    { station with
      intLastARQDataFrameToHost := some frame.bytFrameType
      journal :=
        { station.journal with passed := station.journal.passed ++ frame.bytData } }

/-- A decoded data frame in state IRS and substate IRSData or IRSfromISS. -/
def processDataFrame (frame : AirFrame) (reception : Reception) (station : Station) :
    Station :=
  if station.arqState = .irsData ∧ station.blnBREAKCmd ∧
      frame.bytFrameType ≠ station.bytLastACKedDataFrameType then
    { station with blnBREAKCmd := false }.becomeIRStoISS
  else
    { (station.passToHost frame).completeChange.play (dataACK reception.quality) with
      blnEnbARQRpt := false
      bytLastACKedDataFrameType := frame.bytFrameType }

/-- `ProcessRcvdARQFrame` in state IRS and substate IRSData or IRSfromISS. -/
def processIRSData (settings : Settings) (frame : AirFrame) (reception : Reception)
    (station : Station) : Station :=
  if isConAck frame.bytFrameType then
    { station with intSessionBW := conAckBandwidth frame.bytFrameType }.play
      (dataACK reception.quality)
  else if reception.blnFrameDecodedOK ∧ frame.bytFrameType = discFrame then
    station.disconnect.play endFrame
  else if reception.blnFrameDecodedOK ∧ frame.bytFrameType = endFrame then
    station.disconnect
  else if reception.blnFrameDecodedOK ∧ frame.bytFrameType = breakFrame then
    { station with blnEnbARQRpt := false }.play (dataACK 100)
  else if reception.blnFrameDecodedOK ∧ frame.bytFrameType = idleFrame then
    { station with blnEnbARQRpt := false }.processIdleFrame settings
  else if reception.blnFrameDecodedOK ∧ isDataFrame frame.bytFrameType then
    station.processDataFrame frame reception
  else if !reception.blnFrameDecodedOK ∧
      frame.bytFrameType = station.bytLastACKedDataFrameType then
    { station.play (dataACK reception.quality) with blnEnbARQRpt := false }
  else if !reception.blnFrameDecodedOK ∧ isDataFrame frame.bytFrameType then
    { station.completeChange.play (dataNAK reception.quality) with
      blnEnbARQRpt := false }
  else
    station

/-- `ProcessRcvdARQFrame` in state IDLE. -/
def processIDLE (settings : Settings) (frame : AirFrame) (reception : Reception)
    (station : Station) : Station :=
  let intFrameType := frame.bytFrameType
  if !reception.blnFrameDecodedOK then
    station
  else if 0xE0 ≤ intFrameType ∧ station.bytDataToSend.length > 0 then
    { station.setARDOPProtocolState .iss with arqState := .issData }.sendData settings
  else if intFrameType = breakFrame then
    { station with blnEnbARQRpt := false }.becomeIRS
  else if intFrameType = discFrame then
    { (({ station with blnDISCRepeating := false }.play
        endFrame).clearDataToSend.setARDOPProtocolState .disc) with
      blnEnbARQRpt := false }
  else if intFrameType = endFrame then
    { station.clearDataToSend.setARDOPProtocolState .disc with
      blnEnbARQRpt := false
      blnDISCRepeating := false }
  else
    station

/-- `ProcessRcvdARQFrame` in state ISS and substate ISSConReq. -/
def processISSConReq (settings : Settings) (frame : AirFrame) (reception : Reception)
    (station : Station) : Station :=
  let intFrameType := frame.bytFrameType
  if !reception.blnFrameDecodedOK then
    station
  else if isConAck intFrameType then
    let station :=
      { station with
        intSessionBW := conAckBandwidth intFrameType }.initializeFrameData settings
    { station with
      blnEnbARQRpt := true
      arqState := .issConAck }.play intFrameType
  else if intFrameType = conRejBusy ∨ intFrameType = conRejBW then
    station.abort settings
  else
    station

/-- `ProcessRcvdARQFrame` in state ISS and substate ISSConAck. -/
def processISSConAck (settings : Settings) (frame : AirFrame) (reception : Reception)
    (station : Station) : Station :=
  let intFrameType := frame.bytFrameType
  if reception.blnFrameDecodedOK ∧ 0xE0 ≤ intFrameType ∨ intFrameType = breakFrame then
    let station :=
      { station with
        intAvgQuality := 0
        blnEnbARQRpt := false
        blnARQConnected := true
        bytLastARQDataFrameAcked := 1
        blnPending := false
        arqState := .issData
        intNAKctr := 0 }
    if intFrameType = breakFrame ∧ station.bytDataToSend.length = 0 then
      { station.clearDataToSend with blnEnbARQRpt := false }.becomeIRS
    else
      station.sendData settings
  else if reception.blnFrameDecodedOK ∧
      (intFrameType = conRejBusy ∨ intFrameType = conRejBW) then
    (station.setARDOPProtocolState .disc).initializeConnection
  else
    station

/-- The data frame that is out has been acknowledged. -/
def acknowledged (station : Station) : Station :=
  let station :=
    { station with
      intACKctr := station.intACKctr + 1
      bytLastARQDataFrameAcked := station.bytLastARQDataFrameSent }
  if station.bytQDataInProcessLen ≠ 0 then
    { station.removeDataFromQueue station.bytQDataInProcessLen with
      bytQDataInProcessLen := 0 }.withdraw
  else
    station

/-- What an ACK changes before the next frame is sent. -/
def creditACK (intFrameType : UInt8) (station : Station) : Station :=
  if station.blnLastFrameSentData then
    (station.acknowledged.computeQualityAvg
      (38 + 2 * (intFrameType.toNat - 0xE0))).gearshift9
  else
    station

/-- An ACK in state ISS and substate ISSData. -/
def processACK (settings : Settings) (intFrameType : UInt8) (station : Station) :
    Station :=
  { station.creditACK intFrameType with
    intNAKctr := 0
    blnEnbARQRpt := false }.sendData settings

/-- A NAK in state ISS and substate ISSData. -/
def processNAK (settings : Settings) (intFrameType : UInt8) (station : Station) :
    Station :=
  if station.blnLastFrameSentData then
    let station :=
      ({ station with intNAKctr := station.intNAKctr + 1 }.computeQualityAvg
        (38 + 2 * intFrameType.toNat)).gearshift9
    let station :=
      if station.intShiftUpDn ≠ 0 then
        { station with intNAKctr := 0 }.sendData settings
      else
        station
    { station with intACKctr := 0 }
  else
    station

/-- A BREAK in substate ISSData also says that the ConAck has been received. -/
def completeConnection (station : Station) : Station :=
  if !station.blnARQConnected then
    { station with blnARQConnected := true, blnPending := false }
  else
    station

/-- `ProcessRcvdARQFrame` in state ISS and substate ISSData. -/
def processISSData (settings : Settings) (frame : AirFrame) (reception : Reception)
    (station : Station) : Station :=
  let intFrameType := frame.bytFrameType
  if station.checkForDisconnect.1 then
    station.checkForDisconnect.2
  else if !reception.blnFrameDecodedOK then
    station
  else if 0xE0 ≤ intFrameType then
    station.processACK settings intFrameType
  else if intFrameType = breakFrame then
    { station.completeConnection.clearDataToSend.withdraw with
      blnEnbARQRpt := false
      intNAKctr := 0 }.becomeIRS
  else if intFrameType ≤ 0x1F then
    station.processNAK settings intFrameType
  else if intFrameType = discFrame then
    station.disconnect.play endFrame
  else if intFrameType = endFrame then
    ({ station.clearDataToSend with
        blnDISCRepeating := false }.setARDOPProtocolState .disc).initializeConnection
  else
    station

/-- `ProcessRcvdARQFrame` in state ISS, where nothing is done in the substates that
are not named. -/
def processISS (settings : Settings) (frame : AirFrame) (reception : Reception)
    (station : Station) : Station :=
  match station.arqState with
  | .issConReq => station.processISSConReq settings frame reception
  | .issConAck => station.processISSConAck settings frame reception
  | .issData => station.processISSData settings frame reception
  | _ => station

/-- `ProcessRcvdARQFrame`.  In state IRStoISS it does nothing.  State IRS falls
through to state ISS in the substates that are not its own. -/
def processRcvdARQFrame (settings : Settings) (frame : AirFrame) (reception : Reception)
    (station : Station) : Station :=
  match station.protocolState with
  | .disc => station.processDISC settings frame reception
  | .irs =>
      match station.arqState with
      | .irsConAck => station.processIRSConAck settings frame reception
      | .irsData => station.processIRSData settings frame reception
      | .irsFromISS => station.processIRSData settings frame reception
      | _ => station.processISS settings frame reception
  | .irsToISS => station
  | .idle => station.processIDLE settings frame reception
  | .iss => station.processISS settings frame reception

/-- `ProcessRcvdARQFrame` as `ProcessNewSamples` calls it. -/
def processFrame (settings : Settings) (frame : AirFrame) (reception : Reception)
    (station : Station) : Station :=
  if frame.bytFrameType = pktFrameData ∨ station.blnTimeoutTriggered then
    station
  else
    station.processRcvdARQFrame settings frame reception

/-- What `ProcessNewSamples` does once it knows the type of a frame. -/
def processNewSamples (settings : Settings) (frame : AirFrame) (reception : Reception)
    (station : Station) : Station :=
  let intFrameType := frame.bytFrameType
  if (frameInfo settings.packet intFrameType).isNone then
    station
  else if isShortControlFrame intFrameType then
    if station.protocolState = .irsToISS ∧ 0xE0 ≤ intFrameType then
      station.becomeISS settings
    else
      station.processFrame settings frame { reception with blnFrameDecodedOK := true }
  else if station.blnBREAKCmd ∧ station.protocolState = .irs ∧
      station.arqState = .irsData ∧
      intFrameType ≠ station.bytLastACKedDataFrameType then
    { station.becomeIRStoISS with blnBREAKCmd := false }
  else if station.protocolState = .irsToISS ∧ isDataFrame intFrameType then
    { station with blnEnbARQRpt := true }.play breakFrame
  else if station.protocolState = .irsToISS ∧ 0xE0 ≤ intFrameType then
    station.becomeISS settings
  else
    station.processFrame settings frame reception

end Station

end Ardop
end Hamchat
