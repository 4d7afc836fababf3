import Hamchat.Ardop.Frames
import Hamchat.CString

/-!
# A station of the ARQ protocol

The variables of `src/ext/ardop1/ARQ.c` and what it does to choose, send and
shift the data frames of a session.  Time, the leaders of the frames, the
statistics, the identification frames and the session number in front of each
frame are left out: a frame with the wrong session number is a frame that is not
heard.
-/

namespace Hamchat
namespace Ardop

/-! ## Frame types -/

/-- `BREAK` -/
def breakFrame : UInt8 := 0x23

/-- `IDLEFRAME` -/
def idleFrame : UInt8 := 0x24

/-- `DISCFRAME` -/
def discFrame : UInt8 := 0x29

/-- `END` -/
def endFrame : UInt8 := 0x2C

/-- `ConRejBusy` -/
def conRejBusy : UInt8 := 0x2D

/-- `ConRejBW` -/
def conRejBW : UInt8 := 0x2E

/-- `ConAck200` -/
def conAck200 : UInt8 := 0x39

/-- `ConAck500` -/
def conAck500 : UInt8 := 0x3A

/-- `ConAck1000` -/
def conAck1000 : UInt8 := 0x3B

/-- `ConAck2000` -/
def conAck2000 : UInt8 := 0x3C

/-- `IsShortControlFrame` -/
def isShortControlFrame (bytType : UInt8) : Bool :=
  bytType ≤ 0x1F || bytType == 0x23 || bytType == 0x24 || bytType == 0x29 ||
    bytType == 0x2C || bytType == 0x2D || bytType == 0x2E || 0xE0 ≤ bytType

/-- `IsDataFrame`.  The types whose names end in `.E` or `.O` are those of the
cases of `FrameInfo` from 0x40 on. -/
def isDataFrame (intFrameType : UInt8) : Bool :=
  intFrameType == pktFrameHeader ||
    0x40 ≤ intFrameType && frameCases.any fun frame => intFrameType ∈ frame.types

/-- The frame that `EncodeDATAACK` makes. -/
def dataACK (intQuality : Nat) : UInt8 :=
  0xE0 + UInt8.ofNat (min intQuality 100 / 2 - 19)

/-- The frame that `EncodeDATANAK` makes. -/
def dataNAK (intQuality : Nat) : UInt8 :=
  UInt8.ofNat (intQuality / 2 - 19)

/-- A frame on the air: what `bytEncodedBytes` holds, decoded. -/
structure AirFrame where
  bytFrameType : UInt8
  /-- The data of a data frame. -/
  bytData : List UInt8 := []
  /-- The station that sends a connect request. -/
  strCaller : CString := .empty
  /-- The station that a connect request is for. -/
  strCallsign : CString := .empty
  deriving DecidableEq

/-! ## Settings -/

/-- `ARQBandwidth` and `CallBandwidth` -/
inductive ArqBandwidth where
  | b200Forced
  | b500Forced
  | b1000Forced
  | b2000Forced
  | b200Max
  | b500Max
  | b1000Max
  | b2000Max
  | undefined
  deriving DecidableEq

/-- What the host has set. -/
structure Settings where
  callsign : CString
  auxCalls : List CString
  arqBandwidth : ArqBandwidth
  callBandwidth : ArqBandwidth
  arqConReqRepeats : Nat
  tuningRange : Nat
  blnListen : Bool
  autoBreak : Bool
  fastStart : Bool
  fskOnly : Bool
  use600Modes : Bool
  packet : PacketSettings

/-! ## Modes -/

/-- `GetDataModes`: the array and its length. -/
def getDataModes (settings : Settings) (intBW : Nat) : List UInt8 × Nat :=
  if intBW = 200 then
    if settings.fskOnly then ([0x48], 1)
    else ([0x48, 0x42, 0x40, 0x44, 0x46], 5)
  else if intBW = 500 then
    if settings.fskOnly then ([0x48], 1)
    else ([0x48, 0x42, 0x40, 0x50, 0x52, 0x54], 6)
  else if intBW = 1000 then
    if settings.fskOnly then ([0x4C, 0x4A], 2)
    else ([0x4C, 0x4A, 0x50, 0x60, 0x62, 0x64], 6)
  else if intBW = 2000 then
    if settings.tuningRange > 0 ∧ !settings.use600Modes then
      if settings.fskOnly then ([0x4C, 0x4A], 2)
      else ([0x4C, 0x4A, 0x50, 0x60, 0x70, 0x72, 0x74], 7)
    else
      if settings.fskOnly then ([0x4C, 0x4A, 0x7C, 0x7A], 4)
      else ([0x4C, 0x4A, 0x7C, 0x7A], 4)
  else
    ([0], 0)

/-- `GetShiftUpThresholds` -/
def getShiftUpThresholds (settings : Settings) (intBW : Nat) : List UInt8 :=
  if intBW = 200 then [82, 84, 84, 85, 0]
  else if intBW = 500 then [80, 84, 84, 75, 79, 0]
  else if intBW = 1000 then [80, 80, 80, 80, 75, 0]
  else if settings.tuningRange > 0 ∧ !settings.use600Modes then
    [80, 80, 80, 76, 85, 75, 0]
  else
    [60, 85, 85, 0]

/-- `FrameSize`, from 0x40 on. -/
def frameSizes : List Nat :=
  [64, 64, 16, 16, 108, 108, 128, 128, 16, 16, 64, 64, 32, 32, 0, 0,
    128, 128, 216, 216, 256, 256, 0, 0, 0, 0, 0, 0, 0, 0, 0, 0,
    256, 256, 432, 432, 512, 512, 0, 0, 0, 0, 0, 0, 0, 0, 0, 0,
    512, 512, 864, 864, 1024, 1024, 0, 0, 0, 0, 600, 600, 200, 200, 0, 0]

/-- `FrameSize[bytFrameType]` -/
def frameSize (bytFrameType : UInt8) : Nat :=
  if bytFrameType < 0x40 then 0 else frameSizes.getD (bytFrameType.toNat - 0x40) 0

/-! ## Variables -/

/-- The values of `ProtocolState` in ARQ mode. -/
inductive ArdopState where
  | disc
  | iss
  | irs
  | idle
  | irsToISS
  deriving DecidableEq

/-- The values of `ARQState` that are used. -/
inductive ArqSubState where
  | none
  | issConReq
  | issConAck
  | issData
  | irsConAck
  | irsData
  | irsFromISS
  | discArqEnd
  deriving DecidableEq

/-- A record of what a station and its host exchange. -/
structure Journal where
  /-- The bytes that the host has queued. -/
  queued : List UInt8
  /-- The bytes that have left the queue as acknowledged. -/
  removed : List UInt8
  /-- The data frame that waits for its answer. -/
  offered : Option (UInt8 × List UInt8)
  /-- The bytes that have been passed to the host. -/
  passed : List UInt8
  /-- How many bytes have left the queue otherwise. -/
  discarded : Nat
  /-- An array has been read behind its end, or a variable that is not set. -/
  undefined : Bool

/-- The variables of a station. -/
structure Station where
  protocolState : ArdopState
  arqState : ArqSubState
  bytDataToSend : List UInt8
  bytQDataInProcessLen : Nat
  bytEncodedBytes : AirFrame
  strRemoteCallsign : CString
  intSessionBW : Nat
  bytFrameTypesForBW : List UInt8
  bytFrameTypesForBWLength : Nat
  bytShiftUpThresholds : List UInt8
  intFrameTypePtr : Nat
  intShiftUpDn : Int
  bytCurrentFrameType : UInt8
  bytLastARQDataFrameSent : UInt8
  bytLastARQDataFrameAcked : UInt8
  bytLastACKedDataFrameType : UInt8
  /-- Nothing for the illegal frame type -1. -/
  intLastARQDataFrameToHost : Option UInt8
  blnLastFrameSentData : Bool
  intAvgQuality : Nat
  intACKctr : Nat
  intNAKctr : Nat
  modeHasWorked : List UInt16
  modeHasBeenTried : List UInt16
  blnEnbARQRpt : Bool
  blnDISCRepeating : Bool
  intRepeatCount : Nat
  blnARQConnected : Bool
  blnPending : Bool
  blnARQDisconnect : Bool
  blnAbort : Bool
  blnBREAKCmd : Bool
  blnTimeoutTriggered : Bool
  tmrSendTimeout : Bool
  tmrIRSPendingTimeout : Bool
  /-- The frame that is played now. -/
  played : Option AirFrame
  journal : Journal

namespace Station

/-! ## Playing frames -/

/-- A frame is encoded in `bytEncodedBytes`. -/
def encode (frame : AirFrame) (station : Station) : Station :=
  { station with bytEncodedBytes := frame }

/-- The frame in `bytEncodedBytes` is played. -/
def playEncoded (station : Station) : Station :=
  { station with played := some station.bytEncodedBytes }

/-- A frame without data is encoded and played. -/
def play (bytFrameType : UInt8) (station : Station) : Station :=
  (station.encode { bytFrameType }).playEncoded

/-- `RemodulateLastFrame` -/
def remodulateLastFrame (settings : Settings) (station : Station) : Station :=
  if (frameInfo settings.packet station.bytEncodedBytes.bytFrameType).isSome then
    station.playEncoded
  else
    station

/-! ## The queue -/

/-- `AddDataToDataToSend`, for a buffer of `DATABUFFERSIZE` bytes. -/
def addDataToDataToSend (bytNewData : List UInt8) (station : Station) : Station :=
  if bytNewData.length = 0 then
    station
  else if station.bytDataToSend.length + bytNewData.length ≥ 4096 then
    station
  else
    { station with
      bytDataToSend := station.bytDataToSend ++ bytNewData
      journal := { station.journal with queued := station.journal.queued ++ bytNewData } }

/-- `ClearDataToSend`, and `bytDataToSendLength = 0`. -/
def clearDataToSend (station : Station) : Station :=
  { station with
    bytDataToSend := []
    journal :=
      { station.journal with
        discarded := station.journal.discarded + station.bytDataToSend.length } }

/-- `RemoveDataFromQueue`, for an acknowledged frame. -/
def removeDataFromQueue (len : Nat) (station : Station) : Station :=
  if len = 0 then
    station
  else
    { station with
      bytDataToSend := station.bytDataToSend.drop len
      journal :=
        { station.journal with
          removed := station.journal.removed ++ station.bytDataToSend.take len } }

/-- The data frame that is out does not wait for an answer any more. -/
def withdraw (station : Station) : Station :=
  { station with journal := { station.journal with offered := none } }

/-! ## Connections -/

/-- `InitializeConnection` -/
def initializeConnection (station : Station) : Station :=
  { station with
    strRemoteCallsign := .empty
    intSessionBW := 0
    bytLastACKedDataFrameType := 0
    modeHasWorked := List.replicate 16 0
    modeHasBeenTried := List.replicate 16 0 }

/-- `SetARDOPProtocolState` -/
def setARDOPProtocolState (value : ArdopState) (station : Station) : Station :=
  if station.protocolState = value then
    station
  else
    let station := { station with protocolState := value }
    match value with
    | .disc =>
        { station with
          blnARQDisconnect := false
          blnARQConnected := false
          blnPending := false }.clearDataToSend
    | .iss => { station with blnEnbARQRpt := false }
    | .idle => { station with blnEnbARQRpt := false }
    | .irs => { station with bytLastACKedDataFrameType := 0 }
    | .irsToISS => { station with bytLastACKedDataFrameType := 0 }

/-! ## Gears -/

/-- An index of the arrays of a bandwidth is used. -/
def touch (index : Nat) (station : Station) : Station :=
  if index < station.bytFrameTypesForBW.length ∧
      index < station.bytShiftUpThresholds.length ∧ index < 16 then
    station
  else
    { station with journal := { station.journal with undefined := true } }

/-- `bytFrameTypesForBW[index]` -/
def mode (station : Station) (index : Nat) : UInt8 :=
  station.bytFrameTypesForBW.getD index 0

/-- `ComputeQualityAvg`.  The average is rounded. -/
def computeQualityAvg (intReportedQuality : Nat) (station : Station) : Station :=
  if station.intAvgQuality = 0 then
    { station with intAvgQuality := intReportedQuality }
  else
    { station with
      intAvgQuality := (station.intAvgQuality + intReportedQuality + 1) / 2 }

/-- `ModeHasWorked[intFrameTypePtr]++` in `Gearshift_9`. -/
def countMode (station : Station) : Station :=
  let index := station.intFrameTypePtr
  if station.intACKctr ≠ 0 then
    { station with
      modeHasWorked :=
        station.modeHasWorked.set index (station.modeHasWorked.getD index 0 + 1) }
  else
    station

/-- The step to a faster mode in `Gearshift_9`, if the rest of the data does not
fit into a frame of this mode and the next mode has not failed at once. -/
def shiftUp (station : Station) : Station :=
  let index := station.intFrameTypePtr
  if station.bytDataToSend.length ≤ frameSize (station.mode index) then
    { station with intShiftUpDn := 0 }
  else if station.modeHasBeenTried.getD (index + 1) 0 ≠ 0 ∧
      station.modeHasWorked.getD (index + 1) 0 = 0 ∧ station.intACKctr < 5 then
    { station.touch (index + 1) with intShiftUpDn := 0 }
  else
    { station.touch (index + 1) with
      intShiftUpDn := 1
      modeHasBeenTried := station.modeHasBeenTried.set (index + 1) 1
      intAvgQuality := 0
      intNAKctr := 0
      intACKctr := 0 }

/-- `DownNAKS` in `Gearshift_9`: a mode that has never worked is left at once. -/
def downNAKS (station : Station) : Nat :=
  if station.modeHasWorked.getD station.intFrameTypePtr 0 = 0 then 1 else 2

/-- `Gearshift_9` -/
def gearshift9 (station : Station) : Station :=
  let index := station.intFrameTypePtr
  let downNAKS := station.downNAKS
  let station := (station.touch index).countMode
  if index > 0 ∧ station.intNAKctr ≥ downNAKS then
    { station with
      intShiftUpDn := -1
      intAvgQuality := 0
      intNAKctr := 0
      intACKctr := 0 }
  else if station.intAvgQuality > (station.bytShiftUpThresholds.getD index 0).toNat ∧
      index + 1 < station.bytFrameTypesForBWLength ∧ station.intACKctr ≥ 2 then
    station.shiftUp
  else
    station

/-- `GetNextFrameData` with `blnInitialize`. -/
def initializeFrameData (settings : Settings) (station : Station) : Station :=
  let modes := getDataModes settings station.intSessionBW
  let pointer := if settings.fastStart then modes.2 / 2 else 0
  { station with
    bytFrameTypesForBW := modes.1
    bytFrameTypesForBWLength := modes.2
    bytShiftUpThresholds := getShiftUpThresholds settings station.intSessionBW
    intFrameTypePtr := pointer
    bytCurrentFrameType := modes.1.getD pointer 0
    intShiftUpDn := 0 }.touch pointer

/-- Another mode becomes the current one. -/
def moveTo (pointer : Nat) (station : Station) : Station :=
  { station with
    intFrameTypePtr := pointer
    bytCurrentFrameType := station.mode pointer }.touch pointer

/-- The shift to another mode in `GetNextFrameData`. -/
def shiftMode (station : Station) : Station :=
  let moved := station.intFrameTypePtr + station.intShiftUpDn
  if station.intShiftUpDn < 0 then
    if station.intFrameTypePtr > 0 then
      { station.moveTo moved.toNat with intShiftUpDn := 0 }
    else
      { station with intShiftUpDn := 0 }
  else if station.intShiftUpDn > 0 then
    if station.intFrameTypePtr < station.bytFrameTypesForBWLength then
      { station.moveTo (min station.bytFrameTypesForBWLength moved.toNat) with
        intShiftUpDn := 0 }
    else
      { station with intShiftUpDn := 0 }
  else
    station

/-- The choice between the two types of a mode in `GetNextFrameData`. -/
def toggleFrameType (station : Station) : Station :=
  let bytFrameType :=
    if station.bytCurrentFrameType &&& 1 = station.bytLastARQDataFrameAcked &&& 1 then
      station.bytCurrentFrameType ^^^ 1
    else
      station.bytCurrentFrameType
  { station with
    bytCurrentFrameType := bytFrameType
    bytLastARQDataFrameSent := bytFrameType }

/-- `GetNextFrameData` without `blnInitialize`, with the length that it
returns. -/
def getNextFrameData (settings : Settings) (station : Station) : Nat × Station :=
  let station := station.shiftMode.toggleFrameType
  match frameInfo settings.packet station.bytCurrentFrameType with
  | some info =>
      (min (info.intDataLen * info.intNumCar) station.bytDataToSend.length, station)
  | none =>
      (0, { station with journal := { station.journal with undefined := true } })

end Station

end Ardop
end Hamchat
