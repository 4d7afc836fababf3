import Hamchat.Ardop.FrameCheck
import Hamchat.Ardop.Independence

/-!
# Data frames

`FrameInfo`, `EncodePSKData` and `EncodeFSKData` of `src/ext/ardop1/ARDOPC.c`,
and `CorrectRawDataWithRS` and the calls of it in `DecodeFrame`, `DemodPSK` and
`DemodQAM` of `SoundInput.c`.  A frame spreads its data over carriers, each with a
count, a checksum and check bytes of its own.  The receiver keeps the carriers
that it has decoded while a frame is repeated, and tries the others again with
the average of their samples.  What lies between the two, the modulation and the
demodulation, gives the receiver some bytes for each carrier.
-/

namespace Hamchat
namespace Ardop

/-! ## Frame types -/

/-- The values of `strMod`. -/
inductive Modulation where
  | fsk4
  | psk4
  | psk8
  | qam16
  deriving DecidableEq

/-- What `FrameInfo` returns through its pointers, the name apart. -/
structure FrameParameters where
  blnOdd : Bool
  intNumCar : Nat
  strMod : Modulation
  intBaud : Nat
  intDataLen : Nat
  intRSLen : Nat
  bytQualThres : Nat

/-- The variables that describe the packet frame of variable length. -/
structure PacketSettings where
  pktNumCar : Nat
  pktMod : Modulation
  pktDataLen : Nat
  pktRSLen : Nat

/-- A case of the switch in `FrameInfo`, with the frame types that share it. -/
structure FrameCase where
  types : List UInt8
  intNumCar : Nat
  strMod : Modulation
  intBaud : Nat
  intDataLen : Nat
  intRSLen : Nat
  bytQualThres : Nat

/-- The cases of the switch, the two of the packets apart. -/
def frameCases : List FrameCase :=
  [ ⟨[0x23, 0x24, 0x29], 1, .fsk4, 50, 0, 0, 60⟩,
    ⟨[0x2C, 0x2D, 0x2E], 1, .fsk4, 50, 0, 0, 60⟩,
    ⟨[0x30, 0x31, 0x32, 0x33, 0x34, 0x35, 0x36, 0x37, 0x38, 0x3E],
      1, .fsk4, 50, 12, 4, 50⟩,
    ⟨[0x39, 0x3A, 0x3B, 0x3C, 0x3D], 1, .fsk4, 50, 3, 0, 50⟩,
    ⟨[0x40, 0x41], 1, .psk4, 100, 64, 32, 30⟩,
    ⟨[0x42, 0x43], 1, .psk4, 100, 16, 8, 30⟩,
    ⟨[0x44, 0x45], 1, .psk8, 100, 108, 36, 30⟩,
    ⟨[0x46, 0x47], 1, .qam16, 100, 128, 64, 30⟩,
    ⟨[0x48, 0x49], 1, .fsk4, 50, 16, 4, 30⟩,
    ⟨[0x4A, 0x4B], 1, .fsk4, 100, 64, 16, 30⟩,
    ⟨[0x4C, 0x4D], 1, .fsk4, 100, 32, 8, 30⟩,
    ⟨[0x50, 0x51], 2, .psk4, 100, 64, 32, 50⟩,
    ⟨[0x52, 0x53], 2, .psk8, 100, 108, 36, 50⟩,
    ⟨[0x54, 0x55], 2, .qam16, 100, 128, 64, 50⟩,
    ⟨[0x60, 0x61], 4, .psk4, 100, 64, 32, 50⟩,
    ⟨[0x62, 0x63], 4, .psk8, 100, 108, 36, 50⟩,
    ⟨[0x64, 0x65], 4, .qam16, 100, 128, 64, 50⟩,
    ⟨[0x70, 0x71], 8, .psk4, 100, 64, 32, 50⟩,
    ⟨[0x72, 0x73], 8, .psk8, 100, 108, 36, 50⟩,
    ⟨[0x74, 0x75], 8, .qam16, 100, 128, 64, 50⟩,
    ⟨[0x7A, 0x7B], 1, .fsk4, 600, 600, 150, 30⟩,
    ⟨[0x7C, 0x7D], 1, .fsk4, 600, 200, 50, 30⟩ ]

/-- `PktFrameHeader` -/
def pktFrameHeader : UInt8 := 0xC0

/-- `PktFrameData` -/
def pktFrameData : UInt8 := 0xC1

/-- What a case assigns. -/
def FrameCase.parameters (frame : FrameCase) (bytFrameType : UInt8) :
    FrameParameters where
  blnOdd := 1 &&& bytFrameType ≠ 0
  intNumCar := frame.intNumCar
  strMod := frame.strMod
  intBaud := frame.intBaud
  intDataLen := frame.intDataLen
  intRSLen := frame.intRSLen
  bytQualThres := frame.bytQualThres

/-- `FrameInfo`, or nothing where it returns `FALSE`. -/
def frameInfo (packet : PacketSettings) (bytFrameType : UInt8) :
    Option FrameParameters :=
  if bytFrameType ≤ 0x1F ∨ 0xE0 ≤ bytFrameType then
    some ⟨1 &&& bytFrameType ≠ 0, 1, .fsk4, 50, 0, 0, 40⟩
  else if bytFrameType = pktFrameHeader then
    some ⟨false, 1, .fsk4, 100, 2, 2, 50⟩
  else if bytFrameType = pktFrameData then
    some ⟨true, packet.pktNumCar, packet.pktMod, 100, packet.pktDataLen,
      packet.pktRSLen, 50⟩
  else
    (frameCases.find? fun frame => bytFrameType ∈ frame.types).map fun frame =>
      frame.parameters bytFrameType

/-! ## Encoding -/

/-- The loop over the carriers, or over the three blocks of a long frame.  The
comparison `wontFit` decides whether the rest of the data fills the carrier.
Behind the data of a carrier that it does not fill stands what the buffer held
before. -/
def encodeCarriers (wontFit : Nat → Nat → Bool) (bytFrameType : UInt8)
    (intDataLen intRSLen : Nat) :
    (carriers : Nat) → (coder : Coder) → (data bytToRS : List UInt8) →
      List (List UInt8) × Coder
  | 0, coder, _, _ => ([], coder)
  | carriers + 1, coder, data, bytToRS =>
      let count := if wontFit data.length intDataLen then intDataLen else data.length
      let counted := UInt8.ofNat count :: tabulate intDataLen fun i =>
        if i < count then data.getD i 0 else bytToRS.getD (i + 1) 0
      let checked := genCRC16FrameType counted bytFrameType
      let block := checked ++ (rsEncode coder checked intRSLen).1
      let rest := encodeCarriers wontFit bytFrameType intDataLen intRSLen carriers
        (rsEncode coder checked intRSLen).2 (data.drop count)
        (bytToRS.drop block.length)
      (block :: rest.1, rest.2)

/-- What an encoder writes to `bytEncodedBytes`. -/
structure EncodedFrame where
  header : List UInt8
  blocks : List (List UInt8)

/-- `EncodePSKData`, or nothing where it returns zero. -/
def encodePSKData (packet : PacketSettings) (coder : Coder)
    (bytSessionID bytFrameType : UInt8) (bytDataToSend bytEncodedBytes : List UInt8) :
    Option EncodedFrame × Coder :=
  match frameInfo packet bytFrameType with
  | none => (none, coder)
  | some info =>
      if info.intDataLen = 0 ∨ bytDataToSend.length = 0 then
        (none, coder)
      else
        let blocks := encodeCarriers (fun count dataLen => count > dataLen)
          bytFrameType info.intDataLen info.intRSLen info.intNumCar coder
          bytDataToSend (bytEncodedBytes.drop 2)
        (some ⟨[bytFrameType, bytFrameType ^^^ bytSessionID], blocks.1⟩, blocks.2)

/-- `EncodeFSKData`, which splits a long frame in three. -/
def encodeFSKData (packet : PacketSettings) (coder : Coder)
    (bytSessionID bytFrameType : UInt8) (bytDataToSend bytEncodedBytes : List UInt8) :
    Option EncodedFrame × Coder :=
  match frameInfo packet bytFrameType with
  | none => (none, coder)
  | some info =>
      if info.intDataLen = 0 ∨ bytDataToSend.length = 0 then
        (none, coder)
      else
        let wontFit := fun count dataLen : Nat => decide (count ≥ dataLen)
        let blocks :=
          if info.intBaud < 600 ∨ info.intDataLen < 600 then
            encodeCarriers wontFit bytFrameType info.intDataLen info.intRSLen
              info.intNumCar coder bytDataToSend (bytEncodedBytes.drop 2)
          else
            encodeCarriers wontFit bytFrameType (info.intDataLen / 3)
              (info.intRSLen / 3) 3 coder bytDataToSend (bytEncodedBytes.drop 2)
        (some ⟨[bytFrameType, bytFrameType ^^^ bytSessionID], blocks.1⟩, blocks.2)

/-- The encoder that `SendData` calls for a modulation. -/
def encodeDataFrame (packet : PacketSettings) (info : FrameParameters) (coder : Coder)
    (bytSessionID bytFrameType : UInt8) (bytDataToSend bytEncodedBytes : List UInt8) :
    Option EncodedFrame × Coder :=
  if info.strMod = .fsk4 then
    encodeFSKData packet coder bytSessionID bytFrameType bytDataToSend bytEncodedBytes
  else
    encodePSKData packet coder bytSessionID bytFrameType bytDataToSend bytEncodedBytes

/-! ## Decoding -/

/-- An entry of `CarrierOk` and `intSumCounts` with the array of the received
bytes. -/
structure Carrier where
  carrierOk : Bool
  bytRawData : List UInt8
  /-- How often the samples have been saved. -/
  intSumCount : Nat

/-- What `CorrectRawDataWithRS` moves to its caller and leaves behind. -/
structure Corrected where
  /-- The bytes it moves, as many as it returns. -/
  data : List UInt8
  carrier : Carrier
  coder : Coder
  totalRSErrors : Nat

/-- `memcpy(bytCorrectedData, &bytRawData[1], count)` -/
def payload (bytRawData : List UInt8) (count : Nat) : List UInt8 :=
  tabulate count fun i => bytRawData.getD (i + 1) 0

/-- `CorrectRawDataWithRS` -/
def correctRawDataWithRS (coder : Coder) (totalRSErrors : Nat) (carrier : Carrier)
    (intDataLen intRSLen : Nat) (bytFrameType : UInt8) : Corrected :=
  let raw := carrier.bytRawData
  if carrier.carrierOk then
    ⟨payload raw (raw.getD 0 0).toNat, carrier, coder, totalRSErrors⟩
  else if checkCRC16FrameType raw (intDataLen + 1) bytFrameType then
    ⟨payload raw (raw.getD 0 0).toNat, { carrier with carrierOk := true }, coder,
      totalRSErrors⟩
  else
    let length := intDataLen + 3 + intRSLen
    let result := rsDecode coder (raw.take length) intRSLen
    let raw := result.bytRcv ++ raw.drop length
    if result.frameOK ∧ checkCRC16FrameType raw (intDataLen + 1) bytFrameType then
      ⟨payload raw (raw.getD 0 0).toNat,
        { carrier with carrierOk := true, bytRawData := raw }, result.coder,
        totalRSErrors + result.coder.NErrors⟩
    else
      ⟨payload raw intDataLen, { carrier with carrierOk := false, bytRawData := raw },
        result.coder, totalRSErrors⟩

/-- The received bytes go to the arrays of the carriers that are not decoded
yet. -/
def demodulate (carrier : Carrier) (received : List UInt8) : Carrier :=
  if carrier.carrierOk then carrier
  else { carrier with bytRawData := overwrite carrier.bytRawData received }

/-- What some calls of `CorrectRawDataWithRS` move and leave behind. -/
structure CorrectedCarriers where
  /-- The bytes that are moved for each carrier. -/
  pieces : List (List UInt8)
  carriers : List Carrier
  coder : Coder
  totalRSErrors : Nat

/-- The calls of `CorrectRawDataWithRS` for one carrier after the other. -/
def correctCarriers (intDataLen intRSLen : Nat) (bytFrameType : UInt8) :
    (coder : Coder) → (totalRSErrors : Nat) → List Carrier → CorrectedCarriers
  | coder, totalRSErrors, [] => ⟨[], [], coder, totalRSErrors⟩
  | coder, totalRSErrors, carrier :: carriers =>
      let corrected := correctRawDataWithRS coder totalRSErrors carrier intDataLen
        intRSLen bytFrameType
      let rest := correctCarriers intDataLen intRSLen bytFrameType corrected.coder
        corrected.totalRSErrors carriers
      ⟨corrected.data :: rest.pieces, corrected.carrier :: rest.carriers, rest.coder,
        rest.totalRSErrors⟩

/-- The lengths with which `DecodeFrame` corrects the blocks of a frame. -/
def decodeLengths (bytFrameType : UInt8) (info : FrameParameters) : Nat × Nat :=
  if bytFrameType = 0x7A ∨ bytFrameType = 0x7B then (200, 50)
  else (info.intDataLen, info.intRSLen)

/-- What the samples of a frame give for its carriers. -/
structure Samples where
  /-- The bytes of each carrier. -/
  received : List (List UInt8)
  /-- What `Decode1CarQAM` finds in the average of these samples and those saved before. -/
  averaged : List (List UInt8)

/-- The variables that the receiver keeps between two frames. -/
structure Receiver where
  lastDataFrameType : UInt8
  carriers : List Carrier
  coder : Coder
  bytData : List UInt8

/-- `memset(CarrierOk, 0, sizeof(CarrierOk))` and the same for `intSumCounts`. -/
def clearCarriers (carriers : List Carrier) : List Carrier :=
  carriers.map fun carrier => { carrier with carrierOk := false, intSumCount := 0 }

/-- The flags are kept while one type of frame is repeated. -/
def Receiver.startFrame (receiver : Receiver) (bytFrameType : UInt8) : Receiver :=
  if bytFrameType = pktFrameHeader ∨ bytFrameType = pktFrameData ∨
      receiver.lastDataFrameType ≠ bytFrameType then
    { receiver with
      carriers := clearCarriers receiver.carriers
      lastDataFrameType := bytFrameType }
  else
    receiver

/-- The variables while a frame is decoded: `bytData` and how much of it is filled, all
carriers and the coder. -/
structure Demodulation where
  bytData : List UInt8
  frameLen : Nat
  carriers : List Carrier
  coder : Coder
  totalRSErrors : Nat

/-- The bytes of each carrier of the frame are corrected and moved behind one another. -/
def Receiver.correctFrame (receiver : Receiver) (bytFrameType : UInt8)
    (intDataLen intRSLen : Nat) (received : List (List UInt8)) : Demodulation :=
  let used := List.zipWith demodulate receiver.carriers received
  let corrected := correctCarriers intDataLen intRSLen bytFrameType receiver.coder 0 used
  { bytData := overwrite receiver.bytData corrected.pieces.flatten
    frameLen := corrected.pieces.flatten.length
    carriers := corrected.carriers ++ receiver.carriers.drop received.length
    coder := corrected.coder
    totalRSErrors := corrected.totalRSErrors }

/-! ## Memory ARQ -/

/-- `SavePSKSamples` or `SaveQAMSamples` for a carrier that is not decoded.  From the
second time on the bytes are found again in the averaged samples. -/
def saveSamples (carrier : Carrier) (averaged : List UInt8) : Carrier :=
  if carrier.carrierOk then
    carrier
  else if carrier.intSumCount + 1 > 1 then
    { carrier with
      intSumCount := carrier.intSumCount + 1
      bytRawData := overwrite carrier.bytRawData averaged }
  else
    { carrier with intSumCount := carrier.intSumCount + 1 }

/-- The samples of the first carriers are saved. -/
def saveCarriers (count : Nat) (averaged : List (List UInt8)) (carriers : List Carrier) :
    List Carrier :=
  carriers.mapIdx fun place carrier =>
    if place < count then saveSamples carrier (averaged.getD place []) else carrier

/-- The end of `DemodPSK`: if a carrier has been tried again, all carriers of the frame
are corrected again.  The bytes of each one are moved to the start of `bytData`. -/
def retryPSK (bytFrameType : UInt8) (intDataLen intRSLen intNumCar : Nat)
    (averaged : List (List UInt8)) (demodulation : Demodulation) : Demodulation :=
  let saved := saveCarriers intNumCar averaged demodulation.carriers
  if (saved.take intNumCar).any fun carrier =>
      !carrier.carrierOk && carrier.intSumCount > 1 then
    let again := correctCarriers intDataLen intRSLen bytFrameType demodulation.coder
      demodulation.totalRSErrors (saved.take intNumCar)
    { bytData := again.pieces.foldl overwrite demodulation.bytData
      frameLen := again.pieces.flatten.length
      carriers := again.carriers ++ saved.drop intNumCar
      coder := again.coder
      totalRSErrors := again.totalRSErrors }
  else
    { demodulation with carriers := saved }

/-- The end of `DemodQAM`, which tries the first two carriers again and then counts only
them in `frameLen`.  A frame of one carrier has no second one that is decoded. -/
def retryQAM (bytFrameType : UInt8) (intDataLen intRSLen intNumCar : Nat)
    (averaged : List (List UInt8)) (demodulation : Demodulation) : Demodulation :=
  if ((demodulation.carriers.take 2).any fun carrier => !carrier.carrierOk) ∧
      bytFrameType ≠ pktFrameHeader then
    let saved := saveCarriers 2 averaged demodulation.carriers
    if (saved.take 2).any fun carrier => carrier.intSumCount > 1 then
      let again := correctCarriers intDataLen intRSLen bytFrameType demodulation.coder
        demodulation.totalRSErrors (saved.take (min 2 intNumCar))
      { bytData := overwrite demodulation.bytData again.pieces.flatten
        frameLen := again.pieces.flatten.length
        carriers := again.carriers ++ saved.drop (min 2 intNumCar)
        coder := again.coder
        totalRSErrors := again.totalRSErrors }
    else
      { demodulation with carriers := saved }
  else
    demodulation

/-- The demodulator of a modulation, after it has corrected the carriers.  That of the
4FSK frames does nothing more. -/
def retryFrame (strMod : Modulation) (bytFrameType : UInt8)
    (intDataLen intRSLen intNumCar : Nat) (averaged : List (List UInt8))
    (demodulation : Demodulation) : Demodulation :=
  match strMod with
  | .fsk4 => demodulation
  | .psk4 | .psk8 =>
      retryPSK bytFrameType intDataLen intRSLen intNumCar averaged demodulation
  | .qam16 =>
      retryQAM bytFrameType intDataLen intRSLen intNumCar averaged demodulation

/-- A data frame is received: what its samples give for its blocks, and what becomes of
that.  The frame is decoded if all its carriers are. -/
def Receiver.receiveFrame (receiver : Receiver) (strMod : Modulation)
    (bytFrameType : UInt8) (intDataLen intRSLen : Nat) (samples : Samples) :
    Receiver × List UInt8 × Bool :=
  let receiver := receiver.startFrame bytFrameType
  let intNumCar := samples.received.length
  let demodulation := retryFrame strMod bytFrameType intDataLen intRSLen intNumCar
    samples.averaged
    (receiver.correctFrame bytFrameType intDataLen intRSLen samples.received)
  ({ receiver with
      carriers := demodulation.carriers
      coder := demodulation.coder
      bytData := demodulation.bytData },
    demodulation.bytData.take demodulation.frameLen,
    (demodulation.carriers.take intNumCar).all Carrier.carrierOk)

end Ardop
end Hamchat
