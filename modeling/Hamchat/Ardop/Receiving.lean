import Hamchat.Ardop.Sending

/-!
# What a station does at a frame

`ProcessRcvdARQFrame`, state by state, and what `ProcessNewSamples` does before
it are what a party may do that hears the signal of the frame.
-/

namespace Hamchat
namespace Ardop

open Foundation (Party Role Signal)

/-! ## Frames that are played -/

/-- A short control frame is no data frame. -/
theorem isDataFrame_of_short {bytFrameType : UInt8}
    (short : isShortControlFrame bytFrameType = true) :
    isDataFrame bytFrameType = false := by
  obtain ⟨long, -⟩ := kinds_exclude bytFrameType
  apply eq_false_of_ne_true
  intro data
  rw [(long data).1] at short
  cases short

/-- A ConAck is no data frame. -/
theorem isDataFrame_of_connect {bytFrameType : UInt8}
    (connect : isConAck bytFrameType = true) : isDataFrame bytFrameType = false := by
  obtain ⟨long, -⟩ := kinds_exclude bytFrameType
  apply eq_false_of_ne_true
  intro data
  rw [(long data).2.2] at connect
  cases connect

/-- The frame of an ACK. -/
theorem dataACK_spec (quality : Nat) :
    0xE0 ≤ dataACK quality ∧ isDataFrame (dataACK quality) = false := by
  have small : min quality 100 / 2 - 19 < 32 := by omega
  have number : (dataACK quality).toNat = 224 + (min quality 100 / 2 - 19) := by
    rw [dataACK]
    generalize min quality 100 / 2 - 19 = level at small
    rw [UInt8.toNat_add, UInt8.toNat_ofNat']
    change (224 + level % 256) % 256 = 224 + level
    omega
  have ack : 0xE0 ≤ dataACK quality := by
    rw [UInt8.le_iff_toNat_le, number]
    exact Nat.le_add_right _ _
  exact ⟨ack, isDataFrame_of_short (by simp [isShortControlFrame, ack])⟩

/-- The frame of a NAK. -/
theorem dataNAK_spec (quality : Fin 101) :
    dataNAK quality ≤ 0x1F ∧ isDataFrame (dataNAK quality) = false := by
  have small := quality.isLt
  have number : (dataNAK quality).toNat = (quality : Nat) / 2 - 19 := by
    rw [dataNAK, UInt8.toNat_ofNat']
    change ((quality : Nat) / 2 - 19) % 256 = (quality : Nat) / 2 - 19
    omega
  have nak : dataNAK quality ≤ 0x1F := by
    rw [UInt8.le_iff_toNat_le, number]
    change (quality : Nat) / 2 - 19 ≤ 31
    omega
  exact ⟨nak, isDataFrame_of_short (by simp [isShortControlFrame, nak])⟩

/-- The answer to a connect request names the bandwidth of the session. -/
theorem irsNegotiateBW_spec {arqBandwidth : ArqBandwidth} {bytFrameType reply : UInt8}
    {intBW : Nat}
    (agreed : irsNegotiateBW arqBandwidth bytFrameType = some (intBW, reply)) :
    isConAck reply = true ∧ conAckBandwidth reply = intBW := by
  have answers : ∀ answer ∈ irsNegotiateBW arqBandwidth bytFrameType,
      isConAck answer.2 = true ∧ conAckBandwidth answer.2 = answer.1 := by
    unfold irsNegotiateBW
    cases arqBandwidth
    all_goals
      dsimp only
      repeat' split
      all_goals rintro _ ⟨⟩ <;> exact ⟨rfl, rfl⟩
  exact answers _ agreed

/-- The bandwidth of a session. -/
theorem conAckBandwidth_known (bytFrameType : UInt8) :
    conAckBandwidth bytFrameType = 200 ∨ conAckBandwidth bytFrameType = 500 ∨
      conAckBandwidth bytFrameType = 1000 ∨ conAckBandwidth bytFrameType = 2000 := by
  unfold conAckBandwidth
  split
  · exact .inl rfl
  split
  · exact .inr (.inl rfl)
  split
  · exact .inr (.inr (.inl rfl))
  · exact .inr (.inr (.inr rfl))

namespace Station

variable {station next base : Station} {heard : Option (Signal UInt8 Nat UInt8)}

/-- A station plays a frame without data. -/
theorem Steps.plays {bytFrameType : UInt8} {signal : Signal UInt8 Nat UInt8}
    (sound : next.Sound) (played : next.played = some { bytFrameType })
    (means : ({ bytFrameType } : AirFrame).signal = signal)
    (control : isDataFrame bytFrameType = false)
    (acts : Party.Acts oddType station.party heard next.party (some signal)) :
    Steps station heard next where
  sound := sound
  acts := by
    rw [played, Option.map_some, means]
    exact acts
  fits frame same := by
    obtain rfl := Option.some.inj (played.symm.trans same)
    exact fits_of_control control rfl

/-! ## State DISC -/

/-- A connect request is accepted. -/
theorem Steps.accepts (waits : station.role = .off ∨ station.role = .answering)
    (frame : AirFrame) {reply : UInt8} (isReply : isConAck reply = true)
    (state : base.protocolState = .irs) (quiet : base.blnEnbARQRpt = false)
    (unanswered : base.bytLastACKedDataFrameType = 0) (balanced : base.Balanced)
    (estate : base.estate = station.estate)
    (stopping : base.blnDISCRepeating = station.blnDISCRepeating) :
    Steps station (some .call) (base.acceptConReq frame reply) := by
  simp only [Station.estate, Prod.mk.injEq] at estate
  obtain ⟨acked, -, -, removed, passed⟩ := estate
  have substate : (base.acceptConReq frame reply).arqState = .irsConAck := rfl
  have same : (base.acceptConReq frame reply).party =
      { station.party with
        role := .answering
        seen := none
        answered := none
        width := base.intSessionBW
        offer := none } := by
    have role : (base.acceptConReq frame reply).role = .answering :=
      role_answering state substate
    have none : (base.acceptConReq frame reply).answered = none := if_pos unanswered
    simp only [party, role, none]
    simp only [acceptConReq, play, encode, playEncoded, withdraw, clearDataToSend, acked,
      removed, passed, stopping]
  refine .plays ⟨balanced.clearDataToSend.withdraw, ?_⟩ rfl
    (AirFrame.signal_connect isReply) (isDataFrame_of_connect isReply) ?_
  · exact .answering state substate rfl quiet unanswered
  · rw [same]
    exact .answers _ _ waits

/-- `ProcessRcvdARQFrame` in state DISC. -/
theorem Sound.processDISC (sound : station.Sound) (silent : station.played = none)
    (state : station.protocolState = .disc) (settings : Settings) (frame : AirFrame)
    (reception : Reception) :
    Steps station (some frame.signal) (station.processDISC settings frame reception) := by
  have role := role_off state
  rw [Station.processDISC]
  split
  · exact .ends state sound.balanced rfl (.inr (.inl rfl))
  split
  · exact .ignores sound rfl silent
  next call =>
    have call : isConReq frame.bytFrameType = true := by
      simpa using (not_or.mp call).2
    rw [AirFrame.signal_call call]
    dsimp only
    split
    · exact .ignores ⟨sound.balanced, .off state⟩ rfl silent
    split
    · split
      · refine .plays ⟨sound.balanced, .off state⟩ rfl rfl rfl ?_
        exact .refuses (.inl role)
      · split
        · next intBW reply agreed =>
            obtain ⟨isReply, -⟩ := irsNegotiateBW_spec agreed
            have other : station.protocolState ≠ .irs := by rw [state]; decide
            rw [setARDOPProtocolState_irs]
            · apply Steps.quiet
              exact .accepts (.inl role) frame isReply rfl rfl rfl sound.balanced rfl rfl
            · exact other
        · refine .plays ⟨sound.balanced, .off state⟩ rfl rfl rfl ?_
          exact .refuses (.inl role)
    · exact .ignores ⟨sound.balanced, .off state⟩ rfl silent

/-! ## State IRS -/

/-- The ConAck of the other station is acknowledged. -/
theorem Steps.joins (settings : Settings) {width quality : Nat}
    (waits : station.role = .answering) (state : base.protocolState = .irs)
    (substate : base.arqState = .irsData) (free : base.journal.offered = none)
    (quiet : base.blnEnbARQRpt = false) (unanswered : base.bytLastACKedDataFrameType = 0)
    (balanced : base.Balanced)
    (known : base.intSessionBW = 200 ∨ base.intSessionBW = 500 ∨
      base.intSessionBW = 1000 ∨ base.intSessionBW = 2000)
    (same : base.party =
      { station.party with
        role := .following
        seen := none
        answered := none
        width := width })
    (played : base.played = some { bytFrameType := dataACK quality }) :
    Steps station (some (.connect width)) (base.initializeFrameData settings) := by
  obtain ⟨ack, control⟩ := dataACK_spec quality
  obtain ⟨_, _, _, _, _, next, geared⟩ := initializeFrameData_geared settings known
  have acts : Party.Acts oddType station.party (some (.connect width)) base.party
      (some .ack) := by
    rw [same]
    exact .joins width waits
  rw [next] at geared ⊢
  refine .plays ⟨balanced, ?_⟩ played (AirFrame.signal_ack ack) control acts
  exact .following state (.inl substate) free quiet geared (.inl unanswered)

/-- `ProcessRcvdARQFrame` in state IRS and substate IRSConAck. -/
theorem Sound.processIRSConAck (sound : station.Sound) (silent : station.played = none)
    (state : station.protocolState = .irs) (substate : station.arqState = .irsConAck)
    (free : station.journal.offered = none) (quiet : station.blnEnbARQRpt = false)
    (unanswered : station.bytLastACKedDataFrameType = 0) (settings : Settings)
    (frame : AirFrame) (reception : Reception) :
    Steps station (some frame.signal)
      (station.processIRSConAck settings frame reception) := by
  have role := role_answering state substate
  rw [Station.processIRSConAck]
  dsimp only
  split
  · exact .ignores sound rfl silent
  split
  · next call =>
      rw [AirFrame.signal_call call]
      split
      · exact .ignores sound rfl silent
      split
      · split
        · next intBW reply agreed =>
            obtain ⟨isReply, -⟩ := irsNegotiateBW_spec agreed
            have same : { station with intSessionBW := intBW }.setARDOPProtocolState .irs =
                { station with intSessionBW := intBW } := if_pos state
            rw [same]
            exact .accepts (.inr role) frame isReply state quiet rfl sound.balanced rfl rfl
        · refine .plays ⟨sound.balanced, ?_⟩ rfl rfl rfl (.refuses (.inr role))
          exact .answering state substate free quiet unanswered
      · exact .ignores sound rfl silent
  split
  · next connect =>
      rw [AirFrame.signal_connect connect]
      refine .joins settings role state rfl free rfl unanswered sound.balanced
        (conAckBandwidth_known _) ?_ rfl
      unfold party
      congr 1
      · exact role_following state (.inl rfl)
      · exact if_pos unanswered
  · exact .ignores sound rfl silent

/-- A session that ends for good. -/
theorem Steps.disconnects (balanced : station.Balanced) (silent : station.played = none) :
    Steps station heard station.disconnect ∧
      Steps station heard (station.disconnect.play endFrame) := by
  have state : (station.clearDataToSend.setARDOPProtocolState .disc).protocolState = .disc :=
    setARDOPProtocolState_protocolState _ _
  have cleared : (station.clearDataToSend.setARDOPProtocolState .disc).Balanced :=
    balanced.clearDataToSend.setARDOPProtocolState .disc
  have estate : (station.clearDataToSend.setARDOPProtocolState .disc).estate =
      station.estate :=
    setARDOPProtocolState_estate .disc station.clearDataToSend
  have played : (station.clearDataToSend.setARDOPProtocolState .disc).played = none :=
    (setARDOPProtocolState_played _ _).trans silent
  constructor
  · exact .ends state cleared estate (.inl played)
  · exact .ends state cleared estate (.inr (.inl rfl))

/-- A station asks for the lead. -/
theorem Steps.asks (state : station.protocolState = .irs)
    (free : station.journal.offered = none) (geared : station.Geared)
    (balanced : station.Balanced)
    (acts : Party.Acts oddType station.party heard
      { station.party with role := .turning, answered := none } (some .turn)) :
    Steps station heard station.becomeIRStoISS := by
  have other : station.protocolState ≠ .irsToISS := by rw [state]; decide
  rw [becomeIRStoISS, setARDOPProtocolState_irsToISS other]
  refine .plays ⟨balanced, ?_⟩ rfl rfl rfl acts
  exact .turning rfl free (geared.alike rfl) fun _ => ⟨rfl, fits_of_control rfl rfl⟩

/-- The type that has been answered is not another one. -/
theorem answered_ne {bytFrameType : UInt8}
    (other : bytFrameType ≠ station.bytLastACKedDataFrameType) :
    station.party.answered ≠ some bytFrameType := by
  rw [party, answered]
  split
  · exact Option.some_ne_none _ |>.symm
  · intro same
    exact other (Option.some.inj same).symm

theorem answered_of_data (data : isDataFrame station.bytLastACKedDataFrameType = true) :
    station.answered = some station.bytLastACKedDataFrameType := by
  apply if_neg
  intro none
  rw [none] at data
  exact absurd data (by decide)

theorem completeChange_eq (substate : station.arqState = .irsData ∨
    station.arqState = .irsFromISS) :
    station.completeChange = { station with arqState := .irsData } := by
  rw [completeChange]
  split
  · rfl
  · next other => rw [← substate.resolve_right other]

/-- IDLE in state IRS. -/
theorem Steps.processIdleFrame (settings : Settings) (sound : station.Sound)
    (state : station.protocolState = .irs)
    (substate : station.arqState = .irsData ∨ station.arqState = .irsFromISS)
    (free : station.journal.offered = none) (quiet : station.blnEnbARQRpt = false)
    (geared : station.Geared)
    (answered : station.bytLastACKedDataFrameType = 0 ∨
      isDataFrame station.bytLastACKedDataFrameType = true) :
    Steps station (some .idle) (station.processIdleFrame settings) := by
  have role := role_following state substate
  rw [Station.processIdleFrame]
  split
  · next asked => exact (Steps.stops sound (check_iff.mp asked)).2
  split
  · exact .asks state free geared sound.balanced (.turns role (.inr (.inr rfl)))
  · obtain ⟨ack, control⟩ := dataACK_spec 100
    refine .plays ⟨sound.balanced, ?_⟩ rfl (AirFrame.signal_ack ack) control ?_
    · exact .following state substate free quiet (geared.alike rfl) answered
    · exact .agrees role (.inl rfl)

/-- A data frame that is decoded in state IRS. -/
theorem Steps.processDataFrame (sound : station.Sound)
    (state : station.protocolState = .irs)
    (substate : station.arqState = .irsData ∨ station.arqState = .irsFromISS)
    (free : station.journal.offered = none) (geared : station.Geared) (frame : AirFrame)
    (data : isDataFrame frame.bytFrameType = true) (reception : Reception) :
    Steps station (some (.block frame.bytFrameType frame.bytData))
      (station.processDataFrame frame reception) := by
  have role := role_following state substate
  rw [Station.processDataFrame]
  split
  · next breaks =>
      refine .of_party (.asks state free (geared.alike rfl) sound.balanced ?_) rfl
      exact .interrupts frame.bytData role (answered_ne breaks.2.2)
  · obtain ⟨ack, control⟩ := dataACK_spec reception.quality
    have change : (station.passToHost frame).completeChange =
        { station.passToHost frame with arqState := .irsData } := by
      apply completeChange_eq
      rw [passToHost]
      split <;> exact substate
    rw [change, passToHost]
    split
    · next old =>
        refine .plays ⟨sound.balanced, ?_⟩ rfl (AirFrame.signal_ack ack) control ?_
        · exact .following state (.inl rfl) free rfl (geared.alike rfl) (.inr data)
        · have same : { ({ station with arqState := .irsData }.play
                (dataACK reception.quality)) with
                blnEnbARQRpt := false
                bytLastACKedDataFrameType := frame.bytFrameType }.party =
              { station.party with answered := some frame.bytFrameType } := by
            unfold party
            congr 1
            · refine Eq.trans ?_ role.symm
              exact role_following state (.inl rfl)
            · exact answered_of_data data
          rw [same]
          exact .discards frame.bytData role old
    · next new =>
        refine .plays ⟨sound.balanced, ?_⟩ rfl (AirFrame.signal_ack ack) control ?_
        · exact .following state (.inl rfl) free rfl (geared.alike rfl) (.inr data)
        · have same : { ({ station with
                intLastARQDataFrameToHost := some frame.bytFrameType
                journal :=
                  { station.journal with passed := station.journal.passed ++ frame.bytData }
                arqState := .irsData }.play (dataACK reception.quality)) with
                blnEnbARQRpt := false
                bytLastACKedDataFrameType := frame.bytFrameType }.party =
              { station.party with
                passed := station.party.passed ++ frame.bytData
                seen := some frame.bytFrameType
                answered := some frame.bytFrameType } := by
            unfold party
            congr 1
            · refine Eq.trans ?_ role.symm
              exact role_following state (.inl rfl)
            · exact answered_of_data data
          rw [same]
          exact .passesOn role new

/-- `ProcessRcvdARQFrame` in state IRS and substate IRSData or IRSfromISS. -/
theorem Sound.processIRSData (sound : station.Sound) (silent : station.played = none)
    (state : station.protocolState = .irs)
    (substate : station.arqState = .irsData ∨ station.arqState = .irsFromISS)
    (free : station.journal.offered = none) (quiet : station.blnEnbARQRpt = false)
    (geared : station.Geared)
    (answered : station.bytLastACKedDataFrameType = 0 ∨
      isDataFrame station.bytLastACKedDataFrameType = true) (settings : Settings)
    (frame : AirFrame) (reception : Reception)
    (short : isShortControlFrame frame.bytFrameType = true →
      reception.blnFrameDecodedOK = true) :
    Steps station (some frame.signal)
      (station.processIRSData settings frame reception) := by
  have role := role_following state substate
  rw [Station.processIRSData]
  split
  · next connect =>
      obtain ⟨ack, control⟩ := dataACK_spec reception.quality
      rw [AirFrame.signal_connect connect]
      refine .plays ⟨sound.balanced, ?_⟩ rfl (AirFrame.signal_ack ack) control ?_
      · exact .following state substate free quiet (geared.alike rfl) answered
      · exact .joinsAgain _ role
  split
  · exact (Steps.disconnects sound.balanced silent).2
  split
  · exact (Steps.disconnects sound.balanced silent).1
  split
  · next turn =>
      obtain ⟨ack, control⟩ := dataACK_spec 100
      rw [AirFrame.signal_turn turn.2]
      refine .plays ⟨sound.balanced, ?_⟩ rfl (AirFrame.signal_ack ack) control ?_
      · exact .following state substate free rfl (geared.alike rfl) answered
      · exact .agrees role (.inr rfl)
  split
  · next idle =>
      rw [AirFrame.signal_idle idle.2]
      have quieted : { station with blnEnbARQRpt := false }.Sound :=
        ⟨sound.balanced, sound.phase.alike rfl rfl rfl rfl fun _ => rfl⟩
      refine .of_party (.processIdleFrame settings quieted state substate free rfl ?_
        answered) rfl
      exact geared.alike rfl
  split
  · next data =>
      rw [AirFrame.signal_block data.2]
      exact .processDataFrame sound state substate free geared frame data.2 reception
  split
  · next failed =>
      -- The type that has been acknowledged is one of a data frame, for a frame of
      -- type zero is a short control frame, which is always decoded.
      have data : isDataFrame station.bytLastACKedDataFrameType = true := by
        apply answered.resolve_left
        intro none
        have decoded := short (by rw [failed.2, none]; rfl)
        rw [decoded] at failed
        exact absurd failed.1 (by decide)
      obtain ⟨ack, control⟩ := dataACK_spec reception.quality
      rw [AirFrame.signal_block (failed.2.symm ▸ data)]
      refine .plays ⟨sound.balanced, ?_⟩ rfl (AirFrame.signal_ack ack) control ?_
      · exact .following state substate free rfl (geared.alike rfl) answered
      · refine .acceptsAgain frame.bytData role ?_
        rw [failed.2]
        exact answered_of_data data
  split
  · next failed again =>
      obtain ⟨nak, control⟩ := dataNAK_spec reception.quality
      rw [AirFrame.signal_block again.2, completeChange_eq substate]
      have same : { ({ station with arqState := .irsData }.play
            (dataNAK reception.quality)) with blnEnbARQRpt := false }.party =
          station.party := by
        unfold party
        congr 1
        refine Eq.trans ?_ role.symm
        exact role_following state (.inl rfl)
      refine .plays ⟨sound.balanced, ?_⟩ rfl (AirFrame.signal_nak nak) control ?_
      · exact .following state (.inl rfl) free rfl (geared.alike rfl) answered
      · rw [same]
        exact .rejects frame.bytData role (answered_ne fun old => failed ⟨again.1, old⟩)
  · exact .ignores sound rfl silent

/-! ## State IDLE -/

/-- What a station sends that leads from now on. -/
theorem Sending.steps (sending : Sending base next)
    (acts : Party.Sends oddType base.party next.party (next.played.map AirFrame.signal) →
      Party.Acts oddType station.party heard next.party
        (next.played.map AirFrame.signal)) : Steps station heard next where
  sound := sending.sound
  acts := acts sending.sends
  fits := sending.fits

/-- A station gives the lead away. -/
theorem Steps.yields (leads : station.role = .leading ∨ station.role = .confirming)
    (other : base.protocolState ≠ .irs) (quiet : base.blnEnbARQRpt = false)
    (free : base.journal.offered = none) (geared : base.Geared)
    (balanced : base.Balanced)
    (stopping : base.blnDISCRepeating = station.blnDISCRepeating)
    (removed : base.journal.removed = station.journal.removed)
    (passed : base.journal.passed = station.journal.passed)
    (width : base.intSessionBW = station.intSessionBW) :
    Steps station (some .turn) base.becomeIRS := by
  obtain ⟨ack, control⟩ := dataACK_spec 100
  have started : (base.play (dataACK 100)).protocolState ≠ .irs := other
  have same : base.becomeIRS.party =
      { station.party with
        role := .following
        seen := none
        answered := none
        offer := none
        parity := oddType base.bytLastARQDataFrameAcked } := by
    rw [becomeIRS, setARDOPProtocolState_irs started]
    unfold party
    congr 1
  rw [becomeIRS, setARDOPProtocolState_irs started] at same ⊢
  refine .plays ⟨balanced, ?_⟩ rfl (AirFrame.signal_ack ack) control ?_
  · exact .following rfl (.inr rfl) free quiet (geared.alike rfl) (.inl rfl)
  · rw [same]
    exact .yields _ leads

/-- `ProcessRcvdARQFrame` in state IDLE. -/
theorem Sound.processIDLE (sound : station.Sound) (silent : station.played = none)
    (state : station.protocolState = .idle) (free : station.journal.offered = none)
    (geared : station.Geared) (settings : Settings) (frame : AirFrame)
    (reception : Reception) :
    Steps station (some frame.signal) (station.processIDLE settings frame reception) := by
  have role := role_idle state
  rw [Station.processIDLE]
  dsimp only
  split
  · exact .ignores sound rfl silent
  split
  · next ack =>
      have other : station.protocolState ≠ .iss := by rw [state]; decide
      rw [AirFrame.signal_ack ack.1, setARDOPProtocolState_iss other]
      have sending : Sending
          { station with
            protocolState := .iss
            blnEnbARQRpt := false
            arqState := .issData } _ :=
        .of_sendData settings rfl rfl (geared.alike rfl) sound.balanced free silent
      have same : { station with
          protocolState := .iss
          blnEnbARQRpt := false
          arqState := .issData }.party = station.party := by
        unfold party
        congr 1
        exact role.symm
      refine sending.steps fun sends => .wakes role free ?_
      rw [← same]
      exact sends
  split
  · next turn =>
      have other : station.protocolState ≠ .irs := by rw [state]; decide
      rw [AirFrame.signal_turn turn]
      exact .yields (.inl role) other rfl free (geared.alike rfl) sound.balanced rfl rfl rfl rfl
  have cleared := sound.balanced.clearDataToSend
  split
  · have balanced : ({ station with blnDISCRepeating := false }.play
        endFrame).clearDataToSend.Balanced := cleared
    refine .ends (setARDOPProtocolState_protocolState _ _)
      (balanced.setARDOPProtocolState .disc) (setARDOPProtocolState_estate .disc _) ?_
    exact .inr (.inl (setARDOPProtocolState_played .disc _))
  split
  · refine .ends (setARDOPProtocolState_protocolState _ _)
      (cleared.setARDOPProtocolState .disc) (setARDOPProtocolState_estate .disc _) ?_
    exact .inl ((setARDOPProtocolState_played .disc _).trans silent)
  · exact .ignores sound rfl silent

/-! ## State ISS -/

/-- `ProcessRcvdARQFrame` in state ISS and substate ISSConReq. -/
theorem Sound.processISSConReq (sound : station.Sound) (silent : station.played = none)
    (state : station.protocolState = .iss) (substate : station.arqState = .issConReq)
    (free : station.journal.offered = none) (settings : Settings) (frame : AirFrame)
    (reception : Reception) :
    Steps station (some frame.signal)
      (station.processISSConReq settings frame reception) := by
  have role := role_calling state substate
  rw [Station.processISSConReq]
  split
  · exact .ignores sound rfl silent
  split
  · next connect =>
      obtain ⟨_, _, _, _, _, same, geared⟩ := @initializeFrameData_geared
        { station with intSessionBW := conAckBandwidth frame.bytFrameType } settings
        (conAckBandwidth_known _)
      have signal : ({ bytFrameType := frame.bytFrameType } : AirFrame).signal =
          .connect (conAckBandwidth frame.bytFrameType) :=
        AirFrame.signal_connect connect
      have control := isDataFrame_of_connect connect
      rw [AirFrame.signal_connect connect]
      rw [same] at geared ⊢
      refine .plays ⟨sound.balanced, ?_⟩ rfl signal control ?_
      · refine .confirming state rfl free (geared.alike rfl) fun _ => ?_
        exact ⟨signal, fits_of_control control rfl⟩
      · have acts : Party.Acts oddType station.party
            (some (.connect (conAckBandwidth frame.bytFrameType)))
            { station.party with
              role := .confirming
              width := conAckBandwidth frame.bytFrameType }
            (some (.connect (conAckBandwidth frame.bytFrameType))) :=
          .isAnswered _ role
        convert acts using 1
        unfold party
        congr 1
        exact role_confirming state rfl
  split
  · have other : ¬(station.protocolState = .idle ∨ station.protocolState = .irs ∨
        station.protocolState = .irsToISS) := by
      rw [state]
      decide
    rw [Station.abort, if_neg other]
    exact .ignores ⟨sound.balanced, sound.phase.alike rfl rfl rfl rfl id⟩ rfl silent
  · exact .ignores sound rfl silent

/-- `ProcessRcvdARQFrame` in state ISS and substate ISSConAck. -/
theorem Sound.processISSConAck (sound : station.Sound) (silent : station.played = none)
    (state : station.protocolState = .iss) (substate : station.arqState = .issConAck)
    (free : station.journal.offered = none) (geared : station.Geared)
    (settings : Settings) (frame : AirFrame) (reception : Reception) :
    Steps station (some frame.signal)
      (station.processISSConAck settings frame reception) := by
  have role := role_confirming state substate
  rw [Station.processISSConAck]
  dsimp only
  split
  · next asked =>
      have asked : frame.signal = .ack ∨ frame.signal = .turn := by
        rcases asked with ack | turn
        · exact .inl (AirFrame.signal_ack ack.2)
        · exact .inr (AirFrame.signal_turn turn)
      split
      · next turn =>
          have other : station.protocolState ≠ .irs := by rw [state]; decide
          have cleared : station.clearDataToSend.Balanced := sound.balanced.clearDataToSend
          rw [AirFrame.signal_turn turn.1]
          exact .yields (.inr role) other rfl free (geared.alike rfl) cleared rfl rfl rfl rfl
      · have sending : Sending
            { station with
              intAvgQuality := 0
              blnEnbARQRpt := false
              blnARQConnected := true
              bytLastARQDataFrameAcked := 1
              blnPending := false
              arqState := .issData
              intNAKctr := 0 } _ :=
          .of_sendData settings state rfl (geared.alike rfl) sound.balanced free silent
        refine sending.steps fun sends => .starts role asked ?_
        convert sends using 1
        unfold party
        congr 1
        · symm
          exact role_leading state rfl
        · exact free.symm
        · exact oddType_one.symm
  split
  · refine .ends (setARDOPProtocolState_protocolState _ _)
      (sound.balanced.setARDOPProtocolState .disc) (setARDOPProtocolState_estate .disc _) ?_
    exact .inl ((setARDOPProtocolState_played .disc _).trans silent)
  · exact .ignores sound rfl silent

/-- What an acknowledgement changes. -/
theorem acknowledged_eq (balanced : station.Balanced) :
    ∃ acks queue len removed offered,
      station.acknowledged =
        { station with
          intACKctr := acks
          bytLastARQDataFrameAcked := station.bytLastARQDataFrameSent
          bytDataToSend := queue
          bytQDataInProcessLen := len
          journal :=
            { station.journal with removed := removed, offered := offered } } ∧
      station.acknowledged.Balanced := by
  rw [acknowledged]
  dsimp only
  split
  · next some =>
      have removed := balanced.removeDataFromQueue station.bytQDataInProcessLen
      rw [removeDataFromQueue, if_neg some] at removed ⊢
      exact ⟨_, _, _, _, _, rfl, removed⟩
  · exact ⟨_, _, _, _, _, rfl, balanced⟩

/-- The data frame that waits for its answer leaves the queue. -/
theorem Offering.acknowledged (offering : station.Offering) :
    station.acknowledged.journal.offered = none ∧
      station.acknowledged.journal.removed =
        station.journal.removed ++
          station.bytDataToSend.take station.bytQDataInProcessLen := by
  have some : station.bytQDataInProcessLen ≠ 0 := offering.some.ne'
  rw [Station.acknowledged]
  dsimp only
  rw [if_pos some, removeDataFromQueue, if_neg some]
  exact ⟨rfl, rfl⟩

/-- The average of the quality and the shift of the gear. -/
theorem Geared.rated (geared : station.Geared) (intReportedQuality : Nat) :
    Regeared station (station.computeQualityAvg intReportedQuality).gearshift9 ∧
      (station.computeQualityAvg intReportedQuality).gearshift9.Geared := by
  have averaged (average : Nat) :
      Regeared station { station with intAvgQuality := average }.gearshift9 ∧
        { station with intAvgQuality := average }.gearshift9.Geared := by
    have same : { station with intAvgQuality := average }.Geared := geared.alike rfl
    obtain ⟨⟨shift, other, acks, naks, worked, tried, next⟩, shifted⟩ := same.gearshift9
    exact ⟨⟨shift, other, acks, naks, worked, tried, next⟩, shifted⟩
  rw [computeQualityAvg]
  split <;> exact averaged _

/-- What an ACK leaves as it is. -/
theorem creditACK_keeps (geared : station.Geared) (balanced : station.Balanced)
    (intFrameType : UInt8) :
    (station.creditACK intFrameType).Geared ∧ (station.creditACK intFrameType).Balanced ∧
      (station.creditACK intFrameType).protocolState = station.protocolState ∧
      (station.creditACK intFrameType).arqState = station.arqState ∧
      (station.creditACK intFrameType).blnDISCRepeating = station.blnDISCRepeating ∧
      (station.creditACK intFrameType).played = station.played := by
  rw [creditACK]
  split
  · obtain ⟨_, _, _, _, _, same, kept⟩ := acknowledged_eq balanced
    have counted : station.acknowledged.Geared := by
      rw [same]
      exact geared.alike rfl
    obtain ⟨⟨_, _, _, _, _, _, rated⟩, shifted⟩ :=
      counted.rated (38 + 2 * (intFrameType.toNat - 0xE0))
    refine ⟨shifted, ?_⟩
    rw [rated]
    refine ⟨kept, ?_⟩
    rw [same]
    exact ⟨rfl, rfl, rfl, rfl⟩
  · exact ⟨geared, balanced, rfl, rfl, rfl, rfl⟩

/-- What an ACK says of the data frame that waits for it. -/
theorem Offering.creditACK (offering : station.Offering) (geared : station.Geared)
    (balanced : station.Balanced) (intFrameType : UInt8) :
    (station.creditACK intFrameType).journal.offered = none ∧
      (station.creditACK intFrameType).party =
        { station.party with
          confirmed := station.journal.removed ++
            station.bytDataToSend.take station.bytQDataInProcessLen
          parity := oddType station.bytLastARQDataFrameSent
          offer := none } := by
  obtain ⟨free, confirmed⟩ := offering.acknowledged
  obtain ⟨_, _, _, _, _, same, -⟩ := acknowledged_eq balanced
  have counted : station.acknowledged.Geared := by
    rw [same]
    exact geared.alike rfl
  obtain ⟨⟨_, _, _, _, _, _, rated⟩, -⟩ :=
    counted.rated (38 + 2 * (intFrameType.toNat - 0xE0))
  rw [Station.creditACK, if_pos offering.sentData, rated]
  rw [same] at free confirmed ⊢
  refine ⟨free, ?_⟩
  unfold party
  congr 1

/-- An ACK in state ISS and substate ISSData. -/
theorem Sound.processACK (sound : station.Sound) (silent : station.played = none)
    (state : station.protocolState = .iss) (substate : station.arqState = .issData)
    (geared : station.Geared)
    (offering : station.blnDISCRepeating = true ∨ station.Offering) (settings : Settings)
    (intFrameType : UInt8) :
    Steps station (some .ack) (station.processACK settings intFrameType) := by
  have role := role_leading state substate
  obtain ⟨shifted, balanced, sameState, sameSubstate, sameStopping, samePlayed⟩ :=
    creditACK_keeps geared sound.balanced intFrameType
  have leads := sameState.trans state
  have sends := sameSubstate.trans substate
  have mute := samePlayed.trans silent
  rw [Station.processACK]
  rcases offering with stopping | offering
  · have stopped := sameStopping.trans stopping
    rw [sendData, if_pos stopped]
    refine ⟨⟨balanced, .leading leads sends (shifted.alike rfl) (.inl stopped)⟩, ?_, ?_⟩
    · exact .isOpen _ _ role stopping
    · intro frame played
      rw [show _ = none from mute] at played
      cases played
  · obtain ⟨free, credited⟩ := offering.creditACK geared sound.balanced intFrameType
    have sending : Sending
        { station.creditACK intFrameType with intNAKctr := 0, blnEnbARQRpt := false } _ :=
      .of_sendData settings leads sends (shifted.alike rfl) balanced free mute
    refine sending.steps fun sends => .advances role offering.offered ?_
    convert sends using 1
    exact credited.symm

/-- `SendData` of a station that has asked to stop. -/
theorem sendData_stopping (settings : Settings)
    (stopping : station.blnDISCRepeating = true) :
    station.sendData settings = station :=
  if_pos stopping

/-- `SendData` where there is a next data frame. -/
theorem sendData_eq (settings : Settings) (state : station.protocolState = .iss)
    (awake : station.blnDISCRepeating = false)
    (unasked : station.blnARQDisconnect = false)
    (some : 0 < station.bytDataToSend.length) :
    station.sendData settings = station.sendDataFrame settings := by
  rw [sendData, if_neg (by simp [awake]), if_pos state, checkForDisconnect,
    if_neg (by simp [unasked])]
  exact if_pos some

/-- The next data frame is offered in place of the one that has been rejected. -/
theorem Steps.reoffers (settings : Settings) (role : station.role = .leading)
    (state : base.protocolState = .iss) (substate : base.arqState = .issData)
    (geared : base.Geared) (balanced : base.Balanced)
    (awake : base.blnDISCRepeating = false) (unasked : base.blnARQDisconnect = false)
    (filled : 0 < base.bytDataToSend.length) (offers : station.party.offer ≠ none)
    (same : base.party = station.party) :
    Steps station (some .nak) (base.sendData settings) := by
  obtain ⟨tag, items, frame, differs, offered, sound, played, block, fits⟩ :=
    sendDataFrame_spec settings state substate geared balanced filled
  rw [sendData_eq settings state awake unasked filled]
  refine ⟨sound, ?_, ?_⟩
  · rw [offered, played, Option.map_some, block, same]
    refine .reoffers items role ?_ offers ?_
    · exact (congrArg Party.stopping same).symm.trans awake
    · rw [← same]
      exact differs
  · rw [played]
    rintro _ ⟨⟩
    exact fits

/-- What a shift of the gear leaves as it is. -/
theorem Regeared.keeps (regeared : Regeared station next) :
    next.party = station.party ∧ next.standing = station.standing ∧
      next.outgoing = station.outgoing ∧ next.draft = station.draft ∧
      next.blnARQDisconnect = station.blnARQDisconnect ∧ next.played = station.played ∧
      (station.Balanced → next.Balanced) := by
  obtain ⟨_, _, _, _, _, _, rfl⟩ := regeared
  exact ⟨rfl, rfl, rfl, rfl, rfl, rfl, id⟩

/-- A NAK in state ISS and substate ISSData. -/
theorem Sound.processNAK (sound : station.Sound) (silent : station.played = none)
    (state : station.protocolState = .iss) (substate : station.arqState = .issData)
    (geared : station.Geared)
    (offering : station.blnDISCRepeating = true ∨ station.Offering)
    (unasked : station.blnARQDisconnect = false) (settings : Settings)
    (intFrameType : UInt8) :
    Steps station (some .nak) (station.processNAK settings intFrameType) := by
  have role := role_leading state substate
  have counted : { station with intNAKctr := station.intNAKctr + 1 }.Geared :=
    geared.alike rfl
  obtain ⟨rated, shifted⟩ := counted.rated (38 + 2 * intFrameType.toNat)
  obtain ⟨party, standing, outgoing, draft, disconnect, played, balanced⟩ := rated.keeps
  rw [Station.processNAK]
  split
  · dsimp only
    generalize ({ station with intNAKctr := station.intNAKctr + 1 }.computeQualityAvg
      (38 + 2 * intFrameType.toNat)).gearshift9 = base at *
    simp only [Station.standing, Prod.mk.injEq] at standing
    obtain ⟨sameState, sameSubstate, -⟩ := standing
    have leads := sameState.trans state
    have sends := sameSubstate.trans substate
    have kept := balanced sound.balanced
    have waits : base.blnDISCRepeating = true ∨ base.Offering := by
      simp only [Station.outgoing, Prod.mk.injEq] at outgoing
      refine offering.imp outgoing.1.trans fun offering => ?_
      have counted : { station with intNAKctr := station.intNAKctr + 1 }.Offering :=
        offering.alike rfl rfl
      exact counted.alike (by simpa [Station.outgoing] using outgoing) draft
    have stays : base.Sound := ⟨kept, .leading leads sends shifted waits⟩
    apply Steps.counted
    split
    · by_cases stopping : base.blnDISCRepeating = true
      · have stopped : { base with intNAKctr := 0 }.Phase :=
          stays.phase.alike rfl rfl rfl rfl id
        rw [sendData_stopping settings]
        · exact .ignores ⟨kept, stopped⟩ party (played.trans silent)
        · exact stopping
      · have offering := waits.resolve_left stopping
        have filled := offering.some.trans_le offering.within
        have offers : station.party.offer ≠ none := by
          have same : base.party = station.party := party
          rw [← same]
          exact ne_of_eq_of_ne offering.offered (Option.some_ne_none _)
        exact .reoffers settings role leads sends (shifted.alike rfl) kept
          (eq_false_of_ne_true stopping) (disconnect.trans unasked) filled offers party
    · exact .ignores stays party (played.trans silent)
  · exact .ignores sound rfl silent

theorem completeConnection_eq (station : Station) :
    ∃ connected pending, station.completeConnection =
      { station with blnARQConnected := connected, blnPending := pending } := by
  rw [completeConnection]
  split <;> exact ⟨_, _, rfl⟩

/-- `ProcessRcvdARQFrame` in state ISS and substate ISSData. -/
theorem Sound.processISSData (sound : station.Sound) (silent : station.played = none)
    (state : station.protocolState = .iss) (substate : station.arqState = .issData)
    (geared : station.Geared)
    (offering : station.blnDISCRepeating = true ∨ station.Offering) (settings : Settings)
    (frame : AirFrame) (reception : Reception) :
    Steps station (some frame.signal)
      (station.processISSData settings frame reception) := by
  have role := role_leading state substate
  have cleared := sound.balanced.clearDataToSend
  rw [Station.processISSData]
  dsimp only
  split
  · next asked => exact (Steps.stops sound (check_iff.mp asked)).2
  next unasked =>
  split
  · exact .ignores sound rfl silent
  split
  · next ack =>
      rw [AirFrame.signal_ack ack]
      exact sound.processACK silent state substate geared offering settings _
  split
  · next turn =>
      have other : station.protocolState ≠ .irs := by rw [state]; decide
      obtain ⟨_, _, same⟩ := station.completeConnection_eq
      rw [AirFrame.signal_turn turn, same]
      exact .yields (.inl role) other rfl rfl (geared.alike rfl) cleared.withdraw rfl rfl rfl rfl
  split
  · next nak =>
      rw [AirFrame.signal_nak nak]
      exact sound.processNAK silent state substate geared offering
        (eq_false_of_ne_true (mt check_iff.mpr unasked)) settings _
  split
  · exact (Steps.disconnects sound.balanced silent).2
  split
  · have balanced : { station.clearDataToSend with blnDISCRepeating := false }.Balanced :=
      cleared
    refine .ends (setARDOPProtocolState_protocolState _ _)
      (balanced.setARDOPProtocolState .disc) (setARDOPProtocolState_estate .disc _) ?_
    exact .inl ((setARDOPProtocolState_played .disc _).trans silent)
  · exact .ignores sound rfl silent

/-! ## Every state -/

/-- The BREAK of this station is acknowledged. -/
theorem Sound.becomeISS (sound : station.Sound) (silent : station.played = none)
    (state : station.protocolState = .irsToISS) (free : station.journal.offered = none)
    (geared : station.Geared) (settings : Settings) :
    Steps station (some .ack) (station.becomeISS settings) := by
  have role := role_turning state
  have other : station.protocolState ≠ .iss := by rw [state]; decide
  have known : station.bytCurrentFrameType ≠ 0 := by
    intro zero
    have current := geared.current
    rw [zero] at current
    exact absurd current (by decide)
  rw [Station.becomeISS]
  dsimp only
  rw [if_neg known, setARDOPProtocolState_iss]
  · have sending : Sending
        { station with
          blnEnbARQRpt := false
          intLastARQDataFrameToHost := none
          protocolState := .iss
          arqState := .issData } _ :=
      .of_sendData settings rfl rfl (geared.alike rfl) sound.balanced free silent
    refine sending.steps fun sends => .takesOver role ?_
    convert sends using 1
    unfold party
    congr 1
    exact free.symm
  · exact other

/-- What holds in state IRStoISS. -/
theorem Phase.of_turning (phase : station.Phase) (state : station.protocolState = .irsToISS) :
    station.journal.offered = none ∧ station.Geared := by
  obtain ⟨free, answering | geared⟩ :=
    phase.of_not_iss (by rw [state]; decide) (by rw [state]; decide)
  · cases state.symm.trans answering.1
  · exact ⟨free, geared⟩

/-- What holds in state IRS and substate IRSData. -/
theorem Phase.of_following (phase : station.Phase) (state : station.protocolState = .irs)
    (substate : station.arqState = .irsData) :
    station.journal.offered = none ∧ station.Geared := by
  obtain ⟨free, answering | geared⟩ :=
    phase.of_not_iss (by rw [state]; decide) (by rw [state]; decide)
  · cases substate.symm.trans answering.2
  · exact ⟨free, geared⟩

/-- `ProcessRcvdARQFrame` -/
theorem Sound.processRcvdARQFrame (sound : station.Sound) (silent : station.played = none)
    (settings : Settings) (frame : AirFrame) (reception : Reception)
    (short : isShortControlFrame frame.bytFrameType = true →
      reception.blnFrameDecodedOK = true) :
    Steps station (some frame.signal)
      (station.processRcvdARQFrame settings frame reception) := by
  rw [Station.processRcvdARQFrame]
  cases sound.phase with
  | off state =>
      rw [state]
      exact sound.processDISC silent state settings frame reception
  | calling state substate free ready =>
      rw [state, processISS, substate]
      exact sound.processISSConReq silent state substate free settings frame reception
  | confirming state substate free geared ready =>
      rw [state, processISS, substate]
      exact sound.processISSConAck silent state substate free geared settings frame
        reception
  | leading state substate geared offering =>
      rw [state, processISS, substate]
      exact sound.processISSData silent state substate geared offering settings frame
        reception
  | idle state free geared ready =>
      rw [state]
      exact sound.processIDLE silent state free geared settings frame reception
  | answering state substate free quiet unanswered =>
      rw [state, substate]
      exact sound.processIRSConAck silent state substate free quiet unanswered settings
        frame reception
  | following state substate free quiet geared answered =>
      have following := sound.processIRSData silent state substate free quiet geared
        answered settings frame reception short
      rw [state]
      rcases substate with substate | substate <;> rw [substate] <;> exact following
  | turning state free geared ready =>
      rw [state]
      exact .ignores sound rfl silent

/-- `ProcessRcvdARQFrame` as `ProcessNewSamples` calls it. -/
theorem Sound.processFrame (sound : station.Sound) (silent : station.played = none)
    (settings : Settings) (frame : AirFrame) (reception : Reception)
    (short : isShortControlFrame frame.bytFrameType = true →
      reception.blnFrameDecodedOK = true) :
    Steps station (some frame.signal) (station.processFrame settings frame reception) := by
  rw [Station.processFrame]
  split
  · exact .ignores sound rfl silent
  · exact sound.processRcvdARQFrame silent settings frame reception short

/-- A station takes a frame as its party takes the signal of the frame. -/
theorem Sound.processNewSamples (sound : station.Sound) (silent : station.played = none)
    (settings : Settings) (frame : AirFrame) (reception : Reception) :
    Steps station (some frame.signal)
      (station.processNewSamples settings frame reception) := by
  rw [Station.processNewSamples]
  dsimp only
  split
  · exact .ignores sound rfl silent
  split
  · next short =>
      split
      · next acknowledged =>
          obtain ⟨free, geared⟩ := sound.phase.of_turning acknowledged.1
          rw [AirFrame.signal_ack acknowledged.2]
          exact sound.becomeISS silent acknowledged.1 free geared settings
      · exact sound.processFrame silent settings frame _ fun _ => rfl
  next long =>
  have long := eq_false_of_ne_true long
  split
  · next breaks =>
      obtain ⟨-, state, substate, other⟩ := breaks
      obtain ⟨free, geared⟩ := sound.phase.of_following state substate
      have role := role_following state (.inl substate)
      have acts : Party.Acts oddType station.party (some frame.signal)
          { station.party with role := .turning, answered := none } (some .turn) := by
        rw [AirFrame.signal_of_long long]
        split
        · exact .turns role (.inl rfl)
        split
        · exact .turns role (.inr (.inl ⟨_, rfl⟩))
        · exact .interrupts frame.bytData role (answered_ne other)
      have asks := Steps.asks state free geared sound.balanced acts
      refine ⟨⟨asks.sound.balanced, ?_⟩, asks.acts, asks.fits⟩
      exact asks.sound.phase.alike rfl rfl rfl rfl id
  split
  · next insists =>
      obtain ⟨free, geared⟩ := sound.phase.of_turning insists.1
      have role := role_turning insists.1
      rw [AirFrame.signal_block insists.2]
      refine .plays ⟨sound.balanced, ?_⟩ rfl rfl rfl (.insists _ _ role)
      refine .turning insists.1 free (geared.alike rfl) fun _ => ?_
      exact ⟨rfl, fits_of_control rfl rfl⟩
  split
  · next acknowledged =>
      obtain ⟨free, geared⟩ := sound.phase.of_turning acknowledged.1
      rw [AirFrame.signal_ack acknowledged.2]
      exact sound.becomeISS silent acknowledged.1 free geared settings
  · refine sound.processFrame silent settings frame reception fun short => ?_
    rw [long] at short
    cases short

end Station
end Ardop
end Hamchat
