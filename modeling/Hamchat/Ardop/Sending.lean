import Hamchat.Ardop.Party

/-!
# What a station sends on its own

The next data frame, the frames that are repeated, the timeouts and the commands
of the host are what a party may do that hears nothing.
-/

namespace Hamchat
namespace Ardop
namespace Station

open Foundation (Party Role Signal)

variable {station next : Station}

/-! ## Variables that do not matter -/

/-- The variables of the gears. -/
def gears (station : Station) : List UInt8 × Nat × List UInt8 × Nat × UInt8 × Int :=
  (station.bytFrameTypesForBW, station.bytFrameTypesForBWLength,
    station.bytShiftUpThresholds, station.intFrameTypePtr, station.bytCurrentFrameType,
    station.intShiftUpDn)

theorem Geared.alike (geared : station.Geared) (same : next.gears = station.gears) :
    next.Geared := by
  simp only [gears, Prod.mk.injEq] at same
  obtain ⟨modes, length, thresholds, pointer, current, shift⟩ := same
  constructor
  · rw [modes, length]
    exact geared.length
  · rw [modes, thresholds]
    exact geared.thresholds
  · rw [modes]
    exact geared.small
  · rw [modes, pointer]
    exact geared.pointer
  · rw [modes]
    exact geared.modes
  · rw [current]
    exact geared.current
  · rw [shift, pointer, modes]
    exact geared.shift

/-- The variables of the frame that is played again. -/
def outgoing (station : Station) :
    Bool × AirFrame × Option (UInt8 × List UInt8) × Nat :=
  (station.blnDISCRepeating, station.bytEncodedBytes, station.journal.offered,
    station.intSessionBW)

/-- The variables of the data frame that waits for its answer. -/
def draft (station : Station) : Bool × Nat × List UInt8 × UInt8 × UInt8 :=
  (station.blnLastFrameSentData, station.bytQDataInProcessLen, station.bytDataToSend,
    station.bytLastARQDataFrameSent, station.bytLastARQDataFrameAcked)

theorem Ready.alike {signal : Signal UInt8 Nat UInt8} (ready : station.Ready signal)
    (same : next.outgoing = station.outgoing) : next.Ready signal := by
  simp only [outgoing, Prod.mk.injEq] at same
  obtain ⟨stopping, encoded, -⟩ := same
  intro awake
  rw [encoded]
  exact ready (stopping.symm.trans awake)

theorem Offering.alike (offering : station.Offering)
    (outgoing : next.outgoing = station.outgoing) (draft : next.draft = station.draft) :
    next.Offering := by
  simp only [Station.outgoing, Prod.mk.injEq] at outgoing
  obtain ⟨-, encoded, offered, -⟩ := outgoing
  simp only [Station.draft, Prod.mk.injEq] at draft
  obtain ⟨sentData, process, queue, sent, acked⟩ := draft
  constructor
  · rw [sentData]
    exact offering.sentData
  · rw [process]
    exact offering.some
  · rw [process, queue]
    exact offering.within
  · rw [process, sent]
    exact offering.fits
  · rw [sent]
    exact offering.data
  · rw [sent, acked]
    exact offering.differs
  · rw [offered, sent, queue, process]
    exact offering.offered
  · rw [encoded, sent, queue, process]
    exact offering.encoded

/-- More data in the queue. -/
theorem Offering.addDataToDataToSend (offering : station.Offering)
    (bytNewData : List UInt8) : (station.addDataToDataToSend bytNewData).Offering := by
  rw [Station.addDataToDataToSend]
  split
  · exact offering
  split
  · exact offering
  have same : (station.bytDataToSend ++ bytNewData).take station.bytQDataInProcessLen =
      station.bytDataToSend.take station.bytQDataInProcessLen :=
    List.take_append_of_le_length offering.within
  refine ⟨offering.sentData, offering.some, ?_, offering.fits, offering.data,
    offering.differs, offering.offered.trans ?_, offering.encoded.trans ?_⟩
  · exact offering.within.trans (by simp)
  · rw [← same]
  · rw [← same]

/-- The variables of the state of a session. -/
def standing (station : Station) : ArdopState × ArqSubState × UInt8 :=
  (station.protocolState, station.arqState, station.bytLastACKedDataFrameType)

theorem Phase.keeps (phase : station.Phase) (standing : next.standing = station.standing)
    (gears : next.gears = station.gears) (outgoing : next.outgoing = station.outgoing)
    (quiet : station.blnEnbARQRpt = false → next.blnEnbARQRpt = false)
    (keeps : station.Offering → next.Offering) : next.Phase := by
  have same := outgoing
  simp only [Station.outgoing, Prod.mk.injEq] at same
  obtain ⟨stopping, -, offered, width⟩ := same
  simp only [Station.standing, Prod.mk.injEq] at standing
  obtain ⟨sameState, sameSubstate, sameAnswer⟩ := standing
  cases phase with
  | off state => exact .off (sameState.trans state)
  | calling state substate free ready =>
      exact .calling (sameState.trans state) (sameSubstate.trans substate)
        (offered.trans free) (ready.alike outgoing)
  | confirming state substate free geared ready =>
      refine .confirming (sameState.trans state) (sameSubstate.trans substate)
        (offered.trans free) (geared.alike gears) ?_
      rw [width]
      exact ready.alike outgoing
  | leading state substate geared offering =>
      refine .leading (sameState.trans state) (sameSubstate.trans substate)
        (geared.alike gears) ?_
      exact offering.imp stopping.trans keeps
  | idle state free geared ready =>
      exact .idle (sameState.trans state) (offered.trans free) (geared.alike gears)
        (ready.alike outgoing)
  | answering state substate free silent unanswered =>
      exact .answering (sameState.trans state) (sameSubstate.trans substate)
        (offered.trans free) (quiet silent) (sameAnswer.trans unanswered)
  | following state substate free silent geared answered =>
      refine .following (sameState.trans state) ?_ (offered.trans free) (quiet silent)
        (geared.alike gears) ?_
      · rw [sameSubstate]
        exact substate
      · rw [sameAnswer]
        exact answered
  | turning state free geared ready =>
      exact .turning (sameState.trans state) (offered.trans free) (geared.alike gears)
        (ready.alike outgoing)

theorem Phase.alike (phase : station.Phase) (standing : next.standing = station.standing)
    (gears : next.gears = station.gears) (outgoing : next.outgoing = station.outgoing)
    (draft : next.draft = station.draft)
    (quiet : station.blnEnbARQRpt = false → next.blnEnbARQRpt = false) : next.Phase :=
  phase.keeps standing gears outgoing quiet fun offering => offering.alike outgoing draft

/-- A station that has asked to stop. -/
theorem Phase.stopping (phase : station.Phase) (standing : next.standing = station.standing)
    (gears : next.gears = station.gears)
    (offered : next.journal.offered = station.journal.offered)
    (stopping : next.blnDISCRepeating = true) (quiet : next.blnEnbARQRpt = false) :
    next.Phase := by
  have ready (signal : Signal UInt8 Nat UInt8) : next.Ready signal := by
    intro awake
    rw [stopping] at awake
    cases awake
  simp only [Station.standing, Prod.mk.injEq] at standing
  obtain ⟨sameState, sameSubstate, sameAnswer⟩ := standing
  cases phase with
  | off state => exact .off (sameState.trans state)
  | calling state substate free _ =>
      exact .calling (sameState.trans state) (sameSubstate.trans substate)
        (offered.trans free) (ready _)
  | confirming state substate free geared _ =>
      exact .confirming (sameState.trans state) (sameSubstate.trans substate)
        (offered.trans free) (geared.alike gears) (ready _)
  | leading state substate geared _ =>
      exact .leading (sameState.trans state) (sameSubstate.trans substate)
        (geared.alike gears) (.inl stopping)
  | idle state free geared _ =>
      exact .idle (sameState.trans state) (offered.trans free) (geared.alike gears)
        (ready _)
  | answering state substate free _ unanswered =>
      exact .answering (sameState.trans state) (sameSubstate.trans substate)
        (offered.trans free) quiet (sameAnswer.trans unanswered)
  | following state substate free _ geared answered =>
      refine .following (sameState.trans state) ?_ (offered.trans free) quiet
        (geared.alike gears) ?_
      · rw [sameSubstate]
        exact substate
      · rw [sameAnswer]
        exact answered
  | turning state free geared _ =>
      exact .turning (sameState.trans state) (offered.trans free) (geared.alike gears)
        (ready _)

/-! ## Roles -/

theorem role_off (state : station.protocolState = .disc) : station.role = .off := by
  rw [role, state]

theorem role_calling (state : station.protocolState = .iss)
    (substate : station.arqState = .issConReq) : station.role = .calling := by
  rw [role, state, substate]

theorem role_confirming (state : station.protocolState = .iss)
    (substate : station.arqState = .issConAck) : station.role = .confirming := by
  rw [role, state, substate]

theorem role_leading (state : station.protocolState = .iss)
    (substate : station.arqState = .issData) : station.role = .leading := by
  rw [role, state, substate]

theorem role_idle (state : station.protocolState = .idle) : station.role = .leading := by
  rw [role, state]

/-- A station in state ISS or IDLE sends. -/
theorem role_of_iss_or_idle
    (state : station.protocolState = .iss ∨ station.protocolState = .idle) :
    station.role = .calling ∨ station.role = .confirming ∨ station.role = .leading := by
  rcases state with state | state
  · rw [role, state]
    cases station.arqState <;> decide
  · exact .inr (.inr (role_idle state))

theorem role_answering (state : station.protocolState = .irs)
    (substate : station.arqState = .irsConAck) : station.role = .answering := by
  rw [role, state]
  exact if_pos substate

theorem role_following (state : station.protocolState = .irs)
    (substate : station.arqState = .irsData ∨ station.arqState = .irsFromISS) :
    station.role = .following := by
  rw [role, state]
  apply if_neg
  rcases substate with substate | substate <;> rw [substate] <;> decide

theorem role_turning (state : station.protocolState = .irsToISS) :
    station.role = .turning := by
  rw [role, state]

/-! ## Steps -/

variable {heard : Option (Signal UInt8 Nat UInt8)}

theorem Steps.ignores (sound : next.Sound) (same : next.party = station.party)
    (silent : next.played = none) : Steps station heard next where
  sound := sound
  acts := by
    rw [same, silent]
    exact .ignores heard
  fits frame played := by
    rw [silent] at played
    cases played

/-- The variables that are no part of the party do not matter. -/
theorem Steps.of_party {base : Station} (steps : Steps base heard next)
    (same : base.party = station.party) : Steps station heard next where
  sound := steps.sound
  acts := same ▸ steps.acts
  fits := steps.fits

/-- A frame without data fits. -/
theorem fits_of_control {frame : AirFrame}
    (control : isDataFrame frame.bytFrameType = false) (empty : frame.bytData = []) :
    frame.Fits := by
  rw [AirFrame.Fits, if_neg (ne_true_of_eq_false control)]
  exact empty

/-- A session ends, with END, DISC or without a frame. -/
theorem Steps.ends (state : next.protocolState = .disc) (balanced : next.Balanced)
    (estate : next.estate = station.estate)
    (quiet : next.played = none ∨ next.played = some { bytFrameType := endFrame } ∨
      next.played = some { bytFrameType := discFrame }) : Steps station heard next where
  sound := ⟨balanced, .off state⟩
  acts := by
    simp only [Station.estate, Prod.mk.injEq] at estate
    obtain ⟨acked, seen, offered, removed, passed⟩ := estate
    have same : next.party =
        { station.party with
          role := .off
          stopping := next.blnDISCRepeating
          answered := next.answered
          width := next.intSessionBW } := by
      simp only [party, role_off state, acked, seen, offered, removed, passed]
    rw [same]
    apply Party.Acts.ends
    rcases quiet with played | played | played
    · exact .inl (congrArg _ played)
    · exact .inr (congrArg _ played)
    · exact .inr (congrArg _ played)
  fits frame played := by
    rcases quiet with quiet | quiet | quiet
    · rw [quiet] at played
      cases played
    · obtain rfl := Option.some.inj (quiet.symm.trans played)
      exact fits_of_control rfl rfl
    · obtain rfl := Option.some.inj (quiet.symm.trans played)
      exact fits_of_control rfl rfl

/-! ## Other states -/

theorem setARDOPProtocolState_iss (other : station.protocolState ≠ .iss) :
    station.setARDOPProtocolState .iss =
      { station with protocolState := .iss, blnEnbARQRpt := false } :=
  if_neg other

theorem setARDOPProtocolState_idle (other : station.protocolState ≠ .idle) :
    station.setARDOPProtocolState .idle =
      { station with protocolState := .idle, blnEnbARQRpt := false } :=
  if_neg other

theorem setARDOPProtocolState_irs (other : station.protocolState ≠ .irs) :
    station.setARDOPProtocolState .irs =
      { station with protocolState := .irs, bytLastACKedDataFrameType := 0 } :=
  if_neg other

theorem setARDOPProtocolState_irsToISS (other : station.protocolState ≠ .irsToISS) :
    station.setARDOPProtocolState .irsToISS =
      { station with protocolState := .irsToISS, bytLastACKedDataFrameType := 0 } :=
  if_neg other

/-! ## The next data frame -/

/-- What a station does that leads. -/
structure Sending (station next : Station) : Prop where
  sound : next.Sound
  sends : Party.Sends oddType station.party next.party
    (next.played.map AirFrame.signal)
  fits : ∀ frame, next.played = some frame → frame.Fits

theorem Sound.stopping (sound : station.Sound) :
    ({ station with
      intRepeatCount := 1
      blnARQDisconnect := false
      blnDISCRepeating := true
      blnEnbARQRpt := false }.play discFrame).Sound :=
  ⟨sound.balanced, sound.phase.stopping rfl rfl rfl rfl rfl⟩

theorem fits_disc (frame : AirFrame)
    (played : some { bytFrameType := discFrame } = some frame) : frame.Fits := by
  obtain rfl := Option.some.inj played
  exact fits_of_control rfl rfl

/-- `CheckForDisconnect` sends DISC where the host has asked for it. -/
theorem Steps.stops (sound : station.Sound) (asked : station.blnARQDisconnect = true) :
    station.checkForDisconnect.1 = true ∧
      Steps station heard station.checkForDisconnect.2 := by
  rw [checkForDisconnect, if_pos asked]
  exact ⟨rfl, sound.stopping, .stops heard, fits_disc⟩

theorem check_iff :
    station.checkForDisconnect.1 = true ↔ station.blnARQDisconnect = true := by
  rw [checkForDisconnect]
  split <;> simp_all

theorem sendDataFrame_spec (settings : Settings) (state : station.protocolState = .iss)
    (substate : station.arqState = .issData) (geared : station.Geared)
    (balanced : station.Balanced) (some : 0 < station.bytDataToSend.length) :
    ∃ tag items frame, oddType tag ≠ oddType station.bytLastARQDataFrameAcked ∧
      (station.sendDataFrame settings).party =
        { station.party with offer := .some (tag, items) } ∧
      (station.sendDataFrame settings).Sound ∧
      (station.sendDataFrame settings).played = .some frame ∧
      frame.signal = .block tag items ∧ frame.Fits := by
  obtain ⟨pointer, bytFrameType, data, differs, next, gearedNext⟩ :=
    geared.getNextFrameData settings
  obtain ⟨isData, -, -, -, room⟩ := dataFrameTypes_spec _ data
  have within := Nat.min_le_right (frameSize bytFrameType) station.bytDataToSend.length
  have fits := Nat.min_le_left (frameSize bytFrameType) station.bytDataToSend.length
  have positive : 0 < min (frameSize bytFrameType) station.bytDataToSend.length :=
    Nat.lt_min.mpr ⟨room, some⟩
  rw [next] at gearedNext
  generalize min (frameSize bytFrameType) station.bytDataToSend.length = len at *
  have length : (station.bytDataToSend.take len).length = len :=
    List.length_take_of_le within
  rw [sendDataFrame, next]
  refine ⟨bytFrameType, station.bytDataToSend.take len,
    { bytFrameType := bytFrameType, bytData := station.bytDataToSend.take len },
    oddType_ne differs, ?_, ⟨?_, ?_⟩, rfl, AirFrame.signal_block isData, ?_⟩
  · unfold party
    congr 1
    rw [role_leading state substate]
    exact role_leading state rfl
  · refine ⟨balanced.defined, balanced.kept, balanced.whole, ?_⟩
    rintro _ _ ⟨⟩
    exact balanced.offers len
  · refine .leading state rfl (gearedNext.alike rfl) (.inr ?_)
    exact ⟨rfl, positive, within, fits, data, oddType_ne differs, rfl, rfl⟩
  · rw [AirFrame.Fits, if_pos isData]
    exact ⟨data, length.symm ▸ positive, length.symm ▸ fits⟩

/-- `SendData` outside of the data frames that wait for their answer. -/
theorem Sending.of_sendData (settings : Settings) (state : station.protocolState = .iss)
    (substate : station.arqState = .issData) (geared : station.Geared)
    (balanced : station.Balanced) (free : station.journal.offered = none)
    (silent : station.played = none) : Sending station (station.sendData settings) := by
  rw [sendData]
  cases stopping : station.blnDISCRepeating with
  | true =>
      rw [if_pos rfl]
      refine ⟨⟨balanced, .leading state substate geared (.inl stopping)⟩, ?_, ?_⟩
      · rw [silent]
        exact .silent stopping
      · rw [silent]
        rintro _ ⟨⟩
  | false =>
      rw [if_neg Bool.false_ne_true, if_pos state]
      by_cases asked : station.blnARQDisconnect = true
      · rw [checkForDisconnect, if_pos asked]
        refine ⟨⟨balanced, ?_⟩, .stop, fits_disc⟩
        exact .leading state substate (geared.alike rfl) (.inl rfl)
      · rw [checkForDisconnect, if_neg asked]
        by_cases some : station.bytDataToSend.length > 0
        · obtain ⟨tag, items, frame, differs, same, sound, played, block, fits⟩ :=
            sendDataFrame_spec settings state substate geared balanced some
          simp only [Bool.false_eq_true, if_false, if_pos some]
          refine ⟨sound, ?_, ?_⟩
          · rw [same, played, Option.map_some, block]
            exact .block items stopping differs
          · rw [played]
            rintro _ ⟨⟩
            exact fits
        · simp only [Bool.false_eq_true, if_false, if_neg some]
          rw [setARDOPProtocolState_idle (by rw [state]; decide)]
          have cleared : { station with protocolState := .idle }.clearDataToSend.Balanced :=
            Balanced.clearDataToSend balanced
          refine ⟨⟨cleared, ?_⟩, ?_, ?_⟩
          · refine .idle rfl free (geared.alike rfl) fun _ => ⟨rfl, ?_⟩
            exact fits_of_control rfl rfl
          · have same : ({ station with
                  protocolState := .idle
                  blnEnbARQRpt := true
                  blnLastFrameSentData := false }.clearDataToSend.play idleFrame).party =
                station.party := by
              unfold party
              congr 1
              exact (role_leading state substate).symm
            exact same ▸ .idle stopping
          · rintro _ ⟨⟩
            exact fits_of_control rfl rfl

/-! ## Repeating -/

/-- A frame that may be repeated is played again. -/
theorem Steps.remodulates (settings : Settings) (sound : next.Sound)
    (same : next.party = station.party) (silent : next.played = none)
    (awake : station.blnDISCRepeating = false)
    (current : Party.Current station.party next.bytEncodedBytes.signal)
    (fits : next.bytEncodedBytes.Fits) :
    Steps station none (next.remodulateLastFrame settings) := by
  rw [remodulateLastFrame]
  split
  · refine ⟨⟨sound.balanced, sound.phase.alike rfl rfl rfl rfl id⟩, ?_, ?_⟩
    · have played : next.playEncoded.party = station.party := same
      rw [played]
      exact .repeats awake current
    · rintro _ ⟨⟩
      exact fits
  · exact .ignores sound same silent

/-- DISC is played again. -/
theorem Steps.insists (settings : Settings) (sound : next.Sound)
    (same : next.party = station.party) (silent : next.played = none)
    (stopping : station.blnDISCRepeating = true)
    (encoded : next.bytEncodedBytes = { bytFrameType := discFrame }) :
    Steps station none (next.remodulateLastFrame settings) := by
  rw [remodulateLastFrame]
  split
  · refine ⟨⟨sound.balanced, sound.phase.alike rfl rfl rfl rfl id⟩, ?_, ?_⟩
    · have played : next.playEncoded.party = { station.party with stopping := true } := by
        rw [← stopping]
        exact same
      have stop : next.playEncoded.played.map AirFrame.signal = some .stop := by
        rw [playEncoded, encoded]
        rfl
      rw [played, stop]
      exact .stops none
    · rintro frame ⟨⟩
      rw [encoded]
      exact fits_of_control rfl rfl
  · exact .ignores sound same silent

/-- A frame that is repeated is the one that its party may repeat. -/
theorem Phase.current (phase : station.Phase) (repeats : station.blnEnbARQRpt = true)
    (awake : station.blnDISCRepeating = false) (live : station.protocolState ≠ .disc) :
    Party.Current station.party station.bytEncodedBytes.signal ∧
      station.bytEncodedBytes.Fits := by
  cases phase with
  | off state => exact absurd state live
  | calling state substate free ready =>
      obtain ⟨signal, fits⟩ := ready awake
      rw [signal]
      exact ⟨.call (role_calling state substate), fits⟩
  | confirming state substate free geared ready =>
      obtain ⟨signal, fits⟩ := ready awake
      rw [signal]
      exact ⟨.confirm (role_confirming state substate), fits⟩
  | leading state substate geared offering =>
      have offering := offering.resolve_left (by simp [awake])
      obtain ⟨isData, -⟩ := dataFrameTypes_spec _ offering.data
      rw [offering.encoded, AirFrame.signal_block isData]
      refine ⟨.block (role_leading state substate) offering.offered, ?_⟩
      rw [AirFrame.Fits, if_pos isData, List.length_take_of_le offering.within]
      exact ⟨offering.data, offering.some, offering.fits⟩
  | idle state free geared ready =>
      obtain ⟨signal, fits⟩ := ready awake
      rw [signal]
      exact ⟨.idle (role_idle state) free, fits⟩
  | answering state substate free quiet =>
      rw [quiet] at repeats
      cases repeats
  | following state substate free quiet =>
      rw [quiet] at repeats
      cases repeats
  | turning state free geared ready =>
      obtain ⟨signal, fits⟩ := ready awake
      rw [signal]
      exact ⟨.turn (role_turning state), fits⟩

/-- The substates of state ISS. -/
theorem Phase.of_iss (phase : station.Phase) (state : station.protocolState = .iss) :
    station.arqState = .issConReq ∧ station.Ready .call ∨
      station.arqState = .issConAck ∧ station.Geared ∨
      station.arqState = .issData ∧ station.Geared ∧
        (station.blnDISCRepeating = true ∨ station.Offering) := by
  cases phase with
  | calling _ substate _ ready => exact .inl ⟨substate, ready⟩
  | confirming _ substate _ geared => exact .inr (.inl ⟨substate, geared⟩)
  | leading _ substate geared offering => exact .inr (.inr ⟨substate, geared, offering⟩)
  | off other => rw [state] at other; cases other
  | idle other => rw [state] at other; cases other
  | answering other => rw [state] at other; cases other
  | following other => rw [state] at other; cases other
  | turning other => rw [state] at other; cases other

/-- In the other states of a session no data frame waits for its answer. -/
theorem Phase.of_not_iss (phase : station.Phase) (live : station.protocolState ≠ .disc)
    (other : station.protocolState ≠ .iss) :
    station.journal.offered = none ∧
      (station.protocolState = .irs ∧ station.arqState = .irsConAck ∨ station.Geared) := by
  cases phase with
  | off state => exact absurd state live
  | calling state => exact absurd state other
  | confirming state => exact absurd state other
  | leading state => exact absurd state other
  | idle _ free geared => exact ⟨free, .inr geared⟩
  | answering state substate free => exact ⟨free, .inl ⟨state, substate⟩⟩
  | following _ _ free _ geared => exact ⟨free, .inr geared⟩
  | turning _ free geared => exact ⟨free, .inr geared⟩

theorem Phase.substate (phase : station.Phase) (state : station.protocolState = .iss) :
    station.arqState ≠ .irsConAck := by
  rcases phase.of_iss state with ⟨substate, -⟩ | ⟨substate, -⟩ | ⟨substate, -⟩ <;>
    rw [substate] <;> decide

/-- The frame of a station that calls. -/
theorem Phase.ready_call (phase : station.Phase) (state : station.protocolState = .iss)
    (substate : station.arqState = .issConReq) : station.Ready .call := by
  rcases phase.of_iss state with ⟨-, ready⟩ | ⟨other, -⟩ | ⟨other, -⟩
  · exact ready
  · cases substate.symm.trans other
  · cases substate.symm.trans other

/-- What is asked of `GetNextARQFrame`: the station may take its result, and play
the frame again where it says so. -/
structure Repeats (settings : Settings) (station : Station) (next : Bool × Station) :
    Prop where
  steps : Steps station none next.2
  again : next.1 = true → Steps station none (next.2.remodulateLastFrame settings)

theorem Repeats.of_false {settings : Settings} (steps : Steps station none next) :
    Repeats settings station (false, next) where
  steps := steps
  again again := by cases again

/-- A session that is given up. -/
theorem Repeats.gives_up {settings : Settings} {base : Station}
    (balanced : base.Balanced) (estate : base.estate = station.estate)
    (silent : base.played = none)
    (sameState : next.protocolState = (base.setARDOPProtocolState .disc).protocolState)
    (sameEstate : next.estate = (base.setARDOPProtocolState .disc).estate)
    (samePlayed : next.played = (base.setARDOPProtocolState .disc).played)
    (sameBooks : (base.setARDOPProtocolState .disc).Balanced → next.Balanced) :
    Repeats settings station (false, next) := by
  apply Repeats.of_false
  apply Steps.ends
  · rw [sameState, setARDOPProtocolState_protocolState]
  · exact sameBooks (balanced.setARDOPProtocolState .disc)
  · rw [sameEstate, setARDOPProtocolState_estate, estate]
  · rw [samePlayed, setARDOPProtocolState_played]
    exact .inl silent

/-- `GetNextARQFrame` where DISC is repeated. -/
theorem Sound.repeats_disc (sound : station.Sound) (silent : station.played = none)
    (stopping : station.blnDISCRepeating = true) (settings : Settings) :
    Repeats settings station
      (true,
        { station with
          intRepeatCount := station.intRepeatCount + 1
          blnEnbARQRpt := false }.encode { bytFrameType := discFrame }) := by
  have sound : ({ station with
      intRepeatCount := station.intRepeatCount + 1
      blnEnbARQRpt := false }.encode { bytFrameType := discFrame }).Sound :=
    ⟨sound.balanced, sound.phase.stopping rfl rfl rfl stopping rfl⟩
  refine ⟨.ignores sound rfl silent, fun _ => ?_⟩
  exact .insists settings sound rfl silent stopping rfl

/-- `GetNextARQFrame` where a connect request is repeated. -/
theorem Sound.repeats_call (sound : station.Sound) (silent : station.played = none)
    (awake : station.blnDISCRepeating = false) (state : station.protocolState = .iss)
    (substate : station.arqState = .issConReq) (settings : Settings) :
    Repeats settings station
      (true, { station with intRepeatCount := station.intRepeatCount + 1 }) := by
  have counted : { station with
      intRepeatCount := station.intRepeatCount + 1 }.Sound :=
    ⟨sound.balanced, sound.phase.alike rfl rfl rfl rfl id⟩
  refine ⟨.ignores counted rfl silent, fun _ => ?_⟩
  obtain ⟨signal, fits⟩ := sound.phase.ready_call state substate awake
  have current : Party.Current station.party station.bytEncodedBytes.signal := by
    rw [signal]
    exact .call (role_calling state substate)
  refine .remodulates settings counted ?_ silent awake current fits
  rfl

/-- `GetNextARQFrame` -/
theorem Sound.getNextARQFrame (sound : station.Sound) (silent : station.played = none)
    (settings : Settings) (timedOut : Bool) :
    Repeats settings station (station.getNextARQFrame settings timedOut) := by
  have cleared : station.clearDataToSend.Balanced := sound.balanced.clearDataToSend
  rw [Station.getNextARQFrame]
  by_cases abort : station.blnAbort = true
  · rw [if_pos abort]
    exact .gives_up cleared rfl silent rfl rfl rfl id
  rw [if_neg abort]
  by_cases stopping : station.blnDISCRepeating = true
  · rw [if_pos stopping]
    dsimp only
    split
    · have given : { station with
          intRepeatCount := station.intRepeatCount + 1
          blnDISCRepeating := false
          blnEnbARQRpt := false }.clearDataToSend.Balanced := cleared
      exact .gives_up given rfl silent rfl rfl rfl id
    · exact sound.repeats_disc silent stopping settings
  rw [if_neg stopping]
  have awake := eq_false_of_ne_true stopping
  split
  · next asked =>
      have steps : Steps station none station.checkForDisconnect.2 :=
        (Steps.stops sound asked.2).2
      exact .of_false steps
  split
  · next calling =>
      dsimp only
      split
      · have given : { station with
            intRepeatCount := station.intRepeatCount + 1 }.clearDataToSend.Balanced :=
          cleared
        exact .gives_up given rfl silent rfl rfl rfl id
      · exact sound.repeats_call silent awake calling.1 calling.2 settings
  split
  · next confirming =>
      exact absurd confirming.2 (sound.phase.substate confirming.1)
  split
  · exact .of_false (.ignores ⟨sound.balanced, sound.phase.alike rfl rfl rfl rfl fun _ => rfl⟩
      rfl silent)
  split
  · exact .of_false (.ignores ⟨sound.balanced, sound.phase.alike rfl rfl rfl rfl id⟩ rfl silent)
  · next live =>
      refine ⟨.ignores sound rfl silent, fun repeats => ?_⟩
      obtain ⟨current, fits⟩ := sound.phase.current repeats awake live
      exact .remodulates settings sound rfl silent awake current fits

/-! ## Events -/

theorem Steps.quiet (steps : Steps station heard next) :
    Steps station heard { next with blnEnbARQRpt := false } where
  sound := ⟨steps.sound.balanced, steps.sound.phase.alike rfl rfl rfl rfl fun _ => rfl⟩
  acts := steps.acts
  fits := steps.fits

theorem Steps.counted (steps : Steps station heard next) (count : Nat) :
    Steps station heard { next with intACKctr := count } where
  sound := ⟨steps.sound.balanced, steps.sound.phase.alike rfl rfl rfl rfl id⟩
  acts := steps.acts
  fits := steps.fits

/-- The first part of `CheckTimers` -/
theorem Sound.checkTimers (sound : station.Sound) (silent : station.played = none)
    (settings : Settings) (timedOut : Bool) :
    Steps station none (station.checkTimers settings timedOut) := by
  have repeats := sound.getNextARQFrame silent settings timedOut
  rw [Station.checkTimers]
  split
  · dsimp only
    split
    · next again => exact repeats.again again
    · exact repeats.steps.quiet
  · exact .ignores sound rfl silent

/-- The second part of `CheckTimers` -/
theorem Sound.sendTimeout (sound : station.Sound) (silent : station.played = none) :
    Steps station none station.sendTimeout := by
  rw [Station.sendTimeout]
  split
  · have sent : ({ station with
        tmrSendTimeout := false
        blnEnbARQRpt := false }.clearDataToSend.play discFrame).Balanced :=
      sound.balanced.clearDataToSend
    refine .ends (setARDOPProtocolState_protocolState _ _)
      (sent.setARDOPProtocolState .disc) ?_ ?_
    · exact setARDOPProtocolState_estate .disc _
    · exact .inr (.inr (setARDOPProtocolState_played .disc _))
  · exact .ignores sound rfl silent

/-- The third part of `CheckTimers` -/
theorem Sound.irsPendingTimeout (sound : station.Sound)
    (silent : station.played = none) : Steps station none station.irsPendingTimeout := by
  rw [Station.irsPendingTimeout]
  split
  · exact .ends rfl sound.balanced rfl (.inl silent)
  · exact .ignores sound rfl silent

theorem Sound.mainPoll (sound : station.Sound) (silent : station.played = none)
    (settings : Settings) (timedOut : Bool) :
    Steps station none (station.mainPoll settings timedOut) := by
  rw [Station.mainPoll]
  split
  · exact (sound.getNextARQFrame silent settings timedOut).steps
  · exact .ignores sound rfl silent

theorem Sound.addDataToDataToSend (sound : station.Sound)
    (silent : station.played = none) (bytNewData : List UInt8) :
    Steps station none (station.addDataToDataToSend bytNewData) := by
  have balanced := sound.balanced.addDataToDataToSend bytNewData
  have keeps (offering : station.Offering) := offering.addDataToDataToSend bytNewData
  rw [Station.addDataToDataToSend] at balanced keeps ⊢
  split
  · exact .ignores sound rfl silent
  split
  · exact .ignores sound rfl silent
  · next some room =>
      rw [if_neg some, if_neg room] at balanced keeps
      exact .ignores ⟨balanced, sound.phase.keeps rfl rfl rfl id keeps⟩ rfl silent

theorem Sound.breakCommand (sound : station.Sound) (silent : station.played = none) :
    Steps station none station.breakCommand := by
  rw [Station.breakCommand]
  split
  · exact .ignores sound rfl silent
  · exact .ignores ⟨sound.balanced, sound.phase.alike rfl rfl rfl rfl id⟩ rfl silent

theorem Sound.disconnectCommand (sound : station.Sound)
    (silent : station.played = none) : Steps station none station.disconnectCommand := by
  rw [Station.disconnectCommand]
  split
  · exact .ignores ⟨sound.balanced, sound.phase.alike rfl rfl rfl rfl id⟩ rfl silent
  · exact .ignores sound rfl silent

/-- `Abort`, as the host calls it and as `ProcessRcvdARQFrame` does. -/
theorem Sound.abort (sound : station.Sound) (silent : station.played = none)
    (settings : Settings) : Steps station none (station.abort settings) := by
  have aborting : { station with blnAbort := true }.Sound :=
    ⟨sound.balanced, sound.phase.alike rfl rfl rfl rfl id⟩
  rw [Station.abort]
  dsimp only
  split
  · exact (aborting.getNextARQFrame silent settings false).steps.of_party rfl
  · exact .ignores aborting rfl silent

end Station
end Ardop
end Hamchat
