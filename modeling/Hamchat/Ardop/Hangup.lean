import Hamchat.Ardop.Calling

/-!
# A session that ends

At the end of its queue a station whose host gives the command `DISCONNECT` plays DISC.
The other station answers with END and is in state DISC.  That END carries no session
number any more, since `InitializeConnection` has set it to 0xFF, and is taken as lost
here.  The first station repeats DISC, the other one answers again with the number of the
last session, and an END that is heard ends the session of the first station too.
-/

namespace Hamchat
namespace Ardop

open Foundation (runFrom runFrom_append runFrom_cons_eq_some)

namespace Station

/-- A station that rests and whose host has given the command `DISCONNECT`. -/
structure Leaves (station : Station) : Prop where
  state : station.protocolState = .idle
  awake : station.blnDISCRepeating = false
  asked : station.blnARQDisconnect = true
  going : station.blnAbort = false
  punctual : station.blnTimeoutTriggered = false

/-- A station that rests and has played DISC for the time that is counted. -/
structure Stops (station : Station) (count : Nat) : Prop where
  state : station.protocolState = .idle
  repeating : station.blnDISCRepeating = true
  going : station.blnAbort = false
  counted : station.intRepeatCount = count
  punctual : station.blnTimeoutTriggered = false

/-- A station whose session is over. -/
structure Ended (station : Station) : Prop where
  state : station.protocolState = .disc
  punctual : station.blnTimeoutTriggered = false

variable {station : Station}

/-! ## The frames of the end -/

theorem Rests.disconnectCommand (rests : station.Rests) (going : station.blnAbort = false)
    (settings : Settings) {next : Station}
    (same : station.react settings .disconnectCommand = next) :
    next.Leaves := by
  have live : station.protocolState ≠ .disc := by
    rw [rests.state]
    decide
  have asks : station.react settings .disconnectCommand =
      { station with played := none, blnARQDisconnect := true } := by
    rw [react, Station.disconnectCommand]
    exact if_pos live
  rw [← same, asks]
  exact ⟨rests.state, rests.awake, rfl, going, rests.punctual⟩

theorem Leaves.getNextARQFrame (leaves : station.Leaves) (settings : Settings) :
    station.getNextARQFrame settings false =
      (false,
        { station with
          intRepeatCount := 1
          blnARQDisconnect := false
          blnDISCRepeating := true
          blnEnbARQRpt := false }.play discFrame) := by
  rw [Station.getNextARQFrame, if_neg (by simp [leaves.going]),
    if_neg (by simp [leaves.awake]), if_pos ⟨.inr leaves.state, leaves.asked⟩,
    checkForDisconnect, if_pos leaves.asked]

/-- DISC is repeated when END has not been heard. -/
theorem Stops.getNextARQFrame {count : Nat} (stops : station.Stops count) (few : count < 5)
    (settings : Settings) :
    station.getNextARQFrame settings false =
      (true,
        { station with
          intRepeatCount := count + 1
          blnEnbARQRpt := false }.encode { bytFrameType := discFrame }) := by
  have again : ¬station.intRepeatCount + 1 > 5 := by
    rw [stops.counted]
    exact not_lt.mpr few
  rw [Station.getNextARQFrame, if_neg (by simp [stops.going]), if_pos stops.repeating]
  refine (if_neg again).trans ?_
  rw [stops.counted]

theorem Stops.repeats {count : Nat} (stops : station.Stops count) (few : count < 5)
    (settings : Settings) {next : Station}
    (same : station.react settings (.checkTimers false) = next) :
    next.Stops (count + 1) ∧ next.played = some { bytFrameType := discFrame } := by
  have still : { station with played := none }.Stops count :=
    ⟨stops.state, stops.repeating, stops.going, stops.counted, stops.punctual⟩
  rw [← same, react, Station.checkTimers, if_pos (.inr stops.repeating),
    still.getNextARQFrame few]
  exact ⟨⟨stops.state, stops.repeating, stops.going, rfl, stops.punctual⟩, rfl⟩

theorem setARDOPProtocolState_punctual (value : ArdopState) :
    (station.setARDOPProtocolState value).blnTimeoutTriggered =
      station.blnTimeoutTriggered := by
  rw [Station.setARDOPProtocolState]
  split
  · rfl
  · cases value <;> rfl

/-- DISC is answered with END, and the session is over. -/
theorem Listens.hearsDisc (listens : station.Listens) (settings : Settings)
    (reception : Reception) {next : Station}
    (same : station.react settings
      (.processNewSamples { bytFrameType := discFrame } reception) = next) :
    next.Ended ∧ next.journal.passed = station.journal.passed ∧
      next.played = some { bytFrameType := endFrame } := by
  have still : { station with played := none }.Listens :=
    ⟨listens.state, listens.substate, listens.unbroken, listens.punctual⟩
  have notTurning : station.protocolState ≠ .irsToISS := by
    rw [listens.state]
    decide
  have ends : station.react settings
        (.processNewSamples { bytFrameType := discFrame } reception) =
      { station with played := none }.disconnect.play endFrame := by
    rw [react_short settings rfl rfl notTurning listens.punctual, still.processRcvdARQFrame]
    rfl
  have estate := setARDOPProtocolState_estate .disc
    { station with played := none }.clearDataToSend
  simp only [Station.estate, Prod.mk.injEq] at estate
  rw [← same, ends]
  exact ⟨⟨setARDOPProtocolState_protocolState _ _,
    setARDOPProtocolState_punctual _ |>.trans listens.punctual⟩, estate.2.2.2.2, rfl⟩

/-- A repeated DISC is answered with END after the session too. -/
theorem Ended.hearsDisc (ended : station.Ended) (settings : Settings)
    (reception : Reception) {next : Station}
    (same : station.react settings
      (.processNewSamples { bytFrameType := discFrame } reception) = next) :
    next.Ended ∧ next.journal.passed = station.journal.passed ∧
      next.played = some { bytFrameType := endFrame } := by
  have notTurning : station.protocolState ≠ .irsToISS := by
    rw [ended.state]
    decide
  have answers : station.react settings
        (.processNewSamples { bytFrameType := discFrame } reception) =
      { station with played := none, blnEnbARQRpt := false }.play endFrame := by
    rw [react_short settings rfl rfl notTurning ended.punctual, processRcvdARQFrame,
      ended.state]
    rfl
  rw [← same, answers]
  exact ⟨⟨ended.state, ended.punctual⟩, rfl, rfl⟩

/-- END ends the session of the station that has asked. -/
theorem Stops.hearsEnd {count : Nat} (stops : station.Stops count) (settings : Settings)
    (reception : Reception) {next : Station}
    (same : station.react settings
      (.processNewSamples { bytFrameType := endFrame } reception) = next) :
    next.protocolState = .disc := by
  have notTurning : station.protocolState ≠ .irsToISS := by
    rw [stops.state]
    decide
  have ends : station.react settings
        (.processNewSamples { bytFrameType := endFrame } reception) =
      { { station with played := none }.clearDataToSend.setARDOPProtocolState .disc with
        blnEnbARQRpt := false
        blnDISCRepeating := false } := by
    rw [react_short settings rfl rfl notTurning stops.punctual, processRcvdARQFrame,
      stops.state]
    rfl
  rw [← same, ends]
  exact setARDOPProtocolState_protocolState _ _

end Station

namespace Link

variable {link : Link} {side : Side}

/-- One side acts on its own. -/
theorem Sound.acts (sound : link.Sound) (settings : Side → Settings) (side : Side)
    {event : StationEvent} (quiet : event.heard = none) :
    ∃ next, link.step settings (.acts side event) = some next ∧ next.Sound ∧
      (∀ frame, ((link.station side).react (settings side) event).played = some frame →
        next.air = some (side, frame)) ∧
      next.station side = (link.station side).react (settings side) event ∧
      next.station side.other = link.station side.other := by
  have stepped : link.step settings (.acts side event) =
      some (link.put side false ((link.station side).react (settings side) event)) := by
    rw [Link.step, quiet]
    rfl
  refine ⟨_, stepped, sound.step settings _ stepped, ?_, if_pos rfl, if_neg side.other_ne⟩
  intro frame played
  rw [Link.put, played]

/-- One side waits for END after it has played DISC, and the other side has played it. -/
structure Hanging (link : Link) (side : Side) (count : Nat) : Prop where
  sound : link.Sound
  stops : (link.station side).Stops count
  ended : (link.station side.other).Ended
  air : link.air = some (side.other, { bytFrameType := endFrame })

/-- END is lost, and DISC is repeated and heard. -/
def again (side : Side) (disc : Reception) : List LinkEvent :=
  [.loses, .acts side (.checkTimers false), .hears side.other disc]

theorem Hanging.again {count : Nat} (hanging : link.Hanging side count) (few : count < 5)
    (settings : Side → Settings) (disc : Reception) :
    ∃ next, runFrom (step settings) link (again side disc) = some next ∧
      next.Hanging side (count + 1) ∧
      (next.station side.other).journal.passed =
        (link.station side.other).journal.passed := by
  obtain ⟨sound, stops, ended, -⟩ := hanging
  have silent := sound.step settings .loses (rfl : link.step settings .loses = some _)
  obtain ⟨second, repeats, secondSound, secondAir, secondSide, secondOther⟩ :=
    silent.acts settings side
      (show (StationEvent.checkTimers false).heard = none from rfl)
  obtain ⟨stops, plays⟩ := stops.repeats few (settings side) rfl
  have air := secondAir _ plays
  rw [← secondSide] at stops
  rw [← secondOther] at ended
  obtain ⟨ended, passed, plays⟩ := ended.hearsDisc (settings side.other) disc rfl
  obtain ⟨next, hears, nextSound, nextAir, nextOther, nextSide⟩ :=
    secondSound.hears settings side.other (by rw [Side.other_other]; exact air) disc plays
  rw [Side.other_other] at nextSide
  rw [← nextOther] at ended passed
  rw [← nextSide] at stops
  refine ⟨next, ?_, ⟨nextSound, stops, ended, nextAir⟩, passed.trans ?_⟩
  · rw [Link.again, runFrom_cons_eq_some]
    refine ⟨_, rfl, ?_⟩
    rw [runFrom_cons_eq_some]
    refine ⟨second, repeats, ?_⟩
    rw [runFrom_cons_eq_some]
    exact ⟨next, hears, rfl⟩
  · rw [secondOther]

/-- DISC is repeated for some time.  The induction is on the repetitions, and the count of
the side that repeats stays within five. -/
theorem Hanging.repeats (settings : Side → Settings) (discs : List Reception) :
    ∀ {link : Link} {count : Nat}, link.Hanging side count → count + discs.length ≤ 5 →
      ∃ next, runFrom (step settings) link (discs.flatMap (Link.again side)) = some next ∧
        next.Hanging side (count + discs.length) ∧
        (next.station side.other).journal.passed =
          (link.station side.other).journal.passed := by
  induction discs with
  | nil => exact fun {link} {count} hanging _ => ⟨link, rfl, hanging, rfl⟩
  | cons disc discs ih =>
      intro link count hanging few
      rw [List.length_cons] at few
      obtain ⟨middle, first, hanging, passed⟩ := hanging.again (by omega) settings disc
      obtain ⟨next, rest, hanging, still⟩ := ih hanging (by omega)
      refine ⟨next, ?_, ?_, still.trans passed⟩
      · rw [List.flatMap_cons, runFrom_append, first, Option.bind_some]
        exact rest
      · rw [List.length_cons, Nat.add_comm discs.length, ← Nat.add_assoc]
        exact hanging

/-- An END that is heard ends the session of the side that has played DISC. -/
theorem Hanging.ends {count : Nat} (hanging : link.Hanging side count)
    (settings : Side → Settings) (ends : Reception) :
    ∃ final, link.step settings (.hears side ends) = some final ∧
      (∀ every, (final.station every).protocolState = .disc) ∧
      final.station side.other = link.station side.other := by
  obtain ⟨final, hears, sideEnds, otherEnds⟩ :
      ∃ final, link.step settings (.hears side ends) = some final ∧
        final.station side = (link.station side).react (settings side)
          (.processNewSamples { bytFrameType := endFrame } ends) ∧
        final.station side.other = link.station side.other := by
    refine ⟨link.put side true ((link.station side).react (settings side)
      (.processNewSamples { bytFrameType := endFrame } ends)), ?_, if_pos rfl,
      if_neg side.other_ne⟩
    rw [Link.step, hanging.air]
    exact if_neg side.other_ne
  refine ⟨final, hears, ?_, otherEnds⟩
  intro every
  rcases every.eq_or_eq_other side with rfl | rfl
  · rw [sideEnds]
    exact hanging.stops.hearsEnd (settings every) ends rfl
  · rw [otherEnds]
    exact hanging.ended.state

end Link

end Ardop
end Hamchat
