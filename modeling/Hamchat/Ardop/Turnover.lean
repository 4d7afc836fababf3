import Hamchat.Ardop.Progress

/-!
# Data in both directions

At the end of a transmission the station that sends plays IDLE.  Where the other one
has data and `AutoBreak` is set, it answers with BREAK, becomes the one that sends as
soon as that is acknowledged, and its own queue is delivered.
-/

namespace Hamchat
namespace Ardop

open Foundation (runFrom runFrom_append runFrom_cons_eq_some)

namespace Station

variable {station : Station}

/-! ## The three frames of a turnover -/

/-- IDLE is answered with BREAK where there is data, or the host asks for it. -/
theorem processIdleFrame_eq (settings : Settings)
    (unasked : station.blnARQDisconnect = false)
    (breaks : settings.autoBreak = true ∧ station.bytDataToSend.length > 0 ∨
      station.blnBREAKCmd = true) :
    station.processIdleFrame settings = station.becomeIRStoISS := by
  rw [processIdleFrame, if_neg, if_pos breaks]
  rw [check_iff, unasked]
  decide

/-- A station that receives and has data answers IDLE with BREAK. -/
theorem Listens.hearsIdle (listens : station.Listens) {settings : Settings}
    (autoBreak : settings.autoBreak = true) (awake : station.blnDISCRepeating = false)
    (unasked : station.blnARQDisconnect = false)
    (waits : 0 < station.bytDataToSend.length) (reception : Reception) {next : Station}
    (same : station.react settings
      (.processNewSamples { bytFrameType := idleFrame } reception) = next) :
    next.AsksLead ∧ Keeps station next ∧
      next.played = some { bytFrameType := breakFrame } := by
  have other : station.protocolState ≠ .irsToISS := by
    rw [listens.state]
    decide
  have asks : station.react settings
        (.processNewSamples { bytFrameType := idleFrame } reception) =
      { station with played := none, blnEnbARQRpt := false }.becomeIRStoISS := by
    have still : { station with played := none }.Listens :=
      ⟨listens.state, listens.substate, listens.unbroken, listens.punctual⟩
    rw [react_short settings rfl rfl other listens.punctual, still.processRcvdARQFrame]
    exact @processIdleFrame_eq { station with played := none, blnEnbARQRpt := false }
      settings unasked (.inl ⟨autoBreak, waits⟩)
  rw [← same, asks, becomeIRStoISS, setARDOPProtocolState_irsToISS]
  · exact ⟨⟨rfl, awake, unasked, listens.punctual⟩, ⟨rfl, rfl, rfl⟩, rfl⟩
  · exact other

/-- A station that rests answers BREAK with an ACK and receives. -/
theorem Rests.hearsBreak (rests : station.Rests) (settings : Settings)
    (unbroken : station.blnBREAKCmd = false) (reception : Reception) {next : Station}
    (same : station.react settings
      (.processNewSamples { bytFrameType := breakFrame } reception) = next) :
    next.Listens ∧ Keeps station next ∧
      next.played = some { bytFrameType := dataACK 100 } := by
  have other : station.protocolState ≠ .irsToISS := by
    rw [rests.state]
    decide
  have yields : station.react settings
        (.processNewSamples { bytFrameType := breakFrame } reception) =
      { station with played := none, blnEnbARQRpt := false }.becomeIRS := by
    rw [react_short settings rfl rfl other rests.punctual, processRcvdARQFrame, rests.state]
    rfl
  rw [← same, yields, becomeIRS, setARDOPProtocolState_irs]
  · exact ⟨⟨rfl, .inr rfl, unbroken, rests.punctual⟩, ⟨rfl, rfl, rfl⟩, rfl⟩
  · change station.protocolState ≠ .irs
    rw [rests.state]
    decide

/-- A station that asks for the lead has it after an ACK. -/
theorem AsksLead.hearsACK (asks : station.AsksLead) (sound : station.Sound)
    (settings : Settings) (waits : 0 < station.bytDataToSend.length) (quality : Nat)
    (reception : Reception) {next : Station}
    (same : station.react settings
      (.processNewSamples { bytFrameType := dataACK quality } reception) = next) :
    next.Transmits ∧ Keeps station next ∧ next.played = some next.bytEncodedBytes := by
  obtain ⟨ack, -⟩ := dataACK_spec quality
  obtain ⟨-, geared⟩ := sound.phase.of_turning asks.state
  have set : station.bytCurrentFrameType ≠ 0 := by
    intro none
    have current := geared.current
    rw [none] at current
    exact absurd current (by decide +kernel)
  have leads : station.react settings
        (.processNewSamples { bytFrameType := dataACK quality } reception) =
      { station with
        played := none
        blnEnbARQRpt := false
        intLastARQDataFrameToHost := none
        protocolState := .iss
        arqState := .issData }.sendDataFrame settings := by
    obtain ⟨short, known⟩ := ack_spec settings quality
    rw [react, Station.processNewSamples]
    simp only [known, short, asks.state, ack, Bool.false_eq_true, if_false, if_true,
      and_self]
    rw [becomeISS]
    dsimp only
    rw [if_neg set, setARDOPProtocolState_iss (by rintro ⟨⟩)]
    exact sendData_eq settings rfl asks.awake asks.unasked waits
  have transmits : { station with
      played := none
      blnEnbARQRpt := false
      intLastARQDataFrameToHost := none
      protocolState := .iss
      arqState := .issData }.Transmits :=
    ⟨rfl, rfl, asks.awake, asks.unasked, asks.punctual⟩
  obtain ⟨transmitting, keeps, plays⟩ :=
    transmits.sendDataFrame (geared.alike rfl) settings
  rw [← same, leads]
  exact ⟨transmitting, ⟨keeps.queue, keeps.removed, keeps.orders⟩, plays⟩

end Station

namespace Link

variable {link : Link} {side : Side}

/-- IDLE, BREAK and an ACK are heard. -/
def turnover (side : Side) (idle breaks answer : Reception) : List LinkEvent :=
  [.hears side.other idle, .hears side breaks, .hears side.other answer]

/-- After the end of a transmission the other side sends, where it has data. -/
theorem Resting.turnover (resting : link.Resting side) {settings : Side → Settings}
    (autoBreak : (settings side.other).autoBreak = true)
    (unbroken : (link.station side).blnBREAKCmd = false)
    (awake : (link.station side.other).blnDISCRepeating = false)
    (unasked : (link.station side.other).blnARQDisconnect = false)
    (waits : 0 < (link.station side.other).bytDataToSend.length)
    (idle breaks answer : Reception) :
    ∃ next, runFrom (step settings) link (Link.turnover side idle breaks answer) = some next ∧
      next.Transmission side.other ∧
      Station.Keeps (link.station side) (next.station side) ∧
      Station.Keeps (link.station side.other) (next.station side.other) := by
  obtain ⟨sound, rests, listens, air⟩ := resting
  obtain ⟨asks, asksKeeps, plays⟩ :=
    listens.hearsIdle autoBreak awake unasked waits idle rfl
  obtain ⟨first, hearsIdle, firstSound, firstAir, firstOther, firstSide⟩ :=
    sound.hears settings side.other (by rw [Side.other_other]; exact air) idle plays
  rw [Side.other_other] at firstSide
  rw [← firstOther] at asks asksKeeps
  rw [← firstSide] at rests unbroken
  obtain ⟨listening, keeps, plays⟩ := rests.hearsBreak (settings side) unbroken breaks rfl
  obtain ⟨second, hearsBreak, secondSound, secondAir, secondSide, secondOther⟩ :=
    firstSound.hears settings side firstAir breaks plays
  rw [← secondSide] at listening keeps
  rw [← secondOther] at asks asksKeeps
  rw [← asksKeeps.queue] at waits
  obtain ⟨transmits, sendKeeps, plays⟩ := asks.hearsACK (secondSound.sound side.other)
    (settings side.other) waits 100 answer rfl
  obtain ⟨third, hearsACK, thirdSound, thirdAir, thirdOther, thirdSide⟩ :=
    secondSound.hears settings side.other (by rw [Side.other_other]; exact secondAir)
      answer plays
  rw [Side.other_other] at thirdSide
  rw [← thirdOther] at transmits sendKeeps thirdAir
  rw [← thirdSide] at listening keeps
  rw [firstSide] at keeps
  refine ⟨third, ?_, ⟨thirdSound, transmits, ?_, thirdAir⟩, keeps, asksKeeps.trans sendKeeps⟩
  · rw [Link.turnover, runFrom_cons_eq_some]
    refine ⟨first, hearsIdle, ?_⟩
    rw [runFrom_cons_eq_some]
    refine ⟨second, hearsBreak, ?_⟩
    rw [runFrom_cons_eq_some]
    exact ⟨third, hearsACK, rfl⟩
  · rw [Side.other_other]
    exact listening

/-- As soon as the channel loses nothing, the queues of both sides are delivered: that
of the side that sends, and then that of the other, if it has data and `AutoBreak` is
set. -/
theorem both_delivered {settings : Side → Settings} {strTargetCall : CString}
    {caller called : Station} (callerRests : caller.protocolState = .disc)
    (calledRests : called.protocolState = .disc) {events : List LinkEvent} {link : Link}
    (reached : runFrom (step settings) (start settings strTargetCall caller called) events =
      some link) (transmits : (link.station side).Transmits)
    (listens : (link.station side.other).Listens)
    (air : link.air = some (side, (link.station side).bytEncodedBytes))
    (autoBreak : (settings side.other).autoBreak = true)
    (unbroken : (link.station side).blnBREAKCmd = false)
    (awake : (link.station side.other).blnDISCRepeating = false)
    (unasked : (link.station side.other).blnARQDisconnect = false)
    (waits : 0 < (link.station side.other).bytDataToSend.length)
    {there back : List (Reception × Reception)}
    (decoded : ∀ exchange ∈ there ++ back, exchange.1.blnFrameDecodedOK = true)
    (thereEnough : (link.station side).bytDataToSend.length ≤ there.length)
    (backEnough : (link.station side.other).bytDataToSend.length ≤ back.length)
    (idle breaks answer : Reception) :
    ∃ first second, first <+: there ∧ second <+: back ∧
      ∃ final, runFrom (step settings) link
          (exchanges side first ++ (Link.turnover side idle breaks answer ++
            exchanges side.other second)) = some final ∧
        (final.station side.other).journal.passed =
          (link.station side).journal.removed ++ (link.station side).bytDataToSend ∧
        (final.station side).journal.passed =
          (link.station side.other).journal.removed ++
            (link.station side.other).bytDataToSend := by
  have sound := sound_of_run callerRests calledRests reached
  obtain ⟨first, firstWithin, middle, firstRun, resting, gone⟩ :=
    Transmission.ends settings
      (fun exchange among => decoded exchange (List.mem_append_left _ among))
      ⟨sound, transmits, listens, air⟩ thereEnough
  have kept := gone.keeps
  have orders := kept.orders
  simp only [Station.orders, Prod.mk.injEq] at orders
  have stillUnbroken := congrArg Prod.fst gone.orders
  obtain ⟨turned, turnRun, transmission, sideKeeps, otherKeeps⟩ :=
    resting.turnover autoBreak (stillUnbroken.trans unbroken) (orders.2.2.1.trans awake)
      (orders.2.1.trans unasked) (by rw [kept.queue]; exact waits) idle breaks answer
  have queue := otherKeeps.queue.trans kept.queue
  obtain ⟨second, secondWithin, final, secondRun, ended, came⟩ :=
    Transmission.ends settings
      (fun exchange among => decoded exchange (List.mem_append_right _ among))
      transmission (by rw [queue]; exact backEnough)
  refine ⟨first, second, firstWithin, secondWithin, final, ?_, ?_, ?_⟩
  · rw [runFrom_append, firstRun, Option.bind_some, runFrom_append, turnRun,
      Option.bind_some]
    exact secondRun
  · have listening := ended.listens
    have keeps := came.keeps
    rw [Side.other_other] at listening keeps
    have settled := ended.sound.passed_of_free (listening.free (ended.sound.sound side))
    rw [settled, keeps.removed, sideKeeps.removed]
    have books := gone.books
    rw [Station.books, resting.rests.empty, List.append_nil] at books
    exact books
  · have passed := ended.passed
    rw [Side.other_other] at passed
    exact passed.trans (came.books.trans (otherKeeps.books.trans kept.books))

theorem both_delivered_greeting :
    let begins := greeting.take 5 ++ [.acts .called (.addDataToDataToSend [33])]
    ∃ link events final,
      runFrom (step greeters)
          (start greeters (.ofLiteral "N1CALL") .initial .initial) begins = some link ∧
        runFrom (step greeters) link events = some final ∧
        (final.station .called).journal.passed = [72, 105] ∧
        (final.station .caller).journal.passed = [33] := by
  intro begins
  let heard : Reception := ⟨true, 80, false⟩
  have sends : (runFrom (step greeters)
      (start greeters (.ofLiteral "N1CALL") .initial .initial) begins).map (fun link =>
        decide ((link.station .caller).Transmits ∧ (link.station .called).Listens ∧
          link.air = some (.caller, (link.station .caller).bytEncodedBytes) ∧
          (link.station .caller).blnBREAKCmd = false ∧
          (link.station .called).orders = (false, false, false, false) ∧
          (link.station .caller).journal.removed = [] ∧
          (link.station .caller).bytDataToSend = [72, 105] ∧
          (link.station .called).journal.removed = [] ∧
          (link.station .called).bytDataToSend = [33])) = some true := by
    decide +kernel
  obtain ⟨link, reached, holds⟩ := Option.map_eq_some_iff.mp sends
  obtain ⟨transmits, listens, air, unbroken, orders, removed, queue, otherRemoved,
    otherQueue⟩ := of_decide_eq_true holds
  simp only [Station.orders, Prod.mk.injEq] at orders
  obtain ⟨first, second, -, -, final, run, there, back⟩ :=
    @both_delivered .caller greeters (.ofLiteral "N1CALL") .initial .initial rfl rfl
      begins link reached transmits listens air rfl unbroken orders.2.2.1 orders.2.1
      (by rw [Side.other, otherQueue]; decide) [(heard, heard), (heard, heard)]
      [(heard, heard)] (by decide) (by rw [queue]; decide)
      (by rw [Side.other, otherQueue]; decide) heard heard heard
  rw [removed, queue] at there
  rw [Side.other, otherRemoved, otherQueue] at back
  exact ⟨link, _, final, reached, run, there, back⟩

end Link

end Ardop
end Hamchat
