import Hamchat.Ardop.Link

/-!
# The end of a transmission

While the channel loses nothing, a data frame and its ACK take bytes from the queue
of the station that sends.  The length of the queue falls with each exchange, so the
queue is empty after at most as many exchanges as it has bytes, and then the other
station has passed all of them to its host.  Where that one has data of its own, it
takes the lead by BREAK and its queue is delivered in the same way.
-/

namespace Hamchat
namespace Ardop

open Foundation (runFrom runFrom_cons_eq_some)

namespace Station

/-- A station that sends its queue and has nothing else to do. -/
structure Transmits (station : Station) : Prop where
  state : station.protocolState = .iss
  substate : station.arqState = .issData
  awake : station.blnDISCRepeating = false
  unasked : station.blnARQDisconnect = false
  punctual : station.blnTimeoutTriggered = false

/-- A station that has come to the end of its queue. -/
structure Rests (station : Station) : Prop where
  state : station.protocolState = .idle
  awake : station.blnDISCRepeating = false
  unasked : station.blnARQDisconnect = false
  punctual : station.blnTimeoutTriggered = false
  empty : station.bytDataToSend = []

/-- A station that asks for the lead. -/
structure AsksLead (station : Station) : Prop where
  state : station.protocolState = .irsToISS
  awake : station.blnDISCRepeating = false
  unasked : station.blnARQDisconnect = false
  punctual : station.blnTimeoutTriggered = false

/-- A station that receives and has nothing else to do. -/
structure Listens (station : Station) : Prop where
  state : station.protocolState = .irs
  substate : station.arqState = .irsData ∨ station.arqState = .irsFromISS
  unbroken : station.blnBREAKCmd = false
  punctual : station.blnTimeoutTriggered = false

/-- What the host has asked for, and whether DISC is repeated. -/
def orders (station : Station) : Bool × Bool × Bool × Bool :=
  (station.blnBREAKCmd, station.blnARQDisconnect, station.blnDISCRepeating,
    station.blnAbort)

/-- The queue, the books and the orders of a station are as they were. -/
structure Keeps (station next : Station) : Prop where
  queue : next.bytDataToSend = station.bytDataToSend
  removed : next.journal.removed = station.journal.removed
  orders : next.orders = station.orders

/-- The bytes that have been acknowledged and those that wait. -/
def books (station : Station) : List UInt8 :=
  station.journal.removed ++ station.bytDataToSend

variable {station next : Station}

theorem Keeps.trans {last : Station} (first : Keeps station next)
    (second : Keeps next last) : Keeps station last where
  queue := second.queue.trans first.queue
  removed := second.removed.trans first.removed
  orders := second.orders.trans first.orders

theorem Keeps.books (keeps : Keeps station next) : next.books = station.books := by
  rw [Station.books, Station.books, keeps.queue, keeps.removed]

instance : Decidable station.Transmits :=
  decidable_of_iff
    (station.protocolState = .iss ∧ station.arqState = .issData ∧
      station.blnDISCRepeating = false ∧ station.blnARQDisconnect = false ∧
      station.blnTimeoutTriggered = false)
    ⟨fun ⟨state, substate, awake, unasked, punctual⟩ =>
        ⟨state, substate, awake, unasked, punctual⟩,
      fun transmits => ⟨transmits.state, transmits.substate, transmits.awake,
        transmits.unasked, transmits.punctual⟩⟩

instance : Decidable station.Listens :=
  decidable_of_iff
    (station.protocolState = .irs ∧
      (station.arqState = .irsData ∨ station.arqState = .irsFromISS) ∧
      station.blnBREAKCmd = false ∧ station.blnTimeoutTriggered = false)
    ⟨fun ⟨state, substate, unbroken, punctual⟩ => ⟨state, substate, unbroken, punctual⟩,
      fun listens => ⟨listens.state, listens.substate, listens.unbroken,
        listens.punctual⟩⟩

/-! ## The station that receives -/

/-- A data frame that is decoded is answered with an ACK. -/
theorem Listens.processDataFrame (listens : station.Listens) (frame : AirFrame)
    (reception : Reception) :
    (station.processDataFrame frame reception).Listens ∧
      Keeps station (station.processDataFrame frame reception) ∧
      (station.processDataFrame frame reception).played =
        some { bytFrameType := dataACK reception.quality } := by
  have noBreak : ¬(station.arqState = .irsData ∧ station.blnBREAKCmd = true ∧
      frame.bytFrameType ≠ station.bytLastACKedDataFrameType) := by
    rintro ⟨-, breaks, -⟩
    rw [listens.unbroken] at breaks
    cases breaks
  have passes : (station.passToHost frame).Listens ∧
      Keeps station (station.passToHost frame) := by
    rw [passToHost]
    split
    · exact ⟨listens, rfl, rfl, rfl⟩
    · exact ⟨⟨listens.state, listens.substate, listens.unbroken, listens.punctual⟩,
        rfl, rfl, rfl⟩
  obtain ⟨passes, keeps⟩ := passes
  rw [Station.processDataFrame, if_neg noBreak, completeChange_eq passes.substate]
  exact ⟨⟨passes.state, .inl rfl, passes.unbroken, passes.punctual⟩,
    ⟨keeps.queue, keeps.removed, keeps.orders⟩, rfl⟩

theorem Listens.processRcvdARQFrame (listens : station.Listens) (settings : Settings)
    (frame : AirFrame) (reception : Reception) :
    station.processRcvdARQFrame settings frame reception =
      station.processIRSData settings frame reception := by
  rw [Station.processRcvdARQFrame, listens.state]
  rcases listens.substate with substate | substate <;> rw [substate]

theorem Listens.processNewSamples (listens : station.Listens) (settings : Settings)
    {frame : AirFrame} (data : frame.bytFrameType ∈ dataFrameTypes)
    {reception : Reception} (decoded : reception.blnFrameDecodedOK = true) :
    station.processNewSamples settings frame reception =
      station.processDataFrame frame reception := by
  obtain ⟨isData, -, high, -, -⟩ := dataFrameTypes_spec _ data
  obtain ⟨long, -, -⟩ := kinds_exclude frame.bytFrameType
  obtain ⟨long, -, noConnect⟩ := long isData
  obtain ⟨info, known, -⟩ := frameInfo_dataFrame data settings.packet
  have notControl (bytFrameType : UInt8) (control : isDataFrame bytFrameType = false) :
      frame.bytFrameType ≠ bytFrameType := by
    intro same
    rw [same, control] at isData
    cases isData
  have notTurning : station.protocolState ≠ .irsToISS := by
    rw [listens.state]
    decide
  have notPacket : frame.bytFrameType ≠ pktFrameData := by
    intro same
    rw [same] at high
    exact absurd high (by decide)
  rw [Station.processNewSamples]
  simp only [known, long, listens.unbroken, notTurning, Option.isNone_some, false_and,
    Bool.false_eq_true, if_false, processFrame, notPacket, listens.punctual, false_or,
    listens.processRcvdARQFrame]
  simp only [processIRSData, noConnect, decoded, isData, notControl discFrame rfl,
    notControl endFrame rfl, notControl breakFrame rfl, notControl idleFrame rfl,
    Bool.false_eq_true, if_false, and_false, and_self, if_true]

/-- A station that listens goes on listening after a data frame. -/
theorem Listens.hearsData (listens : station.Listens) (settings : Settings)
    {frame : AirFrame} (data : frame.bytFrameType ∈ dataFrameTypes)
    {reception : Reception} (decoded : reception.blnFrameDecodedOK = true) :
    (station.react settings (.processNewSamples frame reception)).Listens ∧
      Keeps station (station.react settings (.processNewSamples frame reception)) ∧
      (station.react settings (.processNewSamples frame reception)).played =
        some { bytFrameType := dataACK reception.quality } := by
  have still : { station with played := none }.Listens :=
    ⟨listens.state, listens.substate, listens.unbroken, listens.punctual⟩
  obtain ⟨listening, keeps, answers⟩ := still.processDataFrame frame reception
  rw [← still.processNewSamples settings data decoded] at listening keeps answers
  exact ⟨listening, ⟨keeps.queue, keeps.removed, keeps.orders⟩, answers⟩

/-! ## The station that sends -/

/-- A short control frame goes to `ProcessRcvdARQFrame`, except for an ACK in state
IRStoISS. -/
theorem react_short (settings : Settings) {bytFrameType : UInt8}
    (short : isShortControlFrame bytFrameType = true)
    (known : (frameInfo settings.packet bytFrameType).isNone = false)
    (other : station.protocolState ≠ .irsToISS)
    (punctual : station.blnTimeoutTriggered = false) (reception : Reception) :
    station.react settings (.processNewSamples { bytFrameType } reception) =
      { station with played := none }.processRcvdARQFrame settings { bytFrameType }
        { reception with blnFrameDecodedOK := true } := by
  have notPacket : bytFrameType ≠ pktFrameData := by
    rintro rfl
    exact absurd short (by decide)
  rw [react, Station.processNewSamples]
  simp only [known, short, other, Bool.false_eq_true, if_false, if_true, false_and,
    processFrame, notPacket, punctual, false_or]

/-- An ACK is a short control frame that `FrameInfo` knows. -/
theorem ack_spec (settings : Settings) (quality : Nat) :
    isShortControlFrame (dataACK quality) = true ∧
      (frameInfo settings.packet (dataACK quality)).isNone = false := by
  obtain ⟨ack, -⟩ := dataACK_spec quality
  refine ⟨by simp [isShortControlFrame, ack], ?_⟩
  rw [frameInfo, if_pos (.inr ack)]
  rfl

theorem Transmits.processRcvdARQFrame (transmits : station.Transmits) (settings : Settings)
    {frame : AirFrame} (ack : 0xE0 ≤ frame.bytFrameType) {reception : Reception}
    (decoded : reception.blnFrameDecodedOK = true) :
    station.processRcvdARQFrame settings frame reception =
      station.processACK settings frame.bytFrameType := by
  rw [Station.processRcvdARQFrame, transmits.state, processISS, transmits.substate,
    processISSData, checkForDisconnect, transmits.unasked]
  simp only [Bool.false_eq_true, if_false, decoded, Bool.not_true, ack, if_true]

/-- An ACK takes the bytes of the data frame from the queue. -/
theorem Offering.credited (offering : station.Offering) (geared : station.Geared)
    (intFrameType : UInt8) :
    (station.creditACK intFrameType).bytDataToSend =
        station.bytDataToSend.drop station.bytQDataInProcessLen ∧
      (station.creditACK intFrameType).books = station.books ∧
      (station.creditACK intFrameType).orders = station.orders ∧
      (station.creditACK intFrameType).blnTimeoutTriggered =
        station.blnTimeoutTriggered := by
  have some : station.bytQDataInProcessLen ≠ 0 := offering.some.ne'
  have acknowledged : station.acknowledged =
      { station with
        intACKctr := station.intACKctr + 1
        bytLastARQDataFrameAcked := station.bytLastARQDataFrameSent
        bytDataToSend := station.bytDataToSend.drop station.bytQDataInProcessLen
        bytQDataInProcessLen := 0
        journal :=
          { station.journal with
            removed := station.journal.removed ++
              station.bytDataToSend.take station.bytQDataInProcessLen
            offered := none } } := by
    rw [Station.acknowledged]
    dsimp only
    rw [if_pos some, removeDataFromQueue, if_neg some]
    rfl
  have counted : station.acknowledged.Geared := by
    rw [acknowledged]
    exact geared.alike rfl
  obtain ⟨⟨_, _, _, _, _, _, rated⟩, -⟩ :=
    counted.rated (38 + 2 * (intFrameType.toNat - 0xE0))
  rw [Station.creditACK, if_pos offering.sentData, rated, acknowledged]
  refine ⟨rfl, ?_, rfl, rfl⟩
  simp only [books, List.append_assoc, List.take_append_drop]

/-- A station plays its next data frame, or IDLE at the end of its queue. -/
def GoesOn (station : Station) : Prop :=
  station.Transmits ∧ station.played = some station.bytEncodedBytes ∨
    station.Rests ∧ station.played = some { bytFrameType := idleFrame }

theorem Transmits.sendDataFrame (transmits : station.Transmits) (geared : station.Geared)
    (settings : Settings) :
    (station.sendDataFrame settings).Transmits ∧
      Keeps station (station.sendDataFrame settings) ∧
      (station.sendDataFrame settings).played =
        some (station.sendDataFrame settings).bytEncodedBytes := by
  obtain ⟨pointer, bytFrameType, -, -, next, -⟩ := geared.getNextFrameData settings
  rw [Station.sendDataFrame, next]
  exact ⟨⟨transmits.state, rfl, transmits.awake, transmits.unasked, transmits.punctual⟩,
    ⟨rfl, rfl, rfl⟩, rfl⟩

theorem Transmits.sendData (transmits : station.Transmits) (geared : station.Geared)
    (settings : Settings) :
    (station.sendData settings).GoesOn ∧ Keeps station (station.sendData settings) := by
  by_cases some : 0 < station.bytDataToSend.length
  · rw [sendData_eq settings transmits.state transmits.awake transmits.unasked some]
    obtain ⟨goesOn, keeps, plays⟩ := transmits.sendDataFrame geared settings
    exact ⟨.inl ⟨goesOn, plays⟩, keeps⟩
  · have empty : station.bytDataToSend = [] :=
      List.eq_nil_of_length_eq_zero (Nat.eq_zero_of_not_pos some)
    rw [Station.sendData, if_neg (by simp [transmits.awake]), if_pos transmits.state,
      checkForDisconnect, if_neg (by simp [transmits.unasked])]
    simp only [if_neg some]
    rw [setARDOPProtocolState_idle (by rw [transmits.state]; decide)]
    refine ⟨.inr ⟨⟨rfl, transmits.awake, transmits.unasked, transmits.punctual, rfl⟩, rfl⟩,
      ⟨empty.symm, rfl, rfl⟩⟩

theorem Transmits.offering (transmits : station.Transmits) (sound : station.Sound) :
    station.Offering ∧ station.Geared := by
  rcases sound.phase.of_iss transmits.state with
    ⟨other, -⟩ | ⟨other, -⟩ | ⟨-, geared, offering⟩
  · cases transmits.substate.symm.trans other
  · cases transmits.substate.symm.trans other
  · refine ⟨offering.resolve_left ?_, geared⟩
    rw [transmits.awake]
    decide

theorem Listens.free (listens : station.Listens) (sound : station.Sound) :
    station.journal.offered = none :=
  (sound.phase.of_not_iss (by rw [listens.state]; decide)
    (by rw [listens.state]; decide)).1

theorem Rests.free (rests : station.Rests) (sound : station.Sound) :
    station.journal.offered = none :=
  (sound.phase.of_not_iss (by rw [rests.state]; decide) (by rw [rests.state]; decide)).1

/-- A station that transmits goes on with a shorter queue after an ACK. -/
theorem Transmits.hearsACK (transmits : station.Transmits) (sound : station.Sound)
    (settings : Settings) (quality : Nat) (reception : Reception)
    (reacts : station.react settings
      (.processNewSamples { bytFrameType := dataACK quality } reception) = next) :
    next.GoesOn ∧ next.books = station.books ∧ next.orders = station.orders ∧
      next.bytDataToSend.length < station.bytDataToSend.length := by
  have still : { station with played := none }.Transmits :=
    ⟨transmits.state, transmits.substate, transmits.awake, transmits.unasked,
      transmits.punctual⟩
  have sound : { station with played := none }.Sound :=
    ⟨sound.balanced, sound.phase.alike rfl rfl rfl rfl id⟩
  obtain ⟨offering, geared⟩ := still.offering sound
  obtain ⟨queue, books, orders, punctual⟩ := offering.credited geared (dataACK quality)
  obtain ⟨shifted, -, state, substate, awake, -⟩ :=
    creditACK_keeps geared sound.balanced (dataACK quality)
  have unasked : ({ station with played := none }.creditACK
      (dataACK quality)).blnARQDisconnect = station.blnARQDisconnect :=
    congrArg (fun orders => orders.2.1) orders
  have credited : { ({ station with played := none }.creditACK (dataACK quality)) with
      intNAKctr := 0, blnEnbARQRpt := false }.Transmits :=
    ⟨state.trans still.state, substate.trans still.substate, awake.trans still.awake,
      unasked.trans still.unasked, punctual.trans still.punctual⟩
  obtain ⟨goesOn, keeps⟩ := credited.sendData (shifted.alike rfl) settings
  have shorter : ({ station with played := none }.creditACK
      (dataACK quality)).bytDataToSend.length < station.bytDataToSend.length := by
    have some := offering.some
    have within := offering.within
    rw [queue, List.length_drop]
    exact Nat.sub_lt (some.trans_le within) some
  obtain ⟨ack, -⟩ := dataACK_spec quality
  obtain ⟨short, known⟩ := ack_spec settings quality
  have notTurning : station.protocolState ≠ .irsToISS := by
    rw [transmits.state]
    decide
  rw [← reacts, react_short settings short known notTurning transmits.punctual,
    still.processRcvdARQFrame settings ack rfl, processACK]
  refine ⟨goesOn, keeps.books.trans books, keeps.orders.trans orders, ?_⟩
  rw [keeps.queue]
  exact shorter

end Station

namespace Link

variable {link : Link}

/-- A frame on the air is heard and answered. -/
theorem Sound.hears (sound : link.Sound) (settings : Side → Settings) (side : Side)
    {frame answer : AirFrame} (air : link.air = some (side.other, frame))
    (reception : Reception)
    (played : ((link.station side).react (settings side)
      (.processNewSamples frame reception)).played = some answer) :
    ∃ next, link.step settings (.hears side reception) = some next ∧ next.Sound ∧
      next.air = some (side, answer) ∧
      next.station side = (link.station side).react (settings side)
        (.processNewSamples frame reception) ∧
      next.station side.other = link.station side.other := by
  have stepped : link.step settings (.hears side reception) =
      some (link.put side true ((link.station side).react (settings side)
        (.processNewSamples frame reception))) := by
    rw [Link.step, air]
    exact if_neg side.other_ne
  refine ⟨_, stepped, sound.step settings _ stepped, ?_, if_pos rfl, if_neg side.other_ne⟩
  rw [Link.put, played]

/-- A transmission: one side sends, the other receives, and the data frame is on the
air. -/
structure Transmission (link : Link) (side : Side) : Prop where
  sound : link.Sound
  transmits : (link.station side).Transmits
  listens : (link.station side.other).Listens
  air : link.air = some (side, (link.station side).bytEncodedBytes)

/-- The end of a transmission: the queue is empty, and IDLE is on the air. -/
structure Resting (link : Link) (side : Side) : Prop where
  sound : link.Sound
  rests : (link.station side).Rests
  listens : (link.station side.other).Listens
  air : link.air = some (side, { bytFrameType := idleFrame })

/-- What a transmission leaves as it is. -/
structure Continues (side : Side) (link next : Link) : Prop where
  books : (next.station side).books = (link.station side).books
  orders : (next.station side).orders = (link.station side).orders
  keeps : Station.Keeps (link.station side.other) (next.station side.other)

theorem Continues.trans {side : Side} {next last : Link} (first : Continues side link next)
    (second : Continues side next last) : Continues side link last where
  books := second.books.trans first.books
  orders := second.orders.trans first.orders
  keeps := first.keeps.trans second.keeps

/-- A data frame and its ACK are heard, again and again. -/
def exchanges (side : Side) : List (Reception × Reception) → List LinkEvent
  | [] => []
  | (frame, answer) :: rest =>
      .hears side.other frame :: .hears side answer :: exchanges side rest

variable {side : Side}

/-- One exchange of a transmission. -/
theorem Transmission.exchange (transmission : link.Transmission side)
    (settings : Side → Settings) {frame : Reception} (answer : Reception)
    (decoded : frame.blnFrameDecodedOK = true) :
    ∃ middle next, link.step settings (.hears side.other frame) = some middle ∧
      middle.step settings (.hears side answer) = some next ∧
      (next.station side).bytDataToSend.length <
        (link.station side).bytDataToSend.length ∧
      Continues side link next ∧ (next.Transmission side ∨ next.Resting side) := by
  obtain ⟨sound, transmits, listens, air⟩ := transmission
  obtain ⟨offering, -⟩ := transmits.offering (sound.sound side)
  have data : (link.station side).bytEncodedBytes.bytFrameType ∈ dataFrameTypes := by
    rw [offering.encoded]
    exact offering.data
  obtain ⟨listening, keeps, acknowledges⟩ :=
    listens.hearsData (settings side.other) data decoded
  obtain ⟨middle, first, middleSound, middleAir, replies, waits⟩ :=
    sound.hears settings side.other (by rw [Side.other_other]; exact air)
      frame acknowledges
  rw [Side.other_other] at waits
  obtain ⟨goesOn, books, orders, shorter⟩ := transmits.hearsACK (sound.sound side)
    (settings side) frame.quality answer rfl
  have plays : ∃ played, ((link.station side).react (settings side)
      (.processNewSamples { bytFrameType := dataACK frame.quality } answer)).played =
        some played := by
    rcases goesOn with ⟨-, plays⟩ | ⟨-, plays⟩
    · exact ⟨_, plays⟩
    · exact ⟨_, plays⟩
  obtain ⟨played, plays⟩ := plays
  rw [← waits] at plays
  obtain ⟨next, second, nextSound, nextAir, goes, stays⟩ :=
    middleSound.hears settings side middleAir answer plays
  rw [waits] at goes plays
  rw [replies] at stays
  refine ⟨middle, next, first, second, ?_, ⟨?_, ?_, ?_⟩, ?_⟩
  · rw [goes]
    exact shorter
  · rw [goes]
    exact books
  · rw [goes]
    exact orders
  · rw [stays]
    exact keeps
  · rcases goesOn with ⟨transmits, same⟩ | ⟨rests, same⟩
    · obtain rfl := Option.some.inj (plays.symm.trans same)
      refine .inl ⟨nextSound, ?_, ?_, ?_⟩
      · rw [goes]
        exact transmits
      · rw [stays]
        exact listening
      · rw [nextAir, goes]
    · obtain rfl := Option.some.inj (plays.symm.trans same)
      refine .inr ⟨nextSound, ?_, ?_, nextAir⟩
      · rw [goes]
        exact rests
      · rw [stays]
        exact listening

/-- A transmission comes to its end. -/
theorem Transmission.ends (settings : Side → Settings)
    {receptions : List (Reception × Reception)}
    (decoded : ∀ exchange ∈ receptions, exchange.1.blnFrameDecodedOK = true) :
    ∀ {link : Link}, link.Transmission side →
      (link.station side).bytDataToSend.length ≤ receptions.length →
      ∃ past, past <+: receptions ∧
        ∃ final, runFrom (step settings) link (exchanges side past) = some final ∧
          final.Resting side ∧ Continues side link final := by
  induction receptions with
  | nil =>
      intro link transmission short
      obtain ⟨offering, -⟩ := transmission.transmits.offering (transmission.sound.sound side)
      have some := offering.some.trans_le offering.within
      exact absurd short (Nat.not_le.mpr some)
  | cons exchange rest inductionHypothesis =>
      intro link transmission short
      obtain ⟨frame, answer⟩ := exchange
      obtain ⟨middle, next, first, second, shorter, continues, goesOn⟩ :=
        transmission.exchange settings answer (decoded _ List.mem_cons_self)
      have follows {past : List (Reception × Reception)} {final : Link}
          (run : runFrom (step settings) next (exchanges side past) = some final) :
          runFrom (step settings) link (exchanges side ((frame, answer) :: past)) =
            some final :=
        (runFrom_cons_eq_some _ _).mpr
          ⟨middle, first, (runFrom_cons_eq_some _ _).mpr ⟨next, second, run⟩⟩
      rcases goesOn with again | resting
      · have fewer : (next.station side).bytDataToSend.length ≤ rest.length :=
          Nat.le_of_lt_succ (shorter.trans_le short)
        obtain ⟨past, within, final, run, resting, later⟩ :=
          inductionHypothesis (fun exchange among =>
            decoded exchange (List.mem_cons_of_mem _ among)) again fewer
        exact ⟨(frame, answer) :: past, List.cons_prefix_cons.mpr ⟨rfl, within⟩, final,
          follows run, resting, continues.trans later⟩
      · exact ⟨[(frame, answer)], List.cons_prefix_cons.mpr ⟨rfl, List.nil_prefix⟩, next,
          follows rfl, resting, continues⟩

/-- What a side has sent that offers nothing has been passed on. -/
theorem Sound.passed_of_free (sound : link.Sound)
    (free : (link.station side).journal.offered = none) :
    (link.station side.other).journal.passed = (link.station side).journal.removed := by
  rcases (sound.agree side).passed with same | ⟨tag, items, offered, -⟩
  · exact same
  · cases free.symm.trans offered

/-- At the end of a transmission all is passed on. -/
theorem Resting.passed (resting : link.Resting side) :
    (link.station side.other).journal.passed = (link.station side).books := by
  have free := resting.rests.free (resting.sound.sound side)
  rw [Station.books, resting.rests.empty, List.append_nil]
  exact resting.sound.passed_of_free free

/-- As soon as the channel loses nothing, the whole queue of the side that sends is
delivered, in at most as many exchanges as it has bytes: then that side is in state
IDLE, and the other has passed on all that has ever been acknowledged or has waited,
a data frame that it had received before included only once. -/
theorem delivered_of_exchanges {settings : Side → Settings} {strTargetCall : CString}
    {caller called : Station} (callerRests : caller.protocolState = .disc)
    (calledRests : called.protocolState = .disc) {events : List LinkEvent} {link : Link}
    (reached : runFrom (step settings) (start settings strTargetCall caller called) events =
      some link) (transmits : (link.station side).Transmits)
    (listens : (link.station side.other).Listens)
    (air : link.air = some (side, (link.station side).bytEncodedBytes))
    {receptions : List (Reception × Reception)}
    (decoded : ∀ exchange ∈ receptions, exchange.1.blnFrameDecodedOK = true)
    (enough : (link.station side).bytDataToSend.length ≤ receptions.length) :
    ∃ past, past <+: receptions ∧
      ∃ final, runFrom (step settings) link (exchanges side past) = some final ∧
        (final.station side).protocolState = .idle ∧
        (final.station side.other).journal.passed =
          (link.station side).journal.removed ++ (link.station side).bytDataToSend := by
  have sound := sound_of_run callerRests calledRests reached
  obtain ⟨past, within, final, run, resting, continues⟩ :=
    Transmission.ends settings decoded ⟨sound, transmits, listens, air⟩ enough
  exact ⟨past, within, final, run, resting.rests.state,
    resting.passed.trans continues.books⟩

theorem delivered_of_exchanges_greeting :
    let heard : Reception := ⟨true, 80, false⟩
    let begins := greeting.take 5
    ∃ link past final,
      runFrom (step greeters)
          (start greeters (.ofLiteral "N1CALL") .initial .initial) begins = some link ∧
        past <+: [(heard, heard), (heard, heard)] ∧
        runFrom (step greeters) link (exchanges .caller past) = some final ∧
        (final.station .caller).protocolState = .idle ∧
        (final.station .called).journal.passed = [72, 105] := by
  intro heard begins
  have sends : (runFrom (step greeters)
      (start greeters (.ofLiteral "N1CALL") .initial .initial) begins).map (fun link =>
        decide ((link.station .caller).Transmits ∧ (link.station .called).Listens ∧
          link.air = some (.caller, (link.station .caller).bytEncodedBytes) ∧
          (link.station .caller).journal.removed = [] ∧
          (link.station .caller).bytDataToSend = [72, 105])) = some true := by
    decide +kernel
  obtain ⟨link, reached, holds⟩ := Option.map_eq_some_iff.mp sends
  obtain ⟨transmits, listens, air, removed, queue⟩ := of_decide_eq_true holds
  obtain ⟨past, within, final, run, state, passed⟩ :=
    @delivered_of_exchanges .caller greeters (.ofLiteral "N1CALL") .initial .initial rfl rfl
      begins link reached transmits listens air [(heard, heard), (heard, heard)]
      (by decide) (by rw [queue]; decide)
  rw [removed, queue] at passed
  exact ⟨link, past, final, reached, within, run, state, passed⟩

end Link

end Ardop
end Hamchat
