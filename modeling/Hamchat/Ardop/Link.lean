import Hamchat.Ardop.Sessions
import Hamchat.Foundation.TurnWidth

/-!
# Two stations on one channel

A station calls another one that is in state DISC.  The channel carries one frame
at a time: a frame is heard by the other station, is lost, or is lost because
another frame is played.  Anything may happen in any order.

In every run, what a station passes to its host is what the other station has
taken from its queue as acknowledged, and at most the data frame besides that
waits for its answer.
-/

namespace Hamchat
namespace Ardop

open Foundation (Party Role Signal runFrom Always)

/-! ## Taking part -/

namespace Station

/-- A station that is not in state DISC is not off. -/
theorem role_ne_off {station : Station} (on : station.protocolState ≠ .disc) :
    station.role ≠ .off := by
  intro off
  rw [role] at off
  split at off
  · contradiction
  · split at off <;> cases off
  · cases off
  · split at off <;> cases off
  · cases off

/-- A station takes part that neither waits for a ConAck nor has called. -/
theorem Phase.takesPart {station : Station} (phase : station.Phase)
    (on : station.protocolState ≠ .disc)
    (joined : station.protocolState = .irs → station.arqState ≠ .irsConAck)
    (called : station.role ≠ .calling ∧ station.role ≠ .confirming) :
    station.role.TakesPart := by
  cases phase with
  | off state => exact absurd state on
  | calling state substate => exact absurd (role_calling state substate) called.1
  | confirming state substate => exact absurd (role_confirming state substate) called.2
  | leading state substate => exact .inl (role_leading state substate)
  | idle state => exact .inl (role_idle state)
  | answering state substate => exact absurd substate (joined state)
  | following state substate => exact .inr (.inl (role_following state substate))
  | turning state => exact .inr (.inr (role_turning state))

end Station

/-! ## The channel -/

/-- The station that calls and the one that is called. -/
inductive Side where
  | caller
  | called
  deriving DecidableEq

def Side.other : Side → Side
  | .caller => .called
  | .called => .caller

@[simp]
theorem Side.other_other (side : Side) : side.other.other = side := by
  cases side <;> rfl

theorem Side.other_ne (side : Side) : side.other ≠ side := by
  cases side <;> decide

theorem Side.eq_or_eq_other (first second : Side) : first = second ∨ first = second.other := by
  cases first <;> cases second <;> decide

/-- Two stations and the frame that is on the air, with the side that plays it. -/
structure Link where
  station : Side → Station
  air : Option (Side × AirFrame)

/-- What happens on a link. -/
inductive LinkEvent where
  /-- The host or a timer of one side. -/
  | acts (side : Side) (event : StationEvent)
  /-- The frame on the air reaches one side. -/
  | hears (side : Side) (reception : Reception)
  /-- The frame on the air is lost. -/
  | loses

namespace Link

/-- One side has reacted.  The channel is free after a frame that was heard, and
carries the frame that the side plays. -/
def put (link : Link) (side : Side) (heard : Bool) (next : Station) : Link where
  station other := if other = side then next else link.station other
  air :=
    match next.played with
    | some frame => some (side, frame)
    | none => if heard then none else link.air

/-- One event.  A frame reaches the station that has not played it. -/
def step (settings : Side → Settings) (link : Link) : LinkEvent → Option Link
  | .acts side event =>
      if event.heard.isSome then none
      else some (link.put side false ((link.station side).react (settings side) event))
  | .hears side reception =>
      match link.air with
      | some (sender, frame) =>
          if sender = side then none
          else
            some (link.put side true
              ((link.station side).react (settings side)
                (.processNewSamples frame reception)))
      | none => none
  | .loses => some { link with air := none }

/-- The link after a call. -/
def start (settings : Side → Settings) (strTargetCall : CString)
    (caller called : Station) : Link :=
  let caller := caller.opened.sendARQConnectRequest (settings .caller) strTargetCall
  { station := fun
      | .caller => caller
      | .called => called.opened
    air := caller.played.map fun frame => (.caller, frame) }

/-- The signal of a side that is on the air. -/
def signal (link : Link) (side : Side) : Option (Signal UInt8 Nat UInt8) :=
  (link.air.filter fun sent => sent.1 = side).map fun sent => sent.2.signal

/-- What holds between any two events of a link. -/
structure Sound (link : Link) : Prop where
  sound : ∀ side, (link.station side).Sound
  fits : ∀ side frame, link.air = some (side, frame) → frame.Fits
  agree : ∀ side, Party.Agree oddType (link.station side).party
    (link.station side.other).party (link.signal side) (link.signal side.other)
  width : Party.SameWidth (link.station .caller).party (link.station .called).party
    (link.signal .caller) (link.signal .called)

variable {link : Link}

theorem signal_of_air {side : Side} {frame : AirFrame}
    (air : link.air = some (side, frame)) : link.signal side = some frame.signal := by
  rw [signal, air]
  simp [Option.filter]

/-- Two sides agree if one side agrees with the other. -/
theorem agree_of_side (side : Side)
    (agree : Party.Agree oddType (link.station side).party
      (link.station side.other).party (link.signal side) (link.signal side.other))
    (every : Side) :
    Party.Agree oddType (link.station every).party (link.station every.other).party
      (link.signal every) (link.signal every.other) := by
  rcases every.eq_or_eq_other side with rfl | rfl
  · exact agree
  · rw [Side.other_other]
    exact agree.symm

theorem signal_put (side : Side) (heard : Option (Signal UInt8 Nat UInt8)) (next : Station) :
    (link.put side heard.isSome next).signal side =
        Party.nextMine (link.signal side) heard (next.played.map AirFrame.signal) ∧
      (link.put side heard.isSome next).signal side.other =
        Party.nextYours (link.signal side.other) heard
          (next.played.map AirFrame.signal) := by
  cases played : next.played with
  | some frame =>
      have other := side.other_ne.symm
      cases heard <;> simp [signal, put, played, Option.filter, Party.nextMine,
        Party.nextYours, other]
  | none =>
      cases heard <;> simp [signal, put, played, Party.nextMine, Party.nextYours]

/-- A step of one side keeps the link sound. -/
theorem Sound.put (sound : link.Sound) (side : Side)
    {heard : Option (Signal UInt8 Nat UInt8)} {next : Station}
    (steps : Station.Steps (link.station side) heard next)
    (hears : ∀ signal, heard = some signal → link.signal side.other = some signal) :
    (link.put side heard.isSome next).Sound where
  sound every := by
    rw [Link.put]
    dsimp only
    split
    · exact steps.sound
    · exact sound.sound every
  fits every frame air := by
    cases played : next.played with
    | some other =>
        simp only [Link.put, played, Option.some.injEq, Prod.mk.injEq] at air
        exact steps.fits frame (played.trans (congrArg some air.2))
    | none =>
        simp only [Link.put, played] at air
        split at air
        · cases air
        · exact sound.fits every frame air
  agree := by
    apply agree_of_side side
    have agree := (sound.agree side).acts steps.acts hears
    obtain ⟨mine, yours⟩ := signal_put side heard next
    have same : (link.put side heard.isSome next).station side = next := if_pos rfl
    have other : (link.put side heard.isSome next).station side.other =
        link.station side.other := if_neg side.other_ne
    rw [mine, yours, same, other]
    exact agree
  width := by
    obtain ⟨mine, yours⟩ := signal_put side heard next
    cases side with
    | caller =>
        have width := sound.width.calls (sound.agree .caller) steps.acts hears
        rw [← mine, show Side.called = Side.caller.other from rfl, ← yours] at width
        exact width
    | called =>
        have width := sound.width.isCalled (sound.agree .caller) steps.acts hears
        rw [← mine, show Side.caller = Side.called.other from rfl, ← yours] at width
        exact width

/-- Every event keeps a link sound. -/
theorem Sound.step (sound : link.Sound) (settings : Side → Settings) (event : LinkEvent)
    {next : Link} (stepped : link.step settings event = some next) : next.Sound := by
  cases event with
  | acts side event =>
      rw [Link.step] at stepped
      split at stepped
      · cases stepped
      · next silent =>
          obtain rfl := Option.some.inj stepped
          have none : event.heard = none := by simpa using silent
          have steps := (sound.sound side).react (settings side) event
          rw [none] at steps
          exact sound.put side steps (by simp)
  | hears side reception =>
      rw [Link.step] at stepped
      split at stepped
      · next sender frame air =>
          split at stepped
          · cases stepped
          · next other =>
              obtain rfl := Option.some.inj stepped
              obtain rfl := (sender.eq_or_eq_other side).resolve_left other
              have steps := (sound.sound side).react (settings side)
                (.processNewSamples frame reception)
              apply sound.put side steps
              rintro signal same
              rw [signal_of_air air]
              exact same
      · cases stepped
  | loses =>
      obtain rfl := Option.some.inj stepped
      have width := sound.width
      refine ⟨sound.sound, ?_, fun side => (sound.agree side).hushed,
        ⟨width.caller, width.called, nofun, nofun, nofun, width.same⟩⟩
      rintro _ _ ⟨⟩

/-! ## A greeting -/

/-- The settings of the two stations of a greeting. -/
def greeters : Side → Settings
  | .caller => .initial "N0CALL"
  | .called => .initial "N1CALL"

/-- A session in which the caller sends two bytes. -/
def greeting : List LinkEvent :=
  let heard : Reception := ⟨true, 80, false⟩
  [.hears .called heard, .hears .caller heard, .hears .called heard,
    .acts .caller (.addDataToDataToSend [72, 105]), .hears .caller heard,
    .hears .called heard]

/-! ## Runs -/

section Run

variable {settings : Side → Settings} {strTargetCall : CString} {caller called : Station}

/-- A link is sound after a call. -/
theorem start_sound (settings : Side → Settings) (strTargetCall : CString)
    (callerRests : caller.protocolState = .disc)
    (calledRests : called.protocolState = .disc) :
    (start settings strTargetCall caller called).Sound := by
  obtain ⟨sound, passed, removed, calls⟩ :=
    Station.sendARQConnectRequest_spec (settings .caller) strTargetCall
      (show caller.opened.protocolState = .disc from callerRests)
      (Station.opened_balanced caller) rfl
  have rests : called.opened.role = .off := Station.role_off calledRests
  have yours :
      (start settings strTargetCall caller called).signal Side.caller.other = none := by
    rw [signal, start]
    rcases calls with ⟨-, silent⟩ | ⟨-, sent, played, -⟩
    · rw [silent]
      rfl
    · rw [played]
      rfl
  have mine : (start settings strTargetCall caller called).signal .caller = none ∨
      (start settings strTargetCall caller called).signal .caller = some .call ∧
        (caller.opened.sendARQConnectRequest (settings .caller) strTargetCall).role =
          .calling := by
    rw [signal, start]
    rcases calls with ⟨-, silent⟩ | ⟨calling, sent, played, call, -⟩
    · rw [silent]
      exact .inl rfl
    · rw [played, ← call]
      exact .inr ⟨rfl, calling⟩
  have callerRole :
      (caller.opened.sendARQConnectRequest (settings .caller) strTargetCall).role =
          .calling ∨
        (caller.opened.sendARQConnectRequest (settings .caller) strTargetCall).role =
          .off := by
    rcases calls with ⟨off, -⟩ | ⟨calling, -⟩
    · exact .inr off
    · exact .inl calling
  constructor
  · intro side
    cases side with
    | caller => exact sound
    | called => exact ⟨Station.opened_balanced called, .off calledRests⟩
  · intro side frame air
    rw [start] at air
    rcases calls with ⟨-, silent⟩ | ⟨-, sent, played, -, fits⟩
    · rw [silent] at air
      cases air
    · rw [played] at air
      cases air
      exact fits
  · apply agree_of_side .caller
    rw [yours]
    exact .start callerRole rests mine removed.symm passed
  · rw [show Side.called = Side.caller.other from rfl, yours]
    exact .start callerRole rests (mine.imp_right And.left)

/-- A link is sound in every run. -/
theorem sound_of_run (callerRests : caller.protocolState = .disc)
    (calledRests : called.protocolState = .disc) {events : List LinkEvent} {link : Link}
    (reached : runFrom (step settings) (start settings strTargetCall caller called) events =
      some link) : link.Sound := by
  have always : Always (step settings) (start settings strTargetCall caller called)
      (fun _ link => link.Sound) events :=
    .of_step _ (start_sound settings strTargetCall callerRests calledRests)
      fun _ _ event _ sound stepped => sound.step settings event stepped
  exact always.final reached

/-- Whatever frames are lost and whatever the hosts and the timers do: what a station
passes to its host are bytes that the host of the other has queued, in their order
and each once.  They are those that have left the queue of the other as acknowledged,
and at most the data frame besides that waits for its answer.  Where nothing has been
thrown away with the queue, they are the first bytes that were queued. -/
theorem passed_of_run (callerRests : caller.protocolState = .disc)
    (calledRests : called.protocolState = .disc) {events : List LinkEvent} {link : Link}
    (reached : runFrom (step settings) (start settings strTargetCall caller called) events =
      some link) (side : Side) :
    ((link.station side.other).journal.passed = (link.station side).journal.removed ∨
        ∃ bytFrameType bytData,
          (link.station side).journal.offered = some (bytFrameType, bytData) ∧
            (link.station side.other).journal.passed =
              (link.station side).journal.removed ++ bytData) ∧
      (link.station side.other).journal.passed.Sublist
        (link.station side).journal.queued ∧
      ((link.station side).journal.discarded = 0 →
        (link.station side.other).journal.passed <+:
          (link.station side).journal.queued) := by
  have sound := sound_of_run callerRests calledRests reached
  have balanced := (sound.sound side).balanced
  have passed := (sound.agree side).passed
  refine ⟨passed, ?_⟩
  rcases passed with same | ⟨bytFrameType, bytData, offered, same⟩
  · have same : (link.station side.other).journal.passed =
        (link.station side).journal.removed := same
    rw [same]
    refine ⟨(List.sublist_append_left _ _).trans balanced.kept, fun none => ?_⟩
    rw [← balanced.whole none]
    exact List.prefix_append _ _
  · have same : (link.station side.other).journal.passed =
        (link.station side).journal.removed ++ bytData := same
    rw [same]
    exact balanced.out bytFrameType bytData offered

theorem passed_of_run_greeting :
    ∃ link, runFrom (step greeters)
          (start greeters (.ofLiteral "N1CALL") .initial .initial) greeting = some link ∧
      (link.station .called).journal.passed = [72, 105] ∧
      (link.station .called).journal.passed.Sublist
        (link.station .caller).journal.queued := by
  have ends : (runFrom (step greeters)
      (start greeters (.ofLiteral "N1CALL") .initial .initial) greeting).map
        (fun link => (link.station .called).journal.passed) = some [72, 105] := by
    decide +kernel
  obtain ⟨link, reached, same⟩ := Option.map_eq_some_iff.mp ends
  exact ⟨link, reached, same, (passed_of_run rfl rfl reached .caller).2.1⟩

/-- The two stations never lead at the same time. -/
theorem one_sends (callerRests : caller.protocolState = .disc)
    (calledRests : called.protocolState = .disc) {events : List LinkEvent} {link : Link}
    (reached : runFrom (step settings) (start settings strTargetCall caller called) events =
      some link) :
    ¬∀ side, (link.station side).protocolState = .iss ∨
      (link.station side).protocolState = .idle := by
  intro both
  have sound := sound_of_run callerRests calledRests reached
  apply (sound.agree .caller).one_leads
  exact ⟨Station.role_of_iss_or_idle (both .caller),
    Station.role_of_iss_or_idle (both .called)⟩

theorem one_sends_greeting :
    ∃ link, runFrom (step greeters)
          (start greeters (.ofLiteral "N1CALL") .initial .initial) greeting = some link ∧
      (link.station .called).protocolState ≠ .iss := by
  have ends : (runFrom (step greeters)
      (start greeters (.ofLiteral "N1CALL") .initial .initial) greeting).map
        (fun link => (link.station .caller).protocolState) = some ArdopState.iss := by
    decide +kernel
  obtain ⟨link, reached, same⟩ := Option.map_eq_some_iff.mp ends
  exact ⟨link, reached, fun leads => one_sends rfl rfl reached fun side =>
    match side with
    | .caller => .inl same
    | .called => .inl leads⟩

/-- Two stations with a session, of which the one that is called has received the
ConAck of the other, use the same bandwidth. -/
theorem same_bandwidth (callerRests : caller.protocolState = .disc)
    (calledRests : called.protocolState = .disc) {events : List LinkEvent} {link : Link}
    (reached : runFrom (step settings) (start settings strTargetCall caller called) events =
      some link) (callerOn : (link.station .caller).protocolState ≠ .disc)
    (calledOn : (link.station .called).protocolState ≠ .disc)
    (joined : (link.station .called).protocolState = .irs →
      (link.station .called).arqState ≠ .irsConAck) :
    (link.station .called).intSessionBW = (link.station .caller).intSessionBW := by
  have sound := sound_of_run callerRests calledRests reached
  exact sound.width.same (Station.role_ne_off callerOn)
    ((sound.sound .called).phase.takesPart calledOn joined sound.width.called)

theorem same_bandwidth_greeting :
    ∃ link, runFrom (step greeters)
          (start greeters (.ofLiteral "N1CALL") .initial .initial) greeting = some link ∧
      (link.station .caller).intSessionBW = 2000 ∧
      (link.station .called).intSessionBW = (link.station .caller).intSessionBW := by
  have ends : (runFrom (step greeters)
      (start greeters (.ofLiteral "N1CALL") .initial .initial) greeting).map
        (fun link => ((link.station .caller).intSessionBW,
          (link.station .caller).protocolState, (link.station .called).protocolState,
          (link.station .called).arqState)) =
      some (2000, .iss, .irs, .irsData) := by
    decide +kernel
  obtain ⟨link, reached, same⟩ := Option.map_eq_some_iff.mp ends
  simp only [Prod.mk.injEq] at same
  obtain ⟨width, caller, called, substate⟩ := same
  refine ⟨link, reached, width, same_bandwidth rfl rfl reached ?_ ?_ fun _ => ?_⟩
  · rw [caller]
    decide
  · rw [called]
    decide
  · rw [substate]
    decide

end Run

end Link

end Ardop
end Hamchat
