import Hamchat.Network.Runs

/-!
# Messages to a channel

`do_privmsg` is meant to let the members of a channel speak that are not muted.
It asks whether the sender is a member, but the variable for the answer starts as
true, and the one for the mute is never set.
-/

namespace Hamchat

open Foundation

/-! ## Membership -/

namespace Network

variable (network : Network δ) (directory : Directory δ)

/-- `Channel::IsMuted`, where the argument tells `is_muted` of the record at an
address. -/
def isMuted (muted : Nat → Bool) (channel id : Nat) : Option Bool := do
  match ← network.findMember directory channel id with
  | none => some false
  | some mp => some (muted mp)

end Network

/-! ## Speech -/

namespace HandlerCall

variable (call : HandlerCall δ)

/-- The call is for a message to a channel. -/
structure Addresses (target msg : CString) : Prop where
  /-- `char *target = argv[2]` -/
  targetEq : call.argv[2]? = some target
  /-- `char *msg = argv[3]` -/
  msgEq : call.argv[3]? = some msg
  /-- `target[0] == '#'` -/
  isChannel : target.bytes.head? = some 35

/-- The channel exists, and the sender is a member that is not muted. -/
def MaySpeakIn (muted : Nat → Bool) (target : CString) (chptr : Nat) : Prop :=
  call.findChannel (some target) = some (some chptr) ∧
    call.network.isMember call.directory chptr call.self = some true ∧
    call.network.isMuted call.directory muted chptr call.self = some false

/-- The sender may speak. -/
def MaySpeak (muted : Nat → Bool) (target : CString) : Prop :=
  ∃ chptr, call.MaySpeakIn muted target chptr

/-- The channel relays the text of a sender that may speak, whose time of the last
message is updated.  Any other sender is told 404, and that is all. -/
structure SpeaksExactly (muted : Nat → Bool) (isNotice : Bool)
    (target msg : CString) : Prop where
  /-- A sender that may speak. -/
  relays : ∀ chptr, call.MaySpeakIn muted target chptr →
    (call.speech isNotice target msg).relayed = some (chptr,
        call.messageStart isNotice ++ [target, .ofLiteral " :", msg]) ∧
      call.doPrivmsg isNotice = call.messageSent []
  /-- A sender that may not. -/
  refuses : ¬call.MaySpeak muted target →
    (call.speech isNotice target msg).relayed = none ∧
      call.doPrivmsg isNotice = call.answer false [call.cannotSend target]

variable {call} {muted : Nat → Bool} {isNotice : Bool} {target msg : CString}

/-- The answer of `IsMember` decides nothing. -/
theorem speech_of_found {chptr : Nat} {found : Bool}
    (channel : call.findChannel (some target) = some (some chptr))
    (asked :
      call.network.isMember call.directory chptr call.self = some found) :
    call.speech isNotice target msg =
      ⟨some (chptr, call.messageStart isNotice ++
        [target, .ofLiteral " :", msg]), call.messageSent []⟩ := by
  rw [speech, channel]
  dsimp only
  rw [asked]
  cases found <;> rfl

theorem doPrivmsg_eq_speech (addresses : call.Addresses target msg) :
    call.doPrivmsg isNotice = (call.speech isNotice target msg).outcome := by
  rw [doPrivmsg, addresses.targetEq]
  dsimp only
  rw [addresses.msgEq]
  dsimp only
  exact if_pos addresses.isChannel

/-- A message to a channel is never refused without a read through NULL. -/
theorem speech_ne_refusal :
    (call.speech isNotice target msg).outcome ≠
      call.answer false [call.cannotSend target] := by
  intro refused
  cases channel : call.findChannel (some target) with
  | none =>
      rw [speech, channel] at refused
      cases congrArg Outcome.ending refused
  | some found =>
      cases found with
      | none =>
          rw [speech, channel] at refused
          cases congrArg Outcome.touchedNull refused
      | some chptr =>
          cases asked : call.network.isMember call.directory chptr
              call.self with
          | none =>
              rw [speech, channel] at refused
              dsimp only at refused
              rw [asked] at refused
              cases congrArg Outcome.ending refused
          | some found =>
              rw [speech_of_found channel asked] at refused
              cases congrArg Outcome.sent refused

/-- A message to a channel is handled as it should be exactly if the sender may
speak in the channel. -/
theorem speaksExactly_iff (call : HandlerCall δ) (muted : Nat → Bool)
    (isNotice : Bool) {target msg : CString}
    (addresses : call.Addresses target msg) :
    call.SpeaksExactly muted isNotice target msg ↔
      call.MaySpeak muted target := by
  constructor
  · intro exactly
    by_contra forbidden
    have refused := (exactly.refuses forbidden).2
    rw [doPrivmsg_eq_speech addresses] at refused
    exact speech_ne_refusal refused
  · intro allowed
    refine ⟨fun chptr may => ?_, fun forbidden => absurd allowed forbidden⟩
    rw [doPrivmsg_eq_speech addresses, speech_of_found may.1 may.2.1]
    exact ⟨rfl, rfl⟩

end HandlerCall

/-! ## A run -/

/-- Two clients register, and the first one joins a channel. -/
def gathering : List (NetworkEvent (List (CString × Nat))) :=
  [.connect 0 4 .zeroed 0, .connect 1 5 .zeroed 0] ++
    typed 0 4 (.ofLiteral "NICK W1AW\r\n") (quietSurroundings .empty) ++
    typed 1 5 (.ofLiteral "NICK N0CALL\r\n") (quietSurroundings .empty) ++
    typed 0 4 (.ofLiteral "JOIN #hf\r\n") (quietSurroundings .empty)

/-- `PRIVMSG #hf :hi` from one of them. -/
def greet (network : Network (List (CString × Nat))) (id : Nat) :
    HandlerCall (List (CString × Nat)) :=
  listServer.call (quietSurroundings .empty) network id
    ⟨.mPrivmsg, 2, [(network.clients id).callsign, .ofLiteral "PRIVMSG",
      .ofLiteral "#hf", .ofLiteral "hi"]⟩

theorem greet_addresses (network : Network (List (CString × Nat))) (id : Nat) :
    (greet network id).Addresses (.ofLiteral "#hf") (.ofLiteral "hi") :=
  ⟨rfl, rfl, by decide +kernel⟩

theorem HandlerCall.speaksExactly_iff_gathering :
    ∃ network, runFrom (Network.advance listServer)
        (.start listServer.directory) gathering = some network ∧
      ((greet network 0).SpeaksExactly (fun _ => false) false
          (.ofLiteral "#hf") (.ofLiteral "hi") ↔
        (greet network 0).MaySpeak (fun _ => false) (.ofLiteral "#hf")) := by
  have returns : (runFrom (Network.advance listServer)
      (.start listServer.directory) gathering).isSome = true := by
    decide +kernel
  obtain ⟨network, reached⟩ := Option.isSome_iff_exists.mp returns
  exact ⟨network, reached,
    HandlerCall.speaksExactly_iff _ _ _ (greet_addresses network 0)⟩

/-- Somebody who has not joined a channel speaks in it. -/
theorem outsider_speaks :
    ∃ network, runFrom (Network.advance listServer)
        (.start listServer.directory) gathering = some network ∧
      (greet network 1).Addresses (.ofLiteral "#hf") (.ofLiteral "hi") ∧
      (greet network 1).findMember 0 1 = some none ∧
      ∀ muted, ¬(greet network 1).SpeaksExactly muted false
        (.ofLiteral "#hf") (.ofLiteral "hi") := by
  have outside : (runFrom (Network.advance listServer)
      (.start listServer.directory) gathering).any (fun network =>
        decide ((greet network 1).findChannel (some (.ofLiteral "#hf")) =
            some (some 0)) &&
          decide ((greet network 1).findMember 0 1 = some none)) = true := by
    decide +kernel
  obtain ⟨network, reached, outside⟩ := (Option.any_eq_true _ _).mp outside
  rw [Bool.and_eq_true, decide_eq_true_iff, decide_eq_true_iff] at outside
  obtain ⟨channel, stranger⟩ := outside
  have addresses := greet_addresses network 1
  have notMember : network.isMember listServer.directory 0 1 = some false :=
    congrArg (Option.map Option.isSome) stranger
  refine ⟨network, reached, addresses, stranger, fun muted exactly => ?_⟩
  have forbidden : ¬(greet network 1).MaySpeak muted (.ofLiteral "#hf") := by
    rintro ⟨chptr, found, member, -⟩
    obtain rfl : 0 = chptr := Option.some.inj (Option.some.inj
      (channel.symm.trans found))
    cases notMember.symm.trans member
  have silent := (exactly.refuses forbidden).1
  rw [HandlerCall.speech_of_found channel notMember] at silent
  cases silent

end Hamchat
