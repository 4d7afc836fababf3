import Hamchat.Network.Changes

/-!
# Who is sent what

A command is answered to its sender.  It reaches another client only as a message
of PRIVMSG or NOTICE to the client that is found under the target, under the name
that the server has for the sender.  INVITE would reach one too, but no member of a
channel is ever its operator unless the memory of its record says so.
-/

namespace Hamchat

open Foundation

/-! ## Handlers -/

/-- Everything that a handler sends goes to one client. -/
def Outcome.OnlyTo (outcome : Outcome δ) (id : Nat) : Prop :=
  ∀ delivery ∈ outcome.sent, delivery.recipient = id

namespace Outcome.OnlyTo

variable {outcome : Outcome δ} {id : Nat}

theorem undefined : (Outcome.undefined [] : Outcome δ).OnlyTo id :=
  List.forall_mem_nil _

theorem after {sent : List Delivery} {result : Option α} {next : α → Outcome δ}
    (own : ∀ delivery ∈ sent, delivery.recipient = id)
    (later : ∀ value, (next value).OnlyTo id) :
    (Outcome.after sent result next).OnlyTo id := by
  cases result with
  | none => exact own
  | some value => exact later value

theorem afterNothing {result : Option α} {next : α → Outcome δ}
    (later : ∀ value, (next value).OnlyTo id) :
    (Outcome.after [] result next).OnlyTo id :=
  after (List.forall_mem_nil _) later

end Outcome.OnlyTo

namespace HandlerCall

variable {call : HandlerCall δ}

theorem onlyTo_answer {value : Bool} {sent : List Delivery}
    (own : ∀ delivery ∈ sent, delivery.recipient = call.self) :
    (call.answer value sent).OnlyTo call.self :=
  own

/-- A single line to the sender. -/
theorem onlyTo_numeric (value : Bool) (numeric : Nat) (pieces : List CString) :
    (call.answer value [call.numeric numeric pieces]).OnlyTo call.self :=
  List.forall_mem_singleton.mpr rfl

theorem recipient_welcome (callsign : CString) :
    ∀ delivery ∈ call.welcome callsign, delivery.recipient = call.self := by
  simp [welcome, numeric]

theorem recipient_sendConnectNumerics (client : Client) :
    ∀ delivery ∈ (call.sendConnectNumerics client).2,
      delivery.recipient = call.self := by
  rw [sendConnectNumerics]
  split
  · simp [numeric, line]
  · exact recipient_welcome _

theorem recipient_nickReply (newCall : CString) :
    ∀ delivery ∈ (call.nickReply newCall).2, delivery.recipient = call.self := by
  rw [nickReply]
  split
  · simp [line]
  split
  · exact recipient_sendConnectNumerics _
  · exact List.forall_mem_nil _

theorem onlyTo_mNick : call.mNick.OnlyTo call.self := by
  rw [mNick]
  split
  · cases call.argv[2]? with
    | none => exact onlyTo_numeric _ _ _
    | some newCall =>
        have mine := call.recipient_nickReply newCall
        dsimp only
        split
        · exact onlyTo_numeric _ _ _
        refine .afterNothing fun owner => ?_
        cases owner with
        | some other => exact onlyTo_numeric _ _ _
        | none =>
            dsimp only
            split
            · rename_i sent replied
              rw [replied] at mine
              exact .after mine fun _ => mine
            · rename_i sent replied
              rw [replied] at mine
              exact mine
  · exact onlyTo_numeric _ _ _

theorem onlyTo_mUser : call.mUser.OnlyTo call.self := by
  rw [mUser]
  dsimp only
  split
  · exact onlyTo_numeric _ _ _
  split
  · have mine := call.recipient_sendConnectNumerics
      (call.object.client.markUser call.argv)
    split
    · rename_i sent accepted
      rw [accepted] at mine
      exact mine
    · rename_i sent refused
      rw [refused] at mine
      exact mine
  · exact List.forall_mem_nil _

theorem onlyTo_mPass : call.mPass.OnlyTo call.self := by
  rw [mPass]
  dsimp only
  split
  · exact onlyTo_numeric _ _ _
  split
  · exact onlyTo_numeric _ _ _
  · exact List.forall_mem_nil _

theorem onlyTo_recordMember (network : Network δ) (channel : Nat) :
    (call.recordMember network channel).OnlyTo call.self := by
  rw [recordMember]
  refine .afterNothing fun next => ?_
  dsimp only
  split
  · exact List.forall_mem_singleton.mpr rfl
  · simp [Outcome.OnlyTo, Outcome.reply, numeric]

theorem onlyTo_addUser (network : Network δ) (channel : Nat) :
    (call.addUser network channel).OnlyTo call.self := by
  have recorded := call.onlyTo_recordMember network channel
  rw [addUser]
  refine .afterNothing fun found => ?_
  cases found with
  | none => exact recorded
  | some record =>
      dsimp only
      split
      · split
        · exact List.forall_mem_nil _
        · exact recorded
      · split
        · exact List.forall_mem_nil _
        · exact recorded

theorem onlyTo_joinChannel (network : Network δ) (channel : Nat) :
    (call.joinChannel network channel).OnlyTo call.self := by
  rw [joinChannel]
  split
  · exact List.forall_mem_singleton.mpr rfl
  split
  · exact List.forall_mem_singleton.mpr rfl
  · exact onlyTo_addUser network channel

theorem onlyTo_mJoin : call.mJoin.OnlyTo call.self := by
  rw [mJoin]
  split
  · exact List.forall_mem_nil _
  split
  · exact .undefined
  split
  · exact List.forall_mem_nil _
  split
  · exact List.forall_mem_nil _
  refine .afterNothing fun found => ?_
  cases found with
  | some channel => exact onlyTo_joinChannel _ _
  | none => exact .afterNothing fun made => onlyTo_joinChannel _ _

theorem recipient_nameLines (target : CString) (records : List Nat) :
    ∀ delivery ∈ call.nameLines target records,
      delivery.recipient = call.self := by
  induction records with
  | nil => exact List.forall_mem_nil _
  | cons record rest inductionHypothesis =>
      rw [nameLines]
      split
      · exact List.forall_mem_nil _
      · exact List.forall_mem_cons.mpr ⟨rfl, inductionHypothesis⟩

theorem onlyTo_mNames : call.mNames.OnlyTo call.self := by
  rw [mNames]
  split
  · exact onlyTo_numeric _ _ _
  split
  · exact onlyTo_numeric _ _ _
  refine .afterNothing fun found => ?_
  cases found with
  | none => exact onlyTo_numeric _ _ _
  | some channel =>
      exact .afterNothing fun records => onlyTo_answer (List.forall_mem_append.mpr
        ⟨recipient_nameLines _ _, List.forall_mem_singleton.mpr rfl⟩)

theorem onlyTo_mAway : call.mAway.OnlyTo call.self := by
  rw [mAway]
  dsimp only
  split
  · split
    · exact .undefined
    · exact List.forall_mem_singleton.mpr rfl
  · exact List.forall_mem_singleton.mpr rfl

theorem onlyTo_mPing : call.mPing.OnlyTo call.self := by
  rw [mPing]
  split
  · exact List.forall_mem_singleton.mpr rfl
  · exact List.forall_mem_nil _

theorem onlyTo_mPong : call.mPong.OnlyTo call.self := by
  rw [mPong]
  split
  · exact List.forall_mem_nil _
  · exact List.forall_mem_nil _

theorem onlyTo_operatorOnly {allowed : Outcome δ}
    (own : allowed.OnlyTo call.self) :
    (call.operatorOnly allowed).OnlyTo call.self := by
  rw [operatorOnly]
  split
  · exact own
  · exact onlyTo_numeric _ _ _

theorem recipient_killMissing (callsign reason : Option CString) :
    ∀ delivery ∈ call.killMissing callsign reason,
      delivery.recipient = call.self := by
  rw [killMissing]
  split
  · exact List.forall_mem_singleton.mpr rfl
  · exact List.forall_mem_nil _

theorem onlyTo_mKill : call.mKill.OnlyTo call.self := by
  have missing := call.recipient_killMissing call.argv[3]? call.argv[4]?
  have more (delivery : Delivery) (own : delivery.recipient = call.self) :
      ∀ each ∈ call.killMissing call.argv[3]? call.argv[4]? ++ [delivery],
        each.recipient = call.self :=
    List.forall_mem_append.mpr ⟨missing, List.forall_mem_singleton.mpr own⟩
  rw [mKill]
  split
  · exact onlyTo_answer (more _ rfl)
  refine .after missing fun found => ?_
  cases found with
  | none => exact onlyTo_answer (more _ rfl)
  | some target =>
      dsimp only
      rw [killClient]
      exact .after (more _ rfl) fun _ => more _ rfl

theorem onlyTo_mWhois : call.mWhois.OnlyTo call.self := by
  rw [mWhois]
  dsimp only
  split
  · exact onlyTo_numeric _ _ _
  refine .afterNothing fun found => ?_
  cases found with
  | none => exact onlyTo_numeric _ _ _
  | some acptr =>
      refine onlyTo_answer ?_
      simp only [List.forall_mem_append]
      refine ⟨⟨⟨⟨?_, ?_⟩, ?_⟩, ?_⟩, ?_⟩
      · simp [numeric]
      · split <;> simp [numeric]
      · simp [numeric]
      · split <;> simp [numeric]
      · simp [numeric]

theorem onlyTo_inform (handler : Handler) (value : Bool) :
    (call.inform handler value).OnlyTo call.self := by
  intro delivery among
  obtain ⟨message, -, rfl⟩ := List.mem_map.mp among
  rfl

/-- A message of PRIVMSG or NOTICE to the client that the target names, from the
sender as the server knows it. -/
def Speaks (call : HandlerCall δ) (handler : Handler) (delivery : Delivery) :
    Prop :=
  ∃ isNotice target msg,
    handler = (if isNotice then .mNotice else .mPrivmsg) ∧
      call.argv[2]? = some target ∧ call.argv[3]? = some msg ∧
      target.bytes.head? ≠ some 35 ∧
      call.findClient (some target) = some (some delivery.recipient) ∧
      delivery.message = ⟨none, call.messageStart isNotice ++
        [(call.network.clients delivery.recipient).callsign, .ofLiteral " :", msg]⟩

/-- What goes to the sender, and at most one message to somebody else. -/
def Routes (call : HandlerCall δ) (handler : Handler) (sent : List Delivery) :
    Prop :=
  ∃ own others, sent = own ++ others ∧
    (∀ delivery ∈ own, delivery.recipient = call.self) ∧
    (others = [] ∨ ∃ delivery, others = [delivery] ∧ call.Speaks handler delivery)

theorem Routes.of_onlyTo {handler : Handler} {outcome : Outcome δ}
    (own : outcome.OnlyTo call.self) : call.Routes handler outcome.sent :=
  ⟨outcome.sent, [], (List.append_nil _).symm, own, .inl rfl⟩

theorem routes_doPrivmsg {isNotice : Bool} {handler : Handler}
    (named : handler = if isNotice then .mNotice else .mPrivmsg) :
    call.Routes handler (call.doPrivmsg isNotice).sent := by
  rw [doPrivmsg]
  cases given : call.argv[2]? with
  | none => exact .of_onlyTo (onlyTo_numeric _ _ _)
  | some target =>
      cases text : call.argv[3]? with
      | none => exact .of_onlyTo (onlyTo_numeric _ _ _)
      | some msg =>
          dsimp only
          split
          · rw [speech_outcome]
            refine .of_onlyTo (.afterNothing fun found => ?_)
            cases found with
            | none => exact List.forall_mem_singleton.mpr rfl
            | some channel => exact .afterNothing fun _ => List.forall_mem_nil _
          · rename_i person
            cases search : call.findClient (some target) with
            | none => exact .of_onlyTo .undefined
            | some found =>
                cases found with
                | none => exact .of_onlyTo (onlyTo_numeric _ _ _)
                | some dcptr =>
                    refine ⟨_, [⟨dcptr, _⟩], rfl, ?_, .inr ⟨_, rfl, isNotice, target,
                      msg, named, given, text, person, search, rfl⟩⟩
                    split
                    · exact List.forall_mem_nil _
                    · exact List.forall_mem_singleton.mpr rfl

/-- A member that is no operator of the channel invites nobody. -/
theorem onlyTo_mInvite
    (noOp : ∀ record, (call.network.records record).hasOp = false) :
    call.mInvite.OnlyTo call.self := by
  rw [mInvite]
  refine .afterNothing fun found => ?_
  cases found with
  | none => exact onlyTo_numeric _ _ _
  | some channel =>
      refine .afterNothing fun member => ?_
      cases member with
      | none => exact onlyTo_numeric _ _ _
      | some record =>
          dsimp only
          rw [noOp record, Bool.not_false, if_pos rfl]
          exact onlyTo_numeric _ _ _

/-- What every handler of the command table sends. -/
theorem routes_handle (noOp : ∀ record, (call.network.records record).hasOp = false)
    (handler : Handler) : call.Routes handler (call.handle handler).sent := by
  have silent (value : Bool) : (call.answer value []).OnlyTo call.self :=
    List.forall_mem_nil _
  cases handler with
  | mAway => exact .of_onlyTo onlyTo_mAway
  | mDie | mRehash | mStats | mWhowas =>
      exact .of_onlyTo (onlyTo_operatorOnly (silent _))
  | mInvite => exact .of_onlyTo (onlyTo_mInvite noOp)
  | mJoin => exact .of_onlyTo onlyTo_mJoin
  | mKill => exact .of_onlyTo onlyTo_mKill
  | mList =>
      refine .of_onlyTo ?_
      rw [handle, mList]
      split
      · exact onlyTo_inform _ _
      · exact silent _
  | mNames => exact .of_onlyTo onlyTo_mNames
  | mNick => exact .of_onlyTo onlyTo_mNick
  | mNotice => exact routes_doPrivmsg rfl
  | mPrivmsg => exact routes_doPrivmsg rfl
  | mPart =>
      refine .of_onlyTo ?_
      rw [handle, mPart]
      split
      · exact silent _
      · exact .undefined
  | mPass => exact .of_onlyTo onlyTo_mPass
  | mPing => exact .of_onlyTo onlyTo_mPing
  | mPong => exact .of_onlyTo onlyTo_mPong
  | mQuit => exact .of_onlyTo (.afterNothing fun _ => List.forall_mem_nil _)
  | mUser => exact .of_onlyTo onlyTo_mUser
  | mWhois => exact .of_onlyTo onlyTo_mWhois
  | mCap | mOper => exact .of_onlyTo (onlyTo_numeric _ _ _)
  | mAdmin | mHelp | mInfo | mLusers | mTime | mVersion =>
      exact .of_onlyTo (onlyTo_inform _ _)
  | mKick | mMode | mMotd | mTopic | mUserhost | mWho => exact .of_onlyTo (silent _)

/-- A handler adds no operator to a channel. -/
theorem Made.noOp {next : Network δ} (made : call.Made next)
    (fresh : call.surroundings.record.hasOp = false)
    (noOp : ∀ record, (call.network.records record).hasOp = false) :
    ∀ record, (next.records record).hasOp = false := by
  induction made with
  | same | client | callsign => exact noOp
  | channel created =>
      obtain ⟨-, table, same⟩ := Network.newChannel_eq_some created
      rw [same]
      exact noOp
  | @member before _ _ _ added kept =>
      obtain ⟨members, rfl⟩ := Network.addMember_eq_some added
      intro record
      dsimp only
      by_cases new : record = before.recordCount
      · rw [new, Function.update_self]
        exact fresh
      · rw [Function.update_of_ne new]
        exact kept record
  | delete deleted =>
      obtain ⟨-, byFd, byCallsign, -, -, rfl⟩ := Network.delete_eq_some deleted
      exact noOp

end HandlerCall

/-! ## Runs -/

/-- The memory of a new member record says that it is no operator. -/
def NetworkEvent.NoOp : NetworkEvent δ → Prop
  | .connect .. | .receive .. => True
  | .parse _ surroundings => surroundings.record.hasOp = false

instance : (event : NetworkEvent δ) → Decidable event.NoOp
  | .connect .. | .receive .. => instDecidableTrue
  | .parse .. => inferInstanceAs (Decidable (_ = _))

/-- The client that an event belongs to, unless it is found by its descriptor. -/
def NetworkEvent.actor : NetworkEvent δ → Option Nat
  | .connect id .. | .parse id _ => some id
  | .receive .. => none

namespace Network

variable {network next : Network δ} {server : NetworkServer δ}
variable {event : NetworkEvent δ}

/-- No member of a channel is its operator. -/
def WithoutOps (network : Network δ) : Prop :=
  ∀ record, (network.records record).hasOp = false

theorem WithoutOps.advance (noOp : network.WithoutOps) (plain : event.NoOp)
    (advanced : network.advance server event = some next) : next.WithoutOps := by
  cases event with
  | connect id fd memory now =>
      obtain ⟨-, byFd, -, rfl⟩ := connect_eq_some advanced
      exact noOp
  | receive fd recv freed =>
      rcases receive_eq_some advanced with
        rfl | ⟨reader, -, ⟨sock, -, rfl⟩ | deleted⟩
      · exact noOp
      · exact noOp
      · obtain ⟨-, byFd, byCallsign, -, -, rfl⟩ := delete_eq_some deleted
        exact noOp
  | parse reader surroundings =>
      obtain ⟨sock, ⟨-, rfl⟩ | ⟨handed, value, after, -, ran, -, rfl⟩⟩ :=
        advance_parse_eq_some advanced
      · exact noOp
      · exact (HandlerCall.Makes.handle handed.handler value after ran).noOp plain
          noOp

/-- A step sends lines to its own client, and at most one message of a command to
the client that the command names. -/
def Addresses (network : Network δ) (server : NetworkServer δ)
    (event : NetworkEvent δ) : Prop :=
  ∃ own others, (network.step server event).sent = own ++ others ∧
    (∀ delivery ∈ own, event.actor = some delivery.recipient) ∧
    (others = [] ∨ ∃ id surroundings handed delivery,
      event = .parse id surroundings ∧
        (network.clients id).client.command (network.clients id).sock =
          some handed ∧
        others = [delivery] ∧
        (server.call surroundings network id handed).Speaks handed.handler delivery)

theorem WithoutOps.addresses (noOp : network.WithoutOps)
    (server : NetworkServer δ) (event : NetworkEvent δ) :
    network.Addresses server event := by
  have onlyOwn (own : ∀ delivery ∈ (network.step server event).sent,
      event.actor = some delivery.recipient) : network.Addresses server event :=
    ⟨_, [], (List.append_nil _).symm, own, .inl rfl⟩
  cases event with
  | connect id fd memory now =>
      refine onlyOwn ?_
      rw [step]
      dsimp only
      split
      · simp [greeting, NetworkEvent.actor]
      · exact List.forall_mem_nil _
  | receive fd recv freed => exact onlyOwn (List.forall_mem_nil _)
  | parse id surroundings =>
      cases returned : network.parse server id surroundings with
      | none =>
          refine onlyOwn ?_
          rw [step, returned]
          exact List.forall_mem_nil _
      | some parsed =>
          obtain ⟨-, handedEq, -⟩ := parse_eq_some returned
          have sent : (network.step server (.parse id surroundings)).sent =
              network.parseSent server id surroundings parsed := by
            rw [step, returned]
          cases hands : parsed.handed with
          | none =>
              refine onlyOwn ?_
              rw [sent, parseSent, hands]
              intro delivery among
              obtain ⟨text, -, rfl⟩ := List.mem_map.mp among
              rfl
          | some handed =>
              obtain ⟨own, others, split, mine, foreign⟩ :=
                @HandlerCall.routes_handle _
                  (server.call surroundings network id handed) noOp handed.handler
              refine ⟨own, others, ?_, fun delivery among => ?_, ?_⟩
              · rw [sent, parseSent_of_handed hands, split]
              · rw [mine delivery among]
                rfl
              · rcases foreign with none | ⟨delivery, single, speaks⟩
                · exact .inl none
                · exact .inr ⟨id, surroundings, handed, delivery, rfl,
                    handedEq.symm.trans hands, single, speaks⟩

/-- In every run in which no member record is made with the flag of an operator,
each step sends lines to its own client only, except for at most one message,
which goes to the client that PRIVMSG or NOTICE names and comes from the callsign,
the user name and the host name that the server has for the sender.  So nobody is
ever invited, and nobody can speak under another name. -/
theorem messages_are_authentic (server : NetworkServer δ)
    {events : List (NetworkEvent δ)} (noOp : ∀ event ∈ events, event.NoOp) :
    EachCall (Network.advance server) (.start server.directory)
      (fun network event => network.Addresses server event) events := by
  have always : Always (Network.advance server) (.start server.directory)
      (fun _ network => network.WithoutOps) events := by
    refine Always.of_eachStep _ (fun _ => rfl) ?_
      (show EachStep _ _ (fun _ event => event.NoOp) events from ?_)
    · exact fun _ state event next _ before advanced plain =>
        before.advance plain advanced
    · exact fun past event within _ _ _ _ => noOp event (within.subset (by simp))
  exact fun past event within network reached =>
    (always past ((List.prefix_append _ _).trans within) network reached).addresses
      server event

end Network

/-- Two clients take callsigns, and one of them sends the other a message. -/
def conversation : List (NetworkEvent (List (CString × Nat))) :=
  [.connect 0 4 .zeroed 0, .connect 1 5 .zeroed 0] ++
    typed 0 4 (.ofLiteral "NICK W1AW\r\n") (quietSurroundings .empty) ++
    typed 1 5 (.ofLiteral "NICK N0CALL\r\n") (quietSurroundings .empty) ++
    typed 0 4 (.ofLiteral "PRIVMSG N0CALL :hi\r\n") (quietSurroundings .empty)

theorem Network.messages_are_authentic_conversation :
    EachCall (Network.advance listServer) (.start listServer.directory)
      (fun network event => network.Addresses listServer event) conversation :=
  Network.messages_are_authentic listServer (by decide)

end Hamchat
