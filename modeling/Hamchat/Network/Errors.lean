import Hamchat.Network.Handlers

/-!
# Error numerics

A handler that reports an error should have done nothing else.  Most handlers
return as they report.  `m_kill` goes on after its first report, and
`do_privmsg` reports that a channel is missing after it has used it.
-/

namespace Hamchat

/-- The clients, their tables and the members of the channels are as before.  A
channel that has been made has no members. -/
structure Network.Untouched (directory : Directory δ)
    (before after : Network δ) : Prop where
  /-- `Clients_by_fd` -/
  clientsByFd : after.clientsByFd = before.clientsByFd
  /-- `Clients_by_callsign` -/
  clientsByCallsign : after.clientsByCallsign = before.clientsByCallsign
  /-- The live clients. -/
  alive : after.alive = before.alive
  /-- `conn_state`, `callsign`, `username`, `realname` and `pass`. -/
  client : ∀ id, (after.clients id).client = (before.clients id).client
  /-- `away_msg` -/
  awayMsg : ∀ id, (after.clients id).awayMsg = (before.clients id).awayMsg
  /-- The members of the channels that there were. -/
  members : ∀ channel < before.channelCount,
    (after.channels channel).members = (before.channels channel).members
  /-- The members of a channel that has been made. -/
  made : ∀ channel, before.channelCount ≤ channel →
    channel < after.channelCount →
      (after.channels channel).members = directory.ready directory.null
  /-- The records of the members. -/
  records : after.records = before.records

theorem Network.Untouched.refl (directory : Directory δ)
    (network : Network δ) : network.Untouched directory network where
  clientsByFd := rfl
  clientsByCallsign := rfl
  alive := rfl
  client _ := rfl
  awayMsg _ := rfl
  members _ _ := rfl
  made _ old new := absurd new (Nat.not_lt.mpr old)
  records := rfl

/-- A new channel leaves the clients and the other channels alone. -/
theorem Network.Untouched.newChannel {directory : Directory δ}
    {network : Network δ} {surroundings : Surroundings δ} {id : Nat}
    {name : CString} {made : Nat × Network δ}
    (created : network.newChannel directory surroundings id name = some made) :
    network.Untouched directory made.2 := by
  obtain ⟨-, table, same⟩ := Network.newChannel_eq_some created
  rw [same]
  refine ⟨rfl, rfl, rfl, fun _ => rfl, fun _ => rfl, ?_, ?_, rfl⟩
  · intro channel old
    dsimp only
    rw [Function.update_of_ne (Nat.ne_of_lt old)]
  · intro channel old new
    obtain rfl : channel = network.channelCount :=
      Nat.le_antisymm (Nat.le_of_lt_succ new) old
    dsimp only
    rw [Function.update_self]

/-- A handler has sent an error numeric. -/
def Outcome.sendsError (outcome : Outcome δ) : Bool :=
  outcome.sent.any (·.message.isError)

namespace HandlerCall

/-- An error numeric means that nothing else has happened. -/
def ErrorMeansNothing (call : HandlerCall δ) (outcome : Outcome δ) : Prop :=
  outcome.sendsError = true →
    outcome.touchedNull = false ∧ ∃ value after,
      outcome.ending = .returned value after ∧
        call.network.Untouched call.directory after

/-- The inputs for which an error numeric means that nothing has happened: a KILL
that has been found to lack a parameter names no client, unless the sender is not
permitted to kill anyway, and a message to a channel names one that is found. -/
def ErrorsReturn (call : HandlerCall δ) : Handler → Prop
  | .mKill =>
      call.object.client.isActive = true → call.object.isOper = true →
        (call.argv[3]? = none ∨ call.argv[4]? = none) →
          call.findClient call.argv[3]? = some none
  | .mPrivmsg | .mNotice =>
      ∀ target msg, call.argv[2]? = some target → call.argv[3]? = some msg →
        target.bytes.head? = some 35 →
          call.findChannel (some target) ≠ some none
  | _ => True

variable {call : HandlerCall δ}

/-! ## Outcomes -/

@[simp] theorem isError_numeric (numeric : Nat) (pieces : List CString) :
    (call.numeric numeric pieces).message.isError =
      (400 ≤ numeric && numeric ≤ 499 && numeric != 464) := rfl

@[simp] theorem isError_line (pieces : List CString) :
    (call.line pieces).message.isError = false := rfl

/-- A handler that has sent no error may do anything. -/
theorem ErrorMeansNothing.of_noError {outcome : Outcome δ}
    (noError : outcome.sendsError = false) :
    call.ErrorMeansNothing outcome := by
  intro error
  rw [noError] at error
  cases error

theorem ErrorMeansNothing.reply {network : Network δ} {value : Bool}
    {sent : List Delivery}
    (untouched : call.network.Untouched call.directory network) :
    call.ErrorMeansNothing (.reply network value sent) :=
  fun _ => ⟨rfl, value, network, rfl, untouched⟩

theorem ErrorMeansNothing.answer (value : Bool) (sent : List Delivery) :
    call.ErrorMeansNothing (call.answer value sent) :=
  .reply (.refl call.directory call.network)

theorem ErrorMeansNothing.after {sent : List Delivery} {result : Option α}
    {next : α → Outcome δ}
    (noError : (sent.any (·.message.isError)) = false)
    (returns : ∀ value, result = some value →
      call.ErrorMeansNothing (next value)) :
    call.ErrorMeansNothing (.after sent result next) := by
  cases result with
  | none => exact .of_noError noError
  | some value => exact returns value rfl

theorem sendsError_after {sent : List Delivery} {result : Option α}
    {next : α → Outcome δ}
    (noError : (sent.any (·.message.isError)) = false)
    (returns : ∀ value, (next value).sendsError = false) :
    (Outcome.after sent result next).sendsError = false := by
  cases result with
  | none => exact noError
  | some value => exact returns value

/-! ## Handlers -/

theorem noError_welcome (callsign : CString) :
    (call.welcome callsign).any (·.message.isError) = false := by
  simp [welcome]

theorem noError_sendConnectNumerics (call : HandlerCall δ) (client : Client) :
    (call.sendConnectNumerics client).2.any (·.message.isError) = false := by
  rw [sendConnectNumerics]
  split
  · simp
  · exact noError_welcome client.callsign

theorem noError_nickReply (call : HandlerCall δ) (newCall : CString) :
    (call.nickReply newCall).2.any (·.message.isError) = false := by
  rw [nickReply]
  split
  · simp
  split
  · exact call.noError_sendConnectNumerics _
  · simp

theorem mNick_errorMeansNothing : call.ErrorMeansNothing call.mNick := by
  rw [mNick]
  split
  · cases call.argv[2]? with
    | none => exact .answer _ _
    | some newCall =>
        dsimp only
        split
        · exact .answer _ _
        refine .after (by simp) fun owner _ => ?_
        cases owner with
        | some _ => exact .answer _ _
        | none =>
            have noError := call.noError_nickReply newCall
            dsimp only
            split
            · rename_i sent replied
              rw [replied] at noError
              exact .after noError fun next _ => .of_noError noError
            · rename_i sent replied
              rw [replied] at noError
              exact .of_noError noError
  · exact .answer _ _

theorem mUser_errorMeansNothing : call.ErrorMeansNothing call.mUser := by
  rw [mUser]
  dsimp only
  split
  · exact .answer _ _
  have noError := call.noError_sendConnectNumerics
    (call.object.client.markUser call.argv)
  split
  · split
    · rename_i sent replied
      rw [replied] at noError
      exact .of_noError noError
    · rename_i sent replied
      rw [replied] at noError
      exact .of_noError noError
  · exact .of_noError rfl

theorem mPass_errorMeansNothing : call.ErrorMeansNothing call.mPass := by
  rw [mPass]
  dsimp only
  split
  · exact .answer _ _
  split
  · exact .answer _ _
  · exact .of_noError rfl

theorem noError_recordMember {network : Network δ} {channel : Nat} :
    (call.recordMember network channel).sendsError = false := by
  rw [recordMember]
  refine sendsError_after rfl fun next => ?_
  dsimp only
  split
  · simp [Outcome.sendsError, Outcome.reply]
  · simp [Outcome.sendsError, Outcome.reply]

theorem noError_addUser {network : Network δ} {channel : Nat} :
    (call.addUser network channel).sendsError = false := by
  rw [addUser]
  refine sendsError_after rfl fun found => ?_
  split
  · exact noError_recordMember
  split
  · split
    · rfl
    · exact noError_recordMember
  · split
    · rfl
    · exact noError_recordMember

/-- A JOIN may have made the channel before it reports. -/
theorem joinChannel_errorMeansNothing {network : Network δ} {channel : Nat}
    (untouched : call.network.Untouched call.directory network) :
    call.ErrorMeansNothing (call.joinChannel network channel) := by
  rw [joinChannel]
  split
  · exact .reply untouched
  split
  · exact .reply untouched
  · exact .of_noError noError_addUser

theorem mJoin_errorMeansNothing : call.ErrorMeansNothing call.mJoin := by
  rw [mJoin]
  split
  · exact .answer _ _
  split
  · exact .of_noError rfl
  split
  · exact .answer _ _
  split
  · exact .answer _ _
  refine .after rfl fun found _ => ?_
  cases found with
  | some channel => exact joinChannel_errorMeansNothing (.refl _ _)
  | none =>
      refine .after rfl fun made created => ?_
      exact joinChannel_errorMeansNothing (.newChannel created)

theorem mInvite_errorMeansNothing : call.ErrorMeansNothing call.mInvite := by
  rw [mInvite]
  refine .after rfl fun found _ => ?_
  cases found with
  | none => exact .answer _ _
  | some channel =>
      refine .after rfl fun member _ => ?_
      cases member with
      | none => exact .answer _ _
      | some record =>
          dsimp only
          split
          · exact .answer _ _
          refine .after rfl fun target _ => ?_
          cases target with
          | none => exact .answer _ _
          | some iptr =>
              refine .after rfl fun already _ => ?_
              cases already with
              | none => exact .answer _ _
              | some _ => exact .answer _ _

/-- `delete` changes the live clients. -/
theorem not_untouched_delete {network next : Network δ}
    {directory : Directory δ} {freed : ClientObject} {id : Nat}
    (deleted : network.delete directory freed id = some next) :
    ¬network.Untouched directory next := by
  intro untouched
  obtain ⟨alive, byFd, byCallsign, -, -, rfl⟩ := Network.delete_eq_some deleted
  have dead := congrFun untouched.alive id
  rw [Network.withoutClient_alive, Function.update_self, alive] at dead
  cases dead

/-- A KILL that has found its target deletes it, or it does not return. -/
theorem killClient_errorMeansNothing_iff {sent : List Delivery}
    {reason : Option CString} {target : Nat} :
    call.ErrorMeansNothing (call.killClient sent reason target) ↔
      sent.any (·.message.isError) = false := by
  have same : (call.killClient sent reason target).sendsError =
      sent.any (·.message.isError) := by
    rw [killClient]
    cases call.network.delete call.directory call.surroundings.freed target with
    | none => simp [Outcome.sendsError, Outcome.undefined, Outcome.after]
    | some next => simp [Outcome.sendsError, Outcome.reply, Outcome.after]
  refine ⟨fun nothing => ?_, fun noError => .of_noError (same.trans noError)⟩
  by_contra error
  rw [Bool.not_eq_false] at error
  obtain ⟨-, value, after, returned, untouched⟩ := nothing (same.trans error)
  rw [killClient] at returned
  cases deleted : call.network.delete call.directory call.surroundings.freed
      target with
  | none =>
      rw [deleted] at returned
      cases returned
  | some next =>
      rw [deleted] at returned
      cases returned
      exact not_untouched_delete deleted untouched

/-- A KILL that lacks a parameter reports it and goes on. -/
theorem mKill_errorMeansNothing_iff :
    call.ErrorMeansNothing call.mKill ↔ call.ErrorsReturn .mKill := by
  rw [mKill, ErrorsReturn]
  by_cases permitted : call.object.client.isActive = true ∧
      call.object.isOper = true
  · rw [if_neg (by simp [permitted])]
    simp only [permitted, true_imp_iff]
    have reports : (call.killMissing call.argv[3]? call.argv[4]?).any
          (·.message.isError) = true ↔
        call.argv[3]? = none ∨ call.argv[4]? = none := by
      simp [killMissing]
    rw [← reports]
    cases call.findClient call.argv[3]? with
    | none =>
        constructor
        · intro nothing error
          obtain ⟨-, value, after, returned, -⟩ := nothing error
          cases returned
        · intro defined error
          cases defined error
    | some found =>
        cases found with
        | none => exact iff_of_true (.answer _ _) fun _ => rfl
        | some target =>
            refine killClient_errorMeansNothing_iff.trans ?_
            simp
  · rw [if_pos (by simpa [imp_iff_not_or] using permitted)]
    exact iff_of_true (.answer _ _) fun active oper =>
      absurd ⟨active, oper⟩ permitted

/-- A message to a channel that is not found is reported after the channel has
been used. -/
theorem doPrivmsg_errorMeansNothing_iff (isNotice : Bool) :
    call.ErrorMeansNothing (call.doPrivmsg isNotice) ↔
      call.ErrorsReturn .mPrivmsg := by
  rw [doPrivmsg]
  simp only [ErrorsReturn]
  cases call.argv[2]? with
  | none => exact iff_of_true (.answer _ _) fun _ _ given => nomatch given
  | some target =>
      cases call.argv[3]? with
      | none => exact iff_of_true (.answer _ _) fun _ _ _ given => nomatch given
      | some msg =>
          have condition : (∀ target' msg', some target = some target' →
              some msg = some msg' → target'.bytes.head? = some 35 →
                call.findChannel (some target') ≠ some none) ↔
              (target.bytes.head? = some 35 →
                call.findChannel (some target) ≠ some none) := by
            constructor
            · intro found
              exact found target msg rfl rfl
            · rintro found _ _ ⟨⟩ ⟨⟩
              exact found
          rw [condition]
          dsimp only
          split
          · rename_i isChannel
            rw [iff_true_intro isChannel, true_imp_iff, speech_outcome]
            cases call.findChannel (some target) with
            | none => exact iff_of_true (.of_noError rfl) (by simp)
            | some found =>
                cases found with
                | none =>
                    refine iff_of_false (fun nothing => ?_) (by simp)
                    cases (nothing rfl).1
                | some channel =>
                    have safe : call.ErrorMeansNothing (.after []
                        (call.findMember channel call.self) fun _ =>
                          call.messageSent []) :=
                      .after rfl fun _ _ => .of_noError rfl
                    exact iff_of_true safe (by simp)
          · rename_i notChannel
            refine iff_of_true (.after rfl fun found _ => ?_)
              fun isChannel => absurd isChannel notChannel
            cases found with
            | none => exact .answer _ _
            | some dcptr =>
                refine .of_noError ?_
                dsimp only
                split <;> rfl

theorem operatorOnly_errorMeansNothing {allowed : Outcome δ}
    (noError : allowed.sendsError = false) :
    call.ErrorMeansNothing (call.operatorOnly allowed) := by
  rw [operatorOnly]
  split
  · exact .of_noError noError
  · exact .answer _ _

theorem mAway_errorMeansNothing : call.ErrorMeansNothing call.mAway := by
  rw [mAway]
  dsimp only
  split
  · split
    · exact .of_noError rfl
    · exact .of_noError rfl
  · exact .of_noError rfl

theorem mList_errorMeansNothing : call.ErrorMeansNothing call.mList := by
  rw [mList]
  split
  · exact .answer _ _
  · exact .answer _ _

theorem mNames_errorMeansNothing : call.ErrorMeansNothing call.mNames := by
  rw [mNames]
  split
  · exact .answer _ _
  split
  · exact .answer _ _
  refine .after rfl fun found _ => ?_
  cases found with
  | none => exact .answer _ _
  | some channel => exact .after rfl fun records _ => .answer _ _

theorem mPart_errorMeansNothing : call.ErrorMeansNothing call.mPart := by
  rw [mPart]
  split
  · exact .answer _ _
  · exact .of_noError rfl

theorem mPing_errorMeansNothing : call.ErrorMeansNothing call.mPing := by
  rw [mPing]
  split
  · exact .answer _ _
  · exact .answer _ _

theorem mPong_errorMeansNothing : call.ErrorMeansNothing call.mPong := by
  rw [mPong]
  split
  · exact .of_noError rfl
  · exact .answer _ _

theorem mQuit_errorMeansNothing : call.ErrorMeansNothing call.mQuit := by
  rw [mQuit]
  exact .after rfl fun network _ => .of_noError rfl

theorem mWhois_errorMeansNothing : call.ErrorMeansNothing call.mWhois := by
  rw [mWhois]
  dsimp only
  split
  · exact .answer _ _
  refine .after rfl fun found _ => ?_
  cases found with
  | none => exact .answer _ _
  | some acptr => exact .answer _ _

/-- An error numeric means that nothing has happened exactly if the input meets
the condition. -/
theorem errorMeansNothing_iff (call : HandlerCall δ) (handler : Handler) :
    call.ErrorMeansNothing (call.handle handler) ↔
      call.ErrorsReturn handler := by
  cases handler with
  | mKill => exact mKill_errorMeansNothing_iff
  | mPrivmsg => exact doPrivmsg_errorMeansNothing_iff false
  | mNotice => exact doPrivmsg_errorMeansNothing_iff true
  | mNick => exact iff_of_true mNick_errorMeansNothing trivial
  | mUser => exact iff_of_true mUser_errorMeansNothing trivial
  | mPass => exact iff_of_true mPass_errorMeansNothing trivial
  | mJoin => exact iff_of_true mJoin_errorMeansNothing trivial
  | mInvite => exact iff_of_true mInvite_errorMeansNothing trivial
  | mAdmin | mCap | mHelp | mInfo | mLusers | mOper | mTime | mVersion =>
      exact iff_of_true (.answer _ _) trivial
  | mKick | mMode | mMotd | mTopic | mUserhost | mWho =>
      exact iff_of_true (.answer _ _) trivial
  | mAway => exact iff_of_true mAway_errorMeansNothing trivial
  | mDie | mRehash | mStats | mWhowas =>
      exact iff_of_true (operatorOnly_errorMeansNothing rfl) trivial
  | mList => exact iff_of_true mList_errorMeansNothing trivial
  | mNames => exact iff_of_true mNames_errorMeansNothing trivial
  | mPart => exact iff_of_true mPart_errorMeansNothing trivial
  | mPing => exact iff_of_true mPing_errorMeansNothing trivial
  | mPong => exact iff_of_true mPong_errorMeansNothing trivial
  | mQuit => exact iff_of_true mQuit_errorMeansNothing trivial
  | mWhois => exact iff_of_true mWhois_errorMeansNothing trivial

/-- A command of a registered client on a server without channels. -/
def ofClient (argc : Nat) (argv : List CString) :
    HandlerCall (Option (Dict Nat)) where
  directory := dictDirectory
  text := ⟨.ofLiteral "hamchat.local", .empty, fun _ _ _ _ => []⟩
  surroundings :=
    { now := 0
      behindAway := .empty
      nullCallsign := .empty
      record := ⟨none, 0, false⟩
      channel := .zeroed dictDirectory
      freed := .zeroed }
  network :=
    { Network.start dictDirectory with
      clients _ :=
        { ClientObject.zeroed with
          client := freshClient.markNick.setCallsign (.ofLiteral "N0CALL") }
      alive id := id = 0
      currClients := 1
      maxClients := 1 }
  self := 0
  argc := argc
  argv := argv

/-- `PRIVMSG #none :hi` reads through the NULL that `find_channel` has returned,
and then reports that the channel is missing. -/
theorem missing_channel_used :
    let call := ofClient 2
      [.ofLiteral "N0CALL", .ofLiteral "PRIVMSG", .ofLiteral "#none",
        .ofLiteral "hi"]
    (call.handle .mPrivmsg).sendsError = true ∧
      (call.handle .mPrivmsg).touchedNull = true ∧
      ¬call.ErrorMeansNothing (call.handle .mPrivmsg) := by
  intro call
  have reported : (call.handle .mPrivmsg).sendsError = true := by
    decide +kernel
  have touched : (call.handle .mPrivmsg).touchedNull = true := by
    decide +kernel
  refine ⟨reported, touched, fun nothing => ?_⟩
  rw [(nothing reported).1] at touched
  cases touched

end HandlerCall

end Hamchat
