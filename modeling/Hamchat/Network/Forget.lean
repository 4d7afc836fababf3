import Hamchat.Network.Runs

/-!
# What no reply depends on

Some fields of a client and of a channel are written and then read for nothing
that is sent: `forget` erases them.  A handler does the same with or without them.
`m_pong` is the one handler whose value depends on such a field, and its value is
only logged.
-/

namespace Hamchat

/-! ## Erasing fields -/

/-- A client without the times of its last PING and of its absence.  A time of the
last message that is not positive counts as none. -/
def ClientObject.forget (object : ClientObject) : ClientObject :=
  { object with
    awaySince := 0
    lastPing := 0
    gotPong := false
    lastMsg := max object.lastMsg 0 }

/-- A channel without the author and the time of a topic that is not set. -/
def ChannelObject.forget (channel : ChannelObject δ) : ChannelObject δ :=
  { channel with
    topicSetby :=
      if channel.topic = .empty then .empty else channel.topicSetby
    topicTime := if channel.topic = .empty then 0 else channel.topicTime }

/-- A server without them. -/
def Network.forget (network : Network δ) : Network δ :=
  { network with
    clients := fun id => (network.clients id).forget
    channels := fun channel => (network.channels channel).forget }

/-- Surroundings without the fields of a new channel that its constructor assigns,
and without those that are erased. -/
def Surroundings.forget (directory : Directory δ)
    (surroundings : Surroundings δ) : Surroundings δ :=
  { surroundings with
    channel :=
      { surroundings.channel.forget with
        members := directory.null
        name := .empty
        owner := none }
    freed := surroundings.freed.forget }

/-- How a handler ends, without the value that it returns. -/
def Ending.forget : Ending δ → Ending δ
  | .returned _ network => .returned false network.forget
  | .undefined => .undefined

/-- What a handler does, without its value and the erased fields. -/
def Outcome.forget (outcome : Outcome δ) : Outcome δ :=
  { outcome with ending := outcome.ending.forget }

/-- A call without the erased fields. -/
def HandlerCall.forget (call : HandlerCall δ) : HandlerCall δ :=
  { call with
    surroundings := call.surroundings.forget call.directory
    network := call.network.forget }

@[simp] theorem ClientObject.forget_forget (object : ClientObject) :
    object.forget.forget = object.forget := by
  simp [ClientObject.forget]

@[simp] theorem ChannelObject.forget_forget (channel : ChannelObject δ) :
    channel.forget.forget = channel.forget := by
  rw [ChannelObject.forget]
  congr 1
  · simp only [ChannelObject.forget]
    split <;> rfl
  · simp only [ChannelObject.forget]
    split <;> rfl

namespace Network

variable (network : Network δ)

@[simp] theorem forget_forget : network.forget.forget = network.forget := by
  simp [forget]

@[simp] theorem forget_setClient (id : Nat) (object : ClientObject) :
    (network.setClient id object).forget =
      network.forget.setClient id object.forget := by
  rw [forget, forget, setClient, setClient]
  congr 1
  funext other
  exact Function.apply_update (fun _ => ClientObject.forget) network.clients id
    object other

/-- Another table of callsigns. -/
theorem forget_clientsByCallsign (table : δ) :
    Network.forget { network with clientsByCallsign := table } =
      { network.forget with clientsByCallsign := table } := rfl

theorem setCallsign_forget (directory : Directory δ) (now : Int) (id : Nat)
    (callsign : CString) :
    network.forget.setCallsign directory now id callsign =
      (network.setCallsign directory now id callsign).map forget := by
  simp only [setCallsign, Option.bind_eq_bind, Option.map_bind,
    Function.comp_def, Option.map_some, forget_clientsByCallsign,
    forget_setClient]
  rfl

theorem forget_withoutClient (freed : ClientObject) (id : Nat)
    (byFd byCallsign : δ) :
    (network.withoutClient freed id byFd byCallsign).forget =
      network.forget.withoutClient freed.forget id byFd byCallsign := by
  rw [withoutClient, withoutClient, ← forget_setClient]
  rfl

theorem delete_forget (directory : Directory δ) (freed : ClientObject)
    (id : Nat) :
    network.forget.delete directory freed.forget id =
      (network.delete directory freed id).map forget := by
  rw [delete, delete]
  change (if network.alive id then _ else _) = _
  split
  · simp only [Option.bind_eq_bind, Option.map_bind, Function.comp_def,
      Option.map_some, forget_withoutClient]
    rfl
  · rfl

/-- Another content at the address of a channel. -/
theorem forget_withChannel (channel : Nat) (object : ChannelObject δ) :
    Network.forget { network with
        channels := Function.update network.channels channel object } =
      { network.forget with
        channels :=
          Function.update network.forget.channels channel object.forget } := by
  rw [forget]
  congr 1
  funext other
  exact Function.apply_update (fun _ => ChannelObject.forget)
    network.channels channel object other

theorem newChannel_forget (directory : Directory δ)
    (surroundings : Surroundings δ) (id : Nat) (name : CString) :
    network.forget.newChannel directory (surroundings.forget directory) id
        name =
      (network.newChannel directory surroundings id name).map
        fun made => (made.1, made.2.forget) := by
  simp only [newChannel, Option.bind_eq_bind, Option.map_bind,
    Function.comp_def, Option.map_some]
  congr 1
  funext table
  exact congrArg (fun made : Network δ => some (network.channelCount,
      { made with
        channelCount := network.channelCount + 1
        channelTable := table }))
    (network.forget_withChannel network.channelCount
      { surroundings.channel with
        members := directory.ready directory.null
        name := name.truncate chanLen
        owner := some id }).symm

theorem addMember_forget (directory : Directory δ)
    (surroundings : Surroundings δ) (id channel : Nat) :
    network.forget.addMember directory (surroundings.forget directory) id
        channel =
      (network.addMember directory surroundings id channel).map forget := by
  simp only [addMember, Option.bind_eq_bind, Option.map_bind,
    Function.comp_def, Option.map_some]
  congr 1
  funext members
  exact congrArg (fun added : Network δ => some
      { added with
        records := Function.update network.records network.recordCount
          { surroundings.record with joinTime := surroundings.now }
        recordCount := network.recordCount + 1 })
    (network.forget_withChannel channel
      { network.channels channel with members := members }).symm

end Network

/-! ## What a handler sees -/

namespace Outcome

@[simp] theorem forget_reply (network : Network δ) (value : Bool)
    (sent : List Delivery) :
    (reply network value sent).forget = reply network.forget false sent := rfl

/-- The same branch is taken. -/
theorem forget_ite_congr {condition : Prop} [Decidable condition]
    {yes no yes' no' : Outcome δ}
    (whenYes : condition → yes.forget = yes'.forget)
    (whenNo : ¬condition → no.forget = no'.forget) :
    (if condition then yes else no).forget =
      (if condition then yes' else no').forget := by
  split
  · exact whenYes ‹_›
  · exact whenNo ‹_›

/-- The same result is gone on with. -/
theorem forget_after_congr {sent : List Delivery} {result : Option α}
    {next next' : α → Outcome δ}
    (same : ∀ value, (next value).forget = (next' value).forget) :
    (after sent result next).forget = (after sent result next').forget := by
  cases result with
  | none => rfl
  | some value => exact same value

/-- The result is gone on with after it has been mapped. -/
theorem after_map {sent : List Delivery} {result : Option α} (f : α → β)
    {next : β → Outcome δ} :
    after sent (result.map f) next =
      after sent result fun value => next (f value) := by
  cases result with
  | none => rfl
  | some value => rfl

end Outcome

namespace HandlerCall

variable (call : HandlerCall δ)

@[simp] theorem forget_argv : call.forget.argv = call.argv := rfl

@[simp] theorem forget_self : call.forget.self = call.self := rfl

@[simp] theorem forget_directory : call.forget.directory = call.directory := rfl

@[simp] theorem forget_network : call.forget.network = call.network.forget := rfl

@[simp] theorem forget_object : call.forget.object = call.object.forget := rfl

@[simp] theorem forget_now :
    call.forget.surroundings.now = call.surroundings.now := rfl

@[simp] theorem forget_nickReply (newCall : CString) :
    call.forget.nickReply newCall = call.nickReply newCall := rfl

@[simp] theorem forget_answer (value : Bool) (sent : List Delivery) :
    (call.forget.answer value sent).forget =
      (call.answer value sent).forget := by
  rw [answer, answer, Outcome.forget_reply, Outcome.forget_reply,
    forget_network, Network.forget_forget]

/-- The sender is changed in the same way. -/
theorem forget_update {object object' : ClientObject}
    (same : object'.forget = object.forget) (value : Bool)
    (sent : List Delivery) :
    (call.forget.update value sent object').forget =
      (call.update value sent object).forget := by
  rw [update, update, Outcome.forget_reply, Outcome.forget_reply,
    forget_network, Network.forget_setClient, Network.forget_setClient,
    Network.forget_forget, same, forget_self]

/-! ## Registration -/

theorem mNick_forget : call.forget.mNick.forget = call.mNick.forget := by
  rw [mNick, mNick]
  refine Outcome.forget_ite_congr (fun _ => ?_) fun _ => forget_answer ..
  rw [forget_argv]
  cases call.argv[2]? with
  | none => exact forget_answer ..
  | some newCall =>
      refine Outcome.forget_ite_congr (fun _ => forget_answer ..) fun _ => ?_
      refine Outcome.forget_after_congr fun owner => ?_
      cases owner with
      | some _ => exact forget_answer ..
      | none =>
          dsimp only
          rw [forget_nickReply]
          cases call.nickReply newCall with
          | mk alive sent =>
              cases alive with
              | false => rfl
              | true =>
                  -- The network of the call comes first here, with its sender
                  -- marked.
                  have marked : call.forget.network.setClient call.forget.self
                      { call.forget.object with
                        client := call.forget.object.client.markNick } =
                      (call.network.setClient call.self
                        { call.object with
                          client := call.object.client.markNick }).forget := by
                    rw [Network.forget_setClient]
                    rfl
                  dsimp only
                  rw [marked, forget_directory, forget_now, forget_self,
                    Network.setCallsign_forget, Outcome.after_map]
                  refine Outcome.forget_after_congr fun next => ?_
                  rw [Outcome.forget_reply, Outcome.forget_reply,
                    Network.forget_forget]

theorem mUser_forget : call.forget.mUser.forget = call.mUser.forget := by
  rw [mUser, mUser]
  refine Outcome.forget_ite_congr (fun _ => forget_answer ..) fun _ => ?_
  have stored : ∀ client sent,
      (call.forget.update true sent
        { call.forget.object with client := client }).forget =
        (call.update true sent
          { call.object with client := client }).forget := by
    intro client sent
    refine call.forget_update ?_ true sent
    exact ClientObject.forget_forget { call.object with client := client }
  refine Outcome.forget_ite_congr (fun _ => ?_) fun _ => stored _ []
  have numerics : call.forget.sendConnectNumerics
      (call.forget.object.client.markUser call.forget.argv) =
        call.sendConnectNumerics (call.object.client.markUser call.argv) := rfl
  rw [numerics]
  cases call.sendConnectNumerics (call.object.client.markUser call.argv) with
  | mk alive sent =>
      cases alive with
      | true => exact stored _ sent
      | false => rfl

theorem mPass_forget : call.forget.mPass.forget = call.mPass.forget := by
  rw [mPass, mPass]
  refine Outcome.forget_ite_congr (fun _ => forget_answer ..) fun _ => ?_
  rw [forget_argv]
  cases call.argv[2]? with
  | none => exact forget_answer ..
  | some chpass =>
      refine call.forget_update ?_ false []
      exact ClientObject.forget_forget
        { call.object with client := call.object.client.storePass chpass }

/-! ## Channels -/

/-- The author and the time of a topic are sent only with the topic. -/
theorem recordMember_forget (network : Network δ) (channel : Nat) :
    (call.forget.recordMember network.forget channel).forget =
      (call.recordMember network channel).forget := by
  rw [recordMember, recordMember]
  have added := network.addMember_forget call.directory call.surroundings
    call.self channel
  change (Outcome.after [] (network.forget.addMember call.directory
    (call.surroundings.forget call.directory) call.self channel) _).forget = _
  rw [added, Outcome.after_map]
  refine Outcome.forget_after_congr fun next => ?_
  dsimp only
  rw [Outcome.forget_reply, Outcome.forget_reply, Network.forget_forget]
  congr 1
  change (if (network.channels channel).topic = .empty then _ else _) = _
  split
  · rfl
  · rename_i set
    simp only [Network.forget, ChannelObject.forget, if_neg set]
    rfl

theorem addUser_forget (network : Network δ) (channel : Nat) :
    (call.forget.addUser network.forget channel).forget =
      (call.addUser network channel).forget := by
  have replied : (Outcome.reply network.forget false []).forget =
      (Outcome.reply network false []).forget := by
    rw [Outcome.forget_reply, Outcome.forget_reply, Network.forget_forget]
  have recorded := call.recordMember_forget network channel
  rw [addUser, addUser]
  refine Outcome.forget_after_congr fun found => ?_
  cases found with
  | none => exact recorded
  | some record =>
      have cptr : (network.forget.records record).cptr =
          (network.records record).cptr := rfl
      dsimp only
      rw [cptr]
      cases (network.records record).cptr with
      | some other =>
          exact Outcome.forget_ite_congr (fun _ => replied) fun _ => recorded
      | none =>
          refine Outcome.forget_ite_congr (fun _ => ?_) fun _ => ?_
          · exact congrArg Outcome.throughNull replied
          · exact congrArg Outcome.throughNull recorded

theorem joinChannel_forget (network : Network δ) (channel : Nat) :
    (call.forget.joinChannel network.forget channel).forget =
      (call.joinChannel network channel).forget := by
  have replied : ∀ sent, (Outcome.reply network.forget false sent).forget =
      (Outcome.reply network false sent).forget := by
    intro sent
    rw [Outcome.forget_reply, Outcome.forget_reply, Network.forget_forget]
  rw [joinChannel, joinChannel]
  refine Outcome.forget_ite_congr (fun _ => replied _) fun _ => ?_
  refine Outcome.forget_ite_congr (fun _ => replied _) fun _ => ?_
  exact call.addUser_forget network channel

theorem mJoin_forget : call.forget.mJoin.forget = call.mJoin.forget := by
  rw [mJoin, mJoin]
  refine Outcome.forget_ite_congr (fun _ => forget_answer ..) fun _ => ?_
  rw [forget_argv]
  cases call.argv[2]? with
  | none => rfl
  | some chname =>
      refine Outcome.forget_ite_congr (fun _ => forget_answer ..) fun _ => ?_
      refine Outcome.forget_ite_congr (fun _ => forget_answer ..) fun _ => ?_
      refine Outcome.forget_after_congr fun found => ?_
      cases found with
      | some channel => exact call.joinChannel_forget call.network channel
      | none =>
          have made := call.network.newChannel_forget call.directory
            call.surroundings call.self chname
          change (Outcome.after [] (call.network.forget.newChannel
            call.directory (call.surroundings.forget call.directory) call.self
            chname) _).forget = _
          rw [made, Outcome.after_map]
          refine Outcome.forget_after_congr fun made => ?_
          exact call.joinChannel_forget made.2 made.1

theorem nameLines_forget (target : CString) (records : List Nat) :
    call.forget.nameLines target records = call.nameLines target records := by
  induction records with
  | nil => rfl
  | cons record rest inductionHypothesis =>
      rw [nameLines, nameLines, inductionHypothesis]
      rfl

theorem mNames_forget : call.forget.mNames.forget = call.mNames.forget := by
  rw [mNames, mNames]
  rw [forget_argv]
  cases call.argv[2]? with
  | none => exact forget_answer ..
  | some target =>
      refine Outcome.forget_ite_congr (fun _ => forget_answer ..) fun _ => ?_
      refine Outcome.forget_after_congr fun found => ?_
      cases found with
      | none => exact forget_answer ..
      | some channel =>
          refine Outcome.forget_after_congr fun records => ?_
          rw [nameLines_forget]
          exact forget_answer ..

theorem mInvite_forget : call.forget.mInvite.forget = call.mInvite.forget := by
  rw [mInvite, mInvite]
  refine Outcome.forget_after_congr fun found => ?_
  cases found with
  | none => exact forget_answer ..
  | some channel =>
      refine Outcome.forget_after_congr fun member => ?_
      cases member with
      | none => exact forget_answer ..
      | some record =>
          refine Outcome.forget_ite_congr (fun _ => forget_answer ..)
            fun _ => ?_
          refine Outcome.forget_after_congr fun target => ?_
          cases target with
          | none => exact forget_answer ..
          | some iptr =>
              refine Outcome.forget_after_congr fun already => ?_
              cases already with
              | none => exact forget_answer ..
              | some _ => exact forget_answer ..

/-! ## Messages -/

theorem messageSent_forget (sent : List Delivery) :
    (call.forget.messageSent sent).forget =
      (call.messageSent sent).forget := by
  refine call.forget_update ?_ true sent
  simp [ClientObject.forget]

theorem doPrivmsg_forget (isNotice : Bool) :
    (call.forget.doPrivmsg isNotice).forget =
      (call.doPrivmsg isNotice).forget := by
  rw [doPrivmsg, doPrivmsg, forget_argv]
  cases call.argv[2]? with
  | none => exact forget_answer ..
  | some target =>
      cases call.argv[3]? with
      | none => exact forget_answer ..
      | some msg =>
          refine Outcome.forget_ite_congr (fun _ => ?_) fun _ => ?_
          · rw [speech_outcome, speech_outcome]
            refine Outcome.forget_after_congr fun found => ?_
            cases found with
            | none => exact congrArg Outcome.throughNull (forget_answer ..)
            | some channel =>
                refine Outcome.forget_after_congr fun _ => ?_
                exact call.messageSent_forget []
          · refine Outcome.forget_after_congr fun found => ?_
            cases found with
            | none => exact forget_answer ..
            | some dcptr => exact call.messageSent_forget _

/-- The time of the absence is read by no handler. -/
theorem mAway_forget : call.forget.mAway.forget = call.mAway.forget := by
  rw [mAway, mAway]
  refine Outcome.forget_ite_congr (fun _ => ?_) fun _ => ?_
  · rw [forget_argv]
    cases call.argv[2]? with
    | none => rfl
    | some target =>
        refine call.forget_update ?_ true _
        cases isAway : call.object.awayMsg.isSome with
        | true => simp [ClientObject.forget, isAway]
        | false => simp [ClientObject.forget, isAway]
  · refine call.forget_update ?_ true _
    cases isAway : call.object.awayMsg.isSome with
    | true => simp [ClientObject.forget, isAway]
    | false => simp [ClientObject.forget, isAway]

theorem mPing_forget : call.forget.mPing.forget = call.mPing.forget := by
  rw [mPing, mPing]
  exact Outcome.forget_ite_congr (fun _ => forget_answer ..)
    fun _ => forget_answer ..

/-- Whether a PING has been sent decides only the value, which is erased. -/
theorem mPong_forget : call.forget.mPong.forget = call.mPong.forget := by
  have unchanged : ∀ value value', (call.forget.answer value []).forget =
      (call.answer value' []).forget := fun _ _ => forget_answer ..
  rw [mPong, mPong]
  rw [if_neg (show ¬call.forget.object.lastPing ≠ 0 from fun set => set rfl)]
  split
  · refine (unchanged false true).trans ?_
    rw [answer, update, Outcome.forget_reply, Outcome.forget_reply,
      Network.forget_setClient]
    congr 1
    exact Network.setClient_self.symm
  · exact forget_answer ..

/-! ## Operators and information -/

theorem operatorOnly_forget {allowed allowed' : Outcome δ}
    (same : allowed'.forget = allowed.forget) :
    (call.forget.operatorOnly allowed').forget =
      (call.operatorOnly allowed).forget := by
  rw [operatorOnly, operatorOnly]
  exact Outcome.forget_ite_congr (fun _ => same) fun _ => forget_answer ..

theorem mKill_forget : call.forget.mKill.forget = call.mKill.forget := by
  rw [mKill, mKill]
  refine Outcome.forget_ite_congr (fun _ => forget_answer ..) fun _ => ?_
  refine Outcome.forget_after_congr fun found => ?_
  cases found with
  | none => exact forget_answer ..
  | some target =>
      dsimp only
      rw [killClient, killClient]
      have deleted := call.network.delete_forget call.directory
        call.surroundings.freed target
      change (Outcome.after _ (call.network.forget.delete call.directory
        call.surroundings.freed.forget target) _).forget = _
      rw [deleted, Outcome.after_map]
      refine Outcome.forget_after_congr fun next => ?_
      rw [Outcome.forget_reply, Outcome.forget_reply, Network.forget_forget]
      rfl

theorem mQuit_forget : call.forget.mQuit.forget = call.mQuit.forget := by
  rw [mQuit, mQuit]
  have deleted := call.network.delete_forget call.directory
    call.surroundings.freed call.self
  change (Outcome.after _ (call.network.forget.delete call.directory
    call.surroundings.freed.forget call.self) _).forget = _
  rw [deleted, Outcome.after_map]
  refine Outcome.forget_after_congr fun next => ?_
  rw [Outcome.forget_reply, Outcome.forget_reply, Network.forget_forget]

/-- A time of the last message that is not positive makes nobody idle. -/
theorem idleTime_forget (object : ClientObject) :
    call.forget.idleTime object.forget = call.idleTime object := by
  rw [idleTime, idleTime, forget_now]
  change (if 0 < max object.lastMsg 0 ∧
    idleAfter < call.surroundings.now - max object.lastMsg 0 then
      call.surroundings.now - max object.lastMsg 0 else 0) = _
  rcases Int.le_total object.lastMsg 0 with never | spoken
  · rw [max_eq_right never, if_neg (by omega), if_neg (by omega)]
  · rw [max_eq_left spoken]

theorem mWhois_forget : call.forget.mWhois.forget = call.mWhois.forget := by
  rw [mWhois, mWhois]
  have same :
      (if 3 ≤ call.forget.argc then call.forget.argv[3]?
        else call.forget.argv[2]?) =
      if 3 ≤ call.argc then call.argv[3]? else call.argv[2]? := rfl
  dsimp only
  rw [same]
  cases (if 3 ≤ call.argc then call.argv[3]? else call.argv[2]?) with
  | none => exact forget_answer ..
  | some nick =>
      refine Outcome.forget_after_congr fun found => ?_
      cases found with
      | none => exact forget_answer ..
      | some acptr =>
          have idle :
              call.forget.idleTime (call.forget.network.clients acptr) =
                call.idleTime (call.network.clients acptr) :=
            call.idleTime_forget (call.network.clients acptr)
          dsimp only
          rw [idle]
          exact forget_answer ..

theorem inform_forget (handler : Handler) (value : Bool) :
    (call.forget.inform handler value).forget =
      (call.inform handler value).forget :=
  forget_answer ..

theorem mList_forget : call.forget.mList.forget = call.mList.forget := by
  rw [mList, mList]
  exact Outcome.forget_ite_congr (fun _ => inform_forget ..)
    fun _ => forget_answer ..

theorem mPart_forget : call.forget.mPart.forget = call.mPart.forget := by
  rw [mPart, mPart]
  exact Outcome.forget_ite_congr (fun _ => forget_answer ..) fun _ => rfl

/-- Every handler of the command table does the same without the erased
fields. -/
theorem handle_forget (handler : Handler) :
    (call.forget.handle handler).forget = (call.handle handler).forget := by
  cases handler with
  | mAdmin | mHelp | mInfo | mLusers | mTime | mVersion =>
      exact inform_forget ..
  | mAway => exact call.mAway_forget
  | mDie | mRehash | mStats | mWhowas =>
      exact call.operatorOnly_forget (forget_answer ..)
  | mInvite => exact call.mInvite_forget
  | mJoin => exact call.mJoin_forget
  | mKill => exact call.mKill_forget
  | mList => exact call.mList_forget
  | mNames => exact call.mNames_forget
  | mNick => exact call.mNick_forget
  | mNotice => exact call.doPrivmsg_forget true
  | mPrivmsg => exact call.doPrivmsg_forget false
  | mPart => exact call.mPart_forget
  | mPass => exact call.mPass_forget
  | mPing => exact call.mPing_forget
  | mPong => exact call.mPong_forget
  | mQuit => exact call.mQuit_forget
  | mUser => exact call.mUser_forget
  | mWhois => exact call.mWhois_forget
  | mCap | mOper => exact forget_answer ..
  | mKick | mMode | mMotd | mTopic | mUserhost | mWho => exact forget_answer ..

end HandlerCall

end Hamchat
