import Hamchat.Network.Runs

/-!
# What a handler changes

A handler that returns has changed at most the client that called it, in one of a
few ways, and it may have deleted a client.  Every other client is as before.  The
channels keep everything but their members, and a new one is made of new memory.
-/

namespace Hamchat

/-- What a handler can do to the client that calls it. -/
inductive ClientObject.Change (argv : List CString) (object : ClientObject) :
    ClientObject → Prop
  /-- Nothing. -/
  | same : Change argv object object
  /-- NICK stores a valid callsign. -/
  | nick (newCall : CString) (given : argv[2]? = some newCall)
      (valid : isValidCallsign newCall = true) :
      Change argv object
        { object with client := object.client.markNick.setCallsign newCall }
  /-- USER stores the names. -/
  | user : Change argv object
      { object with client := object.client.markUser argv }
  /-- PASS stores a password. -/
  | pass (chpass : CString) (given : argv[2]? = some chpass) :
      Change argv object
        { object with client := object.client.storePass chpass }
  /-- AWAY stores a message. -/
  | away (target : CString) (given : argv[2]? = some target) (now : Int) :
      Change argv object
        { object with
          awaySince := now
          awayMsg := some (target.truncate (awayLen + 1)) }
  /-- AWAY removes the message. -/
  | back (since : Int) :
      Change argv object { object with awayMsg := none, awaySince := since }
  /-- PONG is noted. -/
  | pong (now : Int) :
      Change argv object { object with lastPing := now, gotPong := true }
  /-- A message has been sent. -/
  | spoke (now : Int) : Change argv object { object with lastMsg := now }

/-- A network comes from another one when a client changes itself and others may
be deleted, and members are added to channels, of which one may be new. -/
structure Network.Changes (network : Network δ) (memory : ChannelObject δ)
    (sender : Nat) (argv : List CString) (next : Network δ) : Prop where
  /-- The clients. -/
  clients : ∀ id, next.alive id = true →
    network.alive id = true ∧
      (next.clients id = network.clients id ∨
        id = sender ∧ ClientObject.Change argv (network.clients id)
          (next.clients id))
  /-- The channels. -/
  channels : ∀ channel < next.channelCount,
    channel < network.channelCount ∧ (∃ members, next.channels channel =
        { network.channels channel with members := members }) ∨
      network.channelCount ≤ channel ∧ ∃ members name,
        next.channels channel =
          { memory with
            members := members
            name := name
            owner := some sender }

/-- A client that is alive after another one has been deleted. -/
theorem Network.client_of_delete {network next : Network δ}
    {directory : Directory δ} {freed : ClientObject} {target id : Nat}
    (deleted : network.delete directory freed target = some next)
    (alive : next.alive id = true) :
    network.alive id = true ∧ next.clients id = network.clients id := by
  obtain ⟨-, byFd, byCallsign, -, -, rfl⟩ := delete_eq_some deleted
  have other : id ≠ target := by
    rintro rfl
    rw [withoutClient_alive, Function.update_self] at alive
    cases alive
  rw [withoutClient_alive, Function.update_of_ne other] at alive
  rw [withoutClient_clients, Function.update_of_ne other]
  exact ⟨alive, rfl⟩

namespace Network.Changes

variable {network next : Network δ} {memory : ChannelObject δ} {sender : Nat}
variable {argv : List CString}

/-- Without a change of the channels. -/
theorem of_clients (channels : next.channels = network.channels)
    (channelCount : next.channelCount = network.channelCount)
    (clients : ∀ id, next.alive id = true →
      network.alive id = true ∧
        (next.clients id = network.clients id ∨
          id = sender ∧ ClientObject.Change argv (network.clients id)
            (next.clients id))) :
    network.Changes memory sender argv next where
  clients := clients
  channels channel made := by
    rw [channels]
    exact .inl ⟨channelCount ▸ made, _, rfl⟩

theorem refl (network : Network δ) (memory : ChannelObject δ) (sender : Nat)
    (argv : List CString) : network.Changes memory sender argv network :=
  of_clients rfl rfl fun _ alive => ⟨alive, .inl rfl⟩

/-- The table of callsigns does not matter. -/
theorem withCallsigns (changes : network.Changes memory sender argv next)
    (table : δ) :
    network.Changes memory sender argv
      { next with clientsByCallsign := table } :=
  ⟨changes.clients, changes.channels⟩

theorem setClient {object : ClientObject}
    (change : ClientObject.Change argv (network.clients sender) object) :
    network.Changes memory sender argv (network.setClient sender object) := by
  refine of_clients rfl rfl fun id alive => ⟨alive, ?_⟩
  by_cases same : id = sender
  · subst same
    rw [setClient_clients_self]
    exact .inr ⟨rfl, change⟩
  · exact .inl (setClient_clients_of_ne same object)

theorem delete {directory : Directory δ} {freed : ClientObject} {target : Nat}
    (deleted : network.delete directory freed target = some next) :
    network.Changes memory sender argv next := by
  obtain ⟨-, byFd, byCallsign, -, -, same⟩ := delete_eq_some deleted
  refine of_clients (by rw [same]; rfl) (by rw [same]; rfl) fun id alive => ?_
  obtain ⟨before, unchanged⟩ := client_of_delete deleted alive
  exact ⟨before, .inl unchanged⟩

/-- A new channel is made of new memory. -/
theorem newChannel {directory : Directory δ} {surroundings : Surroundings δ}
    {name : CString} {made : Nat × Network δ}
    (created : network.newChannel directory surroundings sender name =
      some made) :
    network.Changes surroundings.channel sender argv made.2 := by
  obtain ⟨-, table, same⟩ := newChannel_eq_some created
  rw [same]
  refine ⟨fun _ alive => ⟨alive, .inl rfl⟩, fun channel inside => ?_⟩
  dsimp only at inside ⊢
  by_cases new : channel = network.channelCount
  · subst new
    rw [Function.update_self]
    exact .inr ⟨Nat.le_refl _, _, _, rfl⟩
  · rw [Function.update_of_ne new]
    exact .inl ⟨by omega, _, rfl⟩

/-- A member is added to a channel. -/
theorem addMember (changes : network.Changes memory sender argv next)
    {directory : Directory δ} {surroundings : Surroundings δ} {id channel : Nat}
    {after : Network δ}
    (added : next.addMember directory surroundings id channel = some after) :
    network.Changes memory sender argv after := by
  obtain ⟨members, rfl⟩ := addMember_eq_some added
  refine ⟨changes.clients, fun other inside => ?_⟩
  dsimp only
  by_cases same : other = channel
  · subst same
    rw [Function.update_self]
    rcases changes.channels other inside with
      ⟨before, _, kept⟩ | ⟨new, _, name, made⟩
    · exact .inl ⟨before, members, by rw [kept]⟩
    · exact .inr ⟨new, members, name, by rw [made]⟩
  · rw [Function.update_of_ne same]
    exact changes.channels other inside

end Network.Changes

namespace HandlerCall

/-- How a handler gets to the network that it returns with. -/
inductive Made (call : HandlerCall δ) : Network δ → Prop
  /-- Nothing has changed. -/
  | same : Made call call.network
  /-- The sender has changed. -/
  | client {object : ClientObject}
      (change : ClientObject.Change call.argv call.object object) :
      Made call (call.network.setClient call.self object)
  /-- The sender has changed, and so has the table of callsigns. -/
  | callsign {object : ClientObject}
      (change : ClientObject.Change call.argv call.object object) (table : δ) :
      Made call
        { call.network.setClient call.self object with
          clientsByCallsign := table }
  /-- A channel has been made. -/
  | channel {name : CString} {made : Nat × Network δ}
      (created : call.network.newChannel call.directory call.surroundings
        call.self name = some made) : Made call made.2
  /-- A member has been added to a channel. -/
  | member {network next : Network δ} {channel : Nat}
      (before : Made call network)
      (added : network.addMember call.directory call.surroundings call.self
        channel = some next) : Made call next
  /-- A client has been deleted. -/
  | delete {next : Network δ} {target : Nat}
      (deleted : call.network.delete call.directory call.surroundings.freed
        target = some next) : Made call next

/-- A handler that returns has made its network in one of these ways. -/
def Makes (call : HandlerCall δ) (outcome : Outcome δ) : Prop :=
  ∀ value next, outcome.ending = .returned value next → call.Made next

namespace Makes

variable {call : HandlerCall δ}

theorem reply {network : Network δ} {value : Bool} {sent : List Delivery}
    (made : call.Made network) :
    call.Makes (.reply network value sent) := by
  intro value next returned
  cases returned
  exact made

theorem answer (value : Bool) (sent : List Delivery) :
    call.Makes (call.answer value sent) :=
  reply .same

theorem update (value : Bool) (sent : List Delivery) {object : ClientObject}
    (change : ClientObject.Change call.argv call.object object) :
    call.Makes (call.update value sent object) :=
  reply (.client change)

theorem undefined (sent : List Delivery) : call.Makes (.undefined sent) := by
  intro value next returned
  cases returned

theorem after {sent : List Delivery} {result : Option α}
    {next : α → Outcome δ}
    (makes : ∀ value, result = some value → call.Makes (next value)) :
    call.Makes (.after sent result next) := by
  cases result with
  | none => exact undefined sent
  | some value => exact makes value rfl

theorem throughNull {outcome : Outcome δ} (makes : call.Makes outcome) :
    call.Makes outcome.throughNull :=
  makes

theorem operatorOnly {allowed : Outcome δ} (makes : call.Makes allowed) :
    call.Makes (call.operatorOnly allowed) := by
  rw [HandlerCall.operatorOnly]
  split
  · exact makes
  · exact answer _ _

/-! ## Registration -/

theorem mNick : call.Makes call.mNick := by
  rw [HandlerCall.mNick]
  split
  · cases given : call.argv[2]? with
    | none => exact answer _ _
    | some newCall =>
        dsimp only
        split
        · exact answer _ _
        rename_i valid
        refine after fun owner _ => ?_
        cases owner with
        | some _ => exact answer _ _
        | none =>
            dsimp only
            split
            · refine after fun next renamed => reply ?_
              obtain ⟨table, rfl⟩ := Network.setCallsign_eq_some renamed
              rw [Network.setClient_clients_self, Network.setClient_setClient]
              exact .callsign (.nick newCall given (by simpa using valid)) table
            · exact undefined _
  · exact answer _ _

theorem mUser : call.Makes call.mUser := by
  rw [HandlerCall.mUser]
  dsimp only
  split
  · exact answer _ _
  split
  · split
    · exact update _ _ .user
    · exact undefined _
  · exact update _ _ .user

theorem mPass : call.Makes call.mPass := by
  rw [HandlerCall.mPass]
  dsimp only
  split
  · exact answer _ _
  cases given : call.argv[2]? with
  | none => exact answer _ _
  | some chpass => exact update _ _ (.pass chpass given)

/-! ## Channels -/

theorem recordMember {network : Network δ} {channel : Nat}
    (made : call.Made network) :
    call.Makes (call.recordMember network channel) := by
  rw [HandlerCall.recordMember]
  exact after fun next added => reply (.member made added)

theorem addUser {network : Network δ} {channel : Nat}
    (made : call.Made network) :
    call.Makes (call.addUser network channel) := by
  rw [HandlerCall.addUser]
  refine after fun found _ => ?_
  cases found with
  | none => exact recordMember made
  | some record =>
      dsimp only
      split
      · split
        · exact reply made
        · exact recordMember made
      · split
        · exact throughNull (reply made)
        · exact throughNull (recordMember made)

theorem joinChannel {network : Network δ} {channel : Nat}
    (made : call.Made network) :
    call.Makes (call.joinChannel network channel) := by
  rw [HandlerCall.joinChannel]
  split
  · exact reply made
  split
  · exact reply made
  · exact addUser made

theorem mJoin : call.Makes call.mJoin := by
  rw [HandlerCall.mJoin]
  split
  · exact answer _ _
  split
  · exact undefined _
  split
  · exact answer _ _
  split
  · exact answer _ _
  refine after fun found _ => ?_
  cases found with
  | some channel => exact joinChannel .same
  | none =>
      exact after fun made created => joinChannel (.channel created)

theorem mNames : call.Makes call.mNames := by
  rw [HandlerCall.mNames]
  split
  · exact answer _ _
  split
  · exact answer _ _
  refine after fun found _ => ?_
  cases found with
  | none => exact answer _ _
  | some channel => exact after fun records _ => answer _ _

theorem mInvite : call.Makes call.mInvite := by
  rw [HandlerCall.mInvite]
  refine after fun found _ => ?_
  cases found with
  | none => exact answer _ _
  | some channel =>
      refine after fun member _ => ?_
      cases member with
      | none => exact answer _ _
      | some record =>
          dsimp only
          split
          · exact answer _ _
          refine after fun target _ => ?_
          cases target with
          | none => exact answer _ _
          | some iptr =>
              refine after fun already _ => ?_
              cases already with
              | none => exact answer _ _
              | some _ => exact answer _ _

/-! ## Messages -/

theorem messageSent (sent : List Delivery) :
    call.Makes (call.messageSent sent) :=
  update _ _ (.spoke _)

theorem doPrivmsg (isNotice : Bool) : call.Makes (call.doPrivmsg isNotice) := by
  rw [HandlerCall.doPrivmsg]
  split
  · exact answer _ _
  split
  · exact answer _ _
  split
  · rw [speech_outcome]
    refine after fun found _ => ?_
    cases found with
    | none => exact throughNull (answer _ _)
    | some channel => exact after fun _ _ => messageSent _
  · refine after fun found _ => ?_
    cases found with
    | none => exact answer _ _
    | some dcptr => exact messageSent _

theorem mAway : call.Makes call.mAway := by
  rw [HandlerCall.mAway]
  dsimp only
  split
  · cases given : call.argv[2]? with
    | none => exact undefined _
    | some target =>
        refine update _ _ ?_
        split
        · exact .away target given _
        · exact .away target given _
  · refine update _ _ ?_
    split
    · exact .back 0
    · exact .same

theorem mPing : call.Makes call.mPing := by
  rw [HandlerCall.mPing]
  split
  · exact answer _ _
  · exact answer _ _

theorem mPong : call.Makes call.mPong := by
  rw [HandlerCall.mPong]
  split
  · exact update _ _ (.pong _)
  · exact answer _ _

/-! ## Operators and information -/

theorem mKill : call.Makes call.mKill := by
  rw [HandlerCall.mKill]
  split
  · exact answer _ _
  refine after fun found _ => ?_
  cases found with
  | none => exact answer _ _
  | some target => exact after fun next deleted => reply (.delete deleted)

theorem mWhois : call.Makes call.mWhois := by
  rw [HandlerCall.mWhois]
  dsimp only
  split
  · exact answer _ _
  refine after fun found _ => ?_
  cases found with
  | none => exact answer _ _
  | some acptr => exact answer _ _

theorem mPart : call.Makes call.mPart := by
  rw [HandlerCall.mPart]
  split
  · exact answer _ _
  · exact undefined _

theorem mList : call.Makes call.mList := by
  rw [HandlerCall.mList]
  split
  · exact answer _ _
  · exact answer _ _

/-- What every handler of the command table makes. -/
theorem handle (handler : Handler) : call.Makes (call.handle handler) := by
  cases handler with
  | mAway => exact mAway
  | mDie | mRehash | mStats | mWhowas => exact operatorOnly (answer _ _)
  | mInvite => exact mInvite
  | mJoin => exact mJoin
  | mKill => exact mKill
  | mList => exact mList
  | mNames => exact mNames
  | mNick => exact mNick
  | mNotice => exact doPrivmsg true
  | mPrivmsg => exact doPrivmsg false
  | mPart => exact mPart
  | mPass => exact mPass
  | mPing => exact mPing
  | mPong => exact mPong
  | mQuit => exact after fun next deleted => reply (.delete deleted)
  | mUser => exact mUser
  | mWhois => exact mWhois
  | mAdmin | mCap | mHelp | mInfo | mLusers | mOper | mTime | mVersion =>
      exact answer _ _
  | mKick | mMode | mMotd | mTopic | mUserhost | mWho => exact answer _ _

end Makes

/-- A handler that returns leaves a network that comes from the one before. -/
def Leaves (call : HandlerCall δ) (outcome : Outcome δ) : Prop :=
  ∀ value next, outcome.ending = .returned value next →
    call.network.Changes call.surroundings.channel call.self call.argv next

theorem Made.changes {call : HandlerCall δ} {next : Network δ}
    (made : call.Made next) :
    call.network.Changes call.surroundings.channel call.self call.argv next := by
  induction made with
  | same => exact .refl ..
  | client change => exact .setClient change
  | callsign change table =>
      exact (Network.Changes.setClient change).withCallsigns table
  | channel created => exact .newChannel created
  | member _ added changes => exact changes.addMember added
  | delete deleted => exact .delete deleted

/-- What every handler of the command table leaves. -/
theorem Leaves.handle {call : HandlerCall δ} (handler : Handler) :
    call.Leaves (call.handle handler) :=
  fun value next returned => (Makes.handle handler value next returned).changes

end HandlerCall

/-! ## Steps -/

/-- A client after the socket of a client has been stored. -/
theorem Network.clients_setSock (network : Network δ) (reader id : Nat)
    (sock : Socket) :
    ∃ kept, (network.setClient reader
        { network.clients reader with sock := sock }).clients id =
      { network.clients id with sock := kept } := by
  by_cases same : id = reader
  · subst same
    exact ⟨sock, setClient_clients_self _⟩
  · exact ⟨(network.clients id).sock, setClient_clients_of_ne same _⟩

/-- A client that is alive after a step has just been connected, or it was alive
before.  Apart from its socket it is then as before, or its command has changed
it. -/
theorem Network.advance_client {server : NetworkServer δ}
    {network next : Network δ} {event : NetworkEvent δ}
    (advanced : network.advance server event = some next) {id : Nat}
    (alive : next.alive id = true) :
    (∃ fd memory now, event = .connect id fd memory now ∧
        next.clients id = memory.construct fd now) ∨
      network.alive id = true ∧ ∃ sock,
        next.clients id = { network.clients id with sock := sock } ∨
          ∃ surroundings handed object, event = .parse id surroundings ∧
            (network.clients id).client.command (network.clients id).sock =
              some handed ∧
            ClientObject.Change handed.argv (network.clients id) object ∧
            next.clients id = { object with sock := sock } := by
  cases event with
  | connect newId fd memory now =>
      obtain ⟨-, byFd, -, rfl⟩ := connect_eq_some advanced
      by_cases same : id = newId
      · subst same
        exact .inl ⟨fd, memory, now, rfl, setClient_clients_self _⟩
      · rw [withClient] at alive
        dsimp only at alive
        rw [Function.update_of_ne same] at alive
        exact .inr ⟨alive, (network.clients id).sock,
          .inl (setClient_clients_of_ne same _)⟩
  | receive fd recv freed =>
      refine .inr ?_
      rcases receive_eq_some advanced with
        rfl | ⟨reader, -, ⟨sock, -, rfl⟩ | deleted⟩
      · exact ⟨alive, _, .inl rfl⟩
      · obtain ⟨sock, kept⟩ := network.clients_setSock reader id sock
        exact ⟨alive, sock, .inl kept⟩
      · obtain ⟨before, same⟩ := client_of_delete deleted alive
        exact ⟨before, (network.clients id).sock, .inl same⟩
  | parse reader surroundings =>
      refine .inr ?_
      obtain ⟨sock, ⟨-, rfl⟩ |
        ⟨handed, value, after, hands, ran, -, rfl⟩⟩ :=
        advance_parse_eq_some advanced
      · obtain ⟨sock, kept⟩ := network.clients_setSock reader id sock
        exact ⟨alive, sock, .inl kept⟩
      · obtain ⟨before, way⟩ :=
          (HandlerCall.Leaves.handle handed.handler value after ran).clients id
            alive
        obtain ⟨sock, kept⟩ := after.clients_setSock reader id sock
        refine ⟨before, sock, ?_⟩
        rcases way with unchanged | ⟨rfl, change⟩
        · exact .inl (kept.trans (by rw [unchanged]; rfl))
        · exact .inr ⟨surroundings, handed, after.clients id, rfl, hands,
            change, kept⟩

/-- A channel after a step was there before, with other members, or it has been
made by a command. -/
theorem Network.advance_channel {server : NetworkServer δ}
    {network next : Network δ} {event : NetworkEvent δ}
    (advanced : network.advance server event = some next) {channel : Nat}
    (inside : channel < next.channelCount) :
    channel < network.channelCount ∧ (∃ members, next.channels channel =
        { network.channels channel with members := members }) ∨
      ∃ id surroundings members name, event = .parse id surroundings ∧
        next.channels channel =
          { surroundings.channel with
            members := members
            name := name
            owner := some id } := by
  cases event with
  | connect newId fd memory now =>
      obtain ⟨-, byFd, -, rfl⟩ := connect_eq_some advanced
      exact .inl ⟨inside, _, rfl⟩
  | receive fd recv freed =>
      rcases receive_eq_some advanced with
        rfl | ⟨reader, -, ⟨sock, -, rfl⟩ | deleted⟩
      · exact .inl ⟨inside, _, rfl⟩
      · exact .inl ⟨inside, _, rfl⟩
      · obtain ⟨-, byFd, byCallsign, -, -, rfl⟩ := delete_eq_some deleted
        exact .inl ⟨inside, _, rfl⟩
  | parse reader surroundings =>
      obtain ⟨sock, ⟨-, rfl⟩ |
        ⟨handed, value, after, -, ran, -, rfl⟩⟩ :=
        advance_parse_eq_some advanced
      · exact .inl ⟨inside, _, rfl⟩
      · rcases (HandlerCall.Leaves.handle handed.handler value after
            ran).channels channel inside with
          kept | ⟨-, members, name, made⟩
        · exact .inl kept
        · exact .inr ⟨reader, surroundings, members, name, rfl, made⟩

end Hamchat
