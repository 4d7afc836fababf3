import Hamchat.Server.Steps

/-!
# Channels and the clients they refer to

`Channel::Channel` stores a pointer to the client that creates the channel, and
`Channel::AddUser` makes a record for each member.  `AddUser` never assigns the
pointer of the record, and `Client::~Client` walks no channel.  `Channels` and
`members` map a name to what was registered under it last.  Since the dictionary
may lose a pointer, a search may find what is registered or return NULL.
-/

namespace Hamchat

open Foundation

/-! ## Channels -/

/-- `CHAN_LEN` -/
def chanLen : Nat := 24

/-- `USER_MAX_CHAN` -/
def userMaxChan : Int := 64

/-- `irc_channel_member`, without the flags that nothing sets. -/
structure MemberRecord where
  /-- `Client *cptr`, if it is the address of a client that was constructed. -/
  cptr : Option Nat
  /-- `time_t join_time` -/
  joinTime : Int
  /-- The client for which `AddUser` made the record. -/
  added : Nat

/-- `Channel` -/
structure Channel where
  /-- `Client *owner` -/
  owner : Option Nat
  /-- `char key[KEY_LEN]`, read as a string. -/
  key : CString
  /-- `dict *members` -/
  members : CString → Option MemberRecord

/-- The clients of a server and its channels. -/
structure ChannelServer where
  /-- The clients. -/
  server : ServerState
  /-- `dict *Channels` -/
  channels : CString → Option Channel

/-- The server before the first connection. -/
def ChannelServer.start : ChannelServer := ⟨.start, fun _ => none⟩

/-- What a JOIN meets: the results of its searches, and the memory that it gets
from the allocator. -/
structure JoinMemory where
  /-- `find_channel` finds the channel that is registered. -/
  channelFound : Bool
  /-- `dict_get_blob` finds the member that is registered. -/
  memberFound : Bool
  /-- `key` of a new `Channel`. -/
  key : CString
  /-- `cptr` of a new `irc_channel_member`. -/
  cptr : Option Nat
  /-- What `strcasecmp` reports when it reads through a `cptr` that is not the
  address of a live client. -/
  sameCallsign : Bool

/-- `strcasecmp(cm->cptr->GetCallsign(), callsign) == 0` -/
def MemberRecord.sameCallsign (cm : MemberRecord)
    (live : Nat → Option LocalClient) (memory : JoinMemory)
    (callsign : CString) : Bool :=
  match cm.cptr.bind live with
  | some other => other.client.callsign.sameIgnoringCase callsign
  | none => memory.sameCallsign

/-- `Channel::AddUser` finds the client among the members. -/
def Channel.hasUser (channel : Channel) (live : Nat → Option LocalClient)
    (memory : JoinMemory) (callsign : CString) : Bool :=
  memory.memberFound && (channel.members callsign).any fun cm =>
    cm.sameCallsign live memory callsign

/-- `Channel::AddUser`, which does not assign `cptr`. -/
def Channel.addUser (channel : Channel) (live : Nat → Option LocalClient)
    (memory : JoinMemory) (id : Nat) (callsign : CString) (now : Int) :
    Channel :=
  if channel.hasUser live memory callsign then
    channel
  else
    { channel with
      members := Function.update channel.members callsign
        (some ⟨memory.cptr, now, id⟩) }

/-- `atoi(chname) == '0'` for a name of one character. -/
def isZeroName (chname : CString) : Bool :=
  match chname.bytes with
  | [byte] => (if 48 ≤ byte ∧ byte ≤ 57 then byte.toNat - 48 else 0) = 48
  | _ => false

/-- `count_user_channels` -/
def countUserChannels (_id : Nat) : Int := -1

namespace ChannelServer

variable (state : ChannelServer)

/-- `find_channel`, and `find_or_add_channel` if it finds nothing: the name of
the channel in `Channels`, and the channel. -/
def openChannel (memory : JoinMemory) (id : Nat) (chname : CString) :
    CString × Channel :=
  match if memory.channelFound then state.channels chname else none with
  | some chptr => (chname, chptr)
  | none =>
      (chname.truncate chanLen, ⟨some id, memory.key, fun _ => none⟩)

/-- A channel under its name. -/
def register (name : CString) (channel : Channel) : ChannelServer :=
  { state with
    channels := Function.update state.channels name (some channel) }

/-- `m_join` -/
def join (id : Nat) (argc : Nat) (chname : CString) (memory : JoinMemory)
    (now : Int) : Option ChannelServer := do
  let cptr ← state.server.live id
  if argc < 1 then
    some state
  else if chname = .empty then
    some state
  else if isZeroName chname then
    some state
  else
    let (name, chptr) := state.openChannel memory id chname
    if chptr.key ≠ .empty then
      some (state.register name chptr)
    else if countUserChannels id ≥ userMaxChan then
      some (state.register name chptr)
    else
      some (state.register name
        (chptr.addUser state.server.live memory id cptr.client.callsign now))

/-- `find_channel(chname)` and, if it finds one, `RemoveUser`. -/
def removeUser (id : Nat) (chname : CString) (channelFound : Bool) :
    Option ChannelServer := do
  let cptr ← state.server.live id
  match if channelFound then state.channels chname else none with
  | none => some state
  | some chptr =>
      some (state.register chname { chptr with
        members := Function.update chptr.members cptr.client.callsign none })

end ChannelServer

/-- A call that changes the clients or the channels. -/
inductive ChannelEvent
  /-- `new Client(CLI_TYPE_LOCAL, fd)` -/
  | connect (fd : Int) (memory : Client) (now : Int)
  /-- A NICK command. -/
  | nick (id : Nat) (newCall : CString) (now : Int)
  /-- A JOIN command. -/
  | join (id argc : Nat) (chname : CString) (memory : JoinMemory) (now : Int)
  /-- `find_channel(chname)->RemoveUser(id)` -/
  | removeUser (id : Nat) (chname : CString) (channelFound : Bool)
  /-- `delete id`, after a hangup, a QUIT or a KILL. -/
  | delete (id : Nat)

/-- One call that returns. -/
def ChannelServer.step (text : ServerText) (state : ChannelServer) :
    ChannelEvent → Option ChannelServer
  | .connect fd memory now =>
      (state.server.construct fd memory now).map ({ state with server := · })
  | .nick id newCall now =>
      (state.server.nick text id newCall now).map
        ({ state with server := ·.2 })
  | .join id argc chname memory now => state.join id argc chname memory now
  | .removeUser id chname channelFound =>
      state.removeUser id chname channelFound
  | .delete id => (state.server.destroy id).map ({ state with server := · })

/-! ## References -/

/-- The owner of a channel is NULL or alive, and each record points to the live
client for which it was made. -/
structure Channel.Sound (channel : Channel) (live : Nat → Option LocalClient) :
    Prop where
  /-- The owner. -/
  owner : ∀ client, channel.owner = some client → live client ≠ none
  /-- The records. -/
  members : ∀ callsign cm, channel.members callsign = some cm →
    cm.cptr = some cm.added ∧ live cm.added ≠ none

/-- A channel mentions a client as its owner or in a record. -/
def Channel.Mentions (channel : Channel) (id : Nat) : Prop :=
  channel.owner = some id ∨
    ∃ callsign cm, channel.members callsign = some cm ∧ cm.added = id

namespace ChannelServer

variable {state next : ChannelServer} {text : ServerText}

/-- Every channel in `Channels` is sound. -/
def NoDangling (state : ChannelServer) : Prop :=
  ∀ name channel, state.channels name = some channel →
    channel.Sound state.server.live

/-- A JOIN makes a record: it names a channel without a key, among whose members
the client is not found. -/
def MakesRecord (state : ChannelServer) (id argc : Nat) (chname : CString)
    (memory : JoinMemory) : Prop :=
  1 ≤ argc ∧ chname ≠ .empty ∧ ∃ cptr, state.server.live id = some cptr ∧
    (state.openChannel memory id chname).2.key = .empty ∧
    (state.openChannel memory id chname).2.hasUser state.server.live memory
      cptr.client.callsign = false

/-- A call keeps the references of all channels.  The memory of a record that a
JOIN makes holds the address of the client already, and no channel mentions a
client that is deleted. -/
def KeepsReferences (state : ChannelServer) : ChannelEvent → Prop
  | .connect .. | .nick .. | .removeUser .. => True
  | .join id argc chname memory _ =>
      state.MakesRecord id argc chname memory → memory.cptr = some id
  | .delete id =>
      ∀ name channel, state.channels name = some channel → ¬channel.Mentions id

/-! ## One call -/

theorem isZeroName_eq_false (chname : CString) : isZeroName chname = false := by
  rw [isZeroName]
  split
  · rename_i byte _
    rw [decide_eq_false_iff_not]
    split
    · rename_i digit
      have small : byte.toNat ≤ 57 := UInt8.le_iff_toNat_le.mp digit.2
      omega
    · decide
  · rfl

/-- No client has too many channels. -/
theorem countUserChannels_lt (id : Nat) :
    ¬countUserChannels id ≥ userMaxChan := by
  rw [countUserChannels]
  decide

/-- References stay sound while more clients are alive. -/
theorem NoDangling.of_live (sound : state.NoDangling)
    (channels : next.channels = state.channels)
    (live : ∀ client, state.server.live client ≠ none →
      next.server.live client ≠ none) : next.NoDangling := by
  intro name channel registered
  rw [channels] at registered
  have before := sound name channel registered
  exact ⟨fun client owns => live client (before.owner client owns),
    fun callsign cm record =>
      ⟨(before.members callsign cm record).1,
        live _ (before.members callsign cm record).2⟩⟩

/-- A client that is replaced by another value is still alive. -/
theorem live_update {live : Nat → Option LocalClient} {id client : Nat}
    {cptr : LocalClient} (alive : live client ≠ none) :
    Function.update live id (some cptr) client ≠ none := by
  rw [Function.update_apply]
  split
  · exact Option.some_ne_none _
  · exact alive

/-- References stay sound exactly if they are in the channel that changes. -/
theorem noDangling_register (sound : state.NoDangling) {name : CString}
    {channel : Channel} : (state.register name channel).NoDangling ↔
      channel.Sound state.server.live := by
  constructor
  · intro registered
    exact registered name channel (Function.update_self ..)
  · intro channelSound name' channel' registered
    by_cases same : name' = name
    · subst same
      obtain rfl : channel = channel' := by
        simpa [register] using registered
      exact channelSound
    · refine sound name' channel' ?_
      simpa [register, same] using registered

/-- The channel that a JOIN opens is sound. -/
theorem NoDangling.openChannel (sound : state.NoDangling) {memory : JoinMemory}
    {id : Nat} {chname : CString} {cptr : LocalClient}
    (alive : state.server.live id = some cptr) :
    (state.openChannel memory id chname).2.Sound state.server.live := by
  rw [ChannelServer.openChannel]
  split
  · rename_i chptr found
    rw [Option.ite_none_right_eq_some] at found
    exact sound chname chptr found.2
  · refine ⟨fun client owns => ?_, fun callsign cm record => by cases record⟩
    obtain rfl := Option.some.inj owns
    rw [alive]
    exact Option.some_ne_none _

/-- A JOIN leaves the channels as they are, registers the channel that it has
opened, or makes a record in that channel. -/
theorem join_eq_some {id argc : Nat} {chname : CString} {memory : JoinMemory}
    {now : Int} (joined : state.join id argc chname memory now = some next) :
    ∃ cptr, state.server.live id = some cptr ∧
      (¬state.MakesRecord id argc chname memory ∧
          (next = state ∨
            next = state.register (state.openChannel memory id chname).1
              (state.openChannel memory id chname).2) ∨
        state.MakesRecord id argc chname memory ∧
          next = state.register (state.openChannel memory id chname).1
            { (state.openChannel memory id chname).2 with
              members := Function.update
                (state.openChannel memory id chname).2.members
                cptr.client.callsign (some ⟨memory.cptr, now, id⟩) }) := by
  rw [join, Option.bind_eq_bind, Option.bind_eq_some_iff] at joined
  obtain ⟨cptr, alive, joined⟩ := joined
  refine ⟨cptr, alive, ?_⟩
  rw [isZeroName_eq_false] at joined
  split at joined
  · rename_i few
    obtain rfl := Option.some.inj joined
    exact .inl ⟨fun makes => absurd makes.1 (by omega), .inl rfl⟩
  rename_i given
  split at joined
  · rename_i unnamed
    obtain rfl := Option.some.inj joined
    exact .inl ⟨fun makes => absurd unnamed makes.2.1, .inl rfl⟩
  rename_i named
  rw [if_neg (by decide)] at joined
  dsimp only at joined
  split at joined
  · rename_i hasKey
    obtain rfl := Option.some.inj joined
    refine .inl ⟨?_, .inr rfl⟩
    rintro ⟨-, -, -, -, noKey, -⟩
    exact absurd noKey hasKey
  rename_i noKey
  rw [if_neg (countUserChannels_lt id)] at joined
  obtain rfl := Option.some.inj joined
  rw [Channel.addUser]
  cases found : (state.openChannel memory id chname).2.hasUser
      state.server.live memory cptr.client.callsign with
  | true =>
      refine .inl ⟨?_, .inr (by rw [if_pos rfl])⟩
      rintro ⟨-, -, cptr', alive', -, absent⟩
      obtain rfl := Option.some.inj (alive.symm.trans alive')
      rw [found] at absent
      cases absent
  | false =>
      exact .inr ⟨⟨by omega, named, cptr, alive, not_not.mp noKey, found⟩,
        by rw [if_neg Bool.false_ne_true]⟩

/-- `RemoveUser` leaves the channels as they are, or removes a record from the
channel of the name. -/
theorem removeUser_eq_some {id : Nat} {chname : CString} {channelFound : Bool}
    (removed : state.removeUser id chname channelFound = some next) :
    next = state ∨ ∃ cptr chptr, state.server.live id = some cptr ∧
      state.channels chname = some chptr ∧
      next = state.register chname
        { chptr with
          members := Function.update chptr.members cptr.client.callsign
            none } := by
  rw [removeUser, Option.bind_eq_bind, Option.bind_eq_some_iff] at removed
  obtain ⟨cptr, alive, removed⟩ := removed
  split at removed
  · exact .inl (Option.some.inj removed).symm
  · rename_i chptr found
    rw [Option.ite_none_right_eq_some] at found
    exact .inr ⟨cptr, chptr, alive, found.2, (Option.some.inj removed).symm⟩

/-- A channel with a new record is sound exactly if the memory of the record
holds the address of the client. -/
theorem sound_record_iff {channel : Channel}
    {live : Nat → Option LocalClient} {id : Nat} {callsign : CString}
    {cptr : Option Nat} {now : Int} (sound : channel.Sound live)
    (alive : live id ≠ none) :
    Channel.Sound { channel with
        members := Function.update channel.members callsign
          (some ⟨cptr, now, id⟩) } live ↔ cptr = some id := by
  constructor
  · intro soundNext
    exact (soundNext.members callsign _ (Function.update_self ..)).1
  · intro holds
    refine ⟨sound.owner, fun callsign' cm record => ?_⟩
    dsimp only at record
    by_cases same : callsign' = callsign
    · subst same
      rw [Function.update_self, Option.some.injEq] at record
      subst record
      exact ⟨holds, alive⟩
    · rw [Function.update_of_ne same] at record
      exact sound.members callsign' cm record

/-- A JOIN keeps references sound exactly if it meets its condition. -/
theorem noDangling_join_iff (sound : state.NoDangling) {id argc : Nat}
    {chname : CString} {memory : JoinMemory} {now : Int}
    (joined : state.join id argc chname memory now = some next) :
    next.NoDangling ↔
      (state.MakesRecord id argc chname memory → memory.cptr = some id) := by
  obtain ⟨cptr, alive, ⟨noRecord, unchanged⟩ | ⟨makes, rfl⟩⟩ :=
    join_eq_some joined
  · refine iff_of_true ?_ fun makes => absurd makes noRecord
    rcases unchanged with rfl | rfl
    · exact sound
    · exact (noDangling_register sound).mpr (sound.openChannel alive)
  · have living : state.server.live id ≠ none := by
      rw [alive]
      exact Option.some_ne_none _
    rw [noDangling_register sound,
      sound_record_iff (sound.openChannel alive) living]
    exact ⟨fun address _ => address, fun keeps => keeps makes⟩

/-- `RemoveUser` keeps references sound. -/
theorem noDangling_removeUser (sound : state.NoDangling) {id : Nat}
    {chname : CString} {channelFound : Bool}
    (removed : state.removeUser id chname channelFound = some next) :
    next.NoDangling := by
  obtain rfl | ⟨cptr, chptr, -, found, rfl⟩ := removeUser_eq_some removed
  · exact sound
  · have before := sound chname chptr found
    refine (noDangling_register sound).mpr
      ⟨before.owner, fun callsign cm record => before.members callsign cm ?_⟩
    dsimp only at record
    rw [Function.update_apply] at record
    split at record
    · cases record
    · exact record

/-- A destructor keeps references sound exactly if no channel mentions the
client. -/
theorem noDangling_delete_iff (sound : state.NoDangling) {id : Nat}
    (channels : next.channels = state.channels)
    (live : next.server.live = Function.update state.server.live id none) :
    next.NoDangling ↔
      ∀ name channel, state.channels name = some channel →
        ¬channel.Mentions id := by
  have gone : next.server.live id = none := by
    rw [live, Function.update_self]
  constructor
  · intro soundNext name channel registered mentions
    have after := soundNext name channel (by rw [channels]; exact registered)
    rcases mentions with owns | ⟨callsign, cm, record, rfl⟩
    · exact after.owner id owns gone
    · exact (after.members callsign cm record).2 gone
  · intro unmentioned name channel registered
    rw [channels] at registered
    have before := sound name channel registered
    have elsewhere := unmentioned name channel registered
    rw [live]
    constructor
    · intro client owns
      rw [Function.update_of_ne]
      · exact before.owner client owns
      · rintro rfl
        exact elsewhere (.inl owns)
    · intro callsign cm record
      refine ⟨(before.members callsign cm record).1, ?_⟩
      rw [Function.update_of_ne]
      · exact (before.members callsign cm record).2
      · rintro rfl
        exact elsewhere (.inr ⟨callsign, cm, record, rfl⟩)

/-- A call keeps references sound exactly if it meets its condition. -/
theorem noDangling_step_iff (sound : state.NoDangling) {event : ChannelEvent}
    (stepped : state.step text event = some next) :
    next.NoDangling ↔ state.KeepsReferences event := by
  cases event with
  | connect fd memory now =>
      obtain ⟨server, constructed, rfl⟩ := Option.map_eq_some_iff.mp stepped
      have applied : state.server.apply text (.connect fd memory now) =
          some (true, server) := congrArg (Option.map (true, ·)) constructed
      obtain ⟨clientsByFd, -, rfl⟩ := ServerState.connect_eq_some applied
      exact iff_of_true (sound.of_live rfl fun _ => live_update) trivial
  | nick id newCall now =>
      obtain ⟨⟨result, server⟩, returned, rfl⟩ :=
        Option.map_eq_some_iff.mp stepped
      have applied : state.server.apply text (.nick id newCall now) =
          some (result, server) := returned
      obtain ⟨cptr, -, ⟨-, -, rfl⟩ | ⟨-, -, forgotten, table, -, -, rfl⟩⟩ :=
        ServerState.nick_eq_some applied
      · exact iff_of_true sound trivial
      · exact iff_of_true (sound.of_live rfl fun _ => live_update) trivial
  | join id argc chname memory now => exact noDangling_join_iff sound stepped
  | removeUser id chname channelFound =>
      exact iff_of_true (noDangling_removeUser sound stepped) trivial
  | delete id =>
      obtain ⟨server, destroyed, rfl⟩ := Option.map_eq_some_iff.mp stepped
      have applied : state.server.apply text (.delete id) =
          some (true, server) := congrArg (Option.map (true, ·)) destroyed
      obtain ⟨cptr, clientsByFd, clientsByCallsign, -, -, -, rfl⟩ :=
        ServerState.delete_eq_some applied
      exact noDangling_delete_iff sound rfl rfl

/-! ## Runs -/

/-- No channel has a dangling reference throughout a run exactly if every call
of the run keeps the references. -/
theorem noDangling_iff (text : ServerText) (events : List ChannelEvent) :
    Always (step text) start (fun _ state => state.NoDangling) events ↔
      EachStep (step text) start KeepsReferences events := by
  have atStart : start.NoDangling := by
    intro name channel registered
    cases registered
  refine (Always.iff_of_step_iff (fun _ => True) NoDangling trivial
    (fun _ _ _ _ _ => trivial) ?_).trans (and_iff_right atStart)
  intro state event next _ sound stepped
  exact noDangling_step_iff sound stepped

/-- The record of the first member of a channel points nowhere. -/
theorem join_leaves_cptr_unset :
    ¬Always (step .bare) start (fun _ state => state.NoDangling)
      [.connect 4 freshClient 1,
        .join 0 1 (.ofLiteral "#hf") ⟨false, false, .empty, none, false⟩ 1] := by
  intro always
  have unset : (runFrom (step .bare) start
      [.connect 4 freshClient 1,
        .join 0 1 (.ofLiteral "#hf") ⟨false, false, .empty, none, false⟩ 1]).bind
        (fun state => (state.channels (.ofLiteral "#hf")).bind fun channel =>
          (channel.members .empty).map fun cm => cm.cptr) = some none := by
    decide +kernel
  obtain ⟨state, reached, unset⟩ := Option.bind_eq_some_iff.mp unset
  obtain ⟨channel, registered, unset⟩ := Option.bind_eq_some_iff.mp unset
  obtain ⟨cm, record, unset⟩ := Option.map_eq_some_iff.mp unset
  have points := ((always.final reached _ channel registered).members _ cm
    record).1
  rw [unset] at points
  cases points

end ChannelServer

end Hamchat
