import Hamchat.Server.Channels
import Mathlib.Data.Finset.Card

/-!
# The limit of channels for a client

`m_join` compares `count_user_channels` with `USER_MAX_CHAN`, but that function
always returns -1.  So a JOIN is never refused with numeric 405, and the limit
holds only as long as no client asks for more.
-/

namespace Hamchat

open Foundation

/-- A JOIN command, or a `RemoveUser` on the channel of a name. -/
inductive ChannelCall
  /-- A JOIN command. -/
  | join (id argc : Nat) (chname : CString) (memory : JoinMemory) (now : Int)
  /-- `find_channel(chname)->RemoveUser(id)` -/
  | removeUser (id : Nat) (chname : CString) (channelFound : Bool)

namespace ChannelServer

/-- One call that returns. -/
def call (state : ChannelServer) : ChannelCall → Option ChannelServer
  | .join id argc chname memory now => state.join id argc chname memory now
  | .removeUser id chname channelFound =>
      state.removeUser id chname channelFound

/-- The clients of a server that has no channels yet. -/
def withoutChannels (server : ServerState) : ChannelServer :=
  ⟨server, fun _ => none⟩

/-! ## What the limit means -/

/-- A callsign is among the members of the channel of a name. -/
def MemberOf (state : ChannelServer) (callsign name : CString) : Prop :=
  ∃ channel, state.channels name = some channel ∧
    channel.members callsign ≠ none

/-- No client is a member of more than `USER_MAX_CHAN` channels. -/
def WithinLimit (state : ChannelServer) : Prop :=
  ∀ id cptr, state.server.live id = some cptr → ∀ names : Finset CString,
    (∀ name ∈ names, state.MemberOf cptr.client.callsign name) →
      (names.card : Int) ≤ userMaxChan

/-- A JOIN reaches the numeric 405. -/
def Refuses (state : ChannelServer) : ChannelCall → Prop
  | .join id argc chname memory _ =>
      1 ≤ argc ∧ chname ≠ .empty ∧
        (state.openChannel memory id chname).2.key = .empty ∧
        countUserChannels id ≥ userMaxChan
  | .removeUser .. => False

/-- A JOIN that is refused with 405 leaves no new channel behind. -/
def RefusesCleanly (state : ChannelServer) (call : ChannelCall) : Prop :=
  state.Refuses call → ∀ next, state.call call = some next →
    ∀ name, next.channels name ≠ none → state.channels name ≠ none

/-- A JOIN that makes a record is by a client in fewer than `USER_MAX_CHAN`
channels other than the one that it joins. -/
def KeepsLimit (state : ChannelServer) : ChannelCall → Prop
  | .join id argc chname memory _ =>
      state.MakesRecord id argc chname memory →
        ∀ cptr, state.server.live id = some cptr → ∀ names : Finset CString,
          (state.openChannel memory id chname).1 ∉ names →
          (∀ name ∈ names, state.MemberOf cptr.client.callsign name) →
          (names.card : Int) < userMaxChan
  | .removeUser .. => True

/-! ## One call -/

section Call

variable {state next : ChannelServer} {id argc : Nat} {chname : CString}
  {memory : JoinMemory} {now : Int}

/-- Registering a channel changes the members under its name only. -/
theorem memberOf_register (state : ChannelServer) (name : CString)
    (channel : Channel) (callsign other : CString) :
    (state.register name channel).MemberOf callsign other ↔
      if other = name then channel.members callsign ≠ none
      else state.MemberOf callsign other := by
  rw [MemberOf, register]
  by_cases same : other = name
  · simp [same]
  · simp [same, MemberOf]

/-- The members of the channel that a JOIN opens are members already. -/
theorem memberOf_of_openChannel {callsign : CString}
    (member : (state.openChannel memory id chname).2.members callsign ≠ none) :
    state.MemberOf callsign (state.openChannel memory id chname).1 := by
  rw [openChannel] at member ⊢
  split at member
  · rename_i chptr found
    rw [Option.ite_none_right_eq_some] at found
    exact ⟨chptr, found.2, member⟩
  · exact absurd rfl member

/-- While no member is new, the limit is kept. -/
theorem WithinLimit.of_memberOf (within : state.WithinLimit)
    (server : next.server = state.server)
    (members : ∀ callsign name, next.MemberOf callsign name →
      state.MemberOf callsign name) : next.WithinLimit := by
  intro id cptr alive names inside
  rw [server] at alive
  exact within id cptr alive names fun name member =>
    members _ name (inside name member)

/-- So it is by a channel that is registered with old members. -/
theorem WithinLimit.register (within : state.WithinLimit) {name : CString}
    {channel : Channel}
    (old : ∀ callsign, channel.members callsign ≠ none →
      state.MemberOf callsign name) :
    (state.register name channel).WithinLimit := by
  refine within.of_memberOf rfl fun callsign other member => ?_
  rw [memberOf_register] at member
  split at member
  · rename_i here
    rw [here]
    exact old callsign member
  · exact member

/-- A JOIN that makes a record keeps the limit exactly if the client is in fewer
channels. -/
theorem withinLimit_record_iff (within : state.WithinLimit) {cptr : LocalClient}
    (alive : state.server.live id = some cptr) {name : CString}
    {channel : Channel} {cm : MemberRecord}
    (opened : ∀ callsign, channel.members callsign ≠ none →
      state.MemberOf callsign name) :
    (state.register name { channel with
        members := Function.update channel.members cptr.client.callsign
          (some cm) }).WithinLimit ↔
      ∀ names : Finset CString, name ∉ names →
        (∀ other ∈ names, state.MemberOf cptr.client.callsign other) →
        (names.card : Int) < userMaxChan := by
  have members (callsign other : CString) :
      (state.register name { channel with
        members := Function.update channel.members cptr.client.callsign
          (some cm) }).MemberOf callsign other ↔
        if other = name then
          callsign = cptr.client.callsign ∨ channel.members callsign ≠ none
        else state.MemberOf callsign other := by
    rw [memberOf_register]
    by_cases same : callsign = cptr.client.callsign <;> simp [same]
  constructor
  · intro withinNext names absent inside
    have counted := withinNext id cptr alive (insert name names) (by
      intro other member
      rw [members]
      split
      · exact .inl rfl
      · rename_i different
        exact inside other (Finset.mem_of_mem_insert_of_ne member different))
    rw [Finset.card_insert_of_notMem absent] at counted
    omega
  · intro fewer other cptr' alive' names inside
    by_cases same : cptr'.client.callsign = cptr.client.callsign
    · have counted := fewer (names.erase name) (Finset.notMem_erase name names)
        (by
          intro other' member
          obtain ⟨different, member⟩ := Finset.mem_erase.mp member
          have inNext := (members _ other').mp (inside other' member)
          rw [if_neg different, same] at inNext
          exact inNext)
      have erased := Finset.pred_card_le_card_erase (s := names) (a := name)
      omega
    · refine within other cptr' alive' names fun other' member => ?_
      have inNext := (members _ other').mp (inside other' member)
      split at inNext
      · rename_i here
        rw [here]
        exact opened _ (inNext.resolve_left same)
      · exact inNext

/-- A JOIN keeps the limit exactly if it meets its condition. -/
theorem withinLimit_join_iff (within : state.WithinLimit)
    (joined : state.join id argc chname memory now = some next) :
    next.WithinLimit ↔
      state.KeepsLimit (.join id argc chname memory now) := by
  have opened (callsign : CString) :
      (state.openChannel memory id chname).2.members callsign ≠ none →
        state.MemberOf callsign (state.openChannel memory id chname).1 :=
    memberOf_of_openChannel
  obtain ⟨cptr, alive, ⟨noRecord, unchanged⟩ | ⟨makes, rfl⟩⟩ :=
    join_eq_some joined
  · refine iff_of_true ?_ fun makes => absurd makes noRecord
    rcases unchanged with rfl | rfl
    · exact within
    · exact within.register opened
  · rw [withinLimit_record_iff within alive opened]
    constructor
    · intro fewer _ cptr' alive'
      obtain rfl := Option.some.inj (alive.symm.trans alive')
      exact fewer
    · intro keeps
      exact keeps makes cptr alive

/-- `RemoveUser` keeps the limit. -/
theorem withinLimit_removeUser (within : state.WithinLimit)
    {channelFound : Bool}
    (removed : state.removeUser id chname channelFound = some next) :
    next.WithinLimit := by
  obtain rfl | ⟨cptr, chptr, -, found, rfl⟩ := removeUser_eq_some removed
  · exact within
  · refine within.register fun callsign member => ?_
    refine ⟨chptr, found, fun absent => member ?_⟩
    dsimp only
    rw [Function.update_apply, absent, ite_self]

/-- No JOIN is refused with 405. -/
theorem not_refuses (state : ChannelServer) (call : ChannelCall) :
    ¬state.Refuses call := by
  cases call with
  | join id argc chname memory now =>
      rintro ⟨-, -, -, many⟩
      exact countUserChannels_lt id many
  | removeUser id chname channelFound => exact fun refuses => refuses

/-- A call keeps the limit exactly if it meets its condition. -/
theorem withinLimit_call_iff (within : state.WithinLimit) {call : ChannelCall}
    (called : state.call call = some next) :
    next.WithinLimit ↔ state.KeepsLimit call := by
  cases call with
  | join id argc chname memory now => exact withinLimit_join_iff within called
  | removeUser id chname channelFound =>
      exact iff_of_true (withinLimit_removeUser within called) trivial

end Call

/-! ## Runs -/

/-- In a run of JOINs and `RemoveUser`s on a server without channels no client
is ever in more than `USER_MAX_CHAN` channels and no refused JOIN leaves a
channel behind, exactly if every JOIN that makes a record is by a client in
fewer channels. -/
theorem channelLimit_iff (server : ServerState) (calls : List ChannelCall) :
    (Always call (withoutChannels server) (fun _ state => state.WithinLimit)
        calls ∧
      EachStep call (withoutChannels server) RefusesCleanly calls) ↔
      EachStep call (withoutChannels server) KeepsLimit calls := by
  have atStart : (withoutChannels server).WithinLimit := by
    intro id cptr _ names inside
    have none_inside : names = ∅ := by
      refine Finset.eq_empty_of_forall_notMem fun name member => ?_
      obtain ⟨channel, registered, -⟩ := inside name member
      cases registered
    rw [none_inside]
    decide
  have clean : EachStep call (withoutChannels server) RefusesCleanly calls :=
    fun _ event _ state _ _ _ refuses =>
      absurd refuses (not_refuses state event)
  rw [and_iff_left clean]
  refine (Always.iff_of_step_iff (fun _ => True) WithinLimit trivial
    (fun _ _ _ _ _ => trivial) ?_).trans (and_iff_right atStart)
  intro state event next _ within called
  exact withinLimit_call_iff within called

/-- A server with one client. -/
def oneClient : ServerState :=
  { ServerState.start with
    live := Function.update ServerState.start.live 0
      (some ⟨4, freshClient⟩) }

/-- The names `#` and a letter or another byte. -/
def manyNames : List CString :=
  (List.range 65).map fun index => .read [35, UInt8.ofNat (index + 48)]

/-- A client that joins 65 channels is a member of all of them. -/
theorem sixty_five_channels :
    ¬(Always call (withoutChannels oneClient)
          (fun _ state => state.WithinLimit)
          (manyNames.map fun name =>
            .join 0 1 name ⟨true, true, .empty, none, false⟩ 1) ∧
        EachStep call (withoutChannels oneClient) RefusesCleanly
          (manyNames.map fun name =>
            .join 0 1 name ⟨true, true, .empty, none, false⟩ 1)) := by
  rintro ⟨always, -⟩
  have joined : (runFrom call (withoutChannels oneClient)
      (manyNames.map fun name =>
        .join 0 1 name ⟨true, true, .empty, none, false⟩ 1)).map
      (fun state => manyNames.all fun name =>
        (state.channels name).any fun channel =>
          (channel.members .empty).isSome) = some true := by
    decide +kernel
  have alive : (runFrom call (withoutChannels oneClient)
      (manyNames.map fun name =>
        .join 0 1 name ⟨true, true, .empty, none, false⟩ 1)).map
      (fun state => (state.server.live 0).map fun cptr =>
        cptr.client.callsign) = some (some .empty) := by
    decide +kernel
  obtain ⟨state, reached, joined⟩ := Option.map_eq_some_iff.mp joined
  rw [reached] at alive
  obtain ⟨cptr, alive, callsign⟩ :=
    Option.map_eq_some_iff.mp (Option.some.inj alive)
  have counted := always.final reached 0 cptr alive manyNames.toFinset (by
    intro name member
    have registered := List.all_eq_true.mp joined name
      (List.mem_toFinset.mp member)
    obtain ⟨channel, found, record⟩ := (Option.any_eq_true ..).mp registered
    rw [callsign]
    exact ⟨channel, found, fun absent => by rw [absent] at record; cases record⟩)
  have sixtyFive : manyNames.toFinset.card = 65 := by decide +kernel
  rw [sixtyFive] at counted
  revert counted
  decide

end ChannelServer

end Hamchat
