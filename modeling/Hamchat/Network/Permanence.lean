import Hamchat.Network.Changes

/-!
# What channels keep

A channel is made once, by a client that is alive, out of new memory.  From then on
no command changes anything about it but its members: not its name, its topic, its
key or its owner.
-/

namespace Hamchat

open Foundation

variable {server : NetworkServer δ} {network next final : Network δ}

/-- A handler removes no channel and no member record. -/
theorem HandlerCall.Made.counts {call : HandlerCall δ} {next : Network δ}
    (made : call.Made next) :
    call.network.channelCount ≤ next.channelCount ∧
      call.network.recordCount ≤ next.recordCount ∧
      ∀ record < call.network.recordCount,
        next.records record = call.network.records record := by
  induction made with
  | same | client | callsign => exact ⟨Nat.le_refl _, Nat.le_refl _, fun _ _ => rfl⟩
  | channel created =>
      obtain ⟨-, table, same⟩ := Network.newChannel_eq_some created
      rw [same]
      exact ⟨Nat.le_succ _, Nat.le_refl _, fun _ _ => rfl⟩
  | member _ added before =>
      obtain ⟨members, rfl⟩ := Network.addMember_eq_some added
      obtain ⟨channels, records, kept⟩ := before
      refine ⟨channels, Nat.le_succ_of_le records, fun record inside => ?_⟩
      dsimp only
      rw [Function.update_of_ne (by omega), kept record inside]
  | delete deleted =>
      obtain ⟨-, byFd, byCallsign, -, -, rfl⟩ := Network.delete_eq_some deleted
      exact ⟨Nat.le_refl _, Nat.le_refl _, fun _ _ => rfl⟩

/-- A step removes no channel and no member record. -/
theorem Network.advance_counts {event : NetworkEvent δ}
    (advanced : network.advance server event = some next) :
    network.channelCount ≤ next.channelCount ∧
      network.recordCount ≤ next.recordCount ∧
      ∀ record < network.recordCount,
        next.records record = network.records record := by
  have same : network.channelCount ≤ network.channelCount ∧
      network.recordCount ≤ network.recordCount ∧
      ∀ record < network.recordCount,
        network.records record = network.records record :=
    ⟨Nat.le_refl _, Nat.le_refl _, fun _ _ => rfl⟩
  cases event with
  | connect id fd memory now =>
      obtain ⟨-, byFd, -, rfl⟩ := connect_eq_some advanced
      exact same
  | receive fd recv freed =>
      rcases receive_eq_some advanced with
        rfl | ⟨reader, -, ⟨sock, -, rfl⟩ | deleted⟩
      · exact same
      · exact same
      · obtain ⟨-, byFd, byCallsign, -, -, rfl⟩ := delete_eq_some deleted
        exact same
  | parse reader surroundings =>
      obtain ⟨sock, ⟨-, rfl⟩ | ⟨handed, value, after, -, ran, -, rfl⟩⟩ :=
        advance_parse_eq_some advanced
      · exact same
      · exact (HandlerCall.Makes.handle handed.handler value after ran).counts

/-- A channel comes from another one when only its members change. -/
def ChannelObject.Keeps (before after : ChannelObject δ) : Prop :=
  ∃ members, after = { before with members := members }

theorem ChannelObject.Keeps.trans {first second third : ChannelObject δ}
    (before : first.Keeps second) (after : second.Keeps third) :
    first.Keeps third := by
  obtain ⟨_, rfl⟩ := before
  obtain ⟨members, rfl⟩ := after
  exact ⟨members, rfl⟩

/-- A channel of a client is made of some memory. -/
def ChannelObject.MadeOf (memory : ChannelObject δ) (id : Nat)
    (channel : ChannelObject δ) : Prop :=
  ∃ name, ChannelObject.Keeps { memory with name := name, owner := some id } channel

/-- A channel after a step is an old one, or the command of a live client has made
it. -/
theorem Network.channel_after {event : NetworkEvent δ}
    (advanced : network.advance server event = some next) {channel : Nat}
    (inside : channel < next.channelCount) :
    channel < network.channelCount ∧
        (network.channels channel).Keeps (next.channels channel) ∨
      network.channelCount ≤ channel ∧ ∃ id surroundings,
        event = .parse id surroundings ∧ network.alive id = true ∧
          surroundings.channel.MadeOf id (next.channels channel) := by
  cases event with
  | connect newId fd memory now =>
      obtain ⟨-, byFd, -, rfl⟩ := connect_eq_some advanced
      exact .inl ⟨inside, _, rfl⟩
  | receive fd recv freed =>
      rcases receive_eq_some advanced with
        rfl | ⟨reader, -, ⟨sock, -, rfl⟩ | deleted⟩
      · exact .inl ⟨inside, _, rfl⟩
      · exact .inl ⟨inside, _, rfl⟩
      · obtain ⟨-, byFd, byCallsign, -, -, rfl⟩ := delete_eq_some deleted
        exact .inl ⟨inside, _, rfl⟩
  | parse reader surroundings =>
      obtain ⟨sock, ⟨-, rfl⟩ | ⟨handed, value, after, -, ran, survives, rfl⟩⟩ :=
        advance_parse_eq_some advanced
      · exact .inl ⟨inside, _, rfl⟩
      · have leaves := HandlerCall.Leaves.handle handed.handler value after ran
        rcases leaves.channels channel inside with
          kept | ⟨new, members, name, made⟩
        · exact .inl kept
        · exact .inr ⟨new, reader, surroundings, rfl,
            (leaves.clients reader survives).1, name, members, made⟩

/-- A channel has been made in a run, by a command of a live client. -/
def Network.Since (server : NetworkServer δ) (network final : Network δ)
    (later : List (NetworkEvent δ)) (channel : Nat) : Prop :=
  ∃ before id surroundings state, before ++ [.parse id surroundings] <+: later ∧
    runFrom (Network.advance server) network before = some state ∧
    state.alive id = true ∧
    surroundings.channel.MadeOf id (final.channels channel)

/-- Over any run from any state, the channels and the member records that there are
stay.  A record does not change at all and a channel changes in nothing but its
members, and every other channel has been made by a command of a client that was
alive, which owns it. -/
theorem Network.channels_keep (server : NetworkServer δ)
    {later : List (NetworkEvent δ)}
    (goesOn : runFrom (Network.advance server) network later = some final) :
    (network.channelCount ≤ final.channelCount ∧
        network.recordCount ≤ final.recordCount) ∧
      (∀ record < network.recordCount,
        final.records record = network.records record) ∧
      ∀ channel < final.channelCount,
        channel < network.channelCount ∧
            (network.channels channel).Keeps (final.channels channel) ∨
          network.channelCount ≤ channel ∧
            Network.Since server network final later channel := by
  refine (Always.of_reached (fun past (state : Network δ) =>
    (network.channelCount ≤ state.channelCount ∧
        network.recordCount ≤ state.recordCount) ∧
      (∀ record < network.recordCount,
        state.records record = network.records record) ∧
      ∀ channel < state.channelCount,
        channel < network.channelCount ∧
            (network.channels channel).Keeps (state.channels channel) ∨
          network.channelCount ≤ channel ∧
            Network.Since server network state past channel) ?_ ?_).final goesOn
  · exact ⟨⟨Nat.le_refl _, Nat.le_refl _⟩, fun _ _ => rfl,
      fun channel inside => .inl ⟨inside, _, rfl⟩⟩
  · rintro past state event next - arrived ⟨⟨channels, records⟩, kept, each⟩ advanced
    obtain ⟨moreChannels, moreRecords, still⟩ := advance_counts advanced
    refine ⟨⟨by omega, by omega⟩, fun record inside => ?_, fun channel inside => ?_⟩
    · rw [still record (by omega), kept record inside]
    · rcases channel_after advanced inside with
        ⟨before, step⟩ | ⟨new, id, surroundings, rfl, alive, made⟩
      · rcases each channel before with ⟨old, keeps⟩ | ⟨new, since⟩
        · exact .inl ⟨old, keeps.trans step⟩
        · obtain ⟨earlier, id, surroundings, maker, within, came, alive, name,
            keeps⟩ := since
          exact .inr ⟨new, earlier, id, surroundings, maker,
            within.trans (List.prefix_append _ _), came, alive, name,
            keeps.trans step⟩
      · exact .inr ⟨by omega, past, id, surroundings, state, List.prefix_refl _,
          arrived, alive, made⟩

/-- A client takes a callsign and joins a channel. -/
def firstJoin : List (NetworkEvent (List (CString × Nat))) :=
  [.connect 0 4 .zeroed 0] ++
    typed 0 4 (.ofLiteral "NICK W1AW\r\n") (quietSurroundings .empty) ++
    typed 0 4 (.ofLiteral "JOIN #hf\r\n") (quietSurroundings .empty)

theorem Network.channels_keep_topic :
    ∃ network final,
      runFrom (Network.advance listServer) (.start listServer.directory) firstJoin =
          some network ∧
        runFrom (Network.advance listServer) network
          (typed 0 4 (.ofLiteral "TOPIC #hf :nets\r\n") (quietSurroundings .empty)) =
            some final ∧
        (network.channels 0).Keeps (final.channels 0) := by
  have returns : (runFrom (Network.advance listServer)
      (.start listServer.directory) firstJoin).any (fun network =>
        decide (network.channelCount = 1) &&
          (runFrom (Network.advance listServer) network
            (typed 0 4 (.ofLiteral "TOPIC #hf :nets\r\n")
              (quietSurroundings .empty))).isSome) = true := by
    decide +kernel
  obtain ⟨network, reached, rest⟩ := (Option.any_eq_true _ _).mp returns
  rw [Bool.and_eq_true, decide_eq_true_iff] at rest
  obtain ⟨final, goesOn⟩ := Option.isSome_iff_exists.mp rest.2
  have keeps := Network.channels_keep listServer goesOn
  refine ⟨network, final, reached, goesOn, ?_⟩
  rcases keeps.2.2 0 (by omega) with ⟨-, kept⟩ | ⟨new, -⟩
  · exact kept
  · omega

end Hamchat
