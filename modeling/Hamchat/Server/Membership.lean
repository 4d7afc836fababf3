import Hamchat.Server.Steps

/-!
# Members of a channel

A channel records its members under the callsign they had when they joined, and
no call moves or drops the records of a client that changes its callsign or
goes away.  So `IsMember` is right exactly in the runs in which callsigns and
records never come apart.
-/

namespace Hamchat

open Foundation

namespace ServerState

variable (state : ServerState)

/-- No other client has the callsign of a client. -/
def SoleHolder (id : Nat) (cptr : LocalClient) : Prop :=
  ∀ other cptr', state.live other = some cptr' →
    cptr'.client.callsign = cptr.client.callsign → other = id

/-- A call keeps `IsMember` right.  A new client finds no record under the
callsign in its memory, an accepted NICK finds in each channel both callsigns
recorded or neither, and nobody shares the callsign of a client that enters or
leaves a channel. -/
def KeepsMembership : ServerEvent → Prop
  | .connect _ memory _ =>
      ∀ channel, state.members channel memory.callsign = none
  | .nick id newCall _ =>
      state.AcceptsNick newCall → ∀ cptr, state.live id = some cptr →
        ∀ channel,
          (state.members channel (newCall.truncate callsignLen)).isSome =
            (state.members channel cptr.client.callsign).isSome
  | .addUser id channel _ _ =>
      ∀ cptr, state.live id = some cptr →
        state.members channel cptr.client.callsign = none →
          state.SoleHolder id cptr
  | .removeUser id channel =>
      ∀ cptr, state.live id = some cptr →
        state.members channel cptr.client.callsign ≠ none →
          state.SoleHolder id cptr
  | .delete _ => True

end ServerState

namespace ObservedServer

variable {text : ServerText} {observed next : ObservedServer}
variable {event : ServerEvent} {id channel : Nat} {cptr : LocalClient}

/-- `IsMember` says of each client whether it has joined. -/
def MembershipHolds (observed : ObservedServer) : Prop :=
  ∀ id cptr, observed.server.live id = some cptr → ∀ channel,
    observed.server.isMember channel cptr = observed.joined channel id

/-- Clients that were not constructed yet do not exist and have not joined. -/
def FreshUnknown (observed : ObservedServer) : Prop :=
  ∀ id, observed.server.created ≤ id → observed.server.live id = none ∧
    ∀ channel, observed.joined channel id = false

/-! ## Two kinds of change -/

/-- A new client or a new callsign keeps `IsMember` right exactly if `IsMember`
is right about this client. -/
theorem membershipHolds_of_live (holds : observed.MembershipHolds)
    (live : next.server.live =
      Function.update observed.server.live id (some cptr))
    (members : next.server.members = observed.server.members)
    (joined : next.joined = observed.joined) :
    next.MembershipHolds ↔
      ∀ channel, observed.server.isMember channel cptr =
        observed.joined channel id := by
  have sameMember : ∀ channel cptr', next.server.isMember channel cptr' =
      observed.server.isMember channel cptr' := by
    intro channel cptr'
    rw [ServerState.isMember, ServerState.isMember, members]
  constructor
  · intro right channel
    rw [← sameMember, ← joined]
    exact right id cptr (by rw [live, Function.update_self]) channel
  · intro right other cptr' alive channel
    rw [sameMember, joined]
    rw [live] at alive
    by_cases same : other = id
    · subst same
      rw [Function.update_self, Option.some.injEq] at alive
      rw [← alive]
      exact right channel
    · rw [Function.update_of_ne same] at alive
      exact holds other cptr' alive channel

/-- Entering or leaving a channel keeps `IsMember` right exactly if it changes
nothing or nobody else has the callsign. -/
theorem membershipHolds_of_members (holds : observed.MembershipHolds)
    (alive : observed.server.live id = some cptr) {member : Option Member}
    (server : next.server =
      observed.server.setMember channel cptr.client.callsign member)
    (joined : next.joined =
      updateAt observed.joined channel id member.isSome) :
    next.MembershipHolds ↔
      (observed.server.isMember channel cptr ≠ member.isSome →
        observed.server.SoleHolder id cptr) := by
  have live : next.server.live = observed.server.live := by
    rw [server, ServerState.setMember_live]
  constructor
  · intro right changes other cptr' aliveOther sameCallsign
    by_contra different
    have before := holds other cptr' aliveOther channel
    have after := right other cptr' (by rw [live]; exact aliveOther) channel
    rw [server, ServerState.isMember_setMember, if_pos ⟨rfl, sameCallsign⟩,
      joined, updateAt_apply, if_neg (by simp [different]), ← before] at after
    have sameAnswer : observed.server.isMember channel cptr' =
        observed.server.isMember channel cptr := by
      rw [ServerState.isMember, ServerState.isMember, sameCallsign]
    exact changes (by rw [after, sameAnswer])
  · intro sole other cptr' aliveOther channel'
    rw [live] at aliveOther
    have before := holds other cptr' aliveOther channel'
    rw [server, ServerState.isMember_setMember, joined, updateAt_apply]
    by_cases here : channel' = channel
    · subst here
      by_cases self : other = id
      · subst self
        obtain rfl := Option.some.inj (alive.symm.trans aliveOther)
        simp
      · by_cases sameCallsign :
            cptr'.client.callsign = cptr.client.callsign
        · have unchanged :
              observed.server.isMember channel' cptr = member.isSome := by
            by_contra changes
            exact self (sole changes other cptr' aliveOther sameCallsign)
          rw [if_pos ⟨rfl, sameCallsign⟩, if_neg (by simp [self]), ← before,
            ← unchanged, ServerState.isMember, ServerState.isMember,
            sameCallsign]
        · rw [if_neg (by simp [sameCallsign]), if_neg (by simp [self]),
            before]
    · rw [if_neg (by simp [here]), if_neg (by simp [here]), before]

/-! ## One call -/

/-- A call keeps `IsMember` right exactly if it meets the condition. -/
theorem membershipHolds_step_iff (holds : observed.MembershipHolds)
    (fresh : observed.FreshUnknown)
    (stepped : observed.step text event = some next) :
    next.MembershipHolds ↔ observed.server.KeepsMembership event := by
  obtain ⟨result, server, applied, rfl⟩ := step_eq_some stepped
  cases event with
  | connect fd memory now =>
      obtain ⟨clientsByFd, -, rfl⟩ := ServerState.connect_eq_some applied
      refine Iff.trans (membershipHolds_of_live holds rfl rfl rfl) ?_
      refine forall_congr' fun channel => ?_
      rw [(fresh _ (Nat.le_refl _)).2 channel]
      exact ServerState.isMember_eq_false
  | nick id newCall now =>
      obtain ⟨cptr, alive, ⟨rfl, rejected, rfl⟩ |
        ⟨rfl, accepted, forgotten, table, -, -, rfl⟩⟩ :=
          ServerState.nick_eq_some applied
      · exact iff_of_true holds fun accepted => absurd accepted rejected
      · refine Iff.trans (membershipHolds_of_live holds rfl rfl rfl) ?_
        constructor
        · intro right _ cptr' alive' channel
          obtain rfl := Option.some.inj (alive.symm.trans alive')
          exact (right channel).trans (holds id cptr alive channel).symm
        · intro keeps channel
          exact (keeps accepted cptr alive channel).trans
            (holds id cptr alive channel)
  | addUser id channel sameCallsign now =>
      obtain ⟨cptr, alive, ⟨rfl, isMember, rfl⟩ | ⟨rfl, rfl⟩⟩ :=
        ServerState.addUser_eq_some applied
      · refine iff_of_true holds fun cptr' alive' notMember => ?_
        obtain rfl := Option.some.inj (alive.symm.trans alive')
        exact absurd notMember (ServerState.isMember_eq_true.mp isMember)
      · refine Iff.trans (membershipHolds_of_members holds alive rfl rfl) ?_
        simp [ServerState.KeepsMembership, alive,
          ServerState.isMember_eq_false]
  | removeUser id channel =>
      obtain ⟨cptr, alive, rfl, rfl⟩ := ServerState.removeUser_eq_some applied
      refine Iff.trans (membershipHolds_of_members holds alive rfl rfl) ?_
      simp [ServerState.KeepsMembership, alive, ServerState.isMember_eq_true]
  | delete id =>
      obtain ⟨cptr, clientsByFd, clientsByCallsign, -, -, -, rfl⟩ :=
        ServerState.delete_eq_some applied
      refine iff_of_true ?_ trivial
      intro other cptr' alive channel
      by_cases same : other = id
      · subst same
        simp at alive
      · exact holds other cptr' (by simpa [same] using alive) channel

/-- A call that is about one constructed client tells nothing about the clients
that were not constructed. -/
theorem FreshUnknown.of_change (fresh : observed.FreshUnknown)
    (bound : id < next.server.created)
    (created : observed.server.created ≤ next.server.created)
    (live : ∀ other, other ≠ id →
      next.server.live other = observed.server.live other)
    (joined : ∀ channel other, other ≠ id →
      next.joined channel other = observed.joined channel other) :
    next.FreshUnknown := by
  intro other late
  have different : other ≠ id := Nat.ne_of_gt (Nat.lt_of_lt_of_le bound late)
  obtain ⟨unborn, notJoined⟩ := fresh other (Nat.le_trans created late)
  exact ⟨(live other different).trans unborn, fun channel =>
    (joined channel other different).trans (notJoined channel)⟩

/-- Every live client was constructed. -/
theorem FreshUnknown.lt_created (fresh : observed.FreshUnknown)
    (alive : observed.server.live id = some cptr) :
    id < observed.server.created := by
  by_contra late
  rw [(fresh id (Nat.le_of_not_lt late)).1] at alive
  cases alive

/-- No call tells anything about a client that was not constructed. -/
theorem FreshUnknown.step (fresh : observed.FreshUnknown)
    (stepped : observed.step text event = some next) : next.FreshUnknown := by
  have updated : ∀ {id other : Nat} {value : Option LocalClient},
      other ≠ id → Function.update observed.server.live id value other =
        observed.server.live other := fun different =>
    Function.update_of_ne different ..
  have joinedAt : ∀ {channel id : Nat} {value : Bool} (channel' other : Nat),
      other ≠ id → updateAt observed.joined channel id value channel' other =
        observed.joined channel' other := by
    intro channel id value channel' other different
    rw [updateAt_apply, if_neg (by simp [different])]
  obtain ⟨result, server, applied, rfl⟩ := step_eq_some stepped
  cases event with
  | connect fd memory now =>
      obtain ⟨clientsByFd, -, rfl⟩ := ServerState.connect_eq_some applied
      exact fresh.of_change (Nat.lt_succ_self _) (Nat.le_succ _)
        (fun _ => updated) (fun _ _ _ => rfl)
  | nick id newCall now =>
      obtain ⟨cptr, alive, ⟨rfl, -, rfl⟩ | ⟨rfl, -, _, _, -, -, rfl⟩⟩ :=
        ServerState.nick_eq_some applied
      · exact fresh
      · exact fresh.of_change (fresh.lt_created alive) (Nat.le_refl _)
          (fun _ => updated) (fun _ _ _ => rfl)
  | addUser id channel sameCallsign now =>
      obtain ⟨cptr, alive, ⟨rfl, -, rfl⟩ | ⟨rfl, rfl⟩⟩ :=
        ServerState.addUser_eq_some applied
      · exact fresh
      · exact fresh.of_change (fresh.lt_created alive) (Nat.le_refl _)
          (fun _ _ => rfl) joinedAt
  | removeUser id channel =>
      obtain ⟨cptr, alive, rfl, rfl⟩ := ServerState.removeUser_eq_some applied
      exact fresh.of_change (fresh.lt_created alive) (Nat.le_refl _)
        (fun _ _ => rfl) joinedAt
  | delete id =>
      obtain ⟨cptr, clientsByFd, clientsByCallsign, alive, -, -, rfl⟩ :=
        ServerState.delete_eq_some applied
      exact fresh.of_change (fresh.lt_created alive) (Nat.le_refl _)
        (fun _ => updated) (fun _ _ _ => rfl)

/-! ## Runs -/

/-- `IsMember` is right throughout a run exactly if every call of the run keeps
callsigns and records together. -/
theorem membershipHolds_iff (text : ServerText)
    (events : List ServerEvent) :
    Always (step text) start (fun _ observed => observed.MembershipHolds)
        events ↔
      EachStep (step text) start
        (fun observed event => observed.server.KeepsMembership event)
        events := by
  have atStart : start.MembershipHolds := by
    intro id cptr alive
    cases alive
  refine (Always.iff_of_step_iff FreshUnknown MembershipHolds
    (fun id _ => ⟨rfl, fun _ => rfl⟩)
    (fun _ _ _ fresh stepped => fresh.step stepped) ?_).trans
      (and_iff_right atStart)
  intro observed event next fresh holds stepped
  exact membershipHolds_step_iff holds fresh stepped

end ObservedServer

/-- A member that changes its callsign is lost. -/
theorem nick_change_loses_member :
    ¬Always (ObservedServer.step .bare) .start
      (fun _ observed => observed.MembershipHolds)
      [.connect 4 freshClient 1, .nick 0 (.ofLiteral "W1AW") 1,
        .addUser 0 0 false 1, .nick 0 (.ofLiteral "W2AW") 1] := by
  intro always
  have lost : (runFrom (ObservedServer.step .bare) .start
      [.connect 4 freshClient 1, .nick 0 (.ofLiteral "W1AW") 1,
        .addUser 0 0 false 1, .nick 0 (.ofLiteral "W2AW") 1]).bind
        (fun observed => (observed.server.live 0).map fun cptr =>
          (observed.server.isMember 0 cptr, observed.joined 0 0)) =
      some (false, true) := by
    decide +kernel
  obtain ⟨observed, reached, lost⟩ := Option.bind_eq_some_iff.mp lost
  obtain ⟨cptr, alive, lost⟩ := Option.map_eq_some_iff.mp lost
  obtain ⟨notMember, joined⟩ := Prod.mk.inj lost
  have right := always.final reached 0 cptr alive 0
  rw [notMember, joined] at right
  cases right

end Hamchat
