import Hamchat.Server.Defs

/-!
# Calls of the server

What each call that changes the clients or channels does if it returns.
-/

namespace Hamchat

open Foundation

theorem updateAt_apply [DecidableEq α] [DecidableEq β] (f : α → β → γ)
    (a a' : α) (b b' : β) (value : γ) :
    updateAt f a b value a' b' =
      if a' = a ∧ b' = b then value else f a' b' := by
  by_cases first : a' = a
  · subst first
    by_cases second : b' = b <;> simp [updateAt, second]
  · simp [updateAt, first]

namespace ServerState

variable {state next : ServerState} {text : ServerText}

@[simp] theorem setMember_members (channel : Nat) (callsign : CString)
    (member : Option Member) :
    (state.setMember channel callsign member).members =
      updateAt state.members channel callsign member := rfl

@[simp] theorem setMember_live (channel : Nat) (callsign : CString)
    (member : Option Member) :
    (state.setMember channel callsign member).live = state.live := rfl

theorem isMember_eq_false {channel : Nat} {cptr : LocalClient} :
    state.isMember channel cptr = false ↔
      state.members channel cptr.client.callsign = none :=
  Option.isSome_eq_false_iff.trans Option.isNone_iff_eq_none

theorem isMember_eq_true {channel : Nat} {cptr : LocalClient} :
    state.isMember channel cptr = true ↔
      state.members channel cptr.client.callsign ≠ none :=
  Option.isSome_iff_ne_none

/-- A change of the record under a callsign shows for the clients with this
callsign only. -/
theorem isMember_setMember (channel : Nat) (callsign : CString)
    (member : Option Member) (channel' : Nat) (cptr : LocalClient) :
    (state.setMember channel callsign member).isMember channel' cptr =
      if channel' = channel ∧ cptr.client.callsign = callsign then
        member.isSome
      else
        state.isMember channel' cptr := by
  rw [isMember, setMember_members, updateAt_apply, apply_ite Option.isSome]
  rfl

/-- What `m_nick` tests before it accepts a callsign. -/
def AcceptsNick (state : ServerState) (newCall : CString) : Prop :=
  isValidCallsign newCall = true ∧
    state.findClientByCallsign newCall = some none

/-- A constructor that returns has added a client and its descriptor. -/
theorem connect_eq_some {fd now : Int} {memory : Client} {result : Bool}
    (applied : state.apply text (.connect fd memory now) =
      some (result, next)) :
    ∃ clientsByFd,
      enterFd (some (state.clientsByFd.getD dictNew)) state.created fd now =
        some clientsByFd ∧
      next = { state with
        created := state.created + 1
        live := Function.update state.live state.created
          (some ⟨fd, { memory with connState := ircStateNone }⟩)
        clientsByFd := clientsByFd
        clientsByCallsign :=
          some (state.clientsByCallsign.getD dictNew) } := by
  obtain ⟨after, constructed, equal⟩ := Option.map_eq_some_iff.mp applied
  obtain ⟨-, rfl⟩ := Prod.mk.inj equal
  rw [construct, Option.bind_eq_bind, Option.bind_eq_some_iff] at constructed
  obtain ⟨clientsByFd, entered, built⟩ := constructed
  exact ⟨clientsByFd, entered, (Option.some.inj built).symm⟩

/-- A destructor that returns has removed the client from the tables. -/
theorem delete_eq_some {id : Nat} {result : Bool}
    (applied : state.apply text (.delete id) = some (result, next)) :
    ∃ cptr clientsByFd clientsByCallsign, state.live id = some cptr ∧
      callDict state.clientsByFd (.del ((formatInt cptr.fd).truncate 15)) =
        some clientsByFd ∧
      forgetCallsign state.clientsByCallsign cptr.client.callsign =
        some clientsByCallsign ∧
      next = { state with
        live := Function.update state.live id none
        clientsByFd := clientsByFd
        clientsByCallsign := clientsByCallsign } := by
  obtain ⟨after, destroyed, equal⟩ := Option.map_eq_some_iff.mp applied
  obtain ⟨-, rfl⟩ := Prod.mk.inj equal
  rw [destroy, Option.bind_eq_bind, Option.bind_eq_some_iff] at destroyed
  obtain ⟨cptr, alive, destroyed⟩ := destroyed
  rw [Option.bind_eq_bind, Option.bind_eq_some_iff] at destroyed
  obtain ⟨clientsByFd, fdDeleted, destroyed⟩ := destroyed
  rw [Option.bind_eq_some_iff] at destroyed
  obtain ⟨clientsByCallsign, forgotten, built⟩ := destroyed
  exact ⟨cptr, clientsByFd, clientsByCallsign, alive, fdDeleted, forgotten,
    (Option.some.inj built).symm⟩

/-- A NICK that returns has changed nothing, or it was acceptable and has
replaced the callsign of the client and its entry in the table. -/
theorem nick_eq_some {id : Nat} {newCall : CString} {now : Int}
    {result : Bool}
    (applied : state.apply text (.nick id newCall now) =
      some (result, next)) :
    ∃ cptr, state.live id = some cptr ∧
      (result = false ∧ ¬state.AcceptsNick newCall ∧ next = state ∨
        result = true ∧ state.AcceptsNick newCall ∧
          ∃ forgotten clientsByCallsign,
            forgetCallsign state.clientsByCallsign cptr.client.callsign =
              some forgotten ∧
            callDict forgotten
                (.addBlob now (newCall.truncate callsignLen) id) =
              some clientsByCallsign ∧
            next = { state with
              live := Function.update state.live id (some { cptr with
                client := cptr.client.markNick.setCallsign newCall })
              clientsByCallsign := clientsByCallsign }) := by
  rw [ServerState.apply, nick, Option.bind_eq_bind, Option.bind_eq_some_iff]
    at applied
  obtain ⟨cptr, alive, returned⟩ := applied
  refine ⟨cptr, alive, ?_⟩
  split at returned
  · rename_i value sent clientsByCallsign client ran
    rw [Option.some.injEq, Prod.mk.injEq] at returned
    obtain ⟨rfl, rfl⟩ := returned
    rcases mNick_returned _ _ _ _ _ ran with
      ⟨rejected, sameTable, sameClient⟩ |
      ⟨accepted, given, parameter, valid, free, newClient, renamed⟩
    · refine .inl ⟨rejected, ?_, ?_⟩
      · rintro ⟨valid, free⟩
        have accepted := mNick_accepts _ _ _ _ _ (Nat.le_refl 1) rfl valid
          (congrArg (Option.map Option.isSome) free) ran
        rw [rejected] at accepted
        cases accepted
      · rw [sameTable, sameClient, Function.update_eq_self_iff.mpr alive.symm]
    · obtain rfl : newCall = given := by simpa using parameter
      have notFound : state.findClientByCallsign newCall = some none := by
        simpa [callsignRegistry, findClientByCallsign] using free
      simp only [callsignRegistry, Option.bind_eq_bind,
        Option.bind_eq_some_iff] at renamed
      obtain ⟨forgotten, deleted, added⟩ := renamed
      refine .inr ⟨accepted, ⟨valid, notFound⟩, forgotten, clientsByCallsign,
        deleted, ?_, ?_⟩
      · rw [newClient] at added
        exact added
      · rw [newClient]
  · cases returned

/-- `Channel::AddUser` finds a record and reports a member, or it stores a
record under the callsign of the client. -/
theorem addUser_eq_some {id channel : Nat} {sameCallsign : Bool} {now : Int}
    {result : Bool}
    (applied : state.apply text (.addUser id channel sameCallsign now) =
      some (result, next)) :
    ∃ cptr, state.live id = some cptr ∧
      (result = false ∧ state.isMember channel cptr = true ∧ next = state ∨
        result = true ∧ next = state.setMember channel cptr.client.callsign
          (some ⟨now⟩)) := by
  rw [ServerState.apply, addUser, Option.bind_eq_bind,
    Option.bind_eq_some_iff] at applied
  obtain ⟨cptr, alive, returned⟩ := applied
  refine ⟨cptr, alive, ?_⟩
  dsimp only at returned
  split at returned
  · rename_i found
    cases returned
    exact .inl ⟨rfl, (Bool.and_eq_true_iff.mp found).1, rfl⟩
  · cases returned
    exact .inr ⟨rfl, rfl⟩

/-- `Channel::RemoveUser` drops the record under the callsign of the client. -/
theorem removeUser_eq_some {id channel : Nat} {result : Bool}
    (applied : state.apply text (.removeUser id channel) =
      some (result, next)) :
    ∃ cptr, state.live id = some cptr ∧ result = true ∧
      next = state.setMember channel cptr.client.callsign none := by
  rw [ServerState.apply, removeUser, Option.bind_eq_bind,
    Option.bind_eq_some_iff] at applied
  obtain ⟨cptr, alive, returned⟩ := applied
  cases returned
  exact ⟨cptr, alive, rfl, rfl⟩

end ServerState

/-- A step is a call that returns, with what its result tells. -/
theorem ObservedServer.step_eq_some {text : ServerText}
    {observed next : ObservedServer} {event : ServerEvent}
    (stepped : observed.step text event = some next) :
    ∃ result server,
      observed.server.apply text event = some (result, server) ∧
      next = {
        server := server
        lastNick := nextNick observed.lastNick result event
        joined := nextJoined observed.joined result event } := by
  rw [step, Option.bind_eq_bind, Option.bind_eq_some_iff] at stepped
  obtain ⟨⟨result, server⟩, applied, built⟩ := stepped
  exact ⟨result, server, applied, (Option.some.inj built).symm⟩

end Hamchat
