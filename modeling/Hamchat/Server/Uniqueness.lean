import Hamchat.Server.Steps

/-!
# Callsigns in use

`m_nick` looks up the callsign that a client asks for, and `SetCallsign` stores
its first fifteen characters.  The lookup misses a holder whose callsign was
cut, or whose entry the table has lost.  So no two clients have the same
callsign exactly in the runs in which no accepted NICK stores a callsign that
another client has.
-/

namespace Hamchat

open Foundation

namespace ServerState

variable {state next : ServerState} {id : Nat} {cptr : LocalClient}

/-- No two live clients have the same callsign, unless it is empty. -/
def CallsignsUnique (state : ServerState) : Prop :=
  ∀ first second left right, state.live first = some left →
    state.live second = some right → first ≠ second →
    left.client.callsign = right.client.callsign →
      left.client.callsign = .empty

/-- No live client but `id` has the callsign. -/
def Unheld (state : ServerState) (id : Nat) (callsign : CString) : Prop :=
  ∀ other cptr, state.live other = some cptr →
    cptr.client.callsign = callsign → other = id

/-- A call keeps callsigns unique.  The memory of a new client holds no callsign
or one that nobody has, and what an accepted NICK stores is the callsign of no
other client. -/
def KeepsUnique (state : ServerState) : ServerEvent → Prop
  | .connect _ memory _ =>
      memory.callsign ≠ .empty → state.Unheld state.created memory.callsign
  | .nick id newCall _ =>
      state.AcceptsNick newCall →
        state.Unheld id (newCall.truncate callsignLen)
  | .addUser .. | .removeUser .. | .delete _ => True

/-- A new client or a new callsign keeps callsigns unique exactly if it is empty
or no other client has it. -/
theorem callsignsUnique_of_live (unique : state.CallsignsUnique)
    (live : next.live = Function.update state.live id (some cptr)) :
    next.CallsignsUnique ↔ (cptr.client.callsign ≠ .empty →
      state.Unheld id cptr.client.callsign) := by
  have atId : next.live id = some cptr := by rw [live, Function.update_self]
  have elsewhere : ∀ other, other ≠ id →
      next.live other = state.live other := fun other different => by
    rw [live, Function.update_of_ne different]
  constructor
  · intro uniqueNext nonempty other cptr' alive sameCallsign
    by_contra different
    exact nonempty (uniqueNext id other cptr cptr' atId
      ((elsewhere other different).trans alive) (Ne.symm different)
      sameCallsign.symm)
  · intro unheld first second left right aliveFirst aliveSecond different
      sameCallsign
    by_contra nonempty
    by_cases atFirst : first = id
    · subst atFirst
      obtain rfl := Option.some.inj (atId.symm.trans aliveFirst)
      rw [elsewhere second (Ne.symm different)] at aliveSecond
      exact different (unheld nonempty second right aliveSecond
        sameCallsign.symm).symm
    · rw [elsewhere first atFirst] at aliveFirst
      by_cases atSecond : second = id
      · subst atSecond
        obtain rfl := Option.some.inj (atId.symm.trans aliveSecond)
        rw [sameCallsign] at nonempty
        exact different (unheld nonempty first left aliveFirst sameCallsign)
      · rw [elsewhere second atSecond] at aliveSecond
        exact nonempty (unique first second left right aliveFirst aliveSecond
          different sameCallsign)

/-- A call keeps callsigns unique exactly if it meets its condition. -/
theorem callsignsUnique_apply_iff {text : ServerText} {event : ServerEvent}
    {result : Bool} (unique : state.CallsignsUnique)
    (applied : state.apply text event = some (result, next)) :
    next.CallsignsUnique ↔ state.KeepsUnique event := by
  cases event with
  | connect fd memory now =>
      obtain ⟨clientsByFd, -, rfl⟩ := connect_eq_some applied
      refine Iff.trans (callsignsUnique_of_live unique rfl) ?_
      exact Iff.rfl
  | nick id newCall now =>
      obtain ⟨cptr, alive, ⟨-, rejected, rfl⟩ |
        ⟨-, accepted, forgotten, table, -, -, rfl⟩⟩ := nick_eq_some applied
      · exact iff_of_true unique fun accepted => absurd accepted rejected
      · refine Iff.trans (callsignsUnique_of_live unique rfl) ?_
        constructor
        · exact fun unheld _ => unheld (truncate_ne_empty_of_valid accepted.1)
        · exact fun keeps _ => keeps accepted
  | addUser id channel sameCallsign now =>
      obtain ⟨cptr, -, ⟨-, -, rfl⟩ | ⟨-, rfl⟩⟩ := addUser_eq_some applied
      · exact iff_of_true unique trivial
      · exact iff_of_true unique trivial
  | removeUser id channel =>
      obtain ⟨cptr, -, -, rfl⟩ := removeUser_eq_some applied
      exact iff_of_true unique trivial
  | delete id =>
      obtain ⟨cptr, clientsByFd, clientsByCallsign, -, -, -, rfl⟩ :=
        delete_eq_some applied
      refine iff_of_true ?_ trivial
      intro first second left right aliveFirst aliveSecond
      dsimp only at aliveFirst aliveSecond
      have notFirst : first ≠ id := by
        rintro rfl
        rw [Function.update_self] at aliveFirst
        cases aliveFirst
      have notSecond : second ≠ id := by
        rintro rfl
        rw [Function.update_self] at aliveSecond
        cases aliveSecond
      rw [Function.update_of_ne notFirst] at aliveFirst
      rw [Function.update_of_ne notSecond] at aliveSecond
      exact unique first second left right aliveFirst aliveSecond

/-- The check of `m_nick` is enough for a callsign that is stored in full, as
long as the table finds every client that has a callsign. -/
theorem keepsUnique_of_found {newCall : CString} {now : Int}
    (short : newCall.length < callsignLen)
    (found : ∀ other cptr, state.live other = some cptr →
      cptr.client.callsign ≠ .empty →
        state.findClientByCallsign cptr.client.callsign ≠ some none) :
    state.KeepsUnique (.nick id newCall now) := by
  rintro ⟨valid, free⟩ other cptr alive holds
  have full : newCall.truncate callsignLen = newCall := by
    ext1
    exact List.take_of_length_le (Nat.le_sub_one_of_lt short)
  have nonempty := truncate_ne_empty_of_valid valid
  rw [full] at holds nonempty
  rw [← holds] at free nonempty
  exact absurd free (found other cptr alive nonempty)

end ServerState

namespace ObservedServer

/-- No two clients have the same callsign throughout a run exactly if every call
of the run keeps callsigns unique. -/
theorem callsignsUnique_iff (text : ServerText) (events : List ServerEvent) :
    Always (step text) start (fun _ observed => observed.server.CallsignsUnique)
        events ↔
      EachStep (step text) start
        (fun observed event => observed.server.KeepsUnique event) events := by
  have atStart : start.server.CallsignsUnique := by
    intro first second left right alive
    cases alive
  refine (Always.iff_of_step_iff (fun _ => True)
    (fun (observed : ObservedServer) => observed.server.CallsignsUnique) trivial
    (fun _ _ _ _ _ => trivial) ?_).trans (and_iff_right atStart)
  intro observed event next _ unique stepped
  obtain ⟨result, server, applied, rfl⟩ := step_eq_some stepped
  exact ServerState.callsignsUnique_apply_iff unique applied

end ObservedServer

/-- Two callsigns of sixteen characters that differ in the last one are stored
as the same callsign. -/
theorem long_callsigns_clash :
    ¬Always (ObservedServer.step .bare) .start
      (fun _ observed => observed.server.CallsignsUnique)
      [.connect 4 freshClient 1, .connect 5 freshClient 1,
        .nick 0 (.ofLiteral "W1AW-ABCDEFGHIJK") 1,
        .nick 1 (.ofLiteral "W1AW-ABCDEFGHIJL") 1] := by
  intro always
  have clash : (runFrom (ObservedServer.step .bare) .start
      [.connect 4 freshClient 1, .connect 5 freshClient 1,
        .nick 0 (.ofLiteral "W1AW-ABCDEFGHIJK") 1,
        .nick 1 (.ofLiteral "W1AW-ABCDEFGHIJL") 1]).bind
        (fun observed => (observed.server.live 0).bind fun left =>
          (observed.server.live 1).map fun right =>
            (decide (left.client.callsign = right.client.callsign),
              decide (left.client.callsign = .empty))) =
      some (true, false) := by
    decide +kernel
  obtain ⟨observed, reached, clash⟩ := Option.bind_eq_some_iff.mp clash
  obtain ⟨left, aliveLeft, clash⟩ := Option.bind_eq_some_iff.mp clash
  obtain ⟨right, aliveRight, clash⟩ := Option.map_eq_some_iff.mp clash
  rw [Prod.mk.injEq, decide_eq_true_iff, decide_eq_false_iff_not] at clash
  exact clash.2 (always.final reached 0 1 left right aliveLeft aliveRight
    (by decide) clash.1)

end Hamchat
