import Hamchat.Network.Garbage

/-!
# What others can do to a client

A handler changes no client but its sender, and only QUIT and KILL delete one.
KILL asks for an operator, and no command makes one.  So a client that is connected
stays until its own connection hangs up, whatever the others send.
-/

namespace Hamchat

open Foundation

/-- DIE, KILL, REHASH, STATS and WHOWAS. -/
def Handler.Privileged (handler : Handler) : Prop :=
  handler = .mDie ∨ handler = .mKill ∨ handler = .mRehash ∨ handler = .mStats ∨
    handler = .mWhowas

/-! ## Deletions -/

namespace HandlerCall

variable {call : HandlerCall δ} {handler : Handler}

/-- The same call, with other contents for the memory of a deleted client. -/
def withFreed (call : HandlerCall δ) (freed : ClientObject) : HandlerCall δ :=
  { call with surroundings := { call.surroundings with freed := freed } }

theorem nameLines_withFreed (freed : ClientObject) (target : CString)
    (records : List Nat) :
    (call.withFreed freed).nameLines target records =
      call.nameLines target records := by
  induction records with
  | nil => rfl
  | cons record rest inductionHypothesis =>
      rw [nameLines, nameLines, inductionHypothesis]
      rfl

/-- Only KILL and QUIT know what a deleted client leaves behind. -/
theorem handle_withFreed (notKill : handler ≠ .mKill) (notQuit : handler ≠ .mQuit)
    (freed : ClientObject) :
    (call.withFreed freed).handle handler = call.handle handler := by
  cases handler with
  | mKill => exact absurd rfl notKill
  | mQuit => exact absurd rfl notQuit
  | mNames =>
      rw [handle, handle, mNames, mNames]
      simp only [nameLines_withFreed]
      rfl
  | _ => rfl

/-- The live clients after a handler, and what is at the address of the one that
is missing. -/
theorem Made.alive {next : Network δ} (made : call.Made next) :
    next.alive = call.network.alive ∨
      ∃ target, call.network.alive target = true ∧
        next.alive = Function.update call.network.alive target false ∧
        next.clients target = call.surroundings.freed := by
  induction made with
  | same => exact .inl rfl
  | client change => exact .inl rfl
  | callsign change table => exact .inl rfl
  | channel created =>
      obtain ⟨-, table, same⟩ := Network.newChannel_eq_some created
      rw [same]
      exact .inl rfl
  | member _ added before =>
      obtain ⟨members, rfl⟩ := Network.addMember_eq_some added
      exact before
  | delete deleted =>
      obtain ⟨alive, byFd, byCallsign, -, -, rfl⟩ := Network.delete_eq_some deleted
      exact .inr ⟨_, alive, rfl, Function.update_self ..⟩

/-- A handler that would do the same with any contents of deleted memory deletes
no client. -/
theorem alive_of_handle (notKill : handler ≠ .mKill) (notQuit : handler ≠ .mQuit)
    {value : Bool} {next : Network δ}
    (ran : (call.handle handler).ending = .returned value next) :
    next.alive = call.network.alive := by
  rcases (Makes.handle handler value next ran).alive with
    same | ⟨target, alive, without, freed⟩
  · exact same
  · let other : ClientObject :=
      { call.surroundings.freed with fd := call.surroundings.freed.fd + 1 }
    have missing : next.alive target = false := by
      rw [without, Function.update_self]
    have ranOther : ((call.withFreed other).handle handler).ending =
        .returned value next := by
      rw [handle_withFreed notKill notQuit, ran]
    rcases (Makes.handle handler value next ranOther).alive with
      same | ⟨target', alive', without', freed'⟩
    · rw [same, withFreed, alive] at missing
      cases missing
    · obtain rfl : target = target' := by
        by_contra different
        rw [without', Function.update_of_ne different, withFreed, alive] at missing
        cases missing
      rw [freed] at freed'
      have shifted : call.surroundings.freed.fd = call.surroundings.freed.fd + 1 :=
        congrArg ClientObject.fd freed'
      omega

/-- DIE, KILL, REHASH, STATS and WHOWAS do nothing for a sender that is no
operator. -/
theorem handle_of_noOper (noOper : call.object.isOper = false)
    (privileged : handler.Privileged) :
    (call.handle handler).ending = .returned false call.network := by
  have refused (allowed : Outcome δ) :
      (call.operatorOnly allowed).ending = .returned false call.network := by
    rw [operatorOnly, noOper, if_neg Bool.false_ne_true]
    rfl
  rcases privileged with rfl | rfl | rfl | rfl | rfl
  · exact refused _
  · rw [handle, mKill, noOper, Bool.not_false, Bool.or_true]
    rfl
  · exact refused _
  · exact refused _
  · exact refused _

/-- A sender that is no operator and is alive after its command has deleted
nobody. -/
theorem alive_of_noOper (noOper : call.object.isOper = false) {value : Bool} {next : Network δ}
    (ran : (call.handle handler).ending = .returned value next)
    (survives : next.alive call.self = true) :
    next.alive = call.network.alive := by
  by_cases notKill : handler = .mKill
  · subst notKill
    rw [handle_of_noOper noOper (Or.inr (Or.inl rfl))] at ran
    cases ran
    rfl
  by_cases notQuit : handler = .mQuit
  · subst notQuit
    rw [handle, mQuit] at ran
    cases deleted : call.network.delete call.directory call.surroundings.freed
        call.self with
    | none =>
        rw [deleted] at ran
        cases ran
    | some after =>
        rw [deleted] at ran
        cases ran
        obtain ⟨-, byFd, byCallsign, -, -, rfl⟩ := Network.delete_eq_some deleted
        rw [Network.withoutClient_alive, Function.update_self] at survives
        cases survives
  · exact alive_of_handle notKill notQuit ran

end HandlerCall

/-! ## Steps -/

/-- The memory of a new client says that it is no operator. -/
def NetworkEvent.Plain : NetworkEvent δ → Prop
  | .connect _ _ memory _ => memory.isOper = false
  | .receive .. | .parse .. => True

/-- What belongs to a client: the reads of its descriptor and its own commands. -/
def NetworkEvent.Concerns (directory : Directory δ) (network : Network δ)
    (id : Nat) : NetworkEvent δ → Prop
  | .connect .. => False
  | .receive fd _ _ =>
      directory.find network.clientsByFd ((formatInt fd).truncate 15) =
        some (some id)
  | .parse reader _ => reader = id

/-- A read of the descriptor of a client finds that it has hung up. -/
def NetworkEvent.HangsUp (directory : Directory δ) (network : Network δ)
    (id : Nat) : NetworkEvent δ → Prop
  | .connect .. | .parse .. => False
  | .receive fd recv _ =>
      directory.find network.clientsByFd ((formatInt fd).truncate 15) =
          some (some id) ∧
        sockReadCb (network.clients id).sock recv = some .deleted

instance (directory : Directory δ) (network : Network δ) (id : Nat) :
    (event : NetworkEvent δ) → Decidable (event.Concerns directory network id)
  | .connect .. => instDecidableFalse
  | .receive .. => inferInstanceAs (Decidable (_ = _))
  | .parse .. => inferInstanceAs (Decidable (_ = _))

/-- No client is an operator. -/
def Network.OperatorFree (network : Network δ) : Prop :=
  ∀ id, network.alive id = true → (network.clients id).isOper = false

namespace Network

variable {network next : Network δ} {server : NetworkServer δ}
variable {event : NetworkEvent δ} {id : Nat}

/-- No step makes an operator. -/
theorem OperatorFree.advance (free : network.OperatorFree) (plain : event.Plain)
    (advanced : network.advance server event = some next) :
    next.OperatorFree := by
  intro id alive
  rcases advance_client advanced alive with
    ⟨fd, memory, now, rfl, constructed⟩ |
      ⟨before, sock, same | ⟨_, handed, object, -, -, change, changed⟩⟩
  · rw [constructed]
    exact plain
  · rw [same]
    exact free id before
  · rw [changed]
    exact change.isOper.trans (free id before)

/-- A read that the server survives, with what the table says of the
descriptor. -/
theorem receive_found {directory : Directory δ} {fd : Int} {recv : Recv}
    {freed : ClientObject}
    (received : network.receive directory fd recv freed = some next) :
    next = network ∨ ∃ reader,
      directory.find network.clientsByFd ((formatInt fd).truncate 15) =
          some (some reader) ∧
        ((∃ sock, next = network.setClient reader
            { network.clients reader with sock := sock }) ∨
          sockReadCb (network.clients reader).sock recv = some .deleted ∧
            network.delete directory freed reader = some next) := by
  rw [receive, Option.bind_eq_bind, Option.bind_eq_some_iff] at received
  obtain ⟨found, finds, received⟩ := received
  cases found with
  | none => exact .inl (Option.some.inj received).symm
  | some reader =>
      rw [Option.ite_none_right_eq_some] at received
      obtain ⟨-, received⟩ := received
      rw [Option.bind_eq_bind, Option.bind_eq_some_iff] at received
      obtain ⟨ending, read, received⟩ := received
      refine .inr ⟨reader, finds, ?_⟩
      cases ending with
      | returned sock => exact .inl ⟨sock, (Option.some.inj received).symm⟩
      | deleted => exact .inr ⟨read, received⟩
      | aborted => cases received

/-- A live client stays alive unless it hangs up, and what does not belong to it
leaves it as it is. -/
theorem OperatorFree.keeps (free : network.OperatorFree)
    (advanced : network.advance server event = some next)
    (alive : network.alive id = true) :
    event.HangsUp server.directory network id ∨
      next.alive id = true ∧
        (¬event.Concerns server.directory network id →
          next.clients id = network.clients id) := by
  cases event with
  | connect newId fd memory now =>
      obtain ⟨vacant, byFd, -, rfl⟩ := connect_eq_some advanced
      have other : id ≠ newId := by
        rintro rfl
        rw [alive] at vacant
        cases vacant
      refine .inr ⟨?_, fun _ => setClient_clients_of_ne other _⟩
      rw [withClient]
      dsimp only
      rw [Function.update_of_ne other, alive]
  | receive fd recv freed =>
      rcases receive_found advanced with
        rfl | ⟨reader, found, ⟨sock, rfl⟩ | ⟨hungUp, deleted⟩⟩
      · exact .inr ⟨alive, fun _ => rfl⟩
      · refine .inr ⟨alive, fun others => setClient_clients_of_ne ?_ _⟩
        rintro rfl
        exact others found
      · by_cases same : id = reader
        · subst same
          exact .inl ⟨found, hungUp⟩
        · obtain ⟨-, byFd, byCallsign, -, -, rfl⟩ := delete_eq_some deleted
          refine .inr ⟨?_, fun _ => ?_⟩
          · rw [withoutClient_alive, Function.update_of_ne same, alive]
          · rw [withoutClient_clients, Function.update_of_ne same]
  | parse reader surroundings =>
      obtain ⟨sock, ⟨-, rfl⟩ | ⟨handed, value, after, -, ran, survives, rfl⟩⟩ :=
        advance_parse_eq_some advanced
      · exact .inr ⟨alive, fun others => setClient_clients_of_ne (Ne.symm others) _⟩
      · have reading : network.alive reader = true :=
          ((HandlerCall.Leaves.handle handed.handler value after ran).clients
            reader survives).1
        have kept := @HandlerCall.alive_of_noOper _
          (server.call surroundings network reader handed) _
          (free reader reading) _ _ ran survives
        have still : after.alive id = true := by
          rw [kept]
          exact alive
        refine .inr ⟨still, fun others => ?_⟩
        rw [setClient_clients_of_ne (Ne.symm others)]
        rcases ((HandlerCall.Leaves.handle handed.handler value after
            ran).clients id still).2 with same | ⟨own, -⟩
        · exact same
        · exact absurd own.symm others

end Network

/-! ## Runs -/

end Hamchat
