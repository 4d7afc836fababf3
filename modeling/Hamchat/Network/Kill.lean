import Hamchat.Network.Runs
import Hamchat.Parser.Dispatch

/-!
# Removing a client

A line `KILL callsign :reason` names a client for an operator to remove.
`Client::Parse` hands over the sender, the command and the two parameters, and
`m_kill` takes the fourth of them, the reason, for the callsign.
-/

namespace Hamchat

open Foundation

/-! ## The line -/

/-- `KILL callsign :reason` -/
def CommandLine.kill (callsign reason : CString) (word : callsign.IsWord)
    (unbroken : reason.Unbroken) : CommandLine where
  command := .ofLiteral "KILL"
  middle := [callsign]
  trailing := some reason
  command_word := by decide +kernel
  middle_words := List.forall_mem_singleton.mpr word
  trailing_unbroken last given := Option.some.inj given ▸ unbroken

/-- What `m_kill` finds in `argv[3]`.  A colon in the callsign makes the reason a
part of the same parameter. -/
def killNamed (callsign reason : CString) : Option CString :=
  if colon ∈ callsign.bytes then none else some reason

/-- The table has one handler for KILL. -/
theorem mKill_of_found {active : Bool} {argc : Nat} {handler : Handler}
    (few : argc = 1 ∨ argc = 2)
    (found : searchCommands active argc (.ofLiteral "KILL") ircCommands =
      .found handler) : handler = .mKill := by
  have searched : ∀ active : Bool, ∀ argc ∈ [1, 2],
      searchCommands active argc (.ofLiteral "KILL") ircCommands =
        if active then .found .mKill else .notRegistered := by
    decide +kernel
  rw [searched active argc (by simpa using few)] at found
  cases active with
  | false => cases found
  | true => exact (Search.found.inj found).symm

section Line

variable {callsign reason : CString} {word : callsign.IsWord}
variable {unbroken : reason.Unbroken} {client : Client} {sock : Socket}

theorem CommandLine.kill_line :
    (CommandLine.kill callsign reason word unbroken).line =
      (CString.ofLiteral "KILL").bytes ++
        sp :: (callsign.bytes ++ sp :: colon :: reason.bytes) := by
  rw [CommandLine.line, writeFields]
  simp [CommandLine.kill]

/-- A callsign with a colon in it takes the reason with it. -/
theorem lineFields_of_colon (word : callsign.IsWord)
    (marked : colon ∈ callsign.bytes) (after : List UInt8) :
    ∃ field, lineFields (callsign.bytes ++ after) = [field] := by
  have count := fields_length colon_ne_sp (callsign.bytes ++ after)
  have inside : (callsign.bytes ++ after).takeWhile (· ≠ colon) <+:
      callsign.bytes := by
    rw [takeWhile_append_of_mem marked]
    exact List.takeWhile_prefix _
  rw [List.count_eq_zero_of_not_mem
    fun member => word.noSpace (inside.subset member)] at count
  exact List.length_eq_one_iff.mp count

/-- A KILL that is dispatched goes to `m_kill`, with the reason in the place of the
callsign and nothing in the place of the reason. -/
theorem CommandLine.kill_command {handed : Handed}
    (holds : sock.Holds (CommandLine.kill callsign reason word unbroken).line)
    (hands : client.command sock = some handed) :
    handed.handler = .mKill ∧
      handed.argv[3]? = killNamed callsign reason ∧
      handed.argv[4]? = none := by
  obtain ⟨command, words, cut, found, argv⟩ := Client.words_of_command
    (CommandLine.kill callsign reason word unbroken).plain holds hands
  have noSpace : sp ∉ (CString.ofLiteral "KILL").bytes := by decide +kernel
  have noColon : colon ∉ (CString.ofLiteral "KILL").bytes := by decide +kernel
  rw [CommandLine.kill_line, lineFields, fields_append_sep noSpace noColon,
    List.map_cons, List.cons.injEq] at cut
  obtain ⟨commandBytes, wordBytes⟩ := cut
  obtain rfl : .ofLiteral "KILL" = command := CString.ext commandBytes
  rw [argv]
  by_cases marked : colon ∈ callsign.bytes
  · obtain ⟨field, single⟩ :=
      lineFields_of_colon word marked (sp :: colon :: reason.bytes)
    rw [lineFields, wordBytes, List.map_eq_singleton_iff] at single
    obtain ⟨only, rfl, -⟩ := single
    rw [killNamed, if_pos marked]
    exact ⟨mKill_of_found (.inl rfl) found, rfl, rfl⟩
  · rw [fields_append_sep word.noSpace marked, fields_mark colon_ne_sp]
      at wordBytes
    obtain ⟨given, rest, rfl, givenBytes, restBytes⟩ :=
      List.map_eq_cons_iff.mp wordBytes.symm
    obtain ⟨last, rfl, lastBytes⟩ := List.map_eq_singleton_iff.mp restBytes
    rw [killNamed, if_neg marked]
    exact ⟨mKill_of_found (.inr rfl) found,
      congrArg some (CString.ext lastBytes), rfl⟩

end Line

/-! ## The handler -/

namespace HandlerCall

variable (call : HandlerCall δ)

theorem mKill_of_undefined (active : call.object.client.isActive = true)
    (oper : call.object.isOper = true)
    (found : call.findClient call.argv[3]? = none) :
    call.mKill.ending = .undefined := by
  rw [mKill, if_neg (by simp [active, oper]), found]
  rfl

theorem mKill_of_none (active : call.object.client.isActive = true)
    (oper : call.object.isOper = true)
    (found : call.findClient call.argv[3]? = some none) :
    call.mKill = call.answer false
      (call.killMissing call.argv[3]? call.argv[4]? ++
        [call.numeric 401 [call.callsign, .ofLiteral " ",
          shown call.argv[3]?, .ofLiteral " :No such nickname"]]) := by
  rw [mKill, if_neg (by simp [active, oper]), found]
  rfl

theorem mKill_of_some (active : call.object.client.isActive = true)
    (oper : call.object.isOper = true) {target : Nat}
    (found : call.findClient call.argv[3]? = some (some target)) :
    call.mKill = call.killClient
      (call.killMissing call.argv[3]? call.argv[4]?) call.argv[4]? target := by
  rw [mKill, if_neg (by simp [active, oper]), found]
  rfl

variable {call}

/-- A KILL that has found its target returns if `delete` does. -/
theorem killClient_returned {sent : List Delivery} {reason : Option CString}
    {target : Nat} {value : Bool} {next : Network δ} :
    (call.killClient sent reason target).ending = .returned value next ↔
      value = true ∧ call.network.delete call.directory
        call.surroundings.freed target = some next := by
  rw [killClient]
  cases call.network.delete call.directory call.surroundings.freed target with
  | none =>
      constructor
      · rintro ⟨⟩
      · rintro ⟨-, ⟨⟩⟩
  | some deleted =>
      constructor
      · rintro ⟨⟩
        exact ⟨rfl, rfl⟩
      · rintro ⟨rfl, same⟩
        rw [Option.some.inj same]
        rfl

end HandlerCall

/-! ## One line -/

namespace Network

variable (network : Network δ)

/-- Exactly one client has been deleted: it is in neither table, and the others are
as they were, except for the buffer of the sender. -/
structure Loses (directory : Directory δ) (sender victim : Nat)
    (next : Network δ) : Prop where
  /-- The live clients. -/
  alive : next.alive = Function.update network.alive victim false
  /-- `stats.curr_clients` -/
  currClients : next.currClients = network.currClients - 1
  /-- `Clients_by_fd` -/
  byFd : ∀ key, directory.find next.clientsByFd key ≠ some (some victim)
  /-- `Clients_by_callsign` -/
  byCallsign : ∀ key,
    directory.find next.clientsByCallsign key ≠ some (some victim)
  /-- The other clients. -/
  others : ∀ other, other ≠ victim → other ≠ sender →
    next.clients other = network.clients other
  /-- The sender. -/
  sender : sender ≠ victim → ∃ sock,
    next.clients sender = { network.clients sender with sock := sock }

/-- A live client holds a callsign. -/
def IsHolder (callsign : CString) (id : Nat) : Prop :=
  network.alive id = true ∧ (network.clients id).callsign = callsign

/-- A call of `Client::Parse` deletes exactly the client that holds a callsign.  If
there is none, then nobody is deleted, and the sender is told 401. -/
structure KillsExactly (server : NetworkServer δ)
    (surroundings : Surroundings δ) (id : Nat) (callsign : CString) :
    Prop where
  /-- A client that holds the callsign. -/
  killed : ∀ victim, network.IsHolder callsign victim →
    ∃ next, network.advance server (.parse id surroundings) = some next ∧
      network.Loses server.directory id victim next
  /-- Nobody holds it. -/
  spared : (∀ other, ¬network.IsHolder callsign other) →
    (∃ next, network.advance server (.parse id surroundings) = some next ∧
      next.alive = network.alive) ∧
    ∃ delivery ∈ (network.step server (.parse id surroundings)).sent,
      delivery.recipient = id ∧ delivery.message.numeric = some 401

/-- `dict_del` of the descriptor and of the callsign of a client leaves no entry
for the client. -/
def Unregisters (directory : Directory δ) (id : Nat) : Prop :=
  ∃ byFd byCallsign,
    directory.del network.clientsByFd
      ((formatInt (network.clients id).fd).truncate 15) = some byFd ∧
    directory.forgetCallsign network.clientsByCallsign
      (network.clients id).callsign = some byCallsign ∧
    (∀ key, directory.find byFd key ≠ some (some id)) ∧
    ∀ key, directory.find byCallsign key ≠ some (some id)

/-- The reason is not registered, and nobody holds the callsign; or it is registered
for the only client that holds the callsign, which is not the sender and is
registered under its descriptor and its callsign only. -/
def ReasonNames (directory : Directory δ) (id : Nat)
    (callsign reason : CString) : Prop :=
  directory.findPointer network.clientsByCallsign
        (killNamed callsign reason) = some none ∧
      (∀ other, ¬network.IsHolder callsign other) ∨
    ∃ victim, directory.findPointer network.clientsByCallsign
        (killNamed callsign reason) = some (some victim) ∧
      victim ≠ id ∧ network.Unregisters directory victim ∧
      ∀ other, network.IsHolder callsign other ↔ other = victim

section Kill

variable {network} {server : NetworkServer δ} {surroundings : Surroundings δ}
variable {id : Nat} {callsign reason : CString} {word : callsign.IsWord}
variable {unbroken : reason.Unbroken}

/-- What is asked of the sender of a KILL that is dispatched. -/
structure SendsKill (network : Network δ) (id : Nat) (line : List UInt8) :
    Prop where
  /-- The sender has not been deleted. -/
  alive : network.alive id = true
  /-- It has registered. -/
  active : (network.clients id).client.isActive = true
  /-- It is an operator. -/
  oper : (network.clients id).isOper = true
  /-- It has sent the line. -/
  holds : (network.clients id).sock.Holds line
  /-- The line is dispatched. -/
  dispatched : ((network.clients id).client.command
    (network.clients id).sock).isSome = true

/-- A KILL whose reason is not registered deletes nobody. -/
theorem advance_kill_of_none
    (sends : network.SendsKill id
      (CommandLine.kill callsign reason word unbroken).line)
    (found : server.directory.findPointer network.clientsByCallsign
      (killNamed callsign reason) = some none) :
    (∃ next, network.advance server (.parse id surroundings) = some next ∧
      next.alive = network.alive) ∧
    ∃ delivery ∈ (network.step server (.parse id surroundings)).sent,
      delivery.recipient = id ∧ delivery.message.numeric = some 401 := by
  obtain ⟨handed, hands⟩ := Option.isSome_iff_exists.mp sends.dispatched
  obtain ⟨handler, third, -⟩ := CommandLine.kill_command sends.holds hands
  have outcome := (server.call surroundings network id handed).mKill_of_none
    sends.active sends.oper (third.symm ▸ found)
  have handles : (server.call surroundings network id handed).handle
      handed.handler = (server.call surroundings network id handed).mKill := by
    rw [handler]
    rfl
  have ran := (congrArg Outcome.ending handles).trans
    (congrArg Outcome.ending outcome)
  constructor
  · obtain ⟨sock, advanced⟩ :=
      advance_of_returned sends.alive hands ran sends.alive
    exact ⟨_, advanced, rfl⟩
  · rw [step_of_command sends.alive hands, handles, outcome]
    exact ⟨_, List.mem_append_right _ List.mem_cons_self, rfl, rfl⟩

/-- A KILL whose reason is registered for another client deletes this client. -/
theorem advance_kill_of_some
    (sends : network.SendsKill id
      (CommandLine.kill callsign reason word unbroken).line)
    {victim : Nat} (found : server.directory.findPointer
      network.clientsByCallsign (killNamed callsign reason) =
        some (some victim))
    (other : victim ≠ id) {deleted : Network δ}
    (deletes : network.delete server.directory surroundings.freed victim =
      some deleted) :
    ∃ sock, network.advance server (.parse id surroundings) =
      some (deleted.setClient id { deleted.clients id with sock := sock }) := by
  obtain ⟨handed, hands⟩ := Option.isSome_iff_exists.mp sends.dispatched
  obtain ⟨handler, third, -⟩ := CommandLine.kill_command sends.holds hands
  have outcome := (server.call surroundings network id handed).mKill_of_some
    sends.active sends.oper (third.symm ▸ found)
  have ran : ((server.call surroundings network id handed).handle
      handed.handler).ending = .returned true deleted := by
    rw [handler]
    exact (congrArg Outcome.ending outcome).trans
      (HandlerCall.killClient_returned.mpr ⟨rfl, deletes⟩)
  refine advance_of_returned sends.alive hands ran ?_
  obtain ⟨-, byFd, byCallsign, -, -, rfl⟩ := delete_eq_some deletes
  rw [withoutClient_alive, Function.update_of_ne other.symm]
  exact sends.alive

/-- A KILL that the server survives has found nobody, or it has deleted a client
that its reason is registered for. -/
theorem advance_kill_eq_some {next : Network δ}
    (sends : network.SendsKill id
      (CommandLine.kill callsign reason word unbroken).line)
    (advanced : network.advance server (.parse id surroundings) = some next) :
    server.directory.findPointer network.clientsByCallsign
          (killNamed callsign reason) = some none ∧
        next.alive = network.alive ∨
      ∃ victim deleted, server.directory.findPointer network.clientsByCallsign
          (killNamed callsign reason) = some (some victim) ∧
        victim ≠ id ∧
        network.delete server.directory surroundings.freed victim =
          some deleted ∧
        next.alive = deleted.alive ∧
        next.clientsByFd = deleted.clientsByFd ∧
        next.clientsByCallsign = deleted.clientsByCallsign := by
  obtain ⟨handed, hands⟩ := Option.isSome_iff_exists.mp sends.dispatched
  obtain ⟨handler, third, -⟩ := CommandLine.kill_command sends.holds hands
  obtain ⟨value, after, sock, ran, survives, rfl⟩ :=
    advance_command_eq_some hands advanced
  rw [handler] at ran
  let call := server.call surroundings network id handed
  cases found : server.directory.findPointer network.clientsByCallsign
      (killNamed callsign reason) with
  | none =>
      have ending := call.mKill_of_undefined sends.active sends.oper
        (third.symm ▸ found)
      cases ran.symm.trans ending
  | some answer =>
      cases answer with
      | none =>
          have outcome := call.mKill_of_none sends.active sends.oper
            (third.symm ▸ found)
          cases ran.symm.trans (congrArg Outcome.ending outcome)
          exact .inl ⟨rfl, rfl⟩
      | some victim =>
          have outcome := call.mKill_of_some sends.active sends.oper
            (third.symm ▸ found)
          obtain ⟨-, deletes⟩ := HandlerCall.killClient_returned.mp
            ((congrArg Outcome.ending outcome).symm.trans ran)
          refine .inr ⟨victim, after, rfl, ?_, deletes, rfl, rfl, rfl⟩
          rintro rfl
          obtain ⟨-, byFd, byCallsign, -, -, rfl⟩ := delete_eq_some deletes
          rw [withoutClient_alive, Function.update_self] at survives
          cases survives

/-- A client that can be unregistered is deleted, and the others are left alone. -/
theorem Unregisters.loses {victim : Nat} (alive : network.alive victim = true)
    (unregisters : network.Unregisters server.directory victim)
    (other : victim ≠ id) (freed : ClientObject) :
    ∃ deleted, network.delete server.directory freed victim = some deleted ∧
      ∀ sock, network.Loses server.directory id victim
        (deleted.setClient id { deleted.clients id with sock := sock }) := by
  obtain ⟨byFd, byCallsign, delFd, delCallsign, noFd, noCallsign⟩ := unregisters
  have deletes : network.delete server.directory freed victim =
      some (network.withoutClient freed victim byFd byCallsign) := by
    rw [delete, if_pos alive]
    dsimp only
    rw [delFd, Option.bind_eq_bind, Option.bind_some, delCallsign]
    rfl
  refine ⟨_, deletes, fun sock => ⟨rfl, rfl, noFd, noCallsign,
    fun third notVictim notSender => ?_, fun _ => ⟨sock, ?_⟩⟩⟩
  · rw [setClient_clients_of_ne notSender, withoutClient_clients,
      Function.update_of_ne notVictim]
  · rw [setClient_clients_self, withoutClient_clients,
      Function.update_of_ne other.symm]

/-- If the right client is deleted, then the reason names it. -/
theorem KillsExactly.reasonNames
    (sends : network.SendsKill id
      (CommandLine.kill callsign reason word unbroken).line)
    (exactly : network.KillsExactly server surroundings id callsign) :
    network.ReasonNames server.directory id callsign reason := by
  by_cases held : ∃ holder, network.IsHolder callsign holder
  · obtain ⟨holder, holds⟩ := held
    obtain ⟨next, advanced, loses⟩ := exactly.killed holder holds
    rcases advance_kill_eq_some sends advanced with ⟨-, same⟩ |
      ⟨victim, deleted, found, other, deletes, sameAlive, sameFd,
        sameCallsign⟩
    · have dead := congrFun (same.symm.trans loses.alive) holder
      rw [Function.update_self, holds.1] at dead
      cases dead
    · obtain ⟨alive, byFd, byCallsign, delFd, delCallsign, rfl⟩ :=
        delete_eq_some deletes
      have onlyVictim (w : Nat) (holdsToo : network.IsHolder callsign w) :
          w = victim := by
        obtain ⟨after, advancedToo, losesToo⟩ := exactly.killed w holdsToo
        obtain rfl := Option.some.inj (advanced.symm.trans advancedToo)
        by_contra different
        have dead := congrFun (sameAlive.symm.trans losesToo.alive) w
        rw [withoutClient_alive, Function.update_of_ne different,
          Function.update_self, holdsToo.1] at dead
        cases dead
      obtain rfl := onlyVictim holder holds
      have noFd := loses.byFd
      have noCallsign := loses.byCallsign
      rw [sameFd] at noFd
      rw [sameCallsign] at noCallsign
      refine .inr ⟨holder, found, other,
        ⟨byFd, byCallsign, delFd, delCallsign, noFd, noCallsign⟩,
        fun w => ⟨onlyVictim w, ?_⟩⟩
      rintro rfl
      exact holds
  · have nobody := not_exists.mp held
    obtain ⟨⟨next, advanced, same⟩, -⟩ := exactly.spared nobody
    rcases advance_kill_eq_some sends advanced with ⟨found, -⟩ |
      ⟨victim, deleted, -, -, deletes, sameAlive, -, -⟩
    · exact .inl ⟨found, nobody⟩
    · obtain ⟨alive, byFd, byCallsign, -, -, rfl⟩ := delete_eq_some deletes
      have dead := congrFun (sameAlive.symm.trans same) victim
      rw [withoutClient_alive, Function.update_self, alive] at dead
      cases dead

/-- A KILL deletes exactly the client that it names if and only if its reason
happens to name this client as well. -/
theorem killsExactly_iff (server : NetworkServer δ)
    (surroundings : Surroundings δ) (network : Network δ) (id : Nat)
    (callsign reason : CString) (word : callsign.IsWord)
    (unbroken : reason.Unbroken)
    (sends : network.SendsKill id
      (CommandLine.kill callsign reason word unbroken).line) :
    network.KillsExactly server surroundings id callsign ↔
      network.ReasonNames server.directory id callsign reason := by
  refine ⟨fun exactly => exactly.reasonNames sends, ?_⟩
  rintro (⟨found, nobody⟩ | ⟨victim, found, other, unregisters, only⟩)
  · exact ⟨fun holder holds => absurd holds (nobody holder),
      fun _ => advance_kill_of_none sends found⟩
  · have alive := ((only victim).mpr rfl).1
    refine ⟨fun holder holds => ?_,
      fun nobody => absurd ((only victim).mpr rfl) (nobody victim)⟩
    obtain rfl := (only holder).mp holds
    obtain ⟨deleted, deletes, loses⟩ :=
      unregisters.loses alive other surroundings.freed
    obtain ⟨sock, advanced⟩ := advance_kill_of_some sends found other deletes
    exact ⟨_, advanced, loses sock⟩

end Kill

end Network

/-! ## A run -/

/-- An operator and two other clients register, and the operator sends a KILL for
one of the others, with the callsign of the third for a reason. -/
def mistakenKill : List (NetworkEvent (List (CString × Nat))) :=
  [.connect 0 4 { ClientObject.zeroed with isOper := true } 0,
      .connect 1 5 .zeroed 0, .connect 2 6 .zeroed 0] ++
    typed 0 4 (.ofLiteral "NICK W1AW\r\n") (quietSurroundings .empty) ++
    typed 1 5 (.ofLiteral "NICK N0CALL\r\n") (quietSurroundings .empty) ++
    typed 2 6 (.ofLiteral "NICK VE3ABC\r\n") (quietSurroundings .empty) ++
    [.receive 4
      (.received (CString.ofLiteral "KILL N0CALL :VE3ABC\r\n").bytes) .zeroed]

theorem n0call_isWord : (CString.ofLiteral "N0CALL").IsWord := by
  decide +kernel

theorem ve3abc_unbroken : (CString.ofLiteral "VE3ABC").Unbroken := by
  decide +kernel

/-- The line of the run. -/
def mistakenLine : CommandLine :=
  .kill (.ofLiteral "N0CALL") (.ofLiteral "VE3ABC") n0call_isWord
    ve3abc_unbroken

theorem mistakenKill_sends :
    ∃ network, runFrom (Network.advance listServer)
        (.start listServer.directory) mistakenKill = some network ∧
      network.SendsKill 0 mistakenLine.line ∧
      network.IsHolder (.ofLiteral "N0CALL") 1 ∧
      listServer.directory.findPointer network.clientsByCallsign
        (some (.ofLiteral "VE3ABC")) = some (some 2) := by
  have checked : (runFrom (Network.advance listServer)
      (.start listServer.directory) mistakenKill).any (fun network =>
        decide ((network.alive 0 = true ∧
            (network.clients 0).client.isActive = true ∧
            (network.clients 0).isOper = true ∧
            (network.clients 0).sock.Holds mistakenLine.line ∧
            ((network.clients 0).client.command
              (network.clients 0).sock).isSome = true) ∧
          (network.alive 1 = true ∧
            (network.clients 1).callsign = .ofLiteral "N0CALL") ∧
          listServer.directory.findPointer network.clientsByCallsign
            (some (.ofLiteral "VE3ABC")) = some (some 2))) = true := by
    decide +kernel
  obtain ⟨network, reached, checked⟩ := (Option.any_eq_true _ _).mp checked
  obtain ⟨⟨alive, active, oper, holds, dispatched⟩, holder, found⟩ :=
    of_decide_eq_true checked
  exact ⟨network, reached, ⟨alive, active, oper, holds, dispatched⟩, holder,
    found⟩

theorem Network.killsExactly_iff_mistaken :
    ∃ network, runFrom (Network.advance listServer)
        (.start listServer.directory) mistakenKill = some network ∧
      (network.KillsExactly listServer (quietSurroundings .empty) 0
          (.ofLiteral "N0CALL") ↔
        network.ReasonNames listServer.directory 0 (.ofLiteral "N0CALL")
          (.ofLiteral "VE3ABC")) := by
  obtain ⟨network, reached, sends, -⟩ := mistakenKill_sends
  exact ⟨network, reached, Network.killsExactly_iff listServer _ network 0 _ _
    n0call_isWord ve3abc_unbroken sends⟩

/-- The client that the reason names is deleted, and the one that the KILL names
stays. -/
theorem reason_is_killed :
    ∃ network, runFrom (Network.advance listServer)
        (.start listServer.directory) mistakenKill = some network ∧
      network.SendsKill 0 mistakenLine.line ∧
      network.IsHolder (.ofLiteral "N0CALL") 1 ∧
      ¬network.KillsExactly listServer (quietSurroundings .empty) 0
        (.ofLiteral "N0CALL") := by
  obtain ⟨network, reached, sends, holder, found⟩ := mistakenKill_sends
  refine ⟨network, reached, sends, holder, fun exactly => ?_⟩
  have sends : network.SendsKill 0 (CommandLine.kill _ _ n0call_isWord
    ve3abc_unbroken).line := sends
  have names := Network.KillsExactly.reasonNames sends exactly
  have named : killNamed (.ofLiteral "N0CALL") (.ofLiteral "VE3ABC") =
      some (.ofLiteral "VE3ABC") := by
    decide +kernel
  rcases names with ⟨nobody, -⟩ | ⟨victim, foundVictim, -, -, only⟩
  · rw [named, found] at nobody
    cases nobody
  · rw [named, found] at foundVictim
    cases foundVictim
    cases (only 1).mp holder

end Hamchat
