import Hamchat.Parser.Steps

/-!
# The command in the buffer

Up to the call of a handler, `Client::Parse` reads the client and the buffer and
nothing else.  So the command that a call hands over is a function of the two,
and whatever the call does to the client is what the handler does.
-/

namespace Hamchat

open Foundation

/-- What a call of `Client::Parse` hands to a handler. -/
def Client.command (client : Client) (sock : Socket) : Option Handed :=
  if sock.recvbufLock then
    none
  else do
    match ← parseHead client sock.recvbuf with
    | .emptyPrefix _ => none
    | .line recvbuf buf sender bytesConsumed => do
        let tokens ← tokenLoop (recvbuf.bytes.drop buf)
          ⟨[sender, ⟨cmdLen, []⟩], 1, false, bytesConsumed⟩
        if tokens.parc ≤ 1 then
          none
        else do
          let name ← tokens.parv[1]?.bind Block.toCString
          match searchCommands client.isActive (tokens.parc - 1) name
            ircCommands with
          | .found handler => do
              let argv ← tokens.parv.mapM Block.toCString
              some ⟨handler, tokens.parc - 1, argv⟩
          | _ => none

section Command

variable {server : Server ω} {world : ω} {client : Client} {sock : Socket}

/-- The line in the buffer splits into tokens. -/
def Client.Splits (client : Client) (sock : Socket) (tokens : Tokens) : Prop :=
  sock.recvbufLock = false ∧ ∃ recvbuf buf sender bytesConsumed,
    parseHead client sock.recvbuf =
      some (.line recvbuf buf sender bytesConsumed) ∧
    tokenLoop (recvbuf.bytes.drop buf)
      ⟨[sender, ⟨cmdLen, []⟩], 1, false, bytesConsumed⟩ = some tokens ∧
    1 < tokens.parc

/-- A command is handed over exactly if a line of several tokens names it. -/
theorem Client.command_eq_some {handed : Handed} :
    client.command sock = some handed ↔
      ∃ tokens name, client.Splits sock tokens ∧
        tokens.parv[1]?.bind Block.toCString = some name ∧
        searchCommands client.isActive (tokens.parc - 1) name ircCommands =
          .found handed.handler ∧
        tokens.parv.mapM Block.toCString = some handed.argv ∧
        handed.argc = tokens.parc - 1 := by
  constructor
  · intro hands
    rw [Client.command] at hands
    split at hands
    · cases hands
    · rename_i unlocked
      rw [Option.bind_eq_bind, Option.bind_eq_some_iff] at hands
      obtain ⟨head, headEq, hands⟩ := hands
      cases head with
      | emptyPrefix recvbuf => cases hands
      | line recvbuf buf sender bytesConsumed =>
          rw [Option.bind_eq_bind, Option.bind_eq_some_iff] at hands
          obtain ⟨tokens, split, hands⟩ := hands
          split at hands
          · cases hands
          · rename_i many
            rw [Option.bind_eq_bind, Option.bind_eq_some_iff] at hands
            obtain ⟨name, named, hands⟩ := hands
            split at hands
            · rename_i handler found
              rw [Option.bind_eq_bind, Option.bind_eq_some_iff] at hands
              obtain ⟨argv, terminated, hands⟩ := hands
              obtain rfl := Option.some.inj hands
              exact ⟨tokens, name, ⟨by simpa using unlocked, recvbuf, buf,
                sender, bytesConsumed, headEq, split, Nat.lt_of_not_le many⟩,
                named, found, terminated, rfl⟩
            · cases hands
  · rintro ⟨tokens, name, ⟨unlocked, recvbuf, buf, sender, consumed, head,
      split, many⟩, named, found, terminated, argc⟩
    rw [Client.command, if_neg (by simp [unlocked]), head]
    simp only [Option.bind_eq_bind, Option.bind_some, split,
      if_neg (Nat.not_le_of_lt many), named, terminated]
    rw [found, ← argc]

/-- A call that returns has handed over the command in the buffer, if there is
one. -/
theorem Client.parse_handed {parsed : Parsed ω}
    (returned : client.parse server world sock = some parsed) :
    parsed.handed = client.command sock := by
  cases locked : sock.recvbufLock with
  | true =>
      rw [Client.parse_locked locked, Option.some.injEq] at returned
      rw [← returned, Client.command, if_pos locked]
  | false =>
      have unlocked : ¬sock.recvbufLock = true := by simp [locked]
      rcases Client.parse_eq_some locked returned with
        ⟨recvbuf, head, rfl⟩ |
        ⟨recvbuf, buf, sender, consumed, tokens, head, split, ways⟩
      · rw [Client.command, if_neg unlocked, head]
        rfl
      · rw [Client.command, if_neg unlocked, head]
        simp only [Option.bind_eq_bind, Option.bind_some, split]
        rcases ways with ⟨few, rfl⟩ | ⟨many, dispatched, ran, handed, -⟩
        · rw [if_pos few]
        · rw [if_neg (Nat.not_le_of_lt many), handed]
          rw [Client.dispatch, Option.bind_eq_bind, Option.bind_eq_some_iff]
            at ran
          obtain ⟨name, named, ran⟩ := ran
          rw [named, Option.bind_some]
          dsimp only at ran
          split at ran
          · rename_i found
            rw [found, ← Option.some.inj ran]
          · rename_i found
            rw [found, ← Option.some.inj ran]
          · rename_i found
            rw [found, ← Option.some.inj ran]
          · rename_i handler found
            rw [Option.bind_eq_bind, Option.bind_eq_some_iff] at ran
            obtain ⟨argv, terminated, ran⟩ := ran
            rw [found]
            simp only [terminated, Option.bind_some]
            split at ran
            · rw [← Option.some.inj ran]
            · rw [← Option.some.inj ran]

/-- A call that hands over a command is defined. -/
theorem Client.parse_of_command (server : Server ω) (world : ω)
    {handed : Handed} (hands : client.command sock = some handed) :
    ∃ parsed, client.parse server world sock = some parsed := by
  obtain ⟨tokens, name, ⟨unlocked, recvbuf, buf, sender, consumed, head,
    split, many⟩, named, found, terminated, -⟩ :=
    Client.command_eq_some.mp hands
  obtain ⟨dispatched, ran⟩ :
      ∃ dispatched, client.dispatch server world tokens = some dispatched := by
    rw [Client.dispatch, named]
    simp only [Option.bind_eq_bind, Option.bind_some, found, terminated]
    split <;> exact ⟨_, rfl⟩
  rw [Client.parse, if_neg (by simp [unlocked])]
  simp only [Option.bind_eq_bind, Option.bind_some, head, split,
    if_neg (Nat.not_le_of_lt many), ran]
  cases dispatched.after with
  | none => exact ⟨_, rfl⟩
  | some pair => exact ⟨_, rfl⟩

/-- If the handler of the command in the buffer returns, then so does the call. -/
theorem Client.parse_of_returned {handed : Handed} {value : Bool}
    {sent : List CString} {nextWorld : ω} {next : Client}
    (hands : client.command sock = some handed)
    (ran : server.run handed.handler world client handed.argc handed.argv =
      .returned value sent nextWorld next) :
    ∃ parsed nextSock, client.parse server world sock = some parsed ∧
      parsed.result = .returned true nextWorld next nextSock := by
  obtain ⟨tokens, name, ⟨unlocked, recvbuf, buf, sender, consumed, head,
    split, many⟩, named, found, terminated, argc⟩ :=
    Client.command_eq_some.mp hands
  obtain ⟨dispatched, dispatch, after⟩ :
      ∃ dispatched, client.dispatch server world tokens = some dispatched ∧
        dispatched.after = some (nextWorld, next) := by
    rw [Client.dispatch, named]
    simp only [Option.bind_eq_bind, Option.bind_some, found, terminated]
    rw [← argc, ran]
    exact ⟨_, rfl, rfl⟩
  rw [Client.parse, if_neg (by simp [unlocked])]
  simp only [Option.bind_eq_bind, Option.bind_some, head, split,
    if_neg (Nat.not_le_of_lt many), dispatch]
  rw [after]
  exact ⟨_, _, rfl, rfl⟩

/-- A call that returns has left the client and the server alone, or a handler has
returned with them. -/
theorem Client.parse_world {parsed : Parsed ω} {value : Bool}
    {nextWorld : ω} {next : Client} {nextSock : Socket}
    (returned : client.parse server world sock = some parsed)
    (alive : parsed.result = .returned value nextWorld next nextSock) :
    parsed.handed = none ∧ parsed.rv = none ∧ next = client ∧
        nextWorld = world ∨
      ∃ handed rv sent, parsed.handed = some handed ∧ parsed.rv = some rv ∧
        server.run handed.handler world client handed.argc handed.argv =
          .returned rv sent nextWorld next := by
  cases locked : sock.recvbufLock with
  | true =>
      rw [Client.parse_locked locked, Option.some.injEq] at returned
      subst returned
      cases alive
      exact .inl ⟨rfl, rfl, rfl, rfl⟩
  | false =>
      rcases Client.parse_eq_some locked returned with
        ⟨recvbuf, head, rfl⟩ |
        ⟨recvbuf, buf, sender, consumed, tokens, head, split, ways⟩
      · cases alive
        exact .inl ⟨rfl, rfl, rfl, rfl⟩
      · rcases ways with ⟨-, rfl⟩ |
          ⟨-, dispatched, ran, handedEq, rvEq, ⟨-, ended⟩ | later⟩
        · cases alive
          exact .inl ⟨rfl, rfl, rfl, rfl⟩
        · rw [ended] at alive
          cases alive
        · obtain ⟨laterWorld, laterClient, after, result⟩ := later
          rw [result] at alive
          cases alive
          rcases Client.dispatch_eq_some ran with ⟨none, noRv, same⟩ |
            ⟨name, argv, handler, -, -, -, hands,
              ⟨rv, sent, _, _, handlerRan, someRv, same⟩ | ⟨-, gone⟩⟩
          · rw [same, Option.some.injEq, Prod.mk.injEq] at after
            exact .inl ⟨handedEq.trans none, rvEq.trans noRv, after.2.symm,
              after.1.symm⟩
          · rw [same, Option.some.injEq, Prod.mk.injEq] at after
            obtain ⟨rfl, rfl⟩ := after
            exact .inr ⟨_, rv, sent, handedEq.trans hands, rvEq.trans someRv,
              handlerRan⟩
          · rw [gone] at after
            cases after

/-- A call that returns has left the client alone, or a handler has returned
with it. -/
theorem Client.parse_client {parsed : Parsed ω} {value : Bool}
    {nextWorld : ω} {next : Client} {nextSock : Socket}
    (returned : client.parse server world sock = some parsed)
    (alive : parsed.result = .returned value nextWorld next nextSock) :
    parsed.handed = none ∧ parsed.rv = none ∧ next = client ∨
      ∃ handed rv sent, parsed.handed = some handed ∧ parsed.rv = some rv ∧
        server.run handed.handler world client handed.argc handed.argv =
          .returned rv sent nextWorld next := by
  rcases Client.parse_world returned alive with ⟨none, noRv, same, -⟩ | ran
  · exact .inl ⟨none, noRv, same⟩
  · exact .inr ran

/-- What a call that returns with the client alive has done: nothing to the
client, or what the handler of the command in the buffer has done. -/
theorem Client.parse_command {parsed : Parsed ω} {value : Bool}
    {nextWorld : ω} {next : Client} {nextSock : Socket}
    (returned : client.parse server world sock = some parsed)
    (alive : parsed.result = .returned value nextWorld next nextSock) :
    client.command sock = none ∧ parsed.rv = none ∧ next = client ∨
      ∃ handed rv sent, client.command sock = some handed ∧
        parsed.rv = some rv ∧
        server.run handed.handler world client handed.argc handed.argv =
          .returned rv sent nextWorld next := by
  rw [← Client.parse_handed returned]
  exact Client.parse_client returned alive

end Command

end Hamchat
