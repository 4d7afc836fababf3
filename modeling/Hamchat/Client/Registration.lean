import Hamchat.Client.Handlers
import Hamchat.Parser.Command

/-!
# The registration gate

`IRC_IsActive` tests whether any of the two flags of `IRC_STATE_ALIVE` is set.
Along every run it is true exactly if a NICK or a USER command has been
accepted, so a command that needs registration gets through as soon as one of
the two has been.
-/

namespace Hamchat

open Foundation

/-! ## Flags -/

/-- A test of some flags sees each flag that is set. -/
theorem or_and_ne_zero {left right mask : Nat} :
    (left ||| right) &&& mask ≠ 0 ↔
      left &&& mask ≠ 0 ∨ right &&& mask ≠ 0 := by
  rw [Nat.and_or_distrib_right, Ne, Nat.or_eq_zero_iff]
  tauto

theorem Client.isActive_iff (client : Client) :
    client.isActive = true ↔ client.connState &&& ircStateAlive ≠ 0 := by
  simp [Client.isActive]

/-- Adding a flag keeps a client active. -/
theorem Client.isActive_or {client next : Client} {flag : Nat}
    (added : next.connState = client.connState ||| flag) :
    next.isActive = true ↔
      client.isActive = true ∨ flag &&& ircStateAlive ≠ 0 := by
  rw [Client.isActive_iff, Client.isActive_iff, added, or_and_ne_zero]

/-- A client whose NICK is accepted is active. -/
theorem Client.isActive_markNick (client : Client) :
    client.markNick.isActive = true := by
  rw [Client.markNick]
  split
  · rename_i active
    exact active
  · have added : ({ client with
          connState := client.connState ||| ircStateNick } : Client).connState =
        client.connState ||| ircStateNick := rfl
    exact (Client.isActive_or added).mpr (.inr (by decide))

/-! ## What the handlers do to the flags -/

section Flags

variable {registry : Registry ω} {world nextWorld : ω} {client next : Client}
variable {argc : Nat} {argv : List CString} {value : Bool}
variable {sent : List CString}

/-- NICK makes the client active if it is accepted, and changes no flag
otherwise. -/
theorem mNick_isActive
    (returned : mNick registry world client argc argv =
      .returned value sent nextWorld next) :
    next.isActive = (client.isActive || value) := by
  rcases mNick_returned registry world client argc argv returned with
    ⟨rfl, -, rfl⟩ | ⟨rfl, newCall, -, -, -, rfl, -⟩
  · rw [Bool.or_false]
  · rw [Bool.or_true]
    exact client.isActive_markNick

/-- USER makes the client active if it is accepted, and changes no flag
otherwise. -/
theorem mUser_isActive
    (returned : mUser registry world client argv =
      .returned value sent nextWorld next) :
    next.isActive = (client.isActive || value) := by
  rw [mUser] at returned
  dsimp only at returned
  split at returned
  · cases returned
    simp
  · have active : ∀ added : Client,
        added.connState = client.connState ||| ircStateUser →
        added.isActive = true := fun added equal =>
      (Client.isActive_or equal).mpr (.inr (by decide))
    split at returned
    · split at returned
      · obtain ⟨rfl, -, -, rfl⟩ := HandlerEnd.returned.inj returned
        rw [Bool.or_true]
        exact active _ rfl
      · cases returned
    · obtain ⟨rfl, -, -, rfl⟩ := HandlerEnd.returned.inj returned
      rw [Bool.or_true]
      exact active _ rfl

/-- PASS keeps an active client active. -/
theorem mPass_isActive (active : client.isActive = true)
    (returned : mPass registry world client argv =
      .returned value sent nextWorld next) :
    next.isActive = true := by
  rw [mPass] at returned
  split at returned
  · cases returned
    exact active
  · split at returned
    · cases returned
      exact active
    · obtain ⟨-, -, -, rfl⟩ := HandlerEnd.returned.inj returned
      exact (Client.isActive_or rfl).mpr (.inl active)

end Flags

/-! ## The command table -/

/-- The entry of a handler has `registered` set. -/
def requiresRegistration (handler : Handler) : Bool :=
  ircCommands.any fun cp => cp.cmdFunc = some handler && cp.registered

/-- What an inactive client finds is the handler of a row without
`registered`. -/
theorem exists_unregistered_of_inactive {argc : Nat} {name : CString}
    {handler : Handler} {table : List IrcCmds}
    (found : searchCommands false argc name table = .found handler) :
    ∃ cp ∈ table, cp.cmdFunc = some handler ∧ cp.registered = false := by
  induction table with
  | nil => cases found
  | cons cp rest inductionHypothesis =>
      have later (foundLater : searchCommands false argc name rest =
          .found handler) :
          ∃ cp' ∈ cp :: rest, cp'.cmdFunc = some handler ∧
            cp'.registered = false := by
        obtain ⟨cp', member, row⟩ := inductionHypothesis foundLater
        exact ⟨cp', List.mem_cons_of_mem _ member, row⟩
      rw [searchCommands] at found
      split at found
      · exact later found
      · split at found
        · split at found
          · cases found
          · rename_i admitted
            split at found
            · cases found
            · split at found
              · cases found
              · split at found
                · rename_i row func
                  refine ⟨cp, List.mem_cons_self, ?_, by simpa using admitted⟩
                  rw [func, Search.found.inj found]
                · exact later found
        · exact later found

/-- An inactive client reaches no handler that needs registration. -/
theorem requiresRegistration_of_inactive {argc : Nat} {name : CString}
    {handler : Handler}
    (found : searchCommands false argc name ircCommands = .found handler) :
    requiresRegistration handler = false := by
  obtain ⟨cp, member, func, unregistered⟩ :=
    exists_unregistered_of_inactive found
  have table : ∀ cp ∈ ircCommands, cp.registered = false →
      ∀ handler, cp.cmdFunc = some handler →
        requiresRegistration handler = false := by
    decide +kernel
  exact table cp member unregistered handler func

/-! ## What a call hands over -/

/-- The handler that the command in the buffer names, with a number of
parameters that its entry admits. -/
def Client.requested (client : Client) (sock : Socket) : Option Handler :=
  if sock.recvbufLock then
    none
  else do
    match ← parseHead client sock.recvbuf with
    | .emptyPrefix _ => none
    | .line recvbuf buf sender bytesConsumed => do
        let tokens ← tokenLoop (recvbuf.bytes.drop buf)
          ⟨[sender, ⟨cmdLen, []⟩], 1, false, bytesConsumed⟩
        if tokens.parc ≤ 1 then
          none
        else do
          let name ← tokens.parv[1]?.bind Block.toCString
          let _ ← tokens.parv.mapM Block.toCString
          match searchCommands true (tokens.parc - 1) name ircCommands with
          | .found handler => some handler
          | _ => none

/-- The buffer holds a command that needs registration. -/
def Client.RequestsRegistered (client : Client) (sock : Socket) : Prop :=
  ∃ handler, client.requested sock = some handler ∧
    requiresRegistration handler = true

section Gate

variable {server : Server ω} {world : ω} {client : Client} {sock : Socket}

/-- The buffer names a handler exactly if a line of several tokens does, as an
active client would send it. -/
theorem Client.requested_eq_some {handler : Handler} :
    client.requested sock = some handler ↔
      ∃ tokens name argv, client.Splits sock tokens ∧
        tokens.parv[1]?.bind Block.toCString = some name ∧
        tokens.parv.mapM Block.toCString = some argv ∧
        searchCommands true (tokens.parc - 1) name ircCommands =
          .found handler := by
  constructor
  · intro requested
    rw [Client.requested] at requested
    split at requested
    · cases requested
    · rename_i unlocked
      rw [Option.bind_eq_bind, Option.bind_eq_some_iff] at requested
      obtain ⟨head, headEq, requested⟩ := requested
      cases head with
      | emptyPrefix recvbuf => cases requested
      | line recvbuf buf sender bytesConsumed =>
          rw [Option.bind_eq_bind, Option.bind_eq_some_iff] at requested
          obtain ⟨tokens, split, requested⟩ := requested
          split at requested
          · cases requested
          · rename_i many
            rw [Option.bind_eq_bind, Option.bind_eq_some_iff] at requested
            obtain ⟨name, named, requested⟩ := requested
            rw [Option.bind_eq_bind, Option.bind_eq_some_iff] at requested
            obtain ⟨argv, terminated, requested⟩ := requested
            split at requested
            · rename_i found handlerEq
              obtain rfl := Option.some.inj requested
              exact ⟨tokens, name, argv, ⟨by simpa using unlocked, recvbuf,
                buf, sender, bytesConsumed, headEq, split,
                Nat.lt_of_not_le many⟩, named, terminated, handlerEq⟩
            · cases requested
  · rintro ⟨tokens, name, argv, ⟨unlocked, recvbuf, buf, sender, consumed,
      head, split, many⟩, named, terminated, found⟩
    rw [Client.requested, if_neg (by simp [unlocked]), head]
    simp only [Option.bind_eq_bind, Option.bind_some, split,
      if_neg (Nat.not_le_of_lt many), named, terminated, found]

/-- A handler that needs registration is reached only by an active client, and
only if the buffer names it. -/
theorem Client.requestsRegistered_of_handed {parsed : Parsed ω}
    {handed : Handed} (returned : client.parse server world sock = some parsed)
    (hands : parsed.handed = some handed)
    (needs : requiresRegistration handed.handler = true) :
    client.isActive = true ∧ client.RequestsRegistered sock := by
  rw [Client.parse_handed returned] at hands
  obtain ⟨tokens, name, splits, named, found, terminated, -⟩ :=
    Client.command_eq_some.mp hands
  cases active : client.isActive with
  | false =>
      rw [active] at found
      rw [requiresRegistration_of_inactive found] at needs
      cases needs
  | true =>
      rw [active] at found
      exact ⟨rfl, handed.handler, Client.requested_eq_some.mpr
        ⟨tokens, name, handed.argv, splits, named, terminated, found⟩, needs⟩

/-- An active client whose buffer names a handler that needs registration
reaches it. -/
theorem Client.handed_of_requestsRegistered (server : Server ω) (world : ω)
    (active : client.isActive = true)
    (requests : client.RequestsRegistered sock) :
    ∃ parsed handed, client.parse server world sock = some parsed ∧
      parsed.handed = some handed ∧
      requiresRegistration handed.handler = true := by
  obtain ⟨handler, requested, needs⟩ := requests
  obtain ⟨tokens, name, argv, splits, named, terminated, found⟩ :=
    Client.requested_eq_some.mp requested
  have hands : client.command sock =
      some ⟨handler, tokens.parc - 1, argv⟩ := by
    refine Client.command_eq_some.mpr
      ⟨tokens, name, splits, named, ?_, terminated, rfl⟩
    rw [active]
    exact found
  obtain ⟨parsed, returned⟩ := Client.parse_of_command server world hands
  exact ⟨parsed, _, returned, (Client.parse_handed returned).trans hands, needs⟩

end Gate

/-! ## Runs -/

/-- A call of `Client::Parse`, with the server and the socket as it finds
them. -/
structure ParseCall (ω : Type) where
  /-- The server around the client. -/
  world : ω
  /-- The socket, whose buffer holds whatever has arrived. -/
  sock : Socket

/-- A client, and which commands have been accepted for it. -/
structure Registration where
  /-- The client. -/
  client : Client
  /-- A NICK command has been accepted. -/
  nick : Bool
  /-- A USER command has been accepted. -/
  user : Bool

/-- A call has handed a command to a handler that accepted it. -/
def Parsed.accepts (parsed : Parsed ω) (handler : Handler) : Bool :=
  parsed.rv = some true && parsed.handed.any (·.handler == handler)

/-- One call that returns with the client alive. -/
def Registration.step (server : Server ω) (state : Registration)
    (call : ParseCall ω) : Option Registration := do
  let parsed ← state.client.parse server call.world call.sock
  match parsed.result with
  | .returned _ _ client _ =>
      some {
        client := client
        nick := state.nick || parsed.accepts .mNick
        user := state.user || parsed.accepts .mUser
      }
  | .ended => none

/-- A client that has just connected. -/
def Registration.start (client : Client) : Registration :=
  ⟨client, false, false⟩

/-- The client is active exactly if NICK or USER has been accepted. -/
def Registration.FlagsFollow (state : Registration) : Prop :=
  state.client.isActive = (state.nick || state.user)

section Runs

variable {registry : Registry ω} {others : OtherHandlers ω}

/-- What the handlers do to the flags. -/
theorem registrationServer_isActive {handler : Handler}
    {world nextWorld : ω} {client next : Client} {argc : Nat}
    {argv : List CString} {value : Bool} {sent : List CString}
    (reached : requiresRegistration handler = true → client.isActive = true)
    (returned : (registrationServer registry others).run handler world client
      argc argv = .returned value sent nextWorld next) :
    next.isActive = (client.isActive ||
      (value && (handler == .mNick || handler == .mUser))) := by
  by_cases nick : handler = .mNick
  · subst nick
    simpa using mNick_isActive returned
  · by_cases user : handler = .mUser
    · subst user
      simpa using mUser_isActive returned
    · by_cases pass : handler = .mPass
      · subst pass
        have active := reached (by decide +kernel)
        rw [active, Bool.true_or]
        exact mPass_isActive active returned
      · have same : next.connState = client.connState := by
          cases handler with
          | mNick => exact absurd rfl nick
          | mUser => exact absurd rfl user
          | mPass => exact absurd rfl pass
          | mQuit => cases returned
          | _ => exact others.connState_eq _ _ _ _ _ _ _ _ _ returned
        simp [Client.isActive, same, nick, user]

/-- One call keeps the flags in step with the accepted commands. -/
theorem Registration.FlagsFollow.step {state next : Registration}
    {call : ParseCall ω} (follow : state.FlagsFollow)
    (stepped : state.step (registrationServer registry others) call =
      some next) : next.FlagsFollow := by
  rw [Registration.step, Option.bind_eq_bind, Option.bind_eq_some_iff]
    at stepped
  obtain ⟨parsed, returned, stepped⟩ := stepped
  split at stepped
  · rename_i value nextWorld client nextSock alive
    obtain rfl := Option.some.inj stepped
    rw [FlagsFollow] at follow ⊢
    rcases Client.parse_client returned alive with
      ⟨-, noRv, rfl⟩ | ⟨handed, rv, sent, hands, someRv, ran⟩
    · simp [Parsed.accepts, noRv, follow]
    · have reached : requiresRegistration handed.handler = true →
          state.client.isActive = true := fun needs =>
        (Client.requestsRegistered_of_handed returned hands needs).1
      rw [registrationServer_isActive reached ran, follow]
      simp only [Parsed.accepts, hands, someRv, Option.any_some,
        Option.some.injEq]
      cases state.nick <;> cases state.user <;> cases rv <;> simp
  · cases stepped

/-- Before every call of `Client::Parse` that hands over a command that needs
registration, both NICK and USER have been accepted. -/
def GateHolds (server : Server ω) (start : Client)
    (calls : List (ParseCall ω)) : Prop :=
  ∀ past call, past ++ [call] <+: calls → ∀ state,
    runFrom (Registration.step server) (Registration.start start) past =
      some state →
    ∀ parsed handed,
      state.client.parse server call.world call.sock = some parsed →
      parsed.handed = some handed →
      requiresRegistration handed.handler = true →
        state.nick = true ∧ state.user = true

/-- The gate holds for a run exactly if no command that needs registration
arrives while exactly one of NICK and USER has been accepted. -/
theorem gateHolds_iff (registry : Registry ω) (others : OtherHandlers ω)
    {start : Client} (connected : start.connState = ircStateNone)
    (calls : List (ParseCall ω)) :
    GateHolds (registrationServer registry others) start calls ↔
      ∀ past call, past ++ [call] <+: calls → ∀ state,
        runFrom (Registration.step (registrationServer registry others))
          (Registration.start start) past = some state →
        state.nick ≠ state.user →
          ¬state.client.RequestsRegistered call.sock := by
  have follow : Always
      (Registration.step (registrationServer registry others))
      (Registration.start start) (fun _ state => state.FlagsFollow) calls := by
    refine Always.of_step _ ?_ fun _ _ _ _ follow stepped => follow.step stepped
    rw [Registration.FlagsFollow, Registration.start, Client.isActive,
      connected]
    rfl
  constructor
  · intro gate past call within state reached oneOnly requests
    have flags : state.FlagsFollow :=
      follow past ((List.prefix_append _ _).trans within) state reached
    rw [Registration.FlagsFollow] at flags
    have active : state.client.isActive = true := by
      rw [flags]
      revert oneOnly
      cases state.nick <;> cases state.user <;> simp
    obtain ⟨parsed, handed, returned, hands, needs⟩ :=
      Client.handed_of_requestsRegistered
        (registrationServer registry others) call.world active requests
    obtain ⟨nick, user⟩ :=
      gate past call within state reached parsed handed returned hands needs
    exact oneOnly (nick.trans user.symm)
  · intro none past call within state reached parsed handed returned hands
      needs
    have flags : state.FlagsFollow :=
      follow past ((List.prefix_append _ _).trans within) state reached
    rw [Registration.FlagsFollow] at flags
    obtain ⟨active, requests⟩ :=
      Client.requestsRegistered_of_handed returned hands needs
    have same : state.nick = state.user := by
      by_contra oneOnly
      exact none past call within state reached oneOnly requests
    rw [active, same, Bool.or_self] at flags
    exact ⟨same.trans flags.symm, flags.symm⟩

end Runs

/-- A registry in which every callsign is free. -/
def freeRegistry : Registry Unit where
  servername := .ofLiteral "hamchat.local"
  findClient _ _ := some false
  rename world _ _ := some world
  welcome _ _ := []

/-- Handlers that do nothing. -/
def idleHandlers : OtherHandlers Unit where
  run _ world client _ _ := .returned true [] world client
  connState_eq := by
    intro handler world client argc argv value sent nextWorld next returned
    cases returned
    rfl

/-- A call of `Client::Parse` that finds a text in the buffer. -/
def ParseCall.ofLiteral (text : String) : ParseCall Unit where
  world := ()
  sock :=
    { Socket.zeroed with
      recvbuf := (RecvBuf.zero.write 0 (CString.ofLiteral text).bytes).getD
        RecvBuf.zero }

theorem gateHolds_iff_nick_user_join :
    GateHolds (registrationServer freeRegistry idleHandlers) freshClient
        [.ofLiteral "NICK W1AW\r\n", .ofLiteral "USER a b c :d\r\n",
          .ofLiteral "JOIN #hf\r\n"] ↔
      ∀ past call, past ++ [call] <+:
        [.ofLiteral "NICK W1AW\r\n", .ofLiteral "USER a b c :d\r\n",
          .ofLiteral "JOIN #hf\r\n"] → ∀ state,
        runFrom (Registration.step
          (registrationServer freeRegistry idleHandlers))
          (Registration.start freshClient) past = some state →
        state.nick ≠ state.user →
          ¬state.client.RequestsRegistered call.sock :=
  gateHolds_iff freeRegistry idleHandlers rfl _

/-- NICK alone lets JOIN through. -/
theorem nick_alone_passes_gate :
    ¬GateHolds (registrationServer freeRegistry idleHandlers) freshClient
      [.ofLiteral "NICK W1AW\r\n", .ofLiteral "JOIN #hf\r\n"] := by
  intro gate
  have passes : (runFrom (Registration.step
      (registrationServer freeRegistry idleHandlers))
      (Registration.start freshClient) [.ofLiteral "NICK W1AW\r\n"]).bind
        (fun state => (state.client.parse
          (registrationServer freeRegistry idleHandlers) ()
          (ParseCall.ofLiteral "JOIN #hf\r\n").sock).bind
            fun parsed => parsed.handed.map fun handed =>
              (state.user, requiresRegistration handed.handler)) =
      some (false, true) := by
    decide +kernel
  obtain ⟨state, reached, passes⟩ := Option.bind_eq_some_iff.mp passes
  obtain ⟨parsed, returned, passes⟩ := Option.bind_eq_some_iff.mp passes
  obtain ⟨handed, hands, result⟩ := Option.map_eq_some_iff.mp passes
  rw [Prod.mk.injEq] at result
  have both := gate [.ofLiteral "NICK W1AW\r\n"]
    (.ofLiteral "JOIN #hf\r\n") (List.prefix_refl _) state reached parsed
    handed returned hands result.2
  rw [result.1] at both
  cases both.2

end Hamchat
