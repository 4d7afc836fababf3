import Hamchat.Client.Registration

/-!
# Sessions

A session is a client together with what has been accepted for it: the parts of
a registration that no field of the client records reliably.
-/

namespace Hamchat

open Foundation

/-! ## What a handler does to the client -/

/-- The client as an accepted USER leaves it. -/
def Client.markUser (client : Client) (argv : List CString) : Client :=
  { client with
    connState := client.connState ||| ircStateUser
    username :=
      (argv[2]?.getD (CString.ofLiteral "(null)")).truncate (userLen + 1)
    realname :=
      (argv[5]?.getD (CString.ofLiteral "(null)")).truncate (realnameLen + 1) }

/-- The client as an accepted PASS leaves it. -/
def Client.storePass (client : Client) (chpass : CString) : Client :=
  { client with
    pass := chpass.truncate (passLen + 1)
    connState := client.connState ||| ircStatePass }

/-- `m_pass` stores the password. -/
def Handed.acceptsPass (handed : Handed) (client : Client) : Bool :=
  handed.handler = .mPass && client.connState &&& ircStatePass = 0 &&
    handed.argv[2]?.isSome

/-- `m_user` or `m_pass` replies 462. -/
def Handed.isRefused (handed : Handed) (client : Client) : Bool :=
  handed.handler = .mUser && client.connState &&& ircStateUser ≠ 0 ||
    handed.handler = .mPass && client.connState &&& ircStatePass ≠ 0

/-- The handlers that are not modelled write none of the fields of
`Client`. -/
structure QuietHandlers (ω : Type) extends OtherHandlers ω where
  /-- They leave the client alone. -/
  client_eq : ∀ handler world client argc argv value sent nextWorld next,
    run handler world client argc argv =
        .returned value sent nextWorld next →
      next = client

/-- What a handler that returns has done to the client. -/
inductive Client.Handled (client : Client) (handed : Handed) :
    (rv : Bool) → (next : Client) → Prop
  /-- Nothing: it is neither an accepted USER nor an accepted PASS. -/
  | unchanged (rv : Bool)
      (user : handed.handler = .mUser → rv = false ∧
        client.connState &&& ircStateUser ≠ 0)
      (pass : handed.acceptsPass client = false) : Handled client handed rv client
  /-- A NICK has been accepted. -/
  | nick (newCall : CString) (handler : handed.handler = .mNick)
      (valid : isValidCallsign newCall = true) :
      Handled client handed true (client.markNick.setCallsign newCall)
  /-- A USER has been accepted. -/
  | user (handler : handed.handler = .mUser)
      (first : client.connState &&& ircStateUser = 0) :
      Handled client handed true (client.markUser handed.argv)
  /-- A PASS has been accepted. -/
  | pass (chpass : CString) (accepted : handed.acceptsPass client = true)
      (parameter : handed.argv[2]? = some chpass) :
      Handled client handed false (client.storePass chpass)

section Handled

variable {registry : Registry ω} {others : QuietHandlers ω}
variable {world nextWorld : ω} {client next : Client} {handed : Handed}
variable {rv : Bool} {sent : List CString}

theorem Handed.acceptsPass_iff : handed.acceptsPass client = true ↔
    handed.handler = .mPass ∧ client.connState &&& ircStatePass = 0 ∧
      handed.argv[2]?.isSome = true := by
  simp [Handed.acceptsPass, and_assoc]

/-- The reply of a handler that refuses. -/
theorem Handed.isRefused_reply (refused : handed.isRefused client = true) :
    (registrationServer registry others.toOtherHandlers).run handed.handler
        world client handed.argc handed.argv =
      .returned false [mayNotReregister registry client] world client := by
  obtain ⟨handler, argc, argv⟩ := handed
  simp only [Handed.isRefused, Bool.or_eq_true, Bool.and_eq_true,
    decide_eq_true_iff] at refused
  rcases refused with ⟨rfl, flag⟩ | ⟨rfl, flag⟩
  · exact if_pos flag
  · exact if_pos flag

/-- A USER that returns was refused, or it has stored its parameters. -/
theorem mUser_returned {argv : List CString}
    (returned : mUser registry world client argv =
      .returned rv sent nextWorld next) :
    rv = false ∧ client.connState &&& ircStateUser ≠ 0 ∧ next = client ∨
      rv = true ∧ client.connState &&& ircStateUser = 0 ∧
        next = client.markUser argv := by
  rw [mUser] at returned
  dsimp only at returned
  split at returned
  · rename_i flag
    obtain ⟨rfl, -, -, rfl⟩ := HandlerEnd.returned.inj returned
    exact .inl ⟨rfl, flag, rfl⟩
  · rename_i noFlag
    refine .inr ?_
    rw [not_not] at noFlag
    split at returned
    · split at returned
      · obtain ⟨rfl, -, -, rfl⟩ := HandlerEnd.returned.inj returned
        exact ⟨rfl, noFlag, rfl⟩
      · cases returned
    · obtain ⟨rfl, -, -, rfl⟩ := HandlerEnd.returned.inj returned
      exact ⟨rfl, noFlag, rfl⟩

/-- What a handler that returns has done. -/
theorem handled_of_returned
    (returned : (registrationServer registry others.toOtherHandlers).run
      handed.handler world client handed.argc handed.argv =
        .returned rv sent nextWorld next) :
    client.Handled handed rv next := by
  obtain ⟨handler, argc, argv⟩ := handed
  have other (user : handler ≠ .mUser) (pass : handler ≠ .mPass)
      (same : next = client) : client.Handled ⟨handler, argc, argv⟩ rv next := by
    subst same
    exact .unchanged rv (fun isUser => absurd isUser user)
      (by simp [Handed.acceptsPass, pass])
  cases handler with
  | mNick =>
      rcases mNick_returned registry world client argc argv returned with
        ⟨-, -, same⟩ | ⟨rfl, newCall, -, valid, -, rfl, -⟩
      · exact other (by decide) (by decide) same
      · exact .nick newCall rfl valid
  | mUser =>
      rcases mUser_returned returned with ⟨rfl, flag, rfl⟩ | ⟨rfl, first, rfl⟩
      · exact .unchanged false (fun _ => ⟨rfl, flag⟩) rfl
      · exact .user rfl first
  | mPass =>
      change mPass registry world client argv = _ at returned
      rw [mPass] at returned
      split at returned
      · rename_i flag
        obtain ⟨rfl, -, -, rfl⟩ := HandlerEnd.returned.inj returned
        exact .unchanged false (fun isUser => by cases isUser)
          (by simp [Handed.acceptsPass, flag])
      · rename_i noFlag
        split at returned
        · rename_i missing
          obtain ⟨rfl, -, -, rfl⟩ := HandlerEnd.returned.inj returned
          exact .unchanged false (fun isUser => by cases isUser)
            (by simp [Handed.acceptsPass, missing])
        · rename_i chpass parameter
          obtain ⟨rfl, -, -, rfl⟩ := HandlerEnd.returned.inj returned
          refine .pass chpass (Handed.acceptsPass_iff.mpr ⟨rfl, ?_, ?_⟩)
            parameter
          · exact not_not.mp noFlag
          · rw [parameter]
            rfl
  | mQuit => cases returned
  | _ =>
      exact other (by decide) (by decide)
        (others.client_eq _ _ _ _ _ _ _ _ _ returned)

end Handled

/-! ## The numerics -/

section Numerics

variable (registry : Registry ω) (world : ω) (client : Client)

/-- The client for which `m_nick` calls `send_connect_numerics`. -/
def nickNumerics (argc : Nat) (argv : List CString) : Option Client :=
  if 1 ≤ argc ∧ argv[2]?.any isValidCallsign ∧
      registry.findClient world (argv[2]?.getD (.ofLiteral "(null)")) =
        some false ∧
      client.hasNickOrUser = false ∧
      client.markNick.connState &&& ircStateUser ≠ 0 then
    some client.markNick
  else
    none

/-- The client for which `m_user` calls `send_connect_numerics`. -/
def userNumerics (argv : List CString) : Option Client :=
  if client.connState &&& ircStateUser = 0 ∧
      (client.markUser argv).connState &&& ircStateNick ≠ 0 then
    some (client.markUser argv)
  else
    none

/-- The client for which a handler calls `send_connect_numerics`. -/
def Handed.numerics (handed : Handed) : Option Client :=
  match handed.handler with
  | .mNick => nickNumerics registry world client handed.argc handed.argv
  | .mUser => userNumerics client handed.argv
  | _ => none

/-- `send_connect_numerics` validates the password of the client. -/
def Handed.validates (handed : Handed) : Bool :=
  (handed.numerics registry world client).any fun before =>
    before.pass ≠ .empty && (sendConnectNumerics registry world before).1

/-- `m_nick` sends the numerics for that client. -/
theorem nickReply_eq_numerics {argc : Nat} {argv : List CString}
    {newCall : CString} (given : 1 ≤ argc)
    (parameter : argv[2]? = some newCall)
    (valid : isValidCallsign newCall = true)
    (free : registry.findClient world newCall = some false) :
    nickReply registry world client.markNick client.hasNickOrUser newCall =
      match nickNumerics registry world client argc argv with
      | some before => sendConnectNumerics registry world before
      | none => (true, if client.hasNickOrUser then
          [sendText [.ofLiteral ":", client.markNick.callsign,
            .ofLiteral " NICK ", newCall]] else []) := by
  rw [nickReply, nickNumerics]
  cases active : client.hasNickOrUser with
  | true => simp
  | false =>
      by_cases flag : client.markNick.connState &&& ircStateUser = 0
      · simp [flag]
      · simp [flag, given, parameter, valid, free]

/-- `m_user` sends the numerics for that client, and does not return if they
delete it. -/
theorem mUser_eq_numerics (argv : List CString) :
    mUser registry world client argv =
      match userNumerics client argv with
      | some before =>
          if (sendConnectNumerics registry world before).1 then
            .returned true (sendConnectNumerics registry world before).2 world
              before
          else
            .ended (sendConnectNumerics registry world before).2
      | none =>
          if client.connState &&& ircStateUser ≠ 0 then
            .returned false [mayNotReregister registry client] world client
          else
            .returned true [] world (client.markUser argv) := by
  rw [userNumerics]
  by_cases first : client.connState &&& ircStateUser = 0
  · by_cases nick : (client.markUser argv).connState &&& ircStateNick = 0
    · simp only [first, nick, ne_eq, not_true, and_false, if_false]
      rw [Client.markUser] at nick
      rw [mUser, Client.markUser]
      simp [first, nick]
    · simp only [first, nick, ne_eq, not_false_eq_true, and_self, if_true]
      rw [Client.markUser] at nick
      rw [mUser, Client.markUser]
      simp [first, nick]
  · rw [mUser]
    simp [first]

/-- `m_nick` never calls `send_connect_numerics`. -/
theorem nickNumerics_eq_none (argc : Nat) (argv : List CString) :
    nickNumerics registry world client argc argv = none := by
  rw [nickNumerics, if_neg]
  rintro ⟨-, -, -, inactive, flag⟩
  exact flag (client.markNick_noUser inactive)

variable {registry world client} {handed : Handed} {before : Client}

/-- The numerics follow an accepted USER of a client whose NICK has been
accepted first. -/
theorem Handed.numerics_eq_some :
    handed.numerics registry world client = some before ↔
      handed.handler = .mUser ∧ client.connState &&& ircStateUser = 0 ∧
        client.connState &&& ircStateNick ≠ 0 ∧
        before = client.markUser handed.argv := by
  have flag : (client.markUser handed.argv).connState &&& ircStateNick ≠ 0 ↔
      client.connState &&& ircStateNick ≠ 0 := by
    rw [Client.markUser, or_and_ne_zero, or_iff_left (by decide)]
  rw [Handed.numerics]
  split
  · rename_i nick
    simp [nickNumerics_eq_none, nick]
  · rename_i user
    rw [userNumerics, user]
    split
    · rename_i both
      simp [both.1, flag.mp both.2, eq_comm]
    · rename_i notBoth
      simp only [false_iff, reduceCtorEq]
      rintro ⟨-, first, nick, -⟩
      exact notBoth ⟨first, flag.mpr nick⟩
  · rename_i noUser
    simp only [false_iff, reduceCtorEq]
    exact fun found => noUser found.1

/-- A password is never found right. -/
theorem sendConnectNumerics_password (password : before.pass ≠ .empty) :
    (sendConnectNumerics registry world before).1 = false := by
  rw [sendConnectNumerics, if_pos password]

/-- No handler validates a password. -/
@[simp] theorem Handed.validates_eq_false :
    handed.validates registry world client = false := by
  rw [Handed.validates, Option.any_eq_false]
  intro before _
  by_cases password : before.pass = .empty
  · simp [password]
  · simp [sendConnectNumerics_password password]

/-- The handler does not return once its `send_connect_numerics` has deleted the
client. -/
theorem Handed.ended_of_numerics {others : OtherHandlers ω}
    (numerics : handed.numerics registry world client = some before)
    (failed : (sendConnectNumerics registry world before).1 = false) :
    ∃ sent, (registrationServer registry others).run handed.handler world client
      handed.argc handed.argv = .ended sent := by
  obtain ⟨user, -⟩ := Handed.numerics_eq_some.mp numerics
  rw [Handed.numerics, user] at numerics
  dsimp only at numerics
  refine ⟨(sendConnectNumerics registry world before).2, ?_⟩
  rw [user]
  change mUser registry world client handed.argv = _
  simp [mUser_eq_numerics, numerics, failed]

end Numerics

/-! ## Runs -/

/-- A client, and what has been accepted for it. -/
structure Session where
  /-- The client. -/
  client : Client
  /-- A USER has been accepted. -/
  user : Bool
  /-- A PASS has been accepted. -/
  pass : Bool
  /-- A password that is not empty has been accepted and not yet validated. -/
  pending : Bool

/-- A client that has just connected. -/
def Session.start (client : Client) : Session := ⟨client, false, false, false⟩

/-- What a handler that returns leaves accepted. -/
def Session.after (registry : Registry ω) (world : ω) (session : Session)
    (handed : Handed) (rv : Bool) (client : Client) : Session where
  client := client
  user := session.user || (rv && handed.handler = .mUser)
  pass := session.pass || handed.acceptsPass session.client
  pending :=
    (session.pending ||
        (handed.acceptsPass session.client && client.pass ≠ .empty)) &&
      !handed.validates registry world session.client

/-- One call of `Client::Parse` that returns with the client alive. -/
def Session.step (registry : Registry ω) (others : OtherHandlers ω)
    (session : Session) (call : ParseCall ω) : Option Session := do
  let parsed ← session.client.parse (registrationServer registry others)
    call.world call.sock
  match parsed.result with
  | .returned _ _ client _ =>
      match parsed.handed with
      | some handed =>
          some (session.after registry call.world handed
            (parsed.rv = some true) client)
      | none => some { session with client := client }
  | .ended => none

/-- A step without a command changes nothing.  Any other step is that of a
handler. -/
theorem Session.step_eq_some {registry : Registry ω}
    {others : QuietHandlers ω} {session next : Session} {call : ParseCall ω}
    (stepped : session.step registry others.toOtherHandlers call =
      some next) :
    session.client.command call.sock = none ∧ next = session ∨
      ∃ handed rv client, session.client.command call.sock = some handed ∧
        session.client.Handled handed rv client ∧
        next = session.after registry call.world handed rv client := by
  rw [Session.step, Option.bind_eq_bind, Option.bind_eq_some_iff] at stepped
  obtain ⟨parsed, returned, stepped⟩ := stepped
  split at stepped
  · rename_i value nextWorld client nextSock alive
    rw [Client.parse_handed returned] at stepped
    rcases Client.parse_command returned alive with
      ⟨nothing, -, rfl⟩ | ⟨handed, rv, sent, hands, someRv, ran⟩
    · rw [nothing] at stepped
      exact .inl ⟨nothing, (Option.some.inj stepped).symm⟩
    · rw [hands, someRv] at stepped
      refine .inr ⟨handed, rv, client, hands, handled_of_returned ran, ?_⟩
      rw [← Option.some.inj stepped]
      simp
  · cases stepped

end Hamchat
