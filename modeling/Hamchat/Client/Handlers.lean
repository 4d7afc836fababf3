import Hamchat.Parser.Defs

/-!
# Handlers of registration

`m_nick`, `m_user`, `m_pass` and `m_quit`, with `is_valid_callsign`,
`Client::SetCallsign` and `Client::send_connect_numerics`.  They are modelled
over the lookup of a callsign and its replacement in `Clients_by_callsign`.  A
NULL parameter prints as glibc prints it.
-/

namespace Hamchat

/-- What the handlers use of the rest of the server. -/
structure Registry (ω : Type) where
  /-- `cfg->Get("core.servername", "hamchat.local")` -/
  servername : CString
  /-- Whether `find_client(callsign)` returns a pointer, if it returns. -/
  findClient : ω → CString → Option Bool
  /-- `dict_del` of a callsign that is set, and `dict_add_blob` of its
  successor, if they return. -/
  rename : ω → (callsign next : CString) → Option ω
  /-- The lines 001 to 250 that `send_connect_numerics` sends. -/
  welcome : ω → Client → List CString

/-! ## Callsigns -/

/-- `isalpha` in the C locale -/
def isAlpha (byte : UInt8) : Bool :=
  (65 ≤ byte && byte ≤ 90) || (97 ≤ byte && byte ≤ 122)

/-- `allowed_chars` -/
def allowedChars : CString :=
  .ofLiteral
    "0123456789-_ABCDEFGHIJKLMNOPQRSTUVWXYZabcdefghijklmnopqrstuvwxyz"

/-- `is_valid_callsign` -/
def isValidCallsign (callsign : CString) : Bool :=
  match callsign.bytes.head? with
  | none => false
  | some first =>
      isAlpha first &&
        !(callsign.length ≤ 3 || callsign.length > callsignLen) &&
        callsign.bytes.all (allowedChars.bytes.contains ·)

theorem CString.length_truncate_le (string : CString) (size : Nat) :
    (string.truncate size).length ≤ size - 1 :=
  List.length_take_le _ _

/-- The fields that `Client::SetCallsign` writes. -/
def Client.setCallsign (client : Client) (callsign : CString) : Client :=
  { client with
    callsign := callsign.truncate callsignLen
    callsign_le :=
      Nat.le_trans (callsign.length_truncate_le callsignLen) (by decide) }

/-- A valid callsign is stored as a string that is not empty. -/
theorem truncate_ne_empty_of_valid {newCall : CString}
    (valid : isValidCallsign newCall = true) :
    newCall.truncate callsignLen ≠ .empty := by
  obtain ⟨bytes, nulFree⟩ := newCall
  cases bytes with
  | nil => cases valid
  | cons first rest =>
      intro empty
      cases congrArg CString.bytes empty

/-! ## Handlers -/

section Handlers

variable (registry : Registry ω) (world : ω) (client : Client)
variable (argc : Nat) (argv : List CString)

/-- `Client::send_connect_numerics`, as its result and the lines it sends.  When
a password is set, it deletes the client. -/
def sendConnectNumerics : Bool × List CString :=
  if client.pass ≠ .empty then
    (false, [
      sendText [.ofLiteral ":", registry.servername, .ofLiteral " 464 ",
        client.callsign, .ofLiteral " :Password incorrect"],
      sendText [.ofLiteral "ERROR :Incorrect user/password"]
    ])
  else
    (true, registry.welcome world client)

/-- `IRC_STATE_NICK|IRC_STATE_USER`, tested against `conn_state`. -/
def Client.hasNickOrUser : Bool :=
  client.connState &&& (ircStateNick ||| ircStateUser) ≠ 0

/-- The flags after an accepted NICK: `IRC_STATE_NICK` is added to a client that
has neither flag. -/
def Client.markNick : Client :=
  if client.hasNickOrUser then
    client
  else
    { client with connState := client.connState ||| ircStateNick }

/-- What is sent for an accepted NICK, and whether the client is alive after
it. -/
def nickReply (changingNick : Bool) (newCall : CString) :
    Bool × List CString :=
  if changingNick then
    (true, [sendText [.ofLiteral ":", client.callsign, .ofLiteral " NICK ",
      newCall]])
  else if client.connState &&& ircStateUser ≠ 0 then
    sendConnectNumerics registry world client
  else
    (true, [])

/-- `m_nick` -/
def mNick : HandlerEnd ω :=
  let callsign := client.callsign
  if 1 ≤ argc then
    let newCall := argv[2]?
    let shown := newCall.getD (.ofLiteral "(null)")
    if !newCall.any isValidCallsign then
      .returned false [sendText [.ofLiteral ":", registry.servername,
        .ofLiteral " 432 ", callsign, .ofLiteral " ", shown,
        .ofLiteral " :Invalid callsign format"]] world client
    else
      match registry.findClient world shown with
      | none => .ended []
      | some true =>
          let target := if callsign = .empty then .ofLiteral "*" else callsign
          .returned false [sendText [.ofLiteral ":", registry.servername,
            .ofLiteral " 433 ", target, .ofLiteral " ", shown,
            .ofLiteral " :Callsign is already registered"]] world client
      | some false =>
          let changingNick := client.hasNickOrUser
          let client := client.markNick
          let (alive, sent) :=
            nickReply registry world client changingNick shown
          if alive then
            let next := client.setCallsign shown
            match registry.rename world callsign next.callsign with
            | none => .ended sent
            | some world => .returned true sent world next
          else
            .ended sent
  else
    .returned false [sendText [.ofLiteral ":", registry.servername,
      .ofLiteral " 431 ", callsign, .ofLiteral " :No callsign given"]] world
      client

@[simp] theorem Client.markNick_callsign :
    client.markNick.callsign = client.callsign := by
  rw [Client.markNick]
  split
  · rfl
  · rfl

@[simp] theorem Client.markNick_username :
    client.markNick.username = client.username := by
  rw [Client.markNick]
  split
  · rfl
  · rfl

/-- A client that had neither flag has no USER flag after a NICK. -/
theorem Client.markNick_noUser (inactive : client.hasNickOrUser = false) :
    client.markNick.connState &&& ircStateUser = 0 := by
  have noFlag : client.connState &&& (ircStateNick ||| ircStateUser) = 0 := by
    simpa [Client.hasNickOrUser] using inactive
  rw [Nat.and_or_distrib_left, Nat.or_eq_zero_iff] at noFlag
  rw [Client.markNick, inactive, if_neg (by decide), Nat.and_or_distrib_right,
    noFlag.2]
  decide

/-- A NICK never deletes the client: it sends the numerics only if USER has been
accepted and no flag was set before. -/
theorem nickReply_alive (newCall : CString) :
    (nickReply registry world client.markNick client.hasNickOrUser
      newCall).1 = true := by
  rw [nickReply]
  cases active : client.hasNickOrUser with
  | true => rw [if_pos rfl]
  | false => simp [client.markNick_noUser active]

/-- A NICK that returns was rejected without effect, or it has replaced the
callsign by one that was valid and free. -/
theorem mNick_returned {value : Bool} {sent : List CString} {nextWorld : ω}
    {next : Client}
    (returned : mNick registry world client argc argv =
      .returned value sent nextWorld next) :
    value = false ∧ nextWorld = world ∧ next = client ∨
      value = true ∧ ∃ newCall, argv[2]? = some newCall ∧
        isValidCallsign newCall = true ∧
        registry.findClient world newCall = some false ∧
        next = client.markNick.setCallsign newCall ∧
        registry.rename world client.callsign next.callsign =
          some nextWorld := by
  rw [mNick] at returned
  dsimp only at returned
  split at returned
  · split at returned
    · cases returned
      exact .inl ⟨rfl, rfl, rfl⟩
    · rename_i valid
      obtain ⟨newCall, parameter, valid⟩ : ∃ newCall,
          argv[2]? = some newCall ∧ isValidCallsign newCall = true := by
        simpa [Option.any_eq_true] using valid
      rw [parameter, Option.getD_some] at returned
      split at returned
      · cases returned
      · cases returned
        exact .inl ⟨rfl, rfl, rfl⟩
      · rename_i free
        rw [nickReply_alive, if_pos rfl] at returned
        split at returned
        · cases returned
        · rename_i after renamed
          cases returned
          exact .inr ⟨rfl, newCall, parameter, valid, free, rfl, renamed⟩
  · cases returned
    exact .inl ⟨rfl, rfl, rfl⟩

/-- A NICK for a valid and free callsign is accepted if it returns. -/
theorem mNick_accepts {newCall : CString} {value : Bool}
    {sent : List CString} {nextWorld : ω} {next : Client}
    (given : 1 ≤ argc) (parameter : argv[2]? = some newCall)
    (valid : isValidCallsign newCall = true)
    (free : registry.findClient world newCall = some false)
    (returned : mNick registry world client argc argv =
      .returned value sent nextWorld next) : value = true := by
  rw [mNick] at returned
  dsimp only at returned
  simp only [given, parameter, valid, free, Option.any_some, Option.getD_some,
    nickReply_alive, Bool.not_true, Bool.false_eq_true, if_true, if_false]
    at returned
  split at returned
  · cases returned
  · cases returned
    rfl

/-- A NICK for a valid and free callsign that is stored. -/
theorem mNick_of_renamed {newCall : CString} {nextWorld : ω}
    (given : 1 ≤ argc) (parameter : argv[2]? = some newCall)
    (valid : isValidCallsign newCall = true)
    (free : registry.findClient world newCall = some false)
    (renamed : registry.rename world client.callsign
      (newCall.truncate callsignLen) = some nextWorld) :
    mNick registry world client argc argv =
      .returned true
        (nickReply registry world client.markNick client.hasNickOrUser
          newCall).2
        nextWorld (client.markNick.setCallsign newCall) := by
  have stored : registry.rename world client.callsign
      (client.markNick.setCallsign newCall).callsign = some nextWorld := renamed
  simp [mNick, given, parameter, valid, free, nickReply_alive, stored]

/-- The reply to a client that registers again. -/
def mayNotReregister : CString :=
  sendText [.ofLiteral ":", registry.servername, .ofLiteral " 462 ",
    client.callsign, .ofLiteral " :You may not reregister"]

/-- `m_user`.  After `send_connect_numerics` has deleted the client the handler
reads through its NULL socket. -/
def mUser : HandlerEnd ω :=
  let username := (argv[2]?).getD (.ofLiteral "(null)")
  let realname := (argv[5]?).getD (.ofLiteral "(null)")
  if client.connState &&& ircStateUser ≠ 0 then
    .returned false [mayNotReregister registry client] world client
  else
    let client :=
      { client with
        connState := client.connState ||| ircStateUser
        username := username.truncate (userLen + 1)
        realname := realname.truncate (realnameLen + 1) }
    if client.connState &&& ircStateNick ≠ 0 then
      let (alive, sent) := sendConnectNumerics registry world client
      if alive then .returned true sent world client else .ended sent
    else
      .returned true [] world client

/-- `m_pass` -/
def mPass : HandlerEnd ω :=
  if client.connState &&& ircStatePass ≠ 0 then
    .returned false [mayNotReregister registry client] world client
  else
    match argv[2]? with
    | none =>
        .returned false [sendText [.ofLiteral ":", registry.servername,
          .ofLiteral " 461 ", client.callsign,
          .ofLiteral " PASS :Not enough parameters"]] world client
    | some chpass =>
        .returned false [] world
          { client with
            pass := chpass.truncate (passLen + 1)
            connState := client.connState ||| ircStatePass }

end Handlers

/-- The handlers that are not modelled.  None of them writes `conn_state`. -/
structure OtherHandlers (ω : Type) where
  /-- The handlers. -/
  run : Handler → ω → Client → (argc : Nat) → (argv : List CString) →
    HandlerEnd ω
  /-- They leave `conn_state` alone. -/
  connState_eq : ∀ handler world client argc argv value sent nextWorld next,
    run handler world client argc argv =
        .returned value sent nextWorld next →
      next.connState = client.connState

/-- The server with the handlers of registration.  `m_quit` deletes the
client. -/
def registrationServer (registry : Registry ω) (others : OtherHandlers ω) :
    Server ω where
  servername := registry.servername
  run
    | .mNick => mNick registry
    | .mUser => fun world client _ argv => mUser registry world client argv
    | .mPass => fun world client _ argv => mPass registry world client argv
    | .mQuit => fun _ _ _ _ => .ended []
    | handler => others.run handler

end Hamchat
