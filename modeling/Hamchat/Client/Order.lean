import Hamchat.Client.Session

/-!
# The order of NICK and USER

A client may send NICK and USER in either order.  NICK first ends with both
flags set and the welcome sent.  USER first ends with the flag of USER alone,
because `m_nick` takes the NICK that follows for a change of callsign.
-/

namespace Hamchat

open Foundation

/-! ## Commands before the login -/

/-- What `Client` remembers of the last PING. -/
structure PingState where
  /-- `time_t last_ping` -/
  lastPing : Int
  /-- `bool got_pong` -/
  gotPong : Bool
  deriving DecidableEq

/-- `m_ping` -/
def mPing (registry : Registry ω) (argc : Nat) (argv : List CString) :
    Bool × List CString :=
  if 1 ≤ argc then
    (true, [sendText [.ofLiteral ":", registry.servername,
      .ofLiteral " PONG :", argv[2]?.getD (.ofLiteral "(null)")]])
  else
    (false, [])

/-- `m_pong`, at the time `now`. -/
def mPong (now : Int) (ping : PingState) : Bool × PingState :=
  if ping.lastPing ≠ 0 then
    (true, ⟨now, true⟩)
  else
    (false, ping)

/-- `m_cap` -/
def mCap (registry : Registry ω) (client : Client) : Bool × List CString :=
  (true, [sendText [.ofLiteral ":", registry.servername, .ofLiteral " 421 ",
    if client.callsign ≠ .empty then client.callsign else .ofLiteral "*",
    .ofLiteral " CAP :Unknown command"]])

/-- A command that a client may send between NICK and USER. -/
inductive Keepalive
  /-- PING -/
  | ping (token : CString)
  /-- PONG -/
  | pong (token : CString)
  /-- CAP -/
  | cap (parameters : List CString)
  deriving DecidableEq

/-- The parameters of USER. -/
structure UserParameters where
  /-- The first, which is stored. -/
  username : CString
  /-- The second. -/
  mode : CString
  /-- The third. -/
  unused : CString
  /-- The last, which is stored. -/
  realname : CString
  deriving DecidableEq

/-- What `Client::Parse` hands to `m_nick` for a NICK. -/
def nickHanded (client : Client) (newCall : CString) : Handed :=
  ⟨.mNick, 1, [client.callsign, .ofLiteral "NICK", newCall]⟩

/-- What `Client::Parse` hands to `m_user` for a USER. -/
def userHanded (client : Client) (parameters : UserParameters) : Handed :=
  ⟨.mUser, 4, [client.callsign, .ofLiteral "USER", parameters.username,
    parameters.mode, parameters.unused, parameters.realname]⟩

example :
    freshClient.command (ParseCall.ofLiteral "USER ab 0 * :A B\r\n").sock =
      some (userHanded freshClient ⟨.ofLiteral "ab", .ofLiteral "0",
        .ofLiteral "*", .ofLiteral "A B"⟩) := by
  decide +kernel

/-- A command of a login. -/
inductive LoginCommand
  /-- NICK -/
  | nick (newCall : CString)
  /-- USER -/
  | user (parameters : UserParameters)
  /-- PING, PONG or CAP -/
  | keepalive (command : Keepalive)
  deriving DecidableEq

/-- A client that logs in, and the server around it. -/
structure Login (ω : Type) where
  /-- The server. -/
  world : ω
  /-- The client. -/
  client : Client
  /-- Its last PING. -/
  ping : PingState
  /-- The lines sent to it. -/
  sent : List CString
  /-- What `GetCallsign()` returned at each call of `send_connect_numerics`. -/
  welcomed : List CString

namespace Login

variable (registry : Registry ω) (now : Int)

/-- A NICK or a USER that returns with the client alive. -/
def handle (login : Login ω) (handed : Handed) (ended : HandlerEnd ω) :
    Option (Login ω) :=
  match ended with
  | .returned _ sent world client =>
      some {
        world := world
        client := client
        ping := login.ping
        sent := login.sent ++ sent
        welcomed := login.welcomed ++
          ((handed.numerics registry login.world login.client).map
            Client.callsign).toList
      }
  | .ended _ => none

/-- PING, PONG or CAP. -/
def keep (login : Login ω) : Keepalive → Login ω
  | .ping token =>
      { login with
        sent := login.sent ++
          (mPing registry 1
            [login.client.callsign, .ofLiteral "PING", token]).2 }
  | .pong _ => { login with ping := (mPong now login.ping).2 }
  | .cap _ =>
      { login with sent := login.sent ++ (mCap registry login.client).2 }

/-- One command. -/
def step (login : Login ω) : LoginCommand → Option (Login ω)
  | .nick newCall =>
      let handed := nickHanded login.client newCall
      login.handle registry handed
        (mNick registry login.world login.client handed.argc handed.argv)
  | .user parameters =>
      let handed := userHanded login.client parameters
      login.handle registry handed
        (mUser registry login.world login.client handed.argv)
  | .keepalive command => some (login.keep registry now command)

/-- NICK, some other commands, and USER. -/
def nickFirst (login : Login ω) (newCall : CString)
    (parameters : UserParameters) (between : List Keepalive) :
    Option (Login ω) :=
  runFrom (step registry now) login
    (.nick newCall :: between.map .keepalive ++ [.user parameters])

/-- USER, some other commands, and NICK. -/
def userFirst (login : Login ω) (newCall : CString)
    (parameters : UserParameters) (between : List Keepalive) :
    Option (Login ω) :=
  runFrom (step registry now) login
    (.user parameters :: between.map .keepalive ++ [.nick newCall])

/-- A client is logged in with a callsign: both flags are set, and the welcome
has been sent once, under that callsign. -/
structure LoggedIn (login : Login ω) (callsign : CString) : Prop where
  /-- NICK has its flag. -/
  nick : login.client.connState &&& ircStateNick ≠ 0
  /-- USER has its flag. -/
  user : login.client.connState &&& ircStateUser ≠ 0
  /-- One welcome. -/
  welcomed : login.welcomed = [callsign]

/-- Both orders end, log the client in, and leave the same client. -/
def OrderIrrelevant (login : Login ω) (newCall : CString)
    (parameters : UserParameters) (between later : List Keepalive) : Prop :=
  ∃ first second,
    login.nickFirst registry now newCall parameters between = some first ∧
    login.userFirst registry now newCall parameters later = some second ∧
    first.LoggedIn newCall ∧ second.LoggedIn newCall ∧
    first.client.connState = second.client.connState ∧
    first.client.callsign = second.client.callsign ∧
    first.client.username = second.client.username ∧
    first.client.realname = second.client.realname

/-- A new connection, before its first command. -/
def fresh (world : ω) (client : Client) (ping : PingState) : Login ω :=
  ⟨world, client, ping, [], []⟩

/-! ## The two orders -/

variable {registry now} {login next : Login ω}

@[simp] theorem keep_world (command : Keepalive) :
    (login.keep registry now command).world = login.world := by
  cases command <;> rfl

@[simp] theorem keep_client (command : Keepalive) :
    (login.keep registry now command).client = login.client := by
  cases command <;> rfl

@[simp] theorem keep_welcomed (command : Keepalive) :
    (login.keep registry now command).welcomed = login.welcomed := by
  cases command <;> rfl

/-- PING, PONG and CAP leave the login alone. -/
theorem runFrom_keepalive (between : List Keepalive) :
    ∃ kept, runFrom (step registry now) login (between.map .keepalive) =
        some kept ∧ kept.world = login.world ∧ kept.client = login.client ∧
      kept.welcomed = login.welcomed := by
  induction between generalizing login with
  | nil => exact ⟨login, rfl, rfl, rfl, rfl⟩
  | cons command rest inductionHypothesis =>
      obtain ⟨kept, ran, world, client, welcomed⟩ :=
        @inductionHypothesis (login.keep registry now command)
      rw [keep_world] at world
      rw [keep_client] at client
      rw [keep_welcomed] at welcomed
      exact ⟨kept, ran, world, client, welcomed⟩

/-- A run with other commands between its first and its last. -/
theorem runFrom_between {first last : LoginCommand}
    {between : List Keepalive} :
    runFrom (step registry now) login
        (first :: between.map .keepalive ++ [last]) = some next ↔
      ∃ started kept, login.step registry now first = some started ∧
        runFrom (step registry now) started (between.map .keepalive) =
          some kept ∧ kept.step registry now last = some next := by
  rw [runFrom_concat_eq_some]
  constructor
  · rintro ⟨kept, before, stepped⟩
    obtain ⟨started, firstStep, before⟩ :=
      (runFrom_cons_eq_some _ login).mp before
    exact ⟨started, kept, firstStep, before, stepped⟩
  · rintro ⟨started, kept, firstStep, before, stepped⟩
    exact ⟨kept,
      (runFrom_cons_eq_some _ login).mpr ⟨started, firstStep, before⟩, stepped⟩

/-- NICK sends no numerics. -/
theorem numerics_nick {client : Client} {world : ω} {newCall : CString} :
    (nickHanded client newCall).numerics registry world client = none :=
  nickNumerics_eq_none registry world client _ _

/-- USER sends no numerics before NICK. -/
theorem numerics_user_first {client : Client} {world : ω}
    {parameters : UserParameters} (connected : client.connState = ircStateNone) :
    (userHanded client parameters).numerics registry world client = none := by
  rw [Option.eq_none_iff_forall_ne_some]
  intro before numerics
  obtain ⟨-, -, nick, -⟩ := Handed.numerics_eq_some.mp numerics
  rw [connected] at nick
  exact nick rfl

/-- A handler that goes on has returned. -/
theorem handle_eq_some {handed : Handed} {ended : HandlerEnd ω}
    (handled : login.handle registry handed ended = some next) :
    ∃ value sent, ended = .returned value sent next.world next.client ∧
      next.welcomed = login.welcomed ++
        ((handed.numerics registry login.world login.client).map
          Client.callsign).toList := by
  cases ended with
  | returned value sent world client =>
      obtain rfl := Option.some.inj handled
      exact ⟨value, sent, rfl, rfl⟩
  | ended sent => cases handled

/-- The first USER sets its flag and sends no numerics, since the flag of NICK
is clear. -/
theorem step_user_first {parameters : UserParameters}
    (connected : login.client.connState = ircStateNone)
    (user : login.step registry now (.user parameters) = some next) :
    next.client.connState = ircStateUser ∧ next.welcomed = login.welcomed := by
  obtain ⟨value, sent, returned, welcomed⟩ := handle_eq_some user
  rw [numerics_user_first connected] at welcomed
  rcases mUser_returned returned with ⟨-, flag, -⟩ | ⟨-, -, marked⟩
  · rw [connected] at flag
    exact absurd rfl flag
  · refine ⟨?_, by simpa using welcomed⟩
    rw [marked, Client.markUser, connected]
    rfl

/-- NICK after USER sees the flag of USER, and sets none of its own. -/
theorem step_nick_second {newCall : CString}
    (flag : login.client.connState = ircStateUser)
    (nick : login.step registry now (.nick newCall) = some next) :
    next.client.connState = ircStateUser ∧ next.welcomed = login.welcomed := by
  obtain ⟨value, sent, returned, welcomed⟩ := handle_eq_some nick
  rw [numerics_nick] at welcomed
  refine ⟨?_, by simpa using welcomed⟩
  rcases mNick_returned _ _ _ _ _ returned with
    ⟨-, -, same⟩ | ⟨-, stored, -, -, -, same, -⟩
  · rw [same, flag]
  · have active : login.client.hasNickOrUser = true := by
      rw [Client.hasNickOrUser, flag]
      rfl
    rw [same]
    change login.client.markNick.connState = ircStateUser
    rw [Client.markNick, if_pos active, flag]

/-- USER first leaves the client with the flag of USER alone, and without a
welcome. -/
theorem userFirst_flags {newCall : CString} {parameters : UserParameters}
    {between : List Keepalive}
    (connected : login.client.connState = ircStateNone)
    (completed : login.userFirst registry now newCall parameters between =
      some next) :
    next.client.connState = ircStateUser ∧ next.welcomed = login.welcomed := by
  obtain ⟨started, kept, user, between, nick⟩ := runFrom_between.mp completed
  obtain ⟨kept', ran, world, client, welcomed⟩ :=
    @runFrom_keepalive _ registry now started _
  rw [between, Option.some.injEq] at ran
  subst ran
  obtain ⟨flag, unwelcomed⟩ := step_user_first connected user
  rw [← client] at flag
  obtain ⟨flag, stillUnwelcomed⟩ := step_nick_second flag nick
  exact ⟨flag, stillUnwelcomed.trans (welcomed.trans unwelcomed)⟩

/-- The first NICK is accepted, and sends no numerics. -/
theorem step_nick_first {newCall : CString} {world : ω}
    (valid : isValidCallsign newCall = true)
    (free : registry.findClient login.world newCall = some false)
    (renamed : registry.rename login.world login.client.callsign
      (newCall.truncate callsignLen) = some world) :
    ∃ started, login.step registry now (.nick newCall) = some started ∧
      started.client = login.client.markNick.setCallsign newCall ∧
      started.welcomed = login.welcomed := by
  have accepted := mNick_of_renamed registry login.world login.client
    (nickHanded login.client newCall).argc
    (nickHanded login.client newCall).argv (Nat.le_refl 1) rfl valid free
    renamed
  rw [step, accepted, handle, numerics_nick]
  exact ⟨_, rfl, rfl, List.append_nil _⟩

/-- USER after NICK finds the flag of NICK, and sends the welcome. -/
theorem step_user_second (parameters : UserParameters)
    (flag : login.client.connState = ircStateNick)
    (noPassword : login.client.pass = .empty) :
    ∃ final, login.step registry now (.user parameters) = some final ∧
      final.client =
        login.client.markUser (userHanded login.client parameters).argv ∧
      final.welcomed = login.welcomed ++ [login.client.callsign] := by
  have numerics : (userHanded login.client parameters).numerics registry
      login.world login.client =
        some (login.client.markUser
          (userHanded login.client parameters).argv) :=
    Handed.numerics_eq_some.mpr ⟨rfl, by rw [flag]; rfl,
      by rw [flag]; decide, rfl⟩
  have welcomes : (sendConnectNumerics registry login.world
      (login.client.markUser (userHanded login.client parameters).argv)).1 =
        true := by
    rw [sendConnectNumerics, if_neg]
    exact not_not_intro noPassword
  have returned := mUser_eq_numerics registry login.world login.client
    (userHanded login.client parameters).argv
  rw [show userNumerics login.client
    (userHanded login.client parameters).argv = _ from numerics] at returned
  dsimp only at returned
  rw [if_pos welcomes] at returned
  rw [step, returned, handle, numerics]
  exact ⟨_, rfl, rfl, rfl⟩

/-- NICK first logs the client in, under the callsign that is stored. -/
theorem nickFirst_completes {newCall : CString} {parameters : UserParameters}
    {between : List Keepalive} {world : ω}
    (connected : login.client.connState = ircStateNone)
    (noPassword : login.client.pass = .empty)
    (valid : isValidCallsign newCall = true)
    (free : registry.findClient login.world newCall = some false)
    (renamed : registry.rename login.world login.client.callsign
      (newCall.truncate callsignLen) = some world) :
    ∃ final, login.nickFirst registry now newCall parameters between =
        some final ∧
      final.client.connState = ircStateAlive ∧
      final.client.callsign = newCall.truncate callsignLen ∧
      final.client.username = parameters.username.truncate (userLen + 1) ∧
      final.client.realname = parameters.realname.truncate (realnameLen + 1) ∧
      final.welcomed = login.welcomed ++ [newCall.truncate callsignLen] := by
  have marked : login.client.markNick =
      { login.client with connState := ircStateNick } := by
    have inactive : login.client.hasNickOrUser = false := by
      rw [Client.hasNickOrUser, connected]
      rfl
    rw [Client.markNick, inactive, if_neg (by decide), connected]
    rfl
  obtain ⟨started, nick, startedClient, startedWelcomed⟩ :=
    @step_nick_first _ registry now login _ _ valid free renamed
  obtain ⟨kept, ran, world, client, welcomed⟩ :=
    @runFrom_keepalive _ registry now started between
  rw [startedClient, marked] at client
  have flag : kept.client.connState = ircStateNick := by
    rw [client]
    rfl
  have keptPass : kept.client.pass = .empty := by
    rw [client]
    exact noPassword
  have callsign : kept.client.callsign = newCall.truncate callsignLen := by
    rw [client]
    rfl
  obtain ⟨final, user, finalClient, finalWelcomed⟩ :=
    @step_user_second _ registry now kept parameters flag keptPass
  refine ⟨final, runFrom_between.mpr ⟨started, kept, nick, ran, user⟩, ?_⟩
  rw [finalClient, finalWelcomed, welcomed, startedWelcomed, callsign]
  refine ⟨?_, callsign, rfl, rfl, rfl⟩
  rw [Client.markUser, flag]
  rfl

/-- The order matters to every new client, whatever it sends. -/
theorem not_orderIrrelevant (registry : Registry ω) (now : Int) (world : ω)
    {client : Client} (connected : client.connState = ircStateNone)
    (ping : PingState) (newCall : CString) (parameters : UserParameters)
    (between later : List Keepalive) :
    ¬(fresh world client ping).OrderIrrelevant registry now newCall parameters
      between later := by
  rintro ⟨first, second, -, userFirst, -, loggedIn, -⟩
  have flag := (userFirst_flags connected userFirst).1
  have nick := loggedIn.nick
  rw [flag] at nick
  exact nick (by decide)

theorem not_orderIrrelevant_fresh :
    ¬(fresh () freshClient ⟨0, false⟩).OrderIrrelevant freeRegistry 1
      (.ofLiteral "W1AW")
      ⟨.ofLiteral "a", .ofLiteral "b", .ofLiteral "c", .ofLiteral "d"⟩
      [] [.ping (.ofLiteral "x")] :=
  not_orderIrrelevant freeRegistry 1 () rfl ⟨0, false⟩ (.ofLiteral "W1AW")
    ⟨.ofLiteral "a", .ofLiteral "b", .ofLiteral "c", .ofLiteral "d"⟩
    [] [.ping (.ofLiteral "x")]

/-- USER before NICK does not welcome a new client whose callsign is valid and
free. -/
theorem user_first_not_welcomed :
    isValidCallsign (.ofLiteral "W1AW") = true ∧
      freeRegistry.findClient () (.ofLiteral "W1AW") = some false ∧
      freshClient.connState = ircStateNone ∧ freshClient.pass = .empty ∧
      ¬(fresh () freshClient ⟨0, false⟩).OrderIrrelevant freeRegistry 1
        (.ofLiteral "W1AW")
        ⟨.ofLiteral "a", .ofLiteral "b", .ofLiteral "c", .ofLiteral "d"⟩
        [] [] := by
  refine ⟨by decide, rfl, rfl, rfl, ?_⟩
  rintro ⟨first, second, -, userFirst, -, loggedIn, -⟩
  have notWelcomed : ((fresh () freshClient ⟨0, false⟩).userFirst freeRegistry 1
      (.ofLiteral "W1AW")
      ⟨.ofLiteral "a", .ofLiteral "b", .ofLiteral "c", .ofLiteral "d"⟩
      []).map welcomed = some [] := by
    decide +kernel
  rw [userFirst, Option.map_some, loggedIn.welcomed] at notWelcomed
  cases notWelcomed

end Login

end Hamchat
