import Hamchat.Foundation.PartialRun
import Hamchat.Network.Handlers
import Hamchat.Parser.Command

/-!
# Runs of a server

Connections, reads and calls of `Client::Parse`, in any order.  `Client::Parse`
calls the handlers through a `Server` whose state is the whole network.
-/

namespace Hamchat

open Foundation

/-! ## The handlers under the parser -/

/-- The texts that a handler sends. -/
def Outcome.texts (outcome : Outcome δ) : List CString :=
  outcome.sent.map (·.message.text)

/-- What `Client::Parse` sees of a handler.  It goes on only if the handler has
returned and the client is alive. -/
def Outcome.handlerEnd (outcome : Outcome δ) (id : Nat) :
    HandlerEnd (Network δ) :=
  match outcome.ending with
  | .returned value network =>
      if network.alive id then
        .returned value outcome.texts network (network.clients id).client
      else
        .ended outcome.texts
  | .undefined => .ended outcome.texts

theorem Outcome.handlerEnd_returned {outcome : Outcome δ} {id : Nat}
    {value : Bool} {sent : List CString} {network : Network δ}
    {client : Client}
    (returned : outcome.handlerEnd id = .returned value sent network client) :
    outcome.ending = .returned value network ∧ network.alive id = true ∧
      client = (network.clients id).client := by
  rw [handlerEnd] at returned
  split at returned
  · rename_i ended
    split at returned
    · rename_i alive
      cases returned
      exact ⟨ended, alive, rfl⟩
    · cases returned
  · cases returned

/-- What a server is made of. -/
structure NetworkServer (δ : Type) where
  /-- The calls on tables. -/
  directory : Directory δ
  /-- The texts. -/
  text : NetworkText

namespace NetworkServer

variable (server : NetworkServer δ)

/-- The call of a handler for a command of a client. -/
def call (surroundings : Surroundings δ) (network : Network δ) (id : Nat)
    (handed : Handed) : HandlerCall δ where
  directory := server.directory
  text := server.text
  surroundings := surroundings
  network := network
  self := id
  argc := handed.argc
  argv := handed.argv

/-- The handlers, as `Client::Parse` calls them for a client. -/
def handlers (surroundings : Surroundings δ) (id : Nat) :
    Server (Network δ) where
  servername := server.text.servername
  run handler network client argc argv :=
    let network :=
      network.setClient id { network.clients id with client := client }
    ((server.call surroundings network id ⟨handler, argc, argv⟩).handle
      handler).handlerEnd id

end NetworkServer

/-! ## Steps -/

/-- Something that happens to a server. -/
inductive NetworkEvent (δ : Type)
  /-- `new Client(CLI_TYPE_LOCAL, fd)` at an address, with this memory. -/
  | connect (id : Nat) (fd : Int) (memory : ClientObject) (now : Int)
  /-- `sock_read_cb` for a descriptor. -/
  | receive (fd : Int) (recv : Recv) (freed : ClientObject)
  /-- `Client::Parse` of a client. -/
  | parse (id : Nat) (surroundings : Surroundings δ)

/-- What one step does. -/
structure NetworkStep (δ : Type) where
  /-- The command that is handed to a handler. -/
  handed : Option Handed
  /-- The calls of `Client::Send`. -/
  sent : List Delivery
  /-- The server afterwards, if it goes on. -/
  next : Option (Network δ)

/-- The fields that `Client::Client` assigns. -/
def ClientObject.construct (memory : ClientObject) (fd now : Int) :
    ClientObject :=
  { memory with
    client := { memory.client with connState := ircStateNone }
    fd := fd
    connected := now
    hostname := .ofLiteral "irc.local" }

namespace Network

variable (network : Network δ)

/-- The entry of a client in `Clients_by_fd`.  Descriptor 0 gets none. -/
def enterFd (directory : Directory δ) (id : Nat) (fd now : Int) : Option δ :=
  let byFd := directory.ready network.clientsByFd
  if fd = 0 then
    some byFd
  else
    directory.add byFd ((formatInt fd).truncate 11) id now

/-- A server with one more client. -/
def withClient (directory : Directory δ) (id : Nat) (object : ClientObject)
    (byFd : δ) : Network δ :=
  { network.setClient id object with
    alive := Function.update network.alive id true
    clientsByFd := byFd
    clientsByCallsign := directory.ready network.clientsByCallsign
    currClients := network.currClients + 1
    maxClients := max network.maxClients (network.currClients + 1) }

/-- `Client::Client`, for a client at an address where there is none. -/
def connect (directory : Directory δ) (id : Nat) (fd : Int)
    (memory : ClientObject) (now : Int) : Option (Network δ) :=
  if network.alive id then
    none
  else do
    let byFd ← network.enterFd directory id fd now
    some (network.withClient directory id (memory.construct fd now) byFd)

/-- What the constructor of a client sends. -/
def greeting (id : Nat) : List Delivery :=
  [⟨id, none, [.ofLiteral
      "NOTICE AUTH :*** Processing your connection, please wait..."]⟩,
    ⟨id, none, [.ofLiteral
      "NOTICE AUTH :*** If not already configured, please send your password using /PASS to continue"]⟩]

/-- `sock_read_cb`.  A descriptor without a client is closed; a client that has
been deleted has no socket any more. -/
def receive (directory : Directory δ) (fd : Int) (recv : Recv)
    (freed : ClientObject) : Option (Network δ) := do
  match ← directory.find network.clientsByFd ((formatInt fd).truncate 15) with
  | none => some network
  | some id =>
      if network.alive id then
        match ← sockReadCb (network.clients id).sock recv with
        | .returned sock =>
            some (network.setClient id { network.clients id with sock := sock })
        | .deleted => network.delete directory freed id
        | .aborted => none
      else
        none

/-- `Client::Parse`, of a client that is alive. -/
def parse (server : NetworkServer δ) (id : Nat)
    (surroundings : Surroundings δ) : Option (Parsed (Network δ)) :=
  if network.alive id then
    (network.clients id).client.parse (server.handlers surroundings id) network
      (network.clients id).sock
  else
    none

/-- The server after a call of `Client::Parse`. -/
def afterParse (id : Nat) : ParseEnd (Network δ) → Option (Network δ)
  | .returned _ network client sock =>
      some (network.setClient id
        { network.clients id with client := client, sock := sock })
  | .ended => none

/-- What a call of `Client::Parse` sends: what the handler sends, or the replies
in its place. -/
def parseSent (server : NetworkServer δ) (id : Nat)
    (surroundings : Surroundings δ) (parsed : Parsed (Network δ)) :
    List Delivery :=
  match parsed.handed with
  | some handed =>
      ((server.call surroundings network id handed).handle handed.handler).sent
  | none => parsed.sent.map fun text => ⟨id, none, [text]⟩

/-- One step.  A run goes on after a handler that has read through NULL. -/
def step (server : NetworkServer δ) : NetworkEvent δ → NetworkStep δ
  | .connect id fd memory now =>
      let next := network.connect server.directory id fd memory now
      ⟨none, if next.isSome then greeting id else [], next⟩
  | .receive fd recv freed =>
      ⟨none, [], network.receive server.directory fd recv freed⟩
  | .parse id surroundings =>
      match network.parse server id surroundings with
      | none => ⟨none, [], none⟩
      | some parsed =>
          { handed := parsed.handed
            sent := network.parseSent server id surroundings parsed
            next := afterParse id parsed.result }

/-- The server after one step. -/
def advance (server : NetworkServer δ) (network : Network δ)
    (event : NetworkEvent δ) : Option (Network δ) :=
  (network.step server event).next

variable {network} {next : Network δ} {server : NetworkServer δ} {id : Nat}

@[simp] theorem withClient_clients_self (directory : Directory δ)
    (object : ClientObject) (byFd : δ) :
    (network.withClient directory id object byFd).clients id = object :=
  setClient_clients_self object

/-! ## Inversion -/

/-- A command that is handed over sends what its handler sends. -/
theorem parseSent_of_handed {surroundings : Surroundings δ}
    {parsed : Parsed (Network δ)} {handed : Handed}
    (hands : parsed.handed = some handed) :
    network.parseSent server id surroundings parsed =
      ((server.call surroundings network id handed).handle
        handed.handler).sent := by
  rw [parseSent, hands]

/-- A connection that is accepted. -/
theorem connect_eq_some {directory : Directory δ} {fd : Int}
    {memory : ClientObject} {now : Int}
    (connected : network.connect directory id fd memory now = some next) :
    network.alive id = false ∧ ∃ byFd,
      network.enterFd directory id fd now = some byFd ∧
        next = network.withClient directory id (memory.construct fd now)
          byFd := by
  rw [connect, Option.ite_none_left_eq_some] at connected
  obtain ⟨free, connected⟩ := connected
  obtain ⟨byFd, entered, connected⟩ := Option.bind_eq_some_iff.mp connected
  exact ⟨by simpa using free, byFd, entered, (Option.some.inj connected).symm⟩

/-- A read that the server survives: it finds no client, it stores what has been
received, or it deletes the client after a hangup. -/
theorem receive_eq_some {directory : Directory δ} {fd : Int} {recv : Recv}
    {freed : ClientObject}
    (received : network.receive directory fd recv freed = some next) :
    next = network ∨ ∃ id, network.alive id = true ∧
      ((∃ sock, sockReadCb (network.clients id).sock recv =
            some (.returned sock) ∧
          next = network.setClient id
            { network.clients id with sock := sock }) ∨
        network.delete directory freed id = some next) := by
  rw [receive, Option.bind_eq_bind, Option.bind_eq_some_iff] at received
  obtain ⟨found, -, received⟩ := received
  cases found with
  | none => exact .inl (Option.some.inj received).symm
  | some id =>
      rw [Option.ite_none_right_eq_some] at received
      obtain ⟨alive, received⟩ := received
      rw [Option.bind_eq_bind, Option.bind_eq_some_iff] at received
      obtain ⟨ending, read, received⟩ := received
      refine .inr ⟨id, alive, ?_⟩
      cases ending with
      | returned sock =>
          exact .inl ⟨sock, read, (Option.some.inj received).symm⟩
      | deleted => exact .inr received
      | aborted => cases received

/-- A call of `Client::Parse` that the server survives has handed no command to a
handler, or the handler has returned with the client alive. -/
theorem parse_eq_some {surroundings : Surroundings δ}
    {parsed : Parsed (Network δ)}
    (returned : network.parse server id surroundings = some parsed) :
    network.alive id = true ∧
      parsed.handed =
        (network.clients id).client.command (network.clients id).sock ∧
      ∀ next, afterParse id parsed.result = some next → ∃ sock,
        parsed.handed = none ∧
            next = network.setClient id
              { network.clients id with sock := sock } ∨
          ∃ handed value after, parsed.handed = some handed ∧
            ((server.call surroundings network id handed).handle
              handed.handler).ending = .returned value after ∧
            after.alive id = true ∧
            next = after.setClient id
              { after.clients id with sock := sock } := by
  rw [parse, Option.ite_none_right_eq_some] at returned
  obtain ⟨alive, returned⟩ := returned
  refine ⟨alive, Client.parse_handed returned, fun next survives => ?_⟩
  cases result : parsed.result with
  | ended =>
      rw [result] at survives
      cases survives
  | returned value after client sock =>
      rw [result] at survives
      obtain rfl := Option.some.inj survives
      refine ⟨sock, ?_⟩
      rcases Client.parse_world returned result with
        ⟨notHanded, -, rfl, rfl⟩ | ⟨handed, rv, sent, handedEq, -, ran⟩
      · exact .inl ⟨notHanded, rfl⟩
      · rw [NetworkServer.handlers] at ran
        dsimp only at ran
        rw [show { network.clients id with
            client := (network.clients id).client } = network.clients id
          from rfl, setClient_self] at ran
        obtain ⟨ending, afterAlive, rfl⟩ := Outcome.handlerEnd_returned ran
        exact .inr ⟨handed, rv, after, handedEq, ending, afterAlive, rfl⟩

/-- A step with a call of `Client::Parse` that the server survives. -/
theorem advance_parse_eq_some {surroundings : Surroundings δ}
    (advanced : network.advance server (.parse id surroundings) = some next) :
    ∃ sock,
      (network.clients id).client.command (network.clients id).sock = none ∧
          next = network.setClient id
            { network.clients id with sock := sock } ∨
        ∃ handed value after,
          (network.clients id).client.command (network.clients id).sock =
            some handed ∧
          ((server.call surroundings network id handed).handle
            handed.handler).ending = .returned value after ∧
          after.alive id = true ∧
          next = after.setClient id { after.clients id with sock := sock } := by
  rw [advance, step] at advanced
  cases returned : network.parse server id surroundings with
  | none =>
      rw [returned] at advanced
      cases advanced
  | some parsed =>
      rw [returned] at advanced
      obtain ⟨-, handedEq, survives⟩ := parse_eq_some returned
      rw [← handedEq]
      exact survives next advanced

section Command

variable {surroundings : Surroundings δ} {handed : Handed}

/-- The command in the buffer of a client goes to its handler. -/
theorem step_of_command (alive : network.alive id = true)
    (hands : (network.clients id).client.command (network.clients id).sock =
      some handed) :
    (network.step server (.parse id surroundings)).sent =
      ((server.call surroundings network id handed).handle
        handed.handler).sent := by
  obtain ⟨parsed, returned⟩ := Client.parse_of_command
    (server.handlers surroundings id) network hands
  have parsedEq : network.parse server id surroundings = some parsed := by
    rw [parse, if_pos alive, returned]
  rw [step, parsedEq]
  exact parseSent_of_handed ((Client.parse_handed returned).trans hands)

/-- The server goes on after a command whose handler returns with the client
alive. -/
theorem advance_of_returned (alive : network.alive id = true)
    (hands : (network.clients id).client.command (network.clients id).sock =
      some handed) {value : Bool} {after : Network δ}
    (ran : ((server.call surroundings network id handed).handle
      handed.handler).ending = .returned value after)
    (survives : after.alive id = true) :
    ∃ sock, network.advance server (.parse id surroundings) =
      some (after.setClient id { after.clients id with sock := sock }) := by
  have called : (server.handlers surroundings id).run handed.handler network
      (network.clients id).client handed.argc handed.argv =
        .returned value ((server.call surroundings network id handed).handle
          handed.handler).texts after (after.clients id).client := by
    rw [NetworkServer.handlers]
    dsimp only
    rw [show { network.clients id with
        client := (network.clients id).client } = network.clients id from rfl,
      setClient_self, Outcome.handlerEnd, ran]
    exact if_pos survives
  obtain ⟨parsed, sock, returned, result⟩ :=
    Client.parse_of_returned hands called
  have parsedEq : network.parse server id surroundings = some parsed := by
    rw [parse, if_pos alive, returned]
  refine ⟨sock, ?_⟩
  rw [advance, step, parsedEq]
  dsimp only
  rw [result, afterParse]

/-- If the server goes on after a command, then its handler has returned with the
client alive. -/
theorem advance_command_eq_some
    (hands : (network.clients id).client.command (network.clients id).sock =
      some handed)
    (advanced : network.advance server (.parse id surroundings) = some next) :
    ∃ value after sock,
      ((server.call surroundings network id handed).handle
        handed.handler).ending = .returned value after ∧
      after.alive id = true ∧
      next = after.setClient id { after.clients id with sock := sock } := by
  obtain ⟨sock, ⟨nothing, -⟩ | ⟨other, value, after, same, returned⟩⟩ :=
    advance_parse_eq_some advanced
  · rw [hands] at nothing
    cases nothing
  · obtain rfl := Option.some.inj (hands.symm.trans same)
    exact ⟨value, after, sock, returned⟩

end Command

end Network

/-! ## A server for concrete runs -/

/-- A server whose tables keep what is stored in them. -/
def listServer : NetworkServer (List (CString × Nat)) where
  directory := listDirectory
  text := ⟨.ofLiteral "hamchat.local", .empty, fun _ _ _ _ => []⟩

/-- What the commands of a concrete run meet, with some bytes behind every away
message. -/
def quietSurroundings (behindAway : CString) :
    Surroundings (List (CString × Nat)) where
  now := 0
  behindAway := behindAway
  nullCallsign := .empty
  record := ⟨none, 0, false⟩
  channel := .zeroed listDirectory
  freed := .zeroed

/-- A client sends some bytes, and `Client::Parse` is called for it. -/
def typed (id : Nat) (fd : Int) (bytes : CString)
    (surroundings : Surroundings δ) : List (NetworkEvent δ) :=
  [.receive fd (.received bytes.bytes) surroundings.freed,
    .parse id surroundings]

end Hamchat
