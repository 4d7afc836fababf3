import Hamchat.Client.Handlers
import Hamchat.Dict.Defs
import Hamchat.Numbers

/-!
# Clients and channels of a server

The lookup tables of `src/irc_client.cpp`, with the constructor and the
destructor of `Client`, `find_client` and the NICK command, and the membership
operations of `src/irc_channel.cpp`.  Objects of class `Client` are numbered in
the order of their construction, and objects of class `Channel` by their
address.
-/

namespace Hamchat

open Foundation

/-! ## The lookup tables -/

/-- A changing call through a dictionary pointer, which does nothing if the
pointer is NULL. -/
def callDict (table : Option (Dict α)) (op : DictOp α) :
    Option (Option (Dict α)) :=
  match table with
  | none => some none
  | some d => (op.apply resizeDepth d).map some

/-- A function of two arguments, changed at one pair. -/
def updateAt [DecidableEq α] [DecidableEq β] (f : α → β → γ) (a : α) (b : β)
    (value : γ) : α → β → γ :=
  Function.update f a (Function.update (f a) b value)

/-- An object of class `Client`, with the descriptor of its socket. -/
structure LocalClient where
  /-- `sock->fd` -/
  fd : Int
  /-- The fields that parsing and registration use. -/
  client : Client

/-- `irc_channel_member`, without the fields that `Channel::AddUser` leaves
unset. -/
structure Member where
  /-- `time_t join_time` -/
  joinTime : Int

/-- The clients and channels of a server. -/
structure ServerState where
  /-- How many clients have been constructed. -/
  created : Nat
  /-- The clients that have not been deleted. -/
  live : Nat → Option LocalClient
  /-- `dict *Clients_by_fd` -/
  clientsByFd : Option (Dict Nat)
  /-- `dict *Clients_by_callsign` -/
  clientsByCallsign : Option (Dict Nat)
  /-- `dict *members` of each channel, taken as a finite map. -/
  members : (channel : Nat) → (callsign : CString) → Option Member

/-- The server before the first connection. -/
def ServerState.start : ServerState where
  created := 0
  live _ := none
  clientsByFd := none
  clientsByCallsign := none
  members _ _ := none

namespace ServerState

variable (state : ServerState)

/-- `find_client(int)` -/
def findClientByFd (fd : Int) : Option (Option (Pointer Nat)) :=
  dictGetBlob state.clientsByFd ((formatInt fd).truncate 15) none

/-- `find_client(const char *)` -/
def findClientByCallsign (callsign : CString) :
    Option (Option (Pointer Nat)) :=
  dictGetBlob state.clientsByCallsign callsign none

/-! ## Clients -/

/-- The entry of a client in `Clients_by_fd`.  Descriptor 0 gets none. -/
def enterFd (clientsByFd : Option (Dict Nat)) (id : Nat) (fd now : Int) :
    Option (Option (Dict Nat)) :=
  if fd = 0 then
    some clientsByFd
  else
    callDict clientsByFd (.addBlob now ((formatInt fd).truncate 11) id)

/-- `Client::Client(CLI_TYPE_LOCAL, fd)`.  The fields that the constructor does
not assign keep the contents of the memory. -/
def construct (fd : Int) (memory : Client) (now : Int) :
    Option ServerState := do
  let clientsByFd ←
    enterFd (some (state.clientsByFd.getD dictNew)) state.created fd now
  some { state with
    created := state.created + 1
    live := Function.update state.live state.created
      (some ⟨fd, { memory with connState := ircStateNone }⟩)
    clientsByFd := clientsByFd
    clientsByCallsign := some (state.clientsByCallsign.getD dictNew) }

/-- `dict_del(Clients_by_callsign, callsign)`, unless the callsign is unset. -/
def forgetCallsign (clientsByCallsign : Option (Dict Nat))
    (callsign : CString) : Option (Option (Dict Nat)) :=
  if callsign = .empty then
    some clientsByCallsign
  else
    callDict clientsByCallsign (.del callsign)

/-- `Client::~Client` -/
def destroy (id : Nat) : Option ServerState := do
  let cptr ← state.live id
  let clientsByFd ←
    callDict state.clientsByFd (.del ((formatInt cptr.fd).truncate 15))
  let clientsByCallsign ←
    forgetCallsign state.clientsByCallsign cptr.client.callsign
  some { state with
    live := Function.update state.live id none
    clientsByFd := clientsByFd
    clientsByCallsign := clientsByCallsign }

end ServerState

/-- The texts that a server sends and that do not depend on its tables. -/
structure ServerText where
  /-- `cfg->Get("core.servername", "hamchat.local")` -/
  servername : CString
  /-- The lines 001 to 250 that `send_connect_numerics` sends. -/
  welcome : Client → List CString

/-- The texts of a server that sends no numerics. -/
def ServerText.bare : ServerText where
  servername := .ofLiteral "hamchat.local"
  welcome _ := []

/-- `Clients_by_callsign` as the handlers of a client use it. -/
def callsignRegistry (text : ServerText) (now : Int) (id : Nat) :
    Registry (Option (Dict Nat)) where
  servername := text.servername
  findClient clientsByCallsign callsign :=
    (dictGetBlob clientsByCallsign callsign none).map Option.isSome
  rename clientsByCallsign callsign next := do
    let clientsByCallsign ←
      ServerState.forgetCallsign clientsByCallsign callsign
    callDict clientsByCallsign (.addBlob now next id)
  welcome _ := text.welcome

namespace ServerState

variable (state : ServerState)

/-- The command `NICK newCall`, with the result of `m_nick`. -/
def nick (text : ServerText) (id : Nat) (newCall : CString) (now : Int) :
    Option (Bool × ServerState) := do
  let cptr ← state.live id
  match mNick (callsignRegistry text now id) state.clientsByCallsign
      cptr.client 1 [.empty, .ofLiteral "NICK", newCall] with
  | .returned value _ clientsByCallsign client =>
      some (value, { state with
        live := Function.update state.live id
          (some { cptr with client := client })
        clientsByCallsign := clientsByCallsign })
  | .ended _ => none

/-! ## Channels -/

/-- `dict_add_blob` and `dict_del` on the members of a channel. -/
def setMember (channel : Nat) (callsign : CString) (member : Option Member) :
    ServerState :=
  { state with members := updateAt state.members channel callsign member }

/-- `Channel::AddUser`.  The pointer through which the source reads the callsign
of an existing record is never assigned; `sameCallsign` is what `strcasecmp`
reports if the read does not trap. -/
def addUser (id channel : Nat) (sameCallsign : Bool) (now : Int) :
    Option (Bool × ServerState) := do
  let cptr ← state.live id
  let callsign := cptr.client.callsign
  if (state.members channel callsign).isSome && sameCallsign then
    some (false, state)
  else
    some (true, state.setMember channel callsign (some ⟨now⟩))

/-- `Channel::RemoveUser` -/
def removeUser (id channel : Nat) : Option (Bool × ServerState) := do
  let cptr ← state.live id
  some (true, state.setMember channel cptr.client.callsign none)

/-- `Channel::IsMember` -/
def isMember (channel : Nat) (cptr : LocalClient) : Bool :=
  (state.members channel cptr.client.callsign).isSome

end ServerState

/-! ## Runs -/

/-- A call that changes the clients or channels.  `now` is what `time(NULL)`
returns. -/
inductive ServerEvent
  /-- `new Client(CLI_TYPE_LOCAL, fd)`, in memory with these contents. -/
  | connect (fd : Int) (memory : Client) (now : Int)
  /-- A NICK command. -/
  | nick (id : Nat) (newCall : CString) (now : Int)
  /-- `channel->AddUser(id)` -/
  | addUser (id channel : Nat) (sameCallsign : Bool) (now : Int)
  /-- `channel->RemoveUser(id)` -/
  | removeUser (id channel : Nat)
  /-- `delete id` -/
  | delete (id : Nat)

/-- The effect of a call, with its result. -/
def ServerState.apply (text : ServerText) (state : ServerState) :
    ServerEvent → Option (Bool × ServerState)
  | .connect fd memory now => (state.construct fd memory now).map (true, ·)
  | .nick id newCall now => state.nick text id newCall now
  | .addUser id channel sameCallsign now =>
      state.addUser id channel sameCallsign now
  | .removeUser id channel => state.removeUser id channel
  | .delete id => (state.destroy id).map (true, ·)

/-- A server, and what the results of its calls have told. -/
structure ObservedServer where
  /-- The server. -/
  server : ServerState
  /-- The parameter of the last NICK accepted for a client. -/
  lastNick : Nat → Option CString
  /-- `AddUser` has succeeded for a client and no `RemoveUser` followed. -/
  joined : (channel id : Nat) → Bool

namespace ObservedServer

/-- The server before the first connection. -/
def start : ObservedServer where
  server := .start
  lastNick _ := none
  joined _ _ := false

/-- What a call with its result tells about the accepted NICKs. -/
def nextNick (lastNick : Nat → Option CString) (result : Bool) :
    ServerEvent → Nat → Option CString
  | .nick id newCall _ =>
      if result then Function.update lastNick id (some newCall) else lastNick
  | _ => lastNick

/-- What a call with its result tells about who has joined. -/
def nextJoined (joined : (channel id : Nat) → Bool) (result : Bool) :
    ServerEvent → (channel id : Nat) → Bool
  | .addUser id channel _ _ =>
      if result then updateAt joined channel id true else joined
  | .removeUser id channel => updateAt joined channel id false
  | _ => joined

/-- One call that returns. -/
def step (text : ServerText) (observed : ObservedServer)
    (event : ServerEvent) : Option ObservedServer := do
  let (result, server) ← observed.server.apply text event
  some {
    server := server
    lastNick := nextNick observed.lastNick result event
    joined := nextJoined observed.joined result event
  }

end ObservedServer

end Hamchat
