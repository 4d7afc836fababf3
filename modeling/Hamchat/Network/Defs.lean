import Hamchat.Client.Storage
import Hamchat.Dict.Enumeration

/-!
# Clients, channels and tables of a server

The objects that the handlers of `irc_commands` read and write, at their
addresses, and the tables that find them.  A table may lose a pointer or keep one
to a client that has been deleted, so the tables are taken as they come: a
`Directory` says what the calls of `src/dict.cpp` do.  The memory of a deleted
client can still be read; what it holds is chosen when the client is deleted.
-/

namespace Hamchat

open Foundation

/-! ## Tables -/

/-- The calls of `src/dict.cpp` on dictionaries of pointers, if they return. -/
structure Directory (δ : Type) where
  /-- A NULL table. -/
  null : δ
  /-- `if (table == NULL) table = dict_new()` -/
  ready : δ → δ
  /-- `dict_get_blob(table, key, NULL)` -/
  find : δ → (key : CString) → Option (Option Nat)
  /-- `dict_add_blob(table, key, pointer)`, called at a time. -/
  add : δ → (key : CString) → (pointer : Nat) → (now : Int) → Option δ
  /-- `dict_del(table, key)` -/
  del : δ → (key : CString) → Option δ
  /-- The pointers that a walk with `dict_enumerate_blob` visits up to a NULL. -/
  entries : δ → Option (List Nat)

/-- `dict_get_blob`, which finds nothing for a NULL key. -/
def Directory.findPointer (directory : Directory δ) (table : δ) :
    (key : Option CString) → Option (Option Nat)
  | none => some none
  | some key => directory.find table key

/-- `dict_del` of a callsign, unless it is unset. -/
def Directory.forgetCallsign (directory : Directory δ) (table : δ)
    (callsign : CString) : Option δ :=
  if callsign = .empty then some table else directory.del table callsign

/-- The pointers in front of the first NULL, unless a pointer to a variable that
is gone stands before it. -/
def pointersToNull : List (Option (Pointer Nat)) → Option (List Nat)
  | [] | none :: _ => some []
  | some (.automatic _) :: _ => none
  | some (.object pointer) :: rest => (pointersToNull rest).map (pointer :: ·)

/-- The dictionary of the repository.  A pointer to a variable that is gone makes
the behaviour undefined. -/
def dictDirectory : Directory (Option (Dict Nat)) where
  null := none
  ready table := some (table.getD dictNew)
  find table key := do
    match ← dictGetBlob table key none with
    | none => some none
    | some (.object pointer) => some (some pointer)
    | some (.automatic _) => none
  add table key pointer now := callDict table (.addBlob now key pointer)
  del table key := callDict table (.del key)
  entries table :=
    match table with
    | none => some []
    | some d => pointersToNull ((d.entries Keypair.blob).map Enumerated.val)

/-- A table that keeps what is stored in it: a list of its entries. -/
def listDirectory : Directory (List (CString × Nat)) where
  null := []
  ready table := table
  find table key := some (table.lookup key)
  add table key pointer _ :=
    some ((key, pointer) :: table.filter fun entry => entry.1 ≠ key)
  del table key := some (table.filter fun entry => entry.1 ≠ key)
  entries table := some (table.map Prod.snd)

/-! ## Objects -/

/-- `Client`, with its `Socket`. -/
structure ClientObject where
  /-- The fields that registration uses. -/
  client : Client
  /-- `sock->fd` -/
  fd : Int
  /-- `bool is_oper` -/
  isOper : Bool
  /-- What `char *away_msg` points to, up to the first NUL or the end of the
  block, unless it is NULL. -/
  awayMsg : Option CString
  /-- `time_t away_since` -/
  awaySince : Int
  /-- `time_t connected` -/
  connected : Int
  /-- `time_t last_ping` -/
  lastPing : Int
  /-- `bool got_pong` -/
  gotPong : Bool
  /-- `time_t last_msg` -/
  lastMsg : Int
  /-- `char hostname[HOST_NAME_MAX+1]` -/
  hostname : CString
  /-- `Socket *sock` -/
  sock : Socket

/-- Zeroed memory. -/
def ClientObject.zeroed : ClientObject where
  client := freshClient
  fd := 0
  isOper := false
  awayMsg := none
  awaySince := 0
  connected := 0
  lastPing := 0
  gotPong := false
  lastMsg := 0
  hostname := .empty
  sock := .zeroed

/-- `GetCallsign()` -/
def ClientObject.callsign (object : ClientObject) : CString :=
  object.client.callsign

/-- `irc_channel_member`, without the flag that no handler reads. -/
structure MemberObject where
  /-- `Client *cptr` -/
  cptr : Option Nat
  /-- `time_t join_time` -/
  joinTime : Int
  /-- `bool has_op` -/
  hasOp : Bool

/-- `Channel`, without the flags that nothing reads. -/
structure ChannelObject (δ : Type) where
  /-- `dict *members` -/
  members : δ
  /-- `char name[CHAN_LEN]` -/
  name : CString
  /-- `char topic[TOPIC_LEN]` -/
  topic : CString
  /-- `char topic_setby[CALLSIGN_LEN]` -/
  topicSetby : CString
  /-- `char key[KEY_LEN]` -/
  key : CString
  /-- `time_t topic_time` -/
  topicTime : Int
  /-- `Client *owner` -/
  owner : Option Nat

/-- Zeroed memory. -/
def ChannelObject.zeroed (directory : Directory δ) : ChannelObject δ where
  members := directory.null
  name := .empty
  topic := .empty
  topicSetby := .empty
  key := .empty
  topicTime := 0
  owner := none

/-- The clients, the channels and their members. -/
structure Network (δ : Type) where
  /-- What is at the address of a client. -/
  clients : Nat → ClientObject
  /-- The clients that have not been deleted. -/
  alive : Nat → Bool
  /-- The channels, of which the first `channelCount` have been made. -/
  channels : Nat → ChannelObject δ
  /-- How many channels have been made. -/
  channelCount : Nat
  /-- The member records, of which the first `recordCount` have been made. -/
  records : Nat → MemberObject
  /-- How many member records have been made. -/
  recordCount : Nat
  /-- `dict *Clients_by_fd` -/
  clientsByFd : δ
  /-- `dict *Clients_by_callsign` -/
  clientsByCallsign : δ
  /-- `dict *Channels` -/
  channelTable : δ
  /-- `stats.curr_clients` -/
  currClients : Nat
  /-- `stats.max_clients` -/
  maxClients : Nat

/-- The server before the first connection. -/
def Network.start (directory : Directory δ) : Network δ where
  clients _ := .zeroed
  alive _ := false
  channels _ := .zeroed directory
  channelCount := 0
  records _ := ⟨none, 0, false⟩
  recordCount := 0
  clientsByFd := directory.null
  clientsByCallsign := directory.null
  channelTable := directory.null
  currClients := 0
  maxClients := 0

/-- What a command meets besides the objects and the tables. -/
structure Surroundings (δ : Type) where
  /-- `time_t now` -/
  now : Int
  /-- The bytes behind the block of an away message, up to the first NUL. -/
  behindAway : CString
  /-- What is read as the callsign of a NULL client. -/
  nullCallsign : CString
  /-- The memory of a new member record. -/
  record : MemberObject
  /-- The memory of a new channel. -/
  channel : ChannelObject δ
  /-- What the memory of a client holds after `delete`. -/
  freed : ClientObject

/-! ## Messages -/

/-- A call of `Client::Send`: the numeric in its format, if there is one, and the
pieces of the text. -/
structure Message where
  /-- The numeric. -/
  numeric : Option Nat
  /-- The pieces. -/
  pieces : List CString

/-- The text that is sent. -/
def Message.text (message : Message) : CString := sendText message.pieces

/-- A numeric from 400 to 499, except for 464. -/
def Message.isError (message : Message) : Bool :=
  message.numeric.any fun numeric =>
    400 ≤ numeric && numeric ≤ 499 && numeric != 464

/-- A call of `Client::Send` for a client. -/
structure Delivery where
  /-- The client. -/
  recipient : Nat
  /-- The message. -/
  message : Message

/-- How a parameter is printed. -/
def shown (parameter : Option CString) : CString :=
  parameter.getD (.ofLiteral "(null)")

/-- `VERSION` -/
def version : CString := .ofLiteral "0.0.1"

/-- A numeric of three digits. -/
def formatNumeric (numeric : Nat) : CString :=
  .concat [.ofLiteral (if numeric < 10 then "00" else ""), formatInt numeric]

/-- The texts that a server takes from its configuration and from its start, and
the replies that are made of such texts. -/
structure NetworkText where
  /-- `cfg->Get("core.servername", "hamchat.local")` -/
  servername : CString
  /-- `stats.birthday` as `send_connect_numerics` prints it. -/
  created : CString
  /-- The lines of ADMIN, HELP, INFO, LIST, LUSERS, TIME and VERSION. -/
  lines : Handler → (callsign : CString) → (now : Int) →
    (currClients : Nat) → List Message

/-! ## Changes -/

namespace Network

variable (network : Network δ) (directory : Directory δ)

/-- Another content at the address of a client. -/
def setClient (id : Nat) (object : ClientObject) : Network δ :=
  { network with clients := Function.update network.clients id object }

/-- `Client::SetCallsign` -/
def setCallsign (now : Int) (id : Nat) (callsign : CString) :
    Option (Network δ) := do
  let object := network.clients id
  let client := object.client.setCallsign callsign
  let without ←
    directory.forgetCallsign network.clientsByCallsign object.callsign
  let table ← directory.add without client.callsign id now
  some { network.setClient id { object with client := client } with
    clientsByCallsign := table }

/-- A server with one client less. -/
def withoutClient (freed : ClientObject) (id : Nat) (byFd byCallsign : δ) :
    Network δ :=
  { network.setClient id freed with
    alive := Function.update network.alive id false
    clientsByFd := byFd
    clientsByCallsign := byCallsign
    currClients := network.currClients - 1 }

/-- `delete`, of a client that has not been deleted. -/
def delete (freed : ClientObject) (id : Nat) : Option (Network δ) :=
  if network.alive id then do
    let object := network.clients id
    let byFd ← directory.del network.clientsByFd
      ((formatInt object.fd).truncate 15)
    let byCallsign ←
      directory.forgetCallsign network.clientsByCallsign object.callsign
    some (network.withoutClient freed id byFd byCallsign)
  else
    none

/-- `new Channel(cptr, name)`, as the address of the channel and the network with
it. -/
def newChannel (surroundings : Surroundings δ) (id : Nat) (name : CString) :
    Option (Nat × Network δ) := do
  let address := network.channelCount
  let channel :=
    { surroundings.channel with
      members := directory.ready directory.null
      name := name.truncate chanLen
      owner := some id }
  let table ← directory.add (directory.ready network.channelTable) channel.name
    address surroundings.now
  some (address,
    { network with
      channels := Function.update network.channels address channel
      channelCount := address + 1
      channelTable := table })

/-- A new member record for a client under its callsign. -/
def addMember (surroundings : Surroundings δ) (id channel : Nat) :
    Option (Network δ) := do
  let record := { surroundings.record with joinTime := surroundings.now }
  let chptr := network.channels channel
  let members ← directory.add chptr.members (network.clients id).callsign
    network.recordCount surroundings.now
  some { network with
    channels :=
      Function.update network.channels channel { chptr with members := members }
    records := Function.update network.records network.recordCount record
    recordCount := network.recordCount + 1 }

/-- `IsMember`, `IsOp`: the record of a client among the members of a channel. -/
def findMember (channel id : Nat) : Option (Option Nat) :=
  directory.find (network.channels channel).members
    (network.clients id).callsign

/-- `Channel::IsMember` -/
def isMember (channel id : Nat) : Option Bool := do
  let mp ← network.findMember directory channel id
  some mp.isSome

variable {network directory} {next : Network δ} {id : Nat}

@[simp] theorem setClient_clients_self (object : ClientObject) :
    (network.setClient id object).clients id = object :=
  Function.update_self ..

theorem setClient_clients_of_ne {other : Nat} (different : other ≠ id)
    (object : ClientObject) :
    (network.setClient id object).clients other = network.clients other :=
  Function.update_of_ne different ..

@[simp] theorem setClient_setClient (first second : ClientObject) :
    (network.setClient id first).setClient id second =
      network.setClient id second := by
  rw [setClient, setClient, setClient, Function.update_idem]

@[simp] theorem setClient_self :
    network.setClient id (network.clients id) = network := by
  rw [setClient, Function.update_eq_self]

@[simp] theorem withoutClient_clients (freed : ClientObject)
    (byFd byCallsign : δ) :
    (network.withoutClient freed id byFd byCallsign).clients =
      Function.update network.clients id freed := rfl

@[simp] theorem withoutClient_alive (freed : ClientObject)
    (byFd byCallsign : δ) :
    (network.withoutClient freed id byFd byCallsign).alive =
      Function.update network.alive id false := rfl

theorem setCallsign_eq_some {now : Int} {callsign : CString}
    (set : network.setCallsign directory now id callsign = some next) :
    ∃ table, next =
      { network.setClient id
          { network.clients id with
            client := (network.clients id).client.setCallsign callsign } with
        clientsByCallsign := table } := by
  obtain ⟨without, -, set⟩ := Option.bind_eq_some_iff.mp set
  obtain ⟨table, -, set⟩ := Option.bind_eq_some_iff.mp set
  exact ⟨table, (Option.some.inj set).symm⟩

/-- A `delete` of a client that is alive. -/
theorem delete_eq_some {directory : Directory δ} {freed : ClientObject}
    (deleted : network.delete directory freed id = some next) :
    network.alive id = true ∧ ∃ byFd byCallsign,
      directory.del network.clientsByFd
          ((formatInt (network.clients id).fd).truncate 15) = some byFd ∧
      directory.forgetCallsign network.clientsByCallsign
          (network.clients id).callsign = some byCallsign ∧
      next = network.withoutClient freed id byFd byCallsign := by
  rw [delete, Option.ite_none_right_eq_some] at deleted
  obtain ⟨alive, deleted⟩ := deleted
  obtain ⟨byFd, byFdEq, deleted⟩ := Option.bind_eq_some_iff.mp deleted
  obtain ⟨byCallsign, forgotten, deleted⟩ := Option.bind_eq_some_iff.mp deleted
  exact ⟨alive, byFd, byCallsign, byFdEq, forgotten,
    (Option.some.inj deleted).symm⟩

theorem newChannel_eq_some {surroundings : Surroundings δ} {name : CString}
    {made : Nat × Network δ}
    (created :
      network.newChannel directory surroundings id name = some made) :
    made.1 = network.channelCount ∧ ∃ table, made.2 =
      { network with
        channels := Function.update network.channels network.channelCount
          { surroundings.channel with
            members := directory.ready directory.null
            name := name.truncate chanLen
            owner := some id }
        channelCount := network.channelCount + 1
        channelTable := table } := by
  obtain ⟨table, -, created⟩ := Option.bind_eq_some_iff.mp created
  obtain rfl := Option.some.inj created
  exact ⟨rfl, table, rfl⟩

theorem addMember_eq_some {surroundings : Surroundings δ} {channel : Nat}
    (added :
      network.addMember directory surroundings id channel = some next) :
    ∃ members, next =
      { network with
        channels := Function.update network.channels channel
          { network.channels channel with members := members }
        records := Function.update network.records network.recordCount
          { surroundings.record with joinTime := surroundings.now }
        recordCount := network.recordCount + 1 } := by
  obtain ⟨members, -, added⟩ := Option.bind_eq_some_iff.mp added
  exact ⟨members, (Option.some.inj added).symm⟩

end Network

/-! ## Outcomes -/

/-- How a handler ends. -/
inductive Ending (δ : Type)
  /-- It returns. -/
  | returned (value : Bool) (network : Network δ)
  /-- It does not return, or its behaviour is undefined. -/
  | undefined

/-- What a handler does.  A read through NULL is recorded, and the handler goes on
with what it finds there. -/
structure Outcome (δ : Type) where
  /-- The calls of `Client::Send`. -/
  sent : List Delivery
  /-- A NULL channel or client has been read. -/
  touchedNull : Bool
  /-- The end. -/
  ending : Ending δ

namespace Outcome

/-- A handler that has sent some messages returns. -/
def reply (network : Network δ) (value : Bool) (sent : List Delivery) :
    Outcome δ :=
  ⟨sent, false, .returned value network⟩

/-- A handler that has sent some messages does not return. -/
def undefined (sent : List Delivery) : Outcome δ := ⟨sent, false, .undefined⟩

/-- A handler that has sent some messages calls a function and goes on with its
result, if it returns. -/
def after (sent : List Delivery) (result : Option α) (next : α → Outcome δ) :
    Outcome δ :=
  match result with
  | none => undefined sent
  | some value => next value

/-- The same after a read through NULL. -/
def throughNull (outcome : Outcome δ) : Outcome δ :=
  { outcome with touchedNull := true }

end Outcome

end Hamchat
