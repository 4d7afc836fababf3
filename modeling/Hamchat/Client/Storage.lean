import Hamchat.CharArray
import Hamchat.Client.Session
import Hamchat.Foundation.PartialRun
import Hamchat.Server.Channels

/-!
# Stored strings

The arrays that NICK, USER, PASS, AWAY and JOIN fill, byte by byte.  Beside each
array stands the parameter that it was filled from.  Replies are left out, and
the searches are arguments.
-/

namespace Hamchat

open Foundation

/-- `AWAY_LEN` -/
def awayLen : Nat := 250

/-- An array, and the parameter that it was filled from last. -/
structure Field (size : Nat) where
  /-- The array. -/
  array : CharArray size
  /-- The parameter, if there was one. -/
  given : Option CString

/-- A new array has not been filled. -/
def Field.new {size : Nat} (memory : CharArray size) : Field size :=
  ⟨memory, none⟩

/-- The array reads as the parameter, up to its size. -/
def Field.Holds {size : Nat} (field : Field size) (limit : Nat) : Prop :=
  field.array.Holds limit field.given

/-- The block that `away_msg` points to. -/
structure AwayMsg where
  /-- The number of bytes. -/
  size : Nat
  /-- The block. -/
  field : Field size

/-- The memory in which a `Client` is constructed. -/
structure ClientMemory where
  /-- `char callsign[CALLSIGN_LEN+1]` -/
  callsign : CharArray (callsignLen + 1)
  /-- What `char *away_msg` points to, unless it is NULL. -/
  awayMsg : Option (Σ size, CharArray size)
  /-- `time_t away_since` -/
  awaySince : Int
  /-- `char username[USER_LEN+1]` -/
  username : CharArray (userLen + 1)
  /-- `char realname[REALNAME_LEN+1]` -/
  realname : CharArray (realnameLen + 1)
  /-- `char pass[PASS_LEN]` -/
  pass : CharArray passLen

/-- The strings of a `Client`, and its `conn_state`. -/
structure StoredClient where
  /-- `char callsign[CALLSIGN_LEN+1]` -/
  callsign : Field (callsignLen + 1)
  /-- `char *away_msg` -/
  awayMsg : Option AwayMsg
  /-- `time_t away_since` -/
  awaySince : Int
  /-- `int conn_state` -/
  connState : Nat
  /-- `char username[USER_LEN+1]` -/
  username : Field (userLen + 1)
  /-- `char realname[REALNAME_LEN+1]` -/
  realname : Field (realnameLen + 1)
  /-- `char pass[PASS_LEN]` -/
  pass : Field passLen

/-- `Client::Client`, which assigns no string. -/
def ClientMemory.construct (memory : ClientMemory) : StoredClient where
  callsign := .new memory.callsign
  awayMsg := memory.awayMsg.map fun block => ⟨block.1, .new block.2⟩
  awaySince := memory.awaySince
  connState := ircStateNone
  username := .new memory.username
  realname := .new memory.realname
  pass := .new memory.pass

/-! ## Handlers -/

namespace StoredClient

variable (client : StoredClient) (argc : Nat) (argv : List CString)

/-- `Client::SetCallsign` -/
def setCallsign (callsign : CString) : StoredClient :=
  { client with
    callsign :=
      { array :=
          (client.callsign.array.memset callsignLen (by decide)).snprintf
            callsignLen callsign (by decide) (by decide)
        given := some callsign } }

/-- `Client::send_connect_numerics`, which deletes a client with a password. -/
def sendConnectNumerics : Option StoredClient :=
  if client.pass.array.text ≠ .empty then none else some client

/-- `m_nick`, if it returns; `find_client(new_call)` finds an owner or not. -/
def mNick (found : Bool) : Option StoredClient :=
  if 1 ≤ argc then
    match argv[2]? with
    | none => some client
    | some newCall =>
        if !isValidCallsign newCall then
          some client
        else if found then
          some client
        else if client.connState &&& (ircStateNick ||| ircStateUser) ≠ 0 then
          some (client.setCallsign newCall)
        else do
          let client :=
            { client with connState := client.connState ||| ircStateNick }
          if client.connState &&& ircStateUser ≠ 0 then
            let client ← client.sendConnectNumerics
            some (client.setCallsign newCall)
          else
            some (client.setCallsign newCall)
  else
    some client

/-- What `m_user` writes. -/
def storeUser : StoredClient :=
  { client with
    connState := client.connState ||| ircStateUser
    username :=
      { array :=
          (client.username.array.memset (userLen + 1) (Nat.le_refl _)).snprintf
            (userLen + 1) (argv[2]?.getD (.ofLiteral "(null)")) (by decide)
            (Nat.le_refl _)
        given := argv[2]? }
    realname :=
      { array :=
          (client.realname.array.memset (realnameLen + 1)
              (Nat.le_refl _)).snprintf
            (realnameLen + 1) (argv[5]?.getD (.ofLiteral "(null)")) (by decide)
            (Nat.le_refl _)
        given := argv[5]? } }

/-- `m_user`, if it returns. -/
def mUser : Option StoredClient :=
  if client.connState &&& ircStateUser ≠ 0 then
    some client
  else
    let client := client.storeUser argv
    if client.connState &&& ircStateNick ≠ 0 then
      client.sendConnectNumerics
    else
      some client

/-- What `m_pass` writes: at most `PASS_LEN` bytes of the password. -/
def storePass (chpass : CString) : StoredClient :=
  { client with
    pass :=
      { array :=
          (client.pass.array.memset passLen (Nat.le_refl _)).memcpy
            (chpass.truncate (passLen + 1)).bytes
            (chpass.length_truncate_le (passLen + 1))
        given := some chpass }
    connState := client.connState ||| ircStatePass }

/-- `m_pass` -/
def mPass : StoredClient :=
  if client.connState &&& ircStatePass ≠ 0 then
    client
  else
    match argv[2]? with
    | none => client
    | some chpass => client.storePass chpass

/-- An away message of at most `AWAY_LEN` bytes, in a block of its length;
`malloc` returns a block of arbitrary bytes. -/
def copyAway (target : CString) (malloc : (size : Nat) → CharArray size) :
    AwayMsg :=
  let copied := target.truncate (awayLen + 1)
  let awaySz := copied.bytes.length
  { size := awaySz
    field :=
      { array :=
          ((malloc awaySz).memset awaySz (Nat.le_refl _)).memcpy copied.bytes
            (Nat.le_refl _)
        given := some target } }

/-- `m_away`, if it returns: without a parameter it only frees the message. -/
def mAway (now : Int) (malloc : (size : Nat) → CharArray size) :
    Option StoredClient :=
  let client :=
    if client.awayMsg.isSome then
      { client with awayMsg := none, awaySince := 0 }
    else
      client
  if 1 ≤ argc then
    match argv[2]? with
    | none => none
    | some target =>
        some
          { client with
            awaySince := now
            awayMsg := some (copyAway target malloc) }
  else
    some client

end StoredClient

/-- `Channel::Channel`, as the name that it stores. -/
def newChannelName (memory : CharArray chanLen) (name : CString) :
    Field chanLen where
  array := memory.snprintf chanLen name (by decide) (Nat.le_refl _)
  given := some name

/-! ## Calls -/

/-- The clients and the channels, as the strings stored in them. -/
structure StorageState where
  /-- The clients. -/
  clients : Nat → Option StoredClient
  /-- The names of the channels that JOIN has made. -/
  names : List (Field chanLen)

/-- The server before the first connection. -/
def StorageState.start : StorageState := ⟨fun _ => none, []⟩

/-- A connection, or a command that is dispatched to its handler. -/
inductive StorageCall
  /-- `new Client(CLI_TYPE_LOCAL, fd)` at an address. -/
  | connect (id : Nat) (memory : ClientMemory)
  /-- A NICK command. -/
  | nick (id argc : Nat) (argv : List CString) (found : Bool)
  /-- A USER command. -/
  | user (id : Nat) (argv : List CString)
  /-- A PASS command. -/
  | pass (id : Nat) (argv : List CString)
  /-- An AWAY command. -/
  | away (id argc : Nat) (argv : List CString) (now : Int)
      (malloc : (size : Nat) → CharArray size)
  /-- A JOIN command; `find_channel(chname)` finds a channel or not. -/
  | join (id argc : Nat) (argv : List CString) (found : Bool)
      (memory : CharArray chanLen)

namespace StorageState

variable (state : StorageState)

/-- A client is left as its handler leaves it. -/
def handle (id : Nat) (handler : StoredClient → Option StoredClient) :
    Option StorageState := do
  let client ← state.clients id
  let next ← handler client
  some { state with clients := Function.update state.clients id (some next) }

/-- `m_join`, as the name of the channel that it makes. -/
def join (argc : Nat) (argv : List CString) (found : Bool)
    (memory : CharArray chanLen) : Option StorageState :=
  if argc < 1 then
    some state
  else
    match argv[2]? with
    | none => none
    | some chname =>
        if chname = .empty then
          some state
        else if isZeroName chname then
          some state
        else if found then
          some state
        else
          some { state with
            names := state.names ++ [newChannelName memory chname] }

/-- One call that returns. -/
def step : StorageCall → Option StorageState
  | .connect id memory =>
      some { state with
        clients := Function.update state.clients id (some memory.construct) }
  | .nick id argc argv found =>
      state.handle id fun client => client.mNick argc argv found
  | .user id argv => state.handle id fun client => client.mUser argv
  | .pass id argv => state.handle id fun client => some (client.mPass argv)
  | .away id argc argv now malloc =>
      state.handle id fun client => client.mAway argc argv now malloc
  | .join id argc argv found memory => do
      let _ ← state.clients id
      state.join argc argv found memory

end StorageState

/-! ## Strings that are terminated and faithful -/

/-- Every string of a client is terminated, and reads as the parameter that it
was given. -/
structure StoredClient.StringsHold (client : StoredClient) : Prop where
  /-- The callsign, of which `SetCallsign` keeps one byte less than fits. -/
  callsign : client.callsign.Holds callsignLen
  /-- The user name. -/
  username : client.username.Holds (userLen + 1)
  /-- The real name. -/
  realname : client.realname.Holds (realnameLen + 1)
  /-- The password. -/
  pass : client.pass.Holds passLen
  /-- The away message, if there is one. -/
  awayMsg : ∀ block, client.awayMsg = some block →
    block.field.Holds block.size

/-- The memory of a client holds a NUL in every string. -/
structure ClientMemory.Terminated (memory : ClientMemory) : Prop where
  /-- In the callsign. -/
  callsign : memory.callsign.Terminated
  /-- In the user name. -/
  username : memory.username.Terminated
  /-- In the real name. -/
  realname : memory.realname.Terminated
  /-- In the password. -/
  pass : memory.pass.Terminated
  /-- In the away message, if there is one. -/
  awayMsg : ∀ block, memory.awayMsg = some block → block.2.Terminated

namespace StorageState

/-- Every string is terminated and faithful. -/
structure StringsHold (state : StorageState) : Prop where
  /-- The strings of the clients. -/
  clients : ∀ id client, state.clients id = some client → client.StringsHold
  /-- The names of the channels. -/
  names : ∀ name ∈ state.names, name.Holds chanLen

/-- A call keeps the strings: the memory of a new client is terminated, a
password that is accepted is shorter than its array, and no away message is
set. -/
def KeepsStrings (state : StorageState) : StorageCall → Prop
  | .connect _ memory => memory.Terminated
  | .nick .. | .user .. | .join .. => True
  | .pass id argv => ∀ client, state.clients id = some client →
      ∀ chpass, client.connState &&& ircStatePass = 0 →
        argv[2]? = some chpass → chpass.length < passLen
  | .away _ argc _ _ _ => argc < 1

end StorageState

end Hamchat
