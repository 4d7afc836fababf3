import Hamchat.Client.Defs
import Hamchat.Socket.Defs

/-!
# The parser

`Client::Parse` from `src/irc_parser.cpp`.  It is modelled over the handlers of
the command table, which see the client, its parameters and the rest of the
server, but not the receive buffer.  A result `none` is a call whose behaviour
is undefined: it reads past `recvbuf`, writes past a parameter block or uses
more than `MAX_ARGS` parameters.
-/

namespace Hamchat

/-- `HOST_NAME_MAX` -/
def hostNameMax : Nat := 64

/-- `CMD_LEN` -/
def cmdLen : Nat := 32

/-- `MAX_ARGS` -/
def maxArgs : Nat := 8

/-- The size of a whole line, from which later parameter blocks are sized. -/
def lineLen : Nat := 512

/-! ## Parameters -/

/-- A zeroed block from `malloc` into which bytes have been copied. -/
structure Block where
  /-- Its size. -/
  size : Nat
  /-- The bytes copied so far, from the start. -/
  bytes : List UInt8
  deriving DecidableEq

namespace Block

/-- Copy one more byte. -/
def store (block : Block) (byte : UInt8) : Option Block :=
  if block.bytes.length < block.size then
    some { block with bytes := block.bytes ++ [byte] }
  else
    none

/-- The string in a block.  A full block is not terminated. -/
def toCString (block : Block) : Option CString :=
  if block.bytes.length < block.size then
    some (CString.read block.bytes)
  else
    none

end Block

/-- The variables of the loop that splits a line.  `parv_offset` is the number
of bytes in the current block. -/
structure Tokens where
  /-- The allocated part of `char *parv[MAX_ARGS]`. -/
  parv : List Block
  /-- `int parc` -/
  parc : Nat
  /-- `bool final_arg` -/
  finalArg : Bool
  /-- `size_t bytes_consumed` -/
  bytesConsumed : Nat
  deriving DecidableEq

namespace Tokens

/-- Allocate `parv[parc]` if it is NULL.  Once `bytes_consumed` exceeds 512 the
requested size has wrapped, and `memset` gets the NULL pointer of a failed
`malloc`. -/
def allocate (tokens : Tokens) : Option Tokens :=
  if maxArgs ≤ tokens.parc then
    none
  else if tokens.parc < tokens.parv.length then
    some tokens
  else if tokens.bytesConsumed ≤ lineLen then
    some { tokens with
      parv := tokens.parv ++ [⟨lineLen - tokens.bytesConsumed, []⟩] }
  else
    none

/-- `parv[parc][parv_offset] = *buf` -/
def copyByte (tokens : Tokens) (byte : UInt8) : Option Tokens := do
  let block ← tokens.parv[tokens.parc]?
  let block ← block.store byte
  some { tokens with
    parv := tokens.parv.set tokens.parc block
    bytesConsumed := tokens.bytesConsumed + 1 }

end Tokens

/-- The loop that parses the rest of the line. -/
def tokenLoop : (memory : List UInt8) → Tokens → Option Tokens
  | [], _ => none
  | byte :: rest, tokens => do
      let tokens ← tokens.allocate
      if byte = 0 ∨ byte = cr ∨ byte = lf then
        some tokens
      else if tokens.finalArg = false ∧ byte = sp then
        tokenLoop rest { tokens with
          parc := tokens.parc + 1
          bytesConsumed := tokens.bytesConsumed + 1 }
      else if tokens.finalArg = false ∧ byte = colon then
        tokenLoop rest { tokens with
          finalArg := true
          bytesConsumed := tokens.bytesConsumed + 1 }
      else do
        let tokens ← tokens.copyByte byte
        tokenLoop rest tokens

/-! ## The start of a line -/

/-- A byte that is skipped in front of a line. -/
def isBlank (byte : UInt8) : Bool := byte == lf || byte == cr || byte == sp

/-- How the part of `Client::Parse` before the loop ends. -/
inductive Head
  /-- It returns `false` from inside the prefix handling. -/
  | emptyPrefix (recvbuf : RecvBuf)
  /-- It goes on at index `buf`. -/
  | line (recvbuf : RecvBuf) (buf : Nat) (sender : Block) (bytesConsumed : Nat)

/-- The buffer after the prefix handling. -/
def Head.recvbuf : Head → RecvBuf
  | .emptyPrefix recvbuf | .line recvbuf _ _ _ => recvbuf

/-- Skip blanks and take the prefix.  The space after a prefix is overwritten,
and `buf` is left on it. -/
def parseHead (client : Client) (recvbuf : RecvBuf) : Option Head := do
  let buf := (recvbuf.bytes.takeWhile isBlank).length
  let first ← recvbuf.bytes[buf]?
  if first = colon then
    let buf := buf + 1
    match ← strchr sp (recvbuf.bytes.drop buf) with
    | none => some (.line recvbuf buf ⟨hostNameMax, []⟩ 1)
    | some eatenBytes =>
        let sender := (recvbuf.bytes.drop buf).take eatenBytes
        let recvbuf := recvbuf.set (buf + eatenBytes) 0
        if 0 < eatenBytes then
          some (.line recvbuf (buf + eatenBytes) ⟨eatenBytes, sender⟩
            (1 + eatenBytes))
        else
          some (.emptyPrefix recvbuf)
  else
    some (.line recvbuf buf ⟨hostNameMax, client.callsign.bytes⟩ 0)

/-! ## Handlers -/

/-- How a handler ends. -/
inductive HandlerEnd (ω : Type)
  /-- It returns and the client is alive. -/
  | returned (value : Bool) (sent : List CString) (world : ω) (client : Client)
  /-- It has deleted the client, or does not return. -/
  | ended (sent : List CString)

/-- What `Client::Parse` uses of the server, where `ω` is the state of
everything but the client. -/
structure Server (ω : Type) where
  /-- `cfg->Get("core.servername", "hamchat.local")` -/
  servername : CString
  /-- The handlers, called with `argc` and the parameters that are not NULL. -/
  run : Handler → ω → Client → (argc : Nat) → (argv : List CString) →
    HandlerEnd ω

/-- The result of the search of the command table. -/
inductive Search
  /-- `allowed_cmd` is false. -/
  | notRegistered
  /-- There are fewer than `min_args` parameters. -/
  | notEnough
  /-- `valid_cmd` is false without a further message. -/
  | unknown
  /-- The command is handed to its handler. -/
  | found (handler : Handler)
  deriving DecidableEq

/-- The loop over `irc_commands`.  The search goes on past a row without a
handler, and the next row resets `valid_cmd`. -/
def searchCommands (active : Bool) (argc : Nat) (name : CString) :
    List IrcCmds → Search
  | [] => .unknown
  | cp :: rest =>
      match cp.cmdProto with
      | none => searchCommands active argc name rest
      | some proto =>
          if proto.sameIgnoringCase name then
            if cp.registered && !active then
              .notRegistered
            else if (argc : Int) < cp.minArgs then
              .notEnough
            else if (argc : Int) > cp.maxArgs then
              .unknown
            else
              match cp.cmdFunc with
              | some handler => .found handler
              | none => searchCommands active argc name rest
          else
            searchCommands active argc name rest

/-- A command and its parameters, as handed to a handler. -/
structure Handed where
  /-- `cp->cmd_func` -/
  handler : Handler
  /-- `argc` -/
  argc : Nat
  /-- `argv`, up to its first NULL. -/
  argv : List CString
  deriving DecidableEq

/-- What the call of a handler, or the reply in its place, leads to. -/
structure Dispatched (ω : Type) where
  /-- What was handed to a handler. -/
  handed : Option Handed
  /-- `rv`, the value that the handler returned. -/
  rv : Option Bool
  /-- The lines sent to the client. -/
  sent : List CString
  /-- The server and the client afterwards, if they are alive. -/
  after : Option (ω × Client)

/-- Search the command table, and call the handler or reply with an error. -/
def Client.dispatch (server : Server ω) (world : ω) (client : Client)
    (tokens : Tokens) : Option (Dispatched ω) := do
  let name ← tokens.parv[1]?.bind Block.toCString
  let argc := tokens.parc - 1
  let unknown := sendText [.ofLiteral ":", server.servername,
    .ofLiteral " 421 ", client.callsign, .ofLiteral " ", name,
    .ofLiteral " :Unknown command"]
  match searchCommands client.isActive argc name ircCommands with
  | .notRegistered =>
      let target :=
        if client.callsign = .empty then .ofLiteral " *" else client.callsign
      some {
        handed := none
        rv := none
        sent := [sendText [.ofLiteral ":", server.servername,
          .ofLiteral " 451 ", target, .ofLiteral " :You have not registered"]]
        after := some (world, client)
      }
  | .notEnough =>
      some {
        handed := none
        rv := none
        sent := [sendText [.ofLiteral ":", server.servername,
          .ofLiteral " 461 ", client.callsign, .ofLiteral " ", name,
          .ofLiteral " :Not enough parameters"], unknown]
        after := some (world, client)
      }
  | .unknown =>
      some {
        handed := none
        rv := none
        sent := [unknown]
        after := some (world, client)
      }
  | .found handler => do
      let argv ← tokens.parv.mapM Block.toCString
      let handed := some ⟨handler, argc, argv⟩
      match server.run handler world client argc argv with
      | .returned rv sent world client =>
          some {
            handed := handed
            rv := some rv
            sent := sent
            after := some (world, client)
          }
      | .ended sent =>
          some { handed := handed, rv := none, sent := sent, after := none }

/-! ## The whole call -/

/-- How a call of `Client::Parse` ends. -/
inductive ParseEnd (ω : Type)
  /-- It returns and the client is alive. -/
  | returned (value : Bool) (world : ω) (client : Client) (sock : Socket)
  /-- The handler has deleted the client or does not return. -/
  | ended

/-- What a call of `Client::Parse` does. -/
structure Parsed (ω : Type) where
  /-- What was handed to a handler. -/
  handed : Option Handed
  /-- `rv`, the value that the handler returned. -/
  rv : Option Bool
  /-- The lines sent to the client. -/
  sent : List CString
  /-- The number of bytes by which the buffer moves up. -/
  moved : Nat
  /-- How the call ends. -/
  result : ParseEnd ω

/-- The code after the label `cleanup`. -/
def Socket.cleanup (sock : Socket) : Socket :=
  { sock with recvbufLock := false, readWaiting := false }

/-- Move the buffer up and reset `recvbuf_offset`. -/
def Socket.consume (sock : Socket) (bytesConsumed : Nat) : Socket :=
  { sock with
    recvbuf :=
      if bytesConsumed ≥ bufferMax then
        RecvBuf.zero
      else
        sock.recvbuf.moveDown bytesConsumed
    recvbufOffset := 0 }

/-- `Client::Parse` -/
def Client.parse (server : Server ω) (world : ω) (client : Client)
    (sock : Socket) : Option (Parsed ω) :=
  if sock.recvbufLock then
    some ⟨none, none, [], 0, .returned true world client sock⟩
  else do
    let sock := { sock with recvbufLock := true }
    match ← parseHead client sock.recvbuf with
    | .emptyPrefix recvbuf =>
        some ⟨none, none, [], 0,
          .returned false world client { sock with recvbuf := recvbuf }⟩
    | .line recvbuf buf sender bytesConsumed => do
        let sock := { sock with recvbuf := recvbuf }
        let tokens ← tokenLoop (recvbuf.bytes.drop buf)
          ⟨[sender, ⟨cmdLen, []⟩], 1, false, bytesConsumed⟩
        if tokens.parc ≤ 1 then
          some ⟨none, none, [], 0, .returned true world client sock.cleanup⟩
        else do
          let dispatched ← client.dispatch server world tokens
          match dispatched.after with
          | none =>
              some ⟨dispatched.handed, dispatched.rv, dispatched.sent, 0,
                .ended⟩
          | some (world, client) =>
              some ⟨dispatched.handed, dispatched.rv, dispatched.sent,
                tokens.bytesConsumed, .returned true world client
                  (sock.consume tokens.bytesConsumed).cleanup⟩

end Hamchat
