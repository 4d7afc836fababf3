import Hamchat.Foundation.PartialRun
import Hamchat.Parser.Defs

/-!
# One read and one parse

What a call of `sock_read_cb` and a call of `Client::Parse` that do not end the
connection have done to the socket, and runs of such calls.  Everything around
the socket may change freely between two calls, so a call of `Client::Parse`
comes with the client and the server as it finds them.
-/

namespace Hamchat

open Foundation

/-! ## Searching the buffer -/

/-- The number of blanks at the start of the buffer. -/
def RecvBuf.blanks (recvbuf : RecvBuf) : Nat :=
  (recvbuf.bytes.takeWhile isBlank).length

/-- What follows the blanks at the start of the buffer. -/
def RecvBuf.afterBlanks (recvbuf : RecvBuf) : List UInt8 :=
  recvbuf.bytes.dropWhile isBlank

theorem drop_length_takeWhile (memory : List UInt8) (p : UInt8 → Bool) :
    memory.drop (memory.takeWhile p).length = memory.dropWhile p := by
  have split : (memory.takeWhile p ++ memory.dropWhile p).drop
      (memory.takeWhile p).length = memory.dropWhile p := List.drop_left
  rwa [List.takeWhile_append_dropWhile] at split

theorem RecvBuf.drop_blanks (recvbuf : RecvBuf) :
    recvbuf.bytes.drop recvbuf.blanks = recvbuf.afterBlanks :=
  drop_length_takeWhile recvbuf.bytes isBlank

/-- After the blanks the buffer holds a colon and a space. -/
def RecvBuf.EmptyPrefix (recvbuf : RecvBuf) : Prop :=
  ∃ rest, recvbuf.afterBlanks = colon :: sp :: rest

theorem strchr_eq_zero {char : UInt8} {memory : List UInt8} :
    strchr char memory = some (some 0) ↔
      ∃ rest, memory = char :: rest := by
  cases memory with
  | nil => simp [strchr]
  | cons byte rest =>
      rw [strchr]
      by_cases same : byte = char
      · simp [same]
      · rw [if_neg same]
        by_cases nul : byte = 0
        · simp [nul, show ¬0 = char from fun zero => same (nul.trans zero)]
        · rw [if_neg nul]
          cases strchr char rest with
          | none => simp [same]
          | some found => cases found <;> simp [same]

/-- The four ways through the part of `Client::Parse` before the loop. -/
theorem parseHead_eq_some {client : Client} {recvbuf : RecvBuf} {head : Head}
    (parsed : parseHead client recvbuf = some head) :
    ∃ first rest, recvbuf.afterBlanks = first :: rest ∧
      (first ≠ colon ∧
          head = .line recvbuf recvbuf.blanks
            ⟨hostNameMax, client.callsign.bytes⟩ 0 ∨
        first = colon ∧ strchr sp rest = some none ∧
          head = .line recvbuf (recvbuf.blanks + 1) ⟨hostNameMax, []⟩ 1 ∨
        first = colon ∧ strchr sp rest = some (some 0) ∧
          head = .emptyPrefix (recvbuf.set (recvbuf.blanks + 1) 0) ∨
        first = colon ∧ ∃ eaten, 0 < eaten ∧
          strchr sp rest = some (some eaten) ∧
          head = .line (recvbuf.set (recvbuf.blanks + 1 + eaten) 0)
            (recvbuf.blanks + 1 + eaten) ⟨eaten, rest.take eaten⟩
            (1 + eaten)) := by
  have firstEq : recvbuf.bytes[recvbuf.blanks]? =
      recvbuf.afterBlanks.head? := by
    rw [← recvbuf.drop_blanks, List.head?_drop]
  have restEq : recvbuf.bytes.drop (recvbuf.blanks + 1) =
      recvbuf.afterBlanks.tail := by
    rw [← recvbuf.drop_blanks, List.tail_drop]
  rw [parseHead, Option.bind_eq_bind, Option.bind_eq_some_iff] at parsed
  obtain ⟨first, atBlanks, parsed⟩ := parsed
  rw [← RecvBuf.blanks, firstEq, List.head?_eq_some_iff] at atBlanks
  obtain ⟨rest, found⟩ := atBlanks
  refine ⟨first, rest, found, ?_⟩
  by_cases isColon : first = colon
  · rw [if_pos isColon, Option.bind_eq_bind, Option.bind_eq_some_iff] at parsed
    obtain ⟨position, search, parsed⟩ := parsed
    rw [← RecvBuf.blanks] at search parsed
    rw [restEq, found, List.tail_cons] at search
    rw [restEq, found, List.tail_cons] at parsed
    cases position with
    | none =>
        exact .inr (.inl ⟨isColon, search, (Option.some.inj parsed).symm⟩)
    | some eaten =>
        dsimp only at parsed
        split at parsed
        · rename_i positive
          exact .inr (.inr (.inr ⟨isColon, eaten, positive, search,
            (Option.some.inj parsed).symm⟩))
        · obtain rfl : eaten = 0 := by omega
          exact .inr (.inr (.inl ⟨isColon, search,
            (Option.some.inj parsed).symm⟩))
  · rw [if_neg isColon] at parsed
    exact .inl ⟨isColon, (Option.some.inj parsed).symm⟩

/-- It returns exactly on an empty prefix. -/
theorem parseHead_emptyPrefix {client : Client} {recvbuf : RecvBuf}
    {head : Head} (parsed : parseHead client recvbuf = some head) :
    (∃ after, head = .emptyPrefix after) ↔ recvbuf.EmptyPrefix := by
  obtain ⟨first, rest, found, ways⟩ := parseHead_eq_some parsed
  rw [RecvBuf.EmptyPrefix, found]
  have position : strchr sp rest = some (some 0) ↔
      ∃ more, rest = sp :: more := strchr_eq_zero
  rcases ways with ⟨noColon, rfl⟩ | ⟨rfl, search, rfl⟩ | ⟨rfl, search, rfl⟩ |
    ⟨rfl, eaten, positive, search, rfl⟩
  · simp [noColon]
  · rw [search] at position
    simpa using position
  · rw [search] at position
    simpa using position
  · rw [search] at position
    simp only [Option.some.injEq] at position
    simpa [Nat.pos_iff_ne_zero.mp positive] using position

/-- The prefix handling writes at most one NUL. -/
theorem parseHead_recvbuf {client : Client} {recvbuf : RecvBuf} {head : Head}
    (parsed : parseHead client recvbuf = some head) :
    head.recvbuf = recvbuf ∨ ∃ i, head.recvbuf = recvbuf.set i 0 := by
  obtain ⟨first, rest, -, ways⟩ := parseHead_eq_some parsed
  rcases ways with ⟨-, rfl⟩ | ⟨-, -, rfl⟩ | ⟨-, -, rfl⟩ | ⟨-, eaten, -, -, rfl⟩
  · exact .inl rfl
  · exact .inl rfl
  · exact .inr ⟨_, rfl⟩
  · exact .inr ⟨_, rfl⟩

/-! ## Inversion -/

/-- A read that does not end the connection has stored the received bytes,
moved the offset, and looked for a line ending. -/
theorem sockReadCb_returned {sock next : Socket} {recv : Recv}
    (read : sockReadCb sock recv = some (.returned next)) :
    sock.recvbufLock = false ∧ 0 < recv.nread ∧
      ∃ recvbuf waiting,
        sock.recvbuf.receive sock.recvbufOffset recv = some recvbuf ∧
        lineWaiting recvbuf = some waiting ∧
        next = {
          recvbuf := recvbuf
          recvbufLock := false
          readWaiting := sock.readWaiting || waiting
          recvbufOffset := u64 (sock.recvbufOffset + recv.nread)
        } := by
  rw [sockReadCb] at read
  cases locked : sock.recvbufLock with
  | true => simp [locked] at read
  | false =>
      rw [locked, if_neg (by decide), Option.bind_eq_bind,
        Option.bind_eq_some_iff] at read
      obtain ⟨recvbuf, stored, read⟩ := read
      split at read
      · rename_i positive
        rw [Option.bind_eq_bind, Option.bind_eq_some_iff] at read
        obtain ⟨waiting, search, equal⟩ := read
        rw [Option.some.injEq, ReadEnd.returned.injEq] at equal
        exact ⟨rfl, positive, recvbuf, waiting, stored, search, equal.symm⟩
      · rw [Option.some.injEq] at read
        cases read

/-- `abort()` is called exactly when the buffer is locked. -/
theorem sockReadCb_aborted {sock : Socket} {recv : Recv} :
    sockReadCb sock recv = some .aborted ↔ sock.recvbufLock = true := by
  rw [sockReadCb]
  cases locked : sock.recvbufLock with
  | true => simp
  | false =>
      simp only [Bool.false_eq_true, if_false, iff_false]
      rw [Option.bind_eq_bind, Option.bind_eq_some_iff]
      rintro ⟨recvbuf, -, read⟩
      split at read
      · rw [Option.bind_eq_bind, Option.bind_eq_some_iff] at read
        obtain ⟨_, _, read⟩ := read
        cases read
      · cases read

/-- The client is deleted only after a hangup. -/
theorem nread_of_deleted {sock : Socket} {recv : Recv}
    (read : sockReadCb sock recv = some .deleted) : recv.nread = 0 := by
  rw [sockReadCb] at read
  split at read
  · cases read
  · rw [Option.bind_eq_bind, Option.bind_eq_some_iff] at read
    obtain ⟨recvbuf, -, read⟩ := read
    by_contra positive
    rw [if_pos (Nat.pos_of_ne_zero positive), Option.bind_eq_bind,
      Option.bind_eq_some_iff] at read
    obtain ⟨waiting, -, read⟩ := read
    cases read

/-- A locked call of `Client::Parse` changes nothing. -/
theorem Client.parse_locked {server : Server ω} {world : ω} {client : Client}
    {sock : Socket} (locked : sock.recvbufLock = true) :
    client.parse server world sock =
      some ⟨none, none, [], 0, .returned true world client sock⟩ := by
  rw [Client.parse, if_pos locked]

/-- A call of `Client::Parse` that finds the lock released returns from the
prefix handling, or splits a line and leaves it alone or dispatches it. -/
theorem Client.parse_eq_some {server : Server ω} {world : ω} {client : Client}
    {sock : Socket} {parsed : Parsed ω} (unlocked : sock.recvbufLock = false)
    (returned : client.parse server world sock = some parsed) :
    (∃ recvbuf, parseHead client sock.recvbuf = some (.emptyPrefix recvbuf) ∧
      parsed = ⟨none, none, [], 0, .returned false world client
        { sock with recvbuf := recvbuf, recvbufLock := true }⟩) ∨
    ∃ recvbuf buf sender bytesConsumed tokens,
      parseHead client sock.recvbuf =
        some (.line recvbuf buf sender bytesConsumed) ∧
      tokenLoop (recvbuf.bytes.drop buf)
        ⟨[sender, ⟨cmdLen, []⟩], 1, false, bytesConsumed⟩ = some tokens ∧
      (tokens.parc ≤ 1 ∧
          parsed = ⟨none, none, [], 0, .returned true world client
            ({ sock with recvbuf := recvbuf } : Socket).cleanup⟩ ∨
        1 < tokens.parc ∧ ∃ dispatched,
          client.dispatch server world tokens = some dispatched ∧
          parsed.handed = dispatched.handed ∧ parsed.rv = dispatched.rv ∧
          (dispatched.after = none ∧ parsed.result = .ended ∨
            ∃ nextWorld nextClient,
              dispatched.after = some (nextWorld, nextClient) ∧
              parsed.result = .returned true nextWorld nextClient
                (({ sock with recvbuf := recvbuf } : Socket).consume
                  tokens.bytesConsumed).cleanup)) := by
  rw [Client.parse, if_neg (by simp [unlocked]), Option.bind_eq_bind,
    Option.bind_eq_some_iff] at returned
  obtain ⟨head, headEq, returned⟩ := returned
  cases head with
  | emptyPrefix recvbuf =>
      exact .inl ⟨recvbuf, headEq, (Option.some.inj returned).symm⟩
  | line recvbuf buf sender bytesConsumed =>
      rw [Option.bind_eq_bind, Option.bind_eq_some_iff] at returned
      obtain ⟨tokens, split, returned⟩ := returned
      refine .inr ⟨recvbuf, buf, sender, bytesConsumed, tokens, headEq, split,
        ?_⟩
      by_cases few : tokens.parc ≤ 1
      · rw [if_pos few, Option.some.injEq] at returned
        exact .inl ⟨few, returned.symm⟩
      · rw [if_neg few, Option.bind_eq_bind, Option.bind_eq_some_iff]
          at returned
        obtain ⟨dispatched, ran, returned⟩ := returned
        refine .inr ⟨Nat.lt_of_not_le few, dispatched, ran, ?_⟩
        cases after : dispatched.after with
        | none =>
            rw [after, Option.some.injEq] at returned
            rw [← returned]
            exact ⟨rfl, rfl, .inl ⟨rfl, rfl⟩⟩
        | some pair =>
            obtain ⟨nextWorld, nextClient⟩ := pair
            rw [after, Option.some.injEq] at returned
            rw [← returned]
            exact ⟨rfl, rfl, .inr ⟨nextWorld, nextClient, rfl, rfl⟩⟩

/-- A dispatch that is defined has replied with an error, or has handed the
command that the search found to its handler. -/
theorem Client.dispatch_eq_some {server : Server ω} {world : ω}
    {client : Client} {tokens : Tokens} {dispatched : Dispatched ω}
    (ran : client.dispatch server world tokens = some dispatched) :
    dispatched.handed = none ∧ dispatched.rv = none ∧
        dispatched.after = some (world, client) ∨
      ∃ name argv handler,
        tokens.parv[1]?.bind Block.toCString = some name ∧
        searchCommands client.isActive (tokens.parc - 1) name ircCommands =
          .found handler ∧
        tokens.parv.mapM Block.toCString = some argv ∧
        dispatched.handed = some ⟨handler, tokens.parc - 1, argv⟩ ∧
        ((∃ rv sent nextWorld next,
            server.run handler world client (tokens.parc - 1) argv =
              .returned rv sent nextWorld next ∧
            dispatched.rv = some rv ∧
            dispatched.after = some (nextWorld, next)) ∨
          dispatched.rv = none ∧ dispatched.after = none) := by
  rw [Client.dispatch, Option.bind_eq_bind, Option.bind_eq_some_iff] at ran
  obtain ⟨name, named, ran⟩ := ran
  dsimp only at ran
  split at ran
  · obtain rfl := Option.some.inj ran
    exact .inl ⟨rfl, rfl, rfl⟩
  · obtain rfl := Option.some.inj ran
    exact .inl ⟨rfl, rfl, rfl⟩
  · obtain rfl := Option.some.inj ran
    exact .inl ⟨rfl, rfl, rfl⟩
  · rename_i handler found
    rw [Option.bind_eq_bind, Option.bind_eq_some_iff] at ran
    obtain ⟨argv, terminated, ran⟩ := ran
    refine .inr ⟨name, argv, handler, named, found, terminated, ?_⟩
    split at ran
    · rename_i rv sent nextWorld next result
      obtain rfl := Option.some.inj ran
      exact ⟨rfl, .inl ⟨rv, sent, nextWorld, next, result, rfl, rfl⟩⟩
    · obtain rfl := Option.some.inj ran
      exact ⟨rfl, .inr ⟨rfl, rfl⟩⟩

/-! ## Runs -/

/-- A call that works on the socket.  The client and the server around it are
whatever they are at the time of the call. -/
inductive SocketEvent (ω : Type)
  /-- `sock_read_cb` -/
  | read (recv : Recv)
  /-- `Client::Parse` -/
  | parse (world : ω) (client : Client)

/-- The socket after a call that returns with the client alive. -/
def Socket.step (server : Server ω) (sock : Socket) :
    SocketEvent ω → Option Socket
  | .read recv =>
      match sockReadCb sock recv with
      | some (.returned next) => some next
      | _ => none
  | .parse world client => do
      let parsed ← client.parse server world sock
      match parsed.result with
      | .returned _ _ _ next => some next
      | .ended => none

theorem Socket.step_read {server : Server ω} {sock next : Socket}
    {recv : Recv} :
    sock.step server (.read recv) = some next ↔
      sockReadCb sock recv = some (.returned next) := by
  rw [Socket.step]
  split
  · rename_i after read
    simp [read]
  · rename_i other
    simpa using fun read => other next read

theorem Socket.step_parse {server : Server ω} {world : ω} {client : Client}
    {sock next : Socket} :
    sock.step server (.parse world client) = some next ↔
      ∃ parsed value nextWorld nextClient,
        client.parse server world sock = some parsed ∧
        parsed.result = .returned value nextWorld nextClient next := by
  rw [Socket.step, Option.bind_eq_bind, Option.bind_eq_some_iff]
  constructor
  · rintro ⟨parsed, returned, alive⟩
    split at alive
    · rename_i value nextWorld nextClient after result
      obtain rfl : after = next := Option.some.inj alive
      exact ⟨parsed, value, nextWorld, nextClient, returned, result⟩
    · cases alive
  · rintro ⟨parsed, value, nextWorld, nextClient, returned, alive⟩
    exact ⟨parsed, returned, by rw [alive]⟩

/-! ## A server for concrete runs -/

/-- A server whose handlers do nothing. -/
def idleServer : Server Unit where
  servername := .ofLiteral "hamchat.local"
  run _ world client _ _ := .returned true [] world client

end Hamchat
