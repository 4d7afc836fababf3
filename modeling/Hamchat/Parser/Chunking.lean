import Hamchat.Foundation.Framing
import Hamchat.Parser.Line

/-!
# The byte stream of a client

A client is served one chunk at a time: `sock_read_cb` stores the chunk, and
`Client::Parse` runs if `read_waiting` is then set.  The lines of the stream,
each split and dispatched on its own, say what the handlers should see.  The
service follows them as long as `Client::Parse` takes a command out of the
buffer only when the buffer holds that one line.
-/

namespace Hamchat

open Foundation

/-! ## The service -/

/-- A served client with the server around it, and what has been handed to the
handlers. -/
structure Service (ω : Type) where
  /-- The server and the client, if they are alive. -/
  alive : Option (ω × Client × Socket)
  /-- The commands handed to handlers so far. -/
  handed : List Handed

/-- What is alive after a call of `Client::Parse`. -/
def ParseEnd.alive : ParseEnd ω → Option (ω × Client × Socket)
  | .returned _ world client sock => some (world, client, sock)
  | .ended => none

/-- Service of one chunk.  The result is `none` if the server aborts or a call
is undefined. -/
def Service.deliver (server : Server ω) (service : Service ω)
    (chunk : List UInt8) : Option (Service ω) :=
  match service.alive with
  | none => some service
  | some (world, client, sock) =>
      match sockReadCb sock (.received chunk) with
      | some (.returned sock) =>
          if sock.readWaiting then do
            let parsed ← client.parse server world sock
            some ⟨parsed.result.alive, service.handed ++ parsed.handed.toList⟩
          else
            some ⟨some (world, client, sock), service.handed⟩
      | some .deleted => some ⟨none, service.handed⟩
      | _ => none

/-- A client whose buffer is zeroed. -/
def Service.start (world : ω) (client : Client) : Service ω :=
  ⟨some (world, client, Socket.zeroed), []⟩

/-! ## The stream on its own -/

/-- The result of a line that stands alone in the buffer, if a command is taken
out of it. -/
def Client.handLine (server : Server ω) (world : ω) (client : Client)
    (line : List UInt8) : Option (Dispatched ω) :=
  if line.head? = some colon then
    none
  else do
    let tokens ← tokenLoop (line ++ [0]) (Tokens.start client)
    if tokens.parc ≤ 1 then none else client.dispatch server world tokens

/-- What the lines of a stream hand to the handlers.  A line without a command
is never taken out of the buffer, so nothing after it is reached. -/
def handLines (server : Server ω) (world : ω) (client : Client) :
    List (List UInt8) → List Handed
  | [] => []
  | line :: more =>
      match client.handLine server world line with
      | none => []
      | some dispatched =>
          dispatched.handed.toList ++
            match dispatched.after with
            | none => []
            | some (world, client) => handLines server world client more

/-- What a stream hands to the handlers. -/
def handStream (server : Server ω) (world : ω) (client : Client)
    (stream : List UInt8) : List Handed :=
  handLines server world client (frameLines isLineEnd isBlank [] stream)

/-! ## One line at a time -/

/-- The bytes held when a chunk has arrived. -/
def Socket.held (sock : Socket) (chunk : List UInt8) : List UInt8 :=
  sock.recvbuf.bytes.take sock.recvbufOffset ++ chunk

/-- The buffer when a chunk has arrived. -/
def Socket.filled (sock : Socket) (chunk : List UInt8) : List UInt8 :=
  sock.held chunk ++ sock.recvbuf.bytes.drop (sock.recvbufOffset + chunk.length)

/-- A line ending and a command are in the buffer. -/
def CommandWaiting (memory : List UInt8) : Prop :=
  (cr ∈ cBytes memory ∨ lf ∈ cBytes memory) ∧ CommandAt memory

instance (memory : List UInt8) : Decidable (CommandWaiting memory) :=
  inferInstanceAs (Decidable (_ ∧ _))

/-- The bytes form one finished line, up to blanks around it. -/
def OneLine (bytes : List UInt8) : Prop :=
  (frameLines isLineEnd isBlank [] bytes).length = 1 ∧
    frameRest isLineEnd isBlank [] bytes = []

instance (bytes : List UInt8) : Decidable (OneLine bytes) :=
  inferInstanceAs (Decidable (_ ∧ _))

/-- If a command is waiting when a chunk has arrived, the bytes held are its
line and nothing else. -/
def Service.OneLineAtATime (service : Service ω) (chunk : List UInt8) : Prop :=
  match service.alive with
  | none => True
  | some (_, _, sock) =>
      CommandWaiting (sock.filled chunk) → OneLine (sock.held chunk)

instance (service : Service ω) (chunk : List UInt8) :
    Decidable (service.OneLineAtATime chunk) := by
  unfold Service.OneLineAtATime
  cases service.alive with
  | none => exact instDecidableTrue
  | some session => exact inferInstanceAs (Decidable (_ → _))

/-! ## Lines and the buffer -/

section Lines

variable {server : Server ω} {world : ω} {client : Client}

theorem dropWhile_blanks {blanks rest : List UInt8} {first : UInt8}
    (allBlank : ∀ byte ∈ blanks, isBlank byte = true)
    (notBlank : isBlank first = false) :
    (blanks ++ first :: rest).dropWhile isBlank = first :: rest := by
  rw [List.dropWhile_append_of_pos allBlank,
    List.dropWhile_cons_of_neg (by simp [notBlank])]

/-- The first line of the bytes held is what the parser finds after the
blanks. -/
theorem exists_afterBlanks_of_frameLines {bytes line : List UInt8}
    {more : List (List UInt8)}
    (framed : frameLines isLineEnd isBlank [] bytes = line :: more)
    (tail : List UInt8) :
    ∃ first body ending rest, line = first :: body ∧
      (∀ byte ∈ line, isLineEnd byte = false) ∧ line ⊆ bytes ∧
      isLineEnd ending = true ∧
      (bytes ++ tail).dropWhile isBlank = line ++ ending :: rest := by
  obtain ⟨blanks, first, body, ending, rest, rfl, rfl, allBlank, notBlank,
    inside, ends, -⟩ := frameLines_eq_cons framed
  refine ⟨first, body, ending, rest ++ tail, rfl, inside, ?_, ends, ?_⟩
  · intro byte member
    simp only [List.append_assoc, List.mem_append, List.cons_append,
      List.mem_cons] at member ⊢
    tauto
  · have grouped : (blanks ++ first :: body ++ ending :: rest) ++ tail =
        blanks ++ first :: (body ++ ending :: (rest ++ tail)) := by
      simp
    rw [grouped, dropWhile_blanks ?_ notBlank]
    · simp
    · intro byte member
      rcases allBlank byte member with ends | blank
      · exact isBlank_of_isLineEnd ends
      · exact blank

/-- Splitting the first line in the buffer is splitting it alone. -/
theorem tokenLoop_line {line rest : List UInt8} {ending : UInt8}
    (noEnd : ∀ byte ∈ line, isLineEnd byte = false)
    (nulFree : ∀ byte ∈ line, byte ≠ 0) (ends : isLineEnd ending = true)
    (tokens : Tokens) :
    tokenLoop (line ++ ending :: rest) tokens =
      tokenLoop (line ++ [0]) tokens := by
  refine tokenLoop_stop (fun byte member => ?_) (isStop_of_isLineEnd ends) rest
    tokens
  have notNul := nulFree byte member
  have notEnd := noEnd byte member
  simp only [isLineEnd, Bool.or_eq_false_iff, beq_eq_false_iff_ne] at notEnd
  simp [isStop, notNul, notEnd]

/-- A stream without a finished line hands nothing over. -/
theorem handStream_eq_nil_of_endless {bytes : List UInt8}
    (endless : ∀ byte ∈ bytes, isLineEnd byte = false) :
    handStream server world client bytes = [] := by
  rw [handStream, frameLines_eq_nil endless]
  rfl

/-- A stream that starts with a prefix hands nothing over. -/
theorem handStream_eq_nil_of_prefix {blanks rest : List UInt8}
    (allBlank : ∀ byte ∈ blanks, isBlank byte = true) :
    handStream server world client (blanks ++ colon :: rest) = [] := by
  rw [handStream]
  cases framed : frameLines isLineEnd isBlank [] (blanks ++ colon :: rest) with
  | nil => rfl
  | cons line more =>
      obtain ⟨first, body, ending, after, rfl, -, -, -, found⟩ :=
        exists_afterBlanks_of_frameLines framed []
      rw [List.append_nil, dropWhile_blanks allBlank (by decide),
        List.cons_append, List.cons.injEq] at found
      obtain ⟨rfl, -⟩ := found
      simp [handLines, Client.handLine]

/-- A stream of blanks hands nothing over. -/
theorem handStream_eq_nil_of_blanks {bytes : List UInt8}
    (allBlank : ∀ byte ∈ bytes, isBlank byte = true) :
    handStream server world client bytes = [] := by
  rw [handStream]
  cases framed : frameLines isLineEnd isBlank [] bytes with
  | nil => rfl
  | cons line more =>
      obtain ⟨first, body, ending, after, rfl, -, -, -, found⟩ :=
        exists_afterBlanks_of_frameLines framed []
      rw [List.append_nil, List.dropWhile_eq_nil_iff.mpr allBlank] at found
      cases found

end Lines

/-! ## Reading a chunk -/

/-- A client whose buffer waits for the rest of a line. -/
structure Socket.Idle (sock : Socket) : Prop where
  /-- The lock is released. -/
  unlocked : sock.recvbufLock = false
  /-- No call of the parser is due. -/
  notWaiting : sock.readWaiting = false
  /-- The bytes held contain no NUL. -/
  nulFree : ∀ byte ∈ sock.held [], byte ≠ 0

/-- The bytes held start with a colon after some blanks. -/
structure Socket.HoldsPrefix (sock : Socket) : Prop where
  /-- The lock is released. -/
  unlocked : sock.recvbufLock = false
  /-- The colon is among the bytes held. -/
  colonAt : ∃ k < sock.recvbufOffset,
    (∀ byte ∈ sock.recvbuf.bytes.take k, isBlank byte = true) ∧
      sock.recvbuf.bytes[k]? = some colon

/-- A read appends the chunk to the bytes held. -/
theorem sockReadCb_received {sock next : Socket} {chunk : List UInt8}
    (read : sockReadCb sock (.received chunk) = some (.returned next)) :
    next.recvbufLock = false ∧ next.recvbuf.bytes = sock.filled chunk ∧
      next.recvbufOffset = sock.recvbufOffset + chunk.length ∧
      next.held [] = sock.held chunk ∧
      (next.readWaiting = true ↔ sock.readWaiting = true ∨
        cr ∈ cBytes (sock.filled chunk) ∨ lf ∈ cBytes (sock.filled chunk)) := by
  obtain ⟨-, -, recvbuf, waiting, written, search, rfl⟩ :=
    sockReadCb_returned read
  obtain ⟨fits, bytes⟩ := RecvBuf.write_eq_some.mp written
  have offsetEq : u64 (sock.recvbufOffset + chunk.length) =
      sock.recvbufOffset + chunk.length :=
    u64_of_lt (by unfold bufferMax at fits; omega)
  have filled : recvbuf.bytes = sock.filled chunk := by
    rw [bytes, Socket.filled, Socket.held]
  have length : (sock.held chunk).length =
      sock.recvbufOffset + chunk.length := by
    rw [Socket.held, List.length_append, List.length_take,
      sock.recvbuf.length_eq]
    omega
  refine ⟨rfl, filled, offsetEq, ?_, ?_⟩
  · rw [Socket.held, List.append_nil]
    change recvbuf.bytes.take (u64 (sock.recvbufOffset + chunk.length)) = _
    rw [offsetEq, filled, Socket.filled, ← length, List.take_left]
  · rw [Bool.or_eq_true, lineWaiting_iff search, filled]

/-- Service of a chunk that completes has read it, and has parsed if a line
ending was waiting. -/
theorem Service.deliver_eq_some {server : Server ω} {world : ω}
    {client : Client} {sock : Socket} {handed : List Handed}
    {next : Service ω} {chunk : List UInt8} (nonempty : chunk ≠ [])
    (delivered : Service.deliver server ⟨some (world, client, sock), handed⟩
      chunk = some next) :
    ∃ after, sockReadCb sock (.received chunk) = some (.returned after) ∧
      (after.readWaiting = false ∧
          next = ⟨some (world, client, after), handed⟩ ∨
        after.readWaiting = true ∧ ∃ parsed,
          client.parse server world after = some parsed ∧
          next = ⟨parsed.result.alive, handed ++ parsed.handed.toList⟩) := by
  rw [Service.deliver] at delivered
  dsimp only at delivered
  split at delivered
  · rename_i after read
    refine ⟨after, read, ?_⟩
    cases waiting : after.readWaiting with
    | false =>
        rw [waiting, if_neg (by decide), Option.some.injEq] at delivered
        exact .inl ⟨rfl, delivered.symm⟩
    | true =>
        rw [waiting, if_pos rfl, Option.bind_eq_bind, Option.bind_eq_some_iff]
          at delivered
        obtain ⟨parsed, returned, equal⟩ := delivered
        exact .inr ⟨rfl, parsed, returned, (Option.some.inj equal).symm⟩
  · rename_i read
    exact absurd (List.length_eq_zero_iff.mp (nread_of_deleted read)) nonempty
  · cases delivered

/-! ## Parsing what is held -/

section Held

variable {server : Server ω} {world : ω} {client : Client} {sock : Socket}
variable {parsed : Parsed ω}

theorem RecvBuf.blanks_eq {recvbuf : RecvBuf} {k : Nat}
    (allBlank : ∀ byte ∈ recvbuf.bytes.take k, isBlank byte = true)
    (atColon : recvbuf.bytes[k]? = some colon) :
    recvbuf.blanks = k ∧
      recvbuf.afterBlanks = colon :: recvbuf.bytes.drop (k + 1) := by
  obtain ⟨inside, atK⟩ := List.getElem?_eq_some_iff.mp atColon
  have split : recvbuf.bytes =
      recvbuf.bytes.take k ++ colon :: recvbuf.bytes.drop (k + 1) := by
    conv_lhs => rw [← List.take_append_drop k recvbuf.bytes]
    rw [List.drop_eq_getElem_cons inside, atK]
  have length : (recvbuf.bytes.take k).length = k := by
    rw [List.length_take]
    omega
  constructor
  · rw [RecvBuf.blanks, split, List.takeWhile_append_of_pos allBlank,
      List.takeWhile_cons_of_neg (by decide), List.append_nil, length]
  · rw [RecvBuf.afterBlanks, split, dropWhile_blanks allBlank (by decide)]
    rw [← split]

/-- A prefixed line stays in the buffer for good. -/
theorem Socket.HoldsPrefix.parse (holds : sock.HoldsPrefix)
    (returned : client.parse server world sock = some parsed) :
    parsed.handed = none ∧ ∃ value next,
      parsed.result = .returned value world client next ∧
        (next.recvbufLock = true ∨ next.HoldsPrefix) := by
  obtain ⟨k, inside, allBlank, atColon⟩ := holds.colonAt
  obtain ⟨blanks, found⟩ := RecvBuf.blanks_eq allBlank atColon
  obtain ⟨none, value, next, result, leaves⟩ :=
    Client.parse_prefix holds.unlocked returned found
  refine ⟨none, value, next, result, ?_⟩
  rcases leaves with locked | ⟨unlocked, -, offset, same | ⟨i, less, written⟩⟩
  · exact .inl locked
  · refine .inr ⟨unlocked, k, by rw [offset]; exact inside, ?_⟩
    rw [same]
    exact ⟨allBlank, atColon⟩
  · refine .inr ⟨unlocked, k, by rw [offset]; exact inside, ?_⟩
    rw [written, RecvBuf.set_bytes, List.take_set_of_le (by omega),
      List.getElem?_set_ne (by omega)]
    exact ⟨allBlank, atColon⟩

end Held

/-! ## The service follows the stream -/

/-- How the service stands to the part of the stream that has arrived. -/
inductive Service.Follows (server : Server ω) (world : ω) (client : Client)
    (stream : List UInt8) : Service ω → Prop
  /-- A handler has ended the connection. -/
  | ended {handed : List Handed}
    (future : ∀ rest,
      handStream server world client (stream ++ rest) = handed) :
    Follows server world client stream ⟨none, handed⟩
  /-- The lock has been kept, and the next read aborts. -/
  | locked {handed : List Handed} {nowWorld : ω} {nowClient : Client}
    {sock : Socket} (locked : sock.recvbufLock = true)
    (now : handStream server world client stream = handed) :
    Follows server world client stream
      ⟨some (nowWorld, nowClient, sock), handed⟩
  /-- A prefixed line blocks the buffer. -/
  | blocked {handed : List Handed} {nowWorld : ω} {nowClient : Client}
    {sock : Socket} (holds : sock.HoldsPrefix)
    (future : ∀ rest,
      handStream server world client (stream ++ rest) = handed) :
    Follows server world client stream
      ⟨some (nowWorld, nowClient, sock), handed⟩
  /-- The bytes held stand for everything that was not handed over. -/
  | idle {handed : List Handed} {nowWorld : ω} {nowClient : Client}
    {sock : Socket} (idle : sock.Idle)
    (future : ∀ rest, handStream server world client (stream ++ rest) =
      handed ++ handStream server nowWorld nowClient (sock.held [] ++ rest))
    (quiet : handStream server nowWorld nowClient (sock.held []) = []) :
    Follows server world client stream
      ⟨some (nowWorld, nowClient, sock), handed⟩

section Follows

variable {server : Server ω} {world : ω} {client : Client}
variable {stream : List UInt8}

theorem Service.Follows.start :
    Service.Follows server world client [] (Service.start world client) := by
  refine .idle ⟨rfl, rfl, ?_⟩ (fun rest => ?_) ?_
  · simp [Socket.held, Socket.zeroed]
  · simp [Socket.held, Socket.zeroed]
  · simp [Socket.held, Socket.zeroed, handStream, frameLines, handLines]

/-- What has been handed over is what the arrived part of the stream hands
over. -/
theorem Service.Follows.handed_eq {service : Service ω}
    (follows : Service.Follows server world client stream service) :
    service.handed = handStream server world client stream := by
  cases follows with
  | ended future => simpa using (future []).symm
  | locked locked now => exact now.symm
  | blocked holds future => simpa using (future []).symm
  | idle idle future quiet =>
      have now := future []
      rw [List.append_nil, List.append_nil, quiet, List.append_nil] at now
      exact now.symm

/-- The buffer starts with the bytes held. -/
theorem Socket.exists_tail (sock : Socket) :
    ∃ tail, sock.recvbuf.bytes = sock.held [] ++ tail :=
  ⟨sock.recvbuf.bytes.drop sock.recvbufOffset, by
    rw [Socket.held, List.append_nil, List.take_append_drop]⟩

/-- A prefixed line at the start of the bytes held blocks the stream. -/
theorem Socket.HoldsPrefix.handStream_eq_nil {sock : Socket}
    (holds : sock.HoldsPrefix) (rest : List UInt8) :
    handStream server world client (sock.held [] ++ rest) = [] := by
  obtain ⟨k, inside, allBlank, atColon⟩ := holds.colonAt
  obtain ⟨within, atK⟩ := List.getElem?_eq_some_iff.mp atColon
  have heldEq : sock.held [] = sock.recvbuf.bytes.take k ++
      colon :: (sock.recvbuf.bytes.take sock.recvbufOffset).drop (k + 1) := by
    rw [Socket.held, List.append_nil]
    conv_lhs =>
      rw [← List.take_append_drop k
        (sock.recvbuf.bytes.take sock.recvbufOffset)]
    rw [List.take_take, Nat.min_eq_left (Nat.le_of_lt inside),
      List.drop_eq_getElem_cons (by rw [List.length_take]; omega),
      List.getElem_take, atK]
  rw [heldEq, List.append_assoc, List.cons_append]
  exact handStream_eq_nil_of_prefix allBlank

/-- A read leaves a prefixed line where it is. -/
theorem Socket.HoldsPrefix.read {sock next : Socket} {chunk : List UInt8}
    (holds : sock.HoldsPrefix)
    (read : sockReadCb sock (.received chunk) = some (.returned next)) :
    next.HoldsPrefix := by
  obtain ⟨k, inside, allBlank, atColon⟩ := holds.colonAt
  obtain ⟨unlocked, filled, offset, -, -⟩ := sockReadCb_received read
  obtain ⟨within, -⟩ := List.getElem?_eq_some_iff.mp atColon
  have keeps : next.recvbuf.bytes.take (k + 1) =
      sock.recvbuf.bytes.take (k + 1) := by
    rw [filled, Socket.filled, Socket.held, List.append_assoc,
      List.take_append_of_le_length (by rw [List.length_take]; omega),
      List.take_take, Nat.min_eq_left (by omega)]
  refine ⟨unlocked, k, by omega, ?_, ?_⟩
  · have earlier := congrArg (List.take k) keeps
    rw [List.take_take, List.take_take, Nat.min_eq_left (by omega)] at earlier
    rw [earlier]
    exact allBlank
  · have here := congrArg (fun bytes => bytes[k]?) keeps
    simp only [List.getElem?_take, Nat.lt_succ_self, if_true] at here
    rw [here]
    exact atColon

/-- The first line among the bytes held is the one that the parser splits. -/
theorem Client.handLine_eq {sock : Socket} {first : UInt8}
    {rest : List UInt8} {line : List UInt8} {more : List (List UInt8)}
    {tokens : Tokens} (nulFree : ∀ byte ∈ sock.held [], byte ≠ 0)
    (found : sock.recvbuf.afterBlanks = first :: rest)
    (noPrefix : first ≠ colon)
    (split : tokenLoop (first :: rest) (Tokens.start client) = some tokens)
    (framed : frameLines isLineEnd isBlank [] (sock.held []) = line :: more) :
    client.handLine server world line =
      if tokens.parc ≤ 1 then
        none
      else
        client.dispatch server world tokens := by
  obtain ⟨tail, bytes⟩ := sock.exists_tail
  obtain ⟨head, body, ending, after, rfl, noEnd, held, ends, dropped⟩ :=
    exists_afterBlanks_of_frameLines framed tail
  rw [← bytes, ← RecvBuf.afterBlanks, found] at dropped
  rw [dropped, tokenLoop_line noEnd (fun byte member =>
    nulFree byte (held member)) ends] at split
  rw [List.cons_append, List.cons.injEq] at dropped
  obtain ⟨rfl, -⟩ := dropped
  rw [Client.handLine, split]
  simp [noPrefix]

section Parse

variable {handed : List Handed} {nowWorld : ω} {nowClient : Client}
variable {sock : Socket} {parsed : Parsed ω}

/-- Parsing behind a prefix that blocks the buffer keeps the service in step
with the stream. -/
theorem Service.Follows.parse_blocked (holds : sock.HoldsPrefix)
    (nothing : ∀ rest, handStream server world client (stream ++ rest) = handed)
    (returned : nowClient.parse server nowWorld sock = some parsed) :
    Service.Follows server world client stream
      ⟨parsed.result.alive, handed ++ parsed.handed.toList⟩ := by
  obtain ⟨none, value, next, result, ways⟩ := holds.parse returned
  rw [none, result, Option.toList_none, List.append_nil]
  rcases ways with locked | holdsNext
  · exact .locked locked (by simpa using nothing [])
  · exact .blocked holdsNext nothing

/-- Parsing a colon at the start of the buffer keeps the service in step with
the stream. -/
theorem Service.Follows.parse_colon {rest : List UInt8}
    (unlocked : sock.recvbufLock = false)
    (nulFree : ∀ byte ∈ sock.held [], byte ≠ 0)
    (future : ∀ rest, handStream server world client (stream ++ rest) =
      handed ++ handStream server nowWorld nowClient (sock.held [] ++ rest))
    (returned : nowClient.parse server nowWorld sock = some parsed)
    (found : sock.recvbuf.afterBlanks = colon :: rest) :
    Service.Follows server world client stream
      ⟨parsed.result.alive, handed ++ parsed.handed.toList⟩ := by
  have allBlank : ∀ byte ∈ sock.recvbuf.bytes.take sock.recvbuf.blanks,
      isBlank byte = true := by
    intro byte member
    rw [RecvBuf.blanks, ← List.prefix_iff_eq_take.mp
      (List.takeWhile_prefix isBlank)] at member
    exact List.mem_takeWhile_imp member
  have atColon : sock.recvbuf.bytes[sock.recvbuf.blanks]? = some colon := by
    rw [← List.head?_drop, sock.recvbuf.drop_blanks, found, List.head?_cons]
  by_cases inside : sock.recvbuf.blanks < sock.recvbufOffset
  · have holds : sock.HoldsPrefix :=
      ⟨unlocked, _, inside, allBlank, atColon⟩
    refine Service.Follows.parse_blocked holds (fun rest => ?_) returned
    rw [future, holds.handStream_eq_nil, List.append_nil]
  · -- The colon is a left-over behind the bytes held, which are blank.
    have quiet :
        handStream server nowWorld nowClient (sock.held []) = [] := by
      refine handStream_eq_nil_of_blanks fun byte member => ?_
      rw [Socket.held, List.append_nil] at member
      exact allBlank byte
        ((List.take_prefix_take_left (by omega)).subset member)
    obtain ⟨none, value, next, result, leaves⟩ :=
      Client.parse_prefix unlocked returned found
    rw [none, result, Option.toList_none, List.append_nil]
    rcases leaves with locked | ⟨unlockedNext, notWaiting, offset, written⟩
    · refine .locked locked ?_
      have now := future []
      rwa [List.append_nil, List.append_nil, quiet, List.append_nil] at now
    · have heldNext : next.held [] = sock.held [] := by
        rw [Socket.held, Socket.held, offset]
        rcases written with same | ⟨i, less, written⟩
        · rw [same]
        · rw [written, RecvBuf.set_bytes, List.take_set_of_le (by omega)]
      refine .idle ⟨unlockedNext, notWaiting, ?_⟩ ?_ ?_
      · rw [heldNext]
        exact nulFree
      · rw [heldNext]
        exact future
      · rw [heldNext]
        exact quiet

/-- If the bytes held are one line that is dispatched, they hand over what the
dispatch does, and what follows is handed over after it. -/
theorem handStream_eq_of_dispatched {first : UInt8} {rest : List UInt8}
    {tokens : Tokens} {dispatched : Dispatched ω}
    (nulFree : ∀ byte ∈ sock.held [], byte ≠ 0)
    (oneLine : OneLine (sock.held []))
    (found : sock.recvbuf.afterBlanks = first :: rest)
    (noPrefix : first ≠ colon)
    (split : tokenLoop (first :: rest) (Tokens.start nowClient) = some tokens)
    (many : 1 < tokens.parc)
    (ran : nowClient.dispatch server nowWorld tokens = some dispatched)
    (later : List UInt8) :
    handStream server nowWorld nowClient (sock.held [] ++ later) =
      dispatched.handed.toList ++ match dispatched.after with
        | none => []
        | some (world, client) => handStream server world client later := by
  obtain ⟨single, finished⟩ := oneLine
  obtain ⟨line, framed⟩ := List.length_eq_one_iff.mp single
  have taken : nowClient.handLine server nowWorld line = _ :=
    Client.handLine_eq nulFree found noPrefix split framed
  rw [if_neg (by omega), ran] at taken
  rw [handStream, frameLines_append, framed, finished, List.singleton_append,
    handLines, taken]
  rfl

/-- Parsing a line without a prefix keeps the service in step with the
stream. -/
theorem Service.Follows.parse_plain {first : UInt8} {rest : List UInt8}
    (unlocked : sock.recvbufLock = false)
    (nulFree : ∀ byte ∈ sock.held [], byte ≠ 0)
    (oneLine : CommandAt sock.recvbuf.bytes → OneLine (sock.held []))
    (future : ∀ rest, handStream server world client (stream ++ rest) =
      handed ++ handStream server nowWorld nowClient (sock.held [] ++ rest))
    (returned : nowClient.parse server nowWorld sock = some parsed)
    (found : sock.recvbuf.afterBlanks = first :: rest)
    (noPrefix : first ≠ colon) :
    Service.Follows server world client stream
      ⟨parsed.result.alive, handed ++ parsed.handed.toList⟩ := by
  obtain ⟨tokens, split, ways⟩ :=
    Client.parse_line unlocked returned found noPrefix
  rcases ways with ⟨few, none, result⟩ |
    ⟨many, dispatched, ran, handedEq, -, ways⟩
  · -- The line stays in the buffer, and nothing is handed over.
    rw [none, result, Option.toList_none, List.append_nil]
    refine .idle ⟨rfl, rfl, nulFree⟩ future ?_
    change handStream server nowWorld nowClient (sock.held []) = []
    rw [handStream]
    cases framed : frameLines isLineEnd isBlank [] (sock.held []) with
    | nil => rfl
    | cons line more =>
        rw [handLines, Client.handLine_eq nulFree found noPrefix split framed,
          if_pos few]
  · have command : CommandAt sock.recvbuf.bytes := by
      by_contra noSpace
      rw [CommandAt, ← RecvBuf.afterBlanks, found] at noSpace
      have parcEq := tokenLoop_parc (.inr noSpace) split
      rw [parcEq] at many
      exact Nat.lt_irrefl 1 many
    have handsOver := handStream_eq_of_dispatched nulFree (oneLine command)
      found noPrefix split many ran
    rw [handedEq]
    rcases ways with ⟨gone, result⟩ |
      ⟨laterWorld, laterClient, later, result⟩
    · rw [result]
      refine .ended fun rest => ?_
      rw [future, handsOver, gone, List.append_nil]
    · rw [result]
      refine .idle ⟨rfl, rfl, ?_⟩ (fun rest => ?_) rfl
      · simp [Socket.held, Socket.cleanup, Socket.consume]
      · rw [future, handsOver, later, ← List.append_assoc]
        rfl

/-- Parsing after a read keeps the service in step with the stream. -/
theorem Service.Follows.parse
    (unlocked : sock.recvbufLock = false)
    (nulFree : ∀ byte ∈ sock.held [], byte ≠ 0)
    (oneLine : CommandAt sock.recvbuf.bytes → OneLine (sock.held []))
    (future : ∀ rest, handStream server world client (stream ++ rest) =
      handed ++ handStream server nowWorld nowClient (sock.held [] ++ rest))
    (returned : nowClient.parse server nowWorld sock = some parsed) :
    Service.Follows server world client stream
      ⟨parsed.result.alive, handed ++ parsed.handed.toList⟩ := by
  obtain ⟨first, rest, found⟩ := Client.parse_afterBlanks unlocked returned
  by_cases isColon : first = colon
  · subst isColon
    exact Service.Follows.parse_colon unlocked nulFree future returned found
  · exact Service.Follows.parse_plain unlocked nulFree oneLine future returned
      found isColon

end Parse

/-- Bytes at the start of a buffer that holds no line ending hand over
nothing. -/
theorem handStream_eq_nil_of_noEnding {held : List UInt8}
    (tail : List UInt8) (nulFree : ∀ byte ∈ held, byte ≠ 0)
    (absent : ¬(cr ∈ cBytes (held ++ tail) ∨ lf ∈ cBytes (held ++ tail))) :
    handStream server world client held = [] := by
  refine handStream_eq_nil_of_endless fun byte member => ?_
  have inString : byte ∈ cBytes (held ++ tail) := by
    rw [cBytes, List.takeWhile_append_of_pos
      (fun byte member => by simpa using nulFree byte member)]
    exact List.mem_append_left _ member
  rw [not_or] at absent
  simp only [isLineEnd, Bool.or_eq_false_iff, beq_eq_false_iff_ne]
  constructor
  · rintro rfl
    exact absent.1 inString
  · rintro rfl
    exact absent.2 inString

/-- Service of one more chunk keeps the service in step with the stream. -/
theorem Service.Follows.deliver {service next : Service ω}
    {chunk : List UInt8}
    (follows : Service.Follows server world client stream service)
    (nonempty : chunk ≠ []) (nulFree : ∀ byte ∈ chunk, byte ≠ 0)
    (oneLine : service.OneLineAtATime chunk)
    (delivered : service.deliver server chunk = some next) :
    Service.Follows server world client (stream ++ chunk) next := by
  cases follows with
  | ended future =>
      obtain rfl := Option.some.inj delivered
      refine .ended fun rest => ?_
      rw [List.append_assoc]
      exact future _
  | locked locked now =>
      obtain ⟨after, read, -⟩ := Service.deliver_eq_some nonempty delivered
      rw [sockReadCb_aborted.mpr locked] at read
      cases read
  | @blocked handed nowWorld nowClient sock holds future =>
      have later : ∀ rest,
          handStream server world client (stream ++ chunk ++ rest) =
            handed := by
        intro rest
        rw [List.append_assoc]
        exact future _
      obtain ⟨after, read, ⟨-, rfl⟩ | ⟨-, parsed, returned, rfl⟩⟩ :=
        Service.deliver_eq_some nonempty delivered
      · exact .blocked (holds.read read) later
      · exact .parse_blocked (holds.read read) later returned
  | @idle handed nowWorld nowClient sock idle future quiet =>
      obtain ⟨after, read, ways⟩ :=
        Service.deliver_eq_some nonempty delivered
      obtain ⟨unlocked, filled, -, heldEq, waiting⟩ := sockReadCb_received read
      have heldAppend : sock.held chunk = sock.held [] ++ chunk := by
        simp [Socket.held]
      have heldNulFree : ∀ byte ∈ after.held [], byte ≠ 0 := by
        rw [heldEq, heldAppend]
        intro byte member
        rcases List.mem_append.mp member with earlier | arrived
        · exact idle.nulFree byte earlier
        · exact nulFree byte arrived
      have later : ∀ rest,
          handStream server world client (stream ++ chunk ++ rest) =
            handed ++ handStream server nowWorld nowClient
              (after.held [] ++ rest) := by
        intro rest
        rw [heldEq, heldAppend, List.append_assoc, List.append_assoc]
        exact future _
      rcases ways with ⟨notWaiting, rfl⟩ | ⟨isWaiting, parsed, returned, rfl⟩
      · refine .idle ⟨unlocked, notWaiting, heldNulFree⟩ later ?_
        refine handStream_eq_nil_of_noEnding
          (sock.recvbuf.bytes.drop (sock.recvbufOffset + chunk.length))
          heldNulFree fun present => ?_
        rw [heldEq, ← Socket.filled] at present
        rw [waiting.mpr (.inr present)] at notWaiting
        cases notWaiting
      · refine Service.Follows.parse unlocked heldNulFree (fun command => ?_)
          later returned
        rw [heldEq]
        rw [filled] at command
        refine oneLine ⟨?_, command⟩
        rcases waiting.mp isWaiting with earlier | present
        · rw [idle.notWaiting] at earlier
          cases earlier
        · exact present

end Follows

/-! ## Independence of the cutting -/

/-- The chunks in which a stream arrives. -/
structure Cutting (stream : List UInt8) (chunks : List (List UInt8)) :
    Prop where
  /-- Together they are the stream. -/
  flatten_eq : chunks.flatten = stream
  /-- A read that returns nothing is a hangup. -/
  nonempty : ∀ chunk ∈ chunks, chunk ≠ []

/-- A service whose steps all see one line at a time hands over what the stream
hands over. -/
theorem Service.handed_eq {server : Server ω} {world : ω} {client : Client}
    {stream : List UInt8} {chunks : List (List UInt8)} {service : Service ω}
    (nulFree : ∀ byte ∈ stream, byte ≠ 0) (cutting : Cutting stream chunks)
    (delivered : runFrom (Service.deliver server)
      (Service.start world client) chunks = some service)
    (oneLine : EachStep (Service.deliver server)
      (Service.start world client) Service.OneLineAtATime chunks) :
    service.handed = handStream server world client stream := by
  have follows := (Always.of_eachStep
    (fun past service =>
      Service.Follows server world client past.flatten service)
    Service.Follows.start
    (fun past state chunk next within follows delivered oneLine => by
      have member : chunk ∈ chunks := within.subset (by simp)
      rw [List.flatten_append, List.flatten_singleton]
      refine follows.deliver (cutting.nonempty chunk member)
        (fun byte inChunk => ?_) oneLine delivered
      refine nulFree byte ?_
      rw [← cutting.flatten_eq]
      exact List.mem_flatten.mpr ⟨chunk, member, inChunk⟩)
    oneLine).final delivered
  rw [cutting.flatten_eq] at follows
  exact follows.handed_eq

/-- Two ways of cutting a stream into chunks hand over the same commands, if in
both services a command is taken out of the buffer only when the bytes held are
its line and nothing else. -/
theorem handed_independent_of_cutting {server : Server ω} {world : ω}
    {client : Client} {stream : List UInt8} {first second : List (List UInt8)}
    {serviceFirst serviceSecond : Service ω}
    (nulFree : ∀ byte ∈ stream, byte ≠ 0)
    (cutFirst : Cutting stream first) (cutSecond : Cutting stream second)
    (deliveredFirst : runFrom (Service.deliver server)
      (Service.start world client) first = some serviceFirst)
    (deliveredSecond : runFrom (Service.deliver server)
      (Service.start world client) second = some serviceSecond)
    (oneLineFirst : EachStep (Service.deliver server)
      (Service.start world client) Service.OneLineAtATime first)
    (oneLineSecond : EachStep (Service.deliver server)
      (Service.start world client) Service.OneLineAtATime second) :
    serviceFirst.handed = serviceSecond.handed := by
  rw [Service.handed_eq nulFree cutFirst deliveredFirst oneLineFirst,
    Service.handed_eq nulFree cutSecond deliveredSecond oneLineSecond]

/-- Two commands, each cut in another place, are handed over in both cases. -/
theorem handed_independent_of_cutting_ping :
    ∃ first second : Service Unit,
      runFrom (Service.deliver idleServer) (Service.start () freshClient)
        [(CString.ofLiteral "PING a\r\n").bytes,
          (CString.ofLiteral "PING b\r\n").bytes] = some first ∧
      runFrom (Service.deliver idleServer) (Service.start () freshClient)
        [(CString.ofLiteral "PI").bytes, (CString.ofLiteral "NG a\r\n").bytes,
          (CString.ofLiteral "PING").bytes,
          (CString.ofLiteral " b\r\n").bytes] = some second ∧
      first.handed = second.handed := by
  obtain ⟨first, deliveredFirst⟩ := Option.isSome_iff_exists.mp
    (show (runFrom (Service.deliver idleServer)
      (Service.start () freshClient)
      [(CString.ofLiteral "PING a\r\n").bytes,
        (CString.ofLiteral "PING b\r\n").bytes]).isSome = true by
      decide +kernel)
  obtain ⟨second, deliveredSecond⟩ := Option.isSome_iff_exists.mp
    (show (runFrom (Service.deliver idleServer)
      (Service.start () freshClient)
      [(CString.ofLiteral "PI").bytes, (CString.ofLiteral "NG a\r\n").bytes,
        (CString.ofLiteral "PING").bytes,
        (CString.ofLiteral " b\r\n").bytes]).isSome = true by
      decide +kernel)
  refine ⟨first, second, deliveredFirst, deliveredSecond,
    handed_independent_of_cutting
      (CString.ofLiteral "PING a\r\nPING b\r\n").nulFree
      ⟨by decide +kernel, by decide +kernel⟩
      ⟨by decide +kernel, by decide +kernel⟩ deliveredFirst deliveredSecond
      (EachStep.of_check (by decide +kernel))
      (EachStep.of_check (by decide +kernel))⟩

/-- `read_waiting` is clear. -/
def Service.settled (service : Service ω) : Bool :=
  match service.alive with
  | none => true
  | some (_, _, sock) => !sock.readWaiting

/-- Two commands in one chunk: the second one is lost. -/
theorem cutting_changes_commands :
    ∃ first second : Service Unit,
      runFrom (Service.deliver idleServer) (Service.start () freshClient)
        [(CString.ofLiteral "PING a\r\nPING b\r\n").bytes] = some first ∧
      runFrom (Service.deliver idleServer) (Service.start () freshClient)
        [(CString.ofLiteral "PING a\r\n").bytes,
          (CString.ofLiteral "PING b\r\n").bytes] = some second ∧
      first.settled ∧ second.settled ∧ first.handed ≠ second.handed := by
  have lost : (runFrom (Service.deliver idleServer)
      (Service.start () freshClient)
      [(CString.ofLiteral "PING a\r\nPING b\r\n").bytes]).map
        (fun service => (service.settled, service.handed.length)) =
      some (true, 1) := by
    decide +kernel
  have kept : (runFrom (Service.deliver idleServer)
      (Service.start () freshClient)
      [(CString.ofLiteral "PING a\r\n").bytes,
        (CString.ofLiteral "PING b\r\n").bytes]).map
        (fun service => (service.settled, service.handed.length)) =
      some (true, 2) := by
    decide +kernel
  obtain ⟨first, ranFirst, resultFirst⟩ := Option.map_eq_some_iff.mp lost
  obtain ⟨second, ranSecond, resultSecond⟩ := Option.map_eq_some_iff.mp kept
  obtain ⟨settledFirst, one⟩ := Prod.mk.injEq .. ▸ resultFirst
  obtain ⟨settledSecond, two⟩ := Prod.mk.injEq .. ▸ resultSecond
  refine ⟨first, second, ranFirst, ranSecond, settledFirst, settledSecond, ?_⟩
  intro same
  rw [same, two] at one
  cases one

end Hamchat
