import Hamchat.Parser.Steps

/-!
# Bounds of the receive buffer

Every `recv` is asked for `BUFFER_MAX` bytes, wherever it is to store them, so
the bounds of the buffer hold only as long as the peer sends little enough and
no `recv` fails.
-/

namespace Hamchat

open Foundation

/-! ## The terminator -/

/-- Some byte of the buffer is NUL. -/
def RecvBuf.NulInside (buf : RecvBuf) : Prop := 0 ∈ buf.bytes

/-- The last byte of the buffer is NUL. -/
def RecvBuf.LastNul (buf : RecvBuf) : Prop :=
  buf.bytes[bufferMax - 1]? = some 0

theorem RecvBuf.LastNul.nulInside {buf : RecvBuf} (last : buf.LastNul) :
    buf.NulInside :=
  List.mem_of_getElem? last

theorem RecvBuf.lastNul_zero : RecvBuf.zero.LastNul := by
  rw [RecvBuf.LastNul, RecvBuf.zero_bytes, List.getElem?_replicate]
  decide

/-- Storing below the last byte leaves it alone. -/
theorem RecvBuf.LastNul.write {buf next : RecvBuf} (last : buf.LastNul)
    {offset : Nat} {chunk : List UInt8}
    (below : offset + chunk.length < bufferMax)
    (written : buf.write offset chunk = some next) : next.LastNul := by
  have length := buf.length_eq
  obtain ⟨-, bytes⟩ := RecvBuf.write_eq_some.mp written
  rw [RecvBuf.LastNul, bytes, List.getElem?_append_right, List.getElem?_drop]
  · rw [← last, List.length_append, List.length_take]
    congr 1
    omega
  · rw [List.length_append, List.length_take]
    omega

theorem RecvBuf.LastNul.set {buf : RecvBuf} (last : buf.LastNul) (i : Nat) :
    (buf.set i 0).LastNul := by
  rw [RecvBuf.LastNul, RecvBuf.set_bytes, List.getElem?_set]
  split
  · rename_i same
    subst same
    rw [if_pos (by rw [buf.length_eq]; decide)]
  · exact last

/-- Moving up leaves the last byte where it is. -/
theorem RecvBuf.LastNul.moveDown {buf : RecvBuf} (last : buf.LastNul)
    {count : Nat} (less : count < bufferMax) :
    (buf.moveDown count).LastNul := by
  have length := buf.length_eq
  rw [RecvBuf.LastNul, RecvBuf.moveDown_bytes]
  rcases Nat.eq_zero_or_pos count with rfl | positive
  · rw [List.drop_zero, List.getElem?_append_left]
    · exact last
    · rw [length]
      decide
  · rw [List.getElem?_append_right, List.getElem?_drop, ← last]
    · rw [List.length_drop]
      congr 1
      omega
    · rw [List.length_drop]
      omega

/-- `Client::Parse` leaves the last byte NUL, and the offset where it is or at
zero. -/
theorem Client.parse_lastNul {server : Server ω} {world nextWorld : ω}
    {client nextClient : Client} {sock next : Socket} {parsed : Parsed ω}
    {value : Bool} (last : sock.recvbuf.LastNul)
    (returned : client.parse server world sock = some parsed)
    (alive : parsed.result = .returned value nextWorld nextClient next) :
    next.recvbuf.LastNul ∧
      (next.recvbufOffset = sock.recvbufOffset ∨ next.recvbufOffset = 0) := by
  cases locked : sock.recvbufLock with
  | true =>
      rw [Client.parse_locked locked, Option.some.injEq] at returned
      subst returned
      cases alive
      exact ⟨last, .inl rfl⟩
  | false =>
      have lastHead : ∀ head, parseHead client sock.recvbuf = some head →
          head.recvbuf.LastNul := by
        intro head parsed
        rcases parseHead_recvbuf parsed with same | ⟨i, written⟩
        · rw [same]
          exact last
        · rw [written]
          exact last.set i
      rcases Client.parse_eq_some locked returned with
        ⟨recvbuf, head, rfl⟩ |
        ⟨recvbuf, buf, sender, consumed, tokens, head, -, ways⟩
      · cases alive
        exact ⟨lastHead _ head, .inl rfl⟩
      · rcases ways with ⟨-, rfl⟩ | ⟨-, dispatched, -, -, -, ⟨-, ended⟩ | ways⟩
        · cases alive
          exact ⟨lastHead _ head, .inl rfl⟩
        · rw [ended] at alive
          cases alive
        · obtain ⟨laterWorld, laterClient, -, result⟩ := ways
          rw [result] at alive
          cases alive
          refine ⟨?_, .inr rfl⟩
          simp only [Socket.cleanup, Socket.consume]
          split
          · exact RecvBuf.lastNul_zero
          · exact (lastHead _ head).moveDown (by omega)

/-! ## Accounting -/

/-- A socket, and the number of bytes received and not yet parsed. -/
structure Metered where
  /-- The socket. -/
  sock : Socket
  /-- The bytes that no `Client::Parse` has taken from the buffer. -/
  unparsed : Nat

/-- The number of bytes that `recv` stores. -/
def Recv.stored : Recv → Nat
  | .received chunk => chunk.length
  | .failed => 0

/-- A call that works on the socket, with its effect on the bytes held. -/
def Metered.step (server : Server ω) (m : Metered) :
    SocketEvent ω → Option Metered
  | .read recv => do
      let next ← m.sock.step server (.read recv)
      some ⟨next, m.unparsed + recv.stored⟩
  | .parse world client => do
      let parsed ← client.parse server world m.sock
      let next ← m.sock.step server (.parse world client)
      some ⟨next, m.unparsed - parsed.moved⟩

/-- A zeroed buffer. -/
def Metered.zeroed : Metered := ⟨Socket.zeroed, 0⟩

/-- What is promised of the buffer along a run. -/
structure SoundReceive (server : Server ω) (events : List (SocketEvent ω)) :
    Prop where
  /-- Every `recv` is asked for no more than fits before the terminator. -/
  recv_le : ∀ past recv m, past ++ [.read recv] <+: events →
    runFrom (Metered.step server) Metered.zeroed past = some m →
      bufFree m.sock ≤ bufferMax - 1 - m.sock.recvbufOffset
  /-- The offset is the number of unparsed bytes, and a NUL stays inside. -/
  accounted : Always (Metered.step server) Metered.zeroed
    (fun _ m => m.sock.recvbufOffset = m.unparsed ∧
      m.sock.recvbufOffset < bufferMax ∧ m.sock.recvbuf.NulInside) events
  /-- A failed `recv` changes neither the buffer nor the offset. -/
  failed_unchanged : ∀ past m next, past ++ [.read .failed] <+: events →
    runFrom (Metered.step server) Metered.zeroed past = some m →
    m.step server (.read .failed) = some next →
      next.sock.recvbuf = m.sock.recvbuf ∧
        next.sock.recvbufOffset = m.sock.recvbufOffset

/-- Parsing a zeroed buffer changes nothing. -/
theorem Client.parse_zeroed (server : Server ω) (world : ω)
    (client : Client) :
    client.parse server world Socket.zeroed =
      some ⟨none, none, [], 0, .returned true world client Socket.zeroed⟩ := by
  have bytes : RecvBuf.zero.bytes = 0 :: List.replicate (bufferMax - 1) 0 :=
    List.replicate_succ
  have head : parseHead client RecvBuf.zero =
      some (.line RecvBuf.zero 0 ⟨hostNameMax, client.callsign.bytes⟩ 0) := by
    rw [parseHead, bytes]
    simp [isBlank, lf, cr, sp, colon]
  have tokens : tokenLoop (RecvBuf.zero.bytes.drop 0)
      ⟨[⟨hostNameMax, client.callsign.bytes⟩, ⟨cmdLen, []⟩], 1, false, 0⟩ =
        some ⟨[⟨hostNameMax, client.callsign.bytes⟩, ⟨cmdLen, []⟩], 1, false,
          0⟩ := by
    rw [List.drop_zero, bytes]
    simp [tokenLoop, Tokens.allocate, maxArgs]
  rw [Client.parse, if_neg (by decide), Option.bind_eq_bind]
  change (parseHead client RecvBuf.zero).bind _ = _
  rw [head, Option.bind_some]
  change (tokenLoop (RecvBuf.zero.bytes.drop 0) _).bind _ = _
  rw [tokens]
  rfl

/-- Without reads nothing ever happens to a zeroed buffer. -/
theorem Metered.runFrom_parses {server : Server ω}
    {events : List (SocketEvent ω)}
    (parses : ∀ recv, SocketEvent.read recv ∉ events) :
    runFrom (Metered.step server) Metered.zeroed events =
      some Metered.zeroed := by
  induction events using List.reverseRecOn with
  | nil => rfl
  | append_singleton past event inductionHypothesis =>
      rw [runFrom_concat, inductionHypothesis
        (fun recv member => parses recv (by simp [member])), Option.bind_some]
      cases event with
      | read recv => exact absurd (by simp) (parses recv)
      | parse world client =>
          have parsed := Client.parse_zeroed server world client
          have stepped : Socket.step server Socket.zeroed
              (.parse world client) = some Socket.zeroed :=
            Socket.step_parse.mpr ⟨_, _, _, _, parsed, rfl⟩
          rw [Metered.step, Metered.zeroed]
          simp only [parsed, stepped, Option.bind_eq_bind, Option.bind_some]

/-- The first read asks for more than fits before the terminator. -/
theorem no_read_of_recv_le {server : Server ω}
    {events : List (SocketEvent ω)}
    (recvLe : ∀ past recv m, past ++ [.read recv] <+: events →
      runFrom (Metered.step server) Metered.zeroed past = some m →
        bufFree m.sock ≤ bufferMax - 1 - m.sock.recvbufOffset) :
    ∀ recv, SocketEvent.read recv ∉ events := by
  induction events using List.reverseRecOn with
  | nil => simp
  | append_singleton past event inductionHypothesis =>
      have earlier := inductionHypothesis fun before recv m within =>
        recvLe before recv m (within.trans (List.prefix_append _ _))
      intro recv member
      rcases List.mem_append.mp member with before | last
      · exact earlier recv before
      · obtain rfl : SocketEvent.read recv = event := by simpa using last
        have asked := recvLe past recv Metered.zeroed (List.prefix_refl _)
          (Metered.runFrom_parses earlier)
        revert asked
        decide

/-- A read succeeds and stores below the last byte. -/
def Metered.Admits (m : Metered) (event : SocketEvent ω) : Prop :=
  ∀ recv, event = .read recv → ∃ chunk, recv = .received chunk ∧
    m.sock.recvbufOffset + chunk.length < bufferMax

/-- One admitted call keeps a NUL inside the buffer and the offset below its
end. -/
theorem Metered.step_bounded {server : Server ω} {m next : Metered}
    {event : SocketEvent ω}
    (bounded : m.sock.recvbufOffset < bufferMax ∧ m.sock.recvbuf.LastNul)
    (admits : m.Admits event) (stepped : m.step server event = some next) :
    next.sock.recvbufOffset < bufferMax ∧ next.sock.recvbuf.LastNul := by
  cases event with
  | read recv =>
      obtain ⟨chunk, rfl, below⟩ := admits recv rfl
      rw [Metered.step, Option.bind_eq_bind, Option.bind_eq_some_iff]
        at stepped
      obtain ⟨sock, read, equal⟩ := stepped
      obtain rfl := Option.some.inj equal
      obtain ⟨-, -, recvbuf, waiting, written, -, rfl⟩ :=
        sockReadCb_returned (Socket.step_read.mp read)
      refine ⟨?_, bounded.2.write below written⟩
      simp only [Recv.nread]
      rw [u64_of_lt (by unfold bufferMax at below; omega)]
      exact below
  | parse world client =>
      rw [Metered.step, Option.bind_eq_bind, Option.bind_eq_some_iff]
        at stepped
      obtain ⟨parsed, -, stepped⟩ := stepped
      rw [Option.bind_eq_bind, Option.bind_eq_some_iff] at stepped
      obtain ⟨sock, stepped, equal⟩ := stepped
      obtain rfl := Option.some.inj equal
      obtain ⟨again, value, nextWorld, nextClient, returned, alive⟩ :=
        Socket.step_parse.mp stepped
      obtain ⟨last, same | zero⟩ :=
        Client.parse_lastNul bounded.2 returned alive
      · exact ⟨by rw [same]; exact bounded.1, last⟩
      · exact ⟨by rw [zero]; decide, last⟩

/-- The promise about the buffer holds for a run exactly if the run never
reads.  While every read succeeds and stores below the last byte, the offset
stays inside the buffer and so does a NUL. -/
theorem soundReceive_iff (server : Server ω) (events : List (SocketEvent ω)) :
    (SoundReceive server events ↔ ∀ recv, SocketEvent.read recv ∉ events) ∧
    (EachStep (Metered.step server) Metered.zeroed Metered.Admits events →
      Always (Metered.step server) Metered.zeroed
        (fun _ m => m.sock.recvbufOffset < bufferMax ∧
          m.sock.recvbuf.NulInside) events) := by
  refine ⟨⟨fun sound => no_read_of_recv_le sound.recv_le, ?_⟩, ?_⟩
  · intro parses
    have stays : ∀ past, past <+: events →
        runFrom (Metered.step server) Metered.zeroed past =
          some Metered.zeroed := fun past within =>
      Metered.runFrom_parses fun recv member =>
        parses recv (within.subset member)
    refine ⟨?_, ?_, ?_⟩
    · intro past recv m within
      exact absurd (within.subset (by simp)) (parses recv)
    · intro past within m reached
      rw [stays past within, Option.some.injEq] at reached
      subst reached
      exact ⟨rfl, by decide, RecvBuf.lastNul_zero.nulInside⟩
    · intro past m next within
      exact absurd (within.subset (by simp)) (parses .failed)
  · intro admitted past within m reached
    have bounded := Always.of_eachStep
      (fun _ m => m.sock.recvbufOffset < bufferMax ∧
        m.sock.recvbuf.LastNul)
      ⟨by decide, RecvBuf.lastNul_zero⟩
      (fun _ _ _ _ _ bounded stepped admits =>
        Metered.step_bounded bounded admits stepped)
      admitted past within m reached
    exact ⟨bounded.1, bounded.2.nulInside⟩

/-- A single read of one byte breaks the promise. -/
theorem one_read_unsound :
    ∃ server : Server Unit,
      ¬SoundReceive server
        [.read (.received (CString.ofLiteral "P").bytes)] := by
  refine ⟨⟨.ofLiteral "hamchat.local", fun _ _ _ _ _ => .ended []⟩, ?_⟩
  intro sound
  have asked := sound.recv_le [] _ Metered.zeroed (List.prefix_refl _) rfl
  revert asked
  decide

end Hamchat
