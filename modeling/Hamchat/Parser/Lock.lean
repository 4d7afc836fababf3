import Hamchat.Parser.Steps

/-!
# The receive-buffer lock

`sock_read_cb` releases the lock on every path on which the client stays alive.
`Client::Parse` releases it except on its `return false` for an empty prefix,
and the next read then aborts.
-/

namespace Hamchat

open Foundation

/-- A read releases the lock. -/
theorem sockReadCb_unlocks {sock next : Socket} {recv : Recv}
    (read : sockReadCb sock recv = some (.returned next)) :
    next.recvbufLock = false := by
  obtain ⟨-, -, recvbuf, waiting, -, -, rfl⟩ := sockReadCb_returned read
  rfl

/-- A call of `Client::Parse` releases the lock exactly if the buffer does not
start with an empty prefix. -/
theorem Client.parse_unlocks_iff {server : Server ω} {world nextWorld : ω}
    {client nextClient : Client} {sock next : Socket} {parsed : Parsed ω}
    {value : Bool} (unlocked : sock.recvbufLock = false)
    (returned : client.parse server world sock = some parsed)
    (alive : parsed.result = .returned value nextWorld nextClient next) :
    next.recvbufLock = false ↔ ¬sock.recvbuf.EmptyPrefix := by
  rcases Client.parse_eq_some unlocked returned with
    ⟨recvbuf, head, rfl⟩ |
    ⟨recvbuf, buf, sender, consumed, tokens, head, -, ways⟩
  · have emptyPrefix := (parseHead_emptyPrefix head).mp ⟨recvbuf, rfl⟩
    cases alive
    simp [emptyPrefix]
  · have other : ¬sock.recvbuf.EmptyPrefix := by
      rw [← parseHead_emptyPrefix head]
      rintro ⟨after, equal⟩
      cases equal
    simp only [other, not_false_eq_true, iff_true]
    rcases ways with ⟨-, rfl⟩ | ⟨-, dispatched, -, -, -, ⟨-, ended⟩ | ways⟩
    · cases alive
      rfl
    · rw [ended] at alive
      cases alive
    · obtain ⟨laterWorld, laterClient, -, result⟩ := ways
      rw [result] at alive
      cases alive
      rfl

/-- The lock is released, so that a read does not abort. -/
def Socket.Released (sock : Socket) : Prop :=
  sock.recvbufLock = false ∧ ∀ recv, sockReadCb sock recv ≠ some .aborted

theorem Socket.released_iff {sock : Socket} :
    sock.Released ↔ sock.recvbufLock = false := by
  constructor
  · exact fun released => released.1
  · intro unlocked
    refine ⟨unlocked, fun recv aborted => ?_⟩
    rw [sockReadCb_aborted, unlocked] at aborted
    cases aborted

/-- `Client::Parse` is not entered with an empty prefix in the buffer. -/
def Socket.NoEmptyPrefix (sock : Socket) (event : SocketEvent ω) : Prop :=
  ∀ world client, event = .parse world client → ¬sock.recvbuf.EmptyPrefix

/-- Every read releases the lock; a call of `Client::Parse` releases it exactly
if the buffer does not start with an empty prefix; and a run of such calls
keeps it released exactly if `Client::Parse` never meets an empty prefix. -/
theorem lock_released_iff (server : Server ω) :
    (∀ sock recv next, sock.recvbufLock = false →
      sockReadCb sock recv = some (.returned next) →
        next.recvbufLock = false) ∧
    (∀ world client sock parsed value nextWorld nextClient next,
      sock.recvbufLock = false →
      Client.parse server world client sock = some parsed →
      parsed.result = .returned value nextWorld nextClient next →
        (next.recvbufLock = false ↔ ¬sock.recvbuf.EmptyPrefix)) ∧
    ∀ start events, start.recvbufLock = false →
      (Always (Socket.step server) start (fun _ sock => sock.Released)
          events ↔
        EachStep (Socket.step server) start Socket.NoEmptyPrefix events) := by
  refine ⟨fun _ _ _ _ => sockReadCb_unlocks,
    fun _ _ _ _ _ _ _ _ => Client.parse_unlocks_iff, ?_⟩
  intro start events unlocked
  refine Always.iff_eachStep (fun _ sock => sock.recvbufLock = false)
    unlocked (fun _ _ => Socket.released_iff.mpr) ?_ ?_
  · intro past sock event next _ unlocked stepped noPrefix
    cases event with
    | read recv => exact sockReadCb_unlocks (Socket.step_read.mp stepped)
    | parse world client =>
        obtain ⟨parsed, value, nextWorld, nextClient, returned, alive⟩ :=
          Socket.step_parse.mp stepped
        exact (Client.parse_unlocks_iff unlocked returned alive).mpr
          (noPrefix world client rfl)
  · intro past sock event next _ unlocked stepped released world client same
    subst same
    obtain ⟨parsed, value, nextWorld, nextClient, returned, alive⟩ :=
      Socket.step_parse.mp stepped
    exact (Client.parse_unlocks_iff unlocked returned alive).mp released.1

/-- After the line `: x` the lock stays taken and the next read aborts. -/
theorem emptyPrefix_keeps_lock :
    ¬Always (Socket.step idleServer) Socket.zeroed
      (fun _ sock => sock.Released)
      [.read (.received (CString.ofLiteral ": x\r\n").bytes),
        .parse () freshClient] := by
  intro always
  have locked : (runFrom (Socket.step idleServer) Socket.zeroed
      [.read (.received (CString.ofLiteral ": x\r\n").bytes),
        .parse () freshClient]).map Socket.recvbufLock = some true := by
    decide +kernel
  obtain ⟨sock, reached, stillLocked⟩ := Option.map_eq_some_iff.mp locked
  have released := (always.final reached).1
  rw [stillLocked] at released
  cases released

end Hamchat
