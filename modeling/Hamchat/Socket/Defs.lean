import Hamchat.CString

/-!
# The receive buffer

The part of `Socket` that `sock_read_cb` and `Client::Parse` share, and
`sock_read_cb` itself from `src/transport_socket.cpp`, entered for a local
client that `find_client` has returned.  A result `none` is a call whose
behaviour is undefined because it leaves `recvbuf`.
-/

namespace Hamchat

/-- `BUFFER_MAX` -/
def bufferMax : Nat := 3072

/-- Carriage return. -/
def cr : UInt8 := 13

/-- Line feed. -/
def lf : UInt8 := 10

/-- Space. -/
def sp : UInt8 := 32

/-- Colon. -/
def colon : UInt8 := 58

/-- `char recvbuf[BUFFER_MAX]` -/
structure RecvBuf where
  /-- All bytes of the array. -/
  bytes : List UInt8
  /-- The array has a fixed size. -/
  length_eq : bytes.length = bufferMax
  deriving DecidableEq

namespace RecvBuf

/-- The array after `memset(recvbuf, 0, BUFFER_MAX)`. -/
def zero : RecvBuf where
  bytes := List.replicate bufferMax 0
  length_eq := List.length_replicate

/-- What `recv` leaves in the array when it stores `chunk` at `offset`. -/
def write (buf : RecvBuf) (offset : Nat) (chunk : List UInt8) :
    Option RecvBuf :=
  if fits : offset + chunk.length ≤ bufferMax then
    some {
      bytes := buf.bytes.take offset ++ chunk ++
        buf.bytes.drop (offset + chunk.length)
      length_eq := by
        have length := buf.length_eq
        simp only [List.length_append, List.length_take, List.length_drop]
        omega
    }
  else
    none

/-- `recvbuf[i] = byte` -/
def set (buf : RecvBuf) (i : Nat) (byte : UInt8) : RecvBuf where
  bytes := buf.bytes.set i byte
  length_eq := by rw [List.length_set, buf.length_eq]

/-- `memmove(recvbuf, recvbuf + count, BUFFER_MAX - count)` for
`count < BUFFER_MAX`.  The last `count` bytes stay where they are. -/
def moveDown (buf : RecvBuf) (count : Nat) : RecvBuf where
  bytes := buf.bytes.drop count ++
    buf.bytes.drop (bufferMax - min count bufferMax)
  length_eq := by
    have length := buf.length_eq
    simp only [List.length_append, List.length_drop]
    omega

@[ext] theorem ext {left right : RecvBuf}
    (equal : left.bytes = right.bytes) : left = right := by
  cases left
  cases right
  simpa using equal

@[simp] theorem zero_bytes : zero.bytes = List.replicate bufferMax 0 := rfl

@[simp] theorem set_bytes (buf : RecvBuf) (i : Nat) (byte : UInt8) :
    (buf.set i byte).bytes = buf.bytes.set i byte := rfl

@[simp] theorem moveDown_bytes (buf : RecvBuf) (count : Nat) :
    (buf.moveDown count).bytes =
      buf.bytes.drop count ++
        buf.bytes.drop (bufferMax - min count bufferMax) := rfl

theorem write_eq_some {buf next : RecvBuf} {offset : Nat}
    {chunk : List UInt8} :
    buf.write offset chunk = some next ↔
      offset + chunk.length ≤ bufferMax ∧
        next.bytes = buf.bytes.take offset ++ chunk ++
          buf.bytes.drop (offset + chunk.length) := by
  unfold write
  split
  · rename_i fits
    simp only [fits, true_and, Option.some.injEq]
    constructor
    · rintro rfl
      rfl
    · intro equal
      exact ext equal.symm
  · rename_i overflows
    simp [overflows]

end RecvBuf

/-- `strchr`, as an index.  The outer result is `none` if the search runs off
the end of the memory. -/
def strchr (char : UInt8) : (memory : List UInt8) → Option (Option Nat)
  | [] => none
  | byte :: rest =>
      if byte = char then
        some (some 0)
      else if byte = 0 then
        some none
      else
        (strchr char rest).map fun found => found.map (· + 1)

/-- The fields of `Socket` that receiving and parsing use. -/
structure Socket where
  /-- `char recvbuf[BUFFER_MAX]` -/
  recvbuf : RecvBuf
  /-- `bool recvbuf_lock` -/
  recvbufLock : Bool
  /-- `bool read_waiting` -/
  readWaiting : Bool
  /-- `size_t recvbuf_offset` -/
  recvbufOffset : Nat
  deriving DecidableEq

/-- A socket with a zeroed receive buffer. -/
def Socket.zeroed : Socket where
  recvbuf := RecvBuf.zero
  recvbufLock := false
  readWaiting := false
  recvbufOffset := 0

/-- What `recv` does. -/
inductive Recv
  /-- It stores a chunk and returns its length, zero after a hangup. -/
  | received (chunk : List UInt8)
  /-- It returns -1. -/
  | failed
  deriving DecidableEq

/-- The result of `recv`, assigned to `size_t nread`. -/
def Recv.nread : Recv → Nat
  | .received chunk => chunk.length
  | .failed => 2 ^ 64 - 1

/-- `recv`, asked to store at `bp`. -/
def RecvBuf.receive (buf : RecvBuf) (bp : Nat) : Recv → Option RecvBuf
  | .received chunk => buf.write bp chunk
  | .failed => some buf

/-- `buf_free`, which every `recv` is asked for. -/
def bufFree (_sock : Socket) : Nat := bufferMax

/-- How a call of `sock_read_cb` ends. -/
inductive ReadEnd
  /-- It returns and the client is alive. -/
  | returned (sock : Socket)
  /-- It has deleted the client after a hangup. -/
  | deleted
  /-- It calls `abort()` because the buffer is locked. -/
  | aborted
  deriving DecidableEq

/-- The search for a line ending after a read. -/
def lineWaiting (buf : RecvBuf) : Option Bool := do
  let carriage ← strchr cr buf.bytes
  if carriage.isSome then
    some true
  else
    let feed ← strchr lf buf.bytes
    some feed.isSome

/-- `sock_read_cb`.  Since `nread` is unsigned, a failed `recv` counts as a read
and the test of `errno` is never reached. -/
def sockReadCb (sock : Socket) (recv : Recv) : Option ReadEnd :=
  if sock.recvbufLock then
    some .aborted
  else do
    let recvbuf ← sock.recvbuf.receive sock.recvbufOffset recv
    if 0 < recv.nread then
      let waiting ← lineWaiting recvbuf
      some (.returned {
        recvbuf := recvbuf
        recvbufLock := false
        readWaiting := sock.readWaiting || waiting
        recvbufOffset := u64 (sock.recvbufOffset + recv.nread)
      })
    else
      some .deleted

end Hamchat
