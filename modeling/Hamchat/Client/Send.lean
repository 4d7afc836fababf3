import Hamchat.Client.Defs

/-!
# Outgoing lines

`Client::Send` expands its message into a buffer of 512 bytes and hands the
text and the line ending to the socket by two calls of `send()`.  The socket
does not block, so each of them may take all bytes, some, or none.
-/

namespace Hamchat

/-- The bytes of `"\r\n"`. -/
def crlf : List UInt8 := [13, 10]

/-- A call of `Client::Send` and what its two calls of `send()` return: -1 is
`none`. -/
structure SendCall where
  /-- Whether `this->sock` is not NULL. -/
  hasSock : Bool
  /-- Whether `this->cli_type` is `CLI_TYPE_LOCAL`. -/
  isLocal : Bool
  /-- The expanded parts of the format. -/
  parts : List CString
  /-- The result for the text. -/
  first : Option Nat
  /-- The result for the line ending. -/
  second : Option Nat
  /-- No more bytes are taken than were offered. -/
  first_le : ∀ count ∈ first, count ≤ (sendText parts).length
  /-- No more bytes are taken than were offered. -/
  second_le : ∀ count ∈ second, count ≤ 2

namespace SendCall

/-- The expanded text, of any length. -/
def text (call : SendCall) : CString := CString.concat call.parts

end SendCall

/-- The result of `send()` in a `size_t`. -/
def sizeOfResult (result : Option Nat) : Nat := result.getD (2 ^ 64 - 1)

/-- The bytes that a call of `send()` puts on the socket. -/
def putBytes (bytes : List UInt8) (result : Option Nat) : List UInt8 :=
  bytes.take (result.getD 0)

/-- `Client::Send`: what it returns and the bytes that it puts on the socket.
The test for an error compares a `size_t` with zero. -/
def clientSend (call : SendCall) : Bool × List UInt8 :=
  let mybuf := sendText call.parts
  if !call.hasSock then
    (false, [])
  else if call.isLocal then
    let rc := sizeOfResult call.first
    if rc < 0 then
      (true, putBytes mybuf.bytes call.first)
    else
      (true, putBytes mybuf.bytes call.first ++ putBytes crlf call.second)
  else
    (false, [])

/-- What some calls in a row put on the socket. -/
def sentBytes (calls : List SendCall) : List UInt8 :=
  calls.flatMap fun call => (clientSend call).2

/-! ## What a caller should be able to rely on -/

/-- A call that returns true has put its whole line on the socket, and a call
that returns false nothing. -/
structure SendCall.Whole (call : SendCall) : Prop where
  /-- Success stands for a whole line of at most 512 bytes. -/
  line : (clientSend call).1 = true →
    (clientSend call).2 = call.text.bytes ++ crlf ∧
      (call.text.bytes ++ crlf).length ≤ 512
  /-- Failure stands for nothing. -/
  nothing : (clientSend call).1 = false → (clientSend call).2 = []

/-- Every call of a sequence says what it has done, and the client receives
whole lines. -/
structure SendsWhole (calls : List SendCall) : Prop where
  /-- The results can be relied on. -/
  reported : ∀ call ∈ calls, call.Whole
  /-- The bytes sent are lines of at most 512 bytes. -/
  lines : ∃ lines : List CString,
    (∀ line ∈ lines, (line.bytes ++ crlf).length ≤ 512) ∧
      sentBytes calls = lines.flatMap fun line => line.bytes ++ crlf

/-- If the call reaches a socket, the text leaves room for the line ending and
both calls of `send()` take all bytes. -/
def SendCall.Fits (call : SendCall) : Prop :=
  call.hasSock = true → call.isLocal = true →
    call.text.length ≤ 510 ∧ call.first.getD 0 = call.text.length ∧
      call.second = some 2

instance (call : SendCall) : Decidable call.Fits :=
  inferInstanceAs (Decidable (_ → _))

/-! ## What it does -/

section Send

variable {call : SendCall}

/-- A call that does not reach a socket returns false and puts nothing. -/
theorem clientSend_of_unreachable
    (unreachable : ¬(call.hasSock = true ∧ call.isLocal = true)) :
    clientSend call = (false, []) := by
  rw [clientSend]
  cases hasSock : call.hasSock with
  | false => rfl
  | true =>
      have remote : call.isLocal = false := by
        simpa [hasSock] using unreachable
      simp [remote]

/-- A call that reaches a socket returns true whatever becomes of its bytes. -/
theorem clientSend_of_reachable (hasSock : call.hasSock = true)
    (isLocal : call.isLocal = true) :
    clientSend call = (true, putBytes (sendText call.parts).bytes call.first ++
      putBytes crlf call.second) := by
  simp [clientSend, hasSock, isLocal]

/-- A call of `send()` that fails takes no more bytes than one that succeeds. -/
theorem taken_le {result : Option Nat} {offered : Nat}
    (le : ∀ count ∈ result, count ≤ offered) : result.getD 0 ≤ offered := by
  cases result with
  | none => exact Nat.zero_le _
  | some count => exact le count rfl

/-- The number of bytes put is the number that `send()` reports. -/
theorem length_putBytes {bytes : List UInt8} {result : Option Nat}
    (le : ∀ count ∈ result, count ≤ bytes.length) :
    (putBytes bytes result).length = result.getD 0 := by
  rw [putBytes, List.length_take]
  exact Nat.min_eq_left (taken_le le)

theorem length_sendText (parts : List CString) :
    (sendText parts).length = min 511 (CString.concat parts).length :=
  List.length_take

/-- The bytes of a call that reaches a socket are its line exactly if the text
fits the buffer and both calls of `send()` take all bytes. -/
theorem put_line_iff (call : SendCall) :
    (putBytes (sendText call.parts).bytes call.first ++
        putBytes crlf call.second = call.text.bytes ++ crlf ∧
      (call.text.bytes ++ crlf).length ≤ 512) ↔
      call.text.length ≤ 510 ∧ call.first.getD 0 = call.text.length ∧
        call.second = some 2 := by
  have textPut := length_putBytes call.first_le
  have endingPut : (putBytes crlf call.second).length = call.second.getD 0 :=
    length_putBytes call.second_le
  have room : (call.text.bytes ++ crlf).length ≤ 512 ↔
      call.text.length ≤ 510 := by
    rw [List.length_append, CString.length]
    exact Nat.add_le_add_iff_right (n := 2) (k := 510)
  constructor
  · rintro ⟨equal, fits⟩
    have counted := congrArg List.length equal
    rw [List.length_append, List.length_append, textPut, endingPut] at counted
    have ending : crlf.length = 2 := rfl
    have textLe : call.first.getD 0 ≤ call.text.length := by
      calc call.first.getD 0 ≤ (sendText call.parts).length :=
            taken_le call.first_le
        _ = min 511 call.text.length := length_sendText call.parts
        _ ≤ call.text.length := Nat.min_le_right ..
    have endingLe := taken_le call.second_le
    have textLength : call.text.bytes.length = call.text.length := rfl
    refine ⟨room.mp fits, by omega, ?_⟩
    cases taken : call.second with
    | none => simp only [taken, Option.getD_none] at counted endingLe; omega
    | some count =>
        simp only [taken, Option.getD_some] at counted endingLe
        rw [show count = 2 by omega]
  · rintro ⟨fits, textTaken, endingTaken⟩
    have whole : sendText call.parts = call.text := by
      apply CString.ext
      exact List.take_of_length_le (by
        show call.text.length ≤ 511
        omega)
    refine ⟨?_, room.mpr fits⟩
    rw [putBytes, putBytes, whole, textTaken, endingTaken, CString.length,
      List.take_length]
    rfl

/-- A call says what it has done exactly if its line fits. -/
theorem SendCall.whole_iff (call : SendCall) : call.Whole ↔ call.Fits := by
  by_cases reachable : call.hasSock = true ∧ call.isLocal = true
  · have sent := clientSend_of_reachable reachable.1 reachable.2
    constructor
    · intro whole _ _
      have line := whole.line (by rw [sent])
      rw [sent] at line
      exact (put_line_iff call).mp line
    · intro fits
      refine ⟨fun _ => ?_, fun failed => ?_⟩
      · rw [sent]
        exact (put_line_iff call).mpr (fits reachable.1 reachable.2)
      · rw [sent] at failed
        cases failed
  · have sent := clientSend_of_unreachable reachable
    constructor
    · intro _ hasSock isLocal
      exact absurd ⟨hasSock, isLocal⟩ reachable
    · intro _
      refine ⟨fun succeeded => ?_, fun _ => by rw [sent]⟩
      rw [sent] at succeeded
      cases succeeded

end Send

/-- The bytes of calls whose results can be relied on are whole lines. -/
theorem exists_lines {calls : List SendCall}
    (reported : ∀ call ∈ calls, call.Whole) :
    ∃ lines : List CString,
      (∀ line ∈ lines, (line.bytes ++ crlf).length ≤ 512) ∧
        sentBytes calls = lines.flatMap fun line => line.bytes ++ crlf := by
  induction calls with
  | nil => exact ⟨[], by simp, rfl⟩
  | cons call rest inductionHypothesis =>
      obtain ⟨lines, short, sent⟩ :=
        inductionHypothesis fun other member => reported other (.tail _ member)
      have whole := reported call (.head _)
      have split : sentBytes (call :: rest) =
          (clientSend call).2 ++ sentBytes rest := rfl
      cases returned : (clientSend call).1 with
      | false =>
          refine ⟨lines, short, ?_⟩
          rw [split, whole.nothing returned, sent, List.nil_append]
      | true =>
          obtain ⟨line, fits⟩ := whole.line returned
          refine ⟨call.text :: lines, ?_, ?_⟩
          · intro other member
            rcases List.mem_cons.mp member with rfl | later
            · exact fits
            · exact short other later
          · rw [split, line, sent, List.flatMap_cons]

/-- Calls of `Client::Send` say what they have done, and the client receives
whole lines, exactly if every call that reaches a socket has a text of at most
510 bytes and both its calls of `send()` take all bytes. -/
theorem sendsWhole_iff (calls : List SendCall) :
    SendsWhole calls ↔ ∀ call ∈ calls, call.Fits := by
  constructor
  · intro sends call member
    exact call.whole_iff.mp (sends.reported call member)
  · intro fits
    have reported : ∀ call ∈ calls, call.Whole := fun call member =>
      call.whole_iff.mpr (fits call member)
    exact ⟨reported, exists_lines reported⟩

/-- When the socket takes nothing of the text but the line ending, the call
returns true and the line is lost. -/
theorem lost_line_reported_sent :
    ∃ call : SendCall, call.text = .ofLiteral "PING" ∧
      call.first = none ∧ call.second = some 2 ∧
      clientSend call = (true, crlf) ∧ ¬SendsWhole [call] := by
  refine ⟨⟨true, true, [.ofLiteral "PING"], none, some 2, by simp, by simp⟩,
    by decide, rfl, rfl, by decide, ?_⟩
  intro sends
  have fits := (SendCall.whole_iff _).mp (sends.reported _ (.head _))
  revert fits
  decide

end Hamchat
