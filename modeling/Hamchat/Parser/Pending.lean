import Hamchat.Parser.Line

/-!
# Commands that are still pending

`sock_read_cb` sets `read_waiting` when it sees a line ending, and
`Client::Parse` clears it after one line, whatever is left in the buffer.  So a
complete line is always announced exactly if every call of `Client::Parse` that
clears the flag leaves no complete line behind.
-/

namespace Hamchat

open Foundation

/-! ## Complete lines -/

/-- A text holds a complete line: some bytes that end no line, and a line
ending. -/
def HoldsLine (text : List UInt8) : Prop :=
  ∃ before line ending after, text = before ++ line ++ ending :: after ∧
    line ≠ [] ∧ (∀ byte ∈ line, isLineEnd byte = false) ∧
    isLineEnd ending = true

/-- The string in the buffer. -/
def RecvBuf.text (recvbuf : RecvBuf) : List UInt8 := cBytes recvbuf.bytes

/-- A complete line is announced. -/
def Socket.Heeded (sock : Socket) : Prop :=
  HoldsLine sock.recvbuf.text → sock.readWaiting = true

/-- The text that a call of `Client::Parse` leaves in the buffer: what comes
before the space behind a prefix, a line without a parameter and everything
after it, or what is found behind as many bytes as the line has. -/
def RecvBuf.kept (recvbuf : RecvBuf) : List UInt8 :=
  match recvbuf.afterBlanks with
  | [] => recvbuf.text
  | first :: rest =>
      if first = colon then
        recvbuf.text.take
          (recvbuf.blanks + 1 + (rest.takeWhile (· ≠ sp)).length)
      else if SpaceAhead (first :: rest) then
        (recvbuf.moveDown (lineBytes (first :: rest)).length).text
      else
        recvbuf.text

/-- A call of `Client::Parse` that clears `read_waiting` leaves no complete line
behind. -/
def Socket.LeavesNoLine (sock : Socket) : SocketEvent ω → Prop
  | .read _ => True
  | .parse _ _ =>
      sock.recvbufLock = false → ¬sock.recvbuf.EmptyPrefix →
        ¬HoldsLine sock.recvbuf.kept

/-! ## Texts -/

/-- A shorter text holds no more lines. -/
theorem HoldsLine.of_take {text : List UInt8} {count : Nat}
    (holds : HoldsLine (text.take count)) : HoldsLine text := by
  obtain ⟨before, line, ending, after, split, nonempty, inside, ends⟩ := holds
  refine ⟨before, line, ending, after ++ text.drop count, ?_, nonempty, inside,
    ends⟩
  conv_lhs => rw [← List.take_append_drop count text, split]
  simp

/-- A text that holds a line has a line ending. -/
theorem HoldsLine.exists_lineEnd {text : List UInt8} (holds : HoldsLine text) :
    cr ∈ text ∨ lf ∈ text := by
  obtain ⟨before, line, ending, after, rfl, -, -, ends⟩ := holds
  have member : ending ∈ before ++ line ++ ending :: after := by simp
  simp only [isLineEnd, Bool.or_eq_true, beq_iff_eq] at ends
  rcases ends with rfl | rfl
  · exact .inl member
  · exact .inr member

/-- Writing a NUL cuts the string there. -/
theorem cBytes_set (memory : List UInt8) (i : Nat) :
    cBytes (memory.set i 0) = (cBytes memory).take i := by
  induction memory generalizing i with
  | nil => simp [cBytes]
  | cons byte rest inductionHypothesis =>
      cases i with
      | zero => simp [cBytes]
      | succ i =>
          rw [cBytes, cBytes, List.set_cons_succ, List.takeWhile_cons,
            List.takeWhile_cons]
          split
          · rw [List.take_succ_cons, ← cBytes, ← cBytes, inductionHypothesis]
          · rfl

/-- A search that finds its character finds it behind all others. -/
theorem strchr_eq_takeWhile {char : UInt8} {memory : List UInt8} {found : Nat}
    (search : strchr char memory = some (some found)) :
    found = (memory.takeWhile (· ≠ char)).length := by
  obtain ⟨front, stop, rest, rfl, passed, ⟨rfl, same⟩ | ⟨-, -, none⟩⟩ :=
    strchr_eq_some search
  · rw [List.takeWhile_append_of_pos fun byte member => by
        simpa using (passed byte member).1,
      List.takeWhile_cons_of_neg (by simp), List.append_nil]
    exact Option.some.inj same
  · cases none

/-- A search that fails has gone past the end of the string. -/
theorem cBytes_length_le {char : UInt8} {memory : List UInt8}
    (search : strchr char memory = some none) :
    (cBytes memory).length ≤ (memory.takeWhile (· ≠ char)).length := by
  obtain ⟨front, stop, rest, rfl, passed, ⟨-, some⟩ | ⟨-, rfl, -⟩⟩ :=
    strchr_eq_some search
  · cases some
  · rw [cBytes, List.takeWhile_append_of_pos fun byte member => by
        simpa using (passed byte member).2,
      List.takeWhile_append_of_pos fun byte member => by
        simpa using (passed byte member).1,
      List.takeWhile_cons_of_neg (by simp), List.append_nil,
      List.length_append]
    exact Nat.le_add_right _ _

/-- The string of two blocks is no longer than the first and the string of the
second. -/
theorem cBytes_append_length_le (left right : List UInt8) :
    (cBytes (left ++ right)).length ≤ left.length + (cBytes right).length := by
  rw [cBytes, List.takeWhile_append]
  split
  · rw [List.length_append, cBytes]
  · exact (List.takeWhile_prefix _).length_le.trans (Nat.le_add_right _ _)

/-! ## One call -/

section Parse

variable {server : Server ω} {world nextWorld : ω}
variable {client nextClient : Client} {sock next : Socket}
variable {parsed : Parsed ω} {value : Bool}

/-- A prefix leaves the text before the space behind it. -/
theorem RecvBuf.kept_prefix {recvbuf after : RecvBuf} {rest : List UInt8}
    (found : recvbuf.afterBlanks = colon :: rest)
    (written : strchr sp rest = some none ∧ after = recvbuf ∨
      ∃ eaten, strchr sp rest = some (some eaten) ∧
        after = recvbuf.set (recvbuf.blanks + 1 + eaten) 0) :
    after.text = recvbuf.kept := by
  rw [RecvBuf.kept, found]
  dsimp only
  rw [if_pos rfl]
  rcases written with ⟨search, rfl⟩ | ⟨eaten, search, rfl⟩
  · have split : after.bytes =
        after.bytes.take (after.blanks + 1) ++ rest := by
      conv_lhs => rw [← List.take_append_drop (after.blanks + 1) after.bytes]
      rw [← List.tail_drop, after.drop_blanks, found, List.tail_cons]
    have shorter := cBytes_length_le search
    have whole := cBytes_append_length_le
      (after.bytes.take (after.blanks + 1)) rest
    have front : (after.bytes.take (after.blanks + 1)).length ≤
        after.blanks + 1 := List.length_take_le _ _
    refine (List.take_of_length_le ?_).symm
    rw [RecvBuf.text, split]
    omega
  · rw [strchr_eq_takeWhile search]
    exact cBytes_set _ _

/-- A line without a parameter leaves the text as it is. -/
theorem RecvBuf.kept_bare {recvbuf : RecvBuf} {first : UInt8}
    {rest : List UInt8} (found : recvbuf.afterBlanks = first :: rest)
    (plain : first ≠ colon) (bare : ¬SpaceAhead (first :: rest)) :
    recvbuf.kept = recvbuf.text := by
  rw [RecvBuf.kept, found]
  simp [plain, bare]

/-- A line with a parameter leaves what is found behind as many bytes as it
has. -/
theorem Socket.consume_text {first : UInt8} {rest : List UInt8}
    (found : sock.recvbuf.afterBlanks = first :: rest) (plain : first ≠ colon)
    (ahead : SpaceAhead (first :: rest)) {count : Nat}
    (counted : count = (lineBytes (first :: rest)).length)
    (inside : (lineBytes (first :: rest)).length < (first :: rest).length) :
    (sock.consume count).recvbuf.text = sock.recvbuf.kept := by
  have fits : ¬count ≥ bufferMax := by
    have length := (List.dropWhile_suffix isBlank).length_le.trans
      sock.recvbuf.length_eq.le
    rw [← RecvBuf.afterBlanks, found] at length
    omega
  rw [RecvBuf.kept, found]
  simp only [if_neg plain, if_pos ahead, ← counted, Socket.consume, if_neg fits]

/-- A call of `Client::Parse` that finds the lock released returns from the
prefix handling and cuts the text, or it clears `read_waiting`. -/
theorem Client.parse_text (unlocked : sock.recvbufLock = false)
    (returned : client.parse server world sock = some parsed)
    (alive : parsed.result = .returned value nextWorld nextClient next) :
    sock.recvbuf.EmptyPrefix ∧ next.readWaiting = sock.readWaiting ∧
        (∃ count, next.recvbuf.text = sock.recvbuf.text.take count) ∨
      ¬sock.recvbuf.EmptyPrefix ∧ next.readWaiting = false ∧
        next.recvbuf.text = sock.recvbuf.kept := by
  rcases Client.parse_eq_some unlocked returned with
    ⟨recvbuf, head, rfl⟩ |
    ⟨recvbuf, buf, sender, consumed, tokens, head, split, ways⟩
  · cases alive
    refine .inl ⟨(parseHead_emptyPrefix head).mp ⟨recvbuf, rfl⟩, rfl, ?_⟩
    rcases parseHead_recvbuf head with same | ⟨i, written⟩
    · exact ⟨sock.recvbuf.text.length, by
        rw [List.take_length]; exact congrArg RecvBuf.text same⟩
    · exact ⟨i, (congrArg RecvBuf.text written).trans (cBytes_set _ _)⟩
  · have other : ¬sock.recvbuf.EmptyPrefix := by
      rw [← parseHead_emptyPrefix head]
      rintro ⟨after, equal⟩
      cases equal
    obtain ⟨first, rest, found⟩ := Client.parse_afterBlanks unlocked returned
    by_cases isColon : first = colon
    · subst isColon
      obtain ⟨parcEq, written⟩ := tokenLoop_prefix head found split
      rcases ways with ⟨-, rfl⟩ | ⟨more, -⟩
      · cases alive
        exact .inr ⟨other, rfl, RecvBuf.kept_prefix found written⟩
      · omega
    · obtain ⟨tokens, split, ways⟩ :=
        Client.parse_line unlocked returned found isColon
      have ahead : SpaceAhead (first :: rest) ↔ 1 < tokens.parc :=
        ⟨fun ahead => tokenLoop_parc_lt rfl ahead split, fun many => by
          by_contra none
          have parcEq := tokenLoop_parc (.inr none) split
          rw [parcEq] at many
          exact Nat.lt_irrefl 1 many⟩
      rcases ways with ⟨few, -, result⟩ |
        ⟨many, dispatched, -, -, -, ⟨-, result⟩ | ⟨_, _, -, result⟩⟩
      · rw [result] at alive
        cases alive
        refine .inr ⟨other, rfl, (RecvBuf.kept_bare found isColon ?_).symm⟩
        exact fun many => absurd (ahead.mp many) (Nat.not_lt.mpr few)
      · rw [result] at alive
        cases alive
      · rw [result] at alive
        cases alive
        obtain ⟨consumed, inside⟩ := tokenLoop_bytesConsumed split
        rw [Tokens.start, Nat.zero_add] at consumed
        exact .inr ⟨other, rfl, Socket.consume_text found isColon
          (ahead.mpr many) consumed inside⟩

/-- A read announces every complete line. -/
theorem heeded_of_read {recv : Recv}
    (read : sockReadCb sock recv = some (.returned next)) : next.Heeded := by
  obtain ⟨-, -, recvbuf, waiting, -, search, rfl⟩ := sockReadCb_returned read
  intro holds
  rw [(lineWaiting_iff search).mpr holds.exists_lineEnd, Bool.or_true]

/-- A call keeps complete lines announced exactly if it meets its condition. -/
theorem Socket.Heeded.step_iff {event : SocketEvent ω} (heeded : sock.Heeded)
    (stepped : sock.step server event = some next) :
    next.Heeded ↔ sock.LeavesNoLine event := by
  cases event with
  | read recv =>
      exact iff_of_true (heeded_of_read (Socket.step_read.mp stepped)) trivial
  | parse world client =>
      obtain ⟨parsed, value, nextWorld, nextClient, returned, alive⟩ :=
        Socket.step_parse.mp stepped
      cases locked : sock.recvbufLock with
      | true =>
          rw [Client.parse_locked locked, Option.some.injEq] at returned
          subst returned
          cases alive
          refine iff_of_true heeded fun unlocked => ?_
          rw [locked] at unlocked
          cases unlocked
      | false =>
          rcases Client.parse_text locked returned alive with
            ⟨emptyPrefix, waiting, count, text⟩ | ⟨other, cleared, text⟩
          · refine iff_of_true (fun holds => ?_) fun _ other =>
              absurd emptyPrefix other
            rw [text] at holds
            rw [waiting]
            exact heeded holds.of_take
          · rw [Socket.Heeded, text, cleared]
            simp [Socket.LeavesNoLine, locked, other]

end Parse

/-! ## Runs -/

/-- Complete lines are announced throughout a run exactly if they are at its
start, and no call of `Client::Parse` that clears `read_waiting` leaves a
complete line behind. -/
theorem heeded_iff (server : Server ω) (start : Socket)
    (events : List (SocketEvent ω)) :
    Always (Socket.step server) start (fun _ sock => sock.Heeded) events ↔
      start.Heeded ∧
        EachStep (Socket.step server) start Socket.LeavesNoLine events := by
  refine Always.iff_of_step_iff (fun _ => True) Socket.Heeded trivial
    (fun _ _ _ _ _ => trivial) ?_
  intro sock event next _ heeded stepped
  exact heeded.step_iff stepped

/-- The second of two commands that arrive together is forgotten. -/
theorem pipelined_line_forgotten :
    ¬Always (Socket.step idleServer) Socket.zeroed
      (fun _ sock => sock.Heeded)
      [.read (.received
          (CString.ofLiteral "NICK W1AW\r\nUSER a b c :d\r\n").bytes),
        .parse () freshClient] := by
  intro always
  have left : (runFrom (Socket.step idleServer) Socket.zeroed
      [.read (.received
          (CString.ofLiteral "NICK W1AW\r\nUSER a b c :d\r\n").bytes),
        .parse () freshClient]).map
          (fun sock => (sock.recvbuf.text, sock.readWaiting)) =
      some ((CString.ofLiteral "\r\nUSER a b c :d\r\n").bytes, false) := by
    decide +kernel
  obtain ⟨sock, reached, result⟩ := Option.map_eq_some_iff.mp left
  rw [Prod.mk.injEq] at result
  have announced := always.final reached (by
    rw [result.1]
    exact ⟨[cr, lf], (CString.ofLiteral "USER a b c :d").bytes, cr, [lf],
      by decide +kernel, by decide +kernel, by decide +kernel, rfl⟩)
  rw [result.2] at announced
  cases announced

end Hamchat
