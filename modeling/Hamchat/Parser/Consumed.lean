import Hamchat.Parser.Bounds
import Hamchat.Parser.Pending
import Hamchat.Parser.Tokens

/-!
# What one call consumes

`Client::Parse` should take the first line out of the buffer and leave what
follows it.  It moves the buffer up by the number of bytes that it has counted,
but it does not count blanks in front of the line, and it does not move the
buffer for a line without a parameter or with a prefix.
-/

namespace Hamchat

open Foundation

/-! ## The first line -/

/-- The text in a buffer is a line with its ending, behind blanks. -/
structure RecvBuf.FirstLine (recvbuf : RecvBuf) (blanks line : List UInt8)
    (ending : UInt8) (rest : List UInt8) : Prop where
  /-- The text is terminated inside the buffer. -/
  nulInside : recvbuf.NulInside
  /-- The parts of the text. -/
  text_eq : recvbuf.text = blanks ++ line ++ ending :: rest
  /-- The blanks are skipped. -/
  blanks_blank : ∀ byte ∈ blanks, isBlank byte = true
  /-- The line starts behind the blanks. -/
  line_start : ∃ byte ∈ line.head?, isBlank byte = false
  /-- The line goes on to its ending. -/
  line_inside : ∀ byte ∈ line, isLineEnd byte = false
  /-- The ending ends a line. -/
  ends : isLineEnd ending = true

/-- Up to leading line ends, a text is what was to stay. -/
def Leaves (text rest : List UInt8) : Prop :=
  text.dropWhile isLineEnd = rest.dropWhile isLineEnd

/-- The rest happens to be what stood before it, up to the first space behind the
colon of the prefix. -/
def Repeats (blanks line : List UInt8) (ending : UInt8) (rest : List UInt8) :
    Prop :=
  if sp ∈ line then
    rest.dropWhile isLineEnd =
      blanks.dropWhile isLineEnd ++ line.takeWhile (· ≠ sp)
  else
    blanks.dropWhile isLineEnd ≠ [] ∧
      rest.dropWhile isLineEnd =
        blanks.dropWhile isLineEnd ++ line ++
          ending :: rest.takeWhile isLineEnd

/-- The first line is counted as a whole and nothing else is: it has no prefix
and no blanks in front, and a parameter behind its first word.  A line with a
prefix is not counted. -/
def Counted (blanks line : List UInt8) (ending : UInt8)
    (rest : List UInt8) : Prop :=
  if line.head? = some colon then
    Repeats blanks line ending rest
  else
    blanks = [] ∧ SpaceAhead line

/-- More than line ends in front of the rest does not leave it. -/
theorem not_leaves {front rest : List UInt8} {ending byte : UInt8}
    (inFront : byte ∈ front) (inside : isLineEnd byte = false) :
    ¬Leaves (front ++ ending :: rest) rest := by
  intro leaves
  rw [Leaves, List.dropWhile_append] at leaves
  have more : front.dropWhile isLineEnd ≠ [] := by
    intro none
    rw [List.dropWhile_eq_nil_iff] at none
    have ends := none byte inFront
    rw [inside] at ends
    cases ends
  rw [if_neg (by simpa using more)] at leaves
  have lengths := congrArg List.length leaves
  have shorter := (List.dropWhile_suffix isLineEnd (l := rest)).length_le
  rw [List.length_append, List.length_cons] at lengths
  omega

/-! ## What a prefix leaves -/

/-- What comes before the first space behind the colon of a prefix. -/
def cutPrefix (blanks line : List UInt8) (ending : UInt8)
    (rest : List UInt8) : List UInt8 :=
  blanks ++ colon :: (line.tail ++ ending :: rest).takeWhile (· ≠ sp)

section Prefix

variable {blanks line rest : List UInt8} {ending : UInt8}

theorem dropWhile_append_colon (blanks text : List UInt8) :
    (blanks ++ colon :: text).dropWhile isLineEnd =
      blanks.dropWhile isLineEnd ++ colon :: text := by
  rw [List.dropWhile_append]
  split
  · rename_i empty
    rw [List.isEmpty_iff.mp empty, List.dropWhile_cons_of_neg (by decide),
      List.nil_append]
  · rfl

theorem ne_sp_of_isLineEnd {byte : UInt8} (ends : isLineEnd byte = true) :
    byte ≠ sp := by
  rintro rfl
  revert ends
  decide

/-- Line ends in front of a space are all that comes before it. -/
theorem takeWhile_ne_sp {text after : List UInt8}
    (space : text.dropWhile isLineEnd = sp :: after) :
    text.takeWhile (· ≠ sp) = text.takeWhile isLineEnd := by
  conv_lhs => rw [← List.takeWhile_append_dropWhile (p := isLineEnd) (l := text)]
  rw [space, List.takeWhile_append_of_pos, List.takeWhile_cons_of_neg
    (by simp), List.append_nil]
  intro byte member
  simpa using ne_sp_of_isLineEnd (List.mem_takeWhile_imp member)

/-- Without a space nothing is left out, which is more than the rest. -/
theorem not_leaves_of_no_space (noSpace : sp ∉ line) (ends : isLineEnd ending) :
    line ++ ending :: rest.takeWhile (· ≠ sp) ≠ rest.dropWhile isLineEnd := by
  intro same
  have whole : rest.takeWhile (· ≠ sp) = rest := by
    rw [List.takeWhile_eq_self_iff]
    intro byte member
    rw [← List.takeWhile_append_dropWhile (p := isLineEnd) (l := rest),
      ← same] at member
    rw [decide_eq_true_iff]
    rcases List.mem_append.mp member with inEnds | inRest
    · exact ne_sp_of_isLineEnd (List.mem_takeWhile_imp inEnds)
    rcases List.mem_append.mp inRest with inLine | inRest
    · rintro rfl
      exact noSpace inLine
    rcases List.mem_cons.mp inRest with rfl | inRest
    · exact ne_sp_of_isLineEnd ends
    · simpa using List.mem_takeWhile_imp inRest
  have lengths := congrArg List.length same
  have shorter := (List.dropWhile_suffix isLineEnd (l := rest)).length_le
  rw [whole, List.length_append, List.length_cons] at lengths
  omega

/-- Cutting behind a prefix leaves the rest only if the rest repeats what stood
before it. -/
theorem leaves_cutPrefix_iff (hasPrefix : line.head? = some colon)
    (blank : ∀ byte ∈ blanks, isBlank byte = true) (ends : isLineEnd ending) :
    Leaves (cutPrefix blanks line ending rest) rest ↔
      Repeats blanks line ending rest := by
  obtain ⟨more, rfl⟩ := List.head?_eq_some_iff.mp hasPrefix
  rw [Leaves, cutPrefix, dropWhile_append_colon, List.tail_cons, Repeats,
    eq_comm (a := blanks.dropWhile isLineEnd ++ _)]
  split
  · rename_i hasSpace
    have inMore : sp ∈ more := by simpa [Ne.symm colon_ne_sp] using hasSpace
    rw [takeWhile_append_of_mem inMore, List.takeWhile_cons_of_pos (by decide)]
  · rename_i noSpace
    have late : (more ++ ending :: rest).takeWhile (· ≠ sp) =
        more ++ ending :: rest.takeWhile (· ≠ sp) := by
      rw [List.takeWhile_append_of_pos,
        List.takeWhile_cons_of_pos (by simpa using ne_sp_of_isLineEnd ends)]
      intro byte member
      rw [decide_eq_true_iff]
      rintro rfl
      exact noSpace (List.mem_cons_of_mem _ member)
    rw [late, ← List.cons_append]
    cases front : blanks.dropWhile isLineEnd with
    | nil =>
        rw [List.nil_append]
        exact iff_of_false (fun same =>
          not_leaves_of_no_space noSpace ends same.symm) fun both =>
            both.1 rfl
    | cons byte after =>
        obtain rfl : byte = sp := by
          have notEnd := List.head?_dropWhile_not isLineEnd blanks
          have skipped := blank byte
            ((List.dropWhile_suffix isLineEnd).subset (by rw [front]; simp))
          rw [front] at notEnd
          simp only [List.head?_cons, isLineEnd] at notEnd
          simp only [isBlank] at skipped
          simp_all
        rw [and_iff_right (List.cons_ne_nil _ _), List.append_assoc]
        constructor
        · intro same
          rw [takeWhile_ne_sp same] at same
          exact same
        · intro same
          rw [takeWhile_ne_sp same]
          exact same

end Prefix

section FirstLine

variable {recvbuf : RecvBuf} {blanks line rest : List UInt8} {ending : UInt8}

/-- The text ends at a NUL. -/
theorem RecvBuf.FirstLine.bytes_eq
    (first : recvbuf.FirstLine blanks line ending rest) :
    ∃ after, recvbuf.bytes =
      blanks ++ line ++ ending :: rest ++ 0 :: after := by
  have whole := List.takeWhile_append_dropWhile (p := (· ≠ (0 : UInt8)))
    (l := recvbuf.bytes)
  cases found : recvbuf.bytes.dropWhile (· ≠ (0 : UInt8)) with
  | nil =>
      rw [List.dropWhile_eq_nil_iff] at found
      simpa using found 0 first.nulInside
  | cons byte after =>
      have stops := List.head?_dropWhile_not (· ≠ (0 : UInt8)) recvbuf.bytes
      rw [found] at stops
      obtain rfl : byte = 0 := by simpa using stops
      refine ⟨after, ?_⟩
      rw [← first.text_eq, RecvBuf.text, cBytes, ← found]
      exact whole.symm

/-- What the parser finds behind the blanks. -/
theorem RecvBuf.FirstLine.afterBlanks_eq
    (first : recvbuf.FirstLine blanks line ending rest) :
    recvbuf.blanks = blanks.length ∧
      ∃ after, recvbuf.afterBlanks = line ++ ending :: rest ++ 0 :: after := by
  obtain ⟨after, bytes⟩ := first.bytes_eq
  obtain ⟨start, atStart, notBlank⟩ := first.line_start
  obtain ⟨more, lineEq⟩ := List.head?_eq_some_iff.mp atStart
  have stop : ¬isBlank start = true := by simp [notBlank]
  rw [RecvBuf.blanks, RecvBuf.afterBlanks, bytes, List.append_assoc,
    List.append_assoc, List.takeWhile_append_of_pos first.blanks_blank,
    List.dropWhile_append_of_pos first.blanks_blank, lineEq,
    List.cons_append, List.takeWhile_cons_of_neg stop,
    List.dropWhile_cons_of_neg stop, List.append_nil]
  exact ⟨rfl, after, by simp⟩

theorem RecvBuf.FirstLine.line_stop
    (first : recvbuf.FirstLine blanks line ending rest) :
    ∀ byte ∈ line, isStop byte = false := by
  intro byte member
  have inText : byte ∈ recvbuf.text := by
    rw [first.text_eq]
    simp [member]
  have notNul : byte ≠ 0 := by
    simpa using List.mem_takeWhile_imp inText
  have inside := first.line_inside byte member
  simp only [isLineEnd, isStop, Bool.or_eq_false_iff] at inside ⊢
  exact ⟨⟨by simpa using notNul, inside.1⟩, inside.2⟩

/-- The first line decides whether a parameter is found. -/
theorem RecvBuf.FirstLine.spaceAhead_iff
    (first : recvbuf.FirstLine blanks line ending rest)
    (after : List UInt8) :
    SpaceAhead (line ++ ending :: after) ↔ SpaceAhead line := by
  have stops := isStop_of_isLineEnd first.ends
  rw [SpaceAhead, SpaceAhead, List.takeWhile_append]
  split
  · rename_i whole
    have same := (List.takeWhile_prefix isPlain (l := line)).eq_of_length whole
    rw [List.takeWhile_cons_of_neg (by simp [isPlain, stops]),
      List.append_nil, same]
  · rfl

/-- Some byte of the line is behind any smaller number of bytes. -/
theorem RecvBuf.FirstLine.exists_mem_drop
    (first : recvbuf.FirstLine blanks line ending rest) (count : Nat)
    (less : count < (blanks ++ line).length) :
    ∃ byte ∈ (blanks ++ line).drop count, isLineEnd byte = false := by
  obtain ⟨start, atStart, -⟩ := first.line_start
  have nonempty : line ≠ [] := by
    rintro rfl
    cases atStart
  refine ⟨line.getLast nonempty, ?_,
    first.line_inside _ (List.getLast_mem nonempty)⟩
  have last : (blanks ++ line).getLast (by simp [nonempty]) =
      line.getLast nonempty := List.getLast_append_of_ne_nil _ nonempty
  rw [← last, ← List.getLast_drop (by simpa using less)]
  exact List.getLast_mem _

/-- Behind the blanks the parser finds the first byte of the line. -/
theorem RecvBuf.FirstLine.exists_afterBlanks
    (first : recvbuf.FirstLine blanks line ending rest)
    (noPrefix : line.head? ≠ some colon) :
    ∃ start more after, line = start :: more ∧ start ≠ colon ∧
      recvbuf.afterBlanks = start :: (more ++ ending :: (rest ++ 0 :: after)) := by
  obtain ⟨start, atStart, -⟩ := first.line_start
  obtain ⟨more, rfl⟩ := List.head?_eq_some_iff.mp atStart
  obtain ⟨-, after, found⟩ := first.afterBlanks_eq
  refine ⟨start, more, after, rfl, by simpa using noPrefix, ?_⟩
  rw [found]
  simp

/-- Moving the text up keeps what is behind the bytes that go. -/
theorem RecvBuf.FirstLine.moveDown_text
    (first : recvbuf.FirstLine blanks line ending rest) {count : Nat}
    (less : count ≤ (blanks ++ line).length) :
    (recvbuf.moveDown count).text =
      (blanks ++ line).drop count ++ ending :: rest := by
  obtain ⟨after, bytes⟩ := first.bytes_eq
  have nulFree : ∀ byte ∈ (blanks ++ line).drop count ++ ending :: rest,
      decide (byte ≠ 0) = true := by
    intro byte member
    refine List.mem_takeWhile_imp (p := (· ≠ 0)) (l := recvbuf.bytes) ?_
    change byte ∈ recvbuf.text
    rw [first.text_eq]
    rcases List.mem_append.mp member with inFront | inRest
    · exact List.mem_append_left _ (List.mem_of_mem_drop inFront)
    · exact List.mem_append_right _ inRest
  rw [RecvBuf.text, RecvBuf.moveDown_bytes, cBytes, bytes,
    List.append_assoc _ (ending :: rest), List.drop_append_of_le_length less,
    ← List.append_assoc _ (ending :: rest), List.append_assoc _ (0 :: after),
    List.takeWhile_append_of_pos nulFree]
  simp

theorem take_takeWhile_append (text more : List UInt8) (p : UInt8 → Bool) :
    text.take ((text ++ more).takeWhile p).length = text.takeWhile p := by
  rw [List.takeWhile_append]
  split
  · rename_i whole
    rw [List.length_append, List.take_of_length_le (Nat.le_add_right _ _),
      (List.takeWhile_prefix p).eq_of_length whole]
  · exact (List.prefix_iff_eq_take.mp (List.takeWhile_prefix p)).symm

/-- What a line with a prefix leaves. -/
theorem RecvBuf.FirstLine.kept_prefix
    (first : recvbuf.FirstLine blanks line ending rest)
    (hasPrefix : line.head? = some colon) :
    recvbuf.kept = cutPrefix blanks line ending rest := by
  obtain ⟨more, rfl⟩ := List.head?_eq_some_iff.mp hasPrefix
  obtain ⟨blanksEq, after, found⟩ := first.afterBlanks_eq
  have found' : recvbuf.afterBlanks =
      colon :: ((more ++ ending :: rest) ++ 0 :: after) := by
    rw [found]
    simp
  have textEq : recvbuf.text = blanks ++ colon :: (more ++ ending :: rest) := by
    rw [first.text_eq]
    simp
  rw [RecvBuf.kept, found']
  dsimp only
  rw [if_pos rfl, blanksEq, textEq, Nat.add_assoc, List.take_length_add_append,
    Nat.add_comm 1, List.take_succ_cons, take_takeWhile_append]
  rfl

/-- What a line with a parameter leaves. -/
theorem RecvBuf.FirstLine.kept_line
    (first : recvbuf.FirstLine blanks line ending rest)
    (noPrefix : line.head? ≠ some colon) (ahead : SpaceAhead line) :
    recvbuf.kept = (blanks ++ line).drop line.length ++ ending :: rest := by
  obtain ⟨start, more, after, rfl, plain, found⟩ :=
    first.exists_afterBlanks noPrefix
  have bytes : lineBytes ((start :: more) ++ ending :: (rest ++ 0 :: after)) =
      start :: more := by
    rw [lineBytes, List.takeWhile_append_of_pos (by simpa using first.line_stop),
      List.takeWhile_cons_of_neg
        (by simp [isStop_of_isLineEnd first.ends]), List.append_nil]
  have ahead' := (first.spaceAhead_iff (rest ++ 0 :: after)).mpr ahead
  rw [List.cons_append] at bytes ahead'
  rw [RecvBuf.kept, found]
  dsimp only
  rw [if_neg plain, if_pos ahead', bytes]
  exact first.moveDown_text (by simp)

/-- What any other line leaves. -/
theorem RecvBuf.FirstLine.kept_bare
    (first : recvbuf.FirstLine blanks line ending rest)
    (noPrefix : line.head? ≠ some colon) (bare : ¬SpaceAhead line) :
    recvbuf.kept = blanks ++ line ++ ending :: rest := by
  obtain ⟨start, more, after, rfl, plain, found⟩ :=
    first.exists_afterBlanks noPrefix
  have bare' := (first.spaceAhead_iff (rest ++ 0 :: after)).not.mpr bare
  rw [RecvBuf.kept_bare found plain bare', first.text_eq]

end FirstLine

/-! ## One call -/

section Parse

variable {server : Server ω} {world nextWorld : ω}
variable {client nextClient : Client} {sock next : Socket}
variable {parsed : Parsed ω} {value : Bool}
variable {blanks line rest : List UInt8} {ending : UInt8}

/-- A call that finds the lock released leaves `kept`. -/
theorem Client.parse_kept (unlocked : sock.recvbufLock = false)
    (returned : client.parse server world sock = some parsed)
    (alive : parsed.result = .returned value nextWorld nextClient next) :
    next.recvbuf.text = sock.recvbuf.kept := by
  rcases Client.parse_text unlocked returned alive with
    ⟨⟨more, found⟩, -, -⟩ | ⟨-, -, text⟩
  · rcases Client.parse_eq_some unlocked returned with
      ⟨recvbuf, head, rfl⟩ | ⟨recvbuf, buf, sender, consumed, tokens, head, -⟩
    · cases alive
      obtain ⟨first, rest, found', ways⟩ := parseHead_eq_some head
      rcases ways with ⟨-, equal⟩ | ⟨-, -, equal⟩ | ⟨rfl, search, equal⟩ |
        ⟨-, _, -, -, equal⟩
      · cases equal
      · cases equal
      · cases equal
        exact RecvBuf.kept_prefix found' (.inr ⟨0, search, rfl⟩)
      · cases equal
    · obtain ⟨after, equal⟩ := (parseHead_emptyPrefix head).mpr ⟨more, found⟩
      cases equal
  · exact text

/-- A call leaves exactly what follows the first line if and only if it finds
the lock released, and counts this line. -/
theorem Client.parse_leaves_iff
    (first : sock.recvbuf.FirstLine blanks line ending rest)
    (returned : client.parse server world sock = some parsed)
    (alive : parsed.result = .returned value nextWorld nextClient next) :
    Leaves next.recvbuf.text rest ↔
      sock.recvbufLock = false ∧ Counted blanks line ending rest := by
  obtain ⟨byte, inLine, inside⟩ := first.exists_mem_drop 0 (by
    obtain ⟨start, atStart, -⟩ := first.line_start
    obtain ⟨more, rfl⟩ := List.head?_eq_some_iff.mp atStart
    simp only [List.length_append, List.length_cons]
    omega)
  rw [List.drop_zero] at inLine
  cases locked : sock.recvbufLock with
  | true =>
      rw [Client.parse_locked locked, Option.some.injEq] at returned
      subst returned
      cases alive
      rw [first.text_eq]
      exact iff_of_false (not_leaves inLine inside) (by simp)
  | false =>
      rw [Client.parse_kept locked returned alive, Counted,
        and_iff_right rfl]
      split
      · rename_i hasPrefix
        rw [first.kept_prefix hasPrefix]
        exact leaves_cutPrefix_iff hasPrefix first.blanks_blank first.ends
      · rename_i noPrefix
        by_cases ahead : SpaceAhead line
        · rw [first.kept_line noPrefix ahead, and_iff_left ahead]
          constructor
          · intro leaves
            by_contra some
            obtain ⟨byte, inDrop, inside⟩ := first.exists_mem_drop
              line.length (by
                have positive := List.length_pos_iff.mpr some
                rw [List.length_append]
                omega)
            exact not_leaves inDrop inside leaves
          · rintro rfl
            rw [List.nil_append, List.drop_length, List.nil_append, Leaves,
              List.dropWhile_cons_of_pos first.ends]
        · rw [first.kept_bare noPrefix ahead]
          exact iff_of_false (not_leaves inLine inside)
            fun counted => ahead counted.2

end Parse

/-- The buffer that has received a line and more. -/
theorem firstLine_clean (text line : String) (ending : UInt8) (rest : String)
    (parts : (CString.ofLiteral text).bytes =
      (CString.ofLiteral line).bytes ++
        ending :: (CString.ofLiteral rest).bytes)
    (short : (CString.ofLiteral text).bytes.length < bufferMax)
    (start : ∃ byte ∈ (CString.ofLiteral line).bytes.head?,
      isBlank byte = false)
    (inside : ∀ byte ∈ (CString.ofLiteral line).bytes,
      isLineEnd byte = false)
    (ends : isLineEnd ending = true) :
    (RecvBuf.clean (CString.ofLiteral text).bytes).FirstLine []
      (CString.ofLiteral line).bytes ending (CString.ofLiteral rest).bytes := by
  have bytes := RecvBuf.clean_bytes short.le
  obtain ⟨zeros, more⟩ : ∃ zeros, bufferMax -
      (CString.ofLiteral text).bytes.length = zeros + 1 :=
    Nat.exists_eq_add_one.mpr (Nat.sub_pos_of_lt short)
  rw [more, List.replicate_succ] at bytes
  refine ⟨?_, ?_, fun byte member => ?_, start, inside, ends⟩
  · rw [RecvBuf.NulInside, bytes]
    simp
  · rw [RecvBuf.text, cBytes, bytes, List.takeWhile_append_of_pos,
      List.takeWhile_cons_of_neg (by simp), List.append_nil, parts]
    · rfl
    · intro byte member
      simpa using (CString.ofLiteral text).nulFree byte member
  · cases member

theorem parse_leaves_iff_nick :
    ∃ (parsed : Parsed Unit) (value : Bool) (nextClient : Client)
        (next : Socket),
      freshClient.parse idleServer ()
          (.clean (CString.ofLiteral "NICK W1AW\r\nMOTD\r\n").bytes) =
        some parsed ∧
      parsed.result = .returned value () nextClient next ∧
      (Leaves next.recvbuf.text (CString.ofLiteral "\nMOTD\r\n").bytes ↔
        (Socket.clean
            (CString.ofLiteral "NICK W1AW\r\nMOTD\r\n").bytes).recvbufLock =
          false ∧
        Counted [] (CString.ofLiteral "NICK W1AW").bytes cr
          (CString.ofLiteral "\nMOTD\r\n").bytes) := by
  have first := firstLine_clean "NICK W1AW\r\nMOTD\r\n" "NICK W1AW" cr
    "\nMOTD\r\n" (by decide +kernel) (by decide +kernel)
    ⟨78, by decide +kernel, by decide⟩ (by decide +kernel) (by decide)
  have stepped : (Socket.step idleServer
      (.clean (CString.ofLiteral "NICK W1AW\r\nMOTD\r\n").bytes)
      (.parse () freshClient)).isSome = true := by
    decide +kernel
  obtain ⟨next, stepped⟩ := Option.isSome_iff_exists.mp stepped
  obtain ⟨parsed, value, _, nextClient, returned, alive⟩ :=
    Socket.step_parse.mp stepped
  exact ⟨parsed, value, nextClient, next, returned, alive,
    Client.parse_leaves_iff first returned alive⟩

/-- A line without a parameter stays in the buffer. -/
theorem bare_line_stays :
    ∃ (parsed : Parsed Unit) (value : Bool) (nextClient : Client)
        (next : Socket),
      (RecvBuf.clean
          (CString.ofLiteral "MOTD\r\nNICK W1AW\r\n").bytes).FirstLine []
        (CString.ofLiteral "MOTD").bytes cr
        (CString.ofLiteral "\nNICK W1AW\r\n").bytes ∧
      freshClient.parse idleServer ()
          (.clean (CString.ofLiteral "MOTD\r\nNICK W1AW\r\n").bytes) =
        some parsed ∧
      parsed.result = .returned value () nextClient next ∧
      ¬Leaves next.recvbuf.text
        (CString.ofLiteral "\nNICK W1AW\r\n").bytes := by
  have first := firstLine_clean "MOTD\r\nNICK W1AW\r\n" "MOTD" cr
    "\nNICK W1AW\r\n" (by decide +kernel) (by decide +kernel)
    ⟨77, by decide +kernel, by decide⟩ (by decide +kernel) (by decide)
  have left : (Socket.step idleServer
      (.clean (CString.ofLiteral "MOTD\r\nNICK W1AW\r\n").bytes)
      (.parse () freshClient)).map (fun sock => sock.recvbuf.text) =
        some (CString.ofLiteral "MOTD\r\nNICK W1AW\r\n").bytes := by
    decide +kernel
  obtain ⟨next, stepped, text⟩ := Option.map_eq_some_iff.mp left
  obtain ⟨parsed, value, _, nextClient, returned, alive⟩ :=
    Socket.step_parse.mp stepped
  refine ⟨parsed, value, nextClient, next, first, returned, alive, ?_⟩
  have different : (CString.ofLiteral "MOTD\r\nNICK W1AW\r\n").bytes.dropWhile
      isLineEnd ≠ (CString.ofLiteral "\nNICK W1AW\r\n").bytes.dropWhile
        isLineEnd := by
    decide +kernel
  rw [Leaves, text]
  exact different

end Hamchat
