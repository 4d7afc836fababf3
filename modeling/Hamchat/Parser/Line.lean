import Hamchat.Parser.Steps

/-!
# Splitting one line

What the loop of `Client::Parse` sees of the buffer: it stops at the end of the
line, and it finds a second parameter only behind a space that comes before any
colon.
-/

namespace Hamchat

/-- A longer initial part satisfies a weaker predicate. -/
theorem takeWhile_subset {memory : List UInt8} {strong weak : UInt8 → Bool}
    (implies : ∀ byte, strong byte = true → weak byte = true) :
    memory.takeWhile strong ⊆ memory.takeWhile weak := by
  induction memory with
  | nil => simp
  | cons byte rest inductionHypothesis =>
      by_cases passes : strong byte = true
      · rw [List.takeWhile_cons_of_pos passes,
          List.takeWhile_cons_of_pos (implies byte passes)]
        exact List.cons_subset_cons byte inductionHypothesis
      · rw [List.takeWhile_cons_of_neg passes]
        exact List.nil_subset _

/-! ## Searching for a character -/

/-- The C string at the start of a memory block. -/
def cBytes (memory : List UInt8) : List UInt8 := memory.takeWhile (· ≠ 0)

/-- A search ends at the first byte that is the character or NUL. -/
theorem strchr_eq_some {char : UInt8} {memory : List UInt8}
    {found : Option Nat} (search : strchr char memory = some found) :
    ∃ front stop rest, memory = front ++ stop :: rest ∧
      (∀ byte ∈ front, byte ≠ char ∧ byte ≠ 0) ∧
      (stop = char ∧ found = some front.length ∨
        stop ≠ char ∧ stop = 0 ∧ found = none) := by
  induction memory generalizing found with
  | nil => cases search
  | cons byte rest inductionHypothesis =>
      rw [strchr] at search
      by_cases same : byte = char
      · rw [if_pos same, Option.some.injEq] at search
        exact ⟨[], byte, rest, rfl, by simp, .inl ⟨same, search.symm⟩⟩
      rw [if_neg same] at search
      by_cases nul : byte = 0
      · rw [if_pos nul, Option.some.injEq] at search
        exact ⟨[], byte, rest, rfl, by simp, .inr ⟨same, nul, search.symm⟩⟩
      rw [if_neg nul, Option.map_eq_some_iff] at search
      obtain ⟨earlier, search, rfl⟩ := search
      obtain ⟨front, stop, behind, rfl, passed, ends⟩ :=
        inductionHypothesis search
      refine ⟨byte :: front, stop, behind, rfl,
        List.forall_mem_cons.mpr ⟨⟨same, nul⟩, passed⟩, ?_⟩
      rcases ends with ⟨isChar, rfl⟩ | ⟨other, isNul, rfl⟩
      · exact .inl ⟨isChar, rfl⟩
      · exact .inr ⟨other, isNul, rfl⟩

/-- A search that ends has decided whether the string holds the character. -/
theorem strchr_isSome_iff {char : UInt8} (notNul : char ≠ 0)
    {memory : List UInt8} {found : Option Nat}
    (search : strchr char memory = some found) :
    found.isSome = true ↔ char ∈ cBytes memory := by
  obtain ⟨front, stop, rest, rfl, passed, ends⟩ := strchr_eq_some search
  have inside : cBytes (front ++ stop :: rest) =
      front ++ cBytes (stop :: rest) :=
    List.takeWhile_append_of_pos fun byte member => by
      simpa using (passed byte member).2
  have absent : char ∉ front := fun member => (passed char member).1 rfl
  rw [inside, List.mem_append, or_iff_right absent]
  rcases ends with ⟨rfl, rfl⟩ | ⟨-, rfl, rfl⟩
  · simp [cBytes, notNul]
  · simp [cBytes]

/-- A line ending is waiting exactly if the string in the buffer has one. -/
theorem lineWaiting_iff {buf : RecvBuf} {waiting : Bool}
    (search : lineWaiting buf = some waiting) :
    waiting = true ↔ cr ∈ cBytes buf.bytes ∨ lf ∈ cBytes buf.bytes := by
  rw [lineWaiting, Option.bind_eq_bind, Option.bind_eq_some_iff] at search
  obtain ⟨carriage, searchCr, search⟩ := search
  have hasCr := strchr_isSome_iff (by decide) searchCr
  split at search
  · rename_i found
    rw [Option.some.injEq] at search
    simp [← search, hasCr.mp found]
  · rename_i missing
    rw [Option.bind_eq_some_iff] at search
    obtain ⟨feed, searchLf, search⟩ := search
    have hasLf := strchr_isSome_iff (by decide) searchLf
    rw [Option.some.injEq] at search
    rw [← search, hasLf, ← hasCr]
    simp [missing]

/-! ## The loop -/

/-- The variables of the loop for a line without a prefix. -/
def Tokens.start (client : Client) : Tokens :=
  ⟨[⟨hostNameMax, client.callsign.bytes⟩, ⟨cmdLen, []⟩], 1, false, 0⟩

/-- A byte at which the loop stops. -/
def isStop (byte : UInt8) : Bool := byte == 0 || byte == cr || byte == lf

theorem isStop_iff {byte : UInt8} :
    isStop byte = true ↔ byte = 0 ∨ byte = cr ∨ byte = lf := by
  simp [isStop, or_assoc]

/-- The loop goes on at no NUL. -/
theorem ne_nul_of_isStop {byte : UInt8} (goesOn : isStop byte = false) :
    byte ≠ 0 := by
  rintro rfl
  cases goesOn

/-- A byte that ends a line. -/
def isLineEnd (byte : UInt8) : Bool := byte == cr || byte == lf

theorem isBlank_of_isLineEnd {byte : UInt8} (ends : isLineEnd byte = true) :
    isBlank byte = true := by
  simp only [isLineEnd, Bool.or_eq_true, beq_iff_eq] at ends
  rcases ends with rfl | rfl <;> decide

theorem isStop_of_isLineEnd {byte : UInt8} (ends : isLineEnd byte = true) :
    isStop byte = true := by
  simp only [isLineEnd, Bool.or_eq_true, beq_iff_eq] at ends
  rcases ends with rfl | rfl <;> decide

/-- The loop does not look beyond the first stop. -/
theorem tokenLoop_stop {line : List UInt8}
    (inside : ∀ byte ∈ line, isStop byte = false) {stop : UInt8}
    (stops : isStop stop = true) (rest : List UInt8) (tokens : Tokens) :
    tokenLoop (line ++ stop :: rest) tokens =
      tokenLoop (line ++ [0]) tokens := by
  induction line generalizing tokens with
  | nil =>
      rw [List.nil_append, List.nil_append, tokenLoop, tokenLoop]
      simp only [isStop_iff.mp stops, if_true, true_or]
  | cons byte line inductionHypothesis =>
      have later := inductionHypothesis
        fun other member => inside other (List.mem_cons_of_mem _ member)
      simp only [List.cons_append, tokenLoop, later]

theorem Tokens.allocate_eq_some {tokens next : Tokens}
    (allocated : tokens.allocate = some next) :
    next.parc = tokens.parc ∧ next.finalArg = tokens.finalArg ∧
      next.bytesConsumed = tokens.bytesConsumed := by
  rw [Tokens.allocate] at allocated
  split at allocated
  · cases allocated
  · split at allocated
    · obtain rfl := Option.some.inj allocated
      exact ⟨rfl, rfl, rfl⟩
    · split at allocated
      · obtain rfl := Option.some.inj allocated
        exact ⟨rfl, rfl, rfl⟩
      · cases allocated

theorem Tokens.copyByte_eq_some {tokens next : Tokens} {byte : UInt8}
    (copied : tokens.copyByte byte = some next) :
    next.parc = tokens.parc ∧ next.finalArg = tokens.finalArg ∧
      next.bytesConsumed = tokens.bytesConsumed + 1 := by
  rw [Tokens.copyByte, Option.bind_eq_bind, Option.bind_eq_some_iff] at copied
  obtain ⟨block, -, copied⟩ := copied
  rw [Option.bind_eq_some_iff] at copied
  obtain ⟨stored, -, copied⟩ := copied
  obtain rfl := Option.some.inj copied
  exact ⟨rfl, rfl, rfl⟩

/-- A byte that neither stops the loop nor starts the final parameter. -/
def isPlain (byte : UInt8) : Bool := !isStop byte && byte != colon

/-- A space starts a new parameter: it comes before the end of the line and
before any colon. -/
def SpaceAhead (memory : List UInt8) : Prop := sp ∈ memory.takeWhile isPlain

instance (memory : List UInt8) : Decidable (SpaceAhead memory) :=
  inferInstanceAs (Decidable (_ ∈ _))

/-- One turn of the loop: it stops, or it takes one byte, which starts a
parameter, starts the final parameter, or belongs to the current one. -/
theorem tokenLoop_cons {byte : UInt8} {rest : List UInt8}
    {tokens final : Tokens}
    (split : tokenLoop (byte :: rest) tokens = some final) :
    isStop byte = true ∧ final.parc = tokens.parc ∧
        final.bytesConsumed = tokens.bytesConsumed ∨
      isStop byte = false ∧ ∃ next, tokenLoop rest next = some final ∧
        next.bytesConsumed = tokens.bytesConsumed + 1 ∧
        (tokens.finalArg = false ∧ byte = sp ∧
            next.parc = tokens.parc + 1 ∧ next.finalArg = false ∨
          tokens.finalArg = false ∧ byte = colon ∧
            next.parc = tokens.parc ∧ next.finalArg = true ∨
          (tokens.finalArg = true ∨ byte ≠ sp ∧ byte ≠ colon) ∧
            next.parc = tokens.parc ∧ next.finalArg = tokens.finalArg) := by
  rw [tokenLoop, Option.bind_eq_bind, Option.bind_eq_some_iff] at split
  obtain ⟨allocated, allocation, split⟩ := split
  obtain ⟨parcEq, finalEq, consumedEq⟩ :=
    Tokens.allocate_eq_some allocation
  rw [← parcEq, ← finalEq, ← consumedEq]
  split at split
  · rename_i stops
    obtain rfl := Option.some.inj split
    exact .inl ⟨isStop_iff.mpr stops, rfl, rfl⟩
  · rename_i goesOn
    rw [← isStop_iff, Bool.not_eq_true] at goesOn
    refine .inr ⟨goesOn, ?_⟩
    split at split
    · rename_i space
      exact ⟨_, split, rfl, .inl ⟨space.1, space.2, rfl, space.1⟩⟩
    · rename_i noSpace
      split at split
      · rename_i isColon
        exact ⟨_, split, rfl, .inr (.inl ⟨isColon.1, isColon.2, rfl, rfl⟩)⟩
      · rename_i noColon
        rw [Option.bind_eq_some_iff] at split
        obtain ⟨copied, copy, split⟩ := split
        obtain ⟨parcCopied, finalCopied, consumedCopied⟩ :=
          Tokens.copyByte_eq_some copy
        refine ⟨copied, split, consumedCopied,
          .inr (.inr ⟨?_, parcCopied, finalCopied⟩)⟩
        cases isFinal : allocated.finalArg with
        | true => exact .inl rfl
        | false =>
            exact .inr ⟨fun same => noSpace ⟨isFinal, same⟩,
              fun same => noColon ⟨isFinal, same⟩⟩

/-- Such a space is the next byte, or it comes after a plain one. -/
theorem spaceAhead_cons {byte : UInt8} {rest : List UInt8} :
    SpaceAhead (byte :: rest) ↔
      isPlain byte = true ∧ (byte = sp ∨ SpaceAhead rest) := by
  rw [SpaceAhead, List.takeWhile_cons]
  split
  · rename_i plain
    rw [List.mem_cons, eq_comm, ← SpaceAhead]
    simp [plain]
  · rename_i notPlain
    simp [notPlain]

/-- Without such a space, or after a colon, no parameter is added. -/
theorem tokenLoop_parc {memory : List UInt8} {tokens final : Tokens}
    (quiet : tokens.finalArg = true ∨ ¬SpaceAhead memory)
    (split : tokenLoop memory tokens = some final) :
    final.parc = tokens.parc := by
  induction memory generalizing tokens with
  | nil => cases split
  | cons byte rest inductionHypothesis =>
      rcases tokenLoop_cons split with ⟨-, parcEq, -⟩ |
        ⟨goesOn, next, later, -, ⟨notFinal, rfl, -⟩ |
          ⟨-, -, parcEq, isFinal⟩ | ⟨inside, parcEq, finalEq⟩⟩
      · exact parcEq
      · rcases quiet with isFinal | noSpace
        · rw [isFinal] at notFinal
          cases notFinal
        · exact absurd (spaceAhead_cons.mpr ⟨by decide, .inl rfl⟩) noSpace
      · exact (inductionHypothesis (.inl isFinal) later).trans parcEq
      · refine (inductionHypothesis ?_ later).trans parcEq
        rw [finalEq]
        rcases quiet with isFinal | noSpace
        · exact .inl isFinal
        · refine inside.imp_right fun plain ahead => noSpace ?_
          exact spaceAhead_cons.mpr
            ⟨by simp [isPlain, goesOn, plain.2], .inr ahead⟩

/-- The loop removes no parameter. -/
theorem tokenLoop_parc_le {memory : List UInt8} {tokens final : Tokens}
    (split : tokenLoop memory tokens = some final) :
    tokens.parc ≤ final.parc := by
  induction memory generalizing tokens with
  | nil => cases split
  | cons byte rest inductionHypothesis =>
      rcases tokenLoop_cons split with ⟨-, parcEq, -⟩ |
        ⟨-, next, later, -, ⟨-, -, parcEq, -⟩ | ⟨-, -, parcEq, -⟩ |
          ⟨-, parcEq, -⟩⟩
      · exact parcEq.ge
      · have more := inductionHypothesis later
        omega
      · exact parcEq ▸ inductionHypothesis later
      · exact parcEq ▸ inductionHypothesis later

/-- With such a space a parameter is added. -/
theorem tokenLoop_parc_lt {memory : List UInt8} {tokens final : Tokens}
    (notFinal : tokens.finalArg = false) (ahead : SpaceAhead memory)
    (split : tokenLoop memory tokens = some final) :
    tokens.parc < final.parc := by
  induction memory generalizing tokens with
  | nil => cases split
  | cons byte rest inductionHypothesis =>
      obtain ⟨plain, ahead⟩ := spaceAhead_cons.mp ahead
      simp only [isPlain, Bool.and_eq_true, Bool.not_eq_true', bne_iff_ne]
        at plain
      rcases tokenLoop_cons split with ⟨stops, -⟩ |
        ⟨-, next, later, -, ⟨-, -, parcEq, -⟩ | ⟨-, isColon, -⟩ |
          ⟨inside, parcEq, finalEq⟩⟩
      · rw [plain.1] at stops
        cases stops
      · have more := tokenLoop_parc_le later
        omega
      · exact absurd isColon plain.2
      · rcases inside with isFinal | ⟨noSpace, -⟩
        · rw [notFinal] at isFinal
          cases isFinal
        · exact parcEq ▸ inductionHypothesis (finalEq.trans notFinal)
            (ahead.resolve_left noSpace) later

/-- The bytes of the first line. -/
def lineBytes (memory : List UInt8) : List UInt8 :=
  memory.takeWhile fun byte => !isStop byte

/-- The loop consumes the first line, and what follows it is inside the
memory. -/
theorem tokenLoop_bytesConsumed {memory : List UInt8} {tokens final : Tokens}
    (split : tokenLoop memory tokens = some final) :
    final.bytesConsumed = tokens.bytesConsumed + (lineBytes memory).length ∧
      (lineBytes memory).length < memory.length := by
  induction memory generalizing tokens with
  | nil => cases split
  | cons byte rest inductionHypothesis =>
      rcases tokenLoop_cons split with ⟨stops, -, consumed⟩ |
        ⟨goesOn, next, later, consumed, -⟩
      · simp [lineBytes, stops, consumed]
      · obtain ⟨laterConsumed, inside⟩ := inductionHypothesis later
        rw [lineBytes, List.takeWhile_cons_of_pos (by simp [goesOn]),
          ← lineBytes, List.length_cons, List.length_cons]
        omega

/-- After the blanks the buffer holds a line with a parameter. -/
def CommandAt (memory : List UInt8) : Prop :=
  SpaceAhead (memory.dropWhile isBlank)

instance (memory : List UInt8) : Decidable (CommandAt memory) :=
  inferInstanceAs (Decidable (SpaceAhead _))

/-! ## A call, by what the buffer holds -/

/-- A prefix does not let a parameter through. -/
theorem tokenLoop_parc_of_strchr {rest : List UInt8} {tokens final : Tokens}
    (search : strchr sp rest = some none)
    (split : tokenLoop rest tokens = some final) :
    final.parc = tokens.parc := by
  refine tokenLoop_parc (.inr fun ahead => ?_) split
  have absent := (strchr_isSome_iff (by decide) search).not.mp (by simp)
  refine absent (takeWhile_subset (fun byte plain => ?_) ahead)
  rw [isPlain, Bool.and_eq_true, Bool.not_eq_true'] at plain
  simpa using ne_nul_of_isStop plain.1

/-- The socket after a call that leaves a prefixed line in the buffer: the lock
is kept, or at most one byte after the colon is overwritten. -/
def Socket.LeavesPrefix (sock next : Socket) : Prop :=
  next.recvbufLock = true ∨
    next.recvbufLock = false ∧ next.readWaiting = false ∧
      next.recvbufOffset = sock.recvbufOffset ∧
      (next.recvbuf = sock.recvbuf ∨ ∃ i, sock.recvbuf.blanks < i ∧
        next.recvbuf = sock.recvbuf.set i 0)

section Cases

variable {server : Server ω} {world : ω} {client : Client} {sock : Socket}
variable {parsed : Parsed ω}

/-- With a prefix no parameter is found, and the space behind the prefix is
overwritten. -/
theorem tokenLoop_prefix {rest : List UInt8} {recvbuf : RecvBuf} {buf : Nat}
    {sender : Block} {consumed : Nat} {tokens : Tokens}
    (head : parseHead client sock.recvbuf =
      some (.line recvbuf buf sender consumed))
    (found : sock.recvbuf.afterBlanks = colon :: rest)
    (split : tokenLoop (recvbuf.bytes.drop buf)
      ⟨[sender, ⟨cmdLen, []⟩], 1, false, consumed⟩ = some tokens) :
    tokens.parc = 1 ∧
      (strchr sp rest = some none ∧ recvbuf = sock.recvbuf ∨
        ∃ eaten, strchr sp rest = some (some eaten) ∧
          recvbuf = sock.recvbuf.set (sock.recvbuf.blanks + 1 + eaten) 0) := by
  obtain ⟨first, rest', found', heads⟩ := parseHead_eq_some head
  rw [found, List.cons.injEq] at found'
  obtain ⟨rfl, rfl⟩ := found'
  rcases heads with ⟨notColon, -⟩ | ⟨-, search, equal⟩ | ⟨-, -, equal⟩ |
    ⟨-, eaten, positive, search, equal⟩
  · exact absurd rfl notColon
  · simp only [Head.line.injEq] at equal
    obtain ⟨rfl, rfl, rfl, rfl⟩ := equal
    have afterColon : sock.recvbuf.bytes.drop (sock.recvbuf.blanks + 1) =
        rest := by
      rw [← List.tail_drop, sock.recvbuf.drop_blanks, found, List.tail_cons]
    rw [afterColon] at split
    exact ⟨tokenLoop_parc_of_strchr search split, .inl ⟨search, rfl⟩⟩
  · cases equal
  · simp only [Head.line.injEq] at equal
    obtain ⟨rfl, rfl, rfl, rfl⟩ := equal
    refine ⟨?_, .inr ⟨eaten, search, rfl⟩⟩
    -- The loop starts on the byte that has just been overwritten.
    refine tokenLoop_parc (.inr ?_) split
    rw [SpaceAhead, RecvBuf.set_bytes]
    cases dropped : (sock.recvbuf.bytes.set
        (sock.recvbuf.blanks + 1 + eaten) 0).drop
          (sock.recvbuf.blanks + 1 + eaten) with
    | nil => simp
    | cons byte after =>
        have atStart := List.head?_drop (l := sock.recvbuf.bytes.set
          (sock.recvbuf.blanks + 1 + eaten) 0)
          (i := sock.recvbuf.blanks + 1 + eaten)
        rw [dropped, List.head?_cons, List.getElem?_set] at atStart
        simp only [if_true] at atStart
        split at atStart
        · obtain rfl := Option.some.inj atStart
          rw [List.takeWhile_cons_of_neg (by decide)]
          simp
        · cases atStart

/-- With a prefix nothing is handed to a handler. -/
theorem Client.parse_prefix {rest : List UInt8}
    (unlocked : sock.recvbufLock = false)
    (returned : client.parse server world sock = some parsed)
    (found : sock.recvbuf.afterBlanks = colon :: rest) :
    parsed.handed = none ∧ ∃ value next,
      parsed.result = .returned value world client next ∧
        sock.LeavesPrefix next := by
  rcases Client.parse_eq_some unlocked returned with
    ⟨recvbuf, head, rfl⟩ |
    ⟨recvbuf, buf, sender, consumed, tokens, head, split, ways⟩
  · exact ⟨rfl, _, _, rfl, .inl rfl⟩
  · obtain ⟨parcEq, written⟩ := tokenLoop_prefix head found split
    rcases ways with ⟨-, rfl⟩ | ⟨more, -⟩
    · refine ⟨rfl, _, _, rfl, .inr ⟨rfl, rfl, rfl, ?_⟩⟩
      rcases written with ⟨-, same⟩ | ⟨eaten, -, cut⟩
      · exact .inl same
      · exact .inr ⟨_, by omega, cut⟩
    · omega

/-- Without a prefix the line is split where it stands, and is either left in
the buffer or dispatched. -/
theorem Client.parse_line {first : UInt8} {rest : List UInt8}
    (unlocked : sock.recvbufLock = false)
    (returned : client.parse server world sock = some parsed)
    (found : sock.recvbuf.afterBlanks = first :: rest)
    (noPrefix : first ≠ colon) :
    ∃ tokens, tokenLoop (first :: rest) (Tokens.start client) = some tokens ∧
      (tokens.parc ≤ 1 ∧ parsed.handed = none ∧
          parsed.result = .returned true world client sock.cleanup ∨
        1 < tokens.parc ∧ ∃ dispatched,
          client.dispatch server world tokens = some dispatched ∧
          parsed.handed = dispatched.handed ∧ parsed.rv = dispatched.rv ∧
          (dispatched.after = none ∧ parsed.result = .ended ∨
            ∃ nextWorld nextClient,
              dispatched.after = some (nextWorld, nextClient) ∧
              parsed.result = .returned true nextWorld nextClient
                (sock.consume tokens.bytesConsumed).cleanup)) := by
  rcases Client.parse_eq_some unlocked returned with
    ⟨recvbuf, head, rfl⟩ |
    ⟨recvbuf, buf, sender, consumed, tokens, head, split, ways⟩
  · obtain ⟨rest', prefixed⟩ := (parseHead_emptyPrefix head).mp ⟨recvbuf, rfl⟩
    rw [found, List.cons.injEq] at prefixed
    exact absurd prefixed.1 noPrefix
  · obtain ⟨first', rest', found', heads⟩ := parseHead_eq_some head
    rw [found, List.cons.injEq] at found'
    obtain ⟨rfl, rfl⟩ := found'
    rcases heads with ⟨-, equal⟩ | ⟨isColon, -⟩ | ⟨isColon, -⟩ | ⟨isColon, -⟩
    · simp only [Head.line.injEq] at equal
      obtain ⟨rfl, rfl, rfl, rfl⟩ := equal
      rw [sock.recvbuf.drop_blanks, found] at split
      refine ⟨tokens, split, ?_⟩
      rcases ways with ⟨few, rfl⟩ | ways
      · exact .inl ⟨few, rfl, rfl⟩
      · exact .inr ways
    · exact absurd isColon noPrefix
    · exact absurd isColon noPrefix
    · exact absurd isColon noPrefix

/-- A call that returns has found something after the blanks. -/
theorem Client.parse_afterBlanks (unlocked : sock.recvbufLock = false)
    (returned : client.parse server world sock = some parsed) :
    ∃ first rest, sock.recvbuf.afterBlanks = first :: rest := by
  rcases Client.parse_eq_some unlocked returned with
    ⟨_, head, -⟩ | ⟨_, _, _, _, _, head, -, -⟩
  all_goals
    obtain ⟨first, rest, found, -⟩ := parseHead_eq_some head
    exact ⟨first, rest, found⟩

end Cases

end Hamchat
