import Hamchat.Parser.Parameters
import Hamchat.Parser.Storage

/-!
# Lines of commands

A message is a command word with its parameters, and its line is how a client
writes it.  `Client::Parse` cuts the line at spaces, but it takes the first colon
anywhere for the start of the final parameter, so it finds the parameters of a
message again only if no other one holds a colon.
-/

namespace Hamchat

open Foundation

/-! ## Messages -/

/-- A line that `Client::Parse` reads from its first byte and without a prefix. -/
structure PlainLine (line : List UInt8) : Prop where
  /-- It holds no NUL, CR or LF. -/
  unbroken : ∀ byte ∈ line, isStop byte = false
  /-- It does not start with a blank or a colon. -/
  start : ∃ first rest, line = first :: rest ∧ isBlank first = false ∧
    first ≠ colon

/-- A string that stands between two spaces and does not start with a colon. -/
structure CString.IsWord (word : CString) : Prop where
  /-- It is not empty. -/
  nonempty : word.bytes ≠ []
  /-- It holds no NUL, CR or LF. -/
  unbroken : word.Unbroken
  /-- It holds no space. -/
  noSpace : sp ∉ word.bytes
  /-- It is not a final parameter. -/
  noMark : word.bytes.head? ≠ some colon

instance (word : CString) : Decidable word.IsWord :=
  decidable_of_iff
    (word.bytes ≠ [] ∧ word.Unbroken ∧ sp ∉ word.bytes ∧
      word.bytes.head? ≠ some colon)
    ⟨fun ⟨nonempty, unbroken, noSpace, noMark⟩ =>
        ⟨nonempty, unbroken, noSpace, noMark⟩,
      fun ⟨nonempty, unbroken, noSpace, noMark⟩ =>
        ⟨nonempty, unbroken, noSpace, noMark⟩⟩

theorem CString.unbroken_of_mem_none (string : CString)
    (given : string ∈ (none : Option CString)) : string.Unbroken :=
  absurd given (Option.not_mem_none string)

/-- A command and its parameters. -/
structure CommandLine where
  /-- The command. -/
  command : CString
  /-- The parameters without a colon in front. -/
  middle : List CString
  /-- The final parameter, if it has a colon in front. -/
  trailing : Option CString
  /-- The command is a word. -/
  command_word : command.IsWord
  /-- These parameters are words. -/
  middle_words : ∀ word ∈ middle, word.IsWord
  /-- The final parameter ends no line. -/
  trailing_unbroken : ∀ last ∈ trailing, last.Unbroken

namespace CommandLine

variable (message : CommandLine)

/-- All parameters. -/
def parameters : List CString := message.middle ++ message.trailing.toList

/-- The line without its ending. -/
def line : List UInt8 :=
  writeFields sp colon message.command.bytes
    (message.middle.map CString.bytes) (message.trailing.map CString.bytes)

/-- The line, the command and the number of parameters keep to the limits. -/
structure Fits : Prop where
  /-- The line has up to 510 bytes. -/
  line_le : message.line.length ≤ 510
  /-- The command leaves room for a NUL. -/
  command_lt : message.command.length < cmdLen
  /-- There is room for each parameter behind the sender and the command. -/
  parameters_le : message.parameters.length + 2 ≤ maxArgs

/-- No colon stands inside a word. -/
def ColonFree : Prop :=
  ∀ word ∈ message.command :: message.middle, colon ∉ word.bytes

variable {message}

theorem line_unbroken : ∀ byte ∈ message.line, isStop byte = false := by
  intro byte member
  rw [line, writeFields, List.mem_append, List.mem_append, List.mem_flatMap]
    at member
  rcases member with (inCommand | ⟨field, inMiddle, inField⟩) | inTrailing
  · exact message.command_word.unbroken byte inCommand
  · obtain ⟨word, inWords, rfl⟩ := List.mem_map.mp inMiddle
    rcases List.mem_cons.mp inField with rfl | inWord
    · decide
    · exact (message.middle_words word inWords).unbroken byte inWord
  · cases found : message.trailing with
    | none =>
        rw [found] at inTrailing
        cases inTrailing
    | some last =>
        rw [found] at inTrailing
        rcases List.mem_cons.mp inTrailing with rfl | inTrailing
        · decide
        rcases List.mem_cons.mp inTrailing with rfl | inLast
        · decide
        · exact message.trailing_unbroken last found byte inLast

/-- The line starts with the first byte of the command. -/
theorem plain : PlainLine message.line := by
  refine ⟨message.line_unbroken, ?_⟩
  cases bytes : message.command.bytes with
  | nil => exact absurd bytes message.command_word.nonempty
  | cons first more =>
      have inside : first ∈ message.command.bytes := by
        rw [bytes]
        exact List.mem_cons_self
      have notStop := message.command_word.unbroken first inside
      have notSpace : first ≠ sp := by
        rintro rfl
        exact message.command_word.noSpace inside
      refine ⟨first, _, by rw [line, writeFields, bytes]; rfl, ?_, ?_⟩
      · simp only [isStop, isBlank] at notStop ⊢
        simp_all
      · rintro rfl
        exact message.command_word.noMark (by rw [bytes, List.head?_cons])

end CommandLine

/-! ## A message in the buffer -/

/-- The buffer is not locked, and after blanks it holds a line. -/
def Socket.Holds (sock : Socket) (line : List UInt8) : Prop :=
  sock.recvbufLock = false ∧ ∃ ending rest, isLineEnd ending = true ∧
    sock.recvbuf.afterBlanks = line ++ ending :: rest

theorem Socket.holds_iff {sock : Socket} {line : List UInt8} :
    sock.Holds line ↔ sock.recvbufLock = false ∧
      line <+: sock.recvbuf.afterBlanks ∧
      ∃ ending ∈ (sock.recvbuf.afterBlanks.drop line.length).head?,
        isLineEnd ending = true := by
  refine and_congr_right fun _ => ?_
  constructor
  · rintro ⟨ending, rest, ends, found⟩
    rw [found]
    exact ⟨List.prefix_append .., ending, by simp, ends⟩
  · rintro ⟨⟨behind, found⟩, ending, atStart, ends⟩
    rw [← found, List.drop_left, Option.mem_def,
      List.head?_eq_some_iff] at atStart
    obtain ⟨rest, rfl⟩ := atStart
    exact ⟨ending, rest, ends, found.symm⟩

instance (sock : Socket) (line : List UInt8) : Decidable (sock.Holds line) :=
  decidable_of_iff' _ Socket.holds_iff

/-- The line of a message, as it arrives. -/
def CommandLine.text (message : CommandLine) : List UInt8 :=
  message.line ++ [cr, lf]

theorem lineBytes_append {line : List UInt8}
    (inside : ∀ byte ∈ line, isStop byte = false) {ending : UInt8}
    (stops : isStop ending = true) (rest : List UInt8) :
    lineBytes (line ++ ending :: rest) = line := by
  rw [lineBytes, List.takeWhile_append_of_pos (by simpa using inside),
    ← lineBytes, lineBytes_stop stops, List.append_nil]

/-- A clean buffer holds the line that has arrived. -/
theorem CommandLine.clean_holds {message : CommandLine}
    (short : message.text.length ≤ bufferMax) :
    (Socket.clean message.text).Holds message.line := by
  obtain ⟨first, rest, lineEq, notBlank, -⟩ := message.plain.start
  refine ⟨rfl, cr, lf :: List.replicate (bufferMax - message.text.length) 0,
    rfl, ?_⟩
  rw [RecvBuf.afterBlanks, Socket.clean, RecvBuf.clean_bytes short,
    CommandLine.text, List.append_assoc, lineEq, List.cons_append,
    List.dropWhile_cons_of_neg (by simp [notBlank])]
  rfl

/-- The variables of `Client::Parse` after its loop. -/
def Client.tokens (client : Client) (sock : Socket) : Option Tokens :=
  if sock.recvbufLock then
    none
  else do
    match ← parseHead client sock.recvbuf with
    | .emptyPrefix _ => none
    | .line recvbuf buf sender bytesConsumed =>
        tokenLoop (recvbuf.bytes.drop buf)
          ⟨[sender, ⟨cmdLen, []⟩], 1, false, bytesConsumed⟩

/-- The loop runs on what is left behind the start of the line. -/
theorem Client.tokens_eq_some {client : Client} {sock : Socket}
    {tokens : Tokens} :
    client.tokens sock = some tokens ↔
      sock.recvbufLock = false ∧ ∃ recvbuf buf sender bytesConsumed,
        parseHead client sock.recvbuf =
          some (.line recvbuf buf sender bytesConsumed) ∧
        tokenLoop (recvbuf.bytes.drop buf)
          ⟨[sender, ⟨cmdLen, []⟩], 1, false, bytesConsumed⟩ = some tokens := by
  rw [Client.tokens, Option.ite_none_left_eq_some, Bool.not_eq_true,
    Option.bind_eq_bind, Option.bind_eq_some_iff]
  refine and_congr_right fun _ => ⟨?_, ?_⟩
  · rintro ⟨head, headEq, split⟩
    cases head with
    | emptyPrefix recvbuf => cases split
    | line recvbuf buf sender consumed =>
        exact ⟨recvbuf, buf, sender, consumed, headEq, split⟩
  · rintro ⟨recvbuf, buf, sender, consumed, headEq, split⟩
    exact ⟨_, headEq, split⟩

theorem Client.splits_iff {client : Client} {sock : Socket} {tokens : Tokens} :
    client.Splits sock tokens ↔
      client.tokens sock = some tokens ∧ 1 < tokens.parc := by
  rw [Client.Splits, Client.tokens_eq_some]
  constructor
  · rintro ⟨unlocked, recvbuf, buf, sender, consumed, head, split, many⟩
    exact ⟨⟨unlocked, recvbuf, buf, sender, consumed, head, split⟩, many⟩
  · rintro ⟨⟨unlocked, recvbuf, buf, sender, consumed, head, split⟩, many⟩
    exact ⟨unlocked, recvbuf, buf, sender, consumed, head, split, many⟩

/-! ## The parameters of a message -/

theorem Block.toCString_mk {string : CString} {size : Nat}
    (fits : string.length < size) :
    (⟨size, string.bytes⟩ : Block).toCString = some string := by
  rw [Block.toCString, if_pos (show string.bytes.length < size from fits),
    CString.read_bytes]

/-- Blocks with room for a NUL read as the strings that were stored. -/
theorem fieldBlocks_toCString {consumed : Nat} {words : List CString}
    (room : consumed + (words.map CString.bytes).flatten.length +
      words.length ≤ lineLen) :
    (fieldBlocks consumed (words.map CString.bytes)).mapM Block.toCString =
      some words := by
  induction words generalizing consumed with
  | nil => rfl
  | cons word words inductionHypothesis =>
      simp only [List.map_cons, List.flatten_cons, List.length_append,
        List.length_cons] at room
      rw [List.map_cons, fieldBlocks, List.mapM_cons,
        inductionHypothesis (by omega),
        Block.toCString_mk (by rw [CString.length]; omega)]
      rfl

/-- A callsign fits into the block for the sender. -/
theorem Client.sender_toCString (client : Client) :
    (⟨hostNameMax, client.callsign.bytes⟩ : Block).toCString =
      some client.callsign :=
  Block.toCString_mk (Nat.lt_of_le_of_lt client.callsign_le (by decide))

theorem parametersFit_of_le {consumed : Nat} {words : List (List UInt8)}
    (room : consumed + words.flatten.length + words.length ≤ lineLen) :
    ParametersFit consumed words := by
  induction words generalizing consumed with
  | nil => trivial
  | cons word words inductionHypothesis =>
      simp only [List.flatten_cons, List.length_append, List.length_cons]
        at room
      exact ⟨by omega, fun _ => by omega, inductionHypothesis (by omega)⟩

section Tokens

variable {client : Client} {sock : Socket} {message : CommandLine}
variable {tokens : Tokens} {line : List UInt8}

/-- What the loop sees of a line. -/
theorem Client.tokens_eq (client : Client) (plain : PlainLine line)
    (holds : sock.Holds line) :
    ∃ memory, lineBytes memory = line ∧
      (∃ ending ∈ memory, isStop ending = true) ∧
      client.tokens sock = tokenLoop memory (Tokens.start client) := by
  obtain ⟨unlocked, ending, rest, ends, found⟩ := holds
  obtain ⟨first, more, lineEq, -, noPrefix⟩ := plain.start
  have stops := isStop_of_isLineEnd ends
  refine ⟨line ++ ending :: rest, lineBytes_append plain.unbroken stops rest,
    ⟨ending, by simp, stops⟩, ?_⟩
  rw [Client.tokens, if_neg (by simp [unlocked]),
    parseHead_plain (by rw [found, lineEq]; rfl) noPrefix, Option.bind_eq_bind,
    Option.bind_some]
  dsimp only
  rw [sock.recvbuf.drop_blanks, found]
  rfl

theorem CommandLine.map_bytes (message : CommandLine) :
    (message.command :: message.parameters).map CString.bytes =
      message.command.bytes :: message.middle.map CString.bytes ++
        (message.trailing.map CString.bytes).toList := by
  rw [CommandLine.parameters]
  cases message.trailing <;> simp

theorem CommandLine.noSep (message : CommandLine) :
    ∀ field ∈ message.command.bytes :: message.middle.map CString.bytes,
      sp ∉ field := by
  rw [List.forall_mem_cons, List.forall_mem_map]
  exact ⟨message.command_word.noSpace,
    fun word member => (message.middle_words word member).noSpace⟩

/-- A message is cut into its parameters exactly if no colon stands inside a
word. -/
theorem CommandLine.lineFields_iff :
    lineFields message.line =
        (message.command :: message.parameters).map CString.bytes ↔
      message.ColonFree := by
  have cut := fields_writeFields_iff colon_ne_sp message.noSep
    (message.trailing.map CString.bytes)
  rw [List.forall_mem_cons, List.forall_mem_map] at cut
  rw [message.map_bytes, CommandLine.ColonFree, List.forall_mem_cons]
  exact cut

/-- The loop leaves one block for each field of the line. -/
theorem Client.tokens_blocks (plain : PlainLine line) (holds : sock.Holds line)
    {first : List UInt8} {more : List (List UInt8)}
    (cut : lineFields line = first :: more)
    (split : client.tokens sock = some tokens) :
    tokens.parv = ⟨hostNameMax, client.callsign.bytes⟩ :: ⟨cmdLen, first⟩ ::
        fieldBlocks (first.length + 1) more ∧
      tokens.parc = more.length + 1 := by
  obtain ⟨memory, lineEq, -, same⟩ := client.tokens_eq plain holds
  rw [same] at split
  obtain ⟨parv, parc⟩ := tokenLoop_ready (singleton_lt_maxArgs _)
    (by rw [lineEq]; exact cut) split
  rw [parv, parc, Nat.zero_add]
  exact ⟨rfl, Nat.add_comm _ _⟩

/-- The fields of a short line fit. -/
theorem Client.tokens_fields (client : Client) (plain : PlainLine line)
    (holds : sock.Holds line) (short : line.length ≤ 510) {command : CString}
    {words : List CString}
    (cut : lineFields line = (command :: words).map CString.bytes)
    (commandFits : command.length < cmdLen)
    (few : words.length + 2 ≤ maxArgs) :
    ∃ tokens, client.tokens sock = some tokens ∧
      tokens.parv.mapM Block.toCString =
        some (client.callsign :: command :: words) ∧
      tokens.parc = words.length + 1 := by
  obtain ⟨memory, lineEq, ends, same⟩ := client.tokens_eq plain holds
  have room : command.bytes.length + 1 +
      (words.map CString.bytes).flatten.length + words.length ≤ lineLen := by
    have whole := fields_flatten_length colon_ne_sp line
    rw [← lineFields, cut, List.map_cons, List.flatten_cons,
      List.length_append, List.length_cons, List.length_map] at whole
    rw [lineLen]
    omega
  have stays : StaysInBounds memory (Tokens.start client) := by
    refine (staysInBounds_ready (singleton_lt_maxArgs _)
      (by rw [lineEq]; exact cut)).mpr ⟨command_admits.mpr commandFits, ?_, ?_⟩
    · rw [List.length_singleton, List.length_map]
      omega
    · refine parametersFit_of_le ?_
      rwa [Nat.zero_add, List.length_map]
  obtain ⟨tokens, split⟩ := tokenLoop_defined stays ends
  obtain ⟨parv, parc⟩ :=
    Client.tokens_blocks plain holds cut (same.trans split)
  refine ⟨tokens, same.trans split, ?_, by rw [parc, List.length_map]⟩
  rw [parv, List.mapM_cons, List.mapM_cons, fieldBlocks_toCString room,
    client.sender_toCString, Block.toCString_mk commandFits]
  rfl

/-- The loop finds the parameters of a message without a colon in a word. -/
theorem CommandLine.tokens_strings (client : Client)
    (holds : sock.Holds message.line)
    (fits : message.Fits) (colonFree : message.ColonFree) :
    ∃ tokens, client.tokens sock = some tokens ∧
      tokens.parv.mapM Block.toCString = some
        (client.callsign :: message.command :: message.parameters) ∧
      tokens.parc = message.parameters.length + 1 :=
  client.tokens_fields message.plain holds fits.line_le
    (message.lineFields_iff.mpr colonFree) fits.command_lt fits.parameters_le

end Tokens

/-! ## Finding the parameters again -/

/-- The parameters behind `parv[0]` are the command and the parameters of the
message, and `parc` counts them. -/
def CommandLine.Recovered (message : CommandLine) (client : Client)
    (sock : Socket) : Prop :=
  ∃ tokens, client.tokens sock = some tokens ∧
    (tokens.parv.drop 1).mapM Block.toCString =
      some (message.command :: message.parameters) ∧
    tokens.parc - 1 = message.parameters.length

theorem fieldBlocks_bytes (consumed : Nat) (words : List (List UInt8)) :
    (fieldBlocks consumed words).map Block.bytes = words := by
  induction words generalizing consumed with
  | nil => rfl
  | cons word words inductionHypothesis =>
      rw [fieldBlocks, List.map_cons, inductionHypothesis]

/-- Blocks that are terminated and hold no NUL read as all of their bytes. -/
theorem mapM_toCString {blocks : List Block} {strings : List CString}
    (nulFree : ∀ block ∈ blocks, ∀ byte ∈ block.bytes, byte ≠ 0)
    (terminated : blocks.mapM Block.toCString = some strings) :
    strings.map CString.bytes = blocks.map Block.bytes := by
  rw [mapM_eq_some_iff] at terminated
  induction blocks generalizing strings with
  | nil =>
      obtain rfl := List.map_eq_nil_iff.mp terminated.symm
      rfl
  | cons block blocks inductionHypothesis =>
      rw [List.forall_mem_cons] at nulFree
      obtain ⟨first, rest, rfl, firstRead, restRead⟩ :=
        List.map_eq_cons_iff.mp terminated.symm
      rw [eq_comm, Block.toCString, Option.ite_none_right_eq_some]
        at firstRead
      have whole : first.bytes = block.bytes := by
        rw [← Option.some.inj firstRead.2]
        exact List.takeWhile_eq_self_iff.mpr fun byte member => by
          simpa using nulFree.1 byte member
      rw [List.map_cons, List.map_cons, whole,
        inductionHypothesis nulFree.2 restRead.symm]

section Recovered

variable {client : Client} {sock : Socket} {message : CommandLine}

theorem CommandLine.Recovered.colonFree (recovered : message.Recovered client sock)
    (holds : sock.Holds message.line) : message.ColonFree := by
  obtain ⟨tokens, split, terminated, -⟩ := recovered
  obtain ⟨first, more, cut⟩ := exists_fields sp colon
    message.line
  obtain ⟨parv, -⟩ := Client.tokens_blocks message.plain holds cut split
  rw [parv, List.drop_one, List.tail_cons] at terminated
  have bytes : ((⟨cmdLen, first⟩ : Block) ::
      fieldBlocks (first.length + 1) more).map Block.bytes =
        lineFields message.line := by
    rw [List.map_cons, fieldBlocks_bytes, ← cut]
    rfl
  refine message.lineFields_iff.mp ?_
  rw [← bytes]
  refine (mapM_toCString (fun block member byte inBlock => ?_) terminated).symm
  have inLine : byte ∈ message.line :=
    mem_of_mem_fields (bytes ▸ List.mem_map_of_mem member) inBlock
  exact ne_nul_of_isStop (message.line_unbroken byte inLine)

/-- From a clean buffer the parameters of a message are found again exactly if no
colon stands inside a word. -/
theorem CommandLine.recovered_iff (client : Client) (message : CommandLine)
    (fits : message.Fits) :
    message.Recovered client (.clean message.text) ↔ message.ColonFree := by
  have holds : (Socket.clean message.text).Holds message.line := by
    refine message.clean_holds ?_
    have short := fits.line_le
    rw [CommandLine.text, List.length_append, bufferMax]
    simp only [List.length_cons, List.length_nil]
    omega
  constructor
  · exact fun recovered => recovered.colonFree holds
  · intro colonFree
    obtain ⟨tokens, split, terminated, parc⟩ :=
      message.tokens_strings client holds fits colonFree
    refine ⟨tokens, split, ?_, by rw [parc, Nat.add_sub_cancel]⟩
    cases blocks : tokens.parv with
    | nil => rw [blocks] at terminated; cases terminated
    | cons sender parameters =>
        rw [blocks, mapM_eq_some_iff, List.map_cons, List.map_cons,
          List.cons.injEq] at terminated
        rw [List.drop_one, List.tail_cons]
        exact mapM_eq_some_iff.mpr terminated.2

end Recovered

/-- `PRIVMSG #hf :hi` -/
def CommandLine.greeting : CommandLine where
  command := .ofLiteral "PRIVMSG"
  middle := [.ofLiteral "#hf"]
  trailing := some (.ofLiteral "hi")
  command_word := by decide +kernel
  middle_words := by decide +kernel
  trailing_unbroken := by decide +kernel

theorem CommandLine.greeting_recovered_iff :
    CommandLine.greeting.Recovered freshClient (.clean CommandLine.greeting.text) ↔
      CommandLine.greeting.ColonFree :=
  CommandLine.recovered_iff freshClient CommandLine.greeting
    ⟨by decide +kernel, by decide +kernel, by decide +kernel⟩

/-- `PRIVMSG #hf:1 :hi` -/
def CommandLine.timed : CommandLine where
  command := .ofLiteral "PRIVMSG"
  middle := [.ofLiteral "#hf:1"]
  trailing := some (.ofLiteral "hi")
  command_word := by decide +kernel
  middle_words := by decide +kernel
  trailing_unbroken := by decide +kernel

/-- A colon inside a parameter ends the search for parameters. -/
theorem CommandLine.timed_not_recovered :
    ¬CommandLine.timed.Recovered freshClient (.clean CommandLine.timed.text) := by
  intro recovered
  have colonFree := recovered.colonFree
    (CommandLine.timed.clean_holds (by decide +kernel))
  have member : CString.ofLiteral "#hf:1" ∈
      CommandLine.timed.command :: CommandLine.timed.middle :=
    List.mem_cons_of_mem _ List.mem_cons_self
  have present : colon ∈ (CString.ofLiteral "#hf:1").bytes := by
    decide +kernel
  exact colonFree _ member present

end Hamchat
