import Hamchat.Parser.Command
import Hamchat.Parser.CommandLine

/-!
# Which handler gets a message

A message should be handed to the handler that the command table names, or be
answered by one error.  `Client::Parse` ignores commands without a parameter,
answers a missing parameter by two errors, and counts the parameters only up to
the first colon.
-/

namespace Hamchat

open Foundation

/-! ## The command table -/

/-- The row has this command. -/
def IrcCmds.IsFor (name : CString) (cp : IrcCmds) : Bool :=
  cp.cmdProto.any fun proto => proto.sameIgnoringCase name

/-- The row for a command. -/
def entryFor (name : CString) : Option IrcCmds :=
  ircCommands.find? (IrcCmds.IsFor name)

/-- Each command has a handler. -/
theorem ircCommands_cmdFunc :
    ∀ cp ∈ ircCommands, cp.cmdProto.isSome = true →
      cp.cmdFunc.isSome = true := by
  decide +kernel

/-- The result for a row that has the command. -/
def IrcCmds.outcome (active : Bool) (argc : Nat) (cp : IrcCmds) : Search :=
  if cp.registered && !active then
    .notRegistered
  else if (argc : Int) < cp.minArgs then
    .notEnough
  else if (argc : Int) > cp.maxArgs then
    .unknown
  else
    (cp.cmdFunc.map Search.found).getD .unknown

/-- The search stops at the row for the command. -/
theorem searchCommands_eq {active : Bool} {argc : Nat} {name : CString}
    {table : List IrcCmds}
    (handled : ∀ cp ∈ table, cp.cmdProto.isSome = true →
      cp.cmdFunc.isSome = true) :
    searchCommands active argc name table =
      ((table.find? (IrcCmds.IsFor name)).map
        (IrcCmds.outcome active argc)).getD .unknown := by
  induction table with
  | nil => rfl
  | cons cp rest inductionHypothesis =>
      rw [List.forall_mem_cons] at handled
      have later := inductionHypothesis handled.2
      rw [searchCommands, List.find?_cons]
      cases proto : cp.cmdProto with
      | none =>
          simp only [IrcCmds.IsFor, proto, Option.any_none]
          exact later
      | some command =>
          simp only [IrcCmds.IsFor, proto, Option.any_some]
          cases same : command.sameIgnoringCase name with
          | false =>
              simp only [Bool.false_eq_true, if_false]
              exact later
          | true =>
              obtain ⟨handler, found⟩ := Option.isSome_iff_exists.mp
                (handled.1 (by rw [proto]; rfl))
              simp only [if_true, found, Option.map_some, Option.getD_some,
                IrcCmds.outcome]

/-! ## Replies -/

section Replies

variable (server : Server ω) (client : Client) (name : CString)

/-- The reply 451 of `Client::Parse` -/
def Client.notRegisteredReply : CString :=
  sendText [.ofLiteral ":", server.servername, .ofLiteral " 451 ",
    if client.callsign = .empty then .ofLiteral " *" else client.callsign,
    .ofLiteral " :You have not registered"]

/-- The reply 461 of `Client::Parse` -/
def Client.notEnoughReply : CString :=
  sendText [.ofLiteral ":", server.servername, .ofLiteral " 461 ",
    client.callsign, .ofLiteral " ", name,
    .ofLiteral " :Not enough parameters"]

/-- The reply 421 of `Client::Parse` -/
def Client.unknownReply : CString :=
  sendText [.ofLiteral ":", server.servername, .ofLiteral " 421 ",
    client.callsign, .ofLiteral " ", name, .ofLiteral " :Unknown command"]

/-- What a call hands over and sends for each result of the search. -/
structure Client.Answers (argc : Nat) (argv : List CString) (search : Search)
    (handed : Option Handed) (sent : List CString) : Prop where
  /-- One reply to a client that has not registered. -/
  notRegistered : search = .notRegistered →
    handed = none ∧ sent = [client.notRegisteredReply server]
  /-- Two replies to a command with too few parameters. -/
  notEnough : search = .notEnough →
    handed = none ∧
      sent = [client.notEnoughReply server name, client.unknownReply server name]
  /-- One reply to any other command that is not handed over. -/
  unknown : search = .unknown →
    handed = none ∧ sent = [client.unknownReply server name]
  /-- Nothing but what the handler sends. -/
  found : ∀ handler, search = .found handler →
    handed = some ⟨handler, argc, argv⟩

variable {server client name}

theorem Client.dispatch_answers (server : Server ω) (world : ω)
    (client : Client) {tokens : Tokens} {argv : List CString}
    (named : tokens.parv[1]?.bind Block.toCString = some name)
    (terminated : tokens.parv.mapM Block.toCString = some argv) :
    ∃ dispatched, client.dispatch server world tokens = some dispatched ∧
      client.Answers server name (tokens.parc - 1) argv
        (searchCommands client.isActive (tokens.parc - 1) name ircCommands)
        dispatched.handed dispatched.sent := by
  rw [Client.dispatch, named, Option.bind_eq_bind, Option.bind_some]
  dsimp only
  cases searchCommands client.isActive (tokens.parc - 1) name ircCommands with
  | notRegistered =>
      exact ⟨_, rfl, fun _ => ⟨rfl, rfl⟩, by simp, by simp, by simp⟩
  | notEnough =>
      exact ⟨_, rfl, by simp, fun _ => ⟨rfl, rfl⟩, by simp, by simp⟩
  | unknown =>
      exact ⟨_, rfl, by simp, by simp, fun _ => ⟨rfl, rfl⟩, by simp⟩
  | found handler =>
      rw [terminated]
      dsimp only [Option.bind_eq_bind, Option.bind_some]
      cases server.run handler world client (tokens.parc - 1) argv with
      | returned rv sent nextWorld next =>
          refine ⟨_, rfl, by simp, by simp, by simp, fun other same => ?_⟩
          rw [Search.found.injEq] at same
          rw [same]
      | ended sent =>
          refine ⟨_, rfl, by simp, by simp, by simp, fun other same => ?_⟩
          rw [Search.found.injEq] at same
          rw [same]

end Replies

/-! ## The promise -/

/-- The row may be used with a number of parameters. -/
structure IrcCmds.Allows (cp : IrcCmds) (client : Client) (count : Nat) :
    Prop where
  /-- The client is registered, if it has to be. -/
  registered : cp.registered = true → client.isActive = true
  /-- There are enough parameters. -/
  minArgs_le : cp.minArgs ≤ count
  /-- There are not too many. -/
  le_maxArgs : count ≤ cp.maxArgs

/-- The one reply to a command that is not handed over. -/
def Client.refusal (server : Server ω) (client : Client) (name : CString)
    (count : Nat) : CString :=
  ((entryFor name).map fun cp =>
    if cp.registered && !client.isActive then
      client.notRegisteredReply server
    else if (count : Int) < cp.minArgs then
      client.notEnoughReply server name
    else
      client.unknownReply server name).getD (client.unknownReply server name)

/-- A call hands a command with its number of parameters to the handler in the
table, or it hands nothing over and sends one reply. -/
structure Client.DispatchesExactly (server : Server ω) (client : Client)
    (name : CString) (count : Nat) (parsed : Parsed ω) : Prop where
  /-- A command that may be used goes to its handler. -/
  handed : ∀ cp handler, entryFor name = some cp → cp.Allows client count →
    cp.cmdFunc = some handler →
      ∃ argv, parsed.handed = some ⟨handler, count, argv⟩
  /-- Any other command is refused. -/
  refused : (¬∃ cp, entryFor name = some cp ∧ cp.Allows client count) →
    parsed.handed = none ∧ parsed.sent = [client.refusal server name count]

/-- The number of parameters that are found: the spaces before the first
colon. -/
def CommandLine.counted (message : CommandLine) : Nat :=
  (message.line.takeWhile (· ≠ colon)).count sp

/-- A parameter is found, and either the table has no such command, or the client
has to register first, or all parameters are found and their number is allowed,
or even those found are too many. -/
def CommandLine.DispatchHolds (message : CommandLine) (client : Client) : Prop :=
  0 < message.counted ∧ ∀ cp, entryFor message.command = some cp →
    cp.registered = true ∧ client.isActive = false ∨
    cp.Allows client message.parameters.length ∧
      message.counted = message.parameters.length ∨
    cp.maxArgs < message.counted

/-! ## One call -/

section Call

variable {server : Server ω} {world : ω} {client : Client} {sock : Socket}
variable {tokens : Tokens}

/-- A line without a parameter is neither handed over nor answered. -/
theorem Client.parse_few (server : Server ω) (world : ω)
    (split : client.tokens sock = some tokens) (few : tokens.parc ≤ 1) :
    ∃ parsed, client.parse server world sock = some parsed ∧
      parsed.handed = none ∧ parsed.sent = [] := by
  obtain ⟨unlocked, recvbuf, buf, sender, consumed, head, split⟩ :=
    Client.tokens_eq_some.mp split
  rw [Client.parse, if_neg (by simp [unlocked])]
  simp only [head, Option.bind_eq_bind, Option.bind_some]
  rw [split, Option.bind_some, if_pos few]
  exact ⟨_, rfl, rfl, rfl⟩

/-- Any other line is dispatched. -/
theorem Client.parse_many
    (split : client.tokens sock = some tokens) (many : 1 < tokens.parc)
    {dispatched : Dispatched ω}
    (ran : client.dispatch server world tokens = some dispatched) :
    ∃ parsed, client.parse server world sock = some parsed ∧
      parsed.handed = dispatched.handed ∧ parsed.sent = dispatched.sent := by
  obtain ⟨unlocked, recvbuf, buf, sender, consumed, head, split⟩ :=
    Client.tokens_eq_some.mp split
  rw [Client.parse, if_neg (by simp [unlocked])]
  simp only [head, Option.bind_eq_bind, Option.bind_some]
  rw [split, Option.bind_some, if_neg (Nat.not_le_of_lt many), ran,
    Option.bind_some]
  cases dispatched.after with
  | none => exact ⟨_, rfl, rfl, rfl⟩
  | some pair => exact ⟨_, rfl, rfl, rfl⟩

/-- A call that goes on behind the prefix handling has split the line. -/
theorem Client.exists_tokens {parsed : Parsed ω} {first : UInt8}
    {rest : List UInt8} (unlocked : sock.recvbufLock = false)
    (returned : client.parse server world sock = some parsed)
    (found : sock.recvbuf.afterBlanks = first :: rest)
    (plain : first ≠ colon) : ∃ tokens, client.tokens sock = some tokens := by
  obtain ⟨tokens, split, -⟩ :=
    Client.parse_line unlocked returned found plain
  refine ⟨tokens, Client.tokens_eq_some.mpr ⟨unlocked, _, _, _, _,
    parseHead_plain found plain, ?_⟩⟩
  rw [sock.recvbuf.drop_blanks, found]
  exact split

end Call

/-! ## The parameters that are found -/

section Counted

variable {message : CommandLine} {client : Client} {sock : Socket}

theorem CommandLine.counted_eq {first : List UInt8} {more : List (List UInt8)}
    (cut : lineFields message.line = first :: more) :
    message.counted = more.length := by
  have length := fields_length colon_ne_sp message.line
  rw [← lineFields, cut, List.length_cons] at length
  exact (Nat.succ.inj length).symm

theorem CommandLine.counted_le : message.counted ≤ message.parameters.length := by
  have fewer := fields_writeFields_length_le colon_ne_sp message.noSep
    (message.trailing.map CString.bytes)
  rw [fields_length colon_ne_sp, ← CommandLine.line, List.length_map] at fewer
  have trailing : (message.trailing.map CString.bytes).toList.length =
      message.trailing.toList.length := by
    cases message.trailing <;> rfl
  rw [CommandLine.counted, CommandLine.parameters, List.length_append]
  omega

theorem map_read_bytes {list : List (List UInt8)}
    (nulFree : ∀ bytes ∈ list, ∀ byte ∈ bytes, byte ≠ 0) :
    (list.map CString.read).map CString.bytes = list := by
  rw [List.map_map]
  refine (List.map_congr_left fun bytes member => ?_).trans (List.map_id list)
  exact List.takeWhile_eq_self_iff.mpr fun byte inBytes => by
    simpa using nulFree bytes member byte inBytes

/-- A line with a space goes on behind the command. -/
theorem CommandLine.line_eq (found : 0 < message.counted) :
    ∃ rest, message.line = message.command.bytes ++ sp :: rest := by
  rw [CommandLine.line, writeFields]
  cases middle : message.middle with
  | cons word words => exact ⟨_, by simp; rfl⟩
  | nil =>
      cases trailing : message.trailing with
      | some last => exact ⟨_, by simp; rfl⟩
      | none =>
          have none := message.counted_le
          rw [CommandLine.parameters, middle, trailing] at none
          exact absurd found (Nat.not_lt_of_le none)

/-- The fields of a line behind its first word. -/
theorem exists_parameters {command : CString} {rest : List UInt8}
    (noSpace : sp ∉ command.bytes) (noColon : colon ∉ command.bytes)
    (nulFree : 0 ∉ rest) :
    ∃ words : List CString,
      lineFields (command.bytes ++ sp :: rest) =
        (command :: words).map CString.bytes ∧
      words.map CString.bytes = lineFields rest := by
  have read : ((lineFields rest).map CString.read).map CString.bytes =
      lineFields rest := by
    refine map_read_bytes fun field member byte inField => ?_
    rintro rfl
    exact nulFree (mem_of_mem_fields member inField)
  refine ⟨(lineFields rest).map CString.read, ?_, read⟩
  rw [List.map_cons, read, lineFields, fields_append_sep noSpace noColon,
    lineFields]

/-- If a parameter is found, then so is the command. -/
theorem CommandLine.exists_words (found : 0 < message.counted) :
    ∃ words : List CString,
      lineFields message.line =
        (message.command :: words).map CString.bytes ∧
      words.length = message.counted := by
  have noMark : colon ∉ message.command.bytes := by
    intro inCommand
    rw [CommandLine.counted, List.count_pos_iff, CommandLine.line, writeFields,
      List.append_assoc, takeWhile_append_of_mem inCommand] at found
    exact message.command_word.noSpace
      ((List.takeWhile_prefix _).subset found)
  obtain ⟨rest, lineEq⟩ := message.line_eq found
  have nulFree : 0 ∉ rest := by
    intro inRest
    have inLine : 0 ∈ message.line := by
      rw [lineEq]
      exact List.mem_append_right _ (List.mem_cons_of_mem _ inRest)
    exact ne_nul_of_isStop (message.line_unbroken 0 inLine) rfl
  obtain ⟨words, cut, -⟩ :=
    exists_parameters message.command_word.noSpace noMark nulFree
  rw [← lineEq] at cut
  refine ⟨words, cut, ?_⟩
  rw [CommandLine.counted_eq cut, List.length_map]

end Counted

/-! ## The whole call -/

section Whole

variable {server : Server ω} {client : Client} {sock : Socket}
variable {name : CString} {parsed : Parsed ω} {count argc : Nat}
variable {argv : List CString}

/-- A row of the table has a handler, and a range for the number of
parameters. -/
theorem entryFor_eq_some {cp : IrcCmds} (entry : entryFor name = some cp) :
    (∃ handler, cp.cmdFunc = some handler) ∧ cp.minArgs ≤ cp.maxArgs := by
  have ordered : ∀ cp ∈ ircCommands, cp.minArgs ≤ cp.maxArgs := by
    decide +kernel
  have member := List.mem_of_find?_eq_some entry
  have isFor := List.find?_some entry
  have named : cp.cmdProto.isSome = true := by
    rw [IrcCmds.IsFor] at isFor
    cases proto : cp.cmdProto with
    | none => rw [proto] at isFor; cases isFor
    | some command => rfl
  exact ⟨Option.isSome_iff_exists.mp (ircCommands_cmdFunc cp member named),
    ordered cp member⟩

/-- A call that does what it should hands something over or sends something. -/
theorem Client.DispatchesExactly.answered
    (exactly : client.DispatchesExactly server name count parsed) :
    ¬(parsed.handed = none ∧ parsed.sent = []) := by
  rintro ⟨nothing, silent⟩
  by_cases allowed : ∃ cp, entryFor name = some cp ∧ cp.Allows client count
  · obtain ⟨cp, entry, allows⟩ := allowed
    obtain ⟨⟨handler, func⟩, -⟩ := entryFor_eq_some entry
    obtain ⟨argv, handed⟩ := exactly.handed cp handler entry allows func
    rw [nothing] at handed
    cases handed
  · have sent := (exactly.refused allowed).2
    rw [silent] at sent
    cases sent

/-- What should be done with a command that the table has. -/
theorem Client.dispatchesExactly_some {cp : IrcCmds} {handler : Handler}
    (entry : entryFor name = some cp) (func : cp.cmdFunc = some handler) :
    client.DispatchesExactly server name count parsed ↔
      (cp.Allows client count →
        ∃ argv, parsed.handed = some ⟨handler, count, argv⟩) ∧
      (¬cp.Allows client count →
        parsed.handed = none ∧
          parsed.sent = [client.refusal server name count]) := by
  constructor
  · intro exactly
    refine ⟨fun allows => exactly.handed cp handler entry allows func,
      fun refused => exactly.refused ?_⟩
    rintro ⟨other, found, allows⟩
    rw [entry, Option.some.injEq] at found
    exact refused (found ▸ allows)
  · rintro ⟨handed, refused⟩
    constructor
    · intro other otherHandler found allows otherFunc
      rw [entry, Option.some.injEq] at found
      subst found
      rw [func, Option.some.injEq] at otherFunc
      exact otherFunc ▸ handed allows
    · exact fun none => refused fun allows => none ⟨cp, entry, allows⟩

/-- A client that has not registered gets one reply, as it should. -/
theorem Client.dispatchesExactly_blocked {cp : IrcCmds} {handler : Handler}
    (entry : entryFor name = some cp) (func : cp.cmdFunc = some handler)
    (blocked : cp.registered = true ∧ client.isActive = false)
    (answers : client.Answers server name argc argv
      (cp.outcome client.isActive argc) parsed.handed parsed.sent) :
    client.DispatchesExactly server name count parsed := by
  have waits : (cp.registered && !client.isActive) = true := by
    simp [blocked]
  rw [Client.dispatchesExactly_some entry func]
  refine ⟨fun allows => ?_, fun _ => ?_⟩
  · have active := allows.registered blocked.1
    rw [blocked.2] at active
    cases active
  · rw [Client.refusal, entry, Option.map_some, Option.getD_some, if_pos waits]
    exact answers.notRegistered (by rw [IrcCmds.outcome, if_pos waits])

/-- For any other client the number of parameters decides. -/
theorem Client.dispatchesExactly_usable {cp : IrcCmds} {handler : Handler}
    (entry : entryFor name = some cp) (func : cp.cmdFunc = some handler)
    (ordered : cp.minArgs ≤ cp.maxArgs)
    (usable : ¬(cp.registered = true ∧ client.isActive = false))
    (answers : client.Answers server name argc argv
      (cp.outcome client.isActive argc) parsed.handed parsed.sent)
    (fewer : argc ≤ count) :
    client.DispatchesExactly server name count parsed ↔
      cp.Allows client count ∧ argc = count ∨ cp.maxArgs < argc := by
  have ready : ¬(cp.registered && !client.isActive) = true := by
    simpa using usable
  have registered : cp.registered = true → client.isActive = true := by
    simpa using ready
  have refusal : client.refusal server name count =
      if (count : Int) < cp.minArgs then
        client.notEnoughReply server name
      else
        client.unknownReply server name := by
    rw [Client.refusal, entry, Option.map_some, Option.getD_some,
      if_neg ready]
  rw [IrcCmds.outcome, if_neg ready, func, Option.map_some, Option.getD_some]
    at answers
  rw [Client.dispatchesExactly_some entry func, refusal]
  by_cases few : (argc : Int) < cp.minArgs
  · -- Two replies are one too many.
    rw [if_pos few] at answers
    obtain ⟨nothing, two⟩ := answers.notEnough rfl
    refine iff_of_false ?_ ?_
    · rintro ⟨handed, refused⟩
      by_cases allows : cp.Allows client count
      · obtain ⟨other, given⟩ := handed allows
        rw [nothing] at given
        cases given
      · have one := (refused allows).2
        rw [two] at one
        cases (List.cons.inj one).2
    · rintro (⟨allows, rfl⟩ | many)
      · exact absurd allows.minArgs_le (Int.not_le.mpr few)
      · omega
  rw [if_neg few] at answers
  by_cases many : (argc : Int) > cp.maxArgs
  · rw [if_pos many] at answers
    refine iff_of_true ⟨fun allows => ?_, fun _ => ?_⟩ (.inr many)
    · have most := allows.le_maxArgs
      omega
    · rw [if_neg (by omega)]
      exact answers.unknown rfl
  · rw [if_neg many] at answers
    have given := answers.found handler rfl
    rw [given]
    constructor
    · rintro ⟨handed, refused⟩
      by_cases allows : cp.Allows client count
      · obtain ⟨other, same⟩ := handed allows
        rw [Option.some.injEq, Handed.mk.injEq] at same
        exact .inl ⟨allows, same.2.1⟩
      · cases (refused allows).1
    · rintro (⟨allows, rfl⟩ | more)
      · exact ⟨fun _ => ⟨argv, rfl⟩, fun none => absurd allows none⟩
      · exact absurd more many

/-- What a call has done with the parameters it has found is what it should have
done with all parameters. -/
theorem Client.dispatchesExactly_iff
    (answers : client.Answers server name argc argv
      (((entryFor name).map (IrcCmds.outcome client.isActive argc)).getD
        .unknown) parsed.handed parsed.sent) (fewer : argc ≤ count) :
    client.DispatchesExactly server name count parsed ↔
      ∀ cp, entryFor name = some cp →
        cp.registered = true ∧ client.isActive = false ∨
        cp.Allows client count ∧ argc = count ∨ cp.maxArgs < argc := by
  cases entry : entryFor name with
  | none =>
      rw [entry] at answers
      have refusal : client.refusal server name count =
          client.unknownReply server name := by
        rw [Client.refusal, entry]
        rfl
      refine iff_of_true ⟨?_, fun _ => ?_⟩ ?_
      · intro cp handler found
        rw [entry] at found
        cases found
      · rw [refusal]
        exact answers.unknown rfl
      · intro cp found
        cases found
  | some cp =>
      obtain ⟨⟨handler, func⟩, ordered⟩ := entryFor_eq_some entry
      rw [entry, Option.map_some, Option.getD_some] at answers
      simp only [Option.some.injEq, forall_eq']
      by_cases blocked : cp.registered = true ∧ client.isActive = false
      · exact iff_of_true
          (Client.dispatchesExactly_blocked entry func blocked answers)
          (.inl blocked)
      · rw [Client.dispatchesExactly_usable entry func ordered blocked answers
          fewer, or_iff_right blocked]

/-- A command that the table allows is handed over with all fields of its line. -/
theorem Client.command_of_words {line : List UInt8} {command : CString}
    {words : List CString} {handler : Handler} (plain : PlainLine line)
    (holds : sock.Holds line) (short : line.length ≤ 510)
    (cut : lineFields line = (command :: words).map CString.bytes)
    (commandFits : command.length < cmdLen) (positive : 0 < words.length)
    (few : words.length + 2 ≤ maxArgs)
    (found : searchCommands client.isActive words.length command
      ircCommands = .found handler) :
    client.command sock =
      some ⟨handler, words.length, client.callsign :: command :: words⟩ := by
  obtain ⟨tokens, split, terminated, parc⟩ :=
    client.tokens_fields plain holds short cut commandFits few
  have argc : words.length = tokens.parc - 1 := by
    rw [parc, Nat.add_sub_cancel]
  refine Client.command_eq_some.mpr ⟨tokens, command,
    Client.splits_iff.mpr ⟨split, ?_⟩, mapM_getElem? terminated 1, ?_,
    terminated, argc⟩
  · rw [parc]
    exact Nat.lt_add_of_pos_left positive
  · rw [← argc]
    exact found

/-- What is handed over is the sender and the fields of the line. -/
theorem Client.words_of_command {line : List UInt8} {handed : Handed}
    (plain : PlainLine line) (holds : sock.Holds line)
    (hands : client.command sock = some handed) :
    ∃ (command : CString) (words : List CString),
      lineFields line = (command :: words).map CString.bytes ∧
      searchCommands client.isActive words.length command ircCommands =
        .found handed.handler ∧
      handed.argv = client.callsign :: command :: words := by
  obtain ⟨tokens, name, splits, named, found, terminated, -⟩ :=
    Client.command_eq_some.mp hands
  obtain ⟨first, more, cut⟩ := exists_fields sp colon line
  obtain ⟨parv, parc⟩ := Client.tokens_blocks plain holds cut
    (Client.splits_iff.mp splits).1
  have nulFree : ∀ block ∈ tokens.parv, ∀ byte ∈ block.bytes, byte ≠ 0 := by
    have blocks : (tokens.parv.drop 1).map Block.bytes =
        fields sp colon line := by
      rw [parv, List.drop_one, List.tail_cons, List.map_cons,
        fieldBlocks_bytes, cut]
    intro block member byte inBlock
    rw [parv] at member blocks
    rcases List.mem_cons.mp member with rfl | inFields
    · exact client.callsign.nulFree byte inBlock
    · exact ne_nul_of_isStop (plain.unbroken byte
        (mem_of_mem_fields (blocks ▸ List.mem_map_of_mem inFields) inBlock))
  have bytes := mapM_toCString nulFree terminated
  rw [parv, List.map_cons, List.map_cons, fieldBlocks_bytes] at bytes
  obtain ⟨sender, parameters, argv, senderBytes, parameterBytes⟩ :=
    List.map_eq_cons_iff.mp bytes
  obtain ⟨command, words, rfl, commandBytes, wordBytes⟩ :=
    List.map_eq_cons_iff.mp parameterBytes
  have nameEq : name = command := by
    have second := mapM_getElem? terminated 1
    rw [named, argv] at second
    exact Option.some.inj second
  have count : tokens.parc - 1 = words.length := by
    rw [parc, Nat.add_sub_cancel, ← wordBytes, List.length_map]
  rw [count, nameEq] at found
  refine ⟨command, words, ?_, found, ?_⟩
  · rw [lineFields, cut, List.map_cons, commandBytes, wordBytes]
  · rw [argv, CString.ext senderBytes]

/-- A message is handed over or refused as the table says exactly under the
condition. -/
theorem CommandLine.dispatch_iff (server : Server ω) (world : ω) (client : Client)
    (message : CommandLine) (fits : message.Fits)
    (holds : sock.Holds message.line) :
    (∃ parsed, client.parse server world sock = some parsed ∧
        client.DispatchesExactly server message.command
          message.parameters.length parsed) ↔
      message.DispatchHolds client := by
  have unlocked := holds.1
  by_cases found : 0 < message.counted
  · obtain ⟨words, cut, count⟩ := message.exists_words found
    have few := fits.parameters_le
    have fewer := message.counted_le
    obtain ⟨tokens, split, terminated, parc⟩ :=
      client.tokens_fields message.plain holds fits.line_le cut
        fits.command_lt (by omega)
    have argc : tokens.parc - 1 = message.counted := by omega
    obtain ⟨dispatched, ran, answers⟩ := Client.dispatch_answers server world
      client (mapM_getElem? terminated 1) terminated
    obtain ⟨parsed, returned, handed, sent⟩ :=
      Client.parse_many split (by omega) ran
    rw [argc, searchCommands_eq ircCommands_cmdFunc, ← handed, ← sent]
      at answers
    rw [CommandLine.DispatchHolds, and_iff_right found,
      ← Client.dispatchesExactly_iff answers fewer]
    constructor
    · rintro ⟨other, sameCall, exactly⟩
      rw [returned, Option.some.injEq] at sameCall
      rwa [sameCall]
    · exact fun exactly => ⟨parsed, returned, exactly⟩
  · refine iff_of_false ?_ fun condition => found condition.1
    rintro ⟨parsed, returned, exactly⟩
    obtain ⟨ending, after, -, afterBlanks⟩ := holds.2
    obtain ⟨first, rest, lineEq, -, plain⟩ := message.plain.start
    rw [lineEq, List.cons_append] at afterBlanks
    obtain ⟨tokens, split⟩ :=
      Client.exists_tokens unlocked returned afterBlanks plain
    obtain ⟨command, more, cut⟩ := exists_fields sp colon message.line
    obtain ⟨-, parc⟩ := Client.tokens_blocks message.plain holds cut split
    have none := message.counted_eq cut
    obtain ⟨silent, sameCall, handed, sent⟩ :=
      Client.parse_few server world split (by omega)
    rw [returned, Option.some.injEq] at sameCall
    subst sameCall
    exact exactly.answered ⟨handed, sent⟩

end Whole

theorem greeting_dispatch_iff :
    (∃ parsed, freshClient.parse idleServer ()
          (.clean CommandLine.greeting.text) = some parsed ∧
        freshClient.DispatchesExactly idleServer CommandLine.greeting.command
          CommandLine.greeting.parameters.length parsed) ↔
      CommandLine.greeting.DispatchHolds freshClient :=
  CommandLine.dispatch_iff idleServer () freshClient CommandLine.greeting
    ⟨by decide +kernel, by decide +kernel, by decide +kernel⟩
    (CommandLine.greeting.clean_holds (by decide +kernel))

/-- `QUIT` -/
def CommandLine.quit : CommandLine where
  command := .ofLiteral "QUIT"
  middle := []
  trailing := none
  command_word := by decide +kernel
  middle_words := List.forall_mem_nil _
  trailing_unbroken := CString.unbroken_of_mem_none

/-- A command without parameters is ignored. -/
theorem quit_not_dispatched :
    CommandLine.quit.Fits ∧
      ¬∃ parsed, freshClient.parse idleServer ()
          (.clean CommandLine.quit.text) = some parsed ∧
        freshClient.DispatchesExactly idleServer CommandLine.quit.command
          CommandLine.quit.parameters.length parsed := by
  refine ⟨⟨by decide +kernel, by decide +kernel, by decide +kernel⟩, ?_⟩
  rintro ⟨parsed, returned, exactly⟩
  refine exactly.answered ?_
  have silent : (freshClient.parse idleServer ()
      (.clean CommandLine.quit.text)).map (fun parsed =>
        (parsed.handed, parsed.sent)) = some (none, []) := by
    decide +kernel
  rw [returned, Option.map_some, Option.some.injEq, Prod.mk.injEq] at silent
  exact silent

end Hamchat
