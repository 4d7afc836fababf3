import Hamchat.Parser.Command
import Hamchat.Parser.CommandLine

/-!
# Lines with a prefix

A prefix should only name another sender.  But `Client::Parse` overwrites the
space behind it with a NUL and goes on from there, so its loop stops at once and
the command is never seen.  The copy of the prefix is not terminated either.
-/

namespace Hamchat

open Foundation

/-- A string that can stand in a prefix. -/
structure CString.IsSender (sender : CString) : Prop where
  /-- It is not empty. -/
  nonempty : sender.bytes ≠ []
  /-- It holds no NUL, CR or LF. -/
  unbroken : sender.Unbroken
  /-- It holds no space. -/
  noSpace : sp ∉ sender.bytes

namespace CommandLine

variable (message : CommandLine) (sender : CString) (client : Client)

/-- The line of a message behind a prefix, as it arrives. -/
def prefixedText : List UInt8 :=
  colon :: sender.bytes ++ sp :: message.text

/-- The line behind a prefix is handed to the same handler as the line alone,
with the same parameters but the first, which is the prefix. -/
structure PrefixKeeps : Prop where
  /-- The same number of parameters and the same strings behind `parv[0]`. -/
  parameters : ∃ plain prefixed,
    client.tokens (.clean message.text) = some plain ∧
    client.tokens (.clean (message.prefixedText sender)) = some prefixed ∧
    prefixed.parc = plain.parc ∧
    (prefixed.parv.drop 1).mapM Block.toCString =
      (plain.parv.drop 1).mapM Block.toCString
  /-- The first one is the prefix, with its terminator. -/
  first : ∃ prefixed,
    client.tokens (.clean (message.prefixedText sender)) = some prefixed ∧
    prefixed.parv.head?.bind Block.toCString = some sender
  /-- The same handler. -/
  handler :
    (client.command (.clean (message.prefixedText sender))).map
        Handed.handler =
      (client.command (.clean message.text)).map Handed.handler

end CommandLine

/-- A search finds the first occurrence. -/
theorem strchr_append {char : UInt8} {front : List UInt8}
    (absent : char ∉ front) (nulFree : (0 : UInt8) ∉ front)
    (rest : List UInt8) :
    strchr char (front ++ char :: rest) = some (some front.length) := by
  induction front with
  | nil => rw [List.nil_append, strchr, if_pos rfl, List.length_nil]
  | cons byte front inductionHypothesis =>
      rw [List.mem_cons, not_or] at absent nulFree
      rw [List.cons_append, strchr, if_neg (Ne.symm absent.1),
        if_neg (Ne.symm nulFree.1), inductionHypothesis absent.2 nulFree.2]
      rfl

section Prefix

variable {message : CommandLine} {sender : CString} {client : Client}

/-- Behind a prefix the loop stops at the NUL that has just been written. -/
theorem CommandLine.prefixed_tokens (isSender : sender.IsSender)
    (short : (message.prefixedText sender).length ≤ bufferMax) :
    client.tokens (.clean (message.prefixedText sender)) =
      some ⟨[⟨sender.length, sender.bytes⟩, ⟨cmdLen, []⟩], 1, false,
        1 + sender.length⟩ := by
  have bytes := RecvBuf.clean_bytes short
  obtain ⟨after, bytes⟩ : ∃ after,
      (RecvBuf.clean (message.prefixedText sender)).bytes =
        colon :: (sender.bytes ++ sp :: after) := by
    rw [bytes, CommandLine.prefixedText]
    exact ⟨message.text ++ _, by simp; rfl⟩
  have found : (RecvBuf.clean (message.prefixedText sender)).afterBlanks =
      colon :: (sender.bytes ++ sp :: after) := by
    rw [RecvBuf.afterBlanks, bytes, List.dropWhile_cons_of_neg (by decide)]
  have atStart : (RecvBuf.clean (message.prefixedText sender)).blanks = 0 := by
    rw [RecvBuf.blanks, bytes, List.takeWhile_cons_of_neg (by decide)]
    rfl
  have nulFree : (0 : UInt8) ∉ sender.bytes :=
    fun member => sender.nulFree 0 member rfl
  have search := strchr_append isSender.noSpace nulFree after
  have cut : ((RecvBuf.clean (message.prefixedText sender)).set
      (0 + 1 + sender.bytes.length) 0).bytes.drop
        (0 + 1 + sender.bytes.length) = 0 :: after := by
    rw [RecvBuf.set_bytes, bytes, Nat.zero_add, Nat.add_comm,
      List.set_cons_succ, List.drop_succ_cons, List.set_append_right _ _
        (Nat.le_refl _), Nat.sub_self, List.set_cons_zero, List.drop_left]
  have unlocked : ¬(Socket.clean
      (message.prefixedText sender)).recvbufLock = true := Bool.false_ne_true
  rw [Client.tokens, if_neg unlocked, Socket.clean,
    parseHead_prefix found (List.length_pos_iff.mpr isSender.nonempty) search,
    atStart, Option.bind_eq_bind, Option.bind_some]
  dsimp only
  rw [cut, List.take_left]
  exact tokenLoop_ready_stop (singleton_lt_maxArgs _) (by decide)

/-- Behind a prefix nothing is handed to a handler. -/
theorem CommandLine.prefixed_command (isSender : sender.IsSender)
    (short : (message.prefixedText sender).length ≤ bufferMax) :
    client.command (.clean (message.prefixedText sender)) = none := by
  cases hands : client.command (.clean (message.prefixedText sender)) with
  | none => rfl
  | some handed =>
      obtain ⟨tokens, name, splits, -⟩ := Client.command_eq_some.mp hands
      obtain ⟨split, many⟩ := Client.splits_iff.mp splits
      rw [CommandLine.prefixed_tokens isSender short, Option.some.injEq] at split
      rw [← split] at many
      exact absurd many (Nat.lt_irrefl 1)

/-- The copy of the prefix fills its block. -/
theorem CommandLine.prefixed_sender (isSender : sender.IsSender)
    (short : (message.prefixedText sender).length ≤ bufferMax) :
    ∃ prefixed,
      client.tokens (.clean (message.prefixedText sender)) = some prefixed ∧
      prefixed.parv.head?.bind Block.toCString = none := by
  refine ⟨_, CommandLine.prefixed_tokens isSender short, ?_⟩
  rw [List.head?_cons, Option.bind_some, Block.toCString]
  exact if_neg (Nat.lt_irrefl _)

/-- The command is not found behind a prefix. -/
theorem CommandLine.prefixed_parameters (isSender : sender.IsSender)
    (short : (message.prefixedText sender).length ≤ bufferMax)
    {plain prefixed : Tokens}
    (plainSplit : client.tokens (.clean message.text) = some plain)
    (split : client.tokens (.clean (message.prefixedText sender)) =
      some prefixed) :
    (prefixed.parv.drop 1).mapM Block.toCString ≠
      (plain.parv.drop 1).mapM Block.toCString := by
  have holds : (Socket.clean message.text).Holds message.line := by
    refine message.clean_holds ?_
    rw [CommandLine.prefixedText, List.length_append, List.length_cons,
      List.length_cons] at short
    omega
  obtain ⟨byte, rest, lineEq, notBlank, notColon⟩ := message.plain.start
  have notSpace : byte ≠ sp := by
    rintro rfl
    revert notBlank
    decide
  obtain ⟨second, more, cutRest⟩ := exists_fields sp colon rest
  have cut : lineFields message.line = (byte :: second) :: more := by
    rw [lineEq, lineFields, fields_plain notSpace notColon, cutRest,
      List.modifyHead_cons]
  obtain ⟨parv, -⟩ := Client.tokens_blocks message.plain holds cut plainSplit
  rw [CommandLine.prefixed_tokens isSender short, Option.some.injEq] at split
  have empty : (prefixed.parv.drop 1).mapM Block.toCString =
      some [.empty] := by
    rw [← split]
    rfl
  rw [empty, parv, List.drop_one, List.tail_cons]
  intro same
  have member : byte ∈ message.line := by
    rw [lineEq]
    exact List.mem_cons_self
  have notNul := ne_nul_of_isStop (message.line_unbroken byte member)
  rw [eq_comm, mapM_eq_some_iff, List.map_cons, List.map_cons,
    List.cons.injEq, Block.toCString, Option.ite_none_right_eq_some] at same
  have bytes := congrArg CString.bytes (Option.some.inj same.1.2)
  change (byte :: second).takeWhile (· ≠ 0) = [] at bytes
  rw [List.takeWhile_cons_of_pos (by simpa using notNul)] at bytes
  cases bytes

/-- No line keeps its parameters behind a prefix. -/
theorem CommandLine.not_prefixKeeps (message : CommandLine) (client : Client)
    (isSender : sender.IsSender)
    (short : (message.prefixedText sender).length ≤ bufferMax) :
    ¬message.PrefixKeeps sender client := by
  intro keeps
  obtain ⟨plain, prefixed, plainSplit, split, -, same⟩ := keeps.parameters
  exact CommandLine.prefixed_parameters isSender short plainSplit split same

end Prefix

theorem greeting_not_prefixKeeps :
    ¬CommandLine.greeting.PrefixKeeps (.ofLiteral "W1AW") freshClient :=
  CommandLine.not_prefixKeeps CommandLine.greeting freshClient
    ⟨by decide +kernel, by decide +kernel, by decide +kernel⟩
    (by decide +kernel)

/-- `NICK W1AW` -/
def CommandLine.nick : CommandLine where
  command := .ofLiteral "NICK"
  middle := [.ofLiteral "W1AW"]
  trailing := none
  command_word := by decide +kernel
  middle_words := List.forall_mem_singleton.mpr (by decide +kernel)
  trailing_unbroken := CString.unbroken_of_mem_none

/-- A command that is handed over is lost behind a prefix. -/
theorem prefixed_nick_lost :
    (freshClient.command (.clean CommandLine.nick.text)).map Handed.handler =
        some .mNick ∧
      ¬CommandLine.nick.PrefixKeeps (.ofLiteral "W1AW") freshClient := by
  have plain : (freshClient.command (.clean CommandLine.nick.text)).map
      Handed.handler = some .mNick := by
    decide +kernel
  refine ⟨plain, fun keeps => ?_⟩
  have same := keeps.handler
  rw [plain, CommandLine.prefixed_command
    ⟨by decide +kernel, by decide +kernel, by decide +kernel⟩
    (by decide +kernel)] at same
  cases same

end Hamchat
