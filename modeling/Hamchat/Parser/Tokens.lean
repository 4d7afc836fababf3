import Hamchat.Foundation.Fields
import Hamchat.Parser.Line

/-!
# What the loop makes of a line

The loop of `Client::Parse` cuts a line into fields at spaces, and the first
colon starts the last field.  Its result is given in terms of the fields: their
bytes, one block for each, and the sizes of the blocks.
-/

namespace Hamchat

open Foundation

/-- The fields of a line, with the meaning that the loop gives to bytes. -/
def lineFields (line : List UInt8) : List (List UInt8) := fields sp colon line

theorem colon_ne_sp : colon ≠ sp := by decide

/-! ## One turn -/

/-- The variables of the loop when `parv[parc]` is allocated. -/
def Tokens.ready (done : List Block) (block : Block) (finalArg : Bool)
    (bytesConsumed : Nat) : Tokens :=
  ⟨done ++ [block], done.length, finalArg, bytesConsumed⟩

/-- The block that is allocated after some bytes have been consumed. -/
def Block.fresh (bytesConsumed : Nat) : Block := ⟨lineLen - bytesConsumed, []⟩

/-- More bytes in a block. -/
def Block.append (block : Block) (bytes : List UInt8) : Block :=
  { block with bytes := block.bytes ++ bytes }

@[simp] theorem Block.append_nil (block : Block) : block.append [] = block := by
  rw [Block.append, List.append_nil]

@[simp] theorem Block.append_append (block : Block)
    (first second : List UInt8) :
    (block.append first).append second = block.append (first ++ second) := by
  simp only [Block.append, List.append_assoc]

@[simp] theorem Block.append_size (block : Block) (bytes : List UInt8) :
    (block.append bytes).size = block.size := rfl

@[simp] theorem Block.append_bytes (block : Block) (bytes : List UInt8) :
    (block.append bytes).bytes = block.bytes ++ bytes := rfl

@[simp] theorem Block.fresh_append (bytesConsumed : Nat) (bytes : List UInt8) :
    (Block.fresh bytesConsumed).append bytes =
      ⟨lineLen - bytesConsumed, bytes⟩ := rfl

section Turn

variable {done : List Block} {block : Block} {finalArg : Bool} {consumed : Nat}
variable {byte : UInt8} {rest : List UInt8}

theorem Tokens.ready_allocate (room : done.length < maxArgs) :
    (Tokens.ready done block finalArg consumed).allocate =
      some (.ready done block finalArg consumed) := by
  have shorter : ¬maxArgs ≤
      (Tokens.ready done block finalArg consumed).parc :=
    Nat.not_le_of_lt room
  rw [Tokens.allocate, if_neg shorter, if_pos]
  simp [Tokens.ready]

/-- The next turn allocates a block for a new parameter. -/
theorem Tokens.next_allocate :
    (⟨done, done.length, finalArg, consumed⟩ : Tokens).allocate =
      if done.length < maxArgs ∧ consumed ≤ lineLen then
        some (.ready done (.fresh consumed) finalArg consumed)
      else
        none := by
  rw [Tokens.allocate]
  by_cases room : done.length < maxArgs
  · rw [if_neg (Nat.not_le_of_lt room), if_neg (Nat.lt_irrefl _)]
    simp only [room, true_and]
    rfl
  · rw [if_pos (Nat.le_of_not_lt room), if_neg fun both => room both.1]

theorem Tokens.ready_copyByte :
    (Tokens.ready done block finalArg consumed).copyByte byte =
      if block.bytes.length < block.size then
        some (.ready done (block.append [byte]) finalArg (consumed + 1))
      else
        none := by
  have current : (Tokens.ready done block finalArg consumed).parv[
      (Tokens.ready done block finalArg consumed).parc]? = some block := by
    simp [Tokens.ready]
  rw [Tokens.copyByte, current, Option.bind_eq_bind, Option.bind_some,
    Block.store]
  split
  · simp [Tokens.ready, Block.append]
  · rfl

/-- A turn starts by allocating a block for a new parameter. -/
theorem tokenLoop_next (done : List Block) (finalArg : Bool) (consumed : Nat)
    (memory : List UInt8) :
    tokenLoop memory ⟨done, done.length, finalArg, consumed⟩ =
      if done.length < maxArgs ∧ consumed ≤ lineLen then
        tokenLoop memory (.ready done (.fresh consumed) finalArg consumed)
      else
        none := by
  cases memory with
  | nil => rw [tokenLoop, tokenLoop, ite_self]
  | cons byte rest =>
      rw [tokenLoop, Tokens.next_allocate]
      split
      · rename_i fits
        rw [tokenLoop, Tokens.ready_allocate fits.1]
      · rfl

theorem tokenLoop_ready_stop (room : done.length < maxArgs)
    (stops : isStop byte = true) :
    tokenLoop (byte :: rest) (.ready done block finalArg consumed) =
      some (.ready done block finalArg consumed) := by
  rw [tokenLoop, Tokens.ready_allocate room, Option.bind_eq_bind,
    Option.bind_some, if_pos (isStop_iff.mp stops)]

theorem tokenLoop_ready_space (room : done.length < maxArgs) :
    tokenLoop (sp :: rest) (.ready done block false consumed) =
      if done.length + 1 < maxArgs ∧ consumed + 1 ≤ lineLen then
        tokenLoop rest (.ready (done ++ [block]) (.fresh (consumed + 1)) false
          (consumed + 1))
      else
        none := by
  have next := tokenLoop_next (done ++ [block]) false (consumed + 1) rest
  rw [List.length_append, List.length_singleton] at next
  rw [tokenLoop, Tokens.ready_allocate room, Option.bind_eq_bind,
    Option.bind_some, if_neg (by decide), if_pos ⟨rfl, rfl⟩, ← next]
  rfl

theorem tokenLoop_ready_colon (room : done.length < maxArgs) :
    tokenLoop (colon :: rest) (.ready done block false consumed) =
      tokenLoop rest (.ready done block true (consumed + 1)) := by
  rw [tokenLoop, Tokens.ready_allocate room, Option.bind_eq_bind,
    Option.bind_some, if_neg (by decide),
    if_neg fun space => colon_ne_sp space.2, if_pos ⟨rfl, rfl⟩]
  rfl

/-- Any other byte, and every byte of the final parameter, is no separator. -/
theorem Tokens.ready_inside
    (inside : finalArg = true ∨ byte ≠ sp ∧ byte ≠ colon) :
    ¬((Tokens.ready done block finalArg consumed).finalArg = false ∧
        byte = sp) ∧
      ¬((Tokens.ready done block finalArg consumed).finalArg = false ∧
        byte = colon) := by
  rcases inside with rfl | ⟨notSpace, notColon⟩
  · simp [Tokens.ready]
  · simp [notSpace, notColon]

/-- So it is copied. -/
theorem tokenLoop_ready_byte (room : done.length < maxArgs)
    (goesOn : isStop byte = false)
    (inside : finalArg = true ∨ byte ≠ sp ∧ byte ≠ colon) :
    tokenLoop (byte :: rest) (.ready done block finalArg consumed) =
      if block.bytes.length < block.size then
        tokenLoop rest
          (.ready done (block.append [byte]) finalArg (consumed + 1))
      else
        none := by
  obtain ⟨noSpace, noColon⟩ := Tokens.ready_inside inside
  rw [tokenLoop, Tokens.ready_allocate room, Option.bind_eq_bind,
    Option.bind_some, if_neg (by rw [← isStop_iff, goesOn]; decide),
    if_neg noSpace, if_neg noColon, Tokens.ready_copyByte]
  split <;> rfl

end Turn

/-! ## The whole line -/

/-- The blocks for the fields behind the first one, of which the first starts
after some bytes have been consumed. -/
def fieldBlocks : (bytesConsumed : Nat) → List (List UInt8) → List Block
  | _, [] => []
  | bytesConsumed, field :: rest =>
      ⟨lineLen - bytesConsumed, field⟩ ::
        fieldBlocks (bytesConsumed + field.length + 1) rest

theorem lineBytes_cons {byte : UInt8} (goesOn : isStop byte = false)
    (rest : List UInt8) : lineBytes (byte :: rest) = byte :: lineBytes rest := by
  rw [lineBytes, List.takeWhile_cons_of_pos (by simp [goesOn]), lineBytes]

theorem lineBytes_stop {byte : UInt8} (stops : isStop byte = true)
    (rest : List UInt8) : lineBytes (byte :: rest) = [] := by
  rw [lineBytes, List.takeWhile_cons_of_neg (by simp [stops])]

/-- How the line at the front of a text is cut into its first field and the other
fields, byte by byte. -/
inductive LineCut : (memory first : List UInt8) → (more : List (List UInt8)) →
    Prop
  /-- The text is over. -/
  | nil : LineCut [] [] []
  /-- The line is over. -/
  | stop {byte : UInt8} {rest : List UInt8} (stops : isStop byte = true) :
      LineCut (byte :: rest) [] []
  /-- A space ends a field. -/
  | space {rest first : List UInt8} {more : List (List UInt8)}
      (later : LineCut rest first more) :
      LineCut (sp :: rest) [] (first :: more)
  /-- A colon starts the final field. -/
  | mark (rest : List UInt8) : LineCut (colon :: rest) (lineBytes rest) []
  /-- Any other byte belongs to a field. -/
  | byte {byte : UInt8} {rest first : List UInt8} {more : List (List UInt8)}
      (goesOn : isStop byte = false) (notSpace : byte ≠ sp)
      (notColon : byte ≠ colon) (later : LineCut rest first more) :
      LineCut (byte :: rest) (byte :: first) more

namespace LineCut

variable {memory first : List UInt8} {more : List (List UInt8)}

/-- It is cut into the fields of the line. -/
theorem lineFields_eq (cut : LineCut memory first more) :
    lineFields (lineBytes memory) = first :: more := by
  induction cut with
  | nil => rfl
  | stop stops => rw [lineBytes_stop stops, lineFields, fields_nil]
  | space later inductionHypothesis =>
      rw [lineBytes_cons (by decide), lineFields, fields_sep, ← lineFields,
        inductionHypothesis]
  | mark rest =>
      rw [lineBytes_cons (by decide), lineFields, fields_mark colon_ne_sp]
  | byte goesOn notSpace notColon later inductionHypothesis =>
      rw [lineBytes_cons goesOn, lineFields, fields_plain notSpace notColon,
        ← lineFields, inductionHypothesis, List.modifyHead_cons]

theorem exists_of_memory (memory : List UInt8) :
    ∃ first more, LineCut memory first more := by
  induction memory with
  | nil => exact ⟨_, _, .nil⟩
  | cons byte rest inductionHypothesis =>
      obtain ⟨first, more, later⟩ := inductionHypothesis
      cases stops : isStop byte with
      | true => exact ⟨_, _, .stop stops⟩
      | false =>
          by_cases isSpace : byte = sp
          · exact isSpace ▸ ⟨_, _, .space later⟩
          · by_cases isColon : byte = colon
            · exact isColon ▸ ⟨_, _, .mark rest⟩
            · exact ⟨_, _, .byte stops isSpace isColon later⟩

/-- Every line is cut in one of these ways. -/
theorem of_lineFields (fields : lineFields (lineBytes memory) = first :: more) :
    LineCut memory first more := by
  obtain ⟨_, _, cut⟩ := exists_of_memory memory
  obtain ⟨rfl, rfl⟩ := List.cons.inj (cut.lineFields_eq.symm.trans fields)
  exact cut

end LineCut

section Line

variable {done : List Block} {block : Block} {consumed : Nat}
variable {memory : List UInt8} {tokens : Tokens}

/-- Behind the mark the whole line goes into one block. -/
theorem tokenLoop_final (room : done.length < maxArgs)
    (split : tokenLoop memory (.ready done block true consumed) =
      some tokens) :
    tokens.parv = done ++ [block.append (lineBytes memory)] ∧
      tokens.parc = done.length := by
  induction memory generalizing block consumed with
  | nil => cases split
  | cons byte rest inductionHypothesis =>
      cases stops : isStop byte with
      | true =>
          rw [tokenLoop_ready_stop room stops] at split
          obtain rfl := Option.some.inj split
          rw [lineBytes_stop stops, Block.append_nil]
          exact ⟨rfl, rfl⟩
      | false =>
          rw [tokenLoop_ready_byte room stops (.inl rfl),
            Option.ite_none_right_eq_some] at split
          have later := inductionHypothesis split.2
          rw [Block.append_append] at later
          rwa [lineBytes_cons stops]

/-- The loop leaves one block for each field of the line. -/
theorem tokenLoop_ready {first : List UInt8} {more : List (List UInt8)}
    (room : done.length < maxArgs)
    (cut : lineFields (lineBytes memory) = first :: more)
    (split : tokenLoop memory (.ready done block false consumed) =
      some tokens) :
    tokens.parv = done ++ block.append first ::
        fieldBlocks (consumed + first.length + 1) more ∧
      tokens.parc = done.length + more.length := by
  replace cut := LineCut.of_lineFields cut
  induction cut generalizing done block consumed with
  | nil => cases split
  | stop stops =>
      rw [tokenLoop_ready_stop room stops] at split
      obtain rfl := Option.some.inj split
      rw [Block.append_nil]
      exact ⟨rfl, rfl⟩
  | space later inductionHypothesis =>
      rw [tokenLoop_ready_space room, Option.ite_none_right_eq_some] at split
      obtain ⟨parv, parc⟩ := inductionHypothesis
        (by simpa using split.1.1) split.2
      rw [parv, parc]
      simp [fieldBlocks, Nat.add_comm, Nat.add_left_comm]
  | mark rest =>
      rw [tokenLoop_ready_colon room] at split
      exact tokenLoop_final room split
  | byte goesOn notSpace notColon later inductionHypothesis =>
      rw [tokenLoop_ready_byte room goesOn (.inr ⟨notSpace, notColon⟩),
        Option.ite_none_right_eq_some] at split
      obtain ⟨parv, parc⟩ := inductionHypothesis room split.2
      rw [parv, parc, Block.append_append, List.length_cons]
      exact ⟨by simp [Nat.add_comm, Nat.add_left_comm], rfl⟩

end Line

/-! ## The start of the line -/

section Head

variable {client : Client} {recvbuf : RecvBuf} {first : UInt8}
variable {rest : List UInt8}

theorem RecvBuf.getElem?_blanks (found : recvbuf.afterBlanks = first :: rest) :
    recvbuf.bytes[(recvbuf.bytes.takeWhile isBlank).length]? = some first := by
  rw [← List.head?_drop, drop_length_takeWhile, ← RecvBuf.afterBlanks, found,
    List.head?_cons]

theorem RecvBuf.drop_blanks_succ (found : recvbuf.afterBlanks = first :: rest) :
    recvbuf.bytes.drop ((recvbuf.bytes.takeWhile isBlank).length + 1) =
      rest := by
  rw [← List.tail_drop, drop_length_takeWhile, ← RecvBuf.afterBlanks, found,
    List.tail_cons]

/-- A line without a prefix. -/
theorem parseHead_plain (found : recvbuf.afterBlanks = first :: rest)
    (plain : first ≠ colon) :
    parseHead client recvbuf =
      some (.line recvbuf recvbuf.blanks
        ⟨hostNameMax, client.callsign.bytes⟩ 0) := by
  rw [parseHead, RecvBuf.getElem?_blanks found, Option.bind_eq_bind,
    Option.bind_some, if_neg plain]
  rfl

/-- A prefix with no space behind it. -/
theorem parseHead_bare (found : recvbuf.afterBlanks = colon :: rest)
    (search : strchr sp rest = some none) :
    parseHead client recvbuf =
      some (.line recvbuf (recvbuf.blanks + 1) ⟨hostNameMax, []⟩ 1) := by
  rw [parseHead, RecvBuf.getElem?_blanks found, Option.bind_eq_bind,
    Option.bind_some, if_pos rfl]
  dsimp only
  rw [RecvBuf.drop_blanks_succ found, search]
  rfl

/-- A prefix with a space behind it. -/
theorem parseHead_prefix (found : recvbuf.afterBlanks = colon :: rest)
    {eaten : Nat} (positive : 0 < eaten)
    (search : strchr sp rest = some (some eaten)) :
    parseHead client recvbuf =
      some (.line (recvbuf.set (recvbuf.blanks + 1 + eaten) 0)
        (recvbuf.blanks + 1 + eaten) ⟨eaten, rest.take eaten⟩
        (1 + eaten)) := by
  rw [parseHead, RecvBuf.getElem?_blanks found, Option.bind_eq_bind,
    Option.bind_some, if_pos rfl]
  dsimp only
  rw [RecvBuf.drop_blanks_succ found, search, Option.bind_eq_bind,
    Option.bind_some]
  exact if_pos positive

end Head

/-! ## A clean buffer -/

/-- A zeroed buffer in which a text has been stored. -/
def RecvBuf.clean (text : List UInt8) : RecvBuf where
  bytes := (text ++ List.replicate bufferMax 0).take bufferMax
  length_eq := by
    rw [List.length_take, List.length_append, List.length_replicate]
    omega

/-- A text that fits stands at the start of the buffer. -/
theorem RecvBuf.clean_bytes {text : List UInt8}
    (fits : text.length ≤ bufferMax) :
    (RecvBuf.clean text).bytes =
      text ++ List.replicate (bufferMax - text.length) 0 := by
  change (text ++ List.replicate bufferMax 0).take bufferMax = _
  rw [List.take_append, List.take_of_length_le fits, List.take_replicate,
    Nat.min_eq_left (Nat.sub_le _ _)]

/-- A socket that has just received a text. -/
def Socket.clean (text : List UInt8) : Socket :=
  { Socket.zeroed with recvbuf := .clean text }

end Hamchat
