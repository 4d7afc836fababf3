import Hamchat.Parser.Tokens

/-!
# The storage for parameters

The loop of `Client::Parse` writes into `parv` and the blocks in it as long as
the line goes on.  It stays inside them exactly for lines with few parameters of
limited length, which nothing makes sure of: a line may be as long as `recvbuf`.
-/

namespace Hamchat

open Foundation

/-! ## The bounds -/

/-- The block for `parv[parc]` has a place in the array, and if it has still to
be allocated, then `512 - bytes_consumed` has not wrapped. -/
def Tokens.AllocatesInBounds (tokens : Tokens) : Prop :=
  tokens.parc < maxArgs ∧
    (tokens.parv.length ≤ tokens.parc → tokens.bytesConsumed ≤ lineLen)

/-- A byte stored at `parv[parc][parv_offset]` lies in the block, and so does a
NUL behind it. -/
def Tokens.CopiesInBounds (tokens : Tokens) : Prop :=
  ∃ block, tokens.parv[tokens.parc]? = some block ∧
    block.bytes.length + 1 < block.size

/-- The loop stays in bounds in every turn. -/
def StaysInBounds : (memory : List UInt8) → Tokens → Prop
  | [], tokens => tokens.AllocatesInBounds
  | byte :: rest, tokens =>
      tokens.AllocatesInBounds ∧
        ∀ allocated, tokens.allocate = some allocated →
          if byte = 0 ∨ byte = cr ∨ byte = lf then
            True
          else if allocated.finalArg = false ∧ byte = sp then
            StaysInBounds rest { allocated with
              parc := allocated.parc + 1
              bytesConsumed := allocated.bytesConsumed + 1 }
          else if allocated.finalArg = false ∧ byte = colon then
            StaysInBounds rest { allocated with
              finalArg := true
              bytesConsumed := allocated.bytesConsumed + 1 }
          else
            allocated.CopiesInBounds ∧
              ∀ copied, allocated.copyByte byte = some copied →
                StaysInBounds rest copied

/-- A call of `Client::Parse` stays in bounds when it stores parameters. -/
def Client.StoresInBounds (client : Client) (sock : Socket) : Prop :=
  sock.recvbufLock = false →
    ∀ recvbuf buf sender bytesConsumed,
      parseHead client sock.recvbuf =
          some (.line recvbuf buf sender bytesConsumed) →
        StaysInBounds (recvbuf.bytes.drop buf)
          ⟨[sender, ⟨cmdLen, []⟩], 1, false, bytesConsumed⟩

/-- In bounds the loop reaches the end of the line. -/
theorem tokenLoop_defined {memory : List UInt8} {tokens : Tokens}
    (stays : StaysInBounds memory tokens)
    (ends : ∃ ending ∈ memory, isStop ending = true) :
    ∃ final, tokenLoop memory tokens = some final := by
  induction memory generalizing tokens with
  | nil =>
      obtain ⟨_, member, -⟩ := ends
      cases member
  | cons byte rest inductionHypothesis =>
      obtain ⟨⟨room, sized⟩, stays⟩ := stays
      obtain ⟨allocated, allocation⟩ :
          ∃ allocated, tokens.allocate = some allocated := by
        rw [Tokens.allocate, if_neg (Nat.not_le_of_lt room)]
        split
        · exact ⟨_, rfl⟩
        · rename_i missing
          rw [if_pos (sized (Nat.le_of_not_lt missing))]
          exact ⟨_, rfl⟩
      have turn := stays allocated allocation
      rw [tokenLoop, allocation, Option.bind_eq_bind, Option.bind_some]
      by_cases stops : byte = 0 ∨ byte = cr ∨ byte = lf
      · rw [if_pos stops]
        exact ⟨_, rfl⟩
      rw [if_neg stops] at turn ⊢
      have later : ∃ ending ∈ rest, isStop ending = true := by
        obtain ⟨ending, member, isEnding⟩ := ends
        rcases List.mem_cons.mp member with rfl | inRest
        · exact absurd (isStop_iff.mp isEnding) stops
        · exact ⟨ending, inRest, isEnding⟩
      split
      · rename_i space
        rw [if_pos space] at turn
        exact inductionHypothesis turn later
      rename_i noSpace
      rw [if_neg noSpace] at turn
      split
      · rename_i isColon
        rw [if_pos isColon] at turn
        exact inductionHypothesis turn later
      rename_i noColon
      rw [if_neg noColon] at turn
      obtain ⟨⟨block, current, fits⟩, turn⟩ := turn
      obtain ⟨copied, copy⟩ :
          ∃ copied, allocated.copyByte byte = some copied := by
        rw [Tokens.copyByte, current, Option.bind_eq_bind, Option.bind_some,
          Block.store, if_pos (Nat.lt_of_succ_lt fits)]
        exact ⟨_, rfl⟩
      rw [copy, Option.bind_some]
      exact inductionHypothesis (turn copied copy) later

/-! ## Lines that fit -/

/-- The parameters behind the command start within 512 bytes, and those that are
not empty also end there, with room for a NUL. -/
def ParametersFit : (bytesConsumed : Nat) → List (List UInt8) → Prop
  | _, [] => True
  | bytesConsumed, field :: rest =>
      bytesConsumed ≤ lineLen ∧
        (field ≠ [] → bytesConsumed + field.length < lineLen) ∧
        ParametersFit (bytesConsumed + field.length + 1) rest

/-- The command, the number of parameters and the parameters fit. -/
def FieldsFit : List (List UInt8) → Prop
  | [] => True
  | command :: parameters =>
      command.length < cmdLen ∧ parameters.length + 2 ≤ maxArgs ∧
        ParametersFit (command.length + 1) parameters

/-- What the buffer holds after the blanks fits: a line without a prefix, or one
with a prefix that nothing separates from a command.  Behind any other prefix
nothing is stored. -/
def RecvBuf.LineFits (recvbuf : RecvBuf) : Prop :=
  ∀ first rest, recvbuf.afterBlanks = first :: rest →
    if first = colon then
      strchr sp rest = some none →
        ((lineBytes rest).erase colon).length < cmdLen
    else
      FieldsFit (lineFields (lineBytes (first :: rest)))

/-! ## The loop -/

section Turn

variable {done : List Block} {block : Block} {finalArg : Bool} {consumed : Nat}
variable {byte : UInt8} {rest : List UInt8}

theorem Tokens.ready_allocatesInBounds :
    (Tokens.ready done block finalArg consumed).AllocatesInBounds ↔
      done.length < maxArgs := by
  simp [Tokens.AllocatesInBounds, Tokens.ready]

theorem Tokens.ready_copiesInBounds :
    (Tokens.ready done block finalArg consumed).CopiesInBounds ↔
      block.bytes.length + 1 < block.size := by
  simp [Tokens.CopiesInBounds, Tokens.ready]

/-- A turn starts with a new block, which has to be in bounds. -/
theorem staysInBounds_next (done : List Block) (finalArg : Bool)
    (consumed : Nat) (memory : List UInt8) :
    StaysInBounds memory ⟨done, done.length, finalArg, consumed⟩ ↔
      done.length < maxArgs ∧ consumed ≤ lineLen ∧
        StaysInBounds memory (.ready done (.fresh consumed) finalArg consumed)
    := by
  have start : (⟨done, done.length, finalArg, consumed⟩ :
      Tokens).AllocatesInBounds ↔
        done.length < maxArgs ∧ consumed ≤ lineLen := by
    simp [Tokens.AllocatesInBounds]
  cases memory with
  | nil =>
      rw [StaysInBounds, StaysInBounds, start, Tokens.ready_allocatesInBounds]
      tauto
  | cons byte rest =>
      rw [StaysInBounds, StaysInBounds, start, Tokens.ready_allocatesInBounds,
        Tokens.next_allocate, ← and_assoc]
      refine and_congr_right fun fits => ?_
      rw [if_pos fits, Tokens.ready_allocate fits.1, and_iff_right fits.1]

theorem staysInBounds_stop (room : done.length < maxArgs)
    (stops : isStop byte = true) :
    StaysInBounds (byte :: rest) (.ready done block finalArg consumed) := by
  rw [StaysInBounds, Tokens.ready_allocatesInBounds, Tokens.ready_allocate room]
  simp only [Option.some.injEq, forall_eq']
  rw [if_pos (isStop_iff.mp stops)]
  exact ⟨room, trivial⟩

theorem staysInBounds_space (room : done.length < maxArgs) :
    StaysInBounds (sp :: rest) (.ready done block false consumed) ↔
      done.length + 1 < maxArgs ∧ consumed + 1 ≤ lineLen ∧
        StaysInBounds rest (.ready (done ++ [block]) (.fresh (consumed + 1))
          false (consumed + 1)) := by
  have next := staysInBounds_next (done ++ [block]) false (consumed + 1) rest
  rw [List.length_append, List.length_singleton] at next
  rw [StaysInBounds, Tokens.ready_allocatesInBounds, Tokens.ready_allocate room,
    and_iff_right room, ← next]
  simp only [Option.some.injEq, forall_eq']
  rw [if_neg (by decide), if_pos ⟨rfl, trivial⟩]
  rfl

theorem staysInBounds_colon (room : done.length < maxArgs) :
    StaysInBounds (colon :: rest) (.ready done block false consumed) ↔
      StaysInBounds rest (.ready done block true (consumed + 1)) := by
  rw [StaysInBounds, Tokens.ready_allocatesInBounds, Tokens.ready_allocate room,
    and_iff_right room]
  simp only [Option.some.injEq, forall_eq']
  rw [if_neg (by decide), if_neg fun space => colon_ne_sp space.2,
    if_pos ⟨rfl, trivial⟩]
  rfl

theorem staysInBounds_byte (room : done.length < maxArgs)
    (goesOn : isStop byte = false)
    (inside : finalArg = true ∨ byte ≠ sp ∧ byte ≠ colon) :
    StaysInBounds (byte :: rest) (.ready done block finalArg consumed) ↔
      block.bytes.length + 1 < block.size ∧
        StaysInBounds rest
          (.ready done (block.append [byte]) finalArg (consumed + 1)) := by
  obtain ⟨noSpace, noColon⟩ := Tokens.ready_inside inside
  rw [StaysInBounds, Tokens.ready_allocatesInBounds, Tokens.ready_allocate room,
    and_iff_right room]
  simp only [Option.some.injEq, forall_eq']
  rw [if_neg (by rw [← isStop_iff, goesOn]; decide), if_neg noSpace,
    if_neg noColon, Tokens.ready_copiesInBounds]
  refine and_congr_right fun fits => ?_
  rw [Tokens.ready_copyByte, if_pos (Nat.lt_of_succ_lt fits)]
  simp only [Option.some.injEq, forall_eq']

end Turn

/-! ## The whole line -/

/-- More bytes fit into a block, with room for a NUL if there are any. -/
def Block.Admits (block : Block) (bytes : List UInt8) : Prop :=
  bytes ≠ [] → block.bytes.length + bytes.length < block.size

theorem Block.admits_nil (block : Block) : block.Admits [] :=
  fun nonempty => absurd rfl nonempty

theorem Block.admits_cons {block : Block} {byte : UInt8} {bytes : List UInt8} :
    block.Admits (byte :: bytes) ↔
      block.bytes.length + 1 < block.size ∧
        (block.append [byte]).Admits bytes := by
  simp only [Block.Admits, Block.append_bytes, Block.append_size,
    List.length_append, List.length_cons, List.length_nil, ne_eq,
    reduceCtorEq, not_false_eq_true, forall_const, zero_add]
  cases bytes with
  | nil => simp
  | cons second bytes =>
      simp only [List.length_cons, reduceCtorEq, not_false_eq_true,
        forall_const]
      omega

theorem Block.fresh_admits {consumed : Nat} {bytes : List UInt8} :
    (Block.fresh consumed).Admits bytes ↔
      (bytes ≠ [] → consumed + bytes.length < lineLen) := by
  refine forall_congr' fun nonempty => ?_
  have positive := List.length_pos_iff.mpr nonempty
  simp only [Block.fresh, List.length_nil]
  omega

section Line

variable {done : List Block} {block : Block} {consumed : Nat}

theorem staysInBounds_final (room : done.length < maxArgs)
    (memory : List UInt8) :
    StaysInBounds memory (.ready done block true consumed) ↔
      block.Admits (lineBytes memory) := by
  induction memory generalizing block consumed with
  | nil =>
      rw [StaysInBounds, Tokens.ready_allocatesInBounds]
      exact iff_of_true room block.admits_nil
  | cons byte rest inductionHypothesis =>
      cases stops : isStop byte with
      | true =>
          rw [lineBytes_stop stops]
          exact iff_of_true (staysInBounds_stop room stops) block.admits_nil
      | false =>
          rw [staysInBounds_byte room stops (.inl rfl), lineBytes_cons stops,
            Block.admits_cons, inductionHypothesis]

/-- The loop stays in bounds exactly if the fields of the line fit. -/
theorem staysInBounds_ready {memory first : List UInt8}
    {more : List (List UInt8)} (room : done.length < maxArgs)
    (cut : lineFields (lineBytes memory) = first :: more) :
    StaysInBounds memory (.ready done block false consumed) ↔
      block.Admits first ∧ done.length + more.length < maxArgs ∧
        ParametersFit (consumed + first.length + 1) more := by
  replace cut := LineCut.of_lineFields cut
  induction cut generalizing done block consumed with
  | nil =>
      rw [StaysInBounds, Tokens.ready_allocatesInBounds]
      exact iff_of_true room ⟨block.admits_nil, room, trivial⟩
  | stop stops =>
      exact iff_of_true (staysInBounds_stop room stops)
        ⟨block.admits_nil, room, trivial⟩
  | @space rest second later _ inductionHypothesis =>
      rw [staysInBounds_space room, ParametersFit, List.length_cons,
        List.length_nil, Nat.add_zero, ← Block.fresh_admits]
      by_cases more : done.length + 1 < maxArgs
      · have behind : StaysInBounds rest (.ready (done ++ [block])
            (.fresh (consumed + 1)) false (consumed + 1)) ↔ _ :=
          inductionHypothesis (by simpa using more)
        have shift : done.length + 1 + later.length =
            done.length + (later.length + 1) := by omega
        rw [behind, List.length_append, List.length_singleton, shift]
        have := block.admits_nil
        tauto
      · refine iff_of_false (fun stays => more stays.1) fun fits => more ?_
        have := fits.2.1
        omega
  | mark rest =>
      rw [staysInBounds_colon room, staysInBounds_final room]
      exact (and_iff_left ⟨room, trivial⟩).symm
  | @byte byte rest _ _ goesOn notSpace notColon _ inductionHypothesis =>
      have behind : StaysInBounds rest
          (.ready done (block.append [byte]) false (consumed + 1)) ↔ _ :=
        inductionHypothesis room
      rw [staysInBounds_byte room goesOn (.inr ⟨notSpace, notColon⟩), behind,
        Block.admits_cons, and_assoc, List.length_cons,
        Nat.add_right_comm consumed 1, Nat.add_assoc consumed]

end Line

/-! ## The whole call -/

/-- There is room for the command behind the sender. -/
theorem singleton_lt_maxArgs (sender : Block) : [sender].length < maxArgs := by
  rw [List.length_singleton]
  decide

/-- A NUL where the loop starts leaves nothing to store. -/
theorem staysInBounds_nul {done : List Block} {block : Block}
    {consumed : Nat} (room : done.length < maxArgs) {recvbuf : RecvBuf}
    (i : Nat) :
    StaysInBounds ((recvbuf.set i 0).bytes.drop i)
      (.ready done block false consumed) := by
  cases dropped : (recvbuf.set i 0).bytes.drop i with
  | nil => exact Tokens.ready_allocatesInBounds.mpr room
  | cons byte rest =>
      have atStart := List.head?_drop (l := recvbuf.bytes.set i 0) (i := i)
      rw [← RecvBuf.set_bytes, dropped, List.head?_cons, RecvBuf.set_bytes,
        List.getElem?_set] at atStart
      simp only [if_true] at atStart
      split at atStart
      · obtain rfl := Option.some.inj atStart
        exact staysInBounds_stop room (by decide)
      · cases atStart

/-- Behind a prefix with no space behind it there is one field. -/
theorem lineFields_of_strchr {rest : List UInt8}
    (search : strchr sp rest = some none) :
    lineFields (lineBytes rest) = [(lineBytes rest).erase colon] := by
  refine fields_of_not_mem colon_ne_sp fun inLine => ?_
  have absent := (strchr_isSome_iff (by decide) search).not.mp (by simp)
  refine absent (takeWhile_subset (fun byte inside => ?_) inLine)
  simpa using ne_nul_of_isStop (by simpa using inside)

theorem command_admits {first : List UInt8} :
    (⟨cmdLen, []⟩ : Block).Admits first ↔ first.length < cmdLen := by
  rw [Block.Admits, List.length_nil, Nat.zero_add]
  refine ⟨fun admits => ?_, fun less _ => less⟩
  by_cases empty : first = []
  · rw [empty]
    decide
  · exact admits empty

theorem fieldsFit_iff {first : List UInt8} {more : List (List UInt8)} :
    FieldsFit (first :: more) ↔
      (⟨cmdLen, []⟩ : Block).Admits first ∧ 1 + more.length < maxArgs ∧
        ParametersFit (0 + first.length + 1) more := by
  rw [FieldsFit, command_admits, Nat.zero_add]
  refine and_congr_right fun _ => and_congr_left fun _ => ?_
  omega

theorem Client.StoresInBounds.lineFits {client : Client} {sock : Socket}
    (stays : client.StoresInBounds sock) (unlocked : sock.recvbufLock = false) :
    sock.recvbuf.LineFits := by
  intro first rest found
  split
  · rename_i isColon
    subst isColon
    intro search
    have loop := stays unlocked _ _ _ _ (parseHead_bare found search)
    rw [← List.tail_drop, sock.recvbuf.drop_blanks, found, List.tail_cons]
      at loop
    exact command_admits.mp ((staysInBounds_ready
      (singleton_lt_maxArgs _) (lineFields_of_strchr search)).mp loop).1
  · rename_i plain
    have loop := stays unlocked _ _ _ _ (parseHead_plain found plain)
    rw [sock.recvbuf.drop_blanks, found] at loop
    obtain ⟨command, parameters, cut⟩ := exists_fields sp colon
      (lineBytes (first :: rest))
    rw [lineFields, cut]
    exact fieldsFit_iff.mpr ((staysInBounds_ready
      (singleton_lt_maxArgs _) cut).mp loop)

theorem Client.storesInBounds_of_lineFits (client : Client) {sock : Socket}
    (fits : sock.recvbuf.LineFits) : client.StoresInBounds sock := by
  intro unlocked recvbuf buf sender consumed head
  obtain ⟨first, rest, found, ways⟩ := parseHead_eq_some head
  have line := fits first rest found
  rcases ways with ⟨plain, equal⟩ | ⟨isColon, search, equal⟩ |
    ⟨-, -, equal⟩ | ⟨-, eaten, -, -, equal⟩
  · cases equal
    rw [if_neg plain] at line
    rw [sock.recvbuf.drop_blanks, found]
    obtain ⟨command, parameters, cut⟩ := exists_fields sp colon
      (lineBytes (first :: rest))
    rw [lineFields, cut] at line
    exact (staysInBounds_ready (singleton_lt_maxArgs _) cut).mpr
      (fieldsFit_iff.mp line)
  · cases equal
    rw [if_pos isColon] at line
    rw [← List.tail_drop, sock.recvbuf.drop_blanks, found, List.tail_cons]
    exact (staysInBounds_ready (singleton_lt_maxArgs _)
      (lineFields_of_strchr search)).mpr
        ⟨command_admits.mpr (line search),
          singleton_lt_maxArgs ⟨hostNameMax, []⟩, trivial⟩
  · cases equal
  · cases equal
    exact staysInBounds_nul (singleton_lt_maxArgs _) _

/-- A call of `Client::Parse` that does not find the buffer locked stores its
parameters in bounds exactly if the line in the buffer fits. -/
theorem Client.storesInBounds_iff (client : Client) (sock : Socket) :
    client.StoresInBounds sock ↔
      (sock.recvbufLock = false → sock.recvbuf.LineFits) := by
  constructor
  · exact fun stays unlocked => stays.lineFits unlocked
  · exact fun fits unlocked =>
      client.storesInBounds_of_lineFits (fits unlocked) unlocked

/-- A line of eight words uses one parameter too many. -/
theorem eighth_word_out_of_bounds :
    ¬freshClient.StoresInBounds
      (.clean (CString.ofLiteral "A B C D E F G H\r\n").bytes) := by
  intro stays
  have line := stays.lineFits rfl 65
    (RecvBuf.clean (CString.ofLiteral "A B C D E F G H\r\n").bytes).bytes.tail
    (by decide +kernel)
  rw [if_neg (by decide)] at line
  have cut : lineFields (lineBytes (65 ::
      (RecvBuf.clean (CString.ofLiteral "A B C D E F G H\r\n").bytes).bytes.tail))
        = [[65], [66], [67], [68], [69], [70], [71], [72]] := by
    decide +kernel
  rw [cut] at line
  have few := line.2.1
  revert few
  decide

end Hamchat
