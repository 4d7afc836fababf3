import Hamchat.Config.Format

/-!
# Reading a configuration file

The loop of `Config::ParseSection` handles one line of a file in each round,
except that a line of 766 bytes takes a second round for its newline.  So what
it does to the key/value store is determined by the words of the lines.
-/

namespace Hamchat

/-! ## One line of the file -/

section Fgets

variable {room : Nat} {line rest : List UInt8}

/-- A line that fits the buffer is read with its newline. -/
theorem fgets_of_lt (noNewline : 10 ∉ line) (fits : line.length < room) :
    fgets room (line ++ 10 :: rest) = (line ++ [10], rest, false) := by
  induction line generalizing room with
  | nil =>
      obtain ⟨room, rfl⟩ := Nat.exists_eq_add_of_lt fits
      simp [fgets]
  | cons byte line inductionHypothesis =>
      obtain ⟨room, rfl⟩ := Nat.exists_eq_succ_of_ne_zero
        (Nat.ne_of_gt (Nat.zero_lt_of_lt fits))
      obtain ⟨different, noNewline⟩ := not_or.mp
        fun either => noNewline (List.mem_cons.mpr either)
      rw [List.cons_append, fgets, if_neg (Ne.symm different),
        inductionHypothesis noNewline (Nat.lt_of_succ_lt_succ fits)]
      rfl

/-- A line that fills the buffer leaves its newline in the file. -/
theorem fgets_of_eq (noNewline : 10 ∉ line) :
    fgets line.length (line ++ 10 :: rest) = (line, 10 :: rest, false) := by
  induction line with
  | nil => rfl
  | cons byte line inductionHypothesis =>
      obtain ⟨different, noNewline⟩ := not_or.mp
        fun either => noNewline (List.mem_cons.mpr either)
      rw [List.length_cons, List.cons_append, fgets,
        if_neg (Ne.symm different), inductionHypothesis noNewline]

end Fgets

/-- No more is read than there is room for. -/
theorem length_fgets_le (room : Nat) (file : List UInt8) :
    (fgets room file).1.length ≤ room := by
  induction room generalizing file with
  | zero => exact Nat.le_refl _
  | succ room inductionHypothesis =>
      cases file with
      | nil => exact Nat.zero_le _
      | cons byte file =>
          rw [fgets]
          split
          · exact Nat.succ_le_succ (Nat.zero_le room)
          · exact Nat.succ_le_succ (inductionHypothesis file)

/-- What is read is taken from the front of the file. -/
theorem fgets_append_rest (room : Nat) (file : List UInt8) :
    (fgets room file).1 ++ (fgets room file).2.1 = file := by
  induction room generalizing file with
  | zero => rfl
  | succ room inductionHypothesis =>
      cases file with
      | nil => rfl
      | cons byte file =>
          rw [fgets]
          split
          · rfl
          · exact congrArg (byte :: ·) (inductionHypothesis file)

/-- The end of the file is met only behind a line that lacks its newline. -/
theorem fgets_of_eof {room : Nat} {file : List UInt8}
    (eof : (fgets room file).2.2 = true) :
    (fgets room file).1 = file ∧ 10 ∉ file := by
  induction room generalizing file with
  | zero => cases eof
  | succ room inductionHypothesis =>
      cases file with
      | nil => exact ⟨rfl, List.not_mem_nil⟩
      | cons byte file =>
          rw [fgets] at eof ⊢
          split at eof
          · cases eof
          · rename_i different
            obtain ⟨whole, noNewline⟩ := inductionHypothesis eof
            rw [if_neg different]
            refine ⟨congrArg (byte :: ·) whole, fun member => ?_⟩
            rcases List.mem_cons.mp member with rfl | inside
            · exact different rfl
            · exact noNewline inside

/-- Reading does not make the file longer. -/
theorem fgets_rest_le (room : Nat) (file : List UInt8) :
    (fgets room file).2.1.length ≤ file.length := by
  have whole := congrArg List.length (fgets_append_rest room file)
  rw [List.length_append] at whole
  omega

/-- A round that is not the last one reads a byte. -/
theorem fgets_rest_lt (room : Nat) {file : List UInt8}
    (more : (fgets (room + 1) file).2.2 = false) :
    (fgets (room + 1) file).2.1.length < file.length := by
  cases file with
  | nil => exact absurd more Bool.noConfusion
  | cons byte file =>
      rw [fgets]
      split
      · exact Nat.lt_succ_self _
      · exact Nat.lt_succ_of_le (fgets_rest_le room file)

/-- The strings that the loop reads from a file, in at most `fuel` rounds. -/
def fileReads : (fuel : Nat) → (file : List UInt8) → List CString
  | 0, _ => []
  | fuel + 1, file =>
      let (buf, rest, eof) := fgets 766 file
      .read buf :: if eof then [] else fileReads fuel rest

/-! ## What a line says -/

/-- A string in front of a newline. -/
def withNewline (line : CString) : CString where
  bytes := line.bytes ++ [10]
  nulFree byte member := by
    rcases List.mem_append.mp member with inside | last
    · exact line.nulFree byte inside
    · rw [List.mem_singleton.mp last]
      decide

theorem read_withNewline (line : CString) :
    CString.read (line.bytes ++ [10]) = withNewline line :=
  (withNewline line).read_bytes

@[simp] theorem lineText_withNewline (line : CString) :
    lineText (withNewline line) = lineText line := by
  have dropped : (withNewline line).rdropWhile isNewline =
      line.rdropWhile isNewline := by
    ext1
    exact List.rdropWhile_concat_pos isNewline _ _ rfl
  rw [lineText, dropped, lineText]

/-- What `Config::ParseSection` does with the text of a line. -/
def parseText (sectionName : CString) (state : ConfigState) (text : CString) :
    ConfigState :=
  if text.length ≤ 1 ∨ text.bytes.head? = some 35 ∨
      text.bytes.head? = some 59 then
    state
  else if text.bytes.head? = some 91 ∧ text.bytes.getLast? = some 93 then
    { state with
      thisSection := some ((text.drop 1).strndup (text.length - 2)) }
  else
    storeLine sectionName state text

/-- The leading spaces of a line are those in front of its line ends. -/
theorem takeWhile_rdropWhile (buf : CString) :
    (buf.rdropWhile isNewline).takeWhile (· == 32) =
      buf.takeWhile (· == 32) := by
  ext1
  show (buf.bytes.rdropWhile isNewline).takeWhile (· == 32) =
    buf.bytes.takeWhile (· == 32)
  conv_rhs => rw [← @List.rdropWhile_append_rtakeWhile _ isNewline buf.bytes]
  rw [List.takeWhile_append]
  split
  · rename_i blank
    rw [(List.takeWhile_prefix _).eq_of_length blank]
    cases ends : buf.bytes.rtakeWhile isNewline with
    | nil => simp
    | cons first rest =>
        have newline : isNewline first = true :=
          List.mem_rtakeWhile_imp (by rw [ends]; exact List.mem_cons_self)
        have notBlank : (first == 32) = false := by
          rw [isNewline, Bool.or_eq_true, beq_iff_eq, beq_iff_eq] at newline
          rcases newline with rfl | rfl <;> decide
        simp [notBlank]
  · rfl

/-- Skipping the leading spaces leaves the text of the line. -/
theorem drop_blanks (buf : CString) :
    (buf.rdropWhile isNewline).drop (buf.takeWhile (· == 32)).length =
      lineText buf := by
  have whole := List.takeWhile_append_dropWhile (p := fun byte => byte == 32)
    (l := (buf.rdropWhile isNewline).bytes)
  rw [← takeWhile_rdropWhile]
  ext1
  show (buf.rdropWhile isNewline).bytes.drop
      ((buf.rdropWhile isNewline).bytes.takeWhile (· == 32)).length =
    (buf.rdropWhile isNewline).bytes.dropWhile (· == 32)
  conv_lhs => arg 2; rw [← whole]
  exact List.drop_left

theorem length_blanks (buf : CString) :
    (buf.rdropWhile isNewline).length =
      (buf.takeWhile (· == 32)).length + (lineText buf).length := by
  rw [← takeWhile_rdropWhile, CString.length, CString.length, CString.length,
    ← List.length_append]
  exact congrArg List.length List.takeWhile_append_dropWhile.symm

theorem headD_eq_iff {bytes : List UInt8} {byte : UInt8} (ne : byte ≠ 0) :
    bytes.headD 0 = byte ↔ bytes.head? = some byte := by
  cases bytes with
  | nil => simp [Ne.symm ne]
  | cons first rest => simp

theorem getLastD_eq_iff {bytes : List UInt8} {byte : UInt8} (ne : byte ≠ 0) :
    bytes.getLastD 0 = byte ↔ bytes.getLast? = some byte := by
  rw [List.getLastD_eq_getLast?]
  cases bytes.getLast? with
  | none => simp [Ne.symm ne]
  | some last => simp

/-- The loop body depends on the text of the line only. -/
theorem parseLine_eq (sectionName : CString) (state : ConfigState)
    (buf : CString) :
    parseLine sectionName state buf =
      parseText sectionName state (lineText buf) := by
  have counted := length_blanks buf
  have short : ((buf.rdropWhile isNewline).length : Int) - 1 -
      (buf.takeWhile (· == 32)).length ≤ 0 ↔ (lineText buf).length ≤ 1 := by
    omega
  have slash (byte : UInt8) : ¬(byte = 47 ∧ byte.toNat + 1 = 47) := by
    rintro ⟨rfl, next⟩
    revert next
    decide
  rw [parseLine, parseText]
  simp only [drop_blanks, short, slash, false_or,
    headD_eq_iff (show (35 : UInt8) ≠ 0 by decide),
    headD_eq_iff (show (59 : UInt8) ≠ 0 by decide),
    headD_eq_iff (show (91 : UInt8) ≠ 0 by decide),
    getLastD_eq_iff (show (93 : UInt8) ≠ 0 by decide)]
  by_cases single : (lineText buf).length ≤ 1
  · rw [if_pos single, if_pos (.inl single)]
  · rw [if_neg single]
    simp only [single, false_or]

/-- A line end alone changes nothing. -/
theorem parseText_empty (sectionName : CString) (state : ConfigState) :
    parseText sectionName state .empty = state :=
  if_pos (.inl (Nat.zero_le 1))

/-! ## The loop -/

section Loop

variable {sectionName : CString} {fuel : Nat} {file rest : List UInt8}
  {state : ConfigState}

/-- A round that does not meet the end of the file handles what it has read. -/
theorem parseSectionLoop_of_read {buf : List UInt8}
    (read : fgets 766 file = (buf, rest, false)) :
    parseSectionLoop sectionName (fuel + 1) file state =
      parseSectionLoop sectionName fuel rest
        (parseText sectionName state (lineText (.read buf))) := by
  rw [parseSectionLoop, read, ← parseLine_eq]
  rfl

/-- A round at the end of the file is the last one. -/
theorem parseSectionLoop_nil :
    parseSectionLoop sectionName (fuel + 1) [] state = some state := by
  have last : parseLine sectionName state (.read []) = state :=
    (parseLine_eq sectionName state _).trans (parseText_empty sectionName state)
  rw [parseSectionLoop, fgets]
  exact congrArg some last

/-- One line, of at most 766 bytes, takes one round or two. -/
theorem parseSectionLoop_line {line : CString} (noNewline : 10 ∉ line.bytes)
    (short : line.length < 767)
    (enough : line.length + 1 ≤ fuel) :
    ∃ remaining, fuel ≤ remaining + (line.length + 1) ∧
      parseSectionLoop sectionName fuel (line.bytes ++ 10 :: rest) state =
        parseSectionLoop sectionName remaining rest
          (parseText sectionName state (lineText line)) := by
  obtain ⟨fuel, rfl⟩ := Nat.exists_eq_succ_of_ne_zero
    (Nat.ne_of_gt (Nat.zero_lt_of_lt enough))
  rcases Nat.lt_or_eq_of_le (Nat.le_of_lt_succ short) with fits | fills
  · refine ⟨fuel, by omega, ?_⟩
    rw [parseSectionLoop_of_read (fgets_of_lt noNewline fits),
      read_withNewline, lineText_withNewline]
  · obtain ⟨fuel, rfl⟩ := Nat.exists_eq_succ_of_ne_zero
      (show fuel ≠ 0 by omega)
    have first : fgets 766 (line.bytes ++ 10 :: rest) =
        (line.bytes, 10 :: rest, false) := by
      rw [← show line.bytes.length = 766 from fills]
      exact fgets_of_eq noNewline
    have second : fgets 766 (10 :: rest) = ([10], rest, false) := rfl
    have newline : lineText (.read [10]) = .empty := by decide
    refine ⟨fuel, by omega, ?_⟩
    rw [parseSectionLoop_of_read first, CString.read_bytes,
      parseSectionLoop_of_read second, newline, parseText_empty]

end Loop

/-- The loop handles the lines of a file one after the other. -/
theorem parseSectionLoop_lines (sectionName : CString) {lines : List CString}
    (noNewline : ∀ line ∈ lines, 10 ∉ line.bytes)
    (short : ∀ line ∈ lines, line.length < 767) (state : ConfigState)
    {fuel : Nat}
    (enough : (lines.flatMap fun line => line.bytes ++ [10]).length < fuel) :
    parseSectionLoop sectionName fuel
        (lines.flatMap fun line => line.bytes ++ [10]) state =
      some (lines.foldl (fun state line =>
        parseText sectionName state (lineText line)) state) := by
  induction lines generalizing state fuel with
  | nil =>
      obtain ⟨fuel, rfl⟩ := Nat.exists_eq_succ_of_ne_zero
        (Nat.ne_of_gt (Nat.zero_lt_of_lt enough))
      exact parseSectionLoop_nil
  | cons line lines inductionHypothesis =>
      rw [List.flatMap_cons, List.append_assoc,
        List.singleton_append] at enough ⊢
      rw [List.length_append, List.length_cons] at enough
      have lineEnough : line.length + 1 ≤ fuel := by
        rw [CString.length]
        omega
      obtain ⟨remaining, left, handled⟩ := parseSectionLoop_line
        (noNewline line List.mem_cons_self) (short line List.mem_cons_self)
        lineEnough
      rw [handled, List.foldl_cons]
      rw [CString.length] at left
      exact inductionHypothesis
        (fun other member => noNewline other (List.mem_cons_of_mem _ member))
        (fun other member => short other (List.mem_cons_of_mem _ member)) _
        (by omega)

/-- Reading a file that has ended its last line handles all its lines. -/
theorem configNew_eq (file : ConfigFile) :
    configNew file.bytes = some (file.lines.foldl (fun state line =>
      parseText generalName state (lineText line))
        ⟨none, KeyMap.empty⟩).data := by
  rw [configNew, parseSection, ConfigFile.bytes,
    parseSectionLoop_lines generalName file.noNewline file.short _
      (Nat.lt_succ_self _)]
  rfl

end Hamchat
