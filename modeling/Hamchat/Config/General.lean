import Hamchat.Config.Reading

/-!
# The section `general`

The entries of a file are stored one after the other, under the keys and words
that `strtok` finds.  So the file is read as written exactly if `strtok` finds
the values of its assignments, and nothing else that is stored stays visible:
no comment with two slashes, and no line of another section whose name begins
with `general`.
-/

namespace Hamchat

/-! ## Words -/

section Words

variable {text key value : CString}

theorem CString.eq_empty_iff {string : CString} :
    string = .empty ↔ string.bytes = [] := by
  rw [CString.ext_iff]
  rfl

/-- `strtok` finds a word unless nothing but delimiters is left. -/
theorem strtok_fst (text : CString) :
    (strtok text).1 =
      if text.dropWhile isDelimiter = .empty then none
      else some ((text.dropWhile isDelimiter).takeWhile (!isDelimiter ·)) := by
  rw [strtok]
  split <;> rfl

/-- A word that `strtok` returns holds no delimiter. -/
theorem isDelimiter_of_mem_strtok {word : CString}
    (found : (strtok text).1 = some word) {byte : UInt8}
    (member : byte ∈ word.bytes) : isDelimiter byte = false := by
  rw [strtok_fst, Option.ite_none_left_eq_some] at found
  obtain ⟨-, found⟩ := found
  obtain rfl := Option.some.inj found
  simpa using List.mem_takeWhile_imp member

/-- Delimiters are skipped in front of a word only. -/
theorem dropWhile_isDelimiter (nonempty : key ≠ .empty)
    (plain : ∀ byte ∈ key.bytes, isDelimiter byte = false)
    {rest : List UInt8} (bytes : text.bytes = key.bytes ++ rest) :
    text.dropWhile isDelimiter = text ∧ text ≠ .empty := by
  rw [Ne, CString.eq_empty_iff] at nonempty
  obtain ⟨first, others, cons⟩ := List.exists_cons_of_ne_nil nonempty
  have free := plain first (by rw [cons]; exact List.mem_cons_self)
  have text_eq : text.bytes = first :: (others ++ rest) := by
    rw [bytes, cons, List.cons_append]
  constructor
  · ext1
    show text.bytes.dropWhile isDelimiter = text.bytes
    rw [text_eq, List.dropWhile_cons_of_neg (by rw [free]; decide)]
  · rw [Ne, CString.eq_empty_iff, text_eq]
    exact List.cons_ne_nil _ _

/-- `strtok` takes what stands in front of the first delimiter, if it is not
empty. -/
theorem strtok_append (nonempty : key ≠ .empty)
    (plain : ∀ byte ∈ key.bytes, isDelimiter byte = false) {delimiter : UInt8}
    (delimits : isDelimiter delimiter = true)
    (bytes : text.bytes = key.bytes ++ delimiter :: value.bytes) :
    strtok text = (some key, value) := by
  obtain ⟨skipped, notEmpty⟩ := dropWhile_isDelimiter nonempty plain bytes
  have wordBytes : ∀ byte ∈ key.bytes, (!isDelimiter byte) = true := by
    simpa using plain
  have word : text.takeWhile (!isDelimiter ·) = key := by
    ext1
    show text.bytes.takeWhile (!isDelimiter ·) = key.bytes
    rw [bytes, List.takeWhile_append_of_pos wordBytes,
      List.takeWhile_cons_of_neg (by simp [delimits]), List.append_nil]
  have rest : (text.dropWhile (!isDelimiter ·)).drop 1 = value := by
    ext1
    show (text.bytes.dropWhile (!isDelimiter ·)).drop 1 = value.bytes
    rw [bytes, List.dropWhile_append_of_pos wordBytes,
      List.dropWhile_cons_of_neg (by simp [delimits])]
    rfl
  rw [strtok, skipped]
  simp only [notEmpty, if_false, word, rest]

/-- `strtok` takes a text without delimiters as a whole. -/
theorem strtok_of_plain (nonempty : text ≠ .empty)
    (plain : ∀ byte ∈ text.bytes, isDelimiter byte = false) :
    (strtok text).1 = some text := by
  obtain ⟨skipped, -⟩ := dropWhile_isDelimiter nonempty plain
    (List.append_nil _).symm
  rw [strtok_fst, skipped, if_neg nonempty]
  congr 1
  ext1
  exact List.takeWhile_eq_self_iff.mpr (by simpa using plain)

theorem isPlain_of_strtok {word : CString}
    (found : (strtok text).1 = some word) : IsPlain word := by
  intro byte member
  have free := isDelimiter_of_mem_strtok found member
  constructor <;> rintro rfl <;> cases free

/-- The first word of a value is the value exactly if it is plain. -/
theorem strtok_eq_self_iff (nonempty : value ≠ .empty)
    (noNewline : 10 ∉ value.bytes) :
    (strtok value).1 = some value ↔ IsPlain value := by
  constructor
  · exact isPlain_of_strtok
  · intro plain
    refine strtok_of_plain nonempty fun byte member => ?_
    obtain ⟨notSpace, notEqual⟩ := plain byte member
    have notNewline : byte ≠ 10 := by
      rintro rfl
      exact noNewline member
    simp [isDelimiter, notSpace, notEqual, notNewline]

end Words

/-! ## Kinds of lines -/

/-- The words of a line, by the two calls of `strtok`. -/
theorem lineWords_eq (text : CString) :
    lineWords text =
      if text.length ≤ 1 ∨ text.bytes.head? = some 35 ∨
          text.bytes.head? = some 59 then
        none
      else
        (strtok text).1.map fun key => (key, (strtok (strtok text).2).1) :=
  rfl

section Kinds

variable {text key value : CString}

/-- What a header looks like. -/
theorem header_eq {name : CString}
    (kind : ConfigLine.ofText text = .header name) :
    text.bytes.head? = some 91 ∧ text.bytes.getLast? = some 93 ∧
      2 ≤ text.length ∧
        name = (text.drop 1).strndup (text.length - 2) := by
  rw [ConfigLine.ofText] at kind
  split at kind
  · cases kind
  split at kind
  · rename_i header
    exact ⟨header.1, header.2.1, header.2.2,
      (ConfigLine.header.inj kind).symm⟩
  split at kind
  · cases kind
  split at kind
  · cases kind
  · dsimp only at kind
    split at kind <;> cases kind

/-- What an assignment looks like. -/
theorem assignment_eq (kind : ConfigLine.ofText text = .assignment key value) :
    text.bytes = key.bytes ++ 61 :: value.bytes ∧ key ≠ .empty ∧
      (∀ byte ∈ key.bytes, byte ≠ 32 ∧ byte ≠ 61) ∧ value ≠ .empty ∧
      text.bytes.take 2 ≠ [47, 47] ∧ text.bytes.head? ≠ some 35 ∧
      text.bytes.head? ≠ some 59 := by
  rw [ConfigLine.ofText] at kind
  split at kind
  · cases kind
  split at kind
  · cases kind
  split at kind
  · cases kind
  rename_i noComment
  split at kind
  · cases kind
  rename_i noSlashes
  dsimp only at kind
  split at kind
  case isFalse => cases kind
  rename_i parts
  obtain ⟨rfl, rfl⟩ := ConfigLine.assignment.inj kind
  obtain ⟨keyNonempty, noSpace, valueNonempty, -, -⟩ := parts
  refine ⟨?_, keyNonempty, fun byte member => ⟨?_, ?_⟩, valueNonempty,
    noSlashes, fun hash => noComment (.inl hash),
    fun semicolon => noComment (.inr semicolon)⟩
  · have halves := List.takeWhile_append_dropWhile (p := fun byte => byte != 61)
      (l := text.bytes)
    rw [Ne, CString.eq_empty_iff] at valueNonempty
    cases rest : text.bytes.dropWhile (· != 61) with
    | nil =>
        refine absurd ?_ valueNonempty
        show (text.bytes.dropWhile (· != 61)).drop 1 = []
        rw [rest]
        rfl
    | cons first others =>
        have stops := List.head?_dropWhile_not (· != 61) text.bytes
        rw [rest] at stops halves
        obtain rfl : first = 61 := by simpa using stops
        show text.bytes = text.bytes.takeWhile (· != 61) ++
          61 :: (text.bytes.dropWhile (· != 61)).drop 1
        rw [rest]
        exact halves.symm
  · rintro rfl
    exact noSpace member
  · simpa using List.mem_takeWhile_imp member

/-- The words of an assignment are its key and the first word of its value. -/
theorem lineWords_of_assignment
    (kind : ConfigLine.ofText text = .assignment key value)
    (noNewline : 10 ∉ text.bytes) :
    lineWords text = some (key, (strtok value).1) := by
  obtain ⟨bytes, keyNonempty, keyPlain, valueNonempty, -, noHash, noSemicolon⟩ :=
    assignment_eq kind
  have plain : ∀ byte ∈ key.bytes, isDelimiter byte = false := by
    intro byte member
    obtain ⟨notSpace, notEqual⟩ := keyPlain byte member
    have notNewline : byte ≠ 10 := by
      rintro rfl
      exact noNewline (by rw [bytes]; exact List.mem_append_left _ member)
    simp [isDelimiter, notSpace, notEqual, notNewline]
  have long : ¬text.length ≤ 1 := by
    rw [CString.length, bytes, List.length_append, List.length_cons]
    have := List.length_pos_of_ne_nil fun empty =>
      keyNonempty (CString.eq_empty_iff.mpr empty)
    omega
  rw [lineWords, if_neg (by simp [long, noHash, noSemicolon]),
    strtok_append keyNonempty plain (show isDelimiter 61 = true from rfl)
      bytes]
  rfl

theorem slashes_eq (kind : ConfigLine.ofText text = .comment true) :
    text.bytes.take 2 = [47, 47] := by
  rw [ConfigLine.ofText] at kind
  split at kind
  · cases kind
  split at kind
  · cases kind
  split at kind
  · cases kind
  split at kind
  · assumption
  · dsimp only at kind
    split at kind <;> cases kind

/-- The first word of a comment with two slashes begins with them. -/
theorem lineWords_of_slashes {words : CString × Option CString}
    (kind : ConfigLine.ofText text = .comment true)
    (found : lineWords text = some words) :
    words.1.bytes.take 2 = [47, 47] := by
  obtain ⟨rest, bytes⟩ : ∃ rest, text.bytes = 47 :: 47 :: rest :=
    ⟨text.bytes.drop 2, by
      conv_lhs => rw [← List.take_append_drop 2 text.bytes, slashes_eq kind]
      rfl⟩
  have skipped : text.dropWhile isDelimiter = text := by
    ext1
    show text.bytes.dropWhile isDelimiter = text.bytes
    rw [bytes]
    rfl
  rw [lineWords_eq, Option.ite_none_left_eq_some] at found
  obtain ⟨-, found⟩ := found
  obtain ⟨key, word, rfl⟩ := Option.map_eq_some_iff.mp found
  rw [strtok_fst, skipped, Option.ite_none_left_eq_some] at word
  obtain rfl := Option.some.inj word.2
  show (text.bytes.takeWhile (!isDelimiter ·)).take 2 = [47, 47]
  rw [bytes]
  rfl

/-- The lines without words. -/
theorem lineWords_of_hidden (kind : ConfigLine.ofText text = .blank ∨
    ConfigLine.ofText text = .comment false) : lineWords text = none := by
  have hidden : text.length ≤ 1 ∨ text.bytes.head? = some 35 ∨
      text.bytes.head? = some 59 := by
    rw [ConfigLine.ofText] at kind
    split at kind
    · rename_i empty
      rw [empty]
      exact .inl (Nat.zero_le 1)
    split at kind
    · rcases kind with kind | kind <;> cases kind
    split at kind
    · rename_i comment
      exact .inr comment
    split at kind
    · rcases kind with kind | kind <;> cases kind
    · dsimp only at kind
      split at kind <;> rcases kind with kind | kind <;> cases kind
  rw [lineWords, if_pos hidden]

end Kinds

/-! ## What the lines store -/

/-- The words that a line stores: those of a section whose name begins with
`general`. -/
def SectionLine.words (line : SectionLine) :
    Option (CString × Option CString) :=
  match line.name with
  | none => none
  | some name =>
      if name.sameIgnoringCaseUpTo 7 generalName then
        lineWords line.text
      else
        none

/-- Two words in the store. -/
def addWords (data : KeyMap) (words : CString × Option CString) : KeyMap :=
  data.add words.1 words.2

section Stores

variable {text : CString} {state : ConfigState} {data : KeyMap}

/-- A header changes the section and nothing else. -/
theorem parseText_header {name : CString}
    (kind : ConfigLine.ofText text = .header name) :
    parseText generalName state text =
      { state with thisSection := some name } := by
  obtain ⟨opens, closes, long, rfl⟩ := header_eq kind
  rw [parseText, if_neg, if_pos ⟨opens, closes⟩]
  rintro (short | hash | semicolon)
  · omega
  · exact absurd (opens.symm.trans hash) (by decide)
  · exact absurd (opens.symm.trans semicolon) (by decide)

/-- Both comparisons with the name `general` are the same. -/
theorem sameIgnoringCaseUpTo_general (name : CString) :
    generalName.sameIgnoringCaseUpTo generalName.length name =
      name.sameIgnoringCaseUpTo 7 generalName := by
  have seven : generalName.length = 7 := by decide
  rw [seven, CString.sameIgnoringCaseUpTo, CString.sameIgnoringCaseUpTo,
    Bool.beq_comm]

/-- A line that is neither a comment nor a header is cut into words in the
sections whose name begins with `general`. -/
theorem storeLine_general (current : Option CString)
    (visible : ¬(text.length ≤ 1 ∨ text.bytes.head? = some 35 ∨
      text.bytes.head? = some 59)) :
    storeLine generalName ⟨current, data⟩ text =
      ⟨current,
        ((⟨current, text⟩ : SectionLine).words.map (addWords data)).getD
          data⟩ := by
  cases current with
  | none => rfl
  | some name =>
      rw [storeLine, SectionLine.words]
      simp only [sameIgnoringCaseUpTo_general]
      cases named : name.sameIgnoringCaseUpTo 7 generalName with
      | false => rfl
      | true =>
          rw [lineWords_eq, if_neg visible]
          simp only [Bool.not_true, Bool.false_eq_true, if_false, if_true]
          cases (strtok text).1 <;> rfl

/-- Another line stores its words. -/
theorem parseText_line (current : Option CString)
    (kind : ∀ name, ConfigLine.ofText text ≠ .header name) :
    parseText generalName ⟨current, data⟩ text =
      ⟨current,
        ((⟨current, text⟩ : SectionLine).words.map (addWords data)).getD
          data⟩ := by
  rw [parseText]
  split
  · rename_i hidden
    have noWords : (⟨current, text⟩ : SectionLine).words = none := by
      rw [SectionLine.words]
      split
      · rfl
      · rw [lineWords_eq, if_pos hidden, ite_self]
    rw [noWords]
    rfl
  rename_i visible
  split
  · rename_i header
    refine absurd ?_ (kind ((text.drop 1).strndup (text.length - 2)))
    have long : 2 ≤ text.length := by omega
    have notEmpty : text ≠ .empty := by
      rintro rfl
      exact absurd long (by decide)
    rw [ConfigLine.ofText, if_neg notEmpty, if_pos ⟨header.1, header.2, long⟩]
  · exact storeLine_general current visible

/-- The lines of a file store the words of its sections. -/
theorem foldl_parseText (current : Option CString) (lines : List CString) :
    (lines.foldl (fun state line =>
        parseText generalName state (lineText line)) ⟨current, data⟩).data =
      ((sectionLines current lines).filterMap SectionLine.words).foldl
        addWords data := by
  induction lines generalizing current data with
  | nil => rfl
  | cons line lines inductionHypothesis =>
      rw [List.foldl_cons, sectionLines]
      cases kind : ConfigLine.ofText (lineText line) with
      | header name =>
          rw [parseText_header kind]
          exact inductionHypothesis (some name)
      | _ =>
          rw [parseText_line current (by simp [kind]), inductionHypothesis,
            List.filterMap_cons]
          cases (⟨current, lineText line⟩ : SectionLine).words <;> rfl

end Stores

end Hamchat
