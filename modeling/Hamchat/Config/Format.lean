import Hamchat.Config.Defs

/-!
# The format of the configuration file

A file is a list of lines.  A line in brackets is the header of a section, and
the lines of the section `general` are blank, comments or assignments
`key=value`.  The entries of a file are what its lines ask the key/value store
to hold.
-/

namespace Hamchat

/-- A text file whose lines all end in a newline and are shorter than 767
bytes. -/
structure ConfigFile where
  /-- The lines, without their newlines. -/
  lines : List CString
  /-- A newline ends its line. -/
  noNewline : ∀ line ∈ lines, 10 ∉ line.bytes
  /-- The lines are short. -/
  short : ∀ line ∈ lines, line.length < 767

/-- The bytes of a file. -/
def ConfigFile.bytes (file : ConfigFile) : List UInt8 :=
  file.lines.flatMap fun line => line.bytes ++ [10]

/-- What a line says: its bytes between leading spaces and line ends. -/
def lineText (line : CString) : CString :=
  (line.rdropWhile isNewline).dropWhile (· == 32)

/-! ## Lines -/

/-- The kinds of lines. -/
inductive ConfigLine
  /-- Nothing but spaces. -/
  | blank
  /-- A section header. -/
  | header (name : CString)
  /-- A comment, with two slashes or with `#` or `;`. -/
  | comment (slashes : Bool)
  /-- `key=value` -/
  | assignment (key value : CString)
  /-- Anything else. -/
  | other
  deriving DecidableEq

/-- A value is not empty and does not start or end with a space. -/
def IsValue (value : CString) : Prop :=
  value ≠ .empty ∧ value.bytes.head? ≠ some 32 ∧
    value.bytes.getLast? ≠ some 32

instance (value : CString) : Decidable (IsValue value) :=
  inferInstanceAs (Decidable (_ ∧ _))

/-- The kind of a line. -/
def ConfigLine.ofText (text : CString) : ConfigLine :=
  if text = .empty then
    .blank
  else if text.bytes.head? = some 91 ∧ text.bytes.getLast? = some 93 ∧
      2 ≤ text.length then
    .header ((text.drop 1).strndup (text.length - 2))
  else if text.bytes.head? = some 35 ∨ text.bytes.head? = some 59 then
    .comment false
  else if text.bytes.take 2 = [47, 47] then
    .comment true
  else
    let key := text.takeWhile (· != 61)
    let value := (text.dropWhile (· != 61)).drop 1
    if key ≠ .empty ∧ 32 ∉ key.bytes ∧ IsValue value then
      .assignment key value
    else
      .other

/-! ## Sections -/

/-- A line of a section. -/
structure SectionLine where
  /-- The name of the section, if a header precedes the line. -/
  name : Option CString
  /-- What the line says. -/
  text : CString

/-- The lines other than headers, with the sections that they belong to. -/
def sectionLines : (current : Option CString) → List CString →
    List SectionLine
  | _, [] => []
  | current, line :: rest =>
      match ConfigLine.ofText (lineText line) with
      | .header name => sectionLines (some name) rest
      | _ => ⟨current, lineText line⟩ :: sectionLines current rest

/-- The lines of the sections of a file. -/
def ConfigFile.body (file : ConfigFile) : List SectionLine :=
  sectionLines none file.lines

/-- The sections `general` consist of blank lines, comments and assignments. -/
def ConfigFile.WellFormed (file : ConfigFile) : Prop :=
  ∀ line ∈ file.body, line.name = some generalName →
    ConfigLine.ofText line.text ≠ .other

/-! ## Entries -/

/-- The words before and behind the first `=` or space of a line, as a key and a
value that may be missing.  Lines of one byte and the comments with `#` and `;`
have none. -/
def lineWords (text : CString) : Option (CString × Option CString) :=
  if text.length ≤ 1 ∨ text.bytes.head? = some 35 ∨
      text.bytes.head? = some 59 then
    none
  else
    let (key, rest) := strtok text
    key.map fun key => (key, (strtok rest).1)

/-- Something that a line makes the parser store. -/
inductive ConfigEntry
  /-- An assignment in a section `general`. -/
  | assigned (key value : CString)
  /-- The words of a comment with two slashes in a section `general`. -/
  | comment (key : CString) (word : Option CString)
  /-- The words of a line in another section whose name begins with `general`,
  in letters of either case. -/
  | foreign (key : CString) (word : Option CString)
  deriving DecidableEq

/-- The key that an entry is stored under. -/
def ConfigEntry.key : ConfigEntry → CString
  | .assigned key _ | .comment key _ | .foreign key _ => key

/-- The entry of a line. -/
def SectionLine.entry (line : SectionLine) : Option ConfigEntry :=
  match line.name with
  | none => none
  | some name =>
      if name = generalName then
        match ConfigLine.ofText line.text with
        | .assignment key value => some (.assigned key value)
        | .comment true =>
            (lineWords line.text).map fun words => .comment words.1 words.2
        | _ => none
      else if name.sameIgnoringCaseUpTo 7 generalName then
        (lineWords line.text).map fun words => .foreign words.1 words.2
      else
        none

/-- The entries of a file, in order. -/
def ConfigFile.entries (file : ConfigFile) : List ConfigEntry :=
  file.body.filterMap SectionLine.entry

/-- The value that an entry assigns to a key. -/
def ConfigEntry.assignedTo (key : CString) : ConfigEntry → Option CString
  | .assigned other value => if other = key then some value else none
  | .comment .. | .foreign .. => none

/-- The last value assigned to a key in the sections `general`. -/
def lastAssigned (entries : List ConfigEntry) (key : CString) :
    Option CString :=
  entries.reverse.findSome? (ConfigEntry.assignedTo key)

/-! ## What reading a file should give -/

/-- For every key that is assigned, `Config::Get` returns the last value; every
other key is not set. -/
def ReadAsWritten (entries : List ConfigEntry) (data : KeyMap) : Prop :=
  ∀ key defval, configGet data key defval =
    match lastAssigned entries key with
    | some value => some value
    | none => defval

/-- A value without a space or `=`. -/
def IsPlain (value : CString) : Prop :=
  ∀ byte ∈ value.bytes, byte ≠ 32 ∧ byte ≠ 61

/-- What a file may say so that it is read as written. -/
structure ReadableEntries (entries : List ConfigEntry) : Prop where
  /-- There is no comment with two slashes. -/
  noSlashes : ∀ key word, .comment key word ∉ entries
  /-- The values assigned last are single words. -/
  plain : ∀ key value, lastAssigned entries key = some value → IsPlain value
  /-- The words of other sections stand for keys that are assigned. -/
  known : ∀ key word, .foreign key word ∈ entries →
    lastAssigned entries key ≠ none
  /-- The last of these words for a key is followed by an assignment, or agrees
  with the last one. -/
  agree : ∀ before key word after,
    entries = before ++ .foreign key (some word) :: after →
    (∀ value, .assigned key value ∉ after) →
    (∀ other, .foreign key (some other) ∉ after) →
      lastAssigned entries key = some word

end Hamchat
