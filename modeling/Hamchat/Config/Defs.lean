import Hamchat.Dict.Map
import Mathlib.Data.List.DropRight

/-!
# The configuration file

`Config::ParseSection` from `src/config.cpp`, as it is called by the constructor
of `Config`.  The file is the list of its bytes, and the key/value store is a
finite map.  Reports of errors on `stderr` are left out.
-/

namespace Hamchat

namespace CString

/-- The string without its first `count` bytes. -/
def drop (string : CString) (count : Nat) : CString where
  bytes := string.bytes.drop count
  nulFree byte member := string.nulFree byte (List.mem_of_mem_drop member)

/-- `strndup(string, count)` -/
def strndup (string : CString) (count : Nat) : CString where
  bytes := string.bytes.take count
  nulFree byte member := string.nulFree byte (List.mem_of_mem_take member)

/-- The first bytes of a string that satisfy a test. -/
def takeWhile (string : CString) (test : UInt8 → Bool) : CString where
  bytes := string.bytes.takeWhile test
  nulFree byte member :=
    string.nulFree byte ((List.takeWhile_sublist _).subset member)

/-- The string without the first bytes that satisfy a test. -/
def dropWhile (string : CString) (test : UInt8 → Bool) : CString where
  bytes := string.bytes.dropWhile test
  nulFree byte member :=
    string.nulFree byte ((List.dropWhile_sublist _).subset member)

/-- The string without the last bytes that satisfy a test. -/
def rdropWhile (string : CString) (test : UInt8 → Bool) : CString where
  bytes := string.bytes.rdropWhile test
  nulFree byte member :=
    string.nulFree byte ((List.rdropWhile_prefix test _).subset member)

/-- `strncasecmp(left, right, count) == 0` -/
def sameIgnoringCaseUpTo (count : Nat) (left right : CString) : Bool :=
  (left.bytes.take count).map toLower == (right.bytes.take count).map toLower

end CString

/-! ## Library functions -/

/-- `fgets(buf, room + 1, fp)`: the bytes that it stores in front of the NUL,
the bytes left in the file, and whether it has met the end of the file. -/
def fgets : (room : Nat) → (file : List UInt8) →
    List UInt8 × List UInt8 × Bool
  | 0, file => ([], file, false)
  | _ + 1, [] => ([], [], true)
  | room + 1, byte :: file =>
      if byte = 10 then
        ([byte], file, false)
      else
        let (buf, rest, eof) := fgets room file
        (byte :: buf, rest, eof)

/-- A byte of `"= \n"`. -/
def isDelimiter (byte : UInt8) : Bool := byte == 61 || byte == 32 || byte == 10

/-- `strtok(text, "= \n")`, and the text at which a call with NULL goes on. -/
def strtok (text : CString) : Option CString × CString :=
  let token := text.dropWhile isDelimiter
  if token = .empty then
    (none, .empty)
  else
    (some (token.takeWhile (!isDelimiter ·)),
      (token.dropWhile (!isDelimiter ·)).drop 1)

/-! ## Sections -/

/-- The text `general`. -/
def generalName : CString := .ofLiteral "general"

/-- What the loop of `Config::ParseSection` works on. -/
structure ConfigState where
  /-- `char *this_section` -/
  thisSection : Option CString
  /-- `dict *data` -/
  data : KeyMap

/-- `Config::Add`, where `dict_add` refuses a NULL key. -/
def configAdd (data : KeyMap) (key val : Option CString) : KeyMap :=
  match key with
  | some key => data.add key val
  | none => data

/-- `Config::Get` -/
def configGet (data : KeyMap) (key : CString) (defval : Option CString) :
    Option CString :=
  match data key with
  | some val => val
  | none => defval

/-- `'\r'` or `'\n'` -/
def isNewline (byte : UInt8) : Bool := byte == 13 || byte == 10

/-- A line after its comments and its header have been dealt with.  The lines of
the sections `listen`, `radio` and `modules` leave the store alone. -/
def storeLine (sectionName : CString) (state : ConfigState) (skip : CString) :
    ConfigState :=
  match state.thisSection with
  | none => state
  | some thisSection =>
      if !sectionName.sameIgnoringCaseUpTo sectionName.length thisSection then
        state
      else if thisSection.sameIgnoringCaseUpTo 7 generalName then
        let (key, rest) := strtok skip
        let (val, _) := strtok rest
        { state with data := configAdd state.data key val }
      else
        state

/-- The body of the loop of `Config::ParseSection`.  When `buf` holds nothing but
line ends, the loop that deletes them goes on below `buf`; wherever it stops, the
line is skipped. -/
def parseLine (sectionName : CString) (state : ConfigState) (buf : CString) :
    ConfigState :=
  let blanks := (buf.takeWhile (· == 32)).length
  let text := buf.rdropWhile isNewline
  let skip := text.drop blanks
  let first := skip.bytes.headD 0
  let last := skip.bytes.getLastD 0
  -- `end` points to the last byte that is left.
  if (text.length : Int) - 1 - blanks ≤ 0 then
    state
  else if (first = 47 ∧ first.toNat + 1 = 47) ∨ first = 35 ∨ first = 59 then
    -- The second test for `/` adds one to the byte, not to its address.
    state
  else if first = 91 ∧ last = 93 then
    { state with
      thisSection := some ((skip.drop 1).strndup (skip.length - 2)) }
  else
    storeLine sectionName state skip

/-- The loop of `Config::ParseSection`, for at most `fuel` rounds. -/
def parseSectionLoop (sectionName : CString) :
    (fuel : Nat) → (file : List UInt8) → ConfigState → Option ConfigState
  | 0, _, _ => none
  | fuel + 1, file, state =>
      let (buf, rest, eof) := fgets 766 file
      let state := parseLine sectionName state (.read buf)
      if eof then some state else parseSectionLoop sectionName fuel rest state

/-- `Config::ParseSection`.  Every round but the last reads a byte. -/
def parseSection (sectionName : CString) (file : List UInt8) (data : KeyMap) :
    Option KeyMap :=
  (parseSectionLoop sectionName (file.length + 1) file ⟨none, data⟩).map
    ConfigState.data

/-- `Config::Config`, as the contents of `data`. -/
def configNew (file : List UInt8) : Option KeyMap :=
  parseSection generalName file KeyMap.empty

end Hamchat
