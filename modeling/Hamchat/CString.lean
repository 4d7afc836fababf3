import Mathlib.Algebra.Group.Nat.Defs
import Mathlib.Data.Fintype.EquivFin
import Mathlib.Data.List.TakeWhile

/-!
# C strings and unsigned words

A C string is a list of bytes without NUL; the terminator is not part of the
value.  Unsigned 32-bit and 64-bit arithmetic is written with natural numbers
and an explicit reduction.
-/

namespace Hamchat

/-- The value of an `unsigned` expression. -/
def u32 (value : Nat) : Nat := value % 2 ^ 32

/-- An `unsigned` variable after `--`. -/
def u32Dec (value : Nat) : Nat := if value = 0 then 2 ^ 32 - 1 else value - 1

/-- The value of a `size_t` expression. -/
def u64 (value : Nat) : Nat := value % 2 ^ 64

theorem u32_of_lt {value : Nat} (bound : value < 2 ^ 32) : u32 value = value :=
  Nat.mod_eq_of_lt bound

theorem u64_of_lt {value : Nat} (bound : value < 2 ^ 64) : u64 value = value :=
  Nat.mod_eq_of_lt bound

theorem u32_lt (value : Nat) : u32 value < 2 ^ 32 :=
  Nat.mod_lt _ (by decide)

theorem u32Dec_of_pos {value : Nat} (positive : 0 < value) :
    u32Dec value = value - 1 :=
  if_neg (Nat.ne_of_gt positive)

theorem u32Dec_ne (value : Nat) : u32Dec value ≠ value := by
  rw [u32Dec]
  split <;> omega

/-- A NUL-terminated string, without its terminator. -/
structure CString where
  /-- The bytes before the terminator. -/
  bytes : List UInt8
  /-- The terminator does not occur earlier. -/
  nulFree : ∀ byte ∈ bytes, byte ≠ 0
  deriving DecidableEq

namespace CString

@[ext] theorem ext {left right : CString}
    (equal : left.bytes = right.bytes) : left = right := by
  cases left
  cases right
  simpa using equal

/-- The string that starts at the first byte of a memory block. -/
def read (memory : List UInt8) : CString where
  bytes := memory.takeWhile (· ≠ 0)
  nulFree := by
    intro byte member
    simpa using List.mem_takeWhile_imp member

/-- A string reads back from its bytes. -/
@[simp] theorem read_bytes (string : CString) :
    read string.bytes = string := by
  ext1
  rw [read, List.takeWhile_eq_self_iff]
  intro byte member
  simpa using string.nulFree byte member

/-- The string of a literal in the source text. -/
def ofLiteral (literal : String) : CString :=
  read (literal.toList.map fun char => UInt8.ofNat char.toNat)

/-- The empty string. -/
def empty : CString := ⟨[], by simp⟩

/-- The text of several strings in a row. -/
def concat (parts : List CString) : CString where
  bytes := parts.flatMap CString.bytes
  nulFree byte member := by
    obtain ⟨part, -, inPart⟩ := List.mem_flatMap.mp member
    exact part.nulFree byte inPart

/-- `strlen` -/
def length (string : CString) : Nat := string.bytes.length

/-- What `snprintf(field, size, "%s", string)` leaves in `field`. -/
def truncate (string : CString) (size : Nat) : CString where
  bytes := string.bytes.take (size - 1)
  nulFree byte member := string.nulFree byte (List.mem_of_mem_take member)

/-- `tolower` in the C locale -/
def toLower (byte : UInt8) : UInt8 :=
  if 65 ≤ byte ∧ byte ≤ 90 then byte + 32 else byte

/-- `strcasecmp(left, right) == 0` -/
def sameIgnoringCase (left right : CString) : Bool :=
  left.bytes.map toLower == right.bytes.map toLower

/-- There are infinitely many strings. -/
instance : Infinite CString :=
  Infinite.of_injective
    (fun count => ⟨List.replicate count 1, by
      intro byte member
      rw [List.eq_of_mem_replicate member]
      decide⟩)
    (fun first second equal => by
      simpa [length] using congrArg CString.length equal)

end CString

end Hamchat
