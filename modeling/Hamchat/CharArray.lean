import Hamchat.CString

/-!
# Arrays of characters

`char array[size]` as the list of its bytes, with the library functions that
fill it.  A call has to fit its array, so that nothing is written behind it.
-/

namespace Hamchat

/-- `char array[size]` -/
structure CharArray (size : Nat) where
  /-- The bytes. -/
  bytes : List UInt8
  /-- There are as many as declared. -/
  length_eq : bytes.length = size
  deriving DecidableEq

namespace CString

@[simp] theorem bytes_read (memory : List UInt8) :
    (CString.read memory).bytes = memory.takeWhile (· ≠ 0) := rfl

/-- What follows the first NUL is not read. -/
@[simp] theorem read_append_zero (string : CString) (rest : List UInt8) :
    CString.read (string.bytes ++ 0 :: rest) = string := by
  ext1
  have kept : ∀ byte ∈ string.bytes, decide (byte ≠ 0) = true := by
    simpa using string.nulFree
  rw [bytes_read, List.takeWhile_append_of_pos kept,
    List.takeWhile_cons_of_neg (by simp), List.append_nil]

/-- A block without NUL is read to its end. -/
@[simp] theorem read_self (string : CString) :
    CString.read string.bytes = string := by
  ext1
  rw [bytes_read, List.takeWhile_eq_self_iff]
  simpa using string.nulFree

theorem truncate_of_lt {string : CString} {size : Nat}
    (short : string.length < size) : string.truncate size = string := by
  ext1
  exact List.take_of_length_le (Nat.le_sub_one_of_lt short)

end CString

namespace CharArray

variable {size : Nat}

/-- `memcpy(array, source, count)`, where `source` has `count` bytes. -/
def memcpy (array : CharArray size) (source : List UInt8)
    (fits : source.length ≤ size) : CharArray size where
  bytes := source ++ array.bytes.drop source.length
  length_eq := by
    rw [List.length_append, List.length_drop, array.length_eq]
    omega

/-- `memset(array, 0, count)` -/
def memset (array : CharArray size) (count : Nat) (fits : count ≤ size) :
    CharArray size :=
  array.memcpy (List.replicate count 0) (by rwa [List.length_replicate])

/-- `snprintf(array, limit, "%s", string)` -/
def snprintf (array : CharArray size) (limit : Nat) (string : CString)
    (positive : 0 < limit) (fits : limit ≤ size) : CharArray size :=
  array.memcpy ((string.truncate limit).bytes ++ [0]) (by
    have short : (string.truncate limit).bytes.length ≤ limit - 1 :=
      List.length_take_le _ _
    rw [List.length_append, List.length_singleton]
    omega)

/-- The string in an array.  Without a NUL it goes on behind the array; only the
part in the array is read here. -/
def text (array : CharArray size) : CString := .read array.bytes

/-- An array holds a NUL. -/
def Terminated (array : CharArray size) : Prop := 0 ∈ array.bytes

instance (array : CharArray size) : Decidable array.Terminated :=
  inferInstanceAs (Decidable (_ ∈ _))

section Filled

variable (array : CharArray size) (string : CString)

theorem bytes_memcpy (source : List UInt8) (fits : source.length ≤ size) :
    (array.memcpy source fits).bytes =
      source ++ array.bytes.drop source.length := rfl

theorem bytes_memset : (array.memset size (Nat.le_refl size)).bytes =
    List.replicate size 0 := by
  have whole : array.bytes.drop (List.replicate size (0 : UInt8)).length = [] :=
    List.drop_of_length_le (by rw [List.length_replicate, array.length_eq])
  rw [memset, bytes_memcpy, whole, List.append_nil]

theorem bytes_snprintf {limit : Nat} (positive : 0 < limit)
    (fits : limit ≤ size) :
    ∃ rest, (array.snprintf limit string positive fits).bytes =
      (string.truncate limit).bytes ++ 0 :: rest := by
  rw [snprintf, bytes_memcpy, List.append_assoc]
  exact ⟨_, rfl⟩

@[simp] theorem text_snprintf {limit : Nat} (positive : 0 < limit)
    (fits : limit ≤ size) :
    (array.snprintf limit string positive fits).text =
      string.truncate limit := by
  obtain ⟨rest, bytes⟩ := array.bytes_snprintf string positive fits
  rw [text, bytes, CString.read_append_zero]

theorem terminated_snprintf {limit : Nat} (positive : 0 < limit)
    (fits : limit ≤ size) :
    (array.snprintf limit string positive fits).Terminated := by
  obtain ⟨rest, bytes⟩ := array.bytes_snprintf string positive fits
  rw [Terminated, bytes]
  exact List.mem_append_right _ List.mem_cons_self

/-- What a string is followed by when it is copied into a cleared array. -/
theorem bytes_memcpy_memset (fits : string.bytes.length ≤ size) :
    ((array.memset size (Nat.le_refl size)).memcpy string.bytes fits).bytes =
      string.bytes ++ List.replicate (size - string.length) 0 := by
  rw [bytes_memcpy, bytes_memset, List.drop_replicate]
  rfl

@[simp] theorem text_memcpy_memset (fits : string.bytes.length ≤ size) :
    ((array.memset size (Nat.le_refl size)).memcpy string.bytes fits).text =
      string := by
  rw [text, bytes_memcpy_memset]
  cases size - string.length with
  | zero => rw [List.replicate_zero, List.append_nil, CString.read_self]
  | succ count => rw [List.replicate_succ, CString.read_append_zero]

/-- A cleared array that gets a string by `memcpy` holds a NUL exactly if the
string leaves room for it. -/
theorem terminated_memcpy_memset (fits : string.bytes.length ≤ size) :
    ((array.memset size (Nat.le_refl size)).memcpy string.bytes
        fits).Terminated ↔
      string.length < size := by
  have noNul : 0 ∉ string.bytes := fun member => string.nulFree 0 member rfl
  rw [Terminated, bytes_memcpy_memset, List.mem_append, or_iff_right noNul,
    List.mem_replicate, and_iff_left rfl, Nat.sub_ne_zero_iff_lt]

end Filled

/-- An array holds a NUL, and the string in it is what it was filled from, if
anything, without what exceeds `limit - 1` bytes. -/
structure Holds (array : CharArray size) (limit : Nat)
    (given : Option CString) : Prop where
  /-- There is a NUL. -/
  terminated : array.Terminated
  /-- The string is faithful. -/
  text_eq : ∀ parameter, given = some parameter →
    array.text = parameter.truncate limit

end CharArray

end Hamchat
