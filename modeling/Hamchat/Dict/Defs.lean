import Hamchat.CString
import Hamchat.Foundation.PartialRun
import Mathlib.Logic.Function.Basic

/-!
# The dictionary

The open-addressing table of `src/dict.cpp`.  A result `none` of an operation
means that the call does not return: a probe loop that meets no stopping slot,
or a doubling loop that has wrapped to zero.  Allocations succeed, and the
dictionary and key pointers are not NULL unless a NULL is modelled explicitly.

Keys are compared by content.  The pointer comparisons of the source agree with
that, since a slot owns a private copy of its key and never changes it.
-/

namespace Hamchat

/-- Contents of the `key` field of a slot. -/
inductive SlotKey
  /-- A NULL pointer: the slot is free. -/
  | null
  /-- `DUMMY_PTR` -/
  | dummy
  /-- A pointer to a string owned by the slot. -/
  | string (key : CString)
  deriving DecidableEq

/-- Automatic variables whose addresses the dictionary takes. -/
inductive AutomaticVariable
  /-- The parameter `ptr` of `dict_add_blob` and `dict_add_blob_ts`. -/
  | dictAddBlobPtr
  /-- The parameter `blob` of `dict_add_p`. -/
  | dictAddPBlob
  deriving DecidableEq

/-- A non-NULL `void *`.  NULL is `none` at type `Option (Pointer α)`. -/
inductive Pointer (α : Type)
  /-- The address of an object that outlives the call. -/
  | object (object : α)
  /-- The address of a variable that dies when its function returns. -/
  | automatic (owner : AutomaticVariable)
  deriving DecidableEq

/-- `keypair` -/
structure Keypair (α : Type) where
  /-- `char *key` -/
  key : SlotKey
  /-- `char *val` -/
  val : Option CString
  /-- `void *blob` -/
  blob : Option (Pointer α)
  /-- `time_t ts` -/
  ts : Int
  /-- `unsigned hash` -/
  hash : Nat
  deriving DecidableEq

/-- A slot fresh from `calloc`. -/
def Keypair.zero : Keypair α where
  key := .null
  val := none
  blob := none
  ts := 0
  hash := 0

/-- `dict` -/
structure Dict (α : Type) where
  /-- `unsigned fill` -/
  fill : Nat
  /-- `unsigned used` -/
  used : Nat
  /-- `unsigned size` -/
  size : Nat
  /-- `keypair *table`, of which the first `size` slots exist. -/
  table : Nat → Keypair α

/-- `DICT_MIN_SZ` -/
def dictMinSz : Nat := 8

/-- `PERTURB_SHIFT` -/
def perturbShift : Nat := 5

/-- `DICT_BIGSZ` -/
def dictBigsz : Nat := 64000

/-! ## Hashing -/

/-- `(unsigned)key[i]`, where `char` is signed. -/
def charToUnsigned (byte : UInt8) : Nat :=
  if byte.toNat < 128 then byte.toNat else byte.toNat + (2 ^ 32 - 256)

/-- One round of the loop of `dict_hash_dobbs`. -/
def dictHashDobbsRound (hash : Nat) (byte : UInt8) : Nat :=
  let hash := u32 (hash + charToUnsigned byte)
  let hash := u32 (hash + u32 (hash <<< 10))
  hash ^^^ (hash >>> 6)

/-- The bytes visited by `for (i = 0; i < len; i++)`, where `len` is the
`int` that receives `strlen(key)`. -/
def hashedBytes (key : CString) : List UInt8 :=
  let len := u32 key.length
  key.bytes.take (if len < 2 ^ 31 then len else 0)

/-- `dict_hash_dobbs` -/
def dictHashDobbs (key : CString) : Nat :=
  let hash := (hashedBytes key).foldl dictHashDobbsRound 0
  let hash := u32 (hash + u32 (hash <<< 3))
  let hash := hash ^^^ (hash >>> 11)
  u32 (hash + u32 (hash <<< 15))

/-- `dict_hash` -/
def dictHash (key : CString) : Nat := dictHashDobbs key

/-! ## Lookup -/

/-- The next index of the probe loop. -/
def probe (size i perturb : Nat) : Nat :=
  u32 ((i <<< 2) + i + perturb + 1) &&& (size - 1)

/-- The loop of `dict_lookup`, for at most `fuel` rounds. -/
def dictLookupLoop (d : Dict α) (key : CString) (hash : Nat) :
    (fuel i perturb : Nat) → (memFreeslot : Option Nat) → Option Nat
  | 0, _, _, _ => none
  | fuel + 1, i, perturb, memFreeslot =>
      let i := probe d.size i perturb
      let ep := d.table i
      if ep.key = .null then
        some (memFreeslot.getD i)
      else if ep.hash = hash ∧ ep.key = .string key then
        some i
      else
        dictLookupLoop d key hash fuel i (perturb >>> perturbShift)
          (if ep.key = .dummy ∧ memFreeslot = none then some i else memFreeslot)

/-- Rounds after which the probe loop has seen every slot.  A loop that has not
stopped by then does not stop at all. -/
def lookupRounds (size : Nat) : Nat := size + 7

/-- `dict_lookup`, as the index of the slot it returns. -/
def dictLookup (d : Dict α) (key : CString) (hash : Nat) : Option Nat :=
  let i := hash &&& (d.size - 1)
  let ep := d.table i
  match ep.key with
  | .null => some i
  | .dummy =>
      dictLookupLoop d key hash (lookupRounds d.size) i hash (some i)
  | .string stored =>
      if ep.hash = hash ∧ key = stored then
        some i
      else
        dictLookupLoop d key hash (lookupRounds d.size) i hash none

/-! ## Insertion and resizing -/

/-- The fields that `dict_add_p` assigns in the slot it has looked up.  A copied
NULL value leaves `val` alone, and a non-NULL `blob` argument is replaced by the
address of the parameter that holds it. -/
def Keypair.assign (slot : Keypair α) (now : Int) (key : CString)
    (val : Option CString) (blob : Option (Pointer α)) (ts : Int)
    (copy : Bool) : Keypair α where
  key := .string key
  val := if copy then val.or slot.val else val
  blob := if blob.isSome then some (.automatic .dictAddPBlob) else slot.blob
  ts := if ts ≠ 0 then ts else now
  hash := dictHash key

/-- Store into slot `i` and count the addition. -/
def Dict.store (d : Dict α) (i : Nat) (slot : Keypair α) : Dict α where
  fill := u32 (d.fill + 1)
  used := u32 (d.used + 1)
  size := d.size
  table := Function.update d.table i slot

/-- The test `(3 * d->fill) >= (d->size * 2)`. -/
def Dict.crowded (d : Dict α) : Bool :=
  u32 (d.size * 2) ≤ u32 (3 * d.fill)

/-- `dict_add_p`, given the `dict_resize` that it calls. -/
def dictAddPWith (resize : Dict α → Option (Dict α)) (now : Int)
    (d : Dict α) (key : CString) (val : Option CString)
    (blob : Option (Pointer α)) (ts : Int) (copy : Bool) :
    Option (Dict α) := do
  let i ← dictLookup d key (dictHash key)
  let d := d.store i ((d.table i).assign now key val blob ts copy)
  if d.crowded then resize d else some d

/-- The loop `while (newsize <= (factor * d->used)) newsize*=2`. -/
def doubleWhileLe (target : Nat) : (fuel newsize : Nat) → Option Nat
  | 0, _ => none
  | fuel + 1, newsize =>
      if newsize ≤ target then
        doubleWhileLe target fuel (u32 (newsize * 2))
      else
        some newsize

/-- The size that `dict_resize` computes.  After 32 doublings `newsize` is zero
and the loop spins. -/
def dictNewsize (d : Dict α) : Option Nat :=
  let factor := if d.size > dictBigsz then 2 else 4
  doubleWhileLe (u32 (factor * d.used)) 33 d.size

/-- Move one slot of the old table into the new one. -/
def reinsert
    (addP : Dict α → CString → Option CString → Int → Option (Dict α))
    (oldtable : Nat → Keypair α) (d : Dict α) (i : Nat) : Option (Dict α) :=
  match (oldtable i).key with
  | .string key => addP d key (oldtable i).val (oldtable i).ts
  | _ => some d

/-- The dictionary at the start of the re-insertion loop. -/
def Dict.cleared (newsize : Nat) : Dict α where
  fill := 0
  used := 0
  size := newsize
  table := fun _ => Keypair.zero

/-- `dict_resize`, with at most `depth` activations on the call stack.  It
passes a NULL `blob` for every slot it moves. -/
def dictResize (now : Int) : (depth : Nat) → Dict α → Option (Dict α)
  | 0, _ => none
  | depth + 1, d => do
      let newsize ← dictNewsize d
      if newsize = d.size then
        some d
      else
        (List.range d.size).foldlM
          (reinsert
            (fun d key val ts =>
              dictAddPWith (dictResize now depth) now d key val none ts false)
            d.table)
          (Dict.cleared newsize)

/-- `dict_add_p`, with at most `depth` activations of `dict_resize`. -/
def dictAddP (depth : Nat) (now : Int) (d : Dict α) (key : CString)
    (val : Option CString) (blob : Option (Pointer α)) (ts : Int)
    (copy : Bool) : Option (Dict α) :=
  dictAddPWith (dictResize now depth) now d key val blob ts copy

/-! ## The public operations -/

/-- `dict_new` -/
def dictNew : Dict α := Dict.cleared dictMinSz

/-- `dict_add` -/
def dictAdd (depth : Nat) (now : Int) (d : Dict α) (key : CString)
    (val : Option CString) : Option (Dict α) :=
  dictAddP depth now d key val none now true

/-- `dict_add_ts` -/
def dictAddTs (depth : Nat) (now : Int) (d : Dict α) (key : CString)
    (val : Option CString) (ts : Int) : Option (Dict α) :=
  dictAddP depth now d key val none ts true

/-- `dict_add_blob` passes the address of its own parameter. -/
def dictAddBlob (depth : Nat) (now : Int) (d : Dict α) (key : CString)
    (_ptr : α) : Option (Dict α) :=
  dictAddP depth now d key none (some (.automatic .dictAddBlobPtr)) now true

/-- `dict_add_blob_ts` -/
def dictAddBlobTs (depth : Nat) (now : Int) (d : Dict α) (key : CString)
    (_ptr : α) (ts : Int) : Option (Dict α) :=
  dictAddP depth now d key none (some (.automatic .dictAddBlobPtr)) ts true

/-- `dict_get`.  The inner option is the returned pointer. -/
def dictGet (d : Option (Dict α)) (key : CString)
    (defval : Option CString) : Option (Option CString) :=
  match d with
  | none => some defval
  | some d => do
      let kp ← dictLookup d key (dictHash key)
      some (d.table kp).val

/-- `dict_get_blob`.  The inner option is the returned pointer. -/
def dictGetBlob (d : Option (Dict α)) (key : CString)
    (defval : Option (Pointer α)) : Option (Option (Pointer α)) :=
  match d with
  | none => some defval
  | some d => do
      let kp ← dictLookup d key (dictHash key)
      some ((d.table kp).blob.or defval)

/-- `dict_del`, with its return code.  The slot keeps `blob`, `ts` and `hash`,
and `fill` is not counted down. -/
def dictDel (d : Dict α) (key : CString) : Option (Int × Dict α) := do
  let kp ← dictLookup d key (dictHash key)
  let slot := { d.table kp with key := .null, val := none }
  some (0, { d with
    used := u32Dec d.used
    table := Function.update d.table kp slot })

/-! ## Histories -/

/-- A call that changes a dictionary.  `now` is what `time(NULL)` returns. -/
inductive DictOp (α : Type)
  /-- `dict_add(d, key, val)` -/
  | add (now : Int) (key : CString) (val : Option CString)
  /-- `dict_add_ts(d, key, val, ts)` -/
  | addTs (now : Int) (key : CString) (val : Option CString) (ts : Int)
  /-- `dict_add_blob(d, key, ptr)` -/
  | addBlob (now : Int) (key : CString) (ptr : α)
  /-- `dict_add_blob_ts(d, key, ptr, ts)` -/
  | addBlobTs (now : Int) (key : CString) (ptr : α) (ts : Int)
  /-- `dict_del(d, key)` -/
  | del (key : CString)
  deriving DecidableEq

namespace DictOp

/-- The key that a call is about. -/
def key : DictOp α → CString
  | .add _ key _ | .addTs _ key _ _ | .addBlob _ key _
  | .addBlobTs _ key _ _ | .del key => key

/-- The `val` argument that reaches `dict_add_p`. -/
def val : DictOp α → Option CString
  | .add _ _ val | .addTs _ _ val _ => val
  | .addBlob .. | .addBlobTs .. | .del _ => none

/-- The `blob` argument that reaches `dict_add_p`. -/
def blob : DictOp α → Option (Pointer α)
  | .addBlob .. | .addBlobTs .. => some (.automatic .dictAddBlobPtr)
  | .add .. | .addTs .. | .del _ => none

/-- Whether a call is `dict_del`. -/
def isDel : DictOp α → Bool
  | .del _ => true
  | .add .. | .addTs .. | .addBlob .. | .addBlobTs .. => false

/-- The effect of a call, with at most `depth` activations of `dict_resize`. -/
def apply (depth : Nat) (d : Dict α) : DictOp α → Option (Dict α)
  | .add now key val => dictAdd depth now d key val
  | .addTs now key val ts => dictAddTs depth now d key val ts
  | .addBlob now key ptr => dictAddBlob depth now d key ptr
  | .addBlobTs now key ptr ts => dictAddBlobTs depth now d key ptr ts
  | .del key => (dictDel d key).map Prod.snd

/-- The last call of a history that is about `key`. -/
def last (history : List (DictOp α)) (key : CString) : Option (DictOp α) :=
  history.reverse.find? fun op => op.key == key

@[simp] theorem last_nil (key : CString) :
    last ([] : List (DictOp α)) key = none := rfl

theorem last_concat (history : List (DictOp α)) (op : DictOp α)
    (key : CString) :
    last (history ++ [op]) key =
      if op.key = key then some op else last history key := by
  by_cases same : op.key = key <;> simp [last, same]

end DictOp

/-- Activations of `dict_resize` that suffice for every call. -/
def resizeDepth : Nat := 2

/-- The dictionary after a history, starting from `dict_new`. -/
def dictAfter (history : List (DictOp α)) : Option (Dict α) :=
  Foundation.runFrom (DictOp.apply resizeDepth) dictNew history

end Hamchat
