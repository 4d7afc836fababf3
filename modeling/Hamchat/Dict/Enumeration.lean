import Hamchat.Dict.Map
import Hamchat.Foundation.Cursor

/-!
# Enumeration

`dict_enumerate` and `dict_enumerate_blob` return the slots in use in order.
Their loops test a slot before they compare its index with the size of the
table, so the call that ends an enumeration always reads the slot behind the
table.
-/

namespace Hamchat

open Foundation

/-- What a call stores through its pointer arguments. -/
structure Enumerated (β : Type) where
  /-- `*key` -/
  key : CString
  /-- `*val` -/
  val : β
  /-- `*ts` -/
  ts : Int
  deriving DecidableEq

/-- The entry of a slot that is neither NULL nor `DUMMY_PTR`. -/
def Keypair.enumerated (field : Keypair α → β) (slot : Keypair α) :
    Option (Enumerated β) :=
  match slot.key with
  | .string key => some ⟨key, field slot, slot.ts⟩
  | _ => none

/-- The loop and the branch that the two functions share.  The indices read are
those of the test `d->table[rank].key`.  A rank of `2 ^ 31` does not fit an
`int`, and is outside every table. -/
def dictEnumerateWith (field : Keypair α → β) (d : Dict α) (rank : Nat) :
    Visit (Enumerated β) :=
  visit (fun i => (d.table i).enumerated field) d.size rank

/-- `dict_enumerate` -/
def dictEnumerate (d : Dict α) (rank : Nat) :
    Visit (Enumerated (Option CString)) :=
  dictEnumerateWith Keypair.val d rank

/-- `dict_enumerate_blob` -/
def dictEnumerateBlob (d : Dict α) (rank : Nat) :
    Visit (Enumerated (Option (Pointer α))) :=
  dictEnumerateWith Keypair.blob d rank

/-- Calls that start with rank 0 and feed back the returned rank, until -1 is
returned. -/
def enumerateAll (enumerate : Nat → Visit β) (calls : Nat) :
    Option (List β × List Nat) :=
  walk enumerate calls 0

/-! ## What an enumeration should do -/

/-- The entries are those of the stored keys, each once, with the value under
which a search finds the key. -/
structure Dict.ListsOnce (d : Dict α) (field : Keypair α → β)
    (entries : List (Enumerated β)) : Prop where
  /-- The keys of the entries are the stored keys. -/
  complete : ∀ key, key ∈ entries.map Enumerated.key ↔
    ∃ i, d.keyAt i = some key
  /-- No key has two entries. -/
  nodup : (entries.map Enumerated.key).Nodup
  /-- Every entry is the one that a search finds. -/
  current : ∀ entry ∈ entries, ∃ i,
    dictLookup d entry.key (dictHash entry.key) = some i ∧
      (d.table i).enumerated field = some entry

/-- An enumeration ends, lists every stored key once, and reads no slot outside
the table. -/
def Dict.EnumeratesWell (d : Dict α) (field : Keypair α → β) : Prop :=
  ∃ calls entries reads,
    enumerateAll (dictEnumerateWith field d) calls = some (entries, reads) ∧
      d.ListsOnce field entries ∧ ∀ index ∈ reads, index < d.size

/-! ## What it does -/

section Enumerate

variable {d : Dict α} {field : Keypair α → β}

/-- All entries of the table, in order. -/
def Dict.entries (d : Dict α) (field : Keypair α → β) :
    List (Enumerated β) :=
  (List.range d.size).filterMap fun i => (d.table i).enumerated field

theorem Keypair.map_key_enumerated (field : Keypair α → β) (i : Nat) :
    ((d.table i).enumerated field).map Enumerated.key = d.keyAt i := by
  rw [Keypair.enumerated, Dict.keyAt]
  split <;> simp_all

theorem Dict.map_key_entries (d : Dict α) (field : Keypair α → β) :
    (d.entries field).map Enumerated.key =
      (List.range d.size).filterMap d.keyAt := by
  rw [Dict.entries, List.map_filterMap]
  exact List.filterMap_congr fun i _ => Keypair.map_key_enumerated field i

/-- An enumeration always ends, with all entries of the table. -/
theorem enumerateAll_completes (d : Dict α) (field : Keypair α → β) :
    enumerateAll (dictEnumerateWith field d) (d.size + 1) =
      some (d.entries field, List.range (d.size + 1)) := by
  have walked := @walk_visit_eq _ (fun i => (d.table i).enumerated field)
    d.size 0 (d.size + 1) (Nat.zero_le _) (by omega)
  rw [Nat.sub_zero, ← List.range_eq_range', ← List.range_eq_range'] at walked
  exact walked

/-- The entries list every stored key once exactly if every stored key is found
where it is stored. -/
theorem Dict.listsOnce_entries_iff (wf : d.WellFormed) :
    d.ListsOnce field (d.entries field) ↔
      Linked (probePath d.size) d.keyAt := by
  constructor
  · intro lists i key stored
    have inside := wf.in_range i key stored
    obtain ⟨entry, used, rfl⟩ := Option.map_eq_some_iff.mp
      ((Keypair.map_key_enumerated field i).trans stored)
    obtain ⟨j, looked, found⟩ := lists.current entry
      (List.mem_filterMap.mpr ⟨i, List.mem_range.mpr inside, used⟩)
    have finds := (dictLookup_eq_some wf entry.key j).mp looked
    have atJ : d.keyAt j = some entry.key := by
      rw [← Keypair.map_key_enumerated field j, found]
      rfl
    have different := List.nodup_iff_pairwise_ne.mp lists.nodup
    rw [d.map_key_entries, List.pairwise_filterMap] at different
    have apart : ∀ first second, first < second → second < d.size →
        d.keyAt first = some entry.key →
        d.keyAt second ≠ some entry.key := by
      intro first second before within atFirst atSecond
      have pair := List.pairwise_iff_getElem.mp different first second
        (by simp; omega) (by simpa using within) before
      simp only [List.getElem_range] at pair
      exact pair _ atFirst _ atSecond rfl
    rcases Nat.lt_trichotomy i j with before | rfl | after
    · exact absurd atJ (apart i j before (wf.in_range j _ atJ) stored)
    · exact finds
    · exact absurd stored (apart j i after inside atJ)
  · intro linked
    refine ⟨fun key => ?_, ?_, ?_⟩
    · rw [d.map_key_entries, wf.mem_filterMap_keyAt]
    · rw [d.map_key_entries]
      exact List.Nodup.filterMap
        (fun i j key atI atJ => linked.index_unique atI atJ) List.nodup_range
    · intro entry member
      obtain ⟨i, -, used⟩ := List.mem_filterMap.mp member
      have stored : d.keyAt i = some entry.key := by
        rw [← Keypair.map_key_enumerated field i, used]
        rfl
      exact ⟨i, (dictLookup_eq_some wf entry.key i).mpr
        (linked i entry.key stored), used⟩

/-- The entries that an enumeration returns list every stored key once exactly
if every stored key is found where it is stored. -/
theorem Dict.exists_listsOnce_iff (d : Dict α) (wf : d.WellFormed)
    (field : Keypair α → β) :
    (∃ entries reads,
        enumerateAll (dictEnumerateWith field d) (d.size + 1) =
            some (entries, reads) ∧
          d.ListsOnce field entries) ↔
      Linked (probePath d.size) d.keyAt := by
  have lists_iff : d.ListsOnce field (d.entries field) ↔ _ :=
    Dict.listsOnce_entries_iff wf
  rw [← lists_iff, enumerateAll_completes d field]
  constructor
  · rintro ⟨entries, reads, ended, lists⟩
    cases ended
    exact lists
  · intro lists
    exact ⟨_, _, rfl, lists⟩

/-- Every enumeration reads the slot behind the table, whatever the table
holds. -/
theorem not_enumeratesWell (d : Dict α) (field : Keypair α → β) :
    ¬d.EnumeratesWell field := by
  rintro ⟨calls, entries, reads, ended, -, inside⟩
  have whole := walk_visit_eq_some ended
  rw [Prod.mk.injEq] at whole
  have beyond := inside d.size (by rw [whole.2]; simp)
  exact Nat.lt_irrefl d.size beyond

end Enumerate

/-- In every dictionary that calls can lead to, both enumerations read behind
the table.  They do end, and list every stored key once with its current value
exactly if every stored key is found where it is stored. -/
theorem dictEnumerate_overreads {history : List (DictOp α)} {d : Dict α}
    (reached : dictAfter history = some d) :
    (¬d.EnumeratesWell Keypair.val ∧ ¬d.EnumeratesWell Keypair.blob) ∧
    ((∃ entries reads,
        enumerateAll (dictEnumerate d) (d.size + 1) = some (entries, reads) ∧
          d.ListsOnce Keypair.val entries) ↔
      Linked (probePath d.size) d.keyAt) ∧
    ((∃ entries reads,
        enumerateAll (dictEnumerateBlob d) (d.size + 1) =
            some (entries, reads) ∧
          d.ListsOnce Keypair.blob entries) ↔
      Linked (probePath d.size) d.keyAt) := by
  have wf := wellFormed_of_dictAfter reached
  refine ⟨⟨not_enumeratesWell d _, not_enumeratesWell d _⟩, ?_, ?_⟩
  · exact d.exists_listsOnce_iff wf Keypair.val
  · exact d.exists_listsOnce_iff wf Keypair.blob

theorem dictEnumerate_overreads_new :
    (¬(dictNew : Dict Unit).EnumeratesWell Keypair.val ∧
      ¬(dictNew : Dict Unit).EnumeratesWell Keypair.blob) ∧
    ((∃ entries reads,
        enumerateAll (dictEnumerate (dictNew : Dict Unit)) (8 + 1) =
            some (entries, reads) ∧
          (dictNew : Dict Unit).ListsOnce Keypair.val entries) ↔
      Linked (probePath 8) (dictNew : Dict Unit).keyAt) ∧
    ((∃ entries reads,
        enumerateAll (dictEnumerateBlob (dictNew : Dict Unit)) (8 + 1) =
            some (entries, reads) ∧
          (dictNew : Dict Unit).ListsOnce Keypair.blob entries) ↔
      Linked (probePath 8) (dictNew : Dict Unit).keyAt) :=
  dictEnumerate_overreads (show dictAfter [] = some dictNew from rfl)

/-- With one entry stored, the call after the one that returns it reads the
slots behind the entry and the one behind the table. -/
theorem last_call_reads_behind :
    ∃ d : Dict Unit, dictAfter [DictOp.addTs 1 (.ofLiteral "A") none 1] =
        some d ∧
      enumerateAll (dictEnumerate d) 9 =
        some ([⟨.ofLiteral "A", none, 1⟩], List.range 9) ∧
      d.size = 8 ∧ ¬d.EnumeratesWell Keypair.val := by
  refine ⟨_, rfl, ?_, rfl, not_enumeratesWell _ _⟩
  decide +kernel

end Hamchat
