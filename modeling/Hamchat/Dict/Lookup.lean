import Hamchat.Dict.Probing
import Hamchat.Foundation.OpenAddressing

/-!
# What `dict_lookup` returns

The probe loop of `dict_lookup` walks the probe path of its key through a table
whose size is a power of two, and that path visits every slot.  On a
well-formed table the call returns exactly the slot where the search of the key
lands, and it fails to return only when the table is full and does not hold the
key.
-/

namespace Hamchat

open Foundation

/-- The key stored in a slot. -/
def Dict.keyAt (d : Dict α) (i : Nat) : Option CString :=
  match (d.table i).key with
  | .string key => some key
  | _ => none

theorem Dict.keyAt_eq_some {d : Dict α} {i : Nat} {key : CString} :
    d.keyAt i = some key ↔ (d.table i).key = .string key := by
  unfold Dict.keyAt
  cases (d.table i).key <;> simp

/-- The indices that `dict_lookup` visits for a key. -/
def probePath (size : Nat) (key : CString) : Nat → Nat
  | 0 => dictHash key &&& (size - 1)
  | round + 1 =>
      probe size (probePath size key round)
        (dictHash key >>> (perturbShift * round))

/-- The shape of every table that the operations build. -/
structure Dict.WellFormed (d : Dict α) : Prop where
  /-- The size is a power of two that fits an `unsigned`. -/
  size_pow : ∃ exponent, 3 ≤ exponent ∧ exponent ≤ 31 ∧ d.size = 2 ^ exponent
  /-- `DUMMY_PTR` is never stored. -/
  no_dummy : ∀ i, (d.table i).key ≠ .dummy
  /-- A slot in use records the hash of its key. -/
  hash_eq : ∀ i key, d.keyAt i = some key → (d.table i).hash = dictHash key
  /-- The slots in use lie inside the table. -/
  in_range : ∀ i key, d.keyAt i = some key → i < d.size
  /-- A free slot has a NULL `val`. -/
  free_val : ∀ i, d.keyAt i = none → (d.table i).val = none

/-- The keys that the slots of the table hold are all that are stored. -/
theorem Dict.WellFormed.mem_filterMap_keyAt {d : Dict α} (wf : d.WellFormed)
    {key : CString} :
    key ∈ (List.range d.size).filterMap d.keyAt ↔
      ∃ i, d.keyAt i = some key := by
  rw [List.mem_filterMap]
  constructor
  · rintro ⟨i, -, stored⟩
    exact ⟨i, stored⟩
  · rintro ⟨i, stored⟩
    exact ⟨i, List.mem_range.mpr (wf.in_range i key stored), stored⟩

theorem Dict.WellFormed.le_size {d : Dict α} (wf : d.WellFormed) :
    2 ^ 3 ≤ d.size := by
  obtain ⟨exponent, large, -, sizeEq⟩ := wf.size_pow
  rw [sizeEq]
  exact Nat.pow_le_pow_right (by decide) large

theorem Dict.WellFormed.size_le {d : Dict α} (wf : d.WellFormed) :
    d.size ≤ 2 ^ 31 := by
  obtain ⟨exponent, -, small, sizeEq⟩ := wf.size_pow
  rw [sizeEq]
  exact Nat.pow_le_pow_right (by decide) small

theorem Dict.WellFormed.size_pos {d : Dict α} (wf : d.WellFormed) :
    0 < d.size :=
  Nat.lt_of_lt_of_le (by decide) wf.le_size

theorem Dict.WellFormed.keyAt_eq_none {d : Dict α} (wf : d.WellFormed)
    {i : Nat} : d.keyAt i = none ↔ (d.table i).key = .null := by
  have noDummy := wf.no_dummy i
  unfold Dict.keyAt
  cases keyEq : (d.table i).key <;> simp_all

/-! ## The probe path -/

theorem dictHash_lt (key : CString) : dictHash key < 2 ^ 32 :=
  u32_lt _

/-- The probe path of a key is the probe sequence of its hash. -/
theorem probePath_eq_probeIndex (size : Nat) (key : CString) (round : Nat) :
    probePath size key round = probeIndex size (dictHash key) round := by
  induction round with
  | zero => rfl
  | succ round inductionHypothesis =>
      rw [probePath, inductionHypothesis, probeIndex]

/-- Every slot of the table lies on the probe path of every key, within
`7 + size` rounds. -/
theorem exists_probePath_eq {d : Dict α} (wf : d.WellFormed) (key : CString)
    {i : Nat} (bound : i < d.size) :
    ∃ round < 7 + d.size, probePath d.size key round = i := by
  obtain ⟨exponent, -, small, sizeEq⟩ := wf.size_pow
  rw [sizeEq] at bound ⊢
  simp only [probePath_eq_probeIndex]
  exact exists_probeIndex_eq small (dictHash_lt key) bound

theorem probePath_lt {d : Dict α} (wf : d.WellFormed) (key : CString)
    (round : Nat) : probePath d.size key round < d.size := by
  rw [probePath_eq_probeIndex]
  exact probeIndex_lt wf.size_pos _ _

/-- The search of `key` in the table of `d` ends at slot `i`. -/
def Dict.FindsAt (d : Dict α) (key : CString) (i : Nat) : Prop :=
  Lands (probePath d.size) d.keyAt key i

/-- A search ends within the rounds that the loop is given. -/
theorem landsAfter_lt {d : Dict α} (wf : d.WellFormed) {key : CString}
    {round : Nat} (lands : LandsAfter (probePath d.size) d.keyAt key round) :
    round < 7 + d.size := by
  obtain ⟨early, earlyBound, same⟩ :=
    exists_probePath_eq wf key (probePath_lt wf key round)
  have notBefore : ¬early < round := fun before =>
    lands.2 early before (by rw [same]; exact lands.1)
  omega

/-! ## The probe loop -/

/-- The loop stops at a slot exactly when the search does. -/
theorem stops_iff {d : Dict α} (wf : d.WellFormed) (key : CString) (i : Nat) :
    Stops d.keyAt key i ↔
      (d.table i).key = .null ∨
        (d.table i).hash = dictHash key ∧ (d.table i).key = .string key := by
  rw [Stops, wf.keyAt_eq_none, Dict.keyAt_eq_some]
  constructor
  · rintro (free | stored)
    · exact .inl free
    · exact .inr ⟨wf.hash_eq i key (Dict.keyAt_eq_some.mpr stored), stored⟩
  · rintro (free | ⟨-, stored⟩)
    · exact .inl free
    · exact .inr stored

/-- One round of the loop in a table without tombstones. -/
theorem dictLookupLoop_succ {d : Dict α} (wf : d.WellFormed) (key : CString)
    (fuel round : Nat) :
    dictLookupLoop d key (dictHash key) (fuel + 1)
        (probePath d.size key round) (dictHash key >>> (perturbShift * round))
        none =
      if (d.table (probePath d.size key (round + 1))).key = .null then
        some (probePath d.size key (round + 1))
      else if (d.table (probePath d.size key (round + 1))).hash =
            dictHash key ∧
          (d.table (probePath d.size key (round + 1))).key = .string key then
        some (probePath d.size key (round + 1))
      else
        dictLookupLoop d key (dictHash key) fuel
          (probePath d.size key (round + 1))
          (dictHash key >>> (perturbShift * (round + 1))) none := by
  have shifted : dictHash key >>> (perturbShift * round) >>> perturbShift =
      dictHash key >>> (perturbShift * (round + 1)) := by
    rw [← Nat.shiftRight_add, Nat.mul_succ]
  have visited : probe d.size (probePath d.size key round)
      (dictHash key >>> (perturbShift * round)) =
        probePath d.size key (round + 1) := rfl
  have noDummy := wf.no_dummy (probePath d.size key (round + 1))
  rw [dictLookupLoop]
  simp only [visited, shifted, noDummy, false_and, if_false, Option.getD_none]

/-- Without tombstones the loop returns the first stopping slot after round
`round`, if there is one among the next `fuel` rounds. -/
theorem dictLookupLoop_eq_some {d : Dict α} (wf : d.WellFormed)
    (key : CString) (fuel round i : Nat) :
    dictLookupLoop d key (dictHash key) fuel (probePath d.size key round)
        (dictHash key >>> (perturbShift * round)) none = some i ↔
      ∃ stop, round < stop ∧ stop ≤ round + fuel ∧
        probePath d.size key stop = i ∧
        Stops d.keyAt key (probePath d.size key stop) ∧
        ∀ earlier, round < earlier → earlier < stop →
          ¬Stops d.keyAt key (probePath d.size key earlier) := by
  induction fuel generalizing round with
  | zero =>
      constructor
      · intro equal
        cases equal
      · rintro ⟨stop, after, before, -⟩
        omega
  | succ fuel inductionHypothesis =>
      rw [dictLookupLoop_succ wf]
      by_cases stops : Stops d.keyAt key (probePath d.size key (round + 1))
      · have returned : i = probePath d.size key (round + 1) ↔
            ∃ stop, round < stop ∧ stop ≤ round + (fuel + 1) ∧
              probePath d.size key stop = i ∧
              Stops d.keyAt key (probePath d.size key stop) ∧
              ∀ earlier, round < earlier → earlier < stop →
                ¬Stops d.keyAt key (probePath d.size key earlier) := by
          constructor
          · rintro rfl
            exact ⟨round + 1, by omega, by omega, rfl, stops,
              fun earlier _ _ => by omega⟩
          · rintro ⟨stop, after, -, reached, -, notEarlier⟩
            have first : ¬round + 1 < stop := fun before =>
              notEarlier (round + 1) (by omega) before stops
            have stopEq : stop = round + 1 := by omega
            rw [← reached, stopEq]
        rw [← returned]
        rcases (stops_iff wf key _).mp stops with free | found
        · rw [if_pos free, Option.some.injEq, eq_comm]
        · rw [if_pos found, ite_self, Option.some.injEq, eq_comm]
      · have continues := stops
        rw [stops_iff wf, not_or] at continues
        rw [if_neg continues.1, if_neg continues.2, inductionHypothesis]
        constructor
        · rintro ⟨stop, after, before, reached, stopsThere, notEarlier⟩
          refine ⟨stop, by omega, by omega, reached, stopsThere, ?_⟩
          intro earlier later lessThan
          rcases Nat.lt_or_ge (round + 1) earlier with beyond | here
          · exact notEarlier earlier beyond lessThan
          · have same : earlier = round + 1 := by omega
            rwa [same]
        · rintro ⟨stop, after, before, reached, stopsThere, notEarlier⟩
          have notFirst : stop ≠ round + 1 := by
            rintro rfl
            exact stops stopsThere
          exact ⟨stop, by omega, by omega, reached, stopsThere,
            fun earlier later => notEarlier earlier (by omega)⟩

/-- `dict_lookup` returns the slot where the search of the key ends. -/
theorem dictLookup_eq_some {d : Dict α} (wf : d.WellFormed) (key : CString)
    (i : Nat) :
    dictLookup d key (dictHash key) = some i ↔ d.FindsAt key i := by
  have loop := dictLookupLoop_eq_some wf key (lookupRounds d.size) 0 i
  have start : probePath d.size key 0 = dictHash key &&& (d.size - 1) := rfl
  simp only [Nat.mul_zero, Nat.shiftRight_zero, Nat.zero_add] at loop
  have noDummy := wf.no_dummy (probePath d.size key 0)
  by_cases stops : Stops d.keyAt key (probePath d.size key 0)
  · have returned : dictLookup d key (dictHash key) =
        some (probePath d.size key 0) := by
      unfold dictLookup
      rw [← start]
      rcases (stops_iff wf key _).mp stops with free | ⟨hashEq, stored⟩
      · simp only [free]
      · simp only [stored, hashEq, and_self, if_true]
    have lands : LandsAfter (probePath d.size) d.keyAt key 0 :=
      ⟨stops, fun earlier before => absurd before (Nat.not_lt_zero earlier)⟩
    rw [returned, Option.some.injEq]
    constructor
    · rintro rfl
      exact ⟨0, rfl, lands⟩
    · rintro ⟨round, rfl, after⟩
      rw [after.unique lands]
  · have continues : dictLookup d key (dictHash key) =
        dictLookupLoop d key (dictHash key) (lookupRounds d.size)
          (probePath d.size key 0) (dictHash key) none := by
      rw [stops_iff wf, not_or] at stops
      unfold dictLookup
      rw [← start]
      cases keyEq : (d.table (probePath d.size key 0)).key with
      | null => exact absurd keyEq stops.1
      | dummy => exact absurd keyEq noDummy
      | string stored =>
          have mismatch : ¬((d.table (probePath d.size key 0)).hash =
              dictHash key ∧ key = stored) := by
            rintro ⟨hashEq, rfl⟩
            exact stops.2 ⟨hashEq, keyEq⟩
          simp only [keyEq, if_neg mismatch]
    rw [continues, loop]
    constructor
    · rintro ⟨stop, positive, -, rfl, stopsThere, notEarlier⟩
      refine ⟨stop, rfl, stopsThere, ?_⟩
      intro earlier before
      cases earlier with
      | zero => exact stops
      | succ earlier => exact notEarlier _ (Nat.succ_pos earlier) before
    · rintro ⟨stop, rfl, after⟩
      have notZero : stop ≠ 0 := by
        rintro rfl
        exact stops after.1
      have bound := landsAfter_lt wf after
      exact ⟨stop, by omega, by unfold lookupRounds; omega, rfl, after.1,
        fun earlier _ => after.2 earlier⟩

/-- The slot that `dict_lookup` returns is free or holds the key. -/
theorem Dict.FindsAt.stops {d : Dict α} {key : CString} {i : Nat}
    (finds : d.FindsAt key i) :
    d.keyAt i = none ∨ d.keyAt i = some key :=
  Lands.stops finds

/-- `dict_lookup` returns a slot inside the table. -/
theorem Dict.FindsAt.lt {d : Dict α} (wf : d.WellFormed) {key : CString}
    {i : Nat} (finds : d.FindsAt key i) : i < d.size := by
  obtain ⟨round, rfl, -⟩ := finds
  exact probePath_lt wf key round

/-- A table with a free slot answers every lookup. -/
theorem exists_findsAt {d : Dict α} (wf : d.WellFormed) (key : CString)
    {i : Nat} (bound : i < d.size) (free : d.keyAt i = none) :
    ∃ found, d.FindsAt key found := by
  obtain ⟨round, -, rfl⟩ := exists_probePath_eq wf key bound
  obtain ⟨landed, -, lands⟩ := exists_landsAfter_le (.inl free)
  exact ⟨_, landed, rfl, lands⟩

end Hamchat
