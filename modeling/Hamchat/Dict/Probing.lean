import Hamchat.Dict.Defs
import Hamchat.Foundation.FullPeriod

/-!
# The probe sequence of `dict_lookup`

The indices that `dict_lookup` visits depend on the hash and on the size of the
table alone.  In a table whose size is a power of two they reach every slot
once the perturbation has been shifted away, so the loop, which has no exit of
its own, ends as soon as one slot of the table is free.  Nothing is asked of
the other slots: they may be tombstones or hold any key under any hash.
-/

namespace Hamchat

open Foundation

/-- The index that `dict_lookup` visits in round `round`. -/
def probeIndex (size hash : Nat) : Nat → Nat
  | 0 => hash &&& (size - 1)
  | round + 1 =>
      probe size (probeIndex size hash round) (hash >>> (perturbShift * round))

/-- The masked 32-bit probe step is the perturbed affine step modulo the table
size. -/
theorem probe_two_pow {exponent : Nat} (bound : exponent ≤ 32)
    (i perturb : Nat) :
    probe (2 ^ exponent) i perturb = (5 * i + perturb + 1) % 2 ^ exponent := by
  have expand : (i <<< 2) + i + perturb + 1 = 5 * i + perturb + 1 := by
    rw [Nat.shiftLeft_eq]
    omega
  rw [probe, expand, Nat.and_two_pow_sub_one_eq_mod, u32]
  exact Nat.mod_mod_of_dvd _ (Nat.pow_dvd_pow 2 bound)

/-- After seven shifts by `PERTURB_SHIFT` nothing is left of a hash. -/
theorem perturb_vanishes {hash : Nat} (hashBound : hash < 2 ^ 32)
    {round : Nat} (late : 7 ≤ round) :
    hash >>> (perturbShift * round) = 0 := by
  rw [Nat.shiftRight_eq_div_pow]
  apply Nat.div_eq_of_lt
  calc hash < 2 ^ 32 := hashBound
    _ ≤ 2 ^ (perturbShift * round) := by
        apply Nat.pow_le_pow_right (by decide)
        unfold perturbShift
        omega

theorem probeIndex_lt {size : Nat} (positive : 0 < size) (hash round : Nat) :
    probeIndex size hash round < size := by
  cases round with
  | zero => exact Nat.lt_of_le_of_lt Nat.and_le_right (by omega)
  | succ round => exact Nat.lt_of_le_of_lt Nat.and_le_right (by omega)

/-- Every index of the table is visited within `7 + size` rounds. -/
theorem exists_probeIndex_eq {exponent hash : Nat} (small : exponent ≤ 31)
    (hashBound : hash < 2 ^ 32) {i : Nat} (inside : i < 2 ^ exponent) :
    ∃ round < 7 + 2 ^ exponent, probeIndex (2 ^ exponent) hash round = i := by
  refine exists_perturbed_eq
    (fun round => hash >>> (perturbShift * round)) ?_ ?_ ?_ inside
  · exact probeIndex_lt (Nat.two_pow_pos exponent) hash 0
  · intro round
    rw [probeIndex, probe_two_pow (by omega)]
  · intro round late
    exact perturb_vanishes hashBound late

/-! ## The loop -/

/-- The slots at which the loop of `dict_lookup` returns. -/
def Dict.Answers (d : Dict α) (key : CString) (hash i : Nat) : Prop :=
  (d.table i).key = .null ∨
    (d.table i).hash = hash ∧ (d.table i).key = .string key

/-- The loop visits the probe sequence in order: after round `round` it returns
within `fuel` rounds exactly when one of the next `fuel` slots answers. -/
theorem dictLookupLoop_isSome (d : Dict α) (key : CString) (hash : Nat)
    (fuel round : Nat) (memFreeslot : Option Nat) :
    (dictLookupLoop d key hash fuel (probeIndex d.size hash round)
        (hash >>> (perturbShift * round)) memFreeslot).isSome ↔
      ∃ stop, round < stop ∧ stop ≤ round + fuel ∧
        d.Answers key hash (probeIndex d.size hash stop) := by
  induction fuel generalizing round memFreeslot with
  | zero =>
      constructor
      · intro returned
        cases returned
      · rintro ⟨stop, after, before, -⟩
        omega
  | succ fuel inductionHypothesis =>
      have shifted : hash >>> (perturbShift * round) >>> perturbShift =
          hash >>> (perturbShift * (round + 1)) := by
        rw [← Nat.shiftRight_add, Nat.mul_succ]
      have visited : probe d.size (probeIndex d.size hash round)
          (hash >>> (perturbShift * round)) =
            probeIndex d.size hash (round + 1) := rfl
      rw [dictLookupLoop, visited, shifted]
      by_cases answers : d.Answers key hash (probeIndex d.size hash (round + 1))
      · have here : ∃ stop, round < stop ∧ stop ≤ round + (fuel + 1) ∧
            d.Answers key hash (probeIndex d.size hash stop) :=
          ⟨round + 1, by omega, by omega, answers⟩
        rcases answers with free | found
        · simp only [free, if_true, Option.isSome_some, here]
        · have occupied : (d.table (probeIndex d.size hash (round + 1))).key ≠
              .null := by
            rw [found.2]
            exact SlotKey.noConfusion
          simp only [if_neg occupied, if_pos found, Option.isSome_some, here]
      · have continues := answers
        rw [Dict.Answers, not_or] at continues
        rw [if_neg continues.1, if_neg continues.2, inductionHypothesis]
        constructor
        · rintro ⟨stop, after, before, stopsThere⟩
          exact ⟨stop, by omega, by omega, stopsThere⟩
        · rintro ⟨stop, after, before, stopsThere⟩
          have notFirst : stop ≠ round + 1 := by
            rintro rfl
            exact answers stopsThere
          exact ⟨stop, by omega, by omega, stopsThere⟩

/-- A lookup returns exactly if one of the slots that it visits within `7 + size`
rounds answers. -/
theorem dictLookup_isSome_iff (d : Dict α) (key : CString) (hash : Nat) :
    (dictLookup d key hash).isSome ↔
      ∃ stop ≤ 7 + d.size, d.Answers key hash (probeIndex d.size hash stop) := by
  have loop (memFreeslot : Option Nat) :
      (dictLookupLoop d key hash (lookupRounds d.size)
        (probeIndex d.size hash 0) hash memFreeslot).isSome ↔
      ∃ stop, 0 < stop ∧ stop ≤ 0 + lookupRounds d.size ∧
        d.Answers key hash (probeIndex d.size hash stop) :=
    dictLookupLoop_isSome d key hash (lookupRounds d.size) 0 memFreeslot
  have start : hash &&& (d.size - 1) = probeIndex d.size hash 0 := rfl
  unfold dictLookup
  rw [start]
  by_cases first : d.Answers key hash (probeIndex d.size hash 0)
  · refine iff_of_true ?_ ⟨0, Nat.zero_le _, first⟩
    rcases first with free | ⟨sameHash, found⟩
    · simp only [free, Option.isSome_some]
    · simp only [found, sameHash, and_self, if_true, Option.isSome_some]
  · have later : (∃ stop, 0 < stop ∧ stop ≤ 0 + lookupRounds d.size ∧
          d.Answers key hash (probeIndex d.size hash stop)) ↔
        ∃ stop ≤ 7 + d.size, d.Answers key hash (probeIndex d.size hash stop) := by
      unfold lookupRounds
      constructor
      · rintro ⟨stop, -, early, answers⟩
        exact ⟨stop, by omega, answers⟩
      · rintro ⟨stop, early, answers⟩
        have notFirst : stop ≠ 0 := by
          rintro rfl
          exact first answers
        exact ⟨stop, by omega, by omega, answers⟩
    rw [Dict.Answers, not_or] at first
    rw [← later]
    cases keyEq : (d.table (probeIndex d.size hash 0)).key with
    | null => exact absurd keyEq first.1
    | dummy =>
        simp only [keyEq]
        exact loop (some (probeIndex d.size hash 0))
    | string stored =>
        have other : ¬((d.table (probeIndex d.size hash 0)).hash = hash ∧
            key = stored) := by
          rintro ⟨sameHash, rfl⟩
          exact first.2 ⟨sameHash, keyEq⟩
        simp only [keyEq, if_neg other]
        exact loop none

/-- One free slot ends the lookup of every key under every hash. -/
theorem dictLookup_isSome_of_free {d : Dict α} {exponent hash i : Nat}
    (small : exponent ≤ 31) (hashBound : hash < 2 ^ 32)
    (sizeEq : d.size = 2 ^ exponent) (inside : i < d.size)
    (free : (d.table i).key = .null) (key : CString) :
    (dictLookup d key hash).isSome := by
  rw [sizeEq] at inside
  obtain ⟨stop, early, reached⟩ := exists_probeIndex_eq small hashBound inside
  rw [← sizeEq] at early reached
  refine (dictLookup_isSome_iff d key hash).mpr ⟨stop, early.le, .inl ?_⟩
  rw [reached]
  exact free

/-- The probe sequence of every 32-bit hash covers every table of the library
within `7 + size` rounds, a lookup ends exactly if a slot answers that it visits in
these rounds, and one free slot makes the lookup of every key end. -/
theorem probeIndex_covers_and_dictLookup_ends {exponent hash : Nat}
    (small : exponent ≤ 31) (hashBound : hash < 2 ^ 32) :
    probeIndex (2 ^ exponent) hash 0 = hash % 2 ^ exponent ∧
      (∀ round, probeIndex (2 ^ exponent) hash (round + 1) =
        u32 (5 * probeIndex (2 ^ exponent) hash round +
          hash >>> (perturbShift * round) + 1) % 2 ^ exponent) ∧
      (∀ i < 2 ^ exponent,
        ∃ round < 7 + 2 ^ exponent, probeIndex (2 ^ exponent) hash round = i) ∧
      ∀ (d : Dict α) (key : CString), d.size = 2 ^ exponent →
        ((dictLookup d key hash).isSome ↔ ∃ stop ≤ 7 + 2 ^ exponent,
          d.Answers key hash (probeIndex (2 ^ exponent) hash stop)) ∧
        ((∃ i < d.size, (d.table i).key = .null) →
          (dictLookup d key hash).isSome) := by
  refine ⟨?_, ?_, ?_, ?_⟩
  · rw [probeIndex, Nat.and_two_pow_sub_one_eq_mod]
  · intro round
    rw [probeIndex, probe_two_pow (by omega), u32]
    exact (Nat.mod_mod_of_dvd _ (Nat.pow_dvd_pow 2 (by omega))).symm
  · intro i inside
    exact exists_probeIndex_eq small hashBound inside
  · intro d key sizeEq
    constructor
    · rw [← sizeEq]
      exact dictLookup_isSome_iff d key hash
    · rintro ⟨i, inside, free⟩
      exact dictLookup_isSome_of_free small hashBound sizeEq inside free key

/-- A table of which one slot is free. -/
def nearlyFull : Dict Unit where
  fill := 7
  used := 7
  size := 2 ^ 3
  table i :=
    if i = 5 then .zero else { Keypair.zero with key := .string (.ofLiteral "JOIN") }

theorem probeIndex_covers_and_dictLookup_ends_smallest :
    (∀ i < 2 ^ 3, ∃ round < 7 + 2 ^ 3,
        probeIndex (2 ^ 3) 0xFFFFFFFF round = i) ∧
      (dictLookup nearlyFull (.ofLiteral "NICK") 0xFFFFFFFF).isSome := by
  obtain ⟨-, -, covers, ends⟩ :=
    @probeIndex_covers_and_dictLookup_ends Unit 3 0xFFFFFFFF (by decide)
      (by decide)
  exact ⟨covers, (ends _ _ rfl).2 ⟨5, by decide, rfl⟩⟩

end Hamchat
