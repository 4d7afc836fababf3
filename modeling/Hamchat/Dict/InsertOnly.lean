import Hamchat.Dict.Map
import Mathlib.Data.Nat.Count

/-!
# Histories that only insert

As long as nothing is deleted, `fill` and `used` agree and bound the number of
slots in use, and the table stays sparse.  Every lookup then ends, every resize
picks a size at which the re-insertion loop does not resize again, and the
dictionary follows the abstract map.
-/

namespace Hamchat

open Foundation

/-! ## Slots in use -/

/-- The number of slots in use among the first `bound` slots. -/
def Dict.inUse (d : Dict α) (bound : Nat) : Nat :=
  Nat.count (fun i => (d.keyAt i).isSome) bound

@[simp] theorem Dict.inUse_cleared (newsize bound : Nat) :
    (Dict.cleared newsize : Dict α).inUse bound = 0 := by
  rw [Dict.inUse, Dict.keyAt_cleared]
  exact Nat.count_of_forall_not fun _ _ => by simp

/-- Storing takes at most one more slot into use, and none below it. -/
theorem Dict.inUse_store_le (d : Dict α) (i : Nat) (slot : Keypair α)
    (bound : Nat) :
    (d.store i slot).inUse bound ≤
      d.inUse bound + if i < bound then 1 else 0 := by
  induction bound with
  | zero => simp [Dict.inUse]
  | succ bound inductionHypothesis =>
      unfold Dict.inUse at inductionHypothesis ⊢
      rw [Nat.count_succ, Nat.count_succ]
      by_cases here : bound = i
      · have below : ¬i < bound := by omega
        rw [if_neg below] at inductionHypothesis
        split <;> split <;> split <;> omega
      · have same : (d.store i slot).keyAt bound = d.keyAt bound := by
          simp [Dict.keyAt, here]
        rw [same]
        split at inductionHypothesis <;> split <;> split <;> omega

/-- A table with fewer slots in use than slots has a free slot. -/
theorem Dict.exists_free {d : Dict α} {bound : Nat}
    (less : d.inUse bound < bound) : ∃ i < bound, d.keyAt i = none := by
  by_contra full
  push Not at full
  have allUsed : d.inUse bound = bound :=
    Nat.count_iff_forall.mpr fun i below =>
      Option.isSome_iff_ne_none.mpr (full i below)
  omega

/-- One more slot is counted if it holds a key. -/
theorem Dict.inUse_succ_of_key {d : Dict α} {i : Nat} {key : CString}
    (stored : d.keyAt i = some key) : d.inUse (i + 1) = d.inUse i + 1 := by
  simp [Dict.inUse, Nat.count_succ, stored]

theorem Dict.inUse_mono (d : Dict α) {lower upper : Nat}
    (le : lower ≤ upper) : d.inUse lower ≤ d.inUse upper :=
  Nat.count_monotone _ le

/-! ## The size after a resize -/

/-- The doubling loop ends for every target below `2 ^ 31`, at its start or at
most at twice the target. -/
theorem doubleWhileLe_completes {target fuel exponent : Nat}
    (small : target < 2 ^ 31) (exponentLe : exponent ≤ 31)
    (enough : 32 - exponent < fuel) :
    ∃ newsize, doubleWhileLe target fuel (2 ^ exponent) = some newsize ∧
      (newsize = 2 ^ exponent ∨ newsize ≤ 2 * target) := by
  induction fuel generalizing exponent with
  | zero => omega
  | succ fuel inductionHypothesis =>
      rw [doubleWhileLe]
      by_cases less : 2 ^ exponent ≤ target
      · have below : exponent < 31 := by
          by_contra top
          obtain rfl : exponent = 31 := by omega
          omega
        rw [if_pos less, ← Nat.pow_succ,
          u32_of_lt (Nat.pow_lt_pow_right (by decide) (by omega))]
        obtain ⟨newsize, ended, bound⟩ :=
          @inductionHypothesis (exponent + 1) (by omega) (by omega)
        refine ⟨newsize, ended, .inr ?_⟩
        rcases bound with rfl | bound
        · rw [Nat.pow_succ]
          omega
        · exact bound
      · exact ⟨_, if_neg less, .inl rfl⟩

/-! ## Counted tables -/

/-- A dictionary that has seen at most `count` insertions since it was new or
last resized, and no deletions. -/
structure Dict.Counted (count : Nat) (d : Dict α) : Prop where
  /-- The table has the right shape. -/
  wf : d.WellFormed
  /-- The table can double once more. -/
  size_le : d.size ≤ 2 ^ 30
  /-- Both counters agree. -/
  fill_eq : d.fill = d.used
  /-- Insertions are counted. -/
  fill_le : d.fill ≤ count
  /-- The counters fit the table. -/
  fill_le_size : d.fill ≤ d.size
  /-- Every slot in use was counted. -/
  inUse_le : d.inUse d.size ≤ d.fill

/-- A counted dictionary between two calls. -/
structure Dict.Sparse (count : Nat) (d : Dict α) : Prop
    extends d.Counted count where
  /-- The table is not crowded. -/
  sparse : 3 * d.fill < 2 * d.size

section Counted

variable {count : Nat} {d : Dict α} {key : CString} {i : Nat}

/-- On a counted table the test for a resize does not overflow. -/
theorem Dict.Counted.crowded_iff (counted : d.Counted count) :
    d.crowded = true ↔ 2 * d.size ≤ 3 * d.fill := by
  have sizeLe := counted.size_le
  have fillLe := counted.fill_le_size
  rw [Dict.crowded, u32_of_lt (by omega), u32_of_lt (by omega),
    decide_eq_true_iff]
  omega

theorem Dict.Sparse.cleared {exponent : Nat} (large : 3 ≤ exponent)
    (small : exponent ≤ 30) :
    (Dict.cleared (2 ^ exponent) : Dict α).Sparse 0 where
  wf := Dict.WellFormed.cleared large (by omega)
  size_le := Nat.pow_le_pow_right (by decide) small
  fill_eq := rfl
  fill_le := Nat.le_refl 0
  fill_le_size := Nat.zero_le _
  inUse_le := by simp
  sparse := by
    have positive := Nat.two_pow_pos exponent
    simp only [Dict.cleared]
    omega

theorem Dict.Sparse.mono (sparse : d.Sparse count) {larger : Nat}
    (le : count ≤ larger) : d.Sparse larger where
  __ := sparse
  fill_le := Nat.le_trans sparse.fill_le le

/-- Every lookup in a sparse table ends. -/
theorem Dict.Sparse.exists_findsAt (sparse : d.Sparse count)
    (key : CString) : ∃ i, d.FindsAt key i := by
  have room : d.inUse d.size < d.size := by
    have counted := sparse.inUse_le
    have notCrowded := sparse.sparse
    omega
  obtain ⟨i, inside, free⟩ := Dict.exists_free room
  exact Hamchat.exists_findsAt sparse.wf key inside free

/-- Storing into a sparse table counts the insertion. -/
theorem Dict.Sparse.store (sparse : d.Sparse count)
    (finds : d.FindsAt key i) (now : Int) (val : Option CString)
    (blob : Option (Pointer α)) (ts : Int) (copy : Bool) :
    (d.store i ((d.table i).assign now key val blob ts copy)).Counted
        (count + 1) ∧
      (d.store i ((d.table i).assign now key val blob ts copy)).fill =
        d.fill + 1 := by
  have inside := finds.lt sparse.wf
  have sizeLe := sparse.size_le
  have fillEq := sparse.fill_eq
  have fillLe := sparse.fill_le
  have room := sparse.sparse
  have sizeGe := sparse.wf.le_size
  have fillNext : u32 (d.fill + 1) = d.fill + 1 := u32_of_lt (by omega)
  have usedNext : u32 (d.used + 1) = d.used + 1 := u32_of_lt (by omega)
  refine ⟨⟨sparse.wf.store inside .., sizeLe, ?_, ?_, ?_, ?_⟩, fillNext⟩
  · rw [Dict.store_fill, Dict.store_used, fillNext, usedNext, fillEq]
  · rw [Dict.store_fill, fillNext]
    omega
  · rw [Dict.store_fill, fillNext, Dict.store_size]
    omega
  · rw [Dict.store_fill, fillNext, Dict.store_size]
    calc (d.store i ((d.table i).assign now key val blob ts copy)).inUse d.size
        ≤ d.inUse d.size + if i < d.size then 1 else 0 :=
          d.inUse_store_le i _ d.size
      _ = d.inUse d.size + 1 := by rw [if_pos inside]
      _ ≤ d.fill + 1 := Nat.succ_le_succ sparse.inUse_le

/-- Insertion into a table that has room for it does not resize. -/
theorem Dict.Sparse.insert (sparse : d.Sparse count)
    (room : 3 * (d.fill + 1) < 2 * d.size)
    (resize : Dict α → Option (Dict α)) (now : Int) (key : CString)
    (val : Option CString) (blob : Option (Pointer α)) (ts : Int)
    (copy : Bool) :
    ∃ next, dictAddPWith resize now d key val blob ts copy = some next ∧
      next.Sparse (count + 1) ∧ next.size = d.size := by
  obtain ⟨i, finds⟩ := sparse.exists_findsAt key
  obtain ⟨counted, fillNext⟩ := sparse.store finds now val blob ts copy
  have roomy : 3 * (d.store i
      ((d.table i).assign now key val blob ts copy)).fill < 2 * d.size := by
    rw [fillNext]
    exact room
  refine ⟨_, (dictAddPWith_eq_some sparse.wf).mpr ⟨i, finds, .inl ⟨?_, rfl⟩⟩,
    ⟨counted, roomy⟩, rfl⟩
  rw [← Bool.not_eq_true, counted.crowded_iff, Dict.store_size]
  omega

/-- A crowded table grows to more than twice its fill, and stays below
`2 ^ 30` slots. -/
theorem Dict.Counted.newsize (counted : d.Counted count)
    (short : count < 2 ^ 28) (crowded : 2 * d.size ≤ 3 * d.fill) :
    ∃ exponent, dictNewsize d = some (2 ^ exponent) ∧ 3 ≤ exponent ∧
      exponent ≤ 30 ∧ 2 * d.fill < 2 ^ exponent ∧ d.size < 2 ^ exponent := by
  have fillEq := counted.fill_eq
  have fillLe := counted.fill_le
  have fillLeSize := counted.fill_le_size
  have positive := counted.wf.size_pos
  obtain ⟨start, large, small, sizeEq⟩ := counted.wf.size_pow
  obtain ⟨factor, factorEq, twice, bounded⟩ :
      ∃ factor, (if d.size > dictBigsz then 2 else 4) = factor ∧ 2 ≤ factor ∧
        factor * d.used < 2 ^ 29 := by
    by_cases big : d.size > dictBigsz
    · exact ⟨2, if_pos big, Nat.le_refl 2, by omega⟩
    · refine ⟨4, if_neg big, by decide, ?_⟩
      unfold dictBigsz at big
      omega
  have doubled : 2 * d.used ≤ factor * d.used :=
    Nat.mul_le_mul_right d.used twice
  obtain ⟨newsize, ended, bound⟩ :=
    @doubleWhileLe_completes (factor * d.used) 33 start (by omega) small
      (by omega)
  obtain ⟨exponent, le, -, rfl, greater⟩ := doubleWhileLe_eq_some small ended
  have grows : 2 ^ exponent ≠ 2 ^ start := by
    intro same
    omega
  have exponentLe : exponent ≤ 30 := by
    rcases bound with same | bound
    · exact absurd same grows
    · have less : 2 ^ exponent < 2 ^ 31 := by omega
      have := (Nat.pow_lt_pow_iff_right (by decide)).mp less
      omega
  refine ⟨exponent, ?_, by omega, exponentLe, by omega, by omega⟩
  rw [dictNewsize]
  simp only [factorEq]
  rw [u32_of_lt (by omega), sizeEq]
  exact ended

/-- Resizing a crowded table completes without a nested resize. -/
theorem Dict.Counted.resize (counted : d.Counted count)
    (short : count < 2 ^ 28) (crowded : 2 * d.size ≤ 3 * d.fill)
    (now : Int) :
    ∃ next, dictResize now 1 d = some next ∧ next.Sparse count := by
  obtain ⟨exponent, computed, large, small, roomy, grows⟩ :=
    counted.newsize short crowded
  have inUseLe := counted.inUse_le
  have moves : ∀ i < d.size, ∀ state : Dict α,
      state.Sparse (d.inUse i) ∧ state.size = 2 ^ exponent →
      ∃ next, reinsertion now 0 d.table state i = some next ∧
        next.Sparse (d.inUse (i + 1)) ∧ next.size = 2 ^ exponent := by
    rintro i inside state ⟨sparse, sizeEq⟩
    cases stored : d.keyAt i with
    | none =>
        refine ⟨state, reinsertion_eq_some.mpr (.inl ⟨?_, rfl⟩), ?_, sizeEq⟩
        · intro key keyEq
          rw [Dict.keyAt_eq_some.mpr keyEq] at stored
          cases stored
        · exact sparse.mono (d.inUse_mono (Nat.le_succ i))
    | some key =>
        have next := d.inUse_mono (Nat.succ_le_of_lt inside)
        rw [Dict.inUse_succ_of_key stored] at next
        have fillLe := sparse.fill_le
        obtain ⟨after, added, sparseAfter, sizeAfter⟩ := sparse.insert
          (by omega) (dictResize now 0) now key (d.table i).val none
          (d.table i).ts false
        refine ⟨after, reinsertion_eq_some.mpr (.inr
          ⟨key, Dict.keyAt_eq_some.mp stored, added⟩), ?_, ?_⟩
        · rw [Dict.inUse_succ_of_key stored]
          exact sparseAfter
        · rw [sizeAfter, sizeEq]
  obtain ⟨next, moved, sparse, -⟩ := runFrom_range_completes
    (fun i (state : Dict α) =>
      state.Sparse (d.inUse i) ∧ state.size = 2 ^ exponent)
    ⟨(Dict.Sparse.cleared large small).mono (Nat.zero_le _), rfl⟩ moves
  refine ⟨next, dictResize_eq_some.mpr ⟨_, computed, .inr ⟨?_, moved⟩⟩,
    sparse.mono ?_⟩
  · omega
  · exact Nat.le_trans inUseLe counted.fill_le

/-- An insertion into a sparse table completes without a nested resize. -/
theorem Dict.Sparse.apply (sparse : d.Sparse count)
    (short : count + 1 < 2 ^ 28) {op : DictOp α} (adds : op.isDel = false) :
    ∃ next, op.apply 1 d = some next ∧ next.Sparse (count + 1) := by
  obtain ⟨now, ts, addsP⟩ := op.apply_of_adds adds
  obtain ⟨i, finds⟩ := sparse.exists_findsAt op.key
  obtain ⟨counted, -⟩ := sparse.store finds now op.val op.blob ts true
  simp only [addsP]
  cases crowded : (d.store i
      ((d.table i).assign now op.key op.val op.blob ts true)).crowded with
  | false =>
      refine ⟨_, (dictAddPWith_eq_some sparse.wf).mpr
        ⟨i, finds, .inl ⟨crowded, rfl⟩⟩, ⟨counted, ?_⟩⟩
      rw [← Bool.not_eq_true, counted.crowded_iff] at crowded
      omega
  | true =>
      obtain ⟨next, resized, sparseNext⟩ :=
        counted.resize short (counted.crowded_iff.mp crowded) now
      exact ⟨next, (dictAddPWith_eq_some sparse.wf).mpr
        ⟨i, finds, .inr ⟨crowded, resized⟩⟩, sparseNext⟩

end Counted

/-! ## Histories -/

/-- What an insert-only history leaves behind. -/
structure Dict.Refines (history : List (DictOp α)) (d : Dict α) : Prop where
  /-- Every added key has the value of its last addition. -/
  get_last : ∀ key op value, DictOp.last history key = some op →
    op.val = some value →
    ∀ defval, dictGet (some d) key defval = some (some value)
  /-- Every added key occupies exactly one slot. -/
  slot_unique : ∀ key op, DictOp.last history key = some op →
    ∃! i, i < d.size ∧ (d.table i).key = .string key
  /-- The size is a power of two, at least `DICT_MIN_SZ`. -/
  size_pow : ∃ exponent, d.size = 2 ^ exponent ∧ dictMinSz ≤ d.size
  /-- No addition is counted by one counter only. -/
  fill_eq : d.fill = d.used
  /-- The table is not crowded. -/
  sparse : 3 * d.fill < 2 * d.size

/-- A history of fewer than `2 ^ 28` insertions completes without a nested
resize, and the table stays sparse. -/
theorem exists_runFrom_sparse {history : List (DictOp α)}
    (adds : ∀ op ∈ history, op.isDel = false)
    (short : history.length < 2 ^ 28) :
    ∃ d, runFrom (DictOp.apply 1) dictNew history = some d ∧
      d.Sparse history.length ∧ d.Represents (contents history) := by
  induction history using List.reverseRecOn with
  | nil =>
      exact ⟨dictNew, rfl,
        Dict.Sparse.cleared (Nat.le_refl 3) (by decide),
        Dict.Represents.new⟩
  | append_singleton past op inductionHypothesis =>
      rw [List.length_append, List.length_singleton] at short
      obtain ⟨d, reached, sparse, represents⟩ := inductionHypothesis
        (fun op member => adds op (by simp [member])) (by omega)
      have addsOp : op.isDel = false := adds op (by simp)
      obtain ⟨next, applied, sparseNext⟩ := sparse.apply short addsOp
      refine ⟨next, (runFrom_concat_eq_some _ _).mpr ⟨d, reached, applied⟩,
        ?_, ?_⟩
      · rw [List.length_append, List.length_singleton]
        exact sparseNext
      · rw [contents_concat]
        exact represents.apply_add addsOp applied

/-- A history of fewer than `2 ^ 28` insertions with values follows the finite
map after each call, and no resize runs inside another one. -/
theorem insertOnly_refines {history : List (DictOp α)}
    (carries : ∀ op ∈ history, op.val.isSome)
    (short : history.length < 2 ^ 28) {past : List (DictOp α)}
    (within : past <+: history) :
    ∃ d, (∀ depth, runFrom (DictOp.apply (1 + depth)) dictNew past = some d) ∧
      d.Refines past := by
  have adds : ∀ op ∈ past, op.isDel = false := by
    intro op member
    have value := carries op (within.subset member)
    cases op with
    | del key => cases value
    | _ => rfl
  obtain ⟨d, reached, sparse, represents⟩ := exists_runFrom_sparse adds
    (Nat.lt_of_le_of_lt within.length_le short)
  refine ⟨d, fun depth => runFrom_mono
    (fun _ _ _ applied => DictOp.apply_mono applied depth) reached, ?_⟩
  refine ⟨?_, ?_, ?_, sparse.fill_eq, sparse.sparse⟩
  · intro key op value last carried defval
    exact represents.dictGet_eq (contents_eq_of_last last carried) defval
  · intro key op last
    obtain ⟨value, carried⟩ := Option.isSome_iff_exists.mp
      (carries op (within.subset (DictOp.mem_of_last last)))
    obtain ⟨i, stored⟩ := represents.stored key _
      (contents_eq_of_last last carried)
    refine ⟨i, ⟨represents.wf.in_range i key stored,
      Dict.keyAt_eq_some.mp stored⟩, ?_⟩
    rintro j ⟨-, alsoStored⟩
    exact represents.index_unique (Dict.keyAt_eq_some.mpr alsoStored) stored
  · obtain ⟨exponent, -, -, sizeEq⟩ := represents.wf.size_pow
    exact ⟨exponent, sizeEq, represents.wf.le_size⟩

/-- Two keys that share their first slot, one of them added twice. -/
theorem insertOnly_refines_colliding :
    ∃ d : Dict Unit, (∀ depth, runFrom (DictOp.apply (1 + depth)) dictNew
        [.add 1 (.ofLiteral "A") (some (.ofLiteral "x")),
          .add 1 (.ofLiteral "F") (some (.ofLiteral "y")),
          .addTs 1 (.ofLiteral "A") (some (.ofLiteral "z")) 7] = some d) ∧
      d.Refines
        [.add 1 (.ofLiteral "A") (some (.ofLiteral "x")),
          .add 1 (.ofLiteral "F") (some (.ofLiteral "y")),
          .addTs 1 (.ofLiteral "A") (some (.ofLiteral "z")) 7] :=
  insertOnly_refines (by decide) (by decide) (List.prefix_refl _)

end Hamchat
