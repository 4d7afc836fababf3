import Hamchat.Dict.Growth

/-!
# The number of entries

`dict_add_p` counts `used` up for every key and `dict_del` counts it down for
every key, whether the key is stored or not.  So `used` is the number of stored
keys exactly in the runs that add new keys and delete stored ones, and there
the doubling loop of `dict_resize` ends as long as there are fewer than `2 ^ 30`
keys.
-/

namespace Hamchat

open Foundation

/-! ## Distinct keys -/

/-- The keys in the slots of the table. -/
def Dict.storedKeys (d : Dict α) : Finset CString :=
  ((List.range d.size).filterMap d.keyAt).toFinset

/-- No two slots hold the same key. -/
def Dict.Distinct (d : Dict α) : Prop :=
  ∀ i j key, d.keyAt i = some key → d.keyAt j = some key → i = j

/-- One slot more or less leaves the keys distinct, unless a key is stored that
another slot holds. -/
theorem Dict.Distinct.update {d next : Dict α} (distinct : d.Distinct)
    {i : Nat} {entry : Option CString}
    (changed : next.keyAt = Function.update d.keyAt i entry)
    (unknown : ∀ key, entry = some key → ∀ j, d.keyAt j ≠ some key) :
    next.Distinct := by
  intro first second key
  rw [changed]
  by_cases atFirst : first = i <;> by_cases atSecond : second = i
  · exact fun _ _ => atFirst.trans atSecond.symm
  · rw [atFirst, Function.update_self, Function.update_of_ne atSecond]
    intro stored elsewhere
    exact absurd elsewhere (unknown key stored second)
  · rw [atSecond, Function.update_self, Function.update_of_ne atFirst]
    intro elsewhere stored
    exact absurd elsewhere (unknown key stored first)
  · rw [Function.update_of_ne atFirst, Function.update_of_ne atSecond]
    exact distinct first second key

theorem Dict.WellFormed.mem_storedKeys {d : Dict α} (wf : d.WellFormed)
    {key : CString} : key ∈ d.storedKeys ↔ ∃ i, d.keyAt i = some key := by
  rw [Dict.storedKeys, List.mem_toFinset, wf.mem_filterMap_keyAt]

theorem Dict.length_filterMap_keyAt (d : Dict α) (bound : Nat) :
    ((List.range bound).filterMap d.keyAt).length = d.inUse bound := by
  induction bound with
  | zero => simp [Dict.inUse]
  | succ bound inductionHypothesis =>
      rw [List.range_succ, List.filterMap_append, List.length_append,
        inductionHypothesis, Dict.inUse, Dict.inUse, Nat.count_succ]
      cases stored : d.keyAt bound <;> simp [stored]

/-- Distinct keys are as many as the slots in use. -/
theorem Dict.Distinct.card_storedKeys {d : Dict α} (distinct : d.Distinct) :
    d.storedKeys.card = d.inUse d.size := by
  rw [Dict.storedKeys, List.toFinset_card_of_nodup,
    Dict.length_filterMap_keyAt]
  exact List.Nodup.filterMap
    (fun i j key storedFirst storedSecond =>
      distinct i j key storedFirst storedSecond)
    List.nodup_range

/-- The counter `used` is the number of distinct keys stored. -/
def Dict.CountsKeys (d : Dict α) : Prop :=
  d.used = d.storedKeys.card

/-- A dictionary whose counter `used` is the number of slots in use, all with
different keys. -/
structure Dict.Truthful (d : Dict α) : Prop where
  /-- The table has the right shape. -/
  wf : d.WellFormed
  /-- No two slots hold the same key. -/
  distinct : d.Distinct
  /-- `used` counts the slots in use. -/
  used_eq : d.used = d.inUse d.size

theorem Dict.Truthful.countsKeys {d : Dict α} (truthful : d.Truthful) :
    d.CountsKeys := by
  rw [Dict.CountsKeys, truthful.distinct.card_storedKeys, truthful.used_eq]

theorem Dict.Truthful.new : (dictNew : Dict α).Truthful where
  wf := Dict.WellFormed.new
  distinct i j key stored := by simp [dictNew] at stored
  used_eq := by simp [dictNew]; rfl

theorem Dict.Truthful.used_le {d : Dict α} (truthful : d.Truthful) :
    d.used ≤ 2 ^ 31 ∧ d.used ≤ d.size := by
  have usedLe : d.used ≤ d.size := by
    rw [truthful.used_eq]
    exact Nat.count_le _
  exact ⟨Nat.le_trans usedLe truthful.wf.size_le, usedLe⟩

/-! ## One store and one resize -/

section Store

variable {d next : Dict α} {key : CString} {i : Nat}

/-- Storing a key adds it to the keys stored. -/
theorem Dict.storedKeys_store (wf : d.WellFormed) (finds : d.FindsAt key i)
    (now : Int) (val : Option CString) (blob : Option (Pointer α)) (ts : Int)
    (copy : Bool) :
    (d.store i ((d.table i).assign now key val blob ts copy)).storedKeys =
      insert key d.storedKeys := by
  have storedWf := wf.store (finds.lt wf) now key val blob ts copy
  ext other
  rw [storedWf.mem_storedKeys, Finset.mem_insert, wf.mem_storedKeys,
    d.keyAt_assign]
  constructor
  · rintro ⟨j, stored⟩
    by_cases same : j = i
    · rw [same, Function.update_self, Option.some.injEq] at stored
      exact .inl stored.symm
    · rw [Function.update_of_ne same] at stored
      exact .inr ⟨j, stored⟩
  · rintro (rfl | ⟨j, stored⟩)
    · exact ⟨i, Function.update_self ..⟩
    · by_cases same : j = i
      · subst same
        rcases finds.stops with free | found
        · rw [free] at stored
          cases stored
        · rw [found, Option.some.injEq] at stored
          exact ⟨j, by rw [stored, Function.update_self]⟩
      · exact ⟨j, by rw [Function.update_of_ne same, stored]⟩

/-- Freeing a slot that is free changes none of the keys stored. -/
theorem Dict.keyAt_free_of_free (free : d.keyAt i = none) :
    (d.free i).keyAt = d.keyAt := by
  rw [d.keyAt_free]
  exact Function.update_eq_self_iff.mpr free.symm

/-- A table that has grown holds the same keys, all of them once, and `used`
counts the slots that were in use before. -/
theorem Dict.grown_keys (wf : d.WellFormed) {now : Int} {depth : Nat}
    (grows : dictNewsize d ≠ some d.size)
    (resized : dictResize now depth d = some next) :
    next.WellFormed ∧ next.used = d.inUse d.size ∧ next.Distinct ∧
      next.storedKeys = d.storedKeys := by
  have sizeLe := wf.size_le
  have moves := dictResize_moves
    (fun i (state : Dict α) => state.used = d.inUse i ∧
      Linked (probePath state.size) state.keyAt ∧
      ∀ key, (∃ j, state.keyAt j = some key) ↔ ∃ j < i, d.keyAt j = some key)
    wf
    (fun exponent => ⟨rfl, linked_empty, fun key => by simp⟩)
    (fun i key state j inside stored stateWf held finds => by
      obtain ⟨used, linked, keys⟩ := held
      have within : d.inUse (i + 1) ≤ d.size :=
        Nat.le_trans (Nat.count_le _) inside
      rw [Dict.inUse_succ_of_key stored] at within ⊢
      refine ⟨?_, ?_, ?_⟩
      · rw [Dict.store_used, used, u32_of_lt (by omega)]
      · rw [state.keyAt_assign]
        exact linked.insert finds
      · intro other
        have storedWf := stateWf.store (finds.lt stateWf) now key
          (d.table i).val none (d.table i).ts false
        rw [← storedWf.mem_storedKeys, Dict.storedKeys_store stateWf finds,
          Finset.mem_insert, stateWf.mem_storedKeys, keys,
          Dict.exists_key_before_succ stored, or_comm])
    (fun i state inside free held => by
      obtain ⟨used, linked, keys⟩ := held
      refine ⟨?_, linked, fun key => (keys key).trans
        (Dict.exists_key_before_succ_of_free free key).symm⟩
      rw [used, Dict.inUse, Dict.inUse, Nat.count_succ, free]
      rfl)
    resized
  rcases moves with ⟨early, -⟩ | ⟨-, -, nextWf, used, linked, keys⟩
  · exact absurd early grows
  · refine ⟨nextWf, used, fun _ _ _ => linked.index_unique, ?_⟩
    ext key
    rw [nextWf.mem_storedKeys, keys, wf.mem_storedKeys]
    constructor
    · rintro ⟨j, -, stored⟩
      exact ⟨j, stored⟩
    · rintro ⟨j, stored⟩
      exact ⟨j, wf.in_range j key stored, stored⟩

end Store

/-! ## One call -/

/-- A call keeps the count right: an addition is of a new key, or finds its key
and makes the table grow, and a deletion finds its key. -/
def Dict.KeepsCount (d : Dict α) (op : DictOp α) : Prop :=
  d.DeletesStored op ∧
    (op.isDel = false → (∀ i, d.keyAt i ≠ some op.key) ∨
      d.WillGrow ∧ ∃ i, d.FindsAt op.key i ∧ d.keyAt i = some op.key)

namespace Dict.Truthful

variable {d next : Dict α} {op : DictOp α} {key : CString} {i : Nat}

/-- Storing a new key keeps the count right. -/
theorem store_new (truthful : d.Truthful) (finds : d.FindsAt key i)
    (unknown : ∀ j, d.keyAt j ≠ some key) (now : Int) (val : Option CString)
    (blob : Option (Pointer α)) (ts : Int) (copy : Bool) :
    (d.store i ((d.table i).assign now key val blob ts copy)).Truthful where
  wf := truthful.wf.store (finds.lt truthful.wf) ..
  distinct := truthful.distinct.update (d.keyAt_assign ..) fun other equal => by
    rw [← Option.some.inj equal]
    exact unknown
  used_eq := by
    have bound := truthful.used_le.1
    rw [Dict.store_used, Dict.store_size,
      Dict.inUse_store_of_free truthful.wf finds
        (finds.stops.resolve_right (unknown i)),
      u32_of_lt (by omega), truthful.used_eq]

/-- Freeing the slot of a stored key keeps the count right. -/
theorem free (truthful : d.Truthful) (finds : d.FindsAt key i)
    (stored : d.keyAt i = some key) : (d.free i).Truthful where
  wf := truthful.wf.free i
  distinct := truthful.distinct.update (d.keyAt_free i) fun other equal => by
    cases equal
  used_eq := by
    have counted := Dict.inUse_free_of_stored truthful.wf finds stored
    have usedEq := truthful.used_eq
    rw [Dict.free_size, Dict.free_used, u32Dec_of_pos (by omega)]
    omega

/-- A key that is stored somewhere is counted twice by an addition that does
not make the table grow. -/
theorem not_countsKeys_store (truthful : d.Truthful) (finds : d.FindsAt key i)
    {home : Nat} (stored : d.keyAt home = some key) (now : Int)
    (val : Option CString) (blob : Option (Pointer α)) (ts : Int)
    (copy : Bool) :
    ¬(d.store i
      ((d.table i).assign now key val blob ts copy)).CountsKeys := by
  have bound := truthful.used_le.1
  have counts := truthful.countsKeys
  rw [Dict.CountsKeys] at counts ⊢
  rw [Dict.store_used, u32_of_lt (by omega),
    Dict.storedKeys_store truthful.wf finds,
    Finset.insert_eq_of_mem (truthful.wf.mem_storedKeys.mpr ⟨home, stored⟩),
    ← counts]
  omega

/-- Counting down without deleting makes the count wrong. -/
theorem not_countsKeys_free (truthful : d.Truthful)
    (free : d.keyAt i = none) : ¬(d.free i).CountsKeys := by
  have counts := truthful.countsKeys
  have same : (d.free i).storedKeys = d.storedKeys := by
    rw [Dict.storedKeys, Dict.keyAt_free_of_free free]
    rfl
  rw [Dict.CountsKeys] at counts ⊢
  rw [same, ← counts, Dict.free_used]
  exact u32Dec_ne d.used

/-- A table that has grown counts right exactly if the table before it held
every key once. -/
theorem grown_iff (wf : d.WellFormed) {now : Int} {depth : Nat}
    (grows : dictNewsize d ≠ some d.size)
    (resized : dictResize now depth d = some next) :
    (next.CountsKeys → d.inUse d.size = d.storedKeys.card) ∧
      (d.Distinct → next.Truthful) := by
  obtain ⟨nextWf, used, distinct, keys⟩ := Dict.grown_keys wf grows resized
  constructor
  · intro counts
    rw [Dict.CountsKeys, used, keys] at counts
    exact counts
  · intro distinctBefore
    refine ⟨nextWf, distinct, ?_⟩
    rw [used, ← distinctBefore.card_storedKeys, ← keys,
      distinct.card_storedKeys]

/-- An addition keeps the count right exactly if it meets its condition. -/
theorem add_iff (truthful : d.Truthful) (adds : op.isDel = false)
    {depth : Nat} (applied : op.apply depth d = some next) :
    (next.CountsKeys → d.KeepsCount op) ∧
      (d.KeepsCount op → next.Truthful) := by
  have noDel : d.DeletesStored op := fun deletes => by
    rw [adds] at deletes
    cases deletes
  obtain ⟨i, now, ts, finds, result⟩ :=
    DictOp.apply_add_cases truthful.wf adds applied
  by_cases unknown : ∀ j, d.keyAt j ≠ some op.key
  · refine ⟨fun _ => ⟨noDel, fun _ => .inl unknown⟩, fun _ => ?_⟩
    have stored := truthful.store_new finds unknown now op.val op.blob ts true
    rcases result with ⟨-, rfl⟩ | ⟨grows, resized⟩
    · exact stored
    · exact (grown_iff stored.wf ((Dict.willGrow_iff stored.wf).mp grows).2
        resized).2 stored.distinct
  · push Not at unknown
    obtain ⟨home, atHome⟩ := unknown
    have storedWf :=
      truthful.wf.store (finds.lt truthful.wf) now op.key op.val op.blob ts true
    rcases result with ⟨stays, rfl⟩ | ⟨grows, resized⟩
    · refine ⟨fun counts => absurd counts
        (truthful.not_countsKeys_store finds atHome now op.val op.blob ts true),
        ?_⟩
      rintro ⟨-, keeps⟩
      rcases keeps adds with unknown | ⟨grows, -⟩
      · exact absurd atHome (unknown home)
      · exact absurd grows stays
    · have afterGrowth := grown_iff storedWf
        ((Dict.willGrow_iff storedWf).mp grows).2 resized
      have sameKeys := Dict.storedKeys_store truthful.wf finds now op.val
        op.blob ts true
      rw [Finset.insert_eq_of_mem
        (truthful.wf.mem_storedKeys.mpr ⟨home, atHome⟩)] at sameKeys
      constructor
      · intro counts
        refine ⟨noDel, fun _ => .inr ⟨grows, i, finds, ?_⟩⟩
        refine finds.stops.resolve_left fun free => ?_
        have equal := afterGrowth.1 counts
        rw [Dict.store_size, Dict.inUse_store_of_free truthful.wf finds free,
          sameKeys, truthful.distinct.card_storedKeys] at equal
        omega
      · rintro ⟨-, keeps⟩
        refine afterGrowth.2 ?_
        rcases keeps adds with unknown | ⟨-, j, findsJ, found⟩
        · exact absurd atHome (unknown home)
        · obtain rfl := findsJ.unique finds
          have same : (d.store j ((d.table j).assign now op.key op.val op.blob
              ts true)).keyAt = d.keyAt := by
            rw [d.keyAt_assign]
            exact Function.update_eq_self_iff.mpr found.symm
          rw [Dict.Distinct, same]
          exact truthful.distinct

/-- A call keeps the count right exactly if it meets its condition. -/
theorem apply_iff (truthful : d.Truthful) {depth : Nat}
    (applied : op.apply depth d = some next) :
    (next.CountsKeys → d.KeepsCount op) ∧
      (d.KeepsCount op → next.Truthful) := by
  by_cases adds : op.isDel = false
  · exact truthful.add_iff adds applied
  · cases op with
    | del key =>
        obtain ⟨i, finds, rfl⟩ :=
          (DictOp.apply_del_eq_some truthful.wf).mp applied
        constructor
        · intro counts
          refine ⟨fun _ => ⟨i, finds, ?_⟩, fun adds' => absurd adds' adds⟩
          exact finds.stops.resolve_left fun free =>
            truthful.not_countsKeys_free free counts
        · rintro ⟨deletesStored, -⟩
          obtain ⟨j, findsJ, stored⟩ := deletesStored rfl
          obtain rfl := findsJ.unique finds
          exact truthful.free findsJ stored
    | _ => exact absurd rfl adds

end Dict.Truthful

/-! ## The loop of `dict_resize` -/

/-- The next addition leaves the table crowded, so that it calls
`dict_resize`. -/
def Dict.WillResize (d : Dict α) : Prop :=
  u32 (d.size * 2) ≤ u32 (3 * u32 (d.fill + 1))

/-- If the call is an addition that calls `dict_resize`, then the doubling loop
ends with a power of two larger than `used`, and `dict_resize` returns. -/
def Dict.ResizeEnds (d : Dict α) (op : DictOp α) : Prop :=
  op.isDel = false → ∀ i now ts, d.FindsAt op.key i →
    (d.store i
      ((d.table i).assign now op.key op.val op.blob ts true)).crowded = true →
    (∃ exponent, dictNewsize (d.store i
        ((d.table i).assign now op.key op.val op.blob ts true)) =
          some (2 ^ exponent) ∧
      (d.store i
        ((d.table i).assign now op.key op.val op.blob ts true)).used <
          2 ^ exponent) ∧
    (dictResize now resizeDepth (d.store i
      ((d.table i).assign now op.key op.val op.blob ts true))).isSome

/-- If the call is an addition that calls `dict_resize`, then `used` stays
below `2 ^ 30`. -/
def Dict.ResizesSmall (d : Dict α) (op : DictOp α) : Prop :=
  op.isDel = false → (∃ i, d.FindsAt op.key i) → d.WillResize →
    d.used + 1 < 2 ^ 30

/-- The factor of `dict_resize` keeps its product with a small number of
entries small. -/
theorem factor_bounds {size used : Nat} (usedLe : used ≤ size + 1)
    (small : used < 2 ^ 30) :
    used ≤ u32 ((if size > dictBigsz then 2 else 4) * used) ∧
      u32 ((if size > dictBigsz then 2 else 4) * used) < 2 ^ 31 := by
  unfold dictBigsz
  split
  · rw [u32_of_lt (by omega)]
    omega
  · rw [u32_of_lt (by omega)]
    omega

/-- The doubling loop ends for fewer than `2 ^ 30` entries. -/
theorem dictNewsize_ends {d : Dict α} (wf : d.WellFormed)
    (usedLe : d.used ≤ d.size + 1) (small : d.used < 2 ^ 30) :
    ∃ exponent, dictNewsize d = some (2 ^ exponent) ∧
      d.used < 2 ^ exponent := by
  obtain ⟨start, -, startLe, sizeEq⟩ := wf.size_pow
  obtain ⟨lower, upper⟩ := factor_bounds usedLe small
  obtain ⟨newsize, ended, -⟩ := @doubleWhileLe_completes _ 33 start upper
    startLe (by omega)
  obtain ⟨exponent, -, -, rfl, greater⟩ := doubleWhileLe_eq_some startLe ended
  refine ⟨exponent, ?_, Nat.lt_of_le_of_lt lower greater⟩
  rw [dictNewsize, ← ended, sizeEq]

/-- A doubling loop that ends above `used` has found fewer than `2 ^ 30`
entries. -/
theorem used_lt_of_newsize {d : Dict α} (wf : d.WellFormed)
    (usedLe : d.used ≤ d.size + 1) {newsize : Nat}
    (computed : dictNewsize d = some newsize) (greater : d.used < newsize) :
    d.used < 2 ^ 30 := by
  by_contra large
  obtain ⟨start, -, startLe, sizeEq⟩ := wf.size_pow
  have big : d.size > dictBigsz := by
    unfold dictBigsz
    omega
  rw [dictNewsize, if_pos big, sizeEq] at computed
  obtain ⟨exponent, -, exponentLe, rfl, above⟩ :=
    doubleWhileLe_eq_some startLe computed
  have newsizeLe : 2 ^ exponent ≤ 2 ^ 31 :=
    Nat.pow_le_pow_right (by decide) exponentLe
  rw [u32_of_lt (by omega)] at above
  omega

/-- A table of `2 ^ 31` slots with fewer than `2 ^ 30` entries is left as it
is. -/
theorem dictResize_top {d : Dict α} (wf : d.WellFormed) (now : Int)
    (top : d.size = 2 ^ 31) (few : d.used < 2 ^ 30) :
    dictResize now 1 d = some d := by
  have early : dictNewsize d = some d.size := by
    rw [dictNewsize_eq_size_iff wf]
    exact Nat.lt_of_lt_of_le (factor_bounds (by omega) few).2 (Nat.le_of_eq
      top.symm)
  exact dictResize_eq_some.mpr ⟨_, early, .inl ⟨rfl, rfl⟩⟩

/-- A table between two moves of `dict_resize`, when `moved` slots have been
seen and `count` of them were in use. -/
structure Dict.Moving (size moved count : Nat) (d : Dict α) : Prop where
  /-- The table has the right shape. -/
  wf : d.WellFormed
  /-- The table has its new size. -/
  size_eq : d.size = size
  /-- `fill` counts the slots seen at most. -/
  fill_le : d.fill ≤ moved
  /-- `used` counts the slots that were in use at most. -/
  used_le : d.used ≤ count
  /-- No other slots are in use. -/
  inUse_le : d.inUse d.size ≤ count

/-- Storing a moved slot is one more move. -/
theorem Dict.Moving.store {d : Dict α} {size moved count i : Nat}
    {key : CString} (moving : d.Moving size moved count)
    (finds : d.FindsAt key i) (now : Int) (val : Option CString) (ts : Int) :
    (d.store i ((d.table i).assign now key val none ts false)).Moving size
      (moved + 1) (count + 1) where
  wf := moving.wf.store (finds.lt moving.wf) ..
  size_eq := moving.size_eq
  fill_le := Nat.le_trans (u32_le _) (Nat.succ_le_succ moving.fill_le)
  used_le := Nat.le_trans (u32_le _) (Nat.succ_le_succ moving.used_le)
  inUse_le := by
    have counted := d.inUse_store_le i
      ((d.table i).assign now key val none ts false) d.size
    rw [if_pos (finds.lt moving.wf)] at counted
    exact Nat.le_trans counted (Nat.succ_le_succ moving.inUse_le)

/-- Moving one slot into a table of at least twice the size completes. -/
theorem Dict.Moving.reinsertion {d state : Dict α} {exponent i : Nat}
    (moving : state.Moving (2 ^ exponent) i (d.inUse i))
    (small : exponent ≤ 31) (room : 2 * d.size ≤ 2 ^ exponent)
    (few : d.inUse d.size < 2 ^ 30) (inside : i < d.size) (now : Int) :
    ∃ next, Hamchat.reinsertion now 1 d.table state i = some next ∧
      next.Moving (2 ^ exponent) (i + 1) (d.inUse (i + 1)) := by
  have within := d.inUse_mono (Nat.succ_le_of_lt inside)
  have seen : d.inUse i ≤ i := Nat.count_le _
  cases stored : d.keyAt i with
  | none =>
      have grows := d.inUse_mono (Nat.le_succ i)
      refine ⟨state, reinsertion_eq_some.mpr (.inl ⟨?_, rfl⟩), moving.wf,
        moving.size_eq, Nat.le_succ_of_le moving.fill_le,
        Nat.le_trans moving.used_le grows, Nat.le_trans moving.inUse_le grows⟩
      intro key keyEq
      rw [Dict.keyAt_eq_some.mpr keyEq] at stored
      cases stored
  | some key =>
      rw [Dict.inUse_succ_of_key stored] at within ⊢
      have free : state.HasFreeSlot := by
        rw [Dict.hasFreeSlot_iff_inUse]
        have inUseLe := moving.inUse_le
        have sizeEq := moving.size_eq
        omega
      obtain ⟨j, finds⟩ := moving.wf.hasFreeSlot_iff.mp free key
      have after := moving.store finds now (d.table i).val (d.table i).ts
      refine ⟨_, reinsertion_eq_some.mpr (.inr
        ⟨key, Dict.keyAt_eq_some.mp stored,
          (dictAddPWith_eq_some moving.wf).mpr ⟨j, finds, ?_⟩⟩), after⟩
      cases crowded : (state.store j ((state.table j).assign now key
          (d.table i).val none (d.table i).ts false)).crowded with
      | false => exact .inl ⟨rfl, rfl⟩
      | true =>
          have fillLe := after.fill_le
          have usedLe := after.used_le
          have top := Dict.top_of_crowded after.size_eq small
            (show 2 * d.size ≤ _ by rw [after.size_eq]; exact room)
            after.wf.size_pos (by omega) crowded
          exact .inr ⟨rfl, dictResize_top after.wf now top (by omega)⟩

/-- Moving a table of fewer than `2 ^ 30` entries completes. -/
theorem dictResize_completes {d : Dict α} (wf : d.WellFormed) (now : Int)
    (few : d.inUse d.size < 2 ^ 30) {newsize : Nat}
    (computed : dictNewsize d = some newsize) :
    ∃ next, dictResize now resizeDepth d = some next := by
  obtain ⟨exponent, large, small, rfl, le⟩ := dictNewsize_eq_some wf computed
  by_cases different : 2 ^ exponent = d.size
  · exact ⟨d, dictResize_eq_some.mpr ⟨_, computed, .inl ⟨different, rfl⟩⟩⟩
  have room := wf.double_le le different
  obtain ⟨next, moved, -⟩ := runFrom_range_completes
    (fun i (state : Dict α) => state.Moving (2 ^ exponent) i (d.inUse i))
    ⟨Dict.WellFormed.cleared large small, rfl, Nat.le_refl 0, Nat.zero_le _,
      by simp⟩
    fun i inside state moving => moving.reinsertion small room few inside now
  exact ⟨next, dictResize_eq_some.mpr ⟨_, computed, .inr ⟨different, moved⟩⟩⟩

/-- In a truthful dictionary a resize ends exactly if `used` stays below
`2 ^ 30`. -/
theorem Dict.Truthful.resizeEnds_iff {d : Dict α} (truthful : d.Truthful)
    (op : DictOp α) : d.ResizeEnds op ↔ d.ResizesSmall op := by
  have wf := truthful.wf
  obtain ⟨usedTop, usedLe⟩ := truthful.used_le
  have usedNext : u32 (d.used + 1) = d.used + 1 := u32_of_lt (by omega)
  have crowds : ∀ i slot, (d.store i slot).crowded = true ↔ d.WillResize :=
    fun _ _ => decide_eq_true_iff
  constructor
  · rintro ends adds ⟨i, finds⟩ resizes
    obtain ⟨⟨exponent, computed, greater⟩, -⟩ :=
      ends adds i 0 0 finds ((crowds i _).mpr resizes)
    have bound := used_lt_of_newsize
      (wf.store (finds.lt wf) 0 op.key op.val op.blob 0 true)
      (by rw [Dict.store_used, usedNext]; exact Nat.succ_le_succ usedLe)
      computed greater
    rwa [Dict.store_used, usedNext] at bound
  · intro small adds i now ts finds crowded
    have bound := small adds ⟨i, finds⟩ ((crowds i _).mp crowded)
    have storedWf := wf.store (finds.lt wf) now op.key op.val op.blob ts true
    have storedUsed : (d.store i ((d.table i).assign now op.key op.val op.blob
        ts true)).used = d.used + 1 := usedNext
    obtain ⟨exponent, computed, greater⟩ := dictNewsize_ends storedWf
      (by rw [storedUsed]; exact Nat.succ_le_succ usedLe)
      (by rw [storedUsed]; exact bound)
    refine ⟨⟨exponent, computed, greater⟩, ?_⟩
    have counted := d.inUse_store_le i
      ((d.table i).assign now op.key op.val op.blob ts true) d.size
    rw [if_pos (finds.lt wf), ← truthful.used_eq] at counted
    obtain ⟨next, resized⟩ := dictResize_completes storedWf now
      (Nat.lt_of_le_of_lt counted bound) computed
    rw [resized, Option.isSome_some]

/-! ## Runs -/

/-- Along a run `used` is the number of stored keys and every resize ends,
exactly if every call that returns is an addition of a new key, an addition
that finds its key and makes the table grow, or a deletion that finds its key,
and no resize is called with `2 ^ 30` entries or more. -/
theorem countsKeys_iff (history : List (DictOp α)) :
    Always (DictOp.apply resizeDepth) dictNew (fun _ d => d.CountsKeys)
          history ∧
        EachCall (DictOp.apply resizeDepth) dictNew Dict.ResizeEnds history ↔
      EachStep (DictOp.apply resizeDepth) dictNew Dict.KeepsCount history ∧
        EachCall (DictOp.apply resizeDepth) dictNew Dict.ResizesSmall
          history := by
  have counts : Always (DictOp.apply resizeDepth) dictNew
      (fun _ (d : Dict α) => d.CountsKeys) history ↔
      EachStep (DictOp.apply resizeDepth) dictNew Dict.KeepsCount history :=
    Always.iff_eachStep (fun _ (d : Dict α) => d.Truthful) Dict.Truthful.new
      (fun _ _ => Dict.Truthful.countsKeys)
      (fun _ d op next _ truthful applied =>
        (truthful.apply_iff applied).2)
      (fun _ d op next _ truthful applied =>
        (truthful.apply_iff applied).1)
  rw [counts]
  refine and_congr_right fun keeps => ?_
  have truthful : Always (DictOp.apply resizeDepth) dictNew
      (fun _ (d : Dict α) => d.Truthful) history :=
    Always.of_eachStep _ Dict.Truthful.new
      (fun _ d op next _ truthful applied => (truthful.apply_iff applied).2)
      keeps
  exact EachCall.congr truthful fun _ d op truthful =>
    truthful.resizeEnds_iff op

/-- Deleting an absent key from an empty dictionary wraps `used` around. -/
theorem del_absent_wraps_used :
    ¬(Always (DictOp.apply resizeDepth) (dictNew : Dict Unit)
          (fun _ d => d.CountsKeys) [.del (.ofLiteral "A")] ∧
        EachCall (DictOp.apply resizeDepth) (dictNew : Dict Unit)
          Dict.ResizeEnds [.del (.ofLiteral "A")]) := by
  rintro ⟨always, -⟩
  have wrapped : (dictAfter (α := Unit) [.del (.ofLiteral "A")]).map
      (fun d => (d.used, d.storedKeys.card)) = some (2 ^ 32 - 1, 0) := by
    decide +kernel
  obtain ⟨d, reached, equal⟩ := Option.map_eq_some_iff.mp wrapped
  obtain ⟨usedEq, cardEq⟩ := Prod.mk.inj equal
  have counts := always.final reached
  rw [Dict.CountsKeys, usedEq, cardEq] at counts
  cases counts

end Hamchat
