import Hamchat.Dict.Lookup

/-!
# One call that changes a dictionary

For each of `dict_add_p`, `dict_resize` and `dict_del` this module says what a
call that returns has done to the table.  The shape of the table is preserved
by all of them, and on a linked table insertion and resizing act on the stored
keys and values as on a finite map.
-/

namespace Hamchat

open Foundation

/-! ## Stored slots -/

section Slots

variable (slot : Keypair α) (now : Int) (key : CString) (val : Option CString)
  (blob : Option (Pointer α)) (ts : Int) (copy : Bool)

@[simp] theorem Keypair.assign_key :
    (slot.assign now key val blob ts copy).key = .string key := rfl

@[simp] theorem Keypair.assign_hash :
    (slot.assign now key val blob ts copy).hash = dictHash key := rfl

@[simp] theorem Keypair.assign_val_copy :
    (slot.assign now key val blob ts true).val = val.or slot.val := rfl

@[simp] theorem Keypair.assign_val_move :
    (slot.assign now key val blob ts false).val = val := rfl

@[simp] theorem Keypair.assign_blob_none :
    (slot.assign now key val none ts copy).blob = slot.blob := rfl

end Slots

@[simp] theorem Dict.store_size (d : Dict α) (i : Nat) (slot : Keypair α) :
    (d.store i slot).size = d.size := rfl

@[simp] theorem Dict.store_fill (d : Dict α) (i : Nat) (slot : Keypair α) :
    (d.store i slot).fill = u32 (d.fill + 1) := rfl

@[simp] theorem Dict.store_used (d : Dict α) (i : Nat) (slot : Keypair α) :
    (d.store i slot).used = u32 (d.used + 1) := rfl

@[simp] theorem Dict.store_table (d : Dict α) (i : Nat) (slot : Keypair α) :
    (d.store i slot).table = Function.update d.table i slot := rfl

@[simp] theorem Dict.cleared_size (newsize : Nat) :
    (Dict.cleared newsize : Dict α).size = newsize := rfl

@[simp] theorem Dict.keyAt_cleared (newsize : Nat) :
    (Dict.cleared newsize : Dict α).keyAt = fun _ => none := rfl

/-- Storing a slot with a key updates the key of that slot only. -/
theorem Dict.keyAt_store (d : Dict α) (i : Nat) {slot : Keypair α}
    {key : CString} (slotKey : slot.key = .string key) :
    (d.store i slot).keyAt = Function.update d.keyAt i (some key) := by
  funext j
  by_cases same : j = i
  · subst same
    simp [Dict.keyAt, slotKey]
  · simp [Dict.keyAt, same]

/-- The slot written by `dict_add_p`. -/
theorem Dict.keyAt_assign (d : Dict α) (i : Nat) (now : Int) (key : CString)
    (val : Option CString) (blob : Option (Pointer α)) (ts : Int)
    (copy : Bool) :
    (d.store i ((d.table i).assign now key val blob ts copy)).keyAt =
      Function.update d.keyAt i (some key) :=
  d.keyAt_store i rfl

/-- Writing the slot that a lookup returned keeps the shape of a table. -/
theorem Dict.WellFormed.store {d : Dict α} (wf : d.WellFormed)
    {i : Nat} (inside : i < d.size) (now : Int) (key : CString)
    (val : Option CString) (blob : Option (Pointer α)) (ts : Int)
    (copy : Bool) :
    (d.store i ((d.table i).assign now key val blob ts copy)).WellFormed where
  size_pow := wf.size_pow
  no_dummy j := by
    by_cases same : j = i
    · subst same
      simp
    · simpa [same] using wf.no_dummy j
  hash_eq j other := by
    rw [d.keyAt_assign]
    by_cases same : j = i
    · subst same
      intro stored
      rw [Function.update_self, Option.some.injEq] at stored
      simp [stored]
    · rw [Function.update_of_ne same]
      simpa [same] using wf.hash_eq j other
  in_range j other := by
    rw [d.keyAt_assign]
    by_cases same : j = i
    · subst same
      intro _
      exact inside
    · rw [Function.update_of_ne same]
      exact wf.in_range j other
  free_val j := by
    rw [d.keyAt_assign]
    by_cases same : j = i
    · subst same
      simp
    · rw [Function.update_of_ne same]
      simpa [same] using wf.free_val j

/-- A table fresh from `calloc` has the right shape. -/
theorem Dict.WellFormed.cleared {exponent : Nat} (large : 3 ≤ exponent)
    (small : exponent ≤ 31) :
    (Dict.cleared (2 ^ exponent) : Dict α).WellFormed where
  size_pow := ⟨exponent, large, small, rfl⟩
  no_dummy _ := by simp [Dict.cleared, Keypair.zero]
  hash_eq _ _ stored := by simp at stored
  in_range _ _ stored := by simp at stored
  free_val _ _ := rfl

theorem Dict.WellFormed.new : (dictNew : Dict α).WellFormed :=
  Dict.WellFormed.cleared (Nat.le_refl 3) (by decide)

/-! ## The doubling loop -/

/-- Once `newsize` is zero the loop spins. -/
theorem doubleWhileLe_zero (target fuel : Nat) :
    doubleWhileLe target fuel 0 = none := by
  induction fuel with
  | zero => rfl
  | succ fuel inductionHypothesis =>
      simpa [doubleWhileLe, u32] using inductionHypothesis

/-- A doubling loop that ends has found a larger power of two. -/
theorem doubleWhileLe_eq_some {target fuel exponent newsize : Nat}
    (small : exponent ≤ 31)
    (ended : doubleWhileLe target fuel (2 ^ exponent) = some newsize) :
    ∃ larger, exponent ≤ larger ∧ larger ≤ 31 ∧ newsize = 2 ^ larger ∧
      target < newsize := by
  induction fuel generalizing exponent with
  | zero => cases ended
  | succ fuel inductionHypothesis =>
      rw [doubleWhileLe] at ended
      by_cases less : 2 ^ exponent ≤ target
      · rw [if_pos less, ← Nat.pow_succ] at ended
        rcases Nat.lt_or_ge exponent 31 with below | top
        · rw [u32_of_lt (Nat.pow_lt_pow_right (by decide) (by omega))] at ended
          obtain ⟨larger, le, bound, equal, greater⟩ :=
            inductionHypothesis (by omega) ended
          exact ⟨larger, by omega, bound, equal, greater⟩
        · obtain rfl : exponent = 31 := by omega
          have wrapped : u32 (2 ^ Nat.succ 31) = 0 := by decide
          rw [wrapped, doubleWhileLe_zero] at ended
          cases ended
      · rw [if_neg less, Option.some.injEq] at ended
        exact ⟨exponent, Nat.le_refl _, small, ended.symm, by omega⟩

/-- The size computed for a table of the right shape. -/
theorem dictNewsize_eq_some {d : Dict α} (wf : d.WellFormed) {newsize : Nat}
    (computed : dictNewsize d = some newsize) :
    ∃ exponent, 3 ≤ exponent ∧ exponent ≤ 31 ∧ newsize = 2 ^ exponent ∧
      d.size ≤ newsize := by
  obtain ⟨exponent, large, small, sizeEq⟩ := wf.size_pow
  unfold dictNewsize at computed
  rw [sizeEq] at computed
  obtain ⟨larger, le, bound, equal, -⟩ :=
    doubleWhileLe_eq_some small computed
  refine ⟨larger, by omega, bound, equal, ?_⟩
  rw [sizeEq, equal]
  exact Nat.pow_le_pow_right (by decide) le

/-! ## What a returning call has done -/

/-- `dict_add_p` has stored into the slot where the search ended, and has
resized if the table was then crowded. -/
theorem dictAddPWith_eq_some {d next : Dict α} (wf : d.WellFormed)
    {resize : Dict α → Option (Dict α)} {now ts : Int} {key : CString}
    {val : Option CString} {blob : Option (Pointer α)} {copy : Bool} :
    dictAddPWith resize now d key val blob ts copy = some next ↔
      ∃ i, d.FindsAt key i ∧
        ((d.store i ((d.table i).assign now key val blob ts copy)).crowded =
            false ∧
          d.store i ((d.table i).assign now key val blob ts copy) = next ∨
        (d.store i ((d.table i).assign now key val blob ts copy)).crowded =
            true ∧
          resize (d.store i ((d.table i).assign now key val blob ts copy)) =
            some next) := by
  rw [dictAddPWith, Option.bind_eq_bind, Option.bind_eq_some_iff]
  constructor
  · rintro ⟨i, looked, result⟩
    refine ⟨i, (dictLookup_eq_some wf key i).mp looked, ?_⟩
    cases crowded : (d.store i
        ((d.table i).assign now key val blob ts copy)).crowded with
    | false => exact .inl ⟨rfl, by simpa [crowded] using result⟩
    | true => exact .inr ⟨rfl, by simpa [crowded] using result⟩
  · rintro ⟨i, finds, result⟩
    refine ⟨i, (dictLookup_eq_some wf key i).mpr finds, ?_⟩
    rcases result with ⟨crowded, equal⟩ | ⟨crowded, resized⟩
    · simpa [crowded] using equal
    · simpa [crowded] using resized

/-- A call whose resize returns is unchanged by a resize that returns more
often. -/
theorem dictAddPWith_mono {resize larger : Dict α → Option (Dict α)}
    (extension : ∀ d next, resize d = some next → larger d = some next)
    {d next : Dict α} {now ts : Int} {key : CString} {val : Option CString}
    {blob : Option (Pointer α)} {copy : Bool}
    (added : dictAddPWith resize now d key val blob ts copy = some next) :
    dictAddPWith larger now d key val blob ts copy = some next := by
  rw [dictAddPWith, Option.bind_eq_bind, Option.bind_eq_some_iff] at added ⊢
  obtain ⟨i, looked, result⟩ := added
  refine ⟨i, looked, ?_⟩
  cases crowded : (d.store i
      ((d.table i).assign now key val blob ts copy)).crowded with
  | false => simpa [crowded] using result
  | true =>
      simp only [crowded, if_true] at result ⊢
      exact extension _ _ result

/-- The body of the re-insertion loop. -/
def reinsertion (now : Int) (depth : Nat) (oldtable : Nat → Keypair α)
    (d : Dict α) (i : Nat) : Option (Dict α) :=
  reinsert
    (fun d key val ts =>
      dictAddPWith (dictResize now depth) now d key val none ts false)
    oldtable d i

/-- `dict_resize` has left early, or has moved every slot into a larger
table. -/
theorem dictResize_eq_some {d next : Dict α} {now : Int} {depth : Nat} :
    dictResize now (depth + 1) d = some next ↔
      ∃ newsize, dictNewsize d = some newsize ∧
        (newsize = d.size ∧ d = next ∨
          newsize ≠ d.size ∧
            runFrom (reinsertion now depth d.table) (Dict.cleared newsize)
              (List.range d.size) = some next) := by
  rw [dictResize, Option.bind_eq_bind, Option.bind_eq_some_iff]
  constructor
  · rintro ⟨newsize, computed, result⟩
    refine ⟨newsize, computed, ?_⟩
    by_cases same : newsize = d.size
    · exact .inl ⟨same, by simpa [same] using result⟩
    · rw [if_neg same] at result
      exact .inr ⟨same, result⟩
  · rintro ⟨newsize, computed, result⟩
    refine ⟨newsize, computed, ?_⟩
    rcases result with ⟨same, equal⟩ | ⟨different, moved⟩
    · rw [if_pos same, equal]
    · rw [if_neg different]
      exact moved

/-- A call that returns with a bound on nested resizes returns the same with
every larger bound. -/
theorem dictResize_mono {d next : Dict α} {now : Int} {depth : Nat}
    (resized : dictResize now depth d = some next) :
    dictResize now (depth + 1) d = some next := by
  induction depth generalizing d next with
  | zero => cases resized
  | succ depth inductionHypothesis =>
      obtain ⟨newsize, computed, result⟩ := dictResize_eq_some.mp resized
      refine dictResize_eq_some.mpr ⟨newsize, computed, ?_⟩
      rcases result with left | ⟨different, moved⟩
      · exact .inl left
      · refine .inr ⟨different, runFrom_mono ?_ moved⟩
        intro state i after stepped
        unfold reinsertion reinsert at stepped ⊢
        split at stepped
        · exact dictAddPWith_mono (fun _ _ => inductionHypothesis) stepped
        · exact stepped

/-- One round of the re-insertion loop. -/
theorem reinsertion_eq_some {oldtable : Nat → Keypair α} {d next : Dict α}
    {now : Int} {depth i : Nat} :
    reinsertion now depth oldtable d i = some next ↔
      ((∀ key, (oldtable i).key ≠ .string key) ∧ d = next ∨
        ∃ key, (oldtable i).key = .string key ∧
          dictAddP depth now d key (oldtable i).val none (oldtable i).ts
            false = some next) := by
  unfold reinsertion reinsert dictAddP
  cases keyEq : (oldtable i).key <;> simp

/-- The dictionary that `dict_del` leaves after finding slot `i`. -/
def Dict.free (d : Dict α) (i : Nat) : Dict α where
  fill := d.fill
  used := u32Dec d.used
  size := d.size
  table := Function.update d.table i
    { d.table i with key := .null, val := none }

@[simp] theorem Dict.free_size (d : Dict α) (i : Nat) :
    (d.free i).size = d.size := rfl

@[simp] theorem Dict.free_used (d : Dict α) (i : Nat) :
    (d.free i).used = u32Dec d.used := rfl

/-- `dict_del` frees the slot where the search ended. -/
theorem dictDel_eq_some {d next : Dict α} (wf : d.WellFormed) {key : CString}
    {code : Int} :
    dictDel d key = some (code, next) ↔
      ∃ i, d.FindsAt key i ∧ code = 0 ∧ d.free i = next := by
  rw [dictDel, Option.bind_eq_bind, Option.bind_eq_some_iff]
  constructor
  · rintro ⟨i, looked, result⟩
    refine ⟨i, (dictLookup_eq_some wf key i).mp looked, ?_⟩
    simp only [Option.some.injEq, Prod.mk.injEq] at result
    exact ⟨result.1.symm, result.2⟩
  · rintro ⟨i, finds, rfl, rfl⟩
    exact ⟨i, (dictLookup_eq_some wf key i).mpr finds, rfl⟩

/-- Freeing a slot removes its key. -/
theorem Dict.keyAt_free (d : Dict α) (i : Nat) :
    (d.free i).keyAt = Function.update d.keyAt i none := by
  funext j
  by_cases same : j = i
  · subst same
    simp [Dict.keyAt, Dict.free]
  · simp [Dict.keyAt, Dict.free, same]

/-- Freeing a slot keeps the shape of a table. -/
theorem Dict.WellFormed.free {d : Dict α} (wf : d.WellFormed) (i : Nat) :
    (d.free i).WellFormed where
  size_pow := wf.size_pow
  no_dummy j := by
    by_cases same : j = i
    · subst same
      simp [Dict.free]
    · simpa [Dict.free, same] using wf.no_dummy j
  hash_eq j other := by
    rw [d.keyAt_free]
    by_cases same : j = i
    · subst same
      simp
    · rw [Function.update_of_ne same]
      simpa [Dict.free, same] using wf.hash_eq j other
  in_range j other := by
    rw [d.keyAt_free]
    by_cases same : j = i
    · subst same
      simp
    · rw [Function.update_of_ne same]
      exact wf.in_range j other
  free_val j := by
    rw [d.keyAt_free]
    by_cases same : j = i
    · subst same
      simp [Dict.free]
    · rw [Function.update_of_ne same]
      simpa [Dict.free, same] using wf.free_val j

/-! ## Slots seen one by one -/

/-- A slot in use adds its key to the keys of the slots before it. -/
theorem Dict.exists_key_before_succ {d : Dict α} {i : Nat} {key : CString}
    (stored : d.keyAt i = some key) (other : CString) :
    (∃ j < i + 1, d.keyAt j = some other) ↔
      (∃ j < i, d.keyAt j = some other) ∨ other = key := by
  rw [Nat.exists_lt_succ_right, stored, Option.some.injEq, @eq_comm _ key]

/-- A free slot adds nothing to the keys of the slots before it. -/
theorem Dict.exists_key_before_succ_of_free {d : Dict α} {i : Nat}
    (free : d.keyAt i = none) (other : CString) :
    (∃ j < i + 1, d.keyAt j = some other) ↔
      ∃ j < i, d.keyAt j = some other := by
  rw [Nat.exists_lt_succ_right, free, or_iff_left (Option.some_ne_none _).symm]

/-! ## Induction over nested resizes -/

section Rules

variable {M : Type} (holds : M → Dict α → Prop)
variable (move : M → CString → Option CString → M)

/-- A property that may be indexed by an abstract state survives
`dict_resize` if it survives the move of one slot, and if the moves of all
slots of a table lead from a fresh table back to the same abstract state. -/
theorem dictResize_rule
    (moved : ∀ m (d : Dict α) i now key val ts, d.WellFormed → holds m d →
      d.FindsAt key i → holds (move m key val)
        (d.store i ((d.table i).assign now key val none ts false)))
    (restart : ∀ m (d : Dict α) exponent, d.WellFormed → holds m d →
      3 ≤ exponent → exponent ≤ 31 →
      ∃ trace : Nat → M, holds (trace 0) (Dict.cleared (2 ^ exponent)) ∧
        trace d.size = m ∧ ∀ i < d.size,
          (∀ key, d.keyAt i = some key →
            trace (i + 1) = move (trace i) key (d.table i).val) ∧
          (d.keyAt i = none → trace (i + 1) = trace i))
    {now : Int} {depth : Nat} {m : M} {d next : Dict α} (wf : d.WellFormed)
    (held : holds m d) (resized : dictResize now depth d = some next) :
    next.WellFormed ∧ holds m next := by
  induction depth generalizing m d next with
  | zero => cases resized
  | succ depth inductionHypothesis =>
      obtain ⟨newsize, computed, ⟨-, rfl⟩ | ⟨-, moves⟩⟩ :=
        dictResize_eq_some.mp resized
      · exact ⟨wf, held⟩
      · obtain ⟨exponent, large, small, rfl, -⟩ :=
          dictNewsize_eq_some wf computed
        obtain ⟨trace, atStart, atEnd, along⟩ :=
          restart m d exponent wf held large small
        rw [← atEnd]
        refine runFrom_range_induction
          (fun i state => state.WellFormed ∧ holds (trace i) state)
          ⟨Dict.WellFormed.cleared large small, atStart⟩ ?_ moves
        rintro i less state after ⟨stateWf, stateHolds⟩ stepped
        rcases reinsertion_eq_some.mp stepped with
          ⟨noKey, rfl⟩ | ⟨key, keyEq, added⟩
        · have free : d.keyAt i = none := by
            rw [wf.keyAt_eq_none]
            cases keyEq : (d.table i).key with
            | null => rfl
            | dummy => exact absurd keyEq (wf.no_dummy i)
            | string key => exact absurd keyEq (noKey key)
          rw [(along i less).2 free]
          exact ⟨stateWf, stateHolds⟩
        · rw [(along i less).1 key (Dict.keyAt_eq_some.mpr keyEq)]
          obtain ⟨j, finds, ⟨-, rfl⟩ | ⟨-, nested⟩⟩ :=
            (dictAddPWith_eq_some stateWf).mp added
          · exact ⟨stateWf.store (finds.lt stateWf) .., moved _ _ _ _ _ _ _
              stateWf stateHolds finds⟩
          · exact inductionHypothesis (stateWf.store (finds.lt stateWf) ..)
              (moved _ _ _ _ _ _ _ stateWf stateHolds finds) nested

/-- A property of tables that survives the move of one slot and holds of every
fresh table survives `dict_resize`. -/
theorem dictResize_preserves {holds : Dict α → Prop}
    (moved : ∀ (d : Dict α) i now key val ts, d.WellFormed → holds d →
      d.FindsAt key i →
      holds (d.store i ((d.table i).assign now key val none ts false)))
    (cleared : ∀ exponent, holds (Dict.cleared (2 ^ exponent)))
    {now : Int} {depth : Nat} {d next : Dict α} (wf : d.WellFormed)
    (held : holds d) (resized : dictResize now depth d = some next) :
    next.WellFormed ∧ holds next :=
  dictResize_rule (fun _ : Unit => holds) (fun _ _ _ => ()) (fun _ => moved)
    (fun _ _ exponent _ _ _ _ =>
      ⟨fun _ => (), cleared exponent, rfl,
        fun _ _ => ⟨fun _ _ => rfl, fun _ => rfl⟩⟩)
    wf (m := ()) held resized

end Rules

/-- `dict_add_p` stores into the slot where the search ended; whatever holds
then and survives `dict_resize` holds when it returns. -/
theorem dictAddP_eq_some {d next : Dict α} (wf : d.WellFormed)
    {depth : Nat} {now ts : Int} {key : CString} {val : Option CString}
    {blob : Option (Pointer α)} {copy : Bool}
    (added : dictAddP depth now d key val blob ts copy = some next) :
    ∃ i, d.FindsAt key i ∧
      (d.store i ((d.table i).assign now key val blob ts copy) = next ∨
        dictResize now depth
          (d.store i ((d.table i).assign now key val blob ts copy)) =
            some next) := by
  obtain ⟨i, finds, ⟨-, equal⟩ | ⟨-, resized⟩⟩ :=
    (dictAddPWith_eq_some wf).mp added
  · exact ⟨i, finds, .inl equal⟩
  · exact ⟨i, finds, .inr resized⟩

/-! ## Nested resizes -/

/-- A table of `2 ^ 31` slots is left as it is. -/
theorem dictResize_of_top {d next : Dict α} (wf : d.WellFormed)
    (top : d.size = 2 ^ 31) {now : Int} {depth : Nat}
    (resized : dictResize now depth d = some next) :
    d = next ∧ dictResize now 1 d = some next := by
  cases depth with
  | zero => cases resized
  | succ depth =>
      obtain ⟨newsize, computed, result⟩ := dictResize_eq_some.mp resized
      obtain ⟨exponent, -, small, rfl, le⟩ := dictNewsize_eq_some wf computed
      have same : 2 ^ exponent = d.size := by
        have := Nat.pow_le_pow_right (n := 2) (by decide) small
        omega
      rcases result with left | ⟨different, -⟩
      · exact ⟨left.2, dictResize_eq_some.mpr ⟨_, computed, .inl left⟩⟩
      · exact absurd same different

theorem u32_le (value : Nat) : u32 value ≤ value := Nat.mod_le _ _

/-- While a table moves into one of at least twice its size, the new table is
crowded only if it has `2 ^ 31` slots. -/
theorem Dict.top_of_crowded {d : Dict α} {oldsize exponent : Nat}
    (sizeEq : d.size = 2 ^ exponent) (small : exponent ≤ 31)
    (room : 2 * oldsize ≤ d.size) (positive : 0 < d.size)
    (fillLe : d.fill ≤ oldsize) (crowded : d.crowded = true) :
    d.size = 2 ^ 31 := by
  rw [Dict.crowded, decide_eq_true_iff] at crowded
  have tripled := u32_le (3 * d.fill)
  by_contra below
  have exponentLt : exponent < 31 := by
    by_contra top
    obtain rfl : exponent = 31 := by omega
    exact below sizeEq
  have bound : 2 ^ exponent < 2 ^ 31 :=
    Nat.pow_lt_pow_right (by decide) exponentLt
  rw [u32_of_lt (by omega)] at crowded
  omega

/-- A table that grows at least doubles. -/
theorem Dict.WellFormed.double_le {d : Dict α} (wf : d.WellFormed)
    {exponent : Nat} (le : d.size ≤ 2 ^ exponent)
    (different : 2 ^ exponent ≠ d.size) : 2 * d.size ≤ 2 ^ exponent := by
  obtain ⟨start, -, -, sizeEq⟩ := wf.size_pow
  have grows : start < exponent := by
    rw [← Nat.pow_lt_pow_iff_right (a := 2) (by decide)]
    omega
  calc 2 * d.size = 2 ^ (start + 1) := by rw [sizeEq, Nat.pow_succ']
    _ ≤ 2 ^ exponent := Nat.pow_le_pow_right (by decide) grows

/-- A round of the re-insertion loop into a table of at least twice the size
skips a slot without a key or stores the slot it moves.  A nested call of
`dict_resize` finds a table that cannot grow and returns at once. -/
theorem reinsertion_moves {d state after : Dict α} {now : Int}
    {depth i exponent : Nat} (stateWf : state.WellFormed)
    (stateSize : state.size = 2 ^ exponent) (small : exponent ≤ 31)
    (room : 2 * d.size ≤ 2 ^ exponent) (inside : i < d.size)
    (fillLe : state.fill ≤ i)
    (stepped : reinsertion now depth d.table state i = some after) :
    reinsertion now 1 d.table state i = some after ∧
      (after.WellFormed ∧ after.size = 2 ^ exponent ∧ after.fill ≤ i + 1) ∧
      ((∀ key, (d.table i).key ≠ .string key) ∧ state = after ∨
        ∃ key j, (d.table i).key = .string key ∧ state.FindsAt key j ∧
          state.store j ((state.table j).assign now key (d.table i).val none
            (d.table i).ts false) = after) := by
  rcases reinsertion_eq_some.mp stepped with ⟨noKey, rfl⟩ | ⟨key, keyEq, added⟩
  · exact ⟨reinsertion_eq_some.mpr (.inl ⟨noKey, rfl⟩),
      ⟨stateWf, stateSize, by omega⟩, .inl ⟨noKey, rfl⟩⟩
  obtain ⟨j, finds, result⟩ := (dictAddPWith_eq_some stateWf).mp added
  have storedWf := stateWf.store (finds.lt stateWf) now key (d.table i).val
    none (d.table i).ts false
  have storedFill := u32_le (state.fill + 1)
  rw [← Dict.store_fill state j
    ((state.table j).assign now key (d.table i).val none (d.table i).ts false)]
    at storedFill
  rcases result with ⟨roomy, rfl⟩ | ⟨crowded, nested⟩
  · exact ⟨reinsertion_eq_some.mpr (.inr
      ⟨key, keyEq, (dictAddPWith_eq_some stateWf).mpr
        ⟨j, finds, .inl ⟨roomy, rfl⟩⟩⟩), ⟨storedWf, stateSize, by omega⟩,
      .inr ⟨key, j, keyEq, finds, rfl⟩⟩
  · have top := Dict.top_of_crowded (d := state.store j _) stateSize small
      (show 2 * d.size ≤ _ by rw [Dict.store_size]; omega)
      storedWf.size_pos (by omega) crowded
    obtain ⟨rfl, again⟩ := dictResize_of_top storedWf top nested
    exact ⟨reinsertion_eq_some.mpr (.inr
      ⟨key, keyEq, (dictAddPWith_eq_some stateWf).mpr
        ⟨j, finds, .inr ⟨crowded, again⟩⟩⟩), ⟨storedWf, stateSize, by omega⟩,
      .inr ⟨key, j, keyEq, finds, rfl⟩⟩

/-- `dict_resize` does not run inside itself more than once. -/
theorem dictResize_depth {d next : Dict α} (wf : d.WellFormed) {now : Int}
    {depth : Nat} (resized : dictResize now depth d = some next) :
    dictResize now resizeDepth d = some next := by
  cases depth with
  | zero => cases resized
  | succ depth =>
  obtain ⟨newsize, computed, ⟨same, equal⟩ | ⟨different, moved⟩⟩ :=
    dictResize_eq_some.mp resized
  · exact dictResize_eq_some.mpr ⟨newsize, computed, .inl ⟨same, equal⟩⟩
  obtain ⟨exponent, large, small, rfl, le⟩ := dictNewsize_eq_some wf computed
  refine dictResize_eq_some.mpr ⟨_, computed, .inr ⟨different, ?_⟩⟩
  refine (runFrom_range_induction
    (fun i (state : Dict α) =>
      (state.WellFormed ∧ state.size = 2 ^ exponent ∧ state.fill ≤ i) ∧
        runFrom (reinsertion now 1 d.table) (Dict.cleared (2 ^ exponent))
          (List.range i) = some state)
    ⟨⟨Dict.WellFormed.cleared large small, rfl, Nat.le_refl 0⟩, rfl⟩
    ?_ moved).2
  rintro i inside state after ⟨⟨stateWf, stateSize, fillLe⟩, reached⟩ stepped
  obtain ⟨again, shape, -⟩ := reinsertion_moves stateWf stateSize small
    (wf.double_le le different) inside fillLe stepped
  refine ⟨shape, ?_⟩
  rw [List.range_succ, runFrom_concat, reached, Option.bind_some]
  exact again

/-- `dict_resize` leaves early, or it moves the slots one after the other into
a table of at least twice the size. -/
theorem dictResize_moves (invariant : Nat → Dict α → Prop)
    {d next : Dict α} (wf : d.WellFormed) {now : Int} {depth : Nat}
    (cleared : ∀ exponent, invariant 0 (Dict.cleared (2 ^ exponent)))
    (moved : ∀ i key state j, i < d.size → d.keyAt i = some key →
      state.WellFormed → invariant i state → state.FindsAt key j →
      invariant (i + 1) (state.store j ((state.table j).assign now key
        (d.table i).val none (d.table i).ts false)))
    (skipped : ∀ i state, i < d.size → d.keyAt i = none →
      invariant i state → invariant (i + 1) state)
    (resized : dictResize now depth d = some next) :
    dictNewsize d = some d.size ∧ d = next ∨
      dictNewsize d = some next.size ∧ 2 * d.size ≤ next.size ∧
        next.WellFormed ∧ invariant d.size next := by
  cases depth with
  | zero => cases resized
  | succ depth =>
  obtain ⟨newsize, computed, ⟨rfl, equal⟩ | ⟨different, moves⟩⟩ :=
    dictResize_eq_some.mp resized
  · exact .inl ⟨computed, equal⟩
  obtain ⟨exponent, large, small, rfl, le⟩ := dictNewsize_eq_some wf computed
  have room := wf.double_le le different
  have shaped : (next.WellFormed ∧ next.size = 2 ^ exponent ∧
      next.fill ≤ d.size) ∧ invariant d.size next := by
    refine runFrom_range_induction
      (fun i (state : Dict α) =>
        (state.WellFormed ∧ state.size = 2 ^ exponent ∧ state.fill ≤ i) ∧
          invariant i state)
      ⟨⟨Dict.WellFormed.cleared large small, rfl, Nat.le_refl 0⟩,
        cleared exponent⟩ ?_ moves
    rintro i inside state after ⟨⟨stateWf, stateSize, fillLe⟩, holds⟩ stepped
    obtain ⟨-, shape, ⟨noKey, rfl⟩ | ⟨key, j, keyEq, finds, rfl⟩⟩ :=
      reinsertion_moves stateWf stateSize small room inside fillLe stepped
    · refine ⟨shape, skipped i state inside ?_ holds⟩
      cases stored : d.keyAt i with
      | none => rfl
      | some key => exact absurd (Dict.keyAt_eq_some.mp stored) (noKey key)
    · exact ⟨shape, moved i key state j inside (Dict.keyAt_eq_some.mpr keyEq)
        stateWf holds finds⟩
  obtain ⟨⟨nextWf, nextSize, -⟩, held⟩ := shaped
  rw [nextSize]
  exact .inr ⟨computed, room, nextWf, held⟩

/-- Each of the four adding calls is a `dict_add_p` that copies. -/
theorem DictOp.apply_of_adds {op : DictOp α} (adds : op.isDel = false) :
    ∃ now ts, ∀ depth d, op.apply depth d =
      dictAddP depth now d op.key op.val op.blob ts true := by
  cases op with
  | add now key val => exact ⟨now, now, fun _ _ => rfl⟩
  | addTs now key val ts => exact ⟨now, ts, fun _ _ => rfl⟩
  | addBlob now key ptr => exact ⟨now, now, fun _ _ => rfl⟩
  | addBlobTs now key ptr ts => exact ⟨now, ts, fun _ _ => rfl⟩
  | del key => cases adds

/-- A `dict_del` that returns has freed the slot where the search ended. -/
theorem DictOp.apply_del_eq_some {d next : Dict α} (wf : d.WellFormed)
    {depth : Nat} {key : CString} :
    (DictOp.del key).apply depth d = some next ↔
      ∃ i, d.FindsAt key i ∧ d.free i = next := by
  rw [DictOp.apply, Option.map_eq_some_iff]
  constructor
  · rintro ⟨⟨code, after⟩, deleted, rfl⟩
    obtain ⟨i, finds, -, freed⟩ := (dictDel_eq_some wf).mp deleted
    exact ⟨i, finds, freed⟩
  · rintro ⟨i, finds, freed⟩
    exact ⟨(0, next), (dictDel_eq_some wf).mpr ⟨i, finds, rfl, freed⟩, rfl⟩

/-- `resizeDepth` activations of `dict_resize` suffice for every call. -/
theorem DictOp.apply_depth {d next : Dict α} (wf : d.WellFormed)
    {op : DictOp α} {depth : Nat} (applied : op.apply depth d = some next) :
    op.apply resizeDepth d = some next := by
  by_cases adds : op.isDel = false
  · obtain ⟨now, ts, added⟩ := op.apply_of_adds adds
    rw [added] at applied ⊢
    obtain ⟨i, finds, result⟩ := (dictAddPWith_eq_some wf).mp applied
    refine (dictAddPWith_eq_some wf).mpr ⟨i, finds, ?_⟩
    rcases result with roomy | ⟨crowded, resized⟩
    · exact .inl roomy
    · exact .inr ⟨crowded,
        dictResize_depth (wf.store (finds.lt wf) ..) resized⟩
  · cases op with
    | del key => exact applied
    | _ => exact absurd rfl adds

/-- A call that returns with a bound on nested resizes returns the same with
every larger bound. -/
theorem DictOp.apply_mono {d next : Dict α} {op : DictOp α} {depth : Nat}
    (applied : op.apply depth d = some next) (extra : Nat) :
    op.apply (depth + extra) d = some next := by
  by_cases adds : op.isDel = false
  · obtain ⟨now, ts, added⟩ := op.apply_of_adds adds
    rw [added] at applied ⊢
    induction extra with
    | zero => exact applied
    | succ extra inductionHypothesis =>
        exact dictAddPWith_mono (fun _ _ => dictResize_mono)
          inductionHypothesis
  · cases op with
    | del key => exact applied
    | _ => exact absurd rfl adds

/-- A property of tables that survives every store of `dict_add_p`, every move
of a slot and every freed slot survives each call.  The store and the freed
slot may use which call is being made. -/
theorem DictOp.apply_preserves (holds : Dict α → Prop)
    {d next : Dict α} {depth : Nat} {op : DictOp α} (wf : d.WellFormed)
    (stored : ∀ i now ts, d.FindsAt op.key i → op.isDel = false →
      holds (d.store i
        ((d.table i).assign now op.key op.val op.blob ts true)))
    (freed : ∀ i, d.FindsAt op.key i → op = .del op.key → holds (d.free i))
    (moved : ∀ (d : Dict α) i now key val ts, d.WellFormed → holds d →
      d.FindsAt key i →
      holds (d.store i ((d.table i).assign now key val none ts false)))
    (cleared : ∀ exponent, holds (Dict.cleared (2 ^ exponent)))
    (applied : op.apply depth d = some next) :
    next.WellFormed ∧ holds next := by
  by_cases adds : op.isDel = false
  · obtain ⟨now, ts, added⟩ := op.apply_of_adds adds
    rw [added] at applied
    obtain ⟨i, finds, rfl | resized⟩ := dictAddP_eq_some wf applied
    · exact ⟨wf.store (finds.lt wf) .., stored i now ts finds adds⟩
    · exact dictResize_preserves moved cleared (wf.store (finds.lt wf) ..)
        (stored i now ts finds adds) resized
  · cases op with
    | del key =>
        obtain ⟨i, finds, rfl⟩ := (DictOp.apply_del_eq_some wf).mp applied
        exact ⟨wf.free i, freed i finds rfl⟩
    | _ => exact absurd rfl adds

/-- Every call that returns keeps the shape of the table. -/
theorem DictOp.apply_wellFormed {d next : Dict α} {depth : Nat}
    {op : DictOp α} (wf : d.WellFormed)
    (applied : op.apply depth d = some next) : next.WellFormed :=
  (DictOp.apply_preserves (fun _ => True) wf
    (fun _ _ _ _ _ => trivial) (fun _ _ _ => trivial)
    (fun _ _ _ _ _ _ _ _ _ => trivial) (fun _ => trivial) applied).1

/-- Every history leaves a table of the right shape. -/
theorem wellFormed_of_dictAfter {history : List (DictOp α)} {d : Dict α}
    (reached : dictAfter history = some d) : d.WellFormed :=
  (Always.of_step (fun _ (d : Dict α) => d.WellFormed) Dict.WellFormed.new
    fun _ _ _ _ wf applied => DictOp.apply_wellFormed wf applied).final reached

end Hamchat
