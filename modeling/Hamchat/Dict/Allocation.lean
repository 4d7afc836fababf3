import Hamchat.Dict.Update

/-!
# Failing allocations

`dict_add_p` copies the key and the value with `strdup`, and `dict_resize` gets
its table from `calloc`.  Here each of these calls may fail.  What a failure
leaves behind is a dictionary with an empty slot, with a slot whose key has been
freed, or without a table.  Only a failure of the first `strdup` for a key that
is not stored does no harm.
-/

namespace Hamchat

open Foundation

/-- A dictionary and the state of the heap that its pointers depend on. -/
structure Memory (α : Type) where
  /-- The fields of the `dict` and the slots of its table. -/
  dict : Dict α
  /-- Whether `d->table` is NULL. -/
  tableNull : Bool
  /-- The slots whose `key` points to a string that has been freed. -/
  freedKeys : Nat → Bool
  /-- How many allocations have been tried. -/
  allocations : Nat
  /-- Whether one of them has failed. -/
  failed : Bool

namespace Memory

/-- A dictionary all of whose pointers are valid, before a call. -/
def ofDict (d : Dict α) : Memory α where
  dict := d
  tableNull := false
  freedKeys := fun _ => false
  allocations := 0
  failed := false

/-- The same heap with other slots. -/
def holding (m : Memory α) (d : Dict α) : Memory α := { m with dict := d }

/-- One more allocation, which fails if `fails` says so of its number. -/
def allocate (m : Memory α) (fails : Nat → Bool) : Memory α :=
  { m with
    allocations := m.allocations + 1
    failed := m.failed || fails m.allocations }

/-- Write a slot without counting it. -/
def write (m : Memory α) (i : Nat) (slot : Keypair α) (freed : Bool) :
    Memory α :=
  { m with
    dict := { m.dict with table := Function.update m.dict.table i slot }
    freedKeys := Function.update m.freedKeys i freed }

/-- Store into slot `i` a key that is not freed, and count the addition. -/
def store (m : Memory α) (i : Nat) (slot : Keypair α) : Memory α :=
  { m with
    dict := m.dict.store i slot
    freedKeys := Function.update m.freedKeys i false }

/-- An empty table in the place of the old one. -/
def cleared (m : Memory α) (newsize : Nat) : Memory α :=
  { m with
    dict := Dict.cleared newsize
    freedKeys := fun _ => false }

end Memory

/-- `dict_add_p` with failing allocations, given the `dict_resize` that it
calls: its return code and the memory that it leaves.  The result `none` means
that the call does not return or that it uses a NULL table. -/
def dictAddPFailing (fails : Nat → Bool)
    (resize : Memory α → Option (Int × Memory α)) (now : Int) (m : Memory α)
    (key : CString) (val : Option CString) (blob : Option (Pointer α))
    (ts : Int) (copy : Bool) : Option (Int × Memory α) :=
  if m.tableNull then
    none
  else do
    let i ← dictLookup m.dict key (dictHash key)
    let slot := m.dict.table i
    if copy ∧ fails m.allocations then
      -- `slot->key` has received the NULL that `strdup` returned.
      some (-1, (m.allocate fails).write i { slot with key := .null } false)
    else
      let m := if copy then m.allocate fails else m
      if copy ∧ val.isSome ∧ fails m.allocations then
        -- The key is freed but not forgotten.
        some (-1, (m.allocate fails).write i
          { slot with key := .string key, val := none } true)
      else
        let m := if copy ∧ val.isSome then m.allocate fails else m
        let m := m.store i (slot.assign now key val blob ts copy)
        if m.dict.crowded then do
          let (code, m) ← resize m
          some (if code ≠ 0 then -1 else 0, m)
        else
          some (0, m)

/-- Move one slot of the old table, whatever `dict_add_p` returns. -/
def reinsertFailing
    (addP : Memory α → CString → Option CString → Int →
      Option (Int × Memory α))
    (oldtable : Nat → Keypair α) (m : Memory α) (i : Nat) :
    Option (Memory α) :=
  match (oldtable i).key with
  | .string key => (addP m key (oldtable i).val (oldtable i).ts).map Prod.snd
  | _ => some m

/-- `dict_resize` with failing allocations, with at most `depth` activations on
the call stack. -/
def dictResizeFailing (fails : Nat → Bool) (now : Int) :
    (depth : Nat) → Memory α → Option (Int × Memory α)
  | 0, _ => none
  | depth + 1, m => do
      let newsize ← dictNewsize m.dict
      if newsize = m.dict.size then
        some (0, m)
      else if fails m.allocations then
        -- `d->table` has received the NULL that `calloc` returned.
        some (-1, { m.allocate fails with tableNull := true })
      else
        let moved ← (List.range m.dict.size).foldlM
          (reinsertFailing
            (fun m key val ts =>
              dictAddPFailing fails (dictResizeFailing fails now depth) now m
                key val none ts false)
            m.dict.table)
          ((m.allocate fails).cleared newsize)
        some (0, moved)

/-- `dict_add` with failing allocations. -/
def dictAddFailing (fails : Nat → Bool) (depth : Nat) (now : Int)
    (m : Memory α) (key : CString) (val : Option CString) :
    Option (Int × Memory α) :=
  dictAddPFailing fails (dictResizeFailing fails now depth) now m key val none
    now true

/-- `dict_add_ts` with failing allocations. -/
def dictAddTsFailing (fails : Nat → Bool) (depth : Nat) (now : Int)
    (m : Memory α) (key : CString) (val : Option CString) (ts : Int) :
    Option (Int × Memory α) :=
  dictAddPFailing fails (dictResizeFailing fails now depth) now m key val none
    ts true

/-! ## Calls without a failure -/

section Succeeding

variable {m : Memory α} {fails : Nat → Bool} {now : Int}

@[simp] theorem Memory.ofDict_dict (d : Dict α) :
    (Memory.ofDict d).dict = d := rfl

@[simp] theorem Memory.holding_dict (m : Memory α) (d : Dict α) :
    (m.holding d).dict = d := rfl

/-- While all keys are valid, storing changes the dictionary only. -/
theorem Memory.store_of_valid (valid : m.freedKeys = fun _ => false) (i : Nat)
    (slot : Keypair α) : m.store i slot = m.holding (m.dict.store i slot) := by
  rw [Memory.store, Memory.holding, valid,
    Function.update_eq_self_iff.mpr rfl]

theorem Memory.cleared_of_valid (valid : m.freedKeys = fun _ => false)
    (newsize : Nat) : m.cleared newsize = m.holding (Dict.cleared newsize) := by
  rw [Memory.cleared, Memory.holding, valid]

/-- `dict_add_p` without copying does to the dictionary what it does where no
allocation fails, if that is so of the resize that it calls. -/
theorem dictAddPFailing_move
    {resizeFailing : Memory α → Option (Int × Memory α)}
    {resize : Dict α → Option (Dict α)} {key : CString}
    {val : Option CString} {ts : Int} (present : m.tableNull = false)
    (valid : m.freedKeys = fun _ => false)
    (resizes : ∀ i stored, dictLookup m.dict key (dictHash key) = some i →
      m.dict.store i ((m.dict.table i).assign now key val none ts false) =
        stored → stored.crowded = true →
      resizeFailing (m.holding stored) =
        (resize stored).map fun next => (0, m.holding next)) :
    dictAddPFailing fails resizeFailing now m key val none ts false =
      (dictAddPWith resize now m.dict key val none ts false).map
        fun next => (0, m.holding next) := by
  rw [dictAddPFailing, dictAddPWith, if_neg (by simp [present])]
  simp only [Memory.store_of_valid valid, Bool.false_eq_true, if_false,
    false_and, Option.bind_eq_bind, Memory.holding_dict]
  cases looked : dictLookup m.dict key (dictHash key) with
  | none => rfl
  | some i =>
      simp only [Option.bind_some]
      generalize stores : m.dict.store i _ = stored
      cases crowded : stored.crowded with
      | false => simp
      | true =>
          simp only [if_true, resizes i stored looked stores crowded]
          cases resize stored <;> simp

/-- A table of the largest size cannot grow. -/
theorem dictNewsize_of_top {d : Dict α} (wf : d.WellFormed)
    (top : d.size = 2 ^ 31) {newsize : Nat}
    (computed : dictNewsize d = some newsize) : newsize = d.size := by
  obtain ⟨exponent, -, small, rfl, le⟩ := dictNewsize_eq_some wf computed
  have := Nat.pow_le_pow_right (n := 2) (by decide) small
  omega

/-- A resize that cannot grow the table allocates nothing. -/
theorem dictResizeFailing_of_top (wf : m.dict.WellFormed)
    (top : m.dict.size = 2 ^ 31) (depth : Nat) :
    dictResizeFailing fails now depth m =
      (dictResize now depth m.dict).map fun next => (0, m.holding next) := by
  cases depth with
  | zero => rfl
  | succ depth =>
      rw [dictResizeFailing, dictResize]
      cases computed : dictNewsize m.dict with
      | none => rfl
      | some newsize =>
          simp [dictNewsize_of_top wf top computed, Memory.holding]

/-- A round of the re-insertion loop allocates nothing: the table that it fills
is crowded only if it cannot grow. -/
theorem reinsertFailing_eq {oldtable : Nat → Keypair α}
    {oldsize depth i exponent : Nat}
    (present : m.tableNull = false) (valid : m.freedKeys = fun _ => false)
    (wf : m.dict.WellFormed) (sizeEq : m.dict.size = 2 ^ exponent)
    (small : exponent ≤ 31) (room : 2 * oldsize ≤ 2 ^ exponent)
    (inside : i < oldsize) (fillLe : m.dict.fill ≤ i) :
    reinsertFailing
        (fun m key val ts =>
          dictAddPFailing fails (dictResizeFailing fails now depth) now m key
            val none ts false)
        oldtable m i =
      (reinsertion now depth oldtable m.dict i).map m.holding := by
  rw [reinsertFailing, reinsertion, reinsert]
  cases keyEq : (oldtable i).key with
  | null => rfl
  | dummy => rfl
  | string key =>
      dsimp only
      rw [dictAddPFailing_move present valid, Option.map_map]
      · rfl
      · rintro j stored looked rfl crowded
        have storedWf := wf.store
          (((dictLookup_eq_some wf key j).mp looked).lt wf) now key
          (oldtable i).val none (oldtable i).ts false
        have storedFill := u32_le (m.dict.fill + 1)
        have top := Dict.top_of_crowded (d := m.dict.store j _) sizeEq small
          (show 2 * oldsize ≤ _ by rw [Dict.store_size]; omega)
          storedWf.size_pos (by rw [Dict.store_fill]; omega) crowded
        exact dictResizeFailing_of_top (m := m.holding _) storedWf top depth

/-- The re-insertion loop fills a cleared table as it does where no allocation
fails. -/
theorem runFrom_reinsertFailing (d : Dict α) {depth exponent : Nat}
    (present : m.tableNull = false) (valid : m.freedKeys = fun _ => false)
    (large : 3 ≤ exponent) (small : exponent ≤ 31)
    (room : 2 * d.size ≤ 2 ^ exponent) :
    runFrom
        (reinsertFailing
          (fun m key val ts =>
            dictAddPFailing fails (dictResizeFailing fails now depth) now m key
              val none ts false)
          d.table)
        (m.holding (Dict.cleared (2 ^ exponent))) (List.range d.size) =
      (runFrom (reinsertion now depth d.table) (Dict.cleared (2 ^ exponent))
        (List.range d.size)).map m.holding := by
  refine runFrom_range_map m.holding
    (fun i state => state.WellFormed ∧ state.size = 2 ^ exponent ∧
      state.fill ≤ i)
    ⟨Dict.WellFormed.cleared large small, rfl, Nat.le_refl 0⟩ ?_ ?_
  · rintro i inside state next ⟨stateWf, stateSize, fillLe⟩ stepped
    exact (reinsertion_moves stateWf stateSize small room inside fillLe
      stepped).2.1
  · rintro i inside state ⟨stateWf, stateSize, fillLe⟩
    exact reinsertFailing_eq (m := m.holding state) present valid stateWf
      stateSize small room inside fillLe

/-- `dict_resize` allocates at most once.  If that does not fail it does what it
does where no allocation fails. -/
theorem dictResizeFailing_eq (wf : m.dict.WellFormed)
    (present : m.tableNull = false) (valid : m.freedKeys = fun _ => false)
    (depth : Nat) :
    dictResizeFailing fails now (depth + 1) m =
      (dictNewsize m.dict).bind fun newsize =>
        if newsize = m.dict.size then
          some (0, m)
        else if fails m.allocations then
          some (-1, { m.allocate fails with tableNull := true })
        else
          (dictResize now (depth + 1) m.dict).map
            fun next => (0, (m.allocate fails).holding next) := by
  rw [dictResizeFailing, dictResize]
  cases computed : dictNewsize m.dict with
  | none => rfl
  | some newsize =>
  by_cases same : newsize = m.dict.size
  · simp [same]
  cases failing : fails m.allocations with
  | true => simp [same]
  | false =>
      obtain ⟨exponent, large, small, rfl, le⟩ :=
        dictNewsize_eq_some wf computed
      have moves := @runFrom_reinsertFailing _ (m.allocate fails) fails now
        m.dict depth exponent present valid large small (wf.double_le le same)
      rw [← Memory.cleared_of_valid (m := m.allocate fails) valid] at moves
      simp only [Option.bind_eq_bind, Option.bind_some, same, if_false,
        Bool.false_eq_true]
      have returns (moved : Option (Dict α)) :
          ((moved.map (m.allocate fails).holding).bind
              fun m => some ((0 : Int), m)) =
            moved.map fun next => (0, (m.allocate fails).holding next) := by
        cases moved <;> rfl
      unfold runFrom at moves
      rw [moves]
      exact returns _

/-- Where no allocation fails, `dict_resize` does what it does in a heap that is
never exhausted. -/
theorem dictResizeFailing_of_noFailure (wf : m.dict.WellFormed)
    (present : m.tableNull = false) (valid : m.freedKeys = fun _ => false)
    (depth : Nat) :
    (dictResizeFailing (fun _ => false) now (depth + 1) m).map
        (fun result => (result.1, result.2.dict)) =
      (dictResize now (depth + 1) m.dict).map fun next => (0, next) := by
  rw [dictResizeFailing_eq wf present valid]
  cases computed : dictNewsize m.dict with
  | none => simp [dictResize, computed]
  | some newsize =>
      by_cases same : newsize = m.dict.size
      · simp [dictResize, computed, same]
      · simp [same, Function.comp_def]

/-- Where no allocation fails, `dict_add_p` does what it does in a heap that is
never exhausted. -/
theorem dictAddPFailing_of_noFailure {d : Dict α} (wf : d.WellFormed)
    (ts : Int) (key : CString) (val : Option CString) (depth : Nat) :
    (dictAddPFailing (fun _ => false)
          (dictResizeFailing (fun _ => false) now (depth + 1)) now
          (Memory.ofDict d) key val none ts true).map
        (fun result => (result.1, result.2.dict)) =
      (dictAddP (depth + 1) now d key val none ts true).map
        fun next => (0, next) := by
  rw [dictAddPFailing, if_neg (by simp [Memory.ofDict]), dictAddP,
    dictAddPWith]
  simp only [Bool.false_eq_true, and_false, if_false, true_and, if_true,
    Option.bind_eq_bind, Memory.ofDict_dict]
  generalize copies : (if val.isSome = true then
    ((Memory.ofDict d).allocate fun _ => false).allocate fun _ => false
    else (Memory.ofDict d).allocate fun _ => false) = copied
  have copied_eq : copied.dict = d ∧ copied.tableNull = false ∧
      copied.freedKeys = fun _ => false := by
    rw [← copies]
    split <;> exact ⟨rfl, rfl, rfl⟩
  obtain ⟨rfl, present, valid⟩ := copied_eq
  cases looked : dictLookup copied.dict key (dictHash key) with
  | none => rfl
  | some i =>
      have storedWf := wf.store (((dictLookup_eq_some wf key i).mp looked).lt
        wf) now key val none ts true
      simp only [Memory.store_of_valid valid, Option.bind_some,
        Memory.holding_dict]
      generalize copied.dict.store i
        ((copied.dict.table i).assign now key val none ts true) = stored
        at storedWf ⊢
      cases crowded : stored.crowded with
      | false => rfl
      | true =>
          have resized := @dictResizeFailing_of_noFailure _
            (copied.holding stored) now storedWf present valid depth
          rw [Memory.holding_dict] at resized
          rw [if_pos rfl, if_pos rfl, ← resized]
          cases returned : dictResizeFailing (fun _ => false) now (depth + 1)
              (copied.holding stored) with
          | none => rfl
          | some result =>
              rw [returned] at resized
              obtain ⟨next, -, same⟩ := Option.map_eq_some_iff.mp resized.symm
              rw [Prod.mk.injEq] at same
              simp [← same.1]

/-- A resize whose allocation fails reports it and leaves no table. -/
theorem dictResizeFailing_cases (wf : m.dict.WellFormed)
    (present : m.tableNull = false) (valid : m.freedKeys = fun _ => false)
    {depth : Nat} {code : Int} {next : Memory α}
    (resized : dictResizeFailing fails now depth m = some (code, next)) :
    next.failed = m.failed ∧ code = 0 ∨ next.tableNull = true ∧ code = -1 := by
  cases depth with
  | zero => cases resized
  | succ depth =>
      rw [dictResizeFailing_eq wf present valid,
        Option.bind_eq_some_iff] at resized
      obtain ⟨newsize, -, resized⟩ := resized
      split at resized
      · cases resized
        exact .inl ⟨rfl, rfl⟩
      split at resized
      · cases resized
        exact .inr ⟨rfl, rfl⟩
      · rename_i succeeds
        obtain ⟨moved, -, returned⟩ := Option.map_eq_some_iff.mp resized
        cases returned
        exact .inl ⟨by simp [Memory.holding, Memory.allocate, succeeds], rfl⟩

end Succeeding

/-! ## What a failure leaves -/

/-- A search for the key ends at a slot that holds it, with this value. -/
def Dict.HoldsValue (d : Dict α) (key : CString) (val : Option CString) :
    Prop :=
  ∃ i, dictLookup d key (dictHash key) = some i ∧
    (d.table i).key = .string key ∧ (d.table i).val = val

/-- A call on the dictionary `before` has reported a failure and done no
harm. -/
structure Memory.Intact (m : Memory α) (before : Dict α) (returned : Int) :
    Prop where
  /-- The failure is reported. -/
  reported : returned = -1
  /-- Every stored key is still found with its value. -/
  found : ∀ key val, before.HoldsValue key val → m.dict.HoldsValue key val
  /-- No slot holds a freed pointer. -/
  valid : ∀ i < m.dict.size, m.freedKeys i = false
  /-- There is a table. -/
  present : m.tableNull = false
  /-- Every call that would have returned still returns. -/
  defined : ∀ op : DictOp α, (op.apply resizeDepth before).isSome →
    (op.apply resizeDepth m.dict).isSome

section Failing

variable {d : Dict α} {key : CString} {i : Nat}

/-- A lookup depends on the keys and hashes of the slots only. -/
theorem dictLookup_congr {other : Dict α} (sizeEq : d.size = other.size)
    (keys : ∀ i, (d.table i).key = (other.table i).key)
    (hashes : ∀ i, (d.table i).hash = (other.table i).hash) (key : CString)
    (hash : Nat) : dictLookup d key hash = dictLookup other key hash := by
  have loop (fuel i perturb : Nat) (memFreeslot : Option Nat) :
      dictLookupLoop d key hash fuel i perturb memFreeslot =
        dictLookupLoop other key hash fuel i perturb memFreeslot := by
    induction fuel generalizing i perturb memFreeslot with
    | zero => rfl
    | succ fuel inductionHypothesis =>
        simp only [dictLookupLoop, sizeEq, keys, hashes, inductionHypothesis]
  simp only [dictLookup, sizeEq, keys, hashes, loop]

/-- The dictionary after a failed copy of the key. -/
def Dict.keyLost (d : Dict α) (i : Nat) : Dict α :=
  { d with
    table := Function.update d.table i { d.table i with key := .null } }

theorem Dict.keyLost_of_free (wf : d.WellFormed) (free : d.keyAt i = none) :
    d.keyLost i = d := by
  have null := wf.keyAt_eq_none.mp free
  have same : { d.table i with key := .null } = d.table i := by
    rw [← null]
  rw [Dict.keyLost, same, Function.update_eq_self]

/-- The search for the lost key ends at the slot that has lost it. -/
theorem Dict.not_holdsValue_keyLost (wf : d.WellFormed)
    (finds : d.FindsAt key i) (val : Option CString) :
    ¬(d.keyLost i).HoldsValue key val := by
  rintro ⟨j, looked, atJ, -⟩
  have same : dictLookup (d.keyLost i) key (dictHash key) =
      dictLookup (d.free i) key (dictHash key) := by
    apply dictLookup_congr (show (d.keyLost i).size = (d.free i).size from rfl)
      <;> intro k
    · by_cases here : k = i <;> simp [Dict.keyLost, Dict.free, here]
    · by_cases here : k = i <;> simp [Dict.keyLost, Dict.free, here]
  have endsAtI : (d.free i).FindsAt key i := by
    rw [Dict.FindsAt, d.keyAt_free]
    exact finds.update_stop (.inl rfl)
  rw [same, (dictLookup_eq_some (wf.free i) key i).mpr endsAtI] at looked
  cases looked
  simp [Dict.keyLost] at atJ

/-- A call in which an allocation fails reports it.  It leaves a dictionary that
has lost the key, a slot with a freed key, or no table. -/
theorem dictAddPFailing_cases (wf : d.WellFormed) {fails : Nat → Bool}
    {depth : Nat} {now ts returned : Int} {val : Option CString}
    {m : Memory α}
    (called : dictAddPFailing fails (dictResizeFailing fails now depth) now
      (Memory.ofDict d) key val none ts true = some (returned, m))
    (failed : m.failed = true) :
    returned = -1 ∧
      (fails 0 = true ∧
          (∃ i, d.FindsAt key i ∧ m.dict = d.keyLost i) ∧
          (∀ i, m.freedKeys i = false) ∧ m.tableNull = false ∨
        fails 0 = false ∧ (∃ i < m.dict.size, m.freedKeys i = true) ∨
        fails 0 = false ∧ m.tableNull = true) := by
  rw [dictAddPFailing, if_neg (by simp [Memory.ofDict]),
    Option.bind_eq_bind, Option.bind_eq_some_iff] at called
  obtain ⟨i, looked, called⟩ := called
  have finds : d.FindsAt key i := (dictLookup_eq_some wf key i).mp looked
  have inside := finds.lt wf
  cases first : fails 0 with
  | true =>
      rw [if_pos ⟨rfl, first⟩] at called
      cases called
      exact ⟨rfl, .inl ⟨rfl, ⟨i, finds, rfl⟩, by simp [Memory.write,
        Memory.allocate, Memory.ofDict], rfl⟩⟩
  | false =>
      rw [if_neg (by simp [Memory.ofDict, first])] at called
      simp only [if_true, true_and] at called
      split at called
      · cases called
        exact ⟨rfl, .inr (.inl ⟨rfl, i, inside, by simp [Memory.write]⟩)⟩
      · rename_i second
        generalize copies : (if val.isSome = true then _ else _) = copied
          at called
        have copied_eq : copied.dict = d ∧ copied.tableNull = false ∧
            copied.freedKeys = (fun _ => false) ∧ copied.failed = false := by
          rw [← copies]
          split
          · rename_i given
            have succeeds : fails 1 = false := by
              simpa [given, Memory.allocate, Memory.ofDict] using second
            simp [Memory.allocate, Memory.ofDict, first, succeeds]
          · simp [Memory.allocate, Memory.ofDict, first]
        obtain ⟨dictEq, present, valid, intact⟩ := copied_eq
        rw [Memory.store_of_valid valid] at called
        split at called
        · obtain ⟨⟨code, next⟩, resized, result⟩ :=
            Option.bind_eq_some_iff.mp called
          have storedWf : (copied.dict.store i
              ((d.table i).assign now key val none ts true)).WellFormed := by
            rw [dictEq]
            exact wf.store inside now key val none ts true
          cases result
          rcases dictResizeFailing_cases (m := copied.holding _) storedWf
            present valid resized with ⟨same, -⟩ | ⟨missing, rfl⟩
          · rw [failed] at same
            cases same.trans intact
          · exact ⟨rfl, .inr (.inr ⟨rfl, missing⟩)⟩
        · cases called
          cases failed.symm.trans intact

/-- `dict_add_p` reports every failed allocation, but only a failed copy of a
key that is not stored does no harm. -/
theorem dictAddPFailing_intact_iff (wf : d.WellFormed) {fails : Nat → Bool}
    {depth : Nat} {now ts returned : Int} {val : Option CString}
    {m : Memory α}
    (called : dictAddPFailing fails (dictResizeFailing fails now depth) now
      (Memory.ofDict d) key val none ts true = some (returned, m))
    (failed : m.failed = true) :
    m.Intact d returned ↔
      fails 0 = true ∧ ∀ value, ¬d.HoldsValue key value := by
  obtain ⟨rfl, ⟨first, ⟨i, finds, dictEq⟩, valid, present⟩ |
    ⟨first, i, inside, freed⟩ | ⟨first, missing⟩⟩ :=
      dictAddPFailing_cases wf called failed
  · have looked := (dictLookup_eq_some wf key i).mpr finds
    constructor
    · intro intact
      refine ⟨first, fun value holds => ?_⟩
      have kept := intact.found key value holds
      rw [dictEq] at kept
      exact Dict.not_holdsValue_keyLost wf finds value kept
    · rintro ⟨-, absent⟩
      rcases finds.stops with free | stored
      · rw [Dict.keyLost_of_free wf free] at dictEq
        exact ⟨rfl, fun _ _ holds => dictEq ▸ holds, fun i _ => valid i,
          present, fun _ returns => dictEq ▸ returns⟩
      · exact absurd ⟨i, looked, Dict.keyAt_eq_some.mp stored, rfl⟩ (absent _)
  · have kept : ¬m.Intact d (-1) := fun intact => by
      rw [intact.valid i inside] at freed
      cases freed
    simp [kept, first]
  · have kept : ¬m.Intact d (-1) := fun intact => by
      rw [intact.present] at missing
      cases missing
    simp [kept, first]

end Failing

/-- A `dict_add` or `dict_add_ts` in which an allocation fails does no harm to a
dictionary that calls have led to exactly if the copy of the key fails and the
key is not stored. -/
theorem failedAdd_intact_iff {history : List (DictOp α)} {d : Dict α}
    (reached : dictAfter history = some d) (fails : Nat → Bool) (depth : Nat)
    (now ts : Int) (key : CString) (val : Option CString) {returned : Int}
    {m : Memory α}
    (called :
      dictAddFailing fails depth now (Memory.ofDict d) key val =
          some (returned, m) ∨
        dictAddTsFailing fails depth now (Memory.ofDict d) key val ts =
          some (returned, m))
    (failed : m.failed = true) :
    m.Intact d returned ↔
      fails 0 = true ∧ ∀ value, ¬d.HoldsValue key value := by
  have wf := wellFormed_of_dictAfter reached
  rcases called with added | added
  · exact dictAddPFailing_intact_iff wf added failed
  · exact dictAddPFailing_intact_iff wf added failed

theorem failedAdd_intact_iff_new :
    Memory.Intact
        (((Memory.ofDict (dictNew : Dict Unit)).allocate (· == 0)).write
          (dictHash (.ofLiteral "A") &&& 7) Keypair.zero false)
        (dictNew : Dict Unit) (-1) ↔
      (0 == 0) = true ∧
        ∀ value, ¬(dictNew : Dict Unit).HoldsValue (.ofLiteral "A") value :=
  have reached : dictAfter ([] : List (DictOp Unit)) = some dictNew := rfl
  failedAdd_intact_iff reached (· == 0) 2 1 1 (.ofLiteral "A") none
    (.inl rfl) rfl

/-- Without memory for a value the slot keeps a pointer to a freed key. -/
theorem freed_key_stays :
    ∃ m, dictAddTsFailing (· == 1) 2 1 (Memory.ofDict (dictNew : Dict Unit))
          (.ofLiteral "A") (some (.ofLiteral "B")) 1 = some (-1, m) ∧
      m.failed = true ∧
      m.freedKeys (dictHash (.ofLiteral "A") &&& 7) = true ∧
      ¬m.Intact dictNew (-1) := by
  refine ⟨_, rfl, rfl, by decide +kernel, ?_⟩
  intro intact
  have freed := intact.valid (dictHash (.ofLiteral "A") &&& 7)
    (by decide +kernel)
  revert freed
  decide +kernel

end Hamchat
