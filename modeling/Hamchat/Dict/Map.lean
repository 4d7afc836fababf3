import Hamchat.Dict.Update

/-!
# The dictionary as a finite map

The abstract dictionary assigns to every stored key its value, which may be the
NULL pointer.  A linked table represents such a map, the adding calls and
`dict_resize` follow the operations of the map, and `dict_get` reads it.
-/

namespace Hamchat

open Foundation

/-- A finite map from keys to values that may be NULL. -/
abbrev KeyMap := CString → Option (Option CString)

/-- The map without keys. -/
def KeyMap.empty : KeyMap := fun _ => none

/-- Adding a key.  A NULL value leaves an existing value alone. -/
def KeyMap.add (m : KeyMap) (key : CString) (val : Option CString) : KeyMap :=
  Function.update m key (some (val.or (m key).join))

/-- Removing a key. -/
def KeyMap.remove (m : KeyMap) (key : CString) : KeyMap :=
  Function.update m key none

/-- What a call means for the abstract map. -/
def DictOp.applyMap (m : KeyMap) (op : DictOp α) : KeyMap :=
  if op.isDel then m.remove op.key else m.add op.key op.val

/-- The abstract map after a history. -/
def contents (history : List (DictOp α)) : KeyMap :=
  history.foldl DictOp.applyMap KeyMap.empty

@[simp] theorem contents_nil :
    contents ([] : List (DictOp α)) = KeyMap.empty := rfl

@[simp] theorem contents_concat (history : List (DictOp α)) (op : DictOp α) :
    contents (history ++ [op]) = op.applyMap (contents history) := by
  simp [contents]

/-- The call that `DictOp.last` returns is part of the history. -/
theorem DictOp.mem_of_last {history : List (DictOp α)} {key : CString}
    {op : DictOp α} (last : DictOp.last history key = some op) :
    op ∈ history := by
  simpa using List.mem_of_find?_eq_some last

/-- A call leaves the other keys of the map alone. -/
theorem DictOp.applyMap_of_ne {m : KeyMap} (op : DictOp α) {key : CString}
    (other : op.key ≠ key) : op.applyMap m key = m key := by
  rw [applyMap]
  split
  · exact Function.update_of_ne (Ne.symm other) ..
  · exact Function.update_of_ne (Ne.symm other) ..

/-- A key whose last call added a value is mapped to that value. -/
theorem contents_eq_of_last {history : List (DictOp α)} {op : DictOp α}
    {key value : CString} (last : DictOp.last history key = some op)
    (carries : op.val = some value) :
    contents history key = some (some value) := by
  induction history using List.reverseRecOn with
  | nil => cases last
  | append_singleton history recent inductionHypothesis =>
      rw [DictOp.last_concat] at last
      rw [contents_concat]
      by_cases same : recent.key = key
      · rw [if_pos same, Option.some.injEq] at last
        subst last
        have adds : recent.isDel = false := by
          cases recent with
          | del key => cases carries
          | _ => rfl
        simp [DictOp.applyMap, adds, KeyMap.add, same, carries]
      · rw [if_neg same] at last
        rw [recent.applyMap_of_ne same]
        exact inductionHypothesis last

/-- A key that no call added is not in the map. -/
theorem contents_eq_none_of_last {history : List (DictOp α)} {key : CString}
    (last : ∀ op, DictOp.last history key = some op → op.isDel = true) :
    contents history key = none := by
  induction history using List.reverseRecOn with
  | nil => rfl
  | append_singleton history recent inductionHypothesis =>
      rw [contents_concat]
      rw [DictOp.last_concat] at last
      by_cases same : recent.key = key
      · rw [if_pos same] at last
        simp [DictOp.applyMap, last recent rfl, KeyMap.remove, same]
      · rw [if_neg same] at last
        rw [recent.applyMap_of_ne same]
        exact inductionHypothesis last

/-- A table stores the keys and values of a map, each key where its search
ends. -/
structure Dict.Represents (d : Dict α) (m : KeyMap) : Prop where
  /-- The table has the right shape. -/
  wf : d.WellFormed
  /-- Every stored key is found. -/
  linked : Linked (probePath d.size) d.keyAt
  /-- A slot in use holds the value of its key. -/
  value : ∀ i key, d.keyAt i = some key → m key = some (d.table i).val
  /-- Every key of the map is stored. -/
  stored : ∀ key val, m key = some val → ∃ i, d.keyAt i = some key

namespace Dict.Represents

variable {d next : Dict α} {m : KeyMap} {key : CString} {i : Nat}

/-- The slot where the search of a key ends holds the value of the key, or a
NULL value if the key is not in the map. -/
theorem val_eq (represents : d.Represents m) (finds : d.FindsAt key i) :
    (d.table i).val = (m key).join := by
  rcases finds.stops with free | found
  · rw [represents.wf.free_val i free]
    cases inMap : m key with
    | none => rfl
    | some val =>
        obtain ⟨home, stored⟩ := represents.stored key val inMap
        have same := represents.linked.lands_eq stored finds
        rw [same, stored] at free
        cases free
  · rw [represents.value i key found]
    rfl

/-- `dict_get` returns the value of a key that is in the map. -/
theorem dictGet_eq (represents : d.Represents m) {val : Option CString}
    (inMap : m key = some val) (defval : Option CString) :
    dictGet (some d) key defval = some val := by
  obtain ⟨home, stored⟩ := represents.stored key val inMap
  have looked := (dictLookup_eq_some represents.wf key home).mpr
    (represents.linked home key stored)
  have value := represents.value home key stored
  rw [inMap, Option.some.injEq] at value
  rw [dictGet, looked, value]
  rfl

/-- No two slots hold the same key. -/
theorem index_unique (represents : d.Represents m) {first second : Nat}
    (storedFirst : d.keyAt first = some key)
    (storedSecond : d.keyAt second = some key) : first = second :=
  represents.linked.index_unique storedFirst storedSecond

theorem cleared {exponent : Nat} (large : 3 ≤ exponent)
    (small : exponent ≤ 31) :
    (Dict.cleared (2 ^ exponent) : Dict α).Represents KeyMap.empty where
  wf := Dict.WellFormed.cleared large small
  linked := linked_empty
  value _ _ stored := by simp at stored
  stored _ _ inMap := by simp [KeyMap.empty] at inMap

theorem new : (dictNew : Dict α).Represents KeyMap.empty :=
  cleared (Nat.le_refl 3) (by decide)

/-- Writing a key and its new value into the slot where the search ended
updates the represented map. -/
theorem store (represents : d.Represents m) (finds : d.FindsAt key i)
    (now : Int) (val : Option CString) (blob : Option (Pointer α)) (ts : Int)
    (copy : Bool) :
    (d.store i ((d.table i).assign now key val blob ts copy)).Represents
      (Function.update m key
        (some ((d.table i).assign now key val blob ts copy).val)) where
  wf := represents.wf.store (finds.lt represents.wf) ..
  linked := by
    rw [d.keyAt_assign]
    exact represents.linked.insert finds
  value j other stored := by
    rw [d.keyAt_assign] at stored
    by_cases same : j = i
    · subst same
      rw [Function.update_self, Option.some.injEq] at stored
      simp [stored]
    · rw [Function.update_of_ne same] at stored
      have different : other ≠ key :=
        represents.linked.ne_of_stored finds stored same
      rw [Function.update_of_ne different, represents.value j other stored]
      simp [same]
  stored other value inMap := by
    rw [d.keyAt_assign]
    by_cases same : other = key
    · exact ⟨i, by rw [same, Function.update_self]⟩
    · rw [Function.update_of_ne same] at inMap
      obtain ⟨home, stored⟩ := represents.stored other value inMap
      have different : home ≠ i := finds.ne_of_stored stored same
      exact ⟨home, by rw [Function.update_of_ne different, stored]⟩

/-- The part of a map whose keys are stored before a slot. -/
noncomputable def before (d : Dict α) (m : KeyMap) (i : Nat) : KeyMap :=
  open Classical in
  fun key => if ∃ j < i, d.keyAt j = some key then m key else none

theorem before_zero (d : Dict α) (m : KeyMap) : before d m 0 = KeyMap.empty := by
  funext key
  simp [before, KeyMap.empty]

/-- All slots together hold the whole map. -/
theorem before_size (represents : d.Represents m) : before d m d.size = m := by
  funext key
  by_cases present : ∃ j < d.size, d.keyAt j = some key
  · rw [before, if_pos present]
  · rw [before, if_neg present]
    cases inMap : m key with
    | none => rfl
    | some val =>
        obtain ⟨home, stored⟩ := represents.stored key val inMap
        exact absurd ⟨home, represents.wf.in_range home key stored, stored⟩
          present

/-- A slot in use adds its key to the part of the map. -/
theorem before_succ_of_key (represents : d.Represents m) {i : Nat}
    {key : CString} (stored : d.keyAt i = some key) :
    before d m (i + 1) = Function.update (before d m i) key
      (some (d.table i).val) := by
  funext other
  simp only [before, Dict.exists_key_before_succ stored]
  by_cases same : other = key
  · subst same
    rw [if_pos (.inr rfl), Function.update_self,
      ← represents.value i other stored]
  · rw [Function.update_of_ne same]
    simp only [same, or_false, before]

/-- A free slot adds nothing to the part of the map. -/
theorem before_succ_of_free (m : KeyMap) {i : Nat} (free : d.keyAt i = none) :
    before d m (i + 1) = before d m i := by
  funext key
  simp only [before, Dict.exists_key_before_succ_of_free free]

/-- `dict_resize` changes neither the stored keys nor their values. -/
theorem resize (represents : d.Represents m) {now : Int} {depth : Nat}
    (resized : dictResize now depth d = some next) : next.Represents m := by
  classical
  refine (dictResize_rule (fun m d => d.Represents m)
    (fun m key val => Function.update m key (some val))
    ?_ ?_ represents.wf represents resized).2
  · intro m d i now key val ts _ represents finds
    exact represents.store finds now val none ts false
  · intro m d exponent _ represents large small
    refine ⟨before d m, ?_, ?_, ?_⟩
    · rw [before_zero]
      exact cleared large small
    · exact before_size represents
    · intro i _
      exact ⟨fun key => before_succ_of_key represents,
        before_succ_of_free m⟩

/-- An adding call that returns has added to the map. -/
theorem apply_add (represents : d.Represents m) {op : DictOp α}
    (adds : op.isDel = false) {depth : Nat}
    (applied : op.apply depth d = some next) :
    next.Represents (op.applyMap m) := by
  obtain ⟨now, ts, added⟩ := op.apply_of_adds adds
  rw [added] at applied
  obtain ⟨i, finds, result⟩ := dictAddP_eq_some represents.wf applied
  have storedMap := represents.store finds now op.val op.blob ts true
  rw [Keypair.assign_val_copy, represents.val_eq finds] at storedMap
  have mapEq : op.applyMap m =
      Function.update m op.key (some (op.val.or (m op.key).join)) := by
    rw [DictOp.applyMap, adds]
    rfl
  rw [mapEq]
  rcases result with rfl | resized
  · exact storedMap
  · exact storedMap.resize resized

/-- Freeing the slot where the search of a key ended removes the key from the
map, provided that the path of no other stored key passes over the slot. -/
theorem free (represents : d.Represents m) (finds : d.FindsAt key i)
    (avoided : ∀ home other, d.keyAt home = some other → other ≠ key →
      ¬PassesOver (probePath d.size) other home i) :
    (d.free i).Represents (m.remove key) where
  wf := represents.wf.free i
  linked := by
    rw [d.keyAt_free]
    exact represents.linked.erase fun home other stored different =>
      avoided home other stored
        (represents.linked.ne_of_stored finds stored different)
  value j other stored := by
    rw [d.keyAt_free] at stored
    by_cases same : j = i
    · subst same
      rw [Function.update_self] at stored
      cases stored
    · rw [Function.update_of_ne same] at stored
      have different : other ≠ key :=
        represents.linked.ne_of_stored finds stored same
      rw [KeyMap.remove, Function.update_of_ne different,
        represents.value j other stored]
      simp [Dict.free, same]
  stored other value inMap := by
    rw [d.keyAt_free]
    by_cases same : other = key
    · subst same
      rw [KeyMap.remove, Function.update_self] at inMap
      cases inMap
    · rw [KeyMap.remove, Function.update_of_ne same] at inMap
      obtain ⟨home, stored⟩ := represents.stored other value inMap
      have different : home ≠ i := finds.ne_of_stored stored same
      exact ⟨home, by rw [Function.update_of_ne different, stored]⟩

end Dict.Represents

end Hamchat
