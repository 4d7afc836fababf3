import Hamchat.Dict.Map
import Mathlib.Data.Set.Finite.Basic

/-!
# Registered pointers

`dict_add_p` stores the address of its own parameter `blob`, `dict_resize`
re-inserts every slot with a NULL `blob`, and `dict_del` leaves `blob` in the
slot it frees.  So no registered pointer is ever found again, and a deleted key
is found with the left-over of its slot unless that slot carried none.
-/

namespace Hamchat

open Foundation

/-- The pointer that the caller of an adding call registers. -/
def DictOp.ptr : DictOp α → Option α
  | .addBlob _ _ ptr | .addBlobTs _ _ ptr _ => some ptr
  | .add .. | .addTs .. | .del _ => none

/-! ## Pointers that come back -/

/-- Every key whose last call registered a pointer is found with this
pointer. -/
def Dict.PointersComeBack (history : List (DictOp α)) (d : Dict α) : Prop :=
  ∀ key op ptr, DictOp.last history key = some op → op.ptr = some ptr →
    ∀ defval, dictGetBlob (some d) key defval = some (some (.object ptr))

/-- No slot holds a pointer that a caller registered. -/
def Dict.ObjectFree (d : Dict α) : Prop :=
  ∀ i ptr, (d.table i).blob ≠ some (.object ptr)

/-- Storing a slot never stores a registered pointer. -/
theorem Dict.ObjectFree.store {d : Dict α} (objectFree : d.ObjectFree)
    (i : Nat) (now : Int) (key : CString) (val : Option CString)
    (blob : Option (Pointer α)) (ts : Int) (copy : Bool) :
    (d.store i
      ((d.table i).assign now key val blob ts copy)).ObjectFree := by
  intro j ptr
  by_cases same : j = i
  · subst same
    rw [Dict.store_table, Function.update_self]
    cases blob with
    | none => exact objectFree j ptr
    | some blob => simp [Keypair.assign]
  · rw [Dict.store_table, Function.update_of_ne same]
    exact objectFree j ptr

theorem Dict.ObjectFree.cleared (newsize : Nat) :
    (Dict.cleared newsize : Dict α).ObjectFree := by
  intro i ptr
  simp [Dict.cleared, Keypair.zero]

theorem Dict.ObjectFree.free {d : Dict α} (objectFree : d.ObjectFree)
    (i : Nat) : (d.free i).ObjectFree := by
  intro j ptr
  by_cases same : j = i
  · subst same
    simpa [Dict.free] using objectFree j ptr
  · simpa [Dict.free, same] using objectFree j ptr

/-- No history makes a slot hold a pointer that a caller registered. -/
theorem objectFree_of_dictAfter {history : List (DictOp α)} {d : Dict α}
    (reached : dictAfter history = some d) : d.ObjectFree := by
  refine ((Always.of_step
    (fun _ (d : Dict α) => d.WellFormed ∧ d.ObjectFree)
    ⟨Dict.WellFormed.new, Dict.ObjectFree.cleared _⟩ ?_).final reached).2
  rintro _ d op next ⟨wf, objectFree⟩ applied
  refine DictOp.apply_preserves _ wf ?_ ?_ ?_ ?_ applied
  · exact fun i now ts _ _ => objectFree.store i now _ _ _ ts true
  · exact fun i _ _ => objectFree.free i
  · exact fun d i now key val ts _ objectFree _ =>
      objectFree.store i now key val none ts false
  · exact fun exponent => Dict.ObjectFree.cleared _

/-- Without registered pointers in the slots no lookup returns one. -/
theorem Dict.ObjectFree.dictGetBlob_ne {d : Dict α} (objectFree : d.ObjectFree)
    (key : CString) (ptr : α) :
    dictGetBlob (some d) key none ≠ some (some (.object ptr)) := by
  intro found
  rw [dictGetBlob, Option.bind_eq_bind, Option.bind_eq_some_iff] at found
  obtain ⟨i, -, returned⟩ := found
  rw [Option.or_none, Option.some.injEq] at returned
  exact objectFree i ptr returned

/-- For a history of registrations, the pointers come back exactly if nothing
was registered. -/
theorem pointersComeBack_iff {history : List (DictOp α)}
    (registers : ∀ op ∈ history, op.ptr.isSome) :
    (∃ d, dictAfter history = some d ∧ d.PointersComeBack history) ↔
      history = [] := by
  constructor
  · rintro ⟨d, reached, back⟩
    by_contra nonempty
    obtain ⟨past, op, rfl⟩ := List.eq_nil_or_concat' history |>.resolve_left
      nonempty
    obtain ⟨ptr, registered⟩ := Option.isSome_iff_exists.mp
      (registers op (by simp))
    exact (objectFree_of_dictAfter reached).dictGetBlob_ne op.key ptr
      (back op.key op ptr (by rw [DictOp.last_concat, if_pos rfl]) registered
        none)
  · rintro rfl
    exact ⟨dictNew, rfl, fun key op ptr last => by cases last⟩

theorem pointersComeBack_iff_one_key :
    (∃ d, dictAfter [DictOp.addBlob 1 (.ofLiteral "A") ()] = some d ∧
        d.PointersComeBack [DictOp.addBlob 1 (.ofLiteral "A") ()]) ↔
      [DictOp.addBlob 1 (.ofLiteral "A") ()] = [] :=
  pointersComeBack_iff (by decide)

/-- A single registered pointer is lost. -/
theorem pointer_lost :
    ¬∃ d, dictAfter [DictOp.addBlob 1 (.ofLiteral "A") ()] = some d ∧
      d.PointersComeBack [DictOp.addBlob 1 (.ofLiteral "A") ()] := by
  rintro ⟨d, reached, back⟩
  have wrong : (dictAfter [DictOp.addBlob 1 (.ofLiteral "A") ()]).bind
      (fun d => dictGetBlob (some d) (.ofLiteral "A") none) =
        some (some (.automatic .dictAddPBlob)) := by
    decide +kernel
  rw [reached, Option.bind_some] at wrong
  rw [back (.ofLiteral "A") (.addBlob 1 (.ofLiteral "A") ()) ()
    (by decide +kernel) rfl none] at wrong
  cases wrong

/-! ## Pointers that must not come back -/

/-- Nothing is registered for a key: it was never added, or it was deleted and
at most added without a pointer since. -/
def DictOp.Forgotten (history : List (DictOp α)) (key : CString) : Prop :=
  (∀ op ∈ history, op.key = key → op.isDel = true) ∨
    ∃ before after, history = before ++ .del key :: after ∧
      ∀ op ∈ after, op.key = key → op.blob = none

/-- A key for which nothing is registered is found with the default. -/
def Dict.NoStaleObject (history : List (DictOp α)) (d : Dict α) : Prop :=
  ∀ key, DictOp.Forgotten history key →
    ∀ defval, dictGetBlob (some d) key defval = some defval

/-- A deletion finds every slot of its key without a pointer. -/
def Dict.DeletesBare (d : Dict α) (op : DictOp α) : Prop :=
  op.isDel = true → ∀ i, d.keyAt i = some op.key → (d.table i).blob = none

/-- The slot that a deletion frees carries no pointer. -/
def Dict.FreesBare (d : Dict α) (op : DictOp α) : Prop :=
  op.isDel = true → ∀ i, d.FindsAt op.key i → (d.table i).blob = none

/-- Some slot is free, so that every lookup ends. -/
def Dict.HasFreeSlot (d : Dict α) : Prop :=
  ∃ i < d.size, d.keyAt i = none

/-- Some key is stored in no slot, and is none of finitely many others. -/
theorem Dict.WellFormed.exists_unknown {d : Dict α} (wf : d.WellFormed)
    (seen : List CString) :
    ∃ key, key ∉ seen ∧ ∀ i, d.keyAt i ≠ some key := by
  obtain ⟨key, fresh⟩ := Infinite.exists_notMem_finset
    (seen ++ (List.range d.size).filterMap d.keyAt).toFinset
  rw [List.mem_toFinset, List.mem_append, not_or] at fresh
  exact ⟨key, fresh.1, fun i stored =>
    fresh.2 (wf.mem_filterMap_keyAt.mpr ⟨i, stored⟩)⟩

/-- The search of a key that no slot holds can only end at a free slot. -/
theorem Dict.WellFormed.hasFreeSlot_of_finds {d : Dict α} (wf : d.WellFormed)
    {key : CString} {i : Nat} (unknown : ∀ i, d.keyAt i ≠ some key)
    (finds : d.FindsAt key i) : d.HasFreeSlot :=
  ⟨i, finds.lt wf, finds.stops.resolve_right (unknown i)⟩

/-- The table has a free slot exactly if every search ends. -/
theorem Dict.WellFormed.hasFreeSlot_iff {d : Dict α} (wf : d.WellFormed) :
    d.HasFreeSlot ↔ ∀ key, ∃ i, d.FindsAt key i := by
  constructor
  · rintro ⟨i, inside, free⟩ key
    exact exists_findsAt wf key inside free
  · intro finds
    obtain ⟨key, -, unknown⟩ := wf.exists_unknown []
    obtain ⟨i, findsKey⟩ := finds key
    exact wf.hasFreeSlot_of_finds unknown findsKey

/-- Slots that are free or belong to a key of `forgotten` carry no pointer. -/
def Dict.Bare (forgotten : CString → Prop) (d : Dict α) : Prop :=
  ∀ i, (∀ key, d.keyAt i = some key → forgotten key) →
    (d.table i).blob = none

/-- A key that is forgotten after a call was just deleted, or was forgotten
before a call that registers no pointer for it. -/
theorem DictOp.Forgotten.of_concat {history : List (DictOp α)}
    {op : DictOp α} {key : CString}
    (forgotten : DictOp.Forgotten (history ++ [op]) key) :
    op = .del key ∨
      (op.key = key → op.blob = none) ∧ DictOp.Forgotten history key := by
  rcases forgotten with onlyDels | ⟨before, after, equal, plain⟩
  · by_cases same : op.key = key
    · have deletes := onlyDels op (by simp) same
      cases op with
      | del other => exact .inl (by rw [← same]; rfl)
      | _ => cases deletes
    · exact .inr ⟨fun equal => absurd equal same,
        .inl fun op member => onlyDels op (by simp [member])⟩
  · rcases List.eq_nil_or_concat' after with rfl | ⟨after, last, rfl⟩
    · obtain ⟨-, single⟩ := List.append_inj' equal rfl
      exact .inl (by simpa using single)
    · have grouped : history ++ [op] =
          (before ++ .del key :: after) ++ [last] := by
        rw [equal]
        simp
      obtain ⟨rfl, single⟩ := List.append_inj' grouped rfl
      obtain rfl : op = last := by simpa using single
      exact .inr ⟨plain op (by simp),
        .inr ⟨before, after, rfl, fun op member => plain op (by simp [member])⟩⟩

section Bare

variable {d next : Dict α} {forgotten later : CString → Prop}

/-- Storing a slot keeps a table bare if the stored key is not forgotten or
comes without a pointer. -/
theorem Dict.Bare.store (bare : d.Bare forgotten) {key : CString} {i : Nat}
    (finds : d.FindsAt key i) {blob : Option (Pointer α)}
    (weaker : ∀ other, later other → forgotten other)
    (plain : later key → blob = none) (now : Int) (val : Option CString)
    (ts : Int) (copy : Bool) :
    (d.store i
      ((d.table i).assign now key val blob ts copy)).Bare later := by
  intro j onlyLater
  rw [d.keyAt_assign] at onlyLater
  by_cases same : j = i
  · subst same
    have laterKey : later key := onlyLater key (Function.update_self ..)
    rw [plain laterKey, Dict.store_table, Function.update_self,
      Keypair.assign_blob_none]
    refine bare j fun other stored => ?_
    rcases finds.stops with free | found
    · rw [free] at stored
      cases stored
    · rw [found, Option.some.injEq] at stored
      rw [← stored]
      exact weaker key laterKey
  · rw [Function.update_of_ne same] at onlyLater
    rw [Dict.store_table, Function.update_of_ne same]
    exact bare j fun other stored => weaker other (onlyLater other stored)

theorem Dict.Bare.cleared (newsize : Nat) :
    (Dict.cleared newsize : Dict α).Bare forgotten :=
  fun _ _ => rfl

/-- Freeing a slot keeps a table bare if no slot of the deleted key carries a
pointer. -/
theorem Dict.Bare.free (bare : d.Bare forgotten) {key : CString} {i : Nat}
    (finds : d.FindsAt key i) (deletesBare : d.DeletesBare (.del key))
    (weaker : ∀ other, later other → other = key ∨ forgotten other) :
    (d.free i).Bare later := by
  have bareIf : ∀ j,
      (∀ other, d.keyAt j = some other → other = key ∨ forgotten other) →
      (d.table j).blob = none := by
    intro j allowed
    by_cases stored : d.keyAt j = some key
    · exact deletesBare rfl j stored
    · refine bare j fun other there => ?_
      rcases allowed other there with rfl | known
      · exact absurd there stored
      · exact known
  intro j onlyLater
  rw [d.keyAt_free] at onlyLater
  by_cases same : j = i
  · subst same
    have blobKept : ((d.free j).table j).blob = (d.table j).blob := by
      simp [Dict.free]
    rw [blobKept]
    refine bareIf j fun other stored => ?_
    rcases finds.stops with free | found
    · rw [free] at stored
      cases stored
    · rw [found, Option.some.injEq] at stored
      exact .inl stored.symm
  · have slotKept : (d.free i).table j = d.table j := by
      simp [Dict.free, same]
    rw [slotKept]
    rw [Function.update_of_ne same] at onlyLater
    exact bareIf j fun other stored => weaker other (onlyLater other stored)

/-- One call keeps the slots of the forgotten keys bare, if it deletes bare
slots only. -/
theorem Dict.Bare.apply {history : List (DictOp α)} {op : DictOp α}
    (wf : d.WellFormed) (bare : d.Bare (DictOp.Forgotten history))
    (deletesBare : d.DeletesBare op) {depth : Nat}
    (applied : op.apply depth d = some next) :
    next.Bare (DictOp.Forgotten (history ++ [op])) := by
  refine (DictOp.apply_preserves _ wf ?_ ?_ ?_ ?_ applied).2
  · intro i now ts finds adds
    have before : ∀ other, DictOp.Forgotten (history ++ [op]) other →
        (op.key = other → op.blob = none) ∧
          DictOp.Forgotten history other := by
      intro other forgotten
      rcases forgotten.of_concat with rfl | known
      · cases adds
      · exact known
    exact bare.store finds (fun other forgotten => (before other forgotten).2)
      (fun forgotten => (before op.key forgotten).1 rfl) now op.val ts true
  · rintro i finds deletes
    rw [deletes] at deletesBare
    refine bare.free finds deletesBare fun other forgotten => ?_
    rcases forgotten.of_concat with isDel | ⟨-, known⟩
    · rw [isDel]
      exact .inl rfl
    · exact .inr known
  · exact fun d i now key val ts _ bare finds =>
      bare.store finds (fun _ => id) (fun _ => rfl) now val ts false
  · exact fun exponent => Dict.Bare.cleared _

/-- In a bare table with a free slot no stale pointer is found. -/
theorem Dict.Bare.noStaleObject {history : List (DictOp α)}
    (wf : d.WellFormed) (bare : d.Bare (DictOp.Forgotten history))
    (room : d.HasFreeSlot) : d.NoStaleObject history := by
  intro key forgotten defval
  obtain ⟨j, inside, free⟩ := room
  obtain ⟨i, finds⟩ := exists_findsAt wf key inside free
  have bareSlot : (d.table i).blob = none := by
    refine bare i fun other stored => ?_
    rcases finds.stops with free | found
    · rw [free] at stored
      cases stored
    · rw [found, Option.some.injEq] at stored
      rwa [← stored]
  rw [dictGetBlob, (dictLookup_eq_some wf key i).mpr finds]
  simp [bareSlot]

/-- A freed slot that carries a pointer shows in the next lookup. -/
theorem Dict.NoStaleObject.blob_eq_none {history : List (DictOp α)}
    {key : CString} {i : Nat} (wf : d.WellFormed) (finds : d.FindsAt key i)
    (noStale : (d.free i).NoStaleObject (history ++ [.del key])) :
    (d.table i).blob = none := by
  have still : (d.free i).FindsAt key i := by
    rw [Dict.FindsAt, d.keyAt_free]
    exact finds.update_stop (.inl rfl)
  have returned := noStale key (.inr ⟨history, [], rfl, by simp⟩) none
  rw [dictGetBlob, (dictLookup_eq_some (wf.free i) key i).mpr still]
    at returned
  simpa [Dict.free] using returned

/-- A lookup of a key that was never seen needs a free slot. -/
theorem Dict.NoStaleObject.hasFreeSlot {history : List (DictOp α)}
    (wf : d.WellFormed) (noStale : d.NoStaleObject history) :
    d.HasFreeSlot := by
  obtain ⟨key, unseen, unknown⟩ := wf.exists_unknown (history.map DictOp.key)
  have returned := noStale key
    (.inl fun op member same => absurd (List.mem_map.mpr ⟨op, member, same⟩)
      unseen) none
  rw [dictGetBlob, Option.bind_eq_bind, Option.bind_eq_some_iff] at returned
  obtain ⟨i, looked, -⟩ := returned
  exact wf.hasFreeSlot_of_finds unknown
    ((dictLookup_eq_some wf key i).mp looked)

end Bare

/-- If every deletion finds the slots of its key without a pointer and the
table keeps a free slot, no stale pointer is ever found.  Conversely no
deletion may then free a slot with a pointer, and a slot must stay free. -/
theorem noStaleObject_of_deletesBare (history : List (DictOp α)) :
    (EachStep (DictOp.apply resizeDepth) dictNew Dict.DeletesBare history →
      Always (DictOp.apply resizeDepth) dictNew
        (fun _ d => d.HasFreeSlot) history →
      Always (DictOp.apply resizeDepth) dictNew
        (fun past d => Dict.NoStaleObject past d) history) ∧
    (Always (DictOp.apply resizeDepth) dictNew
        (fun past d => Dict.NoStaleObject past d) history →
      EachStep (DictOp.apply resizeDepth) dictNew Dict.FreesBare history ∧
      Always (DictOp.apply resizeDepth) dictNew
        (fun _ d => d.HasFreeSlot) history) := by
  have wellFormed : Always (DictOp.apply resizeDepth) dictNew
      (fun _ (d : Dict α) => d.WellFormed) history :=
    Always.of_step _ Dict.WellFormed.new
      fun _ _ _ _ wf applied => DictOp.apply_wellFormed wf applied
  constructor
  · intro deletesBare room past within d reached
    have bare := Always.of_eachStep
      (fun past (d : Dict α) =>
        d.WellFormed ∧ d.Bare (DictOp.Forgotten past))
      ⟨Dict.WellFormed.new, Dict.Bare.cleared _⟩
      (fun past d op next _ held applied bareDel =>
        ⟨DictOp.apply_wellFormed held.1 applied,
          held.2.apply held.1 bareDel applied⟩)
      deletesBare past within d reached
    exact bare.2.noStaleObject bare.1 (room past within d reached)
  · intro noStale
    constructor
    · intro past op within d next reached applied deletes i finds
      have wf := wellFormed past ((List.prefix_append _ _).trans within) d
        reached
      cases op with
      | del key =>
          obtain ⟨freed, findsFreed, rfl⟩ :=
            (DictOp.apply_del_eq_some wf).mp applied
          obtain rfl : i = freed := finds.unique findsFreed
          exact Dict.NoStaleObject.blob_eq_none wf finds
            (noStale _ within _ ((runFrom_concat_eq_some _ _).mpr
              ⟨d, reached, applied⟩))
      | _ => cases deletes
    · intro past within d reached
      exact Dict.NoStaleObject.hasFreeSlot (wellFormed past within d reached)
        (noStale past within d reached)

/-- A key that is registered and deleted is still found with a pointer. -/
theorem stale_pointer_found :
    ¬Always (DictOp.apply resizeDepth) (dictNew : Dict Unit)
      (fun past d => Dict.NoStaleObject past d)
      [.addBlob 1 (.ofLiteral "A") (), .del (.ofLiteral "A")] := by
  intro always
  have found : (dictAfter (α := Unit)
      [.addBlob 1 (.ofLiteral "A") (), .del (.ofLiteral "A")]).bind
        (fun d => dictGetBlob (some d) (.ofLiteral "A") none) =
          some (some (.automatic .dictAddPBlob)) := by
    decide +kernel
  obtain ⟨d, reached, stale⟩ := Option.bind_eq_some_iff.mp found
  rw [always.final reached (.ofLiteral "A")
    (.inr ⟨[.addBlob 1 (.ofLiteral "A") ()], [], rfl, by simp⟩) none] at stale
  cases stale

end Hamchat
