import Hamchat.Dict.Map

/-!
# Deletion on probe paths

`dict_del` writes NULL instead of `DUMMY_PTR` into the slot it frees, so the
search of a key whose probe path passes over that slot now ends there.  As long
as no deletion frees such a slot the dictionary represents a finite map and the
other keys are undisturbed; the first deletion that does loses a key.  A key
that is not stored is not told from one that is.
-/

namespace Hamchat

open Foundation

/-- A call frees no slot that lies on the probe path of another stored key,
ahead of the slot of that key. -/
def Dict.FreesOffPath (d : Dict α) (op : DictOp α) : Prop :=
  op.isDel = true → ∀ i, d.keyAt i = some op.key →
    ∀ home other, d.keyAt home = some other → other ≠ op.key →
      ¬PassesOver (probePath d.size) other home i

/-- Every key whose last call added a value is found with this value, and no
two slots of the table hold the same key. -/
def Dict.Undisturbed (history : List (DictOp α)) (d : Dict α) : Prop :=
  (∀ key op value, DictOp.last history key = some op → op.val = some value →
    ∀ defval, dictGet (some d) key defval = some (some value)) ∧
  ∀ i j key, i < d.size → j < d.size → (d.table i).key = .string key →
    (d.table j).key = .string key → i = j

theorem Dict.Represents.undisturbed {d : Dict α} {history : List (DictOp α)}
    (represents : d.Represents (contents history)) :
    d.Undisturbed history := by
  constructor
  · intro key op value last carries defval
    exact represents.dictGet_eq (contents_eq_of_last last carries) defval
  · intro i j key _ _ atFirst atSecond
    exact represents.index_unique (Dict.keyAt_eq_some.mpr atFirst)
      (Dict.keyAt_eq_some.mpr atSecond)

/-- A deletion off the probe paths of the other keys removes its key from the
represented map. -/
theorem Dict.Represents.apply_del {d next : Dict α} {m : KeyMap}
    (represents : d.Represents m) {key : CString}
    (offPath : d.FreesOffPath (.del key)) {depth : Nat}
    (applied : (DictOp.del key).apply depth d = some next) :
    next.Represents (m.remove key) := by
  obtain ⟨i, finds, rfl⟩ :=
    (DictOp.apply_del_eq_some represents.wf).mp applied
  refine represents.free finds fun home other stored different => ?_
  rcases finds.stops with free | found
  · -- In a linked table no path passes over a free slot.
    rintro ⟨round, atSlot, beforeHome⟩
    obtain ⟨landed, atHome, -, notEarlier⟩ :=
      represents.linked home other stored
    have later : ¬round < landed := fun before =>
      notEarlier round before (.inl (by rw [atSlot]; exact free))
    exact beforeHome landed (by omega) atHome
  · exact offPath rfl i found home other stored different

/-- One call that frees no slot on the path of another key follows the map. -/
theorem Dict.Represents.apply {d next : Dict α} {m : KeyMap}
    (represents : d.Represents m) {op : DictOp α}
    (offPath : d.FreesOffPath op) {depth : Nat}
    (applied : op.apply depth d = some next) :
    next.Represents (op.applyMap m) := by
  by_cases adds : op.isDel = false
  · exact represents.apply_add adds applied
  · cases op with
    | del key => exact represents.apply_del offPath applied
    | _ => exact absurd rfl adds

/-- Freeing a slot on the path of another stored key hides that key behind a
NULL value. -/
theorem dictGet_free_eq_none {d : Dict α} (wf : d.WellFormed)
    (linked : Linked (probePath d.size) d.keyAt) {i home : Nat}
    {other : CString} (stored : d.keyAt home = some other)
    (passes : PassesOver (probePath d.size) other home i)
    (defval : Option CString) :
    dictGet (some (d.free i)) other defval = some none := by
  have finds : (d.free i).FindsAt other i := by
    rw [Dict.FindsAt, d.keyAt_free]
    exact (linked home other stored).lands_erased stored passes
  have looked := (dictLookup_eq_some (wf.free i) other i).mpr finds
  rw [dictGet, looked]
  simp [Dict.free]

/-- A key of the map was added by its last call. -/
theorem exists_last_of_contents {history : List (DictOp α)} {key : CString}
    {val : Option CString} (inMap : contents history key = some val) :
    ∃ op ∈ history, DictOp.last history key = some op ∧ op.isDel = false := by
  by_contra missing
  push Not at missing
  have absent : contents history key = none :=
    contents_eq_none_of_last fun op last => by
      simpa using missing op (DictOp.mem_of_last last) last
  rw [absent] at inMap
  cases inMap

/-- If every deletion of a history frees a slot off the probe paths of the
other keys, then the other keys are undisturbed after every call.  For
histories whose additions all carry a value this is necessary as well. -/
theorem undisturbed_of_freesOffPath (history : List (DictOp α)) :
    (EachStep (DictOp.apply resizeDepth) dictNew Dict.FreesOffPath history →
      Always (DictOp.apply resizeDepth) dictNew
        (fun past d => Dict.Undisturbed past d) history) ∧
    ((∀ op ∈ history, op.isDel = true ∨ op.val.isSome) →
      Always (DictOp.apply resizeDepth) dictNew
        (fun past d => Dict.Undisturbed past d) history →
      EachStep (DictOp.apply resizeDepth) dictNew Dict.FreesOffPath
        history) := by
  constructor
  · intro offPath past within d reached
    refine (Always.of_eachStep
      (fun past (d : Dict α) => d.Represents (contents past))
      Dict.Represents.new ?_ offPath past within d reached).undisturbed
    intro past d op next _ represents applied offPath
    rw [contents_concat]
    exact represents.apply offPath applied
  · intro carries
    refine (Always.iff_eachStep
      (fun past (d : Dict α) => d.Represents (contents past))
      Dict.Represents.new (fun _ _ => Dict.Represents.undisturbed) ?_ ?_).mp
    · intro past d op next _ represents applied offPath
      rw [contents_concat]
      exact represents.apply offPath applied
    · intro past d op next within represents applied undisturbed deletes i
        atSlot home other stored different passes
      cases op with
      | del key =>
          obtain ⟨freed, finds, rfl⟩ :=
            (DictOp.apply_del_eq_some represents.wf).mp applied
          obtain rfl := represents.linked.lands_eq atSlot finds
          have hidden := dictGet_free_eq_none represents.wf represents.linked
            stored passes none
          have inMap := represents.value home other stored
          obtain ⟨op, member, last, adds⟩ := exists_last_of_contents inMap
          have inHistory : op ∈ history := within.subset (by simp [member])
          rcases carries op inHistory with isDel | isSome
          · rw [adds] at isDel
            cases isDel
          · obtain ⟨value, carried⟩ := Option.isSome_iff_exists.mp isSome
            have still := undisturbed.1 other op value
              (by rw [DictOp.last_concat, if_neg (Ne.symm different), last])
              carried none
            rw [hidden] at still
            cases still
      | _ => cases deletes

/-- The keys `A` and `F` share their first slot; deleting `A` hides `F`. -/
theorem del_disturbs_colliding_key :
    ¬Always (DictOp.apply resizeDepth) (dictNew : Dict Unit)
      (fun past d => Dict.Undisturbed past d)
      [.add 1 (.ofLiteral "A") (some (.ofLiteral "x")),
        .add 1 (.ofLiteral "F") (some (.ofLiteral "y")),
        .del (.ofLiteral "A")] := by
  intro always
  have hidden : (dictAfter (α := Unit)
      [.add 1 (.ofLiteral "A") (some (.ofLiteral "x")),
        .add 1 (.ofLiteral "F") (some (.ofLiteral "y")),
        .del (.ofLiteral "A")]).bind
          (fun d => dictGet (some d) (.ofLiteral "F") none) = some none := by
    decide +kernel
  obtain ⟨d, reached, lost⟩ := Option.bind_eq_some_iff.mp hidden
  have found := (always.final reached).1 (.ofLiteral "F")
    (.add 1 (.ofLiteral "F") (some (.ofLiteral "y"))) (.ofLiteral "y")
    (by decide +kernel) rfl none
  rw [lost] at found
  cases found

/-! ## Keys that are not stored -/

/-- Some slot of the table holds the key. -/
def Dict.Stores (d : Dict α) (key : CString) : Prop :=
  ∃ i < d.size, d.keyAt i = some key

/-- `dict_del` answers 0 exactly for a stored key, and for any other key it
answers -1 and changes nothing. -/
def Dict.DelReports (d : Dict α) (key : CString) : Prop :=
  ∃ code next, dictDel d key = some (code, next) ∧
    (code = 0 ↔ d.Stores key) ∧
    (¬d.Stores key → code = -1 ∧ next = d)

/-- A stored key ends its search. -/
theorem Dict.WellFormed.exists_findsAt_of_stores {d : Dict α}
    (wf : d.WellFormed) {key : CString} (stored : d.Stores key) :
    ∃ i, d.FindsAt key i := by
  obtain ⟨i, inside, atSlot⟩ := stored
  obtain ⟨round, -, same⟩ := exists_probePath_eq wf key inside
  have stops : Stops d.keyAt key (probePath d.size key round) := by
    rw [same]
    exact .inr atSlot
  obtain ⟨landed, -, lands⟩ := exists_landsAfter_le stops
  exact ⟨_, landed, rfl, lands⟩

/-- Whatever a history has done before, `dict_del` reports as it should exactly
for the stored keys. -/
theorem delReports_iff {history : List (DictOp α)} {d : Dict α}
    (reached : dictAfter history = some d) (key : CString) :
    d.DelReports key ↔ d.Stores key := by
  have wf := wellFormed_of_dictAfter reached
  constructor
  · rintro ⟨code, next, deleted, reports, -⟩
    obtain ⟨i, -, zero, -⟩ := (dictDel_eq_some wf).mp deleted
    exact reports.mp zero
  · intro stored
    obtain ⟨i, finds⟩ := wf.exists_findsAt_of_stores stored
    refine ⟨0, d.free i, (dictDel_eq_some wf).mpr ⟨i, finds, rfl, rfl⟩,
      iff_of_true rfl stored, fun absent => absurd stored absent⟩

theorem delReports_iff_added :
    ∃ d, dictAfter (α := Unit) [.add 1 (.ofLiteral "A") none] = some d ∧
      (d.DelReports (.ofLiteral "A") ↔ d.Stores (.ofLiteral "A")) := by
  have added : (dictAfter (α := Unit)
      [.add 1 (.ofLiteral "A") none]).isSome = true := by
    decide +kernel
  obtain ⟨d, reached⟩ := Option.isSome_iff_exists.mp added
  exact ⟨d, reached, delReports_iff reached _⟩

/-- Deleting an absent key is answered by 0 and counted. -/
theorem del_absent_succeeds :
    dictAfter [] = some (dictNew : Dict Unit) ∧
      (dictDel (dictNew : Dict Unit) (.ofLiteral "A")).map
          (fun result => (result.1, result.2.used)) = some (0, 2 ^ 32 - 1) ∧
      ¬(dictNew : Dict Unit).DelReports (.ofLiteral "A") := by
  refine ⟨rfl, by decide +kernel, ?_⟩
  rintro ⟨code, next, deleted, reports, -⟩
  obtain ⟨i, -, zero, -⟩ :=
    (dictDel_eq_some Dict.WellFormed.new).mp deleted
  obtain ⟨j, -, stored⟩ := reports.mp zero
  cases stored

end Hamchat
