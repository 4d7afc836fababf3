import Hamchat.Dict.Blob
import Hamchat.Dict.InsertOnly

/-!
# Room in the table

`dict_lookup` has no exit on a full table, so every search ends exactly as long
as some slot is free.  An addition grows the table only if the counters `fill`
and `used` tell it to, and `dict_del` counts `used` down even if it finds
nothing.  So the table keeps a free slot exactly in the runs in which no
addition takes the last one without growing.
-/

namespace Hamchat

open Foundation

/-! ## Slots in use -/

/-- Changing the key of one slot changes the number of slots in use by what
that slot contributes. -/
theorem Dict.inUse_update {d next : Dict α} {i : Nat} {value : Option CString}
    (keys : next.keyAt = Function.update d.keyAt i value) (bound : Nat) :
    next.inUse bound + (if i < bound ∧ (d.keyAt i).isSome then 1 else 0) =
      d.inUse bound + (if i < bound ∧ value.isSome then 1 else 0) := by
  induction bound with
  | zero => simp [Dict.inUse]
  | succ bound inductionHypothesis =>
      unfold Dict.inUse at inductionHypothesis ⊢
      rw [Nat.count_succ, Nat.count_succ, keys]
      rw [keys] at inductionHypothesis
      by_cases here : bound = i
      · subst here
        simp only [Nat.lt_irrefl, false_and, if_false, Nat.add_zero]
          at inductionHypothesis
        simp only [Function.update_self, Nat.lt_succ_self, true_and]
        omega
      · rw [Function.update_of_ne here]
        have below : i < bound + 1 ↔ i < bound := by omega
        simp only [below]
        omega

section InUse

variable {d : Dict α} {key : CString} {i : Nat}

/-- Storing a key into a free slot takes one more slot into use. -/
theorem Dict.inUse_store_of_free (wf : d.WellFormed)
    (finds : d.FindsAt key i) (free : d.keyAt i = none) (now : Int)
    (val : Option CString) (blob : Option (Pointer α)) (ts : Int)
    (copy : Bool) :
    (d.store i ((d.table i).assign now key val blob ts copy)).inUse d.size =
      d.inUse d.size + 1 := by
  have changed := Dict.inUse_update (d.keyAt_assign i now key val blob ts copy)
    d.size
  simpa [free, finds.lt wf] using changed

/-- Freeing a slot in use takes it out of use. -/
theorem Dict.inUse_free_of_stored (wf : d.WellFormed)
    (finds : d.FindsAt key i) (stored : d.keyAt i = some key) :
    (d.free i).inUse d.size + 1 = d.inUse d.size := by
  have changed := Dict.inUse_update (d.keyAt_free i) d.size
  simpa [stored, finds.lt wf] using changed

theorem Dict.hasFreeSlot_iff_inUse :
    d.HasFreeSlot ↔ d.inUse d.size < d.size := by
  constructor
  · rintro ⟨j, inside, free⟩
    refine lt_of_le_of_ne (Nat.count_le _) fun full => ?_
    have stored := Nat.count_iff_forall.mp full j inside
    rw [free] at stored
    cases stored
  · exact Dict.exists_free

end InUse

/-! ## Growth -/

/-- The next addition makes the table grow: it leaves the table crowded, and
the size does not exceed the product with which `dict_resize` compares it. -/
def Dict.WillGrow (d : Dict α) : Prop :=
  u32 (d.size * 2) ≤ u32 (3 * u32 (d.fill + 1)) ∧
    d.size ≤ u32 ((if d.size > dictBigsz then 2 else 4) * u32 (d.used + 1))

instance (d : Dict α) : Decidable d.WillGrow :=
  inferInstanceAs (Decidable (_ ∧ _))

/-- `dict_resize` leaves early exactly if the size exceeds its product with the
number of entries. -/
theorem dictNewsize_eq_size_iff {d : Dict α} (wf : d.WellFormed) :
    dictNewsize d = some d.size ↔
      u32 ((if d.size > dictBigsz then 2 else 4) * d.used) < d.size := by
  obtain ⟨exponent, -, small, sizeEq⟩ := wf.size_pow
  unfold dictNewsize
  constructor
  · intro computed
    rw [sizeEq] at computed ⊢
    obtain ⟨_, -, -, -, greater⟩ := doubleWhileLe_eq_some small computed
    exact greater
  · intro roomy
    rw [doubleWhileLe, if_neg (Nat.not_le_of_lt roomy)]

/-- An addition makes the table grow exactly if the counters tell it to. -/
theorem Dict.willGrow_iff {d : Dict α} {i : Nat} {slot : Keypair α}
    (storedWf : (d.store i slot).WellFormed) :
    d.WillGrow ↔ (d.store i slot).crowded = true ∧
      dictNewsize (d.store i slot) ≠ some (d.store i slot).size := by
  rw [Ne, dictNewsize_eq_size_iff storedWf, Nat.not_lt, Dict.crowded,
    decide_eq_true_iff]
  rfl

/-- An addition that returns has stored into the slot where the search of its
key ended, and has moved the table into a larger one exactly if the counters
told it to. -/
theorem DictOp.apply_add_cases {d next : Dict α} {op : DictOp α} {depth : Nat}
    (wf : d.WellFormed) (adds : op.isDel = false)
    (applied : op.apply depth d = some next) :
    ∃ i now ts, d.FindsAt op.key i ∧
      (¬d.WillGrow ∧ d.store i
          ((d.table i).assign now op.key op.val op.blob ts true) = next ∨
        d.WillGrow ∧ dictResize now depth (d.store i
          ((d.table i).assign now op.key op.val op.blob ts true)) =
            some next) := by
  obtain ⟨now, ts, added⟩ := op.apply_of_adds adds
  rw [added, dictAddP, dictAddPWith_eq_some wf] at applied
  obtain ⟨i, finds, result⟩ := applied
  have storedWf := wf.store (finds.lt wf) now op.key op.val op.blob ts true
  refine ⟨i, now, ts, finds, ?_⟩
  rw [Dict.willGrow_iff storedWf]
  rcases result with ⟨roomy, equal⟩ | ⟨crowded, resized⟩
  · exact .inl ⟨by simp [roomy], equal⟩
  · by_cases early : dictNewsize (d.store i
        ((d.table i).assign now op.key op.val op.blob ts true)) =
          some (d.store i
            ((d.table i).assign now op.key op.val op.blob ts true)).size
    · refine .inl ⟨by simp [early], ?_⟩
      cases depth with
      | zero => cases resized
      | succ depth =>
          obtain ⟨newsize, computed, left | ⟨different, -⟩⟩ :=
            dictResize_eq_some.mp resized
          · exact left.2
          · rw [early, Option.some.injEq] at computed
            exact absurd computed.symm different
    · exact .inr ⟨⟨crowded, early⟩, resized⟩

/-- A table that has grown has a slot in use for at most every slot that was in
use before. -/
theorem Dict.inUse_le_of_grown {d next : Dict α} (wf : d.WellFormed)
    {now : Int} {depth : Nat} (grows : dictNewsize d ≠ some d.size)
    (resized : dictResize now depth d = some next) :
    next.WellFormed ∧ 2 * d.size ≤ next.size ∧
      next.inUse next.size ≤ d.inUse d.size := by
  have moves := dictResize_moves
    (fun i (state : Dict α) => state.inUse state.size ≤ d.inUse i) wf
    (fun exponent => by simp)
    (fun i key state j _ stored stateWf inUseLe finds => by
      rw [Dict.store_size, Dict.inUse_succ_of_key stored]
      have counted := state.inUse_store_le j ((state.table j).assign now key
        (d.table i).val none (d.table i).ts false) state.size
      rw [if_pos (finds.lt stateWf)] at counted
      omega)
    (fun i state _ _ inUseLe =>
      Nat.le_trans inUseLe (d.inUse_mono (Nat.le_succ i)))
    resized
  rcases moves with ⟨early, -⟩ | ⟨-, room, nextWf, inUseLe⟩
  · exact absurd early grows
  · exact ⟨nextWf, room, inUseLe⟩

/-- A table that has grown has a free slot. -/
theorem Dict.hasFreeSlot_of_grown {d next : Dict α} (wf : d.WellFormed)
    {now : Int} {depth : Nat} (grows : dictNewsize d ≠ some d.size)
    (resized : dictResize now depth d = some next) : next.HasFreeSlot := by
  obtain ⟨-, room, inUseLe⟩ := Dict.inUse_le_of_grown wf grows resized
  rw [Dict.hasFreeSlot_iff_inUse]
  have positive := wf.size_pos
  have within : d.inUse d.size ≤ d.size := Nat.count_le _
  omega

/-! ## The law of termination -/

/-- Some slot has a NULL key, and `dict_lookup` ends for every key. -/
def Dict.LookupsEnd (d : Dict α) : Prop :=
  (∃ i < d.size, (d.table i).key = .null) ∧
    ∀ key, (dictLookup d key (dictHash key)).isSome

/-- The call stores a new key into the only free slot. -/
def Dict.TakesLastSlot (d : Dict α) (op : DictOp α) : Prop :=
  op.isDel = false ∧ ∃ i, d.FindsAt op.key i ∧
    ∀ j < d.size, d.keyAt j = none ↔ j = i

theorem Dict.lookupsEnd_iff_hasFreeSlot {d : Dict α} (wf : d.WellFormed) :
    d.LookupsEnd ↔ d.HasFreeSlot := by
  constructor
  · rintro ⟨⟨i, inside, free⟩, -⟩
    exact ⟨i, inside, wf.keyAt_eq_none.mpr free⟩
  · rintro ⟨i, inside, free⟩
    refine ⟨⟨i, inside, wf.keyAt_eq_none.mp free⟩, fun key => ?_⟩
    obtain ⟨found, finds⟩ := exists_findsAt wf key inside free
    rw [(dictLookup_eq_some wf key found).mpr finds, Option.isSome_some]

/-- Storing into the slot where a search ended leaves a free slot exactly if
this was not the only one. -/
theorem Dict.hasFreeSlot_store_iff {d : Dict α} {key : CString} {i : Nat}
    (room : d.HasFreeSlot) (now : Int) (val : Option CString)
    (blob : Option (Pointer α)) (ts : Int) (copy : Bool) :
    (d.store i ((d.table i).assign now key val blob ts copy)).HasFreeSlot ↔
      ¬∀ j < d.size, d.keyAt j = none ↔ j = i := by
  rw [Dict.HasFreeSlot, d.keyAt_assign]
  constructor
  · rintro ⟨j, inside, free⟩ only
    by_cases same : j = i
    · rw [same, Function.update_self] at free
      cases free
    · rw [Function.update_of_ne same] at free
      exact same ((only j inside).mp free)
  · intro more
    push Not at more
    obtain ⟨j, inside, ⟨free, other⟩ | ⟨stored, rfl⟩⟩ := more
    · exact ⟨j, inside, by rw [Function.update_of_ne other, free]⟩
    · -- The search ended at a slot in use, so the free slot is another one.
      obtain ⟨free, freeInside, freeKey⟩ := room
      have other : free ≠ j := by
        rintro rfl
        exact stored freeKey
      exact ⟨free, freeInside, by rw [Function.update_of_ne other, freeKey]⟩

/-- One call leaves a free slot exactly if it does not take the last one
without growing. -/
theorem Dict.hasFreeSlot_step_iff {d next : Dict α} {op : DictOp α}
    {depth : Nat} (wf : d.WellFormed) (room : d.HasFreeSlot)
    (applied : op.apply depth d = some next) :
    next.HasFreeSlot ↔ (d.TakesLastSlot op → d.WillGrow) := by
  by_cases adds : op.isDel = false
  · obtain ⟨i, now, ts, finds, ⟨stays, rfl⟩ | ⟨grows, resized⟩⟩ :=
      DictOp.apply_add_cases wf adds applied
    · rw [Dict.hasFreeSlot_store_iff room]
      constructor
      · rintro more ⟨-, j, findsJ, only⟩
        rw [findsJ.unique finds] at only
        exact absurd only more
      · exact fun growing only => stays (growing ⟨adds, i, finds, only⟩)
    · have storedWf := wf.store (finds.lt wf) now op.key op.val op.blob ts true
      exact iff_of_true (Dict.hasFreeSlot_of_grown storedWf
        ((Dict.willGrow_iff storedWf).mp grows).2 resized) fun _ => grows
  · cases op with
    | del key =>
        obtain ⟨i, finds, rfl⟩ := (DictOp.apply_del_eq_some wf).mp applied
        refine iff_of_true ⟨i, finds.lt wf, ?_⟩ fun takes => ?_
        · rw [d.keyAt_free, Function.update_self]
        · exact absurd takes.1 adds
    | _ => exact absurd rfl adds

theorem Dict.HasFreeSlot.new : (dictNew : Dict α).HasFreeSlot :=
  ⟨0, Nat.zero_lt_succ 7, rfl⟩

/-- Every lookup ends throughout a run exactly if no addition of the run takes
the last free slot without making the table grow. -/
theorem lookupsEnd_iff (history : List (DictOp α)) :
    Always (DictOp.apply resizeDepth) dictNew (fun _ d => d.LookupsEnd)
        history ↔
      EachStep (DictOp.apply resizeDepth) dictNew
        (fun d op => d.TakesLastSlot op → d.WillGrow) history := by
  refine Always.iff_eachStep
    (fun _ (d : Dict α) => d.WellFormed ∧ d.HasFreeSlot)
    ⟨Dict.WellFormed.new, Dict.HasFreeSlot.new⟩ ?_ ?_ ?_
  · exact fun _ d held => (Dict.lookupsEnd_iff_hasFreeSlot held.1).mpr held.2
  · intro past d op next _ held applied grows
    exact ⟨DictOp.apply_wellFormed held.1 applied,
      (Dict.hasFreeSlot_step_iff held.1 held.2 applied).mpr grows⟩
  · intro past d op next _ held applied ends
    have nextWf := DictOp.apply_wellFormed held.1 applied
    exact (Dict.hasFreeSlot_step_iff held.1 held.2 applied).mp
      ((Dict.lookupsEnd_iff_hasFreeSlot nextWf).mp ends)

/-- Seven deletions of an absent key keep `used` small while eight additions
fill the table. -/
theorem full_table_spins :
    ¬Always (DictOp.apply resizeDepth) (dictNew : Dict Unit)
      (fun _ d => d.LookupsEnd)
      [.add 1 (.ofLiteral "A") none, .del (.ofLiteral "?"),
        .add 1 (.ofLiteral "B") none, .del (.ofLiteral "?"),
        .add 1 (.ofLiteral "C") none, .del (.ofLiteral "?"),
        .add 1 (.ofLiteral "D") none, .del (.ofLiteral "?"),
        .add 1 (.ofLiteral "E") none, .del (.ofLiteral "?"),
        .add 1 (.ofLiteral "F") none, .del (.ofLiteral "?"),
        .add 1 (.ofLiteral "G") none, .del (.ofLiteral "?"),
        .add 1 (.ofLiteral "H") none] := by
  intro always
  have spins : (dictAfter (α := Unit)
      [.add 1 (.ofLiteral "A") none, .del (.ofLiteral "?"),
        .add 1 (.ofLiteral "B") none, .del (.ofLiteral "?"),
        .add 1 (.ofLiteral "C") none, .del (.ofLiteral "?"),
        .add 1 (.ofLiteral "D") none, .del (.ofLiteral "?"),
        .add 1 (.ofLiteral "E") none, .del (.ofLiteral "?"),
        .add 1 (.ofLiteral "F") none, .del (.ofLiteral "?"),
        .add 1 (.ofLiteral "G") none, .del (.ofLiteral "?"),
        .add 1 (.ofLiteral "H") none]).map
          (fun d => (dictLookup d (.ofLiteral "?")
            (dictHash (.ofLiteral "?"))).isSome) = some false := by
    decide +kernel
  obtain ⟨d, reached, stuck⟩ := Option.map_eq_some_iff.mp spins
  rw [(always.final reached).2] at stuck
  cases stuck

/-! ## Deletions of stored keys -/

/-- A deletion finds a slot that holds its key. -/
def Dict.DeletesStored (d : Dict α) (op : DictOp α) : Prop :=
  op.isDel = true → ∃ i, d.FindsAt op.key i ∧ d.keyAt i = some op.key

/-- The counters are bounds: every slot in use is counted by `used`, every
entry that `used` counts by `fill`, and `fill` counts the calls at most. -/
structure Dict.Tallied (count : Nat) (d : Dict α) : Prop where
  /-- The table has the right shape. -/
  wf : d.WellFormed
  /-- The table has a free slot. -/
  room : d.HasFreeSlot
  /-- `used` counts every slot in use. -/
  inUse_le : d.inUse d.size ≤ d.used
  /-- `fill` counts whatever `used` counts. -/
  used_le : d.used ≤ d.fill
  /-- `fill` counts calls. -/
  fill_le : d.fill ≤ count

namespace Dict.Tallied

variable {d next : Dict α} {count : Nat} {op : DictOp α}

theorem new : (dictNew : Dict α).Tallied 0 where
  wf := Dict.WellFormed.new
  room := Dict.HasFreeSlot.new
  inUse_le := by simp [dictNew]
  used_le := Nat.le_refl 0
  fill_le := Nat.le_refl 0

/-- While the counters are bounds, an addition that takes the last free slot
makes the table grow. -/
theorem willGrow (tallied : d.Tallied count) (short : count < 2 ^ 28)
    (takes : d.TakesLastSlot op) : d.WillGrow := by
  obtain ⟨-, i, finds, only⟩ := takes
  have full : ¬(d.store i ((d.table i).assign 0 op.key none none 0
      true)).HasFreeSlot := fun more =>
    (Dict.hasFreeSlot_store_iff tallied.room 0 none none 0 true).mp more only
  rw [Dict.hasFreeSlot_iff_inUse, Dict.store_size] at full
  have counted := d.inUse_store_le i ((d.table i).assign 0 op.key none none 0
    true) d.size
  rw [if_pos (finds.lt tallied.wf)] at counted
  have inUseLe := tallied.inUse_le
  have usedLe := tallied.used_le
  have fillLe := tallied.fill_le
  have positive := tallied.wf.size_pos
  rw [Dict.WillGrow, @u32_of_lt (d.fill + 1) (by omega),
    @u32_of_lt (d.used + 1) (by omega), u32_of_lt (by omega),
    u32_of_lt (by omega)]
  refine ⟨by omega, ?_⟩
  split
  · rw [u32_of_lt (by omega)]
    omega
  · rw [u32_of_lt (by omega)]
    omega

/-- A table that has grown counts what it has moved. -/
theorem grown (wf : d.WellFormed) (room : next.HasFreeSlot)
    (inUseLe : d.inUse d.size ≤ count) (short : count < 2 ^ 28) {now : Int}
    {depth : Nat} (grows : dictNewsize d ≠ some d.size)
    (resized : dictResize now depth d = some next) :
    next.Tallied count := by
  have moves := dictResize_moves
    (fun i (state : Dict α) => state.inUse state.size ≤ state.used ∧
      state.used ≤ state.fill ∧ state.fill ≤ d.inUse i) wf
    (fun exponent => ⟨by simp, Nat.le_refl 0, Nat.zero_le _⟩)
    (fun i key state j inside stored stateWf held finds => by
      obtain ⟨inUse, used, fill⟩ := held
      have within := d.inUse_mono (Nat.succ_le_of_lt inside)
      rw [Dict.inUse_succ_of_key stored] at within ⊢
      have counted := state.inUse_store_le j ((state.table j).assign now key
        (d.table i).val none (d.table i).ts false) state.size
      rw [if_pos (finds.lt stateWf)] at counted
      rw [Dict.store_size, Dict.store_used, Dict.store_fill,
        u32_of_lt (by omega), u32_of_lt (by omega)]
      exact ⟨by omega, by omega, by omega⟩)
    (fun i state inside free held =>
      ⟨held.1, held.2.1, Nat.le_trans held.2.2
        (d.inUse_mono (Nat.le_succ i))⟩)
    resized
  rcases moves with ⟨early, -⟩ | ⟨-, -, nextWf, inUse, used, fill⟩
  · exact absurd early grows
  · exact ⟨nextWf, room, inUse, used, Nat.le_trans fill inUseLe⟩

/-- One call keeps the counters bounds if it deletes no absent key. -/
theorem apply (tallied : d.Tallied count) (short : count + 1 < 2 ^ 28)
    (deletesStored : d.DeletesStored op) {depth : Nat}
    (applied : op.apply depth d = some next) : next.Tallied (count + 1) := by
  have room := (Dict.hasFreeSlot_step_iff tallied.wf tallied.room applied).mpr
    (tallied.willGrow (by omega))
  have inUseLe := tallied.inUse_le
  have usedLe := tallied.used_le
  have fillLe := tallied.fill_le
  by_cases adds : op.isDel = false
  · obtain ⟨i, now, ts, finds, result⟩ :=
      DictOp.apply_add_cases tallied.wf adds applied
    have storedWf :=
      tallied.wf.store (finds.lt tallied.wf) now op.key op.val op.blob ts true
    have counted := d.inUse_store_le i
      ((d.table i).assign now op.key op.val op.blob ts true) d.size
    rw [if_pos (finds.lt tallied.wf)] at counted
    rcases result with ⟨-, rfl⟩ | ⟨grows, resized⟩
    · refine ⟨storedWf, room, ?_, ?_, ?_⟩ <;>
        simp only [Dict.store_size, Dict.store_used, Dict.store_fill,
          @u32_of_lt (d.used + 1) (by omega),
          @u32_of_lt (d.fill + 1) (by omega)] <;> omega
    · exact grown storedWf room (by rw [Dict.store_size]; omega)
        (by omega) ((Dict.willGrow_iff storedWf).mp grows).2 resized
  · cases op with
    | del key =>
        obtain ⟨i, finds, rfl⟩ :=
          (DictOp.apply_del_eq_some tallied.wf).mp applied
        obtain ⟨j, findsJ, stored⟩ := deletesStored rfl
        obtain rfl := findsJ.unique finds
        have counted := Dict.inUse_free_of_stored tallied.wf finds stored
        have usedEq : (d.free j).used = d.used - 1 := by
          rw [Dict.free_used, u32Dec_of_pos (by omega)]
        refine ⟨tallied.wf.free j, room, ?_, ?_, ?_⟩
        · rw [Dict.free_size, usedEq]
          omega
        · rw [usedEq]
          exact Nat.le_trans (Nat.sub_le _ _) usedLe
        · exact Nat.le_succ_of_le fillLe
    | _ => exact absurd rfl adds

end Dict.Tallied

/-- If every deletion of a history finds its key, the table keeps a free slot:
only deletions of absent keys let `used` fall behind. -/
theorem lookupsEnd_of_deletesStored {history : List (DictOp α)}
    (short : history.length < 2 ^ 28)
    (stored : EachStep (DictOp.apply resizeDepth) dictNew Dict.DeletesStored
      history) :
    Always (DictOp.apply resizeDepth) dictNew (fun _ d => d.LookupsEnd)
      history := by
  intro past within d reached
  have tallied := Always.of_eachStep
    (fun past (d : Dict α) => d.Tallied past.length) Dict.Tallied.new
    (fun past d op next within tallied applied deletesStored => by
      have bound := within.length_le
      rw [List.length_append, List.length_singleton] at bound ⊢
      exact tallied.apply (by omega) deletesStored applied)
    stored past within d reached
  exact (Dict.lookupsEnd_iff_hasFreeSlot tallied.wf).mpr tallied.room

end Hamchat
