import Mathlib.Data.List.Nodup

/-!
# Enumeration by a cursor

A table of slots is enumerated by calls that each look from a given index on for
the next slot in use, and return the index behind it.  A call that finds no slot
looks at the index behind the table before it ends.
-/

namespace Hamchat
namespace Foundation

section Cursor

variable {β : Type} (slot : Nat → Option β)

/-- The index at which a search for a slot in use stops, after at most `rounds`
slots without one, and the indices that it looks at. -/
def seek : (rounds index : Nat) → Nat × List Nat
  | 0, index => (index, [index])
  | rounds + 1, index =>
      if (slot index).isSome then
        (index, [index])
      else
        let found := seek rounds (index + 1)
        (found.1, index :: found.2)

/-- What one call of an enumeration does. -/
structure Visit (β : Type) where
  /-- Where the next call starts, unless this one was the last. -/
  next : Option Nat
  /-- The slot that it returns. -/
  entry : Option β
  /-- The indices that it looks at. -/
  reads : List Nat

/-- One call on a table of `size` slots. -/
def visit (size index : Nat) : Visit β :=
  let found := seek slot (size - index) index
  let entry := if found.1 < size then slot found.1 else none
  ⟨entry.map fun _ => found.1 + 1, entry, found.2⟩

/-- The slots that some calls in a row return and the indices that they look
at, if the last of them ends the enumeration. -/
def walk (visit : Nat → Visit β) : (calls index : Nat) →
    Option (List β × List Nat)
  | 0, _ => none
  | calls + 1, index =>
      let first := visit index
      match first.next with
      | none => some ([], first.reads)
      | some next =>
          (walk visit calls next).map fun later =>
            (first.entry.toList ++ later.1, first.reads ++ later.2)

variable {slot} {size index : Nat}

/-- A slot in use is returned at once. -/
theorem visit_of_some {entry : β} (inside : index < size)
    (used : slot index = some entry) :
    visit slot size index = ⟨some (index + 1), some entry, [index]⟩ := by
  have found : seek slot (size - index) index = (index, [index]) := by
    obtain ⟨rounds, remaining⟩ := Nat.exists_eq_add_of_lt inside
    rw [show size - index = rounds + 1 by omega, seek, used]
    rfl
  rw [visit, found]
  simp [inside, used]

/-- A slot without an entry is looked at and passed. -/
theorem visit_of_none (inside : index < size) (free : slot index = none) :
    visit slot size index =
      { visit slot size (index + 1) with
        reads := index :: (visit slot size (index + 1)).reads } := by
  have found : seek slot (size - index) index =
      ((seek slot (size - (index + 1)) (index + 1)).1,
        index :: (seek slot (size - (index + 1)) (index + 1)).2) := by
    rw [show size - index = size - (index + 1) + 1 by omega, seek, free]
    rfl
  rw [visit, visit, found]

/-- Behind the table a call looks once and ends the enumeration. -/
theorem visit_end : visit slot size size = ⟨none, none, [size]⟩ := by
  simp [visit, seek]

/-- A call returns the first slot in use, or there is none. -/
theorem visit_eq (remaining : Nat) (reach : index + remaining = size) :
    (visit slot size index).next = none ∧
        (List.range' index remaining).filterMap slot = [] ∨
      ∃ found entry,
        index ≤ found ∧ found < size ∧
        (visit slot size index).next = some (found + 1) ∧
        (visit slot size index).entry = some entry ∧
        (List.range' index remaining).filterMap slot =
          entry :: (List.range' (found + 1) (size - (found + 1))).filterMap
            slot := by
  induction remaining generalizing index with
  | zero =>
      obtain rfl : index = size := reach
      exact .inl ⟨by rw [visit_end], rfl⟩
  | succ remaining inductionHypothesis =>
      have inside : index < size := by omega
      rw [List.range'_succ]
      cases used : slot index with
      | some entry =>
          have rest : size - (index + 1) = remaining := by omega
          rw [visit_of_some inside used, List.filterMap_cons_some used]
          exact .inr ⟨index, entry, Nat.le_refl _, inside, rfl, rfl, by rw [rest]⟩
      | none =>
          rw [visit_of_none inside used, List.filterMap_cons_none used]
          have later := @inductionHypothesis (index + 1) (by omega)
          rcases later with ended | found
          · exact .inl ended
          · obtain ⟨found, entry, behind, visited⟩ := found
            exact .inr ⟨found, entry, by omega, visited⟩

/-- A call that passes an index and then does what a call from the next index
does changes nothing but the indices looked at. -/
theorem walk_of_pass {visit : Nat → Visit β} {calls : Nat}
    (pass : visit index =
      { visit (index + 1) with reads := index :: (visit (index + 1)).reads }) :
    walk visit (calls + 1) index =
      (walk visit (calls + 1) (index + 1)).map fun later =>
        (later.1, index :: later.2) := by
  rw [walk, walk, pass]
  dsimp only
  cases (visit (index + 1)).next with
  | none => rfl
  | some next => simp [Function.comp_def]

/-- An enumeration that has ended is not changed by further calls. -/
theorem walk_mono {visit : Nat → Visit β} {calls : Nat}
    {result : List β × List Nat} (ended : walk visit calls index = some result)
    (extra : Nat) : walk visit (calls + extra) index = some result := by
  induction calls generalizing index result with
  | zero => cases ended
  | succ calls inductionHypothesis =>
      rw [Nat.succ_add, walk]
      rw [walk] at ended
      cases next : (visit index).next with
      | none =>
          rw [next] at ended
          exact ended
      | some start =>
          rw [next] at ended
          obtain ⟨later, walked, rfl⟩ := Option.map_eq_some_iff.mp ended
          dsimp only
          rw [inductionHypothesis walked]
          rfl

/-- Calls that start inside the table and are as many as its slots and one
return all its entries in order.  They look at all indices up to and including
the one behind the table. -/
theorem walk_visit_eq {calls : Nat} (inside : index ≤ size)
    (enough : size - index < calls) :
    walk (visit slot size) calls index =
      some ((List.range' index (size - index)).filterMap slot,
        List.range' index (size - index + 1)) := by
  obtain ⟨calls, rfl⟩ := Nat.exists_eq_succ_of_ne_zero
    (Nat.ne_of_gt (Nat.zero_lt_of_lt enough))
  obtain ⟨remaining, rfl⟩ := Nat.exists_eq_add_of_le inside
  rw [Nat.add_sub_cancel_left] at enough ⊢
  induction remaining generalizing index calls with
  | zero =>
      rw [Nat.add_zero, walk, visit_end]
      rfl
  | succ remaining inductionHypothesis =>
      rw [show index + (remaining + 1) = index + 1 + remaining by omega,
        List.range'_succ, List.range'_succ]
      cases entry : slot index with
      | some value =>
          obtain ⟨calls, rfl⟩ := Nat.exists_eq_succ_of_ne_zero
            (show calls ≠ 0 by omega)
          rw [walk, visit_of_some (by omega) entry]
          simp [inductionHypothesis calls (Nat.le_add_right _ _) (by omega),
            entry]
      | none =>
          rw [walk_of_pass (visit_of_none (by omega) entry)]
          simp [inductionHypothesis calls (Nat.le_add_right _ _) (by omega),
            entry]

/-- An enumeration from the start that ends has returned all entries in order
and looked at all indices up to and including the one behind the table. -/
theorem walk_visit_eq_some {calls : Nat} {result : List β × List Nat}
    (ended : walk (visit slot size) calls 0 = some result) :
    result = ((List.range size).filterMap slot, List.range (size + 1)) := by
  have whole := @walk_visit_eq _ slot size 0 (calls + (size + 1))
    (Nat.zero_le _) (by omega)
  rw [walk_mono ended, Option.some.injEq] at whole
  rw [whole, List.range_eq_range', List.range_eq_range']
  rfl

end Cursor

end Foundation
end Hamchat
