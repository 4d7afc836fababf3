import Mathlib.Logic.Function.Basic
import Mathlib.Data.Nat.Find
import Mathlib.Order.Basic

/-!
# Open addressing without tombstones

A table assigns to every index at most one key, and every key has its own probe
path through the indices.  A search follows the path of its key and stops at
the first index that is free or that holds the key.  The table is linked when
the search of every stored key stops at the index that stores it.

Insertion at the index where a search stopped keeps a table linked.  Freeing an
index keeps it linked exactly when the path of no other stored key passes over
that index.
-/

namespace Hamchat
namespace Foundation

section OpenAddressing

variable {ι κ : Type} (path : κ → Nat → ι)

/-- A search for `key` stops at an index that is free or holds the key. -/
def Stops (keys : ι → Option κ) (key : κ) (index : ι) : Prop :=
  keys index = none ∨ keys index = some key

instance [DecidableEq κ] (keys : ι → Option κ) (key : κ) (index : ι) :
    Decidable (Stops keys key index) :=
  inferInstanceAs (Decidable (_ ∨ _))

/-- The search for `key` stops after `count` steps and not earlier. -/
def LandsAfter (keys : ι → Option κ) (key : κ) (count : Nat) : Prop :=
  Stops keys key (path key count) ∧
    ∀ earlier < count, ¬Stops keys key (path key earlier)

/-- The search for `key` ends at `index`. -/
def Lands (keys : ι → Option κ) (key : κ) (index : ι) : Prop :=
  ∃ count, path key count = index ∧ LandsAfter path keys key count

/-- Every stored key is found where it is stored. -/
def Linked (keys : ι → Option κ) : Prop :=
  ∀ index key, keys index = some key → Lands path keys key index

/-- The probe path of `key` visits `passed` before it visits `home`. -/
def PassesOver (key : κ) (home passed : ι) : Prop :=
  ∃ count, path key count = passed ∧
    ∀ earlier ≤ count, path key earlier ≠ home

variable {path}
variable {keys : ι → Option κ} {key other : κ} {index home : ι}

/-- A search stops after a determined number of steps. -/
theorem LandsAfter.unique {first second : Nat}
    (landsFirst : LandsAfter path keys key first)
    (landsSecond : LandsAfter path keys key second) :
    first = second := by
  rcases Nat.lt_trichotomy first second with less | equal | greater
  · exact absurd landsFirst.1 (landsSecond.2 first less)
  · exact equal
  · exact absurd landsSecond.1 (landsFirst.2 second greater)

/-- A search ends at one index only. -/
theorem Lands.unique {first second : ι}
    (landsFirst : Lands path keys key first)
    (landsSecond : Lands path keys key second) :
    first = second := by
  obtain ⟨firstCount, rfl, firstAfter⟩ := landsFirst
  obtain ⟨secondCount, rfl, secondAfter⟩ := landsSecond
  rw [firstAfter.unique secondAfter]

/-- The index where a search ended is free or holds the key. -/
theorem Lands.stops (lands : Lands path keys key index) :
    Stops keys key index := by
  obtain ⟨count, rfl, after⟩ := lands
  exact after.1

/-- A search whose path meets a stopping index ends no later than there. -/
theorem exists_landsAfter_le {count : Nat}
    (stops : Stops keys key (path key count)) :
    ∃ landed ≤ count, LandsAfter path keys key landed := by
  classical
  have exists_stop : ∃ step, Stops keys key (path key step) := ⟨count, stops⟩
  exact ⟨Nat.find exists_stop, Nat.find_min' exists_stop stops,
    Nat.find_spec exists_stop, fun _ => Nat.find_min exists_stop⟩

/-- In a linked table no key is stored twice. -/
theorem Linked.index_unique {first second : ι}
    (linked : Linked path keys)
    (storedFirst : keys first = some key)
    (storedSecond : keys second = some key) :
    first = second :=
  (linked first key storedFirst).unique (linked second key storedSecond)

/-- In a linked table the search of a stored key ends where it is stored. -/
theorem Linked.lands_eq
    (linked : Linked path keys)
    (stored : keys home = some key)
    (lands : Lands path keys key index) :
    index = home :=
  lands.unique (linked home key stored)

/-- Another key is not stored at the index where a search ended. -/
theorem Lands.ne_of_stored
    (lands : Lands path keys key index)
    (stored : keys home = some other)
    (different : other ≠ key) :
    home ≠ index := by
  rintro rfl
  rcases lands.stops with free | found
  · rw [stored] at free
    cases free
  · rw [stored, Option.some.injEq] at found
    exact different found

/-- What is stored elsewhere in a linked table is another key. -/
theorem Linked.ne_of_stored
    (linked : Linked path keys)
    (lands : Lands path keys key index)
    (stored : keys home = some other)
    (different : home ≠ index) :
    other ≠ key := by
  rintro rfl
  exact different (linked.lands_eq stored lands).symm

/-- A table without keys is linked. -/
theorem linked_empty : Linked path (fun _ : ι => (none : Option κ)) := by
  intro index key stored
  cases stored

variable [DecidableEq ι]

/-- A change at another index leaves the search of a stored key as it was, unless
it makes the search stop on its way. -/
theorem Lands.update_of_ne {value : Option κ}
    (lands : Lands path keys other home)
    (stored : keys home = some other)
    (different : home ≠ index)
    (clear : value = none ∨ value = some other →
      Stops keys other index ∨ ¬PassesOver path other home index) :
    Lands path (Function.update keys index value) other home := by
  obtain ⟨count, rfl, -, notEarlier⟩ := lands
  refine ⟨count, rfl, ?_, ?_⟩
  · right
    rw [Function.update_of_ne different]
    exact stored
  · intro earlier before stopsUpdated
    apply notEarlier earlier before
    by_cases hit : path other earlier = index
    · rw [Stops, hit, Function.update_self] at stopsUpdated
      rcases clear stopsUpdated with stopped | avoids
      · rwa [hit]
      · refine absurd ⟨earlier, hit, ?_⟩ avoids
        intro step stepLe atHome
        exact notEarlier step (Nat.lt_of_le_of_lt stepLe before)
          (.inr (by rw [atHome]; exact stored))
    · rwa [Stops, Function.update_of_ne hit] at stopsUpdated

/-- Writing a key at the index where its search ended leaves the search of
every other stored key as it was. -/
theorem Lands.update_of_lands
    (lands : Lands path keys key index)
    (different : home ≠ index)
    (stored : keys home = some other)
    (otherLands : Lands path keys other home) :
    Lands path (Function.update keys index (some key)) other home := by
  refine otherLands.update_of_ne stored different fun stopsThere => .inl ?_
  have same : key = other := by simpa using stopsThere
  rw [← same]
  exact lands.stops

/-- Writing a key at the index where its search ended, or freeing that index,
leaves the search of that key ending there. -/
theorem Lands.update_stop {stop : Option κ}
    (lands : Lands path keys key index)
    (stops : stop = none ∨ stop = some key) :
    Lands path (Function.update keys index stop) key index := by
  have stopped := lands.stops
  obtain ⟨count, rfl, -, notEarlier⟩ := lands
  refine ⟨count, rfl, by rwa [Stops, Function.update_self], ?_⟩
  intro earlier before stopsUpdated
  apply notEarlier earlier before
  by_cases hit : path key earlier = path key count
  · rwa [hit]
  · rwa [Stops, Function.update_of_ne hit] at stopsUpdated

/-- Insertion at the index where the search ended keeps a table linked. -/
theorem Linked.insert
    (linked : Linked path keys)
    (lands : Lands path keys key index) :
    Linked path (Function.update keys index (some key)) := by
  intro home other stored
  by_cases same : home = index
  · subst home
    rw [Function.update_self] at stored
    obtain rfl : key = other := by simpa using stored
    exact lands.update_stop (.inr rfl)
  · rw [Function.update_of_ne same] at stored
    exact lands.update_of_lands same stored (linked home other stored)

/-- Freeing an index that the path of a stored key does not pass over leaves
the search of that key as it was. -/
theorem Lands.update_none
    (lands : Lands path keys other home)
    (stored : keys home = some other)
    (different : home ≠ index)
    (avoids : ¬PassesOver path other home index) :
    Lands path (Function.update keys index none) other home :=
  lands.update_of_ne stored different fun _ => .inr avoids

/-- Freeing an index keeps a table linked when no other stored key has a path
that passes over it. -/
theorem Linked.erase
    (linked : Linked path keys)
    (avoided : ∀ home other, keys home = some other → home ≠ index →
      ¬PassesOver path other home index) :
    Linked path (Function.update keys index none) := by
  intro home other stored
  by_cases same : home = index
  · subst home
    rw [Function.update_self] at stored
    cases stored
  · rw [Function.update_of_ne same] at stored
    exact (linked home other stored).update_none stored same
      (avoided home other stored same)

/-- After freeing an index that the path of a stored key passes over, the
search of that key ends at the freed index. -/
theorem Lands.lands_erased
    (lands : Lands path keys other home)
    (stored : keys home = some other)
    (passes : PassesOver path other home index) :
    Lands path (Function.update keys index none) other index := by
  classical
  obtain ⟨count, rfl, -, notEarlier⟩ := lands
  obtain ⟨step, atIndex, beforeHome⟩ := passes
  have visits : ∃ step, path other step = index := ⟨step, atIndex⟩
  have first := Nat.find_spec visits
  have firstLe : Nat.find visits ≤ step := Nat.find_min' visits atIndex
  refine ⟨Nat.find visits, first, .inl ?_, ?_⟩
  · rw [first, Function.update_self]
  · intro earlier before stopsUpdated
    have notIndex : path other earlier ≠ index := Nat.find_min visits before
    rw [Stops, Function.update_of_ne notIndex] at stopsUpdated
    have reachedHome : ¬earlier < count := fun less =>
      notEarlier earlier less stopsUpdated
    exact beforeHome count (by omega) rfl

end OpenAddressing

end Foundation
end Hamchat
