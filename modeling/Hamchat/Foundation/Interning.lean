import Hamchat.Foundation.PartialRun
import Mathlib.Logic.Function.Basic

/-!
# Interning under a stored form of the name

A table gives every name an object.  A request looks for the name itself, and
if it finds nothing it makes a new object and registers it under the form of
the name that is stored.  Names that the stored form changes or confuses are
then not found again, or replace each other.
-/

namespace Hamchat
namespace Foundation

/-- The registered objects, numbered in the order in which they are made. -/
structure Interner (κ : Type) where
  /-- The object registered under a name. -/
  entries : κ → Option Nat
  /-- The number of objects made. -/
  count : Nat

/-- What one request has led to. -/
structure Interned (κ : Type) where
  /-- The name requested. -/
  name : κ
  /-- The object returned. -/
  object : Nat
  /-- The object whose entry was overwritten. -/
  replaced : Option Nat

/-- A table and the requests that it has served. -/
structure InternLog (κ : Type) where
  /-- The table. -/
  table : Interner κ
  /-- The requests. -/
  served : List (Interned κ)

section Interning

variable {κ : Type}

/-- No object has been made. -/
def Interner.empty : Interner κ := ⟨fun _ => none, 0⟩

/-- No request has been served. -/
def InternLog.empty : InternLog κ := ⟨.empty, []⟩

/-- Requests have got the same object exactly for the same name, and none has
overwritten an entry. -/
structure InternLog.Faithful (log : InternLog κ) : Prop where
  /-- Objects stand for names. -/
  sameObject : ∀ first ∈ log.served, ∀ second ∈ log.served,
    (first.object = second.object ↔ first.name = second.name)
  /-- No entry has been lost. -/
  kept : ∀ request ∈ log.served, request.replaced = none

/-- What holds of every table that requests have filled. -/
structure InternLog.Filled (stored : κ → κ) (log : InternLog κ) : Prop where
  /-- Entries are under stored forms. -/
  key_stored : ∀ key object, log.table.entries key = some object →
    stored key = key
  /-- Registered objects have been made. -/
  lt_count : ∀ key object, log.table.entries key = some object →
    object < log.table.count
  /-- An object is registered once. -/
  key_unique : ∀ key other object, log.table.entries key = some object →
    log.table.entries other = some object → key = other
  /-- Entries stem from requests. -/
  origin : ∀ key object, log.table.entries key = some object →
    ∃ request ∈ log.served, stored request.name = key
  /-- Objects returned have been made. -/
  served_lt : ∀ request ∈ log.served, request.object < log.table.count
  /-- While no entry is lost, every object returned is registered under the
  stored form of its name. -/
  registered : (∀ request ∈ log.served, request.replaced = none) →
    ∀ request ∈ log.served,
      log.table.entries (stored request.name) = some request.object

/-- Names with one stored form are the same name, and that is its stored
form. -/
def Separated (stored : κ → κ) (name other : κ) : Prop :=
  stored name = stored other → name = other ∧ stored other = other

variable {stored : κ → κ} {log : InternLog κ} {name : κ}

theorem InternLog.Filled.empty :
    (InternLog.empty : InternLog κ).Filled stored where
  key_stored _ _ found := by cases found
  lt_count _ _ found := by cases found
  key_unique _ _ _ found := by cases found
  origin _ _ found := by cases found
  served_lt _ member := by cases member
  registered _ _ member := by cases member

/-- A name that is found leaves the table as it is. -/
theorem InternLog.Filled.found (filled : log.Filled stored) {object : Nat}
    (found : log.table.entries name = some object) :
    InternLog.Filled stored
      ⟨log.table, log.served ++ [⟨name, object, none⟩]⟩ where
  key_stored := filled.key_stored
  lt_count := filled.lt_count
  key_unique := filled.key_unique
  origin key other entry := by
    obtain ⟨request, member, same⟩ := filled.origin key other entry
    exact ⟨request, List.mem_append_left _ member, same⟩
  served_lt request member := by
    rcases List.mem_append.mp member with earlier | last
    · exact filled.served_lt request earlier
    · obtain rfl := List.mem_singleton.mp last
      exact filled.lt_count name object found
  registered kept request member := by
    rcases List.mem_append.mp member with earlier | last
    · exact filled.registered
        (fun other inside => kept other (List.mem_append_left _ inside))
        request earlier
    · obtain rfl := List.mem_singleton.mp last
      dsimp only
      rw [filled.key_stored name object found, found]

/-- A log stays faithful with one more request exactly if the request returns
an object of its own or that of its name, and overwrites nothing. -/
theorem InternLog.faithful_concat_iff {table : Interner κ}
    {last : Interned κ} (faithful : log.Faithful) :
    InternLog.Faithful ⟨table, log.served ++ [last]⟩ ↔
      (∀ request ∈ log.served,
        (request.object = last.object ↔ request.name = last.name)) ∧
        last.replaced = none := by
  constructor
  · intro next
    have atEnd : last ∈ log.served ++ [last] :=
      List.mem_append_right _ (List.mem_singleton_self _)
    exact ⟨fun request member => next.sameObject request
      (List.mem_append_left _ member) last atEnd, next.kept last atEnd⟩
  · rintro ⟨same, kept⟩
    refine ⟨fun first inFirst second inSecond => ?_, fun request member => ?_⟩
    · rcases List.mem_append.mp inFirst with first' | first' <;>
        rcases List.mem_append.mp inSecond with second' | second'
      · exact faithful.sameObject first first' second second'
      · obtain rfl := List.mem_singleton.mp second'
        exact same first first'
      · obtain rfl := List.mem_singleton.mp first'
        rw [eq_comm, same second second', eq_comm]
      · obtain rfl := List.mem_singleton.mp first'
        obtain rfl := List.mem_singleton.mp second'
        exact Iff.intro (fun _ => rfl) fun _ => rfl
    · rcases List.mem_append.mp member with earlier | atEnd
      · exact faithful.kept request earlier
      · obtain rfl := List.mem_singleton.mp atEnd
        exact kept

/-- The object of a name that is found is returned for that name only, exactly
if the name is separated from all names requested before. -/
theorem InternLog.Filled.same_found_iff (filled : log.Filled stored)
    (faithful : log.Faithful) {object : Nat}
    (found : log.table.entries name = some object) :
    (∀ request ∈ log.served, (request.object = object ↔ request.name = name)) ↔
      ∀ request ∈ log.served, Separated stored request.name name := by
  have registered := filled.registered faithful.kept
  have full := filled.key_stored name object found
  constructor
  · intro same request member confused
    have here := registered request member
    rw [confused, full, found, Option.some.injEq] at here
    exact ⟨(same request member).mp here.symm, full⟩
  · intro separated request member
    have here := registered request member
    constructor
    · rintro rfl
      have confused := filled.key_unique _ _ _ here found
      exact (separated request member (confused.trans full.symm)).1
    · intro same
      rw [same, full, found, Option.some.injEq] at here
      exact here.symm

/-- A new object is nobody else's, and no entry is under the stored form of its
name exactly if the name is separated from all names requested before. -/
theorem InternLog.Filled.same_made_iff (filled : log.Filled stored)
    (faithful : log.Faithful) (free : log.table.entries name = none) :
    ((∀ request ∈ log.served,
        (request.object = log.table.count ↔ request.name = name)) ∧
      log.table.entries (stored name) = none) ↔
      ∀ request ∈ log.served, Separated stored request.name name := by
  have registered := filled.registered faithful.kept
  constructor
  · rintro ⟨-, fresh⟩ request member confused
    have here := registered request member
    rw [confused] at here
    cases fresh.symm.trans here
  · intro separated
    have fresh : log.table.entries (stored name) = none := by
      cases occupied : log.table.entries (stored name) with
      | none => rfl
      | some object =>
          obtain ⟨request, member, same⟩ := filled.origin _ _ occupied
          obtain ⟨-, full⟩ := separated request member same
          rw [full, free] at occupied
          cases occupied
    refine ⟨fun request member => ?_, fresh⟩
    have here := registered request member
    constructor
    · intro same
      exact absurd (filled.served_lt request member)
        (Nat.not_lt_of_le (Nat.le_of_eq same.symm))
    · intro same
      rw [same, fresh] at here
      cases here

/-- A relation holds between all elements of a list exactly if it holds between
each element and all before it. -/
theorem pairwise_iff_prefix {R : κ → κ → Prop} {names : List κ} :
    names.Pairwise R ↔ ∀ past name, past ++ [name] <+: names →
      ∀ earlier ∈ past, R earlier name := by
  constructor
  · intro pairwise past name within earlier member
    have separated := (List.pairwise_append.mp
      (pairwise.sublist within.sublist)).2.2
    exact separated earlier member name (List.mem_singleton_self _)
  · intro separated
    induction names using List.reverseRecOn with
    | nil => exact List.Pairwise.nil
    | append_singleton names name inductionHypothesis =>
        refine List.pairwise_append.mpr ⟨?_, List.pairwise_singleton _ _, ?_⟩
        · exact inductionHypothesis fun past other within =>
            separated past other (within.trans (List.prefix_append _ _))
        · intro earlier member other last
          obtain rfl := List.mem_singleton.mp last
          exact separated names other (List.prefix_refl _) earlier member

variable [DecidableEq κ] (stored)

/-- Register a new object under the stored form of a name. -/
def Interner.make (table : Interner κ) (name : κ) : Interner κ where
  entries := Function.update table.entries (stored name) (some table.count)
  count := table.count + 1

/-- Find the object of a name, or make one. -/
def Interner.request (table : Interner κ) (name : κ) :
    Interned κ × Interner κ :=
  match table.entries name with
  | some object => (⟨name, object, none⟩, table)
  | none =>
      (⟨name, table.count, table.entries (stored name)⟩,
        table.make stored name)

/-- Serve one request. -/
def InternLog.request (log : InternLog κ) (name : κ) :
    Option (InternLog κ) :=
  some ⟨(log.table.request stored name).2,
    log.served ++ [(log.table.request stored name).1]⟩

variable {stored}

theorem Interner.make_entries (table : Interner κ) (name key : κ) :
    (table.make stored name).entries key =
      if key = stored name then some table.count else table.entries key :=
  Function.update_apply ..

theorem Interner.request_of_found {table : Interner κ} {object : Nat}
    (found : table.entries name = some object) :
    table.request stored name = (⟨name, object, none⟩, table) := by
  rw [request, found]

theorem Interner.request_of_free {table : Interner κ}
    (free : table.entries name = none) :
    table.request stored name =
      (⟨name, table.count, table.entries (stored name)⟩,
        table.make stored name) := by
  rw [request, free]

/-- A name that is not found gets a new object. -/
theorem InternLog.Filled.made (filled : log.Filled stored)
    (idempotent : ∀ name, stored (stored name) = stored name) (name : κ) :
    InternLog.Filled stored
      ⟨log.table.make stored name, log.served ++
        [⟨name, log.table.count, log.table.entries (stored name)⟩]⟩ where
  key_stored key object := by
    dsimp only
    rw [Interner.make_entries]
    split
    · rename_i same
      rw [same]
      exact fun _ => idempotent name
    · exact filled.key_stored key object
  lt_count key object := by
    dsimp only
    rw [Interner.make_entries]
    split
    · intro new
      cases new
      exact Nat.lt_succ_self _
    · exact fun entry => Nat.lt_succ_of_lt (filled.lt_count key object entry)
  key_unique key other object := by
    dsimp only
    rw [Interner.make_entries, Interner.make_entries]
    split <;> rename_i first <;> split <;> rename_i second
    · exact fun _ _ => first.trans second.symm
    · intro new entry
      cases new
      exact absurd (filled.lt_count other _ entry) (Nat.lt_irrefl _)
    · intro entry new
      cases new
      exact absurd (filled.lt_count key _ entry) (Nat.lt_irrefl _)
    · exact filled.key_unique key other object
  origin key object := by
    dsimp only
    rw [Interner.make_entries]
    split
    · rename_i same
      exact fun _ => ⟨_, List.mem_append_right _ (List.mem_singleton_self _),
        same.symm⟩
    · intro entry
      obtain ⟨request, member, same⟩ := filled.origin key object entry
      exact ⟨request, List.mem_append_left _ member, same⟩
  served_lt request member := by
    rcases List.mem_append.mp member with earlier | last
    · exact Nat.lt_succ_of_lt (filled.served_lt request earlier)
    · obtain rfl := List.mem_singleton.mp last
      exact Nat.lt_succ_self _
  registered kept request member := by
    dsimp only
    rw [Interner.make_entries]
    rcases List.mem_append.mp member with earlier | last
    · have entry := filled.registered
        (fun other inside => kept other (List.mem_append_left _ inside))
        request earlier
      have fresh : log.table.entries (stored name) = none := kept _
        (List.mem_append_right _ (List.mem_singleton_self _))
      rw [if_neg]
      · exact entry
      · intro same
        rw [same, fresh] at entry
        cases entry
    · obtain rfl := List.mem_singleton.mp last
      exact if_pos rfl

/-- One request keeps what holds of filled tables. -/
theorem InternLog.Filled.request (filled : log.Filled stored)
    (idempotent : ∀ name, stored (stored name) = stored name)
    {next : InternLog κ} (served : log.request stored name = some next) :
    next.Filled stored := by
  obtain rfl := Option.some.inj served
  cases entry : log.table.entries name with
  | some object =>
      rw [Interner.request_of_found entry]
      exact filled.found entry
  | none =>
      rw [Interner.request_of_free entry]
      exact filled.made idempotent name

/-- A request keeps a log faithful exactly if its name is separated from all
names requested before. -/
theorem InternLog.faithful_request_iff (filled : log.Filled stored)
    (faithful : log.Faithful) {next : InternLog κ}
    (served : log.request stored name = some next) :
    next.Faithful ↔
      ∀ request ∈ log.served, Separated stored request.name name := by
  obtain rfl := Option.some.inj served
  rw [InternLog.faithful_concat_iff faithful]
  cases entry : log.table.entries name with
  | some object =>
      rw [Interner.request_of_found entry]
      exact (and_iff_left rfl).trans (filled.same_found_iff faithful entry)
  | none =>
      rw [Interner.request_of_free entry]
      exact filled.same_made_iff faithful entry

/-- The names of the requests served are those of the run. -/
theorem InternLog.names_served {names : List κ} {log : InternLog κ}
    (reached : runFrom (InternLog.request stored) InternLog.empty names =
      some log) : log.served.map Interned.name = names := by
  induction names using List.reverseRecOn generalizing log with
  | nil =>
      obtain rfl := Option.some.inj reached
      rfl
  | append_singleton names name inductionHypothesis =>
      obtain ⟨before, past, served⟩ :=
        (runFrom_concat_eq_some _ _).mp reached
      obtain rfl := Option.some.inj served
      have answered : (before.table.request stored name).1.name = name := by
        rw [Interner.request]
        split <;> rfl
      rw [List.map_append, inductionHypothesis past, List.map_singleton,
        answered]

/-- Every run of requests completes. -/
theorem InternLog.exists_log (names : List κ) :
    ∃ log, runFrom (InternLog.request stored) InternLog.empty names =
      some log := by
  induction names using List.reverseRecOn with
  | nil => exact ⟨_, rfl⟩
  | append_singleton names name inductionHypothesis =>
      obtain ⟨before, past⟩ := inductionHypothesis
      exact ⟨_, (runFrom_concat_eq_some _ _).mpr ⟨before, past, rfl⟩⟩

/-- Requests are served faithfully exactly if all names are separated. -/
theorem InternLog.always_faithful_iff
    (idempotent : ∀ name, stored (stored name) = stored name)
    (names : List κ) :
    Always (InternLog.request stored) InternLog.empty
        (fun _ log => log.Faithful) names ↔
      names.Pairwise (Separated stored) := by
  have atStart : (InternLog.empty : InternLog κ).Faithful :=
    ⟨fun _ member => (by cases member), fun _ member => (by cases member)⟩
  rw [Always.iff_of_step_iff (InternLog.Filled stored) InternLog.Faithful
    InternLog.Filled.empty
    (fun log name next filled served => filled.request idempotent served)
    (fun log name next filled faithful served =>
      InternLog.faithful_request_iff filled faithful served),
    and_iff_right atStart, pairwise_iff_prefix]
  constructor
  · intro separated past name within earlier member
    obtain ⟨log, reached⟩ :
        ∃ log, runFrom (InternLog.request stored) InternLog.empty past =
          some log := InternLog.exists_log past
    rw [← InternLog.names_served reached] at member
    obtain ⟨request, inside, rfl⟩ := List.mem_map.mp member
    exact separated past name within log _ reached rfl request inside
  · intro separated past name within log next reached _ request member
    refine separated past name within request.name ?_
    rw [← InternLog.names_served reached]
    exact List.mem_map_of_mem member

end Interning

end Foundation
end Hamchat
