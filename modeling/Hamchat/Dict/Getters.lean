import Hamchat.Dict.Blob
import Hamchat.Numbers

/-!
# Getters and defaults

`dict_getBool`, `dict_getInt` and `dict_getDouble` from `src/dict.cpp` and the
getters of `Config` from `src/config.cpp`.  `dict_lookup` answers a missing key
with a free slot, and `dict_get` returns the `val` of whatever slot it gets.  So
for a missing key it returns NULL and not the default, while the typed getters,
which ask for NULL, fall back to theirs.
-/

namespace Hamchat

open Foundation

/-! ## Typed getters -/

/-- `dict_getBool` -/
def dictGetBool (cp : Option (Dict α)) (key : CString) (defval : Bool) :
    Option Bool := do
  match ← dictGet cp key none with
  | none => some defval
  | some str =>
      if str.sameIgnoringCase (.ofLiteral "false") ||
          str.sameIgnoringCase (.ofLiteral "no") then
        some false
      else if str.sameIgnoringCase (.ofLiteral "true") ||
          str.sameIgnoringCase (.ofLiteral "yes") then
        some true
      else
        some defval

/-- `dict_getInt` -/
def dictGetInt (cp : Option (Dict α)) (key : CString) (defval : Int) :
    Option Int := do
  match ← dictGet cp key none with
  | none => some defval
  | some str =>
      let converted := strtol str
      let val := toInt32 converted.value
      if converted.rangeError || (val == 0 && converted.stopped == 0) then
        some defval
      else
        some val

section Double

variable {δ : Type} (strtod : CString → Conversion δ) (isZero : δ → Bool)

/-- `dict_getDouble`, for the conversion of the C library and its numbers. -/
def dictGetDouble (cp : Option (Dict α)) (key : CString) (defval : δ) :
    Option δ := do
  match ← dictGet cp key none with
  | none => some defval
  | some str =>
      let converted := strtod str
      if converted.rangeError ||
          (isZero converted.value && converted.stopped == 0) then
        some defval
      else
        some converted.value

end Double

/-- `Config` -/
structure Config (α : Type) where
  /-- `dict *data` -/
  data : Option (Dict α)

/-- `Config::Get` -/
def Config.get (cfg : Config α) (key : CString) (defval : Option CString) :
    Option (Option CString) :=
  dictGet cfg.data key defval

/-- `Config::GetInt` -/
def Config.getInt (cfg : Config α) (key : CString) (defval : Int) :
    Option Int :=
  dictGetInt cfg.data key defval

/-- `Config::GetBool` -/
def Config.getBool (cfg : Config α) (key : CString) (defval : Bool) :
    Option Bool :=
  dictGetBool cfg.data key defval

/-- `Config::GetDouble` -/
def Config.getDouble (strtod : CString → Conversion δ) (isZero : δ → Bool)
    (cfg : Config α) (key : CString) (defval : δ) : Option δ :=
  dictGetDouble strtod isZero cfg.data key defval

/-! ## Missing keys -/

/-- What the callers of the getters offer for a missing key. -/
structure Defaults (δ : Type) where
  /-- For `dict_get`. -/
  string : Option CString
  /-- For `dict_getInt`. -/
  int : Int
  /-- For `dict_getBool`. -/
  bool : Bool
  /-- For `dict_getDouble`. -/
  double : δ

/-- No slot of the table holds the key. -/
def Dict.Missing (d : Dict α) (key : CString) : Prop :=
  ∀ i < d.size, (d.table i).key ≠ .string key

/-- `dict_get` and `Config::Get` return the default. -/
def Dict.GetDefaults (d : Dict α) (key : CString) (defaults : Defaults δ) :
    Prop :=
  dictGet (some d) key defaults.string = some defaults.string ∧
    Config.get ⟨some d⟩ key defaults.string = some defaults.string

/-- `dict_getInt`, `dict_getBool` and `dict_getDouble` return their default. -/
def Dict.TypedDefaults (strtod : CString → Conversion δ) (isZero : δ → Bool)
    (d : Dict α) (key : CString) (defaults : Defaults δ) : Prop :=
  dictGetInt (some d) key defaults.int = some defaults.int ∧
    dictGetBool (some d) key defaults.bool = some defaults.bool ∧
    dictGetDouble strtod isZero (some d) key defaults.double =
      some defaults.double

section Missing

variable {d : Dict α} {key : CString}

theorem Dict.Missing.keyAt_ne (missing : d.Missing key) (wf : d.WellFormed)
    (i : Nat) : d.keyAt i ≠ some key := fun stored =>
  missing i (wf.in_range i key stored) (Dict.keyAt_eq_some.mp stored)

/-- A key that the represented map does not have is missing. -/
theorem Dict.Represents.missing {m : KeyMap} (represents : d.Represents m)
    (absent : m key = none) : d.Missing key := by
  intro i _ stored
  have value := represents.value i key (Dict.keyAt_eq_some.mpr stored)
  rw [absent] at value
  cases value

/-- For a missing key `dict_get` returns NULL if it returns, whatever the
default is. -/
theorem Dict.Missing.dictGet_eq (missing : d.Missing key) (wf : d.WellFormed)
    (defval : Option CString) {found : Option CString} :
    dictGet (some d) key defval = some found ↔
      d.HasFreeSlot ∧ found = none := by
  have unknown := missing.keyAt_ne wf
  rw [dictGet, Option.bind_eq_bind, Option.bind_eq_some_iff]
  constructor
  · rintro ⟨i, looked, returned⟩
    have finds := (dictLookup_eq_some wf key i).mp looked
    have free := finds.stops.resolve_right (unknown i)
    rw [wf.free_val i free, Option.some.injEq] at returned
    exact ⟨wf.hasFreeSlot_of_finds unknown finds, returned.symm⟩
  · rintro ⟨room, rfl⟩
    obtain ⟨i, finds⟩ := wf.hasFreeSlot_iff.mp room key
    have free := finds.stops.resolve_right (unknown i)
    exact ⟨i, (dictLookup_eq_some wf key i).mpr finds,
      by rw [wf.free_val i free]⟩

/-- A getter that falls back to its default on NULL returns the default for a
missing key exactly if the lookup ends. -/
theorem Dict.Missing.bind_eq (missing : d.Missing key) (wf : d.WellFormed)
    {ν : Type} (convert : Option CString → Option ν) {defval : ν}
    (fallsBack : convert none = some defval) :
    (dictGet (some d) key none).bind convert = some defval ↔
      d.HasFreeSlot := by
  rw [Option.bind_eq_some_iff]
  constructor
  · rintro ⟨found, returned, -⟩
    exact ((missing.dictGet_eq wf none).mp returned).1
  · intro room
    exact ⟨none, (missing.dictGet_eq wf none).mpr ⟨room, rfl⟩, fallsBack⟩

theorem Dict.Missing.getDefaults_iff (missing : d.Missing key)
    (wf : d.WellFormed) (defaults : Defaults δ) :
    d.GetDefaults key defaults ↔ d.HasFreeSlot ∧ defaults.string = none := by
  rw [Dict.GetDefaults, Config.get, missing.dictGet_eq wf, and_self]

theorem Dict.Missing.typedDefaults_iff (missing : d.Missing key)
    (wf : d.WellFormed) (strtod : CString → Conversion δ) (isZero : δ → Bool)
    (defaults : Defaults δ) :
    d.TypedDefaults strtod isZero key defaults ↔ d.HasFreeSlot := by
  have int : dictGetInt (some d) key defaults.int = some defaults.int ↔
      d.HasFreeSlot := missing.bind_eq wf _ rfl
  have bool : dictGetBool (some d) key defaults.bool = some defaults.bool ↔
      d.HasFreeSlot := missing.bind_eq wf _ rfl
  have double : dictGetDouble strtod isZero (some d) key defaults.double =
      some defaults.double ↔ d.HasFreeSlot := missing.bind_eq wf _ rfl
  rw [Dict.TypedDefaults, int, bool, double, and_self, and_self]

end Missing

/-- For a key that no slot holds, all getters return their defaults exactly if
the table has a free slot and the default of `dict_get` is NULL; the typed
getters do so exactly if the table has a free slot. -/
theorem missing_defaults_iff {history : List (DictOp α)} {d : Dict α}
    (reached : dictAfter history = some d) {key : CString}
    (missing : d.Missing key) (strtod : CString → Conversion δ)
    (isZero : δ → Bool) (defaults : Defaults δ) :
    (d.GetDefaults key defaults ∧
        d.TypedDefaults strtod isZero key defaults ↔
      d.HasFreeSlot ∧ defaults.string = none) ∧
    (d.TypedDefaults strtod isZero key defaults ↔ d.HasFreeSlot) := by
  have wf := wellFormed_of_dictAfter reached
  rw [missing.getDefaults_iff wf, missing.typedDefaults_iff wf]
  exact ⟨⟨fun both => both.1, fun both => ⟨both, both.1⟩⟩, Iff.rfl⟩

theorem missing_defaults_iff_new :
    ((dictNew : Dict Unit).GetDefaults (.ofLiteral "A")
          ⟨none, 1, true, (2 : Int)⟩ ∧
        (dictNew : Dict Unit).TypedDefaults strtol (· == 0) (.ofLiteral "A")
          ⟨none, 1, true, 2⟩ ↔
      (dictNew : Dict Unit).HasFreeSlot ∧
        (⟨none, 1, true, (2 : Int)⟩ : Defaults Int).string = none) ∧
    ((dictNew : Dict Unit).TypedDefaults strtol (· == 0) (.ofLiteral "A")
        ⟨none, 1, true, 2⟩ ↔
      (dictNew : Dict Unit).HasFreeSlot) :=
  missing_defaults_iff (show dictAfter [] = some dictNew from rfl)
    (fun _ _ stored => by cases stored) _ _ _

/-- An empty configuration answers NULL instead of the server name that the
caller offers. -/
theorem default_not_returned :
    dictAfter [] = some (dictNew : Dict Unit) ∧
      (dictNew : Dict Unit).Missing (.ofLiteral "core.servername") ∧
      ¬(dictNew : Dict Unit).GetDefaults (.ofLiteral "core.servername")
        ⟨some (.ofLiteral "hamchat.local"), 0, false, (0 : Int)⟩ := by
  refine ⟨rfl, fun _ _ => SlotKey.noConfusion, ?_⟩
  rintro ⟨returned, -⟩
  have null : dictGet (some (dictNew : Dict Unit))
      (.ofLiteral "core.servername") (some (.ofLiteral "hamchat.local")) =
        some none := by
    decide +kernel
  rw [null] at returned
  cases returned

end Hamchat
