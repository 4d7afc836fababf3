import Hamchat.Config.Reading
import Hamchat.Numbers
import Hamchat.Rig

/-!
# The radio sections of the configuration file

`Config::ParseSection("radio")` from `src/config.cpp`, over the tables of
`src/rig.cpp`.  A section `[radio3]` sets up the rig 3, and its lines name the
driver and the model of the rig and ask for a connection.

The number of the rig is checked against `max_rigs` itself, the search for a
driver does not end with the table, and no line is checked for its words.  So
each access is explicit here, and one that the language leaves undefined stops
the run.  Reports to the log are left out.
-/

namespace Hamchat

/-! ## Tables -/

/-- `MAX_RIGS` -/
def maxRigs : Nat := 8

/-- `struct rig_driver_name` -/
structure RigDriverName where
  /-- `enum rig_driver_t driver` -/
  driver : RigDriver
  /-- `const char *name` -/
  name : Option CString

/-- `rig_driver_names` -/
def rigDriverNames : List RigDriverName :=
  [⟨.none, some (.ofLiteral "NONE")⟩,
    ⟨.hamlib, some (.ofLiteral "hamlib")⟩,
    ⟨.flrig, some (.ofLiteral "flrig")⟩,
    ⟨.serialPtt, some (.ofLiteral "serial-ptt")⟩,
    ⟨.none, none⟩]

/-- What a radio section sets up of a `Rig`.  `new Rig` leaves the driver and the
model without a value. -/
structure RigSetup where
  /-- `int id` -/
  id : Int
  /-- `enum rig_driver_t driver` -/
  driver : Option RigDriver
  /-- `int model` -/
  model : Option Int
  deriving DecidableEq

/-- `Rig *rigs[MAX_RIGS]` -/
abbrev Rigs := Fin maxRigs → Option RigSetup

/-! ## One line of a radio section -/

/-- What stops `Config::ParseSection` in a radio section. -/
inductive RadioStop
  /-- An access to `rigs` at an index that it does not have. -/
  | rigs (index : Int)
  /-- An access to `rig_driver_names` behind its last entry. -/
  | rigDriverNames (index : Nat)
  /-- `strncasecmp(NULL, ...)` for the key. -/
  | missingKey
  /-- `strncasecmp(NULL, ...)` or `atoi(NULL)` for the value. -/
  | missingVal
  /-- `shutdown`, in a connection that fails. -/
  | shutdown
  deriving DecidableEq

/-- `rigs[rig_id]`, as a place of the array. -/
def rigIndex (rigId : Int) : Except RadioStop (Fin maxRigs) :=
  if inside : 0 ≤ rigId ∧ rigId < maxRigs then
    .ok ⟨rigId.toNat, by omega⟩
  else
    .error (.rigs rigId)

/-- The search for the driver, from the entry `i` on, for the rounds that are
left.  An entry without a name is passed over. -/
def findDriver (val : Option CString) : (left i : Nat) →
    Except RadioStop (Option RigDriver)
  | 0, _ => .ok none
  | left + 1, i =>
      match rigDriverNames[i]? with
      | none => .error (.rigDriverNames i)
      | some ⟨_, none⟩ => findDriver val left (i + 1)
      | some ⟨driver, some name⟩ =>
          match val with
          | none => .error .missingVal
          | some val =>
              if val.sameIgnoringCaseUpTo name.length name then
                .ok (some driver)
              else
                findDriver (some val) left (i + 1)

/-- The key `driver`, which is compared in six bytes. -/
def isDriverKey (key : CString) : Bool :=
  key.sameIgnoringCaseUpTo 6 (.ofLiteral "driver")

/-- The key `model`, which is compared in five bytes. -/
def isModelKey (key : CString) : Bool :=
  key.sameIgnoringCaseUpTo 5 (.ofLiteral "model")

/-- The key `enabled`, which is compared in seven bytes. -/
def isEnabledKey (key : CString) : Bool :=
  key.sameIgnoringCaseUpTo 7 (.ofLiteral "enabled")

/-- The part of the line that works on the rig.  A call of `Rig::Connect` returns
or shuts the program down. -/
def setUpRig (returns : Bool) (rig : RigSetup) (key val : Option CString) :
    Except RadioStop RigSetup :=
  match key with
  | none => .error .missingKey
  | some key =>
      if isDriverKey key then
        (findDriver val 16 0).map fun found =>
          { rig with driver := found <|> rig.driver }
      else if isModelKey key then
        match val with
        | none => .error .missingVal
        | some val => .ok { rig with model := some (atoi val) }
      else if isEnabledKey key then
        if returns then .ok rig else .error .shutdown
      else
        .ok rig

/-- A line of a radio section. -/
def radioLine (returns : Bool) (rigs : Rigs) (thisSection skip : CString) :
    Except RadioStop Rigs :=
  let rigId := atoi (thisSection.drop 5)
  if rigId < 0 ∨ rigId > maxRigs then
    .ok rigs
  else do
    let index ← rigIndex rigId
    let rig := (rigs index).getD ⟨rigId, none, none⟩
    let (key, rest) := strtok skip
    let (val, _) := strtok rest
    let rig ← setUpRig returns rig key val
    return Function.update rigs index (some rig)

/-! ## The loop -/

/-- What `Config::ParseSection` takes a line for. -/
inductive LineKind
  /-- An empty line or a comment. -/
  | skipped
  /-- A section header. -/
  | header (name : CString)
  /-- A line for the current section. -/
  | content (skip : CString)
  deriving DecidableEq

/-- The tests of `Config::ParseSection` in front of its sections. -/
def lineKind (buf : CString) : LineKind :=
  let blanks := (buf.takeWhile (· == 32)).length
  let text := buf.rdropWhile isNewline
  let skip := text.drop blanks
  let first := skip.bytes.headD 0
  let last := skip.bytes.getLastD 0
  if (text.length : Int) - 1 - blanks ≤ 0 then
    .skipped
  else if (first = 47 ∧ first.toNat + 1 = 47) ∨ first = 35 ∨ first = 59 then
    .skipped
  else if first = 91 ∧ last = 93 then
    .header ((skip.drop 1).strndup (skip.length - 2))
  else
    .content skip

/-- What the loop works on when it parses the section `radio`. -/
structure RadioState where
  /-- `char *this_section` -/
  thisSection : Option CString
  /-- `rigs` -/
  rigs : Rigs

/-- The text `radio`. -/
def radioName : CString := .ofLiteral "radio"

/-- The body of the loop of `Config::ParseSection("radio")`. -/
def parseRadioLine (returns : Bool) (state : RadioState) (buf : CString) :
    Except RadioStop RadioState :=
  match lineKind buf with
  | .skipped => .ok state
  | .header name => .ok { state with thisSection := some name }
  | .content skip =>
      match state.thisSection with
      | none => .ok state
      | some thisSection =>
          if !radioName.sameIgnoringCaseUpTo radioName.length thisSection then
            .ok state
          else
            (radioLine returns state.rigs thisSection skip).map fun rigs =>
              { state with rigs }

/-- The loop of `Config::ParseSection("radio")`, for at most `fuel` rounds.  The
calls of `Rig::Connect` are told apart by the line that makes them. -/
def parseRadioLoop (returns : (line : Nat) → Bool) : (fuel line : Nat) →
    (file : List UInt8) → RadioState → Option (Except RadioStop RadioState)
  | 0, _, _, _ => none
  | fuel + 1, line, file, state =>
      let (buf, rest, eof) := fgets 766 file
      match parseRadioLine (returns line) state (.read buf) with
      | .error stop => some (.error stop)
      | .ok state =>
          if eof then
            some (.ok state)
          else
            parseRadioLoop returns fuel (line + 1) rest state

/-- `Config::ParseSection("radio")` -/
def parseRadio (returns : (line : Nat) → Bool) (file : List UInt8)
    (rigs : Rigs) : Option (Except RadioStop RadioState) :=
  parseRadioLoop returns (file.length + 1) 1 file ⟨none, rigs⟩

/-! ## The tests of the loop -/

/-- What the loop does with a line of another section than the radios. -/
def storeKind (sectionName : CString) (state : ConfigState) :
    LineKind → ConfigState
  | .skipped => state
  | .header name => { state with thisSection := some name }
  | .content skip => storeLine sectionName state skip

/-- The loop makes the same tests whatever section it parses. -/
theorem parseLine_eq_storeKind (sectionName : CString) (state : ConfigState)
    (buf : CString) :
    parseLine sectionName state buf =
      storeKind sectionName state (lineKind buf) := by
  unfold parseLine lineKind
  simp only
  split
  · rfl
  · split
    · rfl
    · split <;> rfl

/-- Two strings that agree up to a positive count begin with the same letter. -/
theorem head_of_sameIgnoringCaseUpTo {count : Nat} {left right : CString}
    (same : left.sameIgnoringCaseUpTo (count + 1) right = true) :
    left.bytes.head?.map CString.toLower =
      right.bytes.head?.map CString.toLower := by
  have heads := congrArg List.head? (eq_of_beq same)
  simpa only [List.head?_map, List.head?_take, Nat.add_one_ne_zero,
    if_false] using heads

/-- A string that passes one comparison fails those with another first
letter. -/
theorem differs_of_same {other : Nat} {text word : CString}
    (same : text.bytes.head?.map CString.toLower =
      word.bytes.head?.map CString.toLower)
    {rival : CString}
    (different : word.bytes.head?.map CString.toLower ≠
      rival.bytes.head?.map CString.toLower) :
    text.sameIgnoringCaseUpTo (other + 1) rival = false := by
  refine Bool.eq_false_iff.mpr fun alsoSame => different ?_
  rw [← same, head_of_sameIgnoringCaseUpTo alsoSame]

/-- The tests for `general` and `listen` fail in a radio section. -/
theorem other_sections {thisSection : CString}
    (radio : radioName.sameIgnoringCaseUpTo radioName.length thisSection = true) :
    thisSection.sameIgnoringCaseUpTo 7 generalName = false ∧
      thisSection.sameIgnoringCaseUpTo 6 (.ofLiteral "listen") = false :=
  have first := (head_of_sameIgnoringCaseUpTo radio).symm
  ⟨differs_of_same first (by decide), differs_of_same first (by decide)⟩

theorem not_isModelKey {key : CString} (driver : isDriverKey key = true) :
    isModelKey key = false :=
  differs_of_same (head_of_sameIgnoringCaseUpTo driver) (by decide)

theorem not_isDriverKey {key : CString} (enabled : isEnabledKey key = true) :
    isDriverKey key = false ∧ isModelKey key = false :=
  have first := head_of_sameIgnoringCaseUpTo enabled
  ⟨differs_of_same first (by decide), differs_of_same first (by decide)⟩

/-! ## Which lines are handled -/

/-- A run that has made no undefined access: it has ended or shut the program
down. -/
def IsDefined {σ : Type} : Except RadioStop σ → Prop
  | .ok _ => True
  | .error stop => stop = .shutdown

section Map

variable {σ τ : Type} (result : Except RadioStop σ) (convert : σ → τ)

@[simp] theorem isDefined_ok (value : σ) :
    IsDefined (.ok value : Except RadioStop σ) :=
  trivial

@[simp] theorem isDefined_error (stop : RadioStop) :
    IsDefined (.error stop : Except RadioStop σ) ↔ stop = .shutdown :=
  Iff.rfl

/-- What is done with a result makes no access. -/
@[simp] theorem isDefined_map :
    IsDefined (result.map convert) ↔ IsDefined result := by
  cases result <;> rfl

@[simp] theorem map_eq_error_iff {stop : RadioStop} :
    result.map convert = .error stop ↔ result = .error stop := by
  cases result <;> simp [Except.map]

end Map

/-- The test of the search for a driver at one entry of the table. -/
def RigDriverName.fits (val : CString) (entry : RigDriverName) : Bool :=
  entry.name.any fun name => val.sameIgnoringCaseUpTo name.length name

/-- A value that begins with the name of a driver, in letters of either case. -/
def isDriverName (val : CString) : Bool :=
  rigDriverNames.any (RigDriverName.fits val)

/-- The words that a line has are those that its handling reads. -/
def HasWords (key val : Option CString) : Prop :=
  ∃ word, key = some word ∧
    (isDriverKey word = true → val.any isDriverName = true) ∧
    (isModelKey word = true → val.isSome = true)

/-- The search at an entry of the table. -/
theorem findDriver_of_lt (val : CString) {left i : Nat}
    (inside : i < rigDriverNames.length) :
    findDriver (some val) (left + 1) i =
      if rigDriverNames[i].fits val then .ok (some rigDriverNames[i].driver)
      else findDriver (some val) left (i + 1) := by
  rw [findDriver, List.getElem?_eq_getElem inside]
  cases entry : rigDriverNames[i] with
  | mk driver name =>
      cases name with
      | none => rfl
      | some name => rfl

/-- A search finds a driver whose name the value begins with. -/
theorem findDriver_of_fits {val : CString} {left i : Nat}
    (enough : rigDriverNames.length ≤ i + left)
    (fits : (rigDriverNames.drop i).any (RigDriverName.fits val) = true) :
    ∃ driver, findDriver (some val) left i = .ok (some driver) := by
  induction left generalizing i with
  | zero =>
      rw [List.drop_eq_nil_of_le (show rigDriverNames.length ≤ i from enough)]
        at fits
      exact absurd fits Bool.false_ne_true
  | succ left inductionHypothesis =>
      have inside : i < rigDriverNames.length := by
        refine Nat.lt_of_not_le fun outside => ?_
        rw [List.drop_eq_nil_of_le outside] at fits
        exact absurd fits Bool.false_ne_true
      rw [findDriver_of_lt val inside]
      rw [List.drop_eq_getElem_cons inside, List.any_cons] at fits
      cases here : rigDriverNames[i].fits val with
      | true => exact ⟨_, if_pos rfl⟩
      | false =>
          rw [here, Bool.false_or] at fits
          rw [if_neg Bool.false_ne_true]
          exact inductionHypothesis (by omega) fits

/-- A search without success reads behind the table. -/
theorem findDriver_of_not_fits {val : CString} {left i : Nat}
    (inside : i ≤ rigDriverNames.length)
    (more : rigDriverNames.length < i + left)
    (fits : (rigDriverNames.drop i).any (RigDriverName.fits val) = false) :
    findDriver (some val) left i =
      .error (.rigDriverNames rigDriverNames.length) := by
  induction left generalizing i with
  | zero => omega
  | succ left inductionHypothesis =>
      rcases Nat.eq_or_lt_of_le inside with rfl | inside
      · rw [findDriver, List.getElem?_eq_none (Nat.le_refl _)]
      · rw [List.drop_eq_getElem_cons inside, List.any_cons,
          Bool.or_eq_false_iff] at fits
        rw [findDriver_of_lt val inside, if_neg (Bool.eq_false_iff.mp fits.1)]
        exact inductionHypothesis inside (by omega) fits.2

/-- The whole search makes no undefined access for the names of the drivers, and
only for them. -/
theorem findDriver_defined_iff (val : Option CString) :
    IsDefined (findDriver val 16 0) ↔ val.any isDriverName = true := by
  cases val with
  | none => exact iff_of_false RadioStop.noConfusion Bool.false_ne_true
  | some val =>
      have enough : rigDriverNames.length < 0 + 16 := by decide
      rw [Option.any_some]
      cases fits : isDriverName val with
      | true =>
          obtain ⟨driver, found⟩ := findDriver_of_fits (Nat.le_of_lt enough) fits
          rw [found]
          exact iff_of_true trivial rfl
      | false =>
          rw [findDriver_of_not_fits (Nat.zero_le _) enough fits]
          exact iff_of_false RadioStop.noConfusion Bool.false_ne_true

/-- The search does not shut the program down. -/
theorem findDriver_ne_shutdown (val : Option CString) (left i : Nat) :
    findDriver val left i ≠ .error .shutdown := by
  induction left generalizing i with
  | zero => simp [findDriver]
  | succ left inductionHypothesis =>
      rw [findDriver]
      split
      · simp
      · exact inductionHypothesis (i + 1)
      · split
        · simp
        · split
          · simp
          · exact inductionHypothesis (i + 1)

section SetUp

variable (returns : Bool) (rig : RigSetup) (key val : Option CString)

/-- Setting up a rig makes no undefined access exactly if it has its words. -/
theorem setUpRig_defined_iff :
    IsDefined (setUpRig returns rig key val) ↔ HasWords key val := by
  cases key with
  | none => simp [setUpRig, HasWords]
  | some word =>
      have words : HasWords (some word) val ↔
          (isDriverKey word = true → val.any isDriverName = true) ∧
            (isModelKey word = true → val.isSome = true) := by
        simp [HasWords]
      rw [words]
      unfold setUpRig
      dsimp only
      cases driver : isDriverKey word with
      | true =>
          rw [not_isModelKey driver]
          simp [findDriver_defined_iff]
      | false =>
          cases model : isModelKey word with
          | true => cases val <;> simp
          | false =>
              cases isEnabledKey word <;> cases returns <;> simp

/-- Setting up a rig shuts the program down exactly if the line asks for a
connection that does not return. -/
theorem setUpRig_eq_shutdown_iff :
    setUpRig returns rig key val = .error .shutdown ↔
      key.any isEnabledKey = true ∧ returns = false := by
  cases key with
  | none => simp [setUpRig]
  | some word =>
      rw [Option.any_some]
      unfold setUpRig
      dsimp only
      cases enabled : isEnabledKey word with
      | true =>
          rw [(not_isDriverKey enabled).1, (not_isDriverKey enabled).2]
          cases returns <;> simp
      | false =>
          refine iff_of_false ?_ (fun both => Bool.false_ne_true both.1)
          cases isDriverKey word with
          | true => simp [findDriver_ne_shutdown]
          | false => cases isModelKey word <;> cases val <;> simp

end SetUp

/-! ## One line -/

/-- A line of a radio section, as the loop finds it. -/
structure RadioLine where
  /-- The number of the line. -/
  number : Nat
  /-- The name of its section. -/
  thisSection : CString
  /-- The line itself. -/
  skip : CString

namespace RadioLine

/-- `int rig_id` -/
def rigId (line : RadioLine) : Int := atoi (line.thisSection.drop 5)

/-- The first word of the line. -/
def key (line : RadioLine) : Option CString := (strtok line.skip).1

/-- The second word of the line. -/
def val (line : RadioLine) : Option CString :=
  (strtok (strtok line.skip).2).1

/-- The section is refused, or it is one of `rigs` and the line has its words. -/
def IsSafe (line : RadioLine) : Prop :=
  line.rigId < 0 ∨ maxRigs < line.rigId ∨
    line.rigId ≠ maxRigs ∧ HasWords line.key line.val

/-- The line calls `Rig::Connect`. -/
def Connects (line : RadioLine) : Prop :=
  0 ≤ line.rigId ∧ line.rigId < maxRigs ∧ line.key.any isEnabledKey = true

/-- The parser goes on behind the line. -/
def Returns (returns : (line : Nat) → Bool) (line : RadioLine) : Prop :=
  line.Connects → returns line.number = true

/-- What the code does with the line. -/
def handle (returns : Bool) (rigs : Rigs) (line : RadioLine) :
    Except RadioStop Rigs :=
  radioLine returns rigs line.thisSection line.skip

variable (returns : Bool) (rigs : Rigs) (line : RadioLine)

theorem handle_of_refused (refused : line.rigId < 0 ∨ maxRigs < line.rigId) :
    line.handle returns rigs = .ok rigs :=
  if_pos refused

theorem handle_of_outside (outside : line.rigId = maxRigs) :
    line.handle returns rigs = .error (.rigs maxRigs) := by
  have index : rigIndex (atoi (line.thisSection.drop 5)) =
      .error (.rigs maxRigs) := by
    rw [show atoi (line.thisSection.drop 5) = maxRigs from outside]
    rfl
  unfold handle radioLine
  dsimp only
  rw [index, if_neg (by rw [show atoi _ = _ from outside]; decide)]
  rfl

theorem handle_of_inside (inside : 0 ≤ line.rigId ∧ line.rigId < maxRigs) :
    ∃ (rig : RigSetup) (store : RigSetup → Rigs),
      line.handle returns rigs =
        (setUpRig returns rig line.key line.val).map store := by
  have index : rigIndex (atoi (line.thisSection.drop 5)) =
      .ok ⟨line.rigId.toNat, by omega⟩ := dif_pos inside
  have accepted : ¬(atoi (line.thisSection.drop 5) < 0 ∨
      atoi (line.thisSection.drop 5) > maxRigs) := by
    rw [← rigId]
    omega
  unfold handle radioLine
  dsimp only
  rw [index, if_neg accepted]
  exact ⟨_, _, rfl⟩

/-- Handling a line makes no undefined access exactly if the line is safe. -/
theorem handle_defined_iff :
    IsDefined (line.handle returns rigs) ↔ line.IsSafe := by
  by_cases refused : line.rigId < 0 ∨ maxRigs < line.rigId
  · rw [handle_of_refused returns rigs line refused]
    exact iff_of_true trivial (or_assoc.mp (.inl refused))
  · rw [IsSafe, ← or_assoc, or_iff_right refused]
    by_cases outside : line.rigId = maxRigs
    · rw [handle_of_outside returns rigs line outside]
      exact iff_of_false RadioStop.noConfusion fun safe => safe.1 outside
    · obtain ⟨rig, store, handled⟩ :=
        handle_of_inside returns rigs line (by omega)
      rw [handled, isDefined_map, setUpRig_defined_iff]
      exact (and_iff_right outside).symm

/-- Handling a line shuts the program down exactly if a connection does not
return. -/
theorem handle_eq_shutdown_iff :
    line.handle returns rigs = .error .shutdown ↔
      line.Connects ∧ returns = false := by
  by_cases refused : line.rigId < 0 ∨ maxRigs < line.rigId
  · rw [handle_of_refused returns rigs line refused]
    refine iff_of_false (by simp) ?_
    rintro ⟨⟨nonneg, bound, -⟩, -⟩
    omega
  · by_cases outside : line.rigId = maxRigs
    · rw [handle_of_outside returns rigs line outside]
      refine iff_of_false (by simp) ?_
      rintro ⟨⟨-, bound, -⟩, -⟩
      omega
    · have inside : 0 ≤ line.rigId ∧ line.rigId < maxRigs := by omega
      obtain ⟨rig, store, handled⟩ := handle_of_inside returns rigs line inside
      rw [handled, map_eq_error_iff, setUpRig_eq_shutdown_iff, Connects,
        ← and_assoc, and_iff_right inside]

end RadioLine

/-! ## The whole file -/

/-- The lines of the radio sections among the strings that the loop reads. -/
def radioLines : (thisSection : Option CString) → (line : Nat) →
    List CString → List RadioLine
  | _, _, [] => []
  | thisSection, line, buf :: later =>
      match lineKind buf with
      | .skipped => radioLines thisSection (line + 1) later
      | .header name => radioLines (some name) (line + 1) later
      | .content skip =>
          ((thisSection.filter fun name =>
              radioName.sameIgnoringCaseUpTo radioName.length name).toList.map
            fun name => ⟨line, name, skip⟩) ++
            radioLines thisSection (line + 1) later

/-- The lines of the radio sections of a file. -/
def fileRadioLines (file : List UInt8) : List RadioLine :=
  radioLines none 1 (fileReads (file.length + 1) file)

/-- The rounds of the loop, over the strings that they read. -/
def parseRadioLines (returns : (line : Nat) → Bool) : (line : Nat) →
    List CString → RadioState → Except RadioStop RadioState
  | _, [], state => .ok state
  | line, buf :: later, state => do
      let state ← parseRadioLine (returns line) state buf
      parseRadioLines returns (line + 1) later state

/-- The loop ends, and its rounds handle the strings that it reads. -/
theorem parseRadioLoop_eq (returns : (line : Nat) → Bool) {fuel line : Nat}
    {file : List UInt8} (enough : file.length < fuel) (state : RadioState) :
    parseRadioLoop returns fuel line file state =
      some (parseRadioLines returns line (fileReads fuel file) state) := by
  induction fuel generalizing line file state with
  | zero => exact absurd enough (Nat.not_lt_zero _)
  | succ fuel inductionHypothesis =>
      have shorter := @fgets_rest_lt 765 file
      rw [parseRadioLoop, fileReads]
      generalize fgets 766 file = reading at shorter
      obtain ⟨buf, rest, eof⟩ := reading
      rw [parseRadioLines]
      dsimp only at shorter ⊢
      cases parseRadioLine (returns line) state (.read buf) with
      | error stop => rfl
      | ok next =>
          cases eof with
          | true => rfl
          | false =>
              exact inductionHypothesis
                (Nat.lt_of_lt_of_le (shorter rfl) (Nat.le_of_lt_succ enough))
                next

/-- The lines that the loop reaches are safe; it does not reach those behind a
connection that does not return. -/
def ReachedAreSafe (returns : (line : Nat) → Bool) (lines : List RadioLine) :
    Prop :=
  ∀ before line after, lines = before ++ line :: after →
    (∀ earlier ∈ before, earlier.Returns returns) → line.IsSafe

section Reached

variable (returns : (line : Nat) → Bool)

theorem reachedAreSafe_nil : ReachedAreSafe returns [] := by
  intro before line after split
  exact absurd split (by simp)

theorem reachedAreSafe_cons (line : RadioLine) (later : List RadioLine) :
    ReachedAreSafe returns (line :: later) ↔
      line.IsSafe ∧ (line.Returns returns → ReachedAreSafe returns later) := by
  constructor
  · intro safe
    refine ⟨safe [] line later rfl (by simp), fun returned => ?_⟩
    intro before other after split reached
    refine safe (line :: before) other after (by rw [split]; rfl) ?_
    exact List.forall_mem_cons.mpr ⟨returned, reached⟩
  · rintro ⟨first, rest⟩ before other after split reached
    cases before with
    | nil =>
        obtain ⟨rfl, -⟩ := List.cons.inj split
        exact first
    | cons _ before =>
        obtain ⟨rfl, behind⟩ := List.cons.inj split
        obtain ⟨returned, reached⟩ := List.forall_mem_cons.mp reached
        exact rest returned before other after behind reached

/-- What follows a line counts if the line is safe and returns. -/
theorem RadioLine.handle_bind_defined_iff (line : RadioLine) (rigs : Rigs)
    {next : Rigs → Except RadioStop RadioState} {later : Prop}
    (followed : ∀ rigs, IsDefined (next rigs) ↔ later) :
    IsDefined (line.handle (returns line.number) rigs >>= next) ↔
      line.IsSafe ∧ (line.Returns returns → later) := by
  have defined := line.handle_defined_iff (returns line.number) rigs
  have shutdown := line.handle_eq_shutdown_iff (returns line.number) rigs
  cases result : line.handle (returns line.number) rigs with
  | ok rigs =>
      rw [result] at defined shutdown
      have returned : line.Returns returns := by
        intro connects
        refine Bool.eq_true_of_not_eq_false fun refused => ?_
        exact absurd (shutdown.mpr ⟨connects, refused⟩) (by simp)
      rw [and_iff_right (defined.mp trivial), forall_prop_of_true returned]
      exact followed rigs
  | error stop =>
      rw [result] at defined shutdown
      refine defined.trans ⟨fun safe => ⟨safe, fun returned => ?_⟩, And.left⟩
      obtain ⟨connects, refused⟩ :=
        shutdown.mp (congrArg Except.error (defined.mpr safe))
      exact absurd (returned connects) (by simp [refused])

/-- The rounds make no undefined access exactly if the lines that they reach are
safe. -/
theorem parseRadioLines_defined_iff (line : Nat) (bufs : List CString)
    (state : RadioState) :
    IsDefined (parseRadioLines returns line bufs state) ↔
      ReachedAreSafe returns (radioLines state.thisSection line bufs) := by
  induction bufs generalizing line state with
  | nil => exact iff_of_true trivial (reachedAreSafe_nil returns)
  | cons buf later inductionHypothesis =>
      rw [parseRadioLines, radioLines, parseRadioLine]
      cases lineKind buf with
      | skipped => exact inductionHypothesis (line + 1) state
      | header name => exact inductionHypothesis (line + 1) _
      | content skip =>
          obtain ⟨thisSection, rigs⟩ := state
          cases thisSection with
          | none => exact inductionHypothesis (line + 1) _
          | some name =>
              rw [Option.filter_some]
              dsimp only
              cases radioName.sameIgnoringCaseUpTo radioName.length name with
              | false => exact inductionHypothesis (line + 1) _
              | true =>
                  have followed (rigs : Rigs) :
                      IsDefined (parseRadioLines returns (line + 1) later
                        ⟨some name, rigs⟩) ↔
                      ReachedAreSafe returns
                        (radioLines (some name) (line + 1) later) :=
                    inductionHypothesis (line + 1) _
                  have step := RadioLine.handle_bind_defined_iff returns
                    ⟨line, name, skip⟩ rigs followed
                  rw [← reachedAreSafe_cons] at step
                  refine Iff.trans ?_ step
                  rw [RadioLine.handle]
                  dsimp only [Bool.not_true]
                  cases radioLine (returns line) rigs name skip <;> rfl

end Reached

/-- Parsing the radio sections of a file ends, and it stays inside `rigs` and
`rig_driver_names` and reads no missing word, exactly if each radio line that is
reached names a section outside `0` to `MAX_RIGS`, or one below `MAX_RIGS` and
has the words that it needs. -/
theorem parseRadio_defined_iff (returns : (line : Nat) → Bool)
    (file : List UInt8) (rigs : Rigs) :
    (∃ result, parseRadio returns file rigs = some result ∧
        IsDefined result) ↔
      ReachedAreSafe returns (fileRadioLines file) := by
  rw [parseRadio, parseRadioLoop_eq returns (Nat.lt_succ_self _)]
  have rounds := parseRadioLines_defined_iff returns 1
    (fileReads (file.length + 1) file) ⟨none, rigs⟩
  constructor
  · rintro ⟨result, found, defined⟩
    exact rounds.mp (Option.some.inj found ▸ defined)
  · intro safe
    exact ⟨_, rfl, rounds.mpr safe⟩

/-- The bytes of a text. -/
def textBytes (text : String) : List UInt8 := (CString.ofLiteral text).bytes

/-- The rigs before the file has been read. -/
def Rigs.empty : Rigs := fun _ => none

/-- A section `[radio8]`, an unknown driver, a line without words and a model
without a value each make an undefined access. -/
theorem radio_sections_undefined :
    parseRadio (fun _ => true) (textBytes "[radio8]\nmodel 1\n") .empty =
      some (.error (.rigs 8)) ∧
    parseRadio (fun _ => true) (textBytes "[radio0]\ndriver foo\n") .empty =
      some (.error (.rigDriverNames 5)) ∧
    parseRadio (fun _ => true) (textBytes "[radio0]\n==\n") .empty =
      some (.error .missingKey) ∧
    parseRadio (fun _ => true) (textBytes "[radio0]\nmodel\n") .empty =
      some (.error .missingVal) ∧
    ¬∀ returns file rigs, ∃ result,
      parseRadio returns file rigs = some result ∧ IsDefined result := by
  refine ⟨rfl, rfl, rfl, rfl, fun defined => ?_⟩
  obtain ⟨result, parsed, defined⟩ := defined (fun _ => true)
    (textBytes "[radio8]\nmodel 1\n") .empty
  have fault : parseRadio (fun _ => true) (textBytes "[radio8]\nmodel 1\n")
      .empty = some (.error (.rigs 8)) := rfl
  rw [← Option.some.inj (fault.symm.trans parsed)] at defined
  exact absurd defined (by simp)

end Hamchat
