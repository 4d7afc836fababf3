import Hamchat.Config.General

/-!
# Which files are read as written

The store after a file follows from its entries: a key is set if an entry has
it, and its value is the last word that an entry has for it.
-/

namespace Hamchat

/-- The word that an entry is stored with. -/
def ConfigEntry.word : ConfigEntry → Option CString
  | .assigned _ value => (strtok value).1
  | .comment _ word | .foreign _ word => word

/-- The word that an entry has for a key. -/
def ConfigEntry.wordFor (key : CString) (entry : ConfigEntry) :
    Option CString :=
  if entry.key = key then entry.word else none

/-- The store after some entries. -/
def storeEntries (entries : List ConfigEntry) : KeyMap :=
  entries.foldl (fun data entry => data.add entry.key entry.word)
    KeyMap.empty

/-! ## The entries of a file -/

section Lines

variable {line : SectionLine} {current : Option CString}
  {lines : List CString}

/-- A line of a section is not a header, and it is the text of a line of the
file. -/
theorem mem_sectionLines (member : line ∈ sectionLines current lines) :
    (∀ name, ConfigLine.ofText line.text ≠ .header name) ∧
      ∃ source ∈ lines, line.text = lineText source := by
  induction lines generalizing current with
  | nil => cases member
  | cons first lines inductionHypothesis =>
      have later {current : Option CString}
          (member : line ∈ sectionLines current lines) :
          (∀ name, ConfigLine.ofText line.text ≠ .header name) ∧
            ∃ source ∈ first :: lines, line.text = lineText source := by
        obtain ⟨kind, source, inside, same⟩ := inductionHypothesis member
        exact ⟨kind, source, List.mem_cons_of_mem _ inside, same⟩
      rw [sectionLines] at member
      cases kind : ConfigLine.ofText (lineText first) with
      | header name =>
          rw [kind] at member
          exact later member
      | _ =>
          rw [kind] at member
          rcases List.mem_cons.mp member with rfl | member
          · exact ⟨by simp [kind], first, List.mem_cons_self, rfl⟩
          · exact later member

theorem mem_lineText {source : CString} {byte : UInt8}
    (member : byte ∈ (lineText source).bytes) : byte ∈ source.bytes :=
  (List.rdropWhile_prefix _ _).subset ((List.dropWhile_sublist _).subset member)

/-- What a line stores is its entry. -/
theorem SectionLine.words_eq
    (noHeader : ∀ name, ConfigLine.ofText line.text ≠ .header name)
    (noNewline : 10 ∉ line.text.bytes)
    (wellFormed : line.name = some generalName →
      ConfigLine.ofText line.text ≠ .other) :
    line.words = line.entry.map fun entry => (entry.key, entry.word) := by
  rw [SectionLine.words, SectionLine.entry]
  cases named : line.name with
  | none => rfl
  | some name =>
      dsimp only
      by_cases general : name = generalName
      · have matched : name.sameIgnoringCaseUpTo 7 generalName = true := by
          rw [general]
          decide
        rw [if_pos matched, if_pos general]
        cases kind : ConfigLine.ofText line.text with
        | blank => exact lineWords_of_hidden (.inl kind)
        | header name => exact absurd kind (noHeader name)
        | comment slashes =>
            cases slashes with
            | false => exact lineWords_of_hidden (.inr kind)
            | true => cases lineWords line.text <;> rfl
        | assignment key value => exact lineWords_of_assignment kind noNewline
        | other => exact absurd kind (wellFormed (by rw [named, general]))
      · rw [if_neg general]
        split
        · cases lineWords line.text <;> rfl
        · rfl

end Lines

/-- The store after reading a file holds its entries. -/
theorem configNew_eq_storeEntries (file : ConfigFile)
    (wellFormed : file.WellFormed) :
    configNew file.bytes = some (storeEntries file.entries) := by
  have words : file.body.filterMap SectionLine.words =
      file.entries.map fun entry => (entry.key, entry.word) := by
    rw [ConfigFile.entries, List.map_filterMap]
    refine List.filterMap_congr fun line member => ?_
    obtain ⟨noHeader, source, inside, same⟩ := mem_sectionLines member
    refine SectionLine.words_eq noHeader (fun newline => ?_)
      (wellFormed line member)
    rw [same] at newline
    exact file.noNewline source inside (mem_lineText newline)
  rw [configNew_eq, foldl_parseText]
  show some ((file.body.filterMap SectionLine.words).foldl addWords _) = _
  rw [words, List.foldl_map]
  rfl

/-! ## The store -/

/-- The last result of a search from the end. -/
theorem findSome?_reverse_eq_some_iff {α β : Type} {f : α → Option β}
    {list : List α} {result : β} :
    list.reverse.findSome? f = some result ↔
      ∃ before last after, list = before ++ last :: after ∧
        f last = some result ∧ ∀ item ∈ after, f item = none := by
  rw [List.findSome?_eq_some_iff]
  constructor
  · rintro ⟨after, last, before, split, found, none⟩
    refine ⟨before.reverse, last, after.reverse, ?_, found, ?_⟩
    · rw [← List.reverse_reverse list, split]
      simp
    · intro item member
      exact none item (List.mem_reverse.mp member)
  · rintro ⟨before, last, after, rfl, found, none⟩
    refine ⟨after.reverse, last, before.reverse, by simp, found, ?_⟩
    intro item member
    exact none item (List.mem_reverse.mp member)

/-- A key is set if an entry has it, to the last word that an entry has for
it. -/
theorem storeEntries_eq (entries : List ConfigEntry) (key : CString) :
    storeEntries entries key =
      if ∃ entry ∈ entries, entry.key = key then
        some (entries.reverse.findSome? (ConfigEntry.wordFor key))
      else
        none := by
  induction entries using List.reverseRecOn with
  | nil => simp [storeEntries, KeyMap.empty]
  | append_singleton entries last inductionHypothesis =>
      rw [storeEntries] at inductionHypothesis ⊢
      rw [List.foldl_append, List.foldl_cons, List.foldl_nil, KeyMap.add,
        List.reverse_append, List.reverse_singleton, List.singleton_append,
        List.findSome?_cons]
      by_cases same : last.key = key
      · subst same
        have known : ∃ entry ∈ entries ++ [last], entry.key = last.key :=
          ⟨last, List.mem_append_right _ List.mem_cons_self, rfl⟩
        have before : (entries.foldl (fun data entry =>
            data.add entry.key entry.word) KeyMap.empty last.key).join =
              entries.reverse.findSome? (ConfigEntry.wordFor last.key) := by
          rw [inductionHypothesis]
          split
          · rfl
          · rename_i unknown
            refine (List.findSome?_eq_none_iff.mpr fun entry member => ?_).symm
            refine if_neg fun same => unknown ⟨entry, ?_, same⟩
            exact List.mem_reverse.mp member
        rw [Function.update_self, if_pos known, before, ConfigEntry.wordFor,
          if_pos rfl]
        cases last.word <;> rfl
      · rw [Function.update_of_ne (Ne.symm same), inductionHypothesis,
          ConfigEntry.wordFor, if_neg same]
        simp [same]

/-- An entry whose word is the last one for its key determines the store. -/
theorem storeEntries_eq_some_some {entries : List ConfigEntry}
    {key value : CString} :
    storeEntries entries key = some (some value) ↔
      ∃ before entry after, entries = before ++ entry :: after ∧
        entry.key = key ∧ entry.word = some value ∧
          ∀ later ∈ after, later.key = key → later.word = none := by
  rw [storeEntries_eq, Option.ite_none_right_eq_some, Option.some.injEq,
    findSome?_reverse_eq_some_iff]
  constructor
  · rintro ⟨-, before, entry, after, split, found, rest⟩
    rw [ConfigEntry.wordFor, Option.ite_none_right_eq_some] at found
    refine ⟨before, entry, after, split, found.1, found.2, ?_⟩
    intro later member same
    have unset := rest later member
    rwa [ConfigEntry.wordFor, if_pos same] at unset
  · rintro ⟨before, entry, after, rfl, same, word, rest⟩
    refine ⟨⟨entry, by simp, same⟩, before, entry, after, rfl, ?_, ?_⟩
    · rw [ConfigEntry.wordFor, if_pos same, word]
    · intro later member
      rw [ConfigEntry.wordFor]
      split
      · rename_i sameKey
        exact rest later member sameKey
      · rfl

theorem storeEntries_eq_none {entries : List ConfigEntry} {key : CString} :
    storeEntries entries key = none ↔ ∀ entry ∈ entries, entry.key ≠ key := by
  rw [storeEntries_eq]
  simp

/-- The last assignment to a key. -/
theorem lastAssigned_eq_some {entries : List ConfigEntry}
    {key value : CString} :
    lastAssigned entries key = some value ↔
      ∃ before after, entries = before ++ .assigned key value :: after ∧
        ∀ other, .assigned key other ∉ after := by
  rw [lastAssigned, findSome?_reverse_eq_some_iff]
  constructor
  · rintro ⟨before, entry, after, rfl, found, rest⟩
    cases entry with
    | assigned other assigned =>
        rw [ConfigEntry.assignedTo, Option.ite_none_right_eq_some] at found
        obtain ⟨rfl, found⟩ := found
        obtain rfl := Option.some.inj found
        refine ⟨before, after, rfl, fun other member => ?_⟩
        have unset := rest _ member
        rw [ConfigEntry.assignedTo, if_pos rfl] at unset
        cases unset
    | comment => cases found
    | foreign => cases found
  · rintro ⟨before, after, rfl, rest⟩
    refine ⟨before, _, after, rfl, if_pos rfl, fun entry member => ?_⟩
    cases entry with
    | assigned other assigned =>
        refine if_neg fun same => ?_
        subst same
        exact rest assigned member
    | comment => rfl
    | foreign => rfl

theorem lastAssigned_eq_none {entries : List ConfigEntry} {key : CString} :
    lastAssigned entries key = none ↔
      ∀ value, .assigned key value ∉ entries := by
  rw [lastAssigned, List.findSome?_eq_none_iff]
  constructor
  · intro unset value member
    have found := unset _ (List.mem_reverse.mpr member)
    rw [ConfigEntry.assignedTo, if_pos rfl] at found
    cases found
  · intro unassigned entry member
    cases entry with
    | assigned other assigned =>
        refine if_neg fun same => ?_
        subst same
        exact unassigned assigned (List.mem_reverse.mp member)
    | comment => rfl
    | foreign => rfl

/-! ## Sound entries -/

/-- What holds of the entries of every file. -/
structure SoundEntries (entries : List ConfigEntry) : Prop where
  /-- The word of an assignment is its value exactly if that is plain. -/
  value : ∀ key value, .assigned key value ∈ entries →
    ((strtok value).1 = some value ↔ IsPlain value)
  /-- Words are plain. -/
  word : ∀ entry ∈ entries, ∀ word, entry.word = some word → IsPlain word
  /-- The key of a comment with two slashes is not assigned. -/
  slashes : ∀ key word value, .comment key word ∈ entries →
    .assigned key value ∉ entries

theorem mem_entries {file : ConfigFile} {entry : ConfigEntry} :
    entry ∈ file.entries ↔ ∃ line ∈ file.body, line.entry = some entry :=
  List.mem_filterMap

/-- What the line of an entry looks like. -/
def ConfigEntry.StandsFor (text : CString) : ConfigEntry → Prop
  | .assigned key value => ConfigLine.ofText text = .assignment key value
  | .comment key word =>
      ConfigLine.ofText text = .comment true ∧
        lineWords text = some (key, word)
  | .foreign key word => lineWords text = some (key, word)

theorem SectionLine.standsFor {line : SectionLine} {entry : ConfigEntry}
    (stores : line.entry = some entry) : entry.StandsFor line.text := by
  rw [SectionLine.entry] at stores
  split at stores
  · cases stores
  split at stores
  · split at stores
    · rename_i kind
      cases stores
      exact kind
    · rename_i kind
      obtain ⟨words, found, rfl⟩ := Option.map_eq_some_iff.mp stores
      exact ⟨kind, found⟩
    · cases stores
  split at stores
  · obtain ⟨words, found, rfl⟩ := Option.map_eq_some_iff.mp stores
    exact found
  · cases stores

/-- The second word of a line is plain. -/
theorem isPlain_of_lineWords {text key word : CString}
    (found : lineWords text = some (key, some word)) : IsPlain word := by
  rw [lineWords_eq, Option.ite_none_left_eq_some] at found
  obtain ⟨first, -, same⟩ := Option.map_eq_some_iff.mp found.2
  exact isPlain_of_strtok (Prod.mk.inj same).2

theorem ConfigFile.sound_entries (file : ConfigFile) :
    SoundEntries file.entries where
  value key value member := by
    obtain ⟨line, inside, stores⟩ := mem_entries.mp member
    obtain ⟨-, source, inFile, same⟩ := mem_sectionLines inside
    obtain ⟨bytes, -, -, nonempty, -⟩ :=
      assignment_eq (SectionLine.standsFor stores)
    refine strtok_eq_self_iff nonempty fun newline => ?_
    refine file.noNewline source inFile (mem_lineText ?_)
    rw [← same, bytes]
    exact List.mem_append_right _ (List.mem_cons_of_mem _ newline)
  word entry member word found := by
    obtain ⟨line, inside, stores⟩ := mem_entries.mp member
    cases entry with
    | assigned key value => exact isPlain_of_strtok found
    | comment key other =>
        obtain rfl : other = some word := found
        exact isPlain_of_lineWords (SectionLine.standsFor stores).2
    | foreign key other =>
        obtain rfl : other = some word := found
        exact isPlain_of_lineWords (SectionLine.standsFor stores)
  slashes key word value commented assigned := by
    obtain ⟨line, -, stores⟩ := mem_entries.mp commented
    obtain ⟨kind, found⟩ := SectionLine.standsFor stores
    have begins : key.bytes.take 2 = [47, 47] := lineWords_of_slashes kind found
    obtain ⟨other, -, stores⟩ := mem_entries.mp assigned
    obtain ⟨bytes, -, -, -, noSlashes, -⟩ :=
      assignment_eq (SectionLine.standsFor stores)
    refine noSlashes ?_
    have long : 2 ≤ key.bytes.length := by
      have counted : min 2 key.bytes.length = 2 := by
        rw [← List.length_take, begins]
        rfl
      omega
    rw [bytes, List.take_append_of_le_length long, begins]

/-! ## Reading as written -/

section Reading

variable {entries : List ConfigEntry}

/-- A store is read as written exactly if it maps every key to the value
assigned last. -/
theorem readAsWritten_iff_forall {data : KeyMap} :
    ReadAsWritten entries data ↔
      ∀ key, data key = (lastAssigned entries key).map some := by
  refine forall_congr' fun key => ?_
  simp only [configGet]
  cases lastAssigned entries key with
  | none =>
      cases data key with
      | none => simp
      | some val =>
          -- A default other than the value tells the two apart.
          refine iff_of_false (fun read => ?_) (by simp)
          have isNone := read none
          have isEmpty := read (some .empty)
          dsimp only at isNone isEmpty
          rw [isNone] at isEmpty
          cases isEmpty
  | some value =>
      cases data key with
      | none => exact iff_of_false (fun read => nomatch read none) (by simp)
      | some val => simp

/-- Entries whose comments stay clear of the assigned keys and that are read as
written have no comments with two slashes. -/
theorem SoundEntries.noSlashes (sound : SoundEntries entries)
    (read : ∀ key,
      storeEntries entries key = (lastAssigned entries key).map some)
    (key : CString) (word : Option CString) :
    .comment key word ∉ entries := by
  intro commented
  have unassigned : lastAssigned entries key = none :=
    lastAssigned_eq_none.mpr fun value => sound.slashes key word value commented
  have unset := read key
  rw [unassigned] at unset
  exact storeEntries_eq_none.mp unset _ commented rfl

/-- An assignment of a plain value stays the last word for its key, unless a word
of another section replaces it with itself. -/
theorem SoundEntries.storeEntries_eq_some (sound : SoundEntries entries)
    (readable : ReadableEntries entries) {key value : CString}
    (assigned : lastAssigned entries key = some value) :
    storeEntries entries key = some (some value) := by
  obtain ⟨before, after, split, last⟩ := lastAssigned_eq_some.mp assigned
  have member : .assigned key value ∈ entries := by simp [split]
  have word : (strtok value).1 = some value :=
    (sound.value key value member).mpr (readable.plain key value assigned)
  cases later : after.reverse.findSome? (ConfigEntry.wordFor key) with
  | none =>
      refine storeEntries_eq_some_some.mpr
        ⟨before, _, after, split, rfl, word, fun entry inside same => ?_⟩
      have unset := List.findSome?_eq_none_iff.mp later entry
        (List.mem_reverse.mpr inside)
      rwa [ConfigEntry.wordFor, if_pos same] at unset
  | some other =>
      obtain ⟨between, entry, rest, rfl, found, none⟩ :=
        findSome?_reverse_eq_some_iff.mp later
      rw [ConfigEntry.wordFor, Option.ite_none_right_eq_some] at found
      obtain ⟨rfl, found⟩ := found
      have wordless {later : ConfigEntry} (inside : later ∈ rest)
          (same : later.key = entry.key) : later.word = .none := by
        have unset := none later inside
        rwa [ConfigEntry.wordFor, if_pos same] at unset
      have split' : entries =
          (before ++ .assigned entry.key value :: between) ++ entry :: rest := by
        simpa using split
      have agrees : lastAssigned entries entry.key = some other := by
        cases entry with
        | assigned key value =>
            exact absurd (List.mem_append_right _ List.mem_cons_self)
              (last value)
        | comment key word =>
            exact absurd (by simp [split]) (readable.noSlashes key word)
        | foreign key word =>
            obtain rfl : word = some other := found
            refine readable.agree _ key other rest split' ?_ ?_
            · intro value inside
              exact last value
                (List.mem_append_right _ (List.mem_cons_of_mem _ inside))
            · intro other inside
              cases wordless inside rfl
      obtain rfl : value = other := Option.some.inj (assigned.symm.trans agrees)
      exact storeEntries_eq_some_some.mpr ⟨_, entry, rest, split', rfl, found,
        fun later inside same => wordless inside same⟩

/-- Sound entries are read as written exactly if they are readable. -/
theorem SoundEntries.readAsWritten_iff (sound : SoundEntries entries) :
    ReadAsWritten entries (storeEntries entries) ↔
      ReadableEntries entries := by
  rw [readAsWritten_iff_forall]
  constructor
  · intro read
    have noSlashes := sound.noSlashes read
    refine ⟨noSlashes, ?_, ?_, ?_⟩
    · intro key value assigned
      have stored := read key
      rw [assigned] at stored
      obtain ⟨before, entry, after, rfl, -, word, -⟩ :=
        storeEntries_eq_some_some.mp stored
      exact sound.word entry (by simp) value word
    · intro key word foreign unassigned
      have unset := read key
      rw [unassigned] at unset
      exact storeEntries_eq_none.mp unset _ foreign rfl
    · intro before key word after split unassigned wordless
      have stored : storeEntries entries key = some (some word) := by
        refine storeEntries_eq_some_some.mpr
          ⟨before, _, after, split, rfl, rfl, fun later inside same => ?_⟩
        subst same
        cases later with
        | assigned key value => exact absurd inside (unassigned value)
        | comment key word =>
            exact absurd (by simp [split, inside]) (noSlashes key word)
        | foreign key other =>
            cases other with
            | none => rfl
            | some other => exact absurd inside (wordless other)
      have assigned := (read key).symm.trans stored
      obtain ⟨value, found, same⟩ := Option.map_eq_some_iff.mp assigned
      rw [found, same]
  · intro readable key
    cases assigned : lastAssigned entries key with
    | some value => exact sound.storeEntries_eq_some readable assigned
    | none =>
        refine storeEntries_eq_none.mpr fun entry member same => ?_
        subst same
        cases entry with
        | assigned key value =>
            exact lastAssigned_eq_none.mp assigned value member
        | comment key word => exact readable.noSlashes key word member
        | foreign key word => exact readable.known key word member assigned

end Reading

/-- The section `general` of a file is read as written exactly if the file
keeps clear of what the parser splits and stores beyond it. -/
theorem configNew_readAsWritten_iff (file : ConfigFile)
    (wellFormed : file.WellFormed) :
    (∃ data, configNew file.bytes = some data ∧
        ReadAsWritten file.entries data) ↔
      ReadableEntries file.entries := by
  rw [configNew_eq_storeEntries file wellFormed]
  simpa using file.sound_entries.readAsWritten_iff

/-- A section `general` of one line. -/
def adminFile (line : String) (noNewline : 10 ∉ (CString.ofLiteral line).bytes)
    (short : (CString.ofLiteral line).length < 767) : ConfigFile where
  lines := [.ofLiteral "[general]", .ofLiteral line]
  noNewline := by
    simp only [List.forall_mem_cons]
    exact ⟨by decide, noNewline, by simp⟩
  short := by
    simp only [List.forall_mem_cons]
    exact ⟨by decide, short, by simp⟩

theorem configNew_readAsWritten_iff_site :
    (adminFile "admin.line1=Site" (by decide) (by decide)).WellFormed ∧
      ((∃ data,
          configNew
              (adminFile "admin.line1=Site" (by decide) (by decide)).bytes =
            some data ∧
          ReadAsWritten
            (adminFile "admin.line1=Site" (by decide) (by decide)).entries
            data) ↔
        ReadableEntries
          (adminFile "admin.line1=Site" (by decide) (by decide)).entries) :=
  have wellFormed :
      (adminFile "admin.line1=Site" (by decide) (by decide)).WellFormed := by
    unfold ConfigFile.WellFormed
    decide +kernel
  ⟨wellFormed, configNew_readAsWritten_iff _ wellFormed⟩

/-- A value is cut off at its first space. -/
theorem value_cut_at_space :
    (adminFile "admin.line1=Some City" (by decide) (by decide)).WellFormed ∧
    ∃ data,
      configNew
          (adminFile "admin.line1=Some City" (by decide) (by decide)).bytes =
        some data ∧
      lastAssigned
          (adminFile "admin.line1=Some City" (by decide) (by decide)).entries
          (.ofLiteral "admin.line1") = some (.ofLiteral "Some City") ∧
      configGet data (.ofLiteral "admin.line1") none =
        some (.ofLiteral "Some") := by
  refine ⟨?_, _, rfl, ?_, ?_⟩
  · unfold ConfigFile.WellFormed
    decide +kernel
  · decide +kernel
  · decide +kernel

end Hamchat
