import Mathlib.Data.List.Basic
import Mathlib.Data.List.Count
import Mathlib.Data.List.TakeWhile

/-!
# Fields of a text

A text is cut into fields at separators.  The first mark starts the last field,
which may hold separators and further marks.  A mark that is not at the start of
a field is lost, so writing fields and cutting the result are inverse to each
other only for fields without marks.
-/

namespace Hamchat
namespace Foundation

section Fields

variable {α : Type} [DecidableEq α] (sep mark : α)

/-- The fields of a text. -/
def fields : List α → List (List α)
  | [] => [[]]
  | first :: rest =>
      if first = sep then
        [] :: fields rest
      else if first = mark then
        [rest]
      else
        (fields rest).modifyHead (first :: ·)

/-- The text of some fields, of which the final one is marked. -/
def writeFields (first : List α) (middle : List (List α))
    (final : Option (List α)) : List α :=
  first ++ middle.flatMap (sep :: ·) ++
    (final.map fun last => sep :: mark :: last).getD []

variable {sep mark}
variable {text word first : List α} {middle : List (List α)}
variable {final : Option (List α)}

/-- A text up to a symbol in its front is the front up to it. -/
theorem takeWhile_append_of_mem {front : List α} {symbol : α}
    (member : symbol ∈ front) (after : List α) :
    (front ++ after).takeWhile (· ≠ symbol) =
      front.takeWhile (· ≠ symbol) := by
  rw [List.takeWhile_append, if_neg]
  intro whole
  have same := (List.takeWhile_prefix (· ≠ symbol)).eq_of_length whole
  simpa using List.takeWhile_eq_self_iff.mp same symbol member

/-- A word ends before the first symbol that it does not hold. -/
theorem takeWhile_dropWhile_word {symbol : α} (absent : symbol ∉ word)
    (rest : List α) :
    (word ++ symbol :: rest).takeWhile (· ≠ symbol) = word ∧
      (word ++ symbol :: rest).dropWhile (· ≠ symbol) = symbol :: rest := by
  have inside : ∀ other ∈ word, decide (other ≠ symbol) = true := by
    intro other member
    rw [decide_eq_true_iff]
    rintro rfl
    exact absent member
  rw [List.takeWhile_append_of_pos inside, List.dropWhile_append_of_pos inside,
    List.takeWhile_cons_of_neg (by simp), List.dropWhile_cons_of_neg (by simp),
    List.append_nil]
  exact ⟨rfl, rfl⟩

/-! ## Cutting -/

@[simp] theorem fields_nil : fields sep mark [] = [[]] := rfl

@[simp] theorem fields_sep (text : List α) :
    fields sep mark (sep :: text) = [] :: fields sep mark text := by
  rw [fields, if_pos rfl]

theorem fields_mark (other : mark ≠ sep) (text : List α) :
    fields sep mark (mark :: text) = [text] := by
  rw [fields, if_neg other, if_pos rfl]

theorem fields_plain {symbol : α} (noSep : symbol ≠ sep)
    (noMark : symbol ≠ mark) (text : List α) :
    fields sep mark (symbol :: text) =
      (fields sep mark text).modifyHead (symbol :: ·) := by
  rw [fields, if_neg noSep, if_neg noMark]

/-- There is always a first field. -/
theorem exists_fields (sep mark : α) (text : List α) :
    ∃ first rest, fields sep mark text = first :: rest := by
  cases text with
  | nil => exact ⟨_, _, rfl⟩
  | cons symbol text =>
      rw [fields]
      split
      · exact ⟨_, _, rfl⟩
      split
      · exact ⟨_, _, rfl⟩
      · obtain ⟨first, rest, found⟩ := exists_fields sep mark text
        exact ⟨symbol :: first, rest, by rw [found, List.modifyHead_cons]⟩

/-- A word in front of a text belongs to its first field. -/
theorem fields_append (noSep : sep ∉ word) (noMark : mark ∉ word)
    (text : List α) :
    fields sep mark (word ++ text) =
      (fields sep mark text).modifyHead (word ++ ·) := by
  induction word with
  | nil =>
      obtain ⟨first, rest, found⟩ := exists_fields sep mark text
      rw [List.nil_append, found, List.modifyHead_cons, List.nil_append]
  | cons symbol word inductionHypothesis =>
      rw [List.mem_cons, not_or] at noSep noMark
      rw [List.cons_append, fields_plain (Ne.symm noSep.1) (Ne.symm noMark.1),
        inductionHypothesis noSep.2 noMark.2, List.modifyHead_modifyHead]
      rfl

/-- A word is its only field. -/
theorem fields_word (noSep : sep ∉ word) (noMark : mark ∉ word) :
    fields sep mark word = [word] := by
  have alone := fields_append noSep noMark []
  rwa [List.append_nil, fields_nil, List.modifyHead_cons, List.append_nil]
    at alone

/-- A word that ends at a separator is the first field. -/
theorem fields_append_sep (noSep : sep ∉ word) (noMark : mark ∉ word)
    (text : List α) :
    fields sep mark (word ++ sep :: text) = word :: fields sep mark text := by
  rw [fields_append noSep noMark, fields_sep, List.modifyHead_cons,
    List.append_nil]

/-- Without separators there is one field, from which a mark is missing. -/
theorem fields_of_not_mem (other : mark ≠ sep) (noSep : sep ∉ text) :
    fields sep mark text = [text.erase mark] := by
  induction text with
  | nil => rfl
  | cons symbol text inductionHypothesis =>
      rw [List.mem_cons, not_or] at noSep
      by_cases isMark : symbol = mark
      · rw [isMark, fields_mark other, List.erase_cons_head]
      · rw [fields_plain (Ne.symm noSep.1) isMark,
          inductionHypothesis noSep.2, List.modifyHead_cons,
          List.erase_cons_tail (by simpa using isMark)]

/-- What is in a field is in the text. -/
theorem mem_of_mem_fields {field : List α} {symbol : α}
    (member : field ∈ fields sep mark text) (inField : symbol ∈ field) :
    symbol ∈ text := by
  induction text generalizing field with
  | nil =>
      obtain rfl := List.mem_singleton.mp member
      cases inField
  | cons first text inductionHypothesis =>
      rw [fields] at member
      split at member
      · rcases List.mem_cons.mp member with rfl | later
        · cases inField
        · exact List.mem_cons_of_mem _ (inductionHypothesis later inField)
      split at member
      · obtain rfl := List.mem_singleton.mp member
        exact List.mem_cons_of_mem _ inField
      · obtain ⟨second, more, found⟩ := exists_fields sep mark text
        rw [found, List.modifyHead_cons] at member
        rcases List.mem_cons.mp member with rfl | later
        · rcases List.mem_cons.mp inField with rfl | inSecond
          · exact List.mem_cons_self
          · exact List.mem_cons_of_mem _ (inductionHypothesis
              (by rw [found]; exact List.mem_cons_self) inSecond)
        · exact List.mem_cons_of_mem _ (inductionHypothesis
            (by rw [found]; exact List.mem_cons_of_mem _ later) inField)

/-! ## Counting -/

/-- Each separator before the first mark ends a field. -/
theorem fields_length (other : mark ≠ sep) (text : List α) :
    (fields sep mark text).length =
      (text.takeWhile (· ≠ mark)).count sep + 1 := by
  induction text with
  | nil => rfl
  | cons symbol text inductionHypothesis =>
      by_cases isSep : symbol = sep
      · subst isSep
        rw [fields_sep, List.length_cons, inductionHypothesis,
          List.takeWhile_cons_of_pos (by simpa using Ne.symm other),
          List.count_cons_self]
      · by_cases isMark : symbol = mark
        · rw [isMark, fields_mark other,
            List.takeWhile_cons_of_neg (by simp)]
          rfl
        · rw [fields_plain isSep isMark, List.length_modifyHead,
            inductionHypothesis,
            List.takeWhile_cons_of_pos (by simpa using isMark),
            List.count_cons_of_ne isSep]

/-- Of a text the fields keep everything but the separators between them and the
first mark. -/
theorem fields_flatten_length (other : mark ≠ sep) (text : List α) :
    (fields sep mark text).flatten.length + (fields sep mark text).length +
        (if mark ∈ text then 1 else 0) = text.length + 1 := by
  induction text with
  | nil => rfl
  | cons symbol text inductionHypothesis =>
      by_cases isSep : symbol = sep
      · subst isSep
        rw [fields_sep]
        simp only [List.flatten_cons, List.nil_append, List.length_cons,
          List.mem_cons, other, false_or]
        omega
      · by_cases isMark : symbol = mark
        · rw [isMark, fields_mark other]
          simp
        · rw [fields_plain isSep isMark]
          obtain ⟨first, rest, found⟩ := exists_fields sep mark text
          rw [found] at inductionHypothesis ⊢
          simp only [List.modifyHead_cons, List.flatten_cons,
            List.length_append, List.length_cons, List.mem_cons,
            Ne.symm isMark, false_or] at inductionHypothesis ⊢
          omega

/-! ## Writing and cutting -/

/-- Cutting gives back fields without marks. -/
theorem fields_writeFields (other : mark ≠ sep)
    (noSep : ∀ field ∈ first :: middle, sep ∉ field)
    (noMark : ∀ field ∈ first :: middle, mark ∉ field) :
    fields sep mark (writeFields sep mark first middle final) =
      first :: middle ++ final.toList := by
  induction middle generalizing first with
  | nil =>
      rw [List.forall_mem_singleton] at noSep noMark
      cases final with
      | none => simpa [writeFields] using fields_word noSep noMark
      | some last =>
          simpa [writeFields, fields_mark other] using
            fields_append_sep noSep noMark (mark :: last)
  | cons second middle inductionHypothesis =>
      rw [List.forall_mem_cons] at noSep noMark
      have later := inductionHypothesis noSep.2 noMark.2
      have shape : writeFields sep mark first (second :: middle) final =
          first ++ sep :: writeFields sep mark second middle final := by
        simp [writeFields]
      rw [shape, fields_append_sep noSep.1 noMark.1, later]
      rfl

/-- Each field behind the first is written behind a separator. -/
theorem count_sep (noSep : ∀ field ∈ first :: middle, sep ∉ field) :
    (first ++ middle.flatMap (sep :: ·)).count sep = middle.length := by
  rw [List.forall_mem_cons] at noSep
  rw [List.count_append, List.count_eq_zero_of_not_mem noSep.1, Nat.zero_add]
  have inMiddle := noSep.2
  clear noSep
  induction middle with
  | nil => rfl
  | cons field middle inductionHypothesis =>
      rw [List.forall_mem_cons] at inMiddle
      rw [List.flatMap_cons, List.count_append, List.count_cons_self,
        List.count_eq_zero_of_not_mem inMiddle.1,
        inductionHypothesis inMiddle.2, List.length_cons, Nat.add_comm]

omit [DecidableEq α] in
theorem writeFields_length (sep mark : α) (first : List α)
    (middle : List (List α)) (final : Option (List α)) :
    (writeFields sep mark first middle final).length + 1 =
      (first :: middle ++ final.toList).flatten.length +
        (first :: middle ++ final.toList).length +
        (if final.isSome then 1 else 0) := by
  have joined : (middle.flatMap (sep :: ·)).length =
      middle.flatten.length + middle.length := by
    induction middle with
    | nil => rfl
    | cons field middle inductionHypothesis =>
        simp only [List.flatMap_cons, List.length_append, List.length_cons,
          List.flatten_cons, inductionHypothesis]
        omega
  cases final with
  | none =>
      simp only [writeFields, List.length_append, joined]
      simp
      omega
  | some last =>
      simp only [writeFields, List.length_append, joined]
      simp
      omega

/-- Cutting finds no more fields than there were. -/
theorem fields_writeFields_length_le (other : mark ≠ sep)
    (noSep : ∀ field ∈ first :: middle, sep ∉ field)
    (final : Option (List α)) :
    (fields sep mark (writeFields sep mark first middle final)).length ≤
      middle.length + final.toList.length + 1 := by
  have front := count_sep noSep
  have early : (writeFields sep mark first middle final).takeWhile
      (· ≠ mark) <+: first ++ middle.flatMap (sep :: ·) ++
        final.toList.map fun _ => sep := by
    cases final with
    | none => exact List.takeWhile_prefix _
    | some last =>
        rw [writeFields, Option.map_some, Option.getD_some,
          ← List.singleton_append, ← List.append_assoc, List.takeWhile_append,
          List.takeWhile_cons_of_neg (by simp), List.append_nil]
        split
        · exact List.prefix_rfl
        · exact List.takeWhile_prefix _
  have fewer := early.sublist.count_le sep
  have ends : (final.toList.map fun _ => sep).count sep ≤
      final.toList.length :=
    List.count_le_length.trans (List.length_map _).le
  rw [List.count_append] at fewer
  rw [fields_length other]
  omega

/-- Cutting gives back exactly the fields without marks. -/
theorem fields_writeFields_iff (other : mark ≠ sep)
    (noSep : ∀ field ∈ first :: middle, sep ∉ field)
    (final : Option (List α)) :
    fields sep mark (writeFields sep mark first middle final) =
        first :: middle ++ final.toList ↔
      ∀ field ∈ first :: middle, mark ∉ field := by
  refine ⟨fun same => ?_, fields_writeFields other noSep⟩
  cases final with
  | none =>
      have whole := fields_flatten_length other
        (writeFields sep mark first middle none)
      have written := writeFields_length sep mark first middle none
      rw [same] at whole
      have absent : mark ∉ writeFields sep mark first middle none := by
        intro present
        rw [if_pos present] at whole
        simp only [Option.isSome_none, Bool.false_eq_true, if_false] at written
        omega
      intro field member inField
      refine absent ?_
      rw [writeFields, List.mem_append, List.mem_append, List.mem_flatMap]
      rcases List.mem_cons.mp member with rfl | inMiddle
      · exact .inl (.inl inField)
      · exact .inl (.inr ⟨field, inMiddle, List.mem_cons_of_mem _ inField⟩)
  | some last =>
      intro field member inField
      -- A mark before the final field ends the search for separators early.
      have inFront : mark ∈ first ++ middle.flatMap (sep :: ·) := by
        rw [List.mem_append, List.mem_flatMap]
        rcases List.mem_cons.mp member with rfl | inMiddle
        · exact .inl inField
        · exact .inr ⟨field, inMiddle, List.mem_cons_of_mem _ inField⟩
      have count := fields_length other
        (writeFields sep mark first middle (some last))
      have early : (writeFields sep mark first middle (some last)).takeWhile
          (· ≠ mark) <+: first ++ middle.flatMap (sep :: ·) := by
        rw [writeFields, takeWhile_append_of_mem inFront]
        exact List.takeWhile_prefix _
      have fewer := early.sublist.count_le sep
      rw [count_sep noSep] at fewer
      rw [same] at count
      simp only [Option.toList_some, List.length_append, List.length_cons,
        List.length_nil] at count
      omega

end Fields

end Foundation
end Hamchat
