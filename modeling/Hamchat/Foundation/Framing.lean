import Mathlib.Data.List.Basic

/-!
# Lines of a stream

A stream is cut into lines at every ending, and blanks in front of a line are
dropped.  The state between two symbols is the unfinished line, so the lines of
a stream do not depend on how the stream arrives.
-/

namespace Hamchat
namespace Foundation

section Framing

variable {α : Type} (isEnding isBlank : α → Bool)

/-- The unfinished line after one more symbol, and the line that it ends. -/
def frameStep (current : List α) (symbol : α) : List α × Option (List α) :=
  if isEnding symbol then
    ([], if current.isEmpty then none else some current)
  else if current.isEmpty && isBlank symbol then
    ([], none)
  else
    (current ++ [symbol], none)

/-- The lines that end in a stream. -/
def frameLines : (current stream : List α) → List (List α)
  | _, [] => []
  | current, symbol :: rest =>
      (frameStep isEnding isBlank current symbol).2.toList ++
        frameLines (frameStep isEnding isBlank current symbol).1 rest

/-- The unfinished line at the end of a stream. -/
def frameRest : (current stream : List α) → List α
  | current, [] => current
  | current, symbol :: rest =>
      frameRest (frameStep isEnding isBlank current symbol).1 rest

variable {isEnding isBlank}
variable {current line : List α} {more : List (List α)}

/-- The lines of a stream continue where an earlier part of it stopped. -/
theorem frameLines_append (current first second : List α) :
    frameLines isEnding isBlank current (first ++ second) =
      frameLines isEnding isBlank current first ++
        frameLines isEnding isBlank
          (frameRest isEnding isBlank current first) second := by
  induction first generalizing current with
  | nil => rfl
  | cons symbol rest inductionHypothesis =>
      simp [frameLines, frameRest, inductionHypothesis]

/-- Without an ending no line ends. -/
theorem frameLines_eq_nil {stream : List α}
    (endless : ∀ symbol ∈ stream, isEnding symbol = false) :
    frameLines isEnding isBlank current stream = [] := by
  induction stream generalizing current with
  | nil => rfl
  | cons symbol rest inductionHypothesis =>
      have notEnding := endless symbol List.mem_cons_self
      have later : frameLines isEnding isBlank
          (frameStep isEnding isBlank current symbol).1 rest = [] :=
        inductionHypothesis fun other member =>
          endless other (List.mem_cons_of_mem _ member)
      rw [frameLines, later, frameStep, notEnding]
      by_cases skipped : (current.isEmpty && isBlank symbol) = true
      · simp [skipped]
      · simp [skipped]

/-- The first line to end completes the unfinished line. -/
theorem frameLines_eq_cons_of_open {stream : List α} (opened : current ≠ [])
    (framed : frameLines isEnding isBlank current stream = line :: more) :
    ∃ body ending rest, stream = body ++ ending :: rest ∧
      line = current ++ body ∧ isEnding ending = true ∧
      (∀ symbol ∈ body, isEnding symbol = false) ∧
      frameLines isEnding isBlank [] rest = more := by
  induction stream generalizing current with
  | nil => cases framed
  | cons symbol rest inductionHypothesis =>
      have notEmpty : current.isEmpty = false := by simpa using opened
      rw [frameLines, frameStep, notEmpty] at framed
      cases ending : isEnding symbol with
      | true =>
          simp only [ending, if_true, Bool.false_eq_true, if_false,
            Option.toList_some, List.singleton_append, List.cons.injEq]
            at framed
          obtain ⟨rfl, later⟩ := framed
          exact ⟨[], symbol, rest, rfl, by simp, ending, by simp, later⟩
      | false =>
          simp only [ending, Bool.false_eq_true, if_false, Bool.false_and,
            Option.toList_none, List.nil_append] at framed
          obtain ⟨body, last, after, rfl, rfl, ends, inside, later⟩ :=
            inductionHypothesis (by simp) framed
          refine ⟨symbol :: body, last, after, rfl, by simp, ends, ?_, later⟩
          intro other member
          rcases List.mem_cons.mp member with rfl | member
          · exact ending
          · exact inside other member

/-- The first line of a stream starts after blanks and goes up to the first
ending after them. -/
theorem frameLines_eq_cons {stream : List α}
    (framed : frameLines isEnding isBlank [] stream = line :: more) :
    ∃ blanks first body ending rest,
      stream = blanks ++ first :: body ++ ending :: rest ∧
      line = first :: body ∧
      (∀ symbol ∈ blanks, isEnding symbol = true ∨ isBlank symbol = true) ∧
      isBlank first = false ∧
      (∀ symbol ∈ line, isEnding symbol = false) ∧
      isEnding ending = true ∧
      frameLines isEnding isBlank [] rest = more := by
  induction stream with
  | nil => cases framed
  | cons symbol rest inductionHypothesis =>
      by_cases skipped : isEnding symbol = true ∨ isBlank symbol = true
      · have skips : frameStep isEnding isBlank [] symbol = ([], none) := by
          rw [frameStep]
          rcases skipped with ends | blank
          · simp [ends]
          · simp [blank]
        rw [frameLines, skips] at framed
        obtain ⟨blanks, first, body, ending, after, rfl, lineEq, allBlank,
          notBlank, inside, ends, later⟩ := inductionHypothesis framed
        refine ⟨symbol :: blanks, first, body, ending, after, rfl, lineEq, ?_,
          notBlank, inside, ends, later⟩
        intro other member
        rcases List.mem_cons.mp member with rfl | member
        · exact skipped
        · exact allBlank other member
      · rw [not_or, Bool.not_eq_true, Bool.not_eq_true] at skipped
        obtain ⟨notEnding, notBlank⟩ := skipped
        have starts : frameStep isEnding isBlank [] symbol =
            ([symbol], none) := by
          simp [frameStep, notEnding, notBlank]
        rw [frameLines, starts] at framed
        obtain ⟨body, ending, after, rfl, rfl, ends, inside, later⟩ :=
          frameLines_eq_cons_of_open (by simp) framed
        refine ⟨[], symbol, body, ending, after, rfl, rfl, by simp, notBlank,
          ?_, ends, later⟩
        intro other member
        rcases List.mem_cons.mp member with rfl | member
        · exact notEnding
        · exact inside other member

end Framing

end Foundation
end Hamchat
