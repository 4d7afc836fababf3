import Hamchat.Config.Reading
import Hamchat.Foundation.WhileLoop
import Mathlib.Logic.Relation

/-!
# Trimming a line of the configuration file

The loops at the start of a round of `Config::ParseSection`, on the bytes of its
array `buf` and what lies around it.  The first passes the spaces in front of
the line, the second deletes the line ends behind it.  The second one looks at
the byte in front of the one that it has deleted, and nothing but this byte
stops it.
-/

namespace Hamchat

open Foundation

/-! ## The loops -/

/-- `sizeof(buf)` -/
def lineBufSize : Int := 768

/-- The pointers of a round, as offsets from `buf`, and what has been touched
through them. -/
structure Trimmer where
  /-- The bytes, by their offset from `buf`. -/
  memory : Int → UInt8
  /-- `char *skip` -/
  skip : Int
  /-- `char *end` -/
  last : Int
  /-- The offsets that have been read, the latest first. -/
  reads : List Int
  /-- The offsets that have been written, the latest first. -/
  writes : List Int

/-- The bytes in `buf` and around it after `memset` and `fgets`, which has
stored `stored`. -/
def aroundBuf (outside : Int → UInt8) (stored : List UInt8) (offset : Int) :
    UInt8 :=
  if 0 ≤ offset ∧ offset < lineBufSize then
    (stored[offset.toNat]?).getD 0
  else
    outside offset

namespace Trimmer

/-- `skip = buf`, and the read for the first test. -/
def start (outside : Int → UInt8) (stored : List UInt8) : Trimmer where
  memory := aroundBuf outside stored
  skip := 0
  last := 0
  reads := [0]
  writes := []

/-- `skip++`, and the read for the next test. -/
def passBlank (s : Trimmer) : Trimmer :=
  { s with
    skip := s.skip + 1
    reads := (s.skip + 1) :: s.reads }

/-- `end = buf + strlen(buf)` -/
def toEnd (stored : List UInt8) (s : Trimmer) : Trimmer :=
  { s with last := (CString.read stored).length }

/-- `*end = '\0'; end--`, and the read for the next test. -/
def deleteLast (s : Trimmer) : Trimmer :=
  { s with
    memory := Function.update s.memory s.last 0
    last := s.last - 1
    reads := (s.last - 1) :: s.reads
    writes := s.last :: s.writes }

/-- Both loops, with at most `fuel` tests in each. -/
def trim (outside : Int → UInt8) (stored : List UInt8) (fuel : Nat) :
    Option Trimmer :=
  (whileLoop (fun s => s.memory s.skip == 32) passBlank fuel
    (start outside stored)).bind fun s =>
      doWhileLoop (fun s => isNewline (s.memory s.last)) deleteLast fuel
        (s.toEnd stored)

/-- All that has been touched lies in `buf`. -/
def StaysInside (s : Trimmer) : Prop :=
  ∀ offset ∈ s.reads ++ s.writes, 0 ≤ offset ∧ offset < lineBufSize

/-- The bytes from `skip` up to and including `end`. -/
def text (s : Trimmer) : List UInt8 :=
  (List.range (s.last + 1 - s.skip).toNat).map fun count : Nat =>
    s.memory (s.skip + count)

end Trimmer

/-- The loops end, stay in `buf`, and leave the line without its leading spaces
and its line ends. -/
def TrimsLine (outside : Int → UInt8) (stored : List UInt8) : Prop :=
  ∃ fuel s, Trimmer.trim outside stored fuel = some s ∧ s.StaysInside ∧
    s.text = (lineText (.read stored)).bytes

/-! ## Rounds -/

namespace Trimmer

section Rounds

variable (s : Trimmer) (rounds : Nat)

@[simp] theorem passBlank_memory : s.passBlank.memory = s.memory := rfl

@[simp] theorem passBlank_skip : s.passBlank.skip = s.skip + 1 := rfl

@[simp] theorem passBlank_reads :
    s.passBlank.reads = (s.skip + 1) :: s.reads := rfl

@[simp] theorem passBlank_writes : s.passBlank.writes = s.writes := rfl

@[simp] theorem deleteLast_memory :
    s.deleteLast.memory = Function.update s.memory s.last 0 := rfl

@[simp] theorem deleteLast_skip : s.deleteLast.skip = s.skip := rfl

@[simp] theorem deleteLast_last : s.deleteLast.last = s.last - 1 := rfl

@[simp] theorem deleteLast_reads :
    s.deleteLast.reads = (s.last - 1) :: s.reads := rfl

@[simp] theorem deleteLast_writes :
    s.deleteLast.writes = s.last :: s.writes := rfl

@[simp] theorem start_memory (outside : Int → UInt8) (stored : List UInt8) :
    (start outside stored).memory = aroundBuf outside stored := rfl

@[simp] theorem start_skip (outside : Int → UInt8) (stored : List UInt8) :
    (start outside stored).skip = 0 := rfl

theorem iterate_passBlank_memory :
    (passBlank^[rounds] s).memory = s.memory :=
  apply_iterate_of_preserved passBlank_memory rounds s

theorem iterate_passBlank_skip :
    (passBlank^[rounds] s).skip = s.skip + rounds := by
  induction rounds with
  | zero => simp
  | succ rounds inductionHypothesis =>
      rw [Function.iterate_succ_apply', passBlank_skip, inductionHypothesis]
      omega

theorem iterate_passBlank_writes :
    (passBlank^[rounds] s).writes = s.writes :=
  apply_iterate_of_preserved passBlank_writes rounds s

theorem mem_iterate_passBlank_reads {offset : Int} :
    offset ∈ (passBlank^[rounds] s).reads ↔
      offset ∈ s.reads ∨ s.skip < offset ∧ offset ≤ s.skip + rounds := by
  induction rounds with
  | zero =>
      rw [Function.iterate_zero_apply]
      exact (or_iff_left (by omega)).symm
  | succ rounds inductionHypothesis =>
      rw [Function.iterate_succ_apply', passBlank_reads, List.mem_cons,
        inductionHypothesis, iterate_passBlank_skip]
      grind

theorem iterate_deleteLast_skip :
    (deleteLast^[rounds] s).skip = s.skip :=
  apply_iterate_of_preserved deleteLast_skip rounds s

theorem iterate_deleteLast_last :
    (deleteLast^[rounds] s).last = s.last - rounds := by
  induction rounds with
  | zero => simp
  | succ rounds inductionHypothesis =>
      rw [Function.iterate_succ_apply', deleteLast_last, inductionHypothesis]
      omega

/-- `*end` and the bytes in front of it are those that were there. -/
theorem iterate_deleteLast_memory {offset : Int}
    (front : offset ≤ s.last - rounds) :
    (deleteLast^[rounds] s).memory offset = s.memory offset := by
  induction rounds with
  | zero => rfl
  | succ rounds inductionHypothesis =>
      rw [Function.iterate_succ_apply', deleteLast_memory,
        iterate_deleteLast_last, Function.update_of_ne (by omega)]
      exact inductionHypothesis (by omega)

theorem mem_iterate_deleteLast_reads {offset : Int} :
    offset ∈ (deleteLast^[rounds] s).reads ↔
      offset ∈ s.reads ∨ s.last - rounds ≤ offset ∧ offset < s.last := by
  induction rounds with
  | zero =>
      rw [Function.iterate_zero_apply]
      exact (or_iff_left (by omega)).symm
  | succ rounds inductionHypothesis =>
      rw [Function.iterate_succ_apply', deleteLast_reads, List.mem_cons,
        inductionHypothesis, iterate_deleteLast_last]
      grind

theorem mem_iterate_deleteLast_writes {offset : Int} :
    offset ∈ (deleteLast^[rounds] s).writes ↔
      offset ∈ s.writes ∨ s.last - rounds < offset ∧ offset ≤ s.last := by
  induction rounds with
  | zero =>
      rw [Function.iterate_zero_apply]
      exact (or_iff_left (by omega)).symm
  | succ rounds inductionHypothesis =>
      rw [Function.iterate_succ_apply', deleteLast_writes, List.mem_cons,
        inductionHypothesis, iterate_deleteLast_last]
      grind

end Rounds

/-- The pointers in front of the second loop. -/
def passed (outside : Int → UInt8) (stored : List UInt8) : Trimmer :=
  (passBlank^[((CString.read stored).takeWhile (· == 32)).length]
    (start outside stored)).toEnd stored

/-- The pointers at a byte that is not a line end. -/
def trimmed (outside : Int → UInt8) (stored : List UInt8) : Trimmer :=
  deleteLast^[(CString.read stored).length -
    ((CString.read stored).rdropWhile isNewline).length + 1]
      (passed outside stored)

end Trimmer

/-! ## The bytes around the line -/

theorem getElem?_takeWhile_getD {bytes : List UInt8} {position : Nat}
    (within : position ≤ (bytes.takeWhile (· ≠ 0)).length) :
    (bytes[position]?).getD 0 =
      ((bytes.takeWhile (· ≠ 0))[position]?).getD 0 := by
  induction bytes generalizing position with
  | nil => rfl
  | cons first rest inductionHypothesis =>
      by_cases zero : first = 0
      · rw [List.takeWhile_cons_of_neg (by simpa using zero)] at within ⊢
        obtain rfl := Nat.le_zero.mp within
        exact zero
      · rw [List.takeWhile_cons_of_pos (by simpa using zero)] at within ⊢
        cases position with
        | zero => rfl
        | succ position =>
            exact inductionHypothesis (Nat.le_of_succ_le_succ within)

theorem length_read_le (stored : List UInt8) :
    (CString.read stored).length ≤ stored.length :=
  (List.takeWhile_sublist _).length_le

theorem length_rdropWhile_le (line : CString) :
    (line.rdropWhile isNewline).length ≤ line.length :=
  (List.rdropWhile_prefix _ _).length_le

section Around

variable {outside : Int → UInt8} {stored : List UInt8}

/-- The buffer holds the string and its terminator. -/
theorem aroundBuf_eq (short : stored.length < 768) {position : Nat}
    (within : position ≤ (CString.read stored).length) :
    aroundBuf outside stored position =
      ((CString.read stored).bytes[position]?).getD 0 := by
  have inBuf : (0 : Int) ≤ position ∧ (position : Int) < lineBufSize := by
    have upper := length_read_le stored
    unfold lineBufSize
    omega
  rw [aroundBuf, if_pos inBuf, Int.toNat_natCast]
  exact getElem?_takeWhile_getD within

end Around

/-! ## The parts of a line -/

section Parts

variable (line : CString) {position : Nat}

theorem bytes_eq_blanks_append :
    line.bytes = (line.takeWhile (· == 32)).bytes ++
      (line.dropWhile (· == 32)).bytes :=
  List.takeWhile_append_dropWhile.symm

theorem bytes_eq_append_lineEnds :
    line.bytes = (line.rdropWhile isNewline).bytes ++
      line.bytes.rtakeWhile isNewline :=
  List.rdropWhile_append_rtakeWhile.symm

variable {line}

/-- The leading spaces are spaces. -/
theorem getElem?_of_lt_blanks
    (inside : position < (line.takeWhile (· == 32)).length) :
    line.bytes[position]? = some 32 := by
  rw [bytes_eq_blanks_append, List.getElem?_append_left inside,
    List.getElem?_eq_getElem inside]
  have blank := List.mem_takeWhile_imp (List.getElem_mem inside)
  exact congrArg some (beq_iff_eq.mp blank)

/-- The leading spaces end in front of another byte or of the terminator. -/
theorem getElem?_blanks_ne (line : CString) :
    (line.bytes[(line.takeWhile (· == 32)).length]?).getD 0 ≠ 32 := by
  have behind := List.head?_dropWhile_not (· == 32) line.bytes
  rw [bytes_eq_blanks_append, CString.length,
    List.getElem?_append_right (Nat.le_refl _), Nat.sub_self,
    ← List.head?_eq_getElem?]
  change ((line.bytes.dropWhile (· == 32)).head?).getD 0 ≠ 32
  cases first : (line.bytes.dropWhile (· == 32)).head? with
  | none => decide
  | some byte =>
      rw [first] at behind
      simpa using behind

/-- The line ends are line ends. -/
theorem isNewline_of_le {byte : UInt8}
    (found : line.bytes[position]? = some byte)
    (behind : (line.rdropWhile isNewline).length ≤ position) :
    isNewline byte = true := by
  rw [bytes_eq_append_lineEnds, List.getElem?_append_right behind] at found
  exact List.mem_rtakeWhile_imp (List.mem_of_getElem? found)

/-- What precedes the line ends does not end in one. -/
theorem exists_last_of_pos
    (positive : 0 < (line.rdropWhile isNewline).length) :
    ∃ byte, line.bytes[(line.rdropWhile isNewline).length - 1]? = some byte ∧
      isNewline byte = false := by
  have nonempty : line.bytes.rdropWhile isNewline ≠ [] :=
    List.ne_nil_of_length_pos positive
  have found :
      line.bytes[(line.rdropWhile isNewline).length - 1]? =
        (line.bytes.rdropWhile isNewline).getLast? := by
    rw [bytes_eq_append_lineEnds, CString.length,
      List.getElem?_append_left (Nat.sub_one_lt_of_lt positive),
      ← List.getLast?_eq_getElem?, ← bytes_eq_append_lineEnds]
    rfl
  exact ⟨_, found.trans (List.getLast?_eq_some_getLast nonempty),
    Bool.eq_false_iff.mpr (List.rdropWhile_last_not isNewline _ nonempty)⟩

/-- Something precedes the line ends exactly if there is a byte of another
kind. -/
theorem rdropWhile_pos_iff (line : CString) :
    0 < (line.rdropWhile isNewline).length ↔
      ∃ byte ∈ line.bytes, isNewline byte = false := by
  rw [CString.length, List.length_pos_iff, ne_eq, CString.rdropWhile,
    List.rdropWhile_eq_nil_iff]
  simp

end Parts

/-! ## Runs -/

section Runs

variable {outside : Int → UInt8} {stored : List UInt8}

namespace Trimmer

@[simp] theorem passed_memory :
    (passed outside stored).memory = aroundBuf outside stored :=
  iterate_passBlank_memory _ _

@[simp] theorem passed_skip :
    (passed outside stored).skip =
      ((CString.read stored).takeWhile (· == 32)).length :=
  (iterate_passBlank_skip _ _).trans (Int.zero_add _)

@[simp] theorem passed_last :
    (passed outside stored).last = (CString.read stored).length := rfl

@[simp] theorem passed_writes : (passed outside stored).writes = [] :=
  iterate_passBlank_writes _ _

theorem mem_passed_reads {offset : Int} :
    offset ∈ (passed outside stored).reads ↔ 0 ≤ offset ∧
      offset ≤ ((CString.read stored).takeWhile (· == 32)).length := by
  refine (mem_iterate_passBlank_reads _ _).trans ?_
  simp only [start, List.mem_singleton, Int.zero_add]
  omega

/-- The test of the second loop reads a byte that has not been changed. -/
theorem test_iterate_deleteLast (rounds : Nat) :
    isNewline ((deleteLast^[rounds] (passed outside stored)).memory
        (deleteLast^[rounds] (passed outside stored)).last) =
      isNewline (aroundBuf outside stored
        ((CString.read stored).length - rounds)) := by
  rw [iterate_deleteLast_last, iterate_deleteLast_memory _ _ (Int.le_refl _),
    passed_memory, passed_last]

@[simp] theorem trimmed_skip :
    (trimmed outside stored).skip =
      ((CString.read stored).takeWhile (· == 32)).length :=
  (iterate_deleteLast_skip _ _).trans passed_skip

theorem trimmed_last :
    (trimmed outside stored).last =
      ((CString.read stored).rdropWhile isNewline).length - 1 := by
  have within := length_rdropWhile_le (CString.read stored)
  rw [trimmed, iterate_deleteLast_last, passed_last]
  omega

theorem trimmed_memory {offset : Int}
    (front : offset ≤ (trimmed outside stored).last) :
    (trimmed outside stored).memory offset =
      aroundBuf outside stored offset := by
  rw [trimmed, iterate_deleteLast_last] at front
  rw [trimmed, iterate_deleteLast_memory _ _ front, passed_memory]

theorem mem_trimmed_reads {offset : Int} :
    offset ∈ (trimmed outside stored).reads ↔
      0 ≤ offset ∧
          offset ≤ ((CString.read stored).takeWhile (· == 32)).length ∨
        ((CString.read stored).rdropWhile isNewline).length - 1 ≤ offset ∧
          offset < (CString.read stored).length := by
  have within := length_rdropWhile_le (CString.read stored)
  rw [trimmed, mem_iterate_deleteLast_reads, mem_passed_reads, passed_last]
  omega

theorem mem_trimmed_writes {offset : Int} :
    offset ∈ (trimmed outside stored).writes ↔
      ((CString.read stored).rdropWhile isNewline).length ≤ offset ∧
        offset ≤ (CString.read stored).length := by
  have within := length_rdropWhile_le (CString.read stored)
  rw [trimmed, mem_iterate_deleteLast_writes, passed_last, passed_writes,
    or_iff_right List.not_mem_nil]
  omega

end Trimmer

/-- The first loop stops behind the leading spaces. -/
theorem passBlank_loop_eq_some_iff (short : stored.length < 768) {fuel : Nat}
    {s : Trimmer} :
    whileLoop (fun s => s.memory s.skip == 32) Trimmer.passBlank fuel
        (Trimmer.start outside stored) = some s ↔
      ((CString.read stored).takeWhile (· == 32)).length < fuel ∧
        Trimmer.passBlank^[((CString.read stored).takeWhile
          (· == 32)).length] (Trimmer.start outside stored) = s := by
  have within : ((CString.read stored).takeWhile (· == 32)).length ≤
      (CString.read stored).length :=
    (List.takeWhile_sublist _).length_le
  have test (rounds : Nat) (inLine : rounds ≤ (CString.read stored).length) :
      (Trimmer.passBlank^[rounds] (Trimmer.start outside stored)).memory
          (Trimmer.passBlank^[rounds] (Trimmer.start outside stored)).skip =
        ((CString.read stored).bytes[rounds]?).getD 0 := by
    rw [Trimmer.iterate_passBlank_memory, Trimmer.iterate_passBlank_skip,
      Trimmer.start_memory, Trimmer.start_skip, Int.zero_add,
      aroundBuf_eq short inLine]
  apply whileLoop_eq_some_iff_of_count
  · intro earlier before
    rw [test earlier (Nat.le_trans (Nat.le_of_lt before) within),
      getElem?_of_lt_blanks before]
    rfl
  · rw [test _ within]
    exact beq_eq_false_iff_ne.mpr (getElem?_blanks_ne _)

/-- The first loop always ends, so the second decides whether both do. -/
theorem trim_eq_some_iff (short : stored.length < 768) {fuel : Nat}
    {s : Trimmer} :
    Trimmer.trim outside stored fuel = some s ↔
      ((CString.read stored).takeWhile (· == 32)).length < fuel ∧
        doWhileLoop (fun s => isNewline (s.memory s.last)) Trimmer.deleteLast
          fuel (Trimmer.passed outside stored) = some s := by
  rw [Trimmer.trim, Option.bind_eq_some_iff]
  constructor
  · rintro ⟨first, passed, deleted⟩
    obtain ⟨enough, rfl⟩ := (passBlank_loop_eq_some_iff short).mp passed
    exact ⟨enough, deleted⟩
  · rintro ⟨enough, deleted⟩
    exact ⟨_, (passBlank_loop_eq_some_iff short).mpr ⟨enough, rfl⟩, deleted⟩

/-- The second loop goes on through the line ends. -/
theorem test_of_lineEnd (short : stored.length < 768) {rounds : Nat}
    (positive : 0 < rounds)
    (within : rounds + ((CString.read stored).rdropWhile isNewline).length ≤
      (CString.read stored).length) :
    isNewline (aroundBuf outside stored
      ((CString.read stored).length - rounds)) = true := by
  obtain ⟨position, line⟩ := Nat.exists_eq_add_of_le' within
  have offset : ((CString.read stored).length : Int) - rounds =
      ((CString.read stored).length - rounds : Nat) := by
    omega
  have inside : (CString.read stored).length - rounds <
      (CString.read stored).length := by
    omega
  have found := List.getElem?_eq_getElem inside
  rw [offset, aroundBuf_eq short (Nat.sub_le _ _), found]
  exact isNewline_of_le found (by omega)

/-- The second loop does not go on at another byte. -/
theorem test_of_other (short : stored.length < 768)
    (positive : 0 < ((CString.read stored).rdropWhile isNewline).length) :
    isNewline (aroundBuf outside stored
      (((CString.read stored).rdropWhile isNewline).length - 1)) = false := by
  have within : ((CString.read stored).rdropWhile isNewline).length ≤
      (CString.read stored).length :=
    (List.rdropWhile_prefix _ _).length_le
  have offset :
      (((CString.read stored).rdropWhile isNewline).length : Int) - 1 =
        (((CString.read stored).rdropWhile isNewline).length - 1 : Nat) := by
    omega
  obtain ⟨byte, found, other⟩ := exists_last_of_pos positive
  rw [offset, aroundBuf_eq short (by omega), found]
  exact other

/-- With another byte in the line, the second loop ends at the last one. -/
theorem trim_eq_some_iff_of_pos (short : stored.length < 768)
    (positive : 0 < ((CString.read stored).rdropWhile isNewline).length)
    {fuel : Nat} {s : Trimmer} :
    Trimmer.trim outside stored fuel = some s ↔
      ((CString.read stored).takeWhile (· == 32)).length < fuel ∧
        (CString.read stored).length -
          ((CString.read stored).rdropWhile isNewline).length < fuel ∧
        Trimmer.trimmed outside stored = s := by
  rw [trim_eq_some_iff short, doWhileLoop]
  apply and_congr_right
  intro _
  apply whileLoop_eq_some_iff_of_count
  · intro earlier before
    rw [← Function.iterate_succ_apply, Trimmer.test_iterate_deleteLast]
    exact test_of_lineEnd short (Nat.succ_pos earlier) (by omega)
  · change isNewline ((Trimmer.trimmed outside stored).memory
      (Trimmer.trimmed outside stored).last) = false
    rw [Trimmer.trimmed_memory (Int.le_refl _), Trimmer.trimmed_last]
    exact test_of_other short positive

/-- The bytes of a text, by their offset in the line. -/
theorem getElem?_lineText {line : CString} {position : Nat}
    (inside : position < (lineText line).length) :
    (lineText line).bytes[position]? =
      line.bytes[(line.takeWhile (· == 32)).length + position]? := by
  have counted := length_blanks line
  have within : (line.takeWhile (· == 32)).length + position <
      (line.rdropWhile isNewline).length := by
    omega
  rw [← drop_blanks, bytes_eq_append_lineEnds line,
    List.getElem?_append_left within]
  exact List.getElem?_drop

/-- What is left there is the text of the line. -/
theorem Trimmer.text_trimmed (short : stored.length < 768) :
    (trimmed outside stored).text = (lineText (.read stored)).bytes := by
  have counted := length_blanks (CString.read stored)
  have within := length_rdropWhile_le (CString.read stored)
  have length : ((trimmed outside stored).last + 1 -
      (trimmed outside stored).skip).toNat =
        (lineText (.read stored)).length := by
    rw [trimmed_last, trimmed_skip]
    omega
  apply List.ext_getElem?
  intro position
  rw [text, length, List.getElem?_map]
  rcases Nat.lt_or_ge position (lineText (.read stored)).length with
    inside | behind
  · have offset : (trimmed outside stored).skip + (position : Int) =
        (((CString.read stored).takeWhile (· == 32)).length + position :
          Nat) := by
      rw [trimmed_skip, Nat.cast_add]
    rw [List.getElem?_range inside, Option.map_some, offset,
      trimmed_memory (by rw [trimmed_last]; omega),
      aroundBuf_eq short (by omega), ← getElem?_lineText inside,
      List.getElem?_eq_getElem inside, Option.getD_some]
  · rw [List.getElem?_eq_none (by rwa [List.length_range]),
      List.getElem?_eq_none behind, Option.map_none]

/-- With another byte in the line, nothing around the buffer is touched. -/
theorem Trimmer.staysInside_trimmed (short : stored.length < 768)
    (positive : 0 < ((CString.read stored).rdropWhile isNewline).length) :
    (trimmed outside stored).StaysInside := by
  have counted := length_blanks (CString.read stored)
  have within := length_rdropWhile_le (CString.read stored)
  have upper := length_read_le stored
  intro offset touched
  unfold lineBufSize
  rcases List.mem_append.mp touched with read | written
  · rw [mem_trimmed_reads] at read
    omega
  · rw [mem_trimmed_writes] at written
    omega

section OnlyLineEnds

variable (short : stored.length < 768)
  (onlyLineEnds : ((CString.read stored).rdropWhile isNewline).length = 0)
  {fuel : Nat} {s : Trimmer}
  (returned : Trimmer.trim outside stored fuel = some s)

include short onlyLineEnds returned

/-- With nothing but line ends in the line, the second loop goes on until a byte
in front of the buffer stops it. -/
theorem exists_rounds_of_eq_zero :
    ∃ rounds, (CString.read stored).length < rounds ∧
      Trimmer.deleteLast^[rounds] (Trimmer.passed outside stored) = s ∧
      isNewline (aroundBuf outside stored
        ((CString.read stored).length - rounds)) = false ∧
      ∀ earlier, 0 < earlier → earlier < rounds →
        isNewline (aroundBuf outside stored
          ((CString.read stored).length - earlier)) = true := by
  obtain ⟨-, deleted⟩ := (trim_eq_some_iff short).mp returned
  obtain ⟨rounds, positive, -, reached, stops, goesOn⟩ :=
    doWhileLoop_eq_some_iff.mp deleted
  rw [← reached, Trimmer.test_iterate_deleteLast] at stops
  refine ⟨rounds, ?_, reached, stops, fun earlier first before => ?_⟩
  · by_contra few
    have lineEnd := @test_of_lineEnd outside stored short rounds positive
      (by omega)
    rw [stops] at lineEnd
    cases lineEnd
  · rw [← Trimmer.test_iterate_deleteLast]
    exact goesOn earlier first before

/-- Such a run leaves the buffer, wherever it stops. -/
theorem leaves_of_eq_zero : s.last < 0 ∧ -1 ∈ s.reads := by
  obtain ⟨rounds, passedAll, rfl, -, -⟩ :=
    exists_rounds_of_eq_zero short onlyLineEnds returned
  rw [Trimmer.iterate_deleteLast_last, Trimmer.mem_iterate_deleteLast_reads,
    Trimmer.passed_last]
  exact ⟨by omega, .inr (by omega)⟩

/-- It overwrites the byte in front of the buffer exactly if this byte happens
to be a line end. -/
theorem mem_writes_iff_of_eq_zero :
    -1 ∈ s.writes ↔ isNewline (outside (-1)) = true := by
  obtain ⟨rounds, passedAll, rfl, stops, goesOn⟩ :=
    exists_rounds_of_eq_zero short onlyLineEnds returned
  have front : aroundBuf outside stored (-1) = outside (-1) :=
    if_neg (by omega)
  rw [Trimmer.mem_iterate_deleteLast_writes, Trimmer.passed_writes,
    Trimmer.passed_last, or_iff_right List.not_mem_nil, ← front]
  constructor
  · rintro ⟨behind, -⟩
    have lineEnd := goesOn ((CString.read stored).length + 1)
      (Nat.succ_pos _) (by omega)
    rwa [Nat.cast_succ, sub_add_cancel_left] at lineEnd
  · intro lineEnd
    have further : rounds ≠ (CString.read stored).length + 1 := by
      rintro rfl
      rw [Nat.cast_succ, sub_add_cancel_left, lineEnd] at stops
      cases stops
    omega

end OnlyLineEnds

/-- The test behind the loops sees how long the text is, wherever the second
loop stops. -/
theorem eaten_iff (short : stored.length < 768) {fuel : Nat} {s : Trimmer}
    (returned : Trimmer.trim outside stored fuel = some s) :
    s.last - s.skip ≤ 0 ↔ (lineText (.read stored)).length ≤ 1 := by
  have counted := length_blanks (CString.read stored)
  rcases Nat.eq_zero_or_pos
    ((CString.read stored).rdropWhile isNewline).length with none | positive
  · obtain ⟨rounds, passedAll, rfl, -, -⟩ :=
      exists_rounds_of_eq_zero short none returned
    rw [Trimmer.iterate_deleteLast_last, Trimmer.iterate_deleteLast_skip,
      Trimmer.passed_last, Trimmer.passed_skip]
    omega
  · obtain ⟨-, -, rfl⟩ := (trim_eq_some_iff_of_pos short positive).mp returned
    rw [Trimmer.trimmed_last, Trimmer.trimmed_skip]
    omega

/-- So the loop body does what `parseLine` says, although the second loop may
leave the buffer: it passes over the line, or goes on with the text between the
pointers. -/
theorem parseLine_eq_of_trim (short : stored.length < 768) {fuel : Nat}
    {s : Trimmer} (returned : Trimmer.trim outside stored fuel = some s)
    (sectionName : CString) (state : ConfigState) :
    parseLine sectionName state (.read stored) =
      if s.last - s.skip ≤ 0 then state
      else parseText sectionName state (.read s.text) := by
  have counted := length_blanks (CString.read stored)
  have eaten := eaten_iff short returned
  rw [parseLine_eq]
  split
  · rename_i passedOver
    exact if_pos (.inl (eaten.mp passedOver))
  · rename_i more
    have positive :
        0 < ((CString.read stored).rdropWhile isNewline).length := by
      omega
    obtain ⟨-, -, rfl⟩ := (trim_eq_some_iff_of_pos short positive).mp returned
    rw [Trimmer.text_trimmed short, CString.read_bytes]

/-- With nothing but line ends in the line, no run is as it should be. -/
theorem not_trimsLine_of_eq_zero (short : stored.length < 768)
    (onlyLineEnds : ((CString.read stored).rdropWhile isNewline).length = 0) :
    ¬TrimsLine outside stored := by
  rintro ⟨fuel, s, returned, inside, -⟩
  have leaves := leaves_of_eq_zero short onlyLineEnds returned
  have front := (inside (-1) (List.mem_append_left _ leaves.2)).1
  omega

end Runs

/-- The loops do what they are for exactly if the string in the buffer has a
byte that is not a line end. -/
theorem trimsLine_iff (outside : Int → UInt8) (file : List UInt8) :
    TrimsLine outside (fgets 766 file).1 ↔
      ∃ byte ∈ (CString.read (fgets 766 file).1).bytes,
        isNewline byte = false := by
  have short : (fgets 766 file).1.length < 768 :=
    Nat.lt_of_le_of_lt (length_fgets_le 766 file) (by decide)
  rw [← rdropWhile_pos_iff]
  constructor
  · intro trims
    by_contra none
    exact not_trimsLine_of_eq_zero short (Nat.eq_zero_of_not_pos none) trims
  · intro positive
    refine ⟨_, Trimmer.trimmed outside _,
      (trim_eq_some_iff_of_pos short positive).mpr
        ⟨Nat.lt_succ_of_le (Nat.le_max_left _ _),
          Nat.lt_succ_of_le (Nat.le_max_right _ _), rfl⟩, ?_, ?_⟩
    · exact Trimmer.staysInside_trimmed short positive
    · exact Trimmer.text_trimmed short

/-- At the end of a file and at an empty line, the byte in front of the buffer
is read, and overwritten if it happens to be a line end. -/
theorem trim_leaves_buf :
    ((Trimmer.trim (fun _ => 0) (fgets 766 []).1 9).map fun s =>
        (s.last, s.reads, s.writes)) = some (-1, [-1, 0], [0]) ∧
      ((Trimmer.trim (fun offset => if offset = -1 then 10 else 0)
        (fgets 766 [10]).1 9).map fun s => (s.last, s.reads, s.writes)) =
          some (-2, [-2, -1, 0, 0], [-1, 0, 1]) ∧
      ¬∀ outside file, TrimsLine outside (fgets 766 file).1 := by
  refine ⟨by decide, by decide, fun claimed => ?_⟩
  exact not_trimsLine_of_eq_zero (by decide) (by decide)
    (claimed (fun _ => 0) [])

/-! ## Whole files -/

/-- A round that does not meet the end of the file leaves the next one what it
has not read. -/
def NextRound (file rest : List UInt8) : Prop :=
  ∃ buf, fgets 766 file = (buf, rest, false)

/-- A file whose last line has its newline is read to its end before the last
round. -/
theorem nextRounds_of_ended {file : List UInt8}
    (ended : file = [] ∨ file.getLast? = some 10) :
    Relation.ReflTransGen NextRound file [] := by
  induction size : file.length using Nat.strong_induction_on
    generalizing file with
  | h size inductionHypothesis =>
      rcases ended with rfl | ended
      · exact .refl
      · have more : (fgets 766 file).2.2 = false := by
          by_contra eof
          have noNewline := (fgets_of_eof (Bool.eq_true_of_not_eq_false eof)).2
          exact noNewline (List.mem_of_getLast? ended)
        have whole := fgets_append_rest 766 file
        have shorter := fgets_rest_lt 765 more
        refine .head ⟨(fgets 766 file).1, ?_⟩
          (inductionHypothesis _ (size ▸ shorter) ?_ rfl)
        · rw [← more]
        · cases remaining : (fgets 766 file).2.1 with
          | nil => exact .inl rfl
          | cons byte rest =>
              rw [← whole, remaining, List.getLast?_append_cons] at ended
              exact .inr ended

/-- Reading such a file leaves the buffer, at the latest in the last round. -/
theorem exists_round_not_trimsLine (outside : Int → UInt8) {file : List UInt8}
    (ended : file = [] ∨ file.getLast? = some 10) :
    ∃ rest, Relation.ReflTransGen NextRound file rest ∧
      ¬TrimsLine outside (fgets 766 rest).1 :=
  ⟨[], nextRounds_of_ended ended,
    not_trimsLine_of_eq_zero (by decide) (by decide)⟩

end Hamchat
