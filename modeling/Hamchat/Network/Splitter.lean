import Hamchat.Network.Part

/-!
# The splitter of PART

The first loop of `m_part`, which is to cut the parameter into names.  It runs
while the pointer itself is not NULL and never looks for the terminator, so it
has read past the string before it can stop.
-/

namespace Hamchat

/-- The variables of the loop, and what it has touched. -/
structure Splitter where
  /-- `char *p` -/
  p : Nat
  /-- `int i` -/
  i : Nat
  /-- `int chan_count` -/
  chanCount : Nat
  /-- `char chans[JOIN_MAX_CHAN][CHAN_LEN]`, and what follows it, by offset. -/
  chans : Nat → UInt8
  /-- The addresses that it has read, the latest first. -/
  reads : List Nat
  /-- The offsets from `chans` that it has written, the latest first. -/
  writes : List Nat

namespace Splitter

/-- The variables before the loop. -/
def start (chnames : Nat) : Splitter where
  p := chnames
  i := 0
  chanCount := 0
  chans := fun _ => 0
  reads := []
  writes := []

/-- The branches of the loop, for the byte at `p`. -/
def take (s : Splitter) (byte : UInt8) : Splitter :=
  if byte ≠ comma then
    let offset := chanLen * s.chanCount + s.i
    { s with
      chans := Function.update s.chans offset byte
      writes := offset :: s.writes }
  else
    { s with chanCount := s.chanCount + 1, i := 0 }

/-- One round of the loop.  The counters cannot overflow before a write has left
the array. -/
def round (memory : Nat → UInt8) (s : Splitter) : Splitter :=
  let taken := s.take (memory s.p)
  { taken with
    i := taken.i + 1
    p := u64 (s.p + 1)
    reads := s.p :: s.reads }

/-- `while (p != NULL)`, for at most `fuel` rounds. -/
def loop (memory : Nat → UInt8) : (fuel : Nat) → Splitter → Option Splitter
  | 0, s => if s.p = 0 then some s else none
  | fuel + 1, s =>
      if s.p = 0 then some s else loop memory fuel (s.round memory)

/-- The string in a row of the array. -/
def row (s : Splitter) (j : Nat) : List UInt8 :=
  (CString.read ((List.range chanLen).map fun column =>
    s.chans (chanLen * j + column))).bytes

/-- What the loop is for: it has read the string and no more, has written into
the array and nowhere else, and each row has its piece of the string. -/
structure HasSplit (s : Splitter) (chnames : Nat) (argument : CString) :
    Prop where
  /-- No read goes past the terminator. -/
  reads : ∀ address ∈ s.reads,
    chnames ≤ address ∧ address ≤ chnames + argument.length
  /-- No write goes past the array. -/
  writes : ∀ offset ∈ s.writes, offset < chanLen * joinMaxChan
  /-- The rows hold the pieces. -/
  rows : ∀ j < joinMaxChan, ∀ piece,
    (argument.bytes.splitOn comma)[j]? = some piece →
      s.row j = piece.take (chanLen - 1)

end Splitter

/-- The string `argument` is stored at `chnames`, which is not NULL, and the
address behind its terminator exists. -/
structure StoredAt (memory : Nat → UInt8) (chnames : Nat)
    (argument : CString) : Prop where
  /-- The pointer is not NULL. -/
  pos : 0 < chnames
  /-- The string and the address behind it are in the address space. -/
  inside : chnames + argument.length + 1 < 2 ^ 64
  /-- The bytes of the string. -/
  byte : ∀ k byte, argument.bytes[k]? = some byte → memory (chnames + k) = byte
  /-- The terminator. -/
  terminated : memory (chnames + argument.length) = 0

/-- The loop of `m_part` stops, and has split the string. -/
def PartSplits (memory : Nat → UInt8) (chnames : Nat) (argument : CString) :
    Prop :=
  ∃ fuel final, (Splitter.start chnames).loop memory fuel = some final ∧
    final.HasSplit chnames argument

namespace Splitter

variable {memory : Nat → UInt8}

@[simp] theorem round_p (s : Splitter) :
    (s.round memory).p = u64 (s.p + 1) := rfl

@[simp] theorem round_reads (s : Splitter) :
    (s.round memory).reads = s.p :: s.reads := rfl

/-- The loop returns after some rounds, with `p` NULL. -/
theorem loop_eq_some {fuel : Nat} {s final : Splitter}
    (returned : s.loop memory fuel = some final) :
    final.p = 0 ∧ ∃ rounds, final = (round memory)^[rounds] s := by
  induction fuel generalizing s with
  | zero =>
      rw [loop] at returned
      split at returned
      · rename_i stopped
        cases returned
        exact ⟨stopped, 0, rfl⟩
      · cases returned
  | succ fuel inductionHypothesis =>
      rw [loop] at returned
      split at returned
      · rename_i stopped
        cases returned
        exact ⟨stopped, 0, rfl⟩
      · obtain ⟨null, rounds, rfl⟩ := inductionHypothesis returned
        exact ⟨null, rounds + 1, rfl⟩

/-- The pointer moves on by one in each round. -/
theorem iterate_round_p {chnames rounds : Nat}
    (inside : chnames + rounds < 2 ^ 64) :
    ((round memory)^[rounds] (start chnames)).p = chnames + rounds := by
  induction rounds with
  | zero => rfl
  | succ rounds inductionHypothesis =>
      rw [Function.iterate_succ_apply', round_p,
        inductionHypothesis (by omega), Nat.add_assoc, u64_of_lt inside]

/-- Every address that `p` has had before has been read. -/
theorem p_mem_reads {s : Splitter} {earlier rounds : Nat}
    (before : earlier < rounds) :
    ((round memory)^[earlier] s).p ∈ ((round memory)^[rounds] s).reads := by
  induction rounds with
  | zero => exact absurd before (Nat.not_lt_zero earlier)
  | succ rounds inductionHypothesis =>
      rw [Function.iterate_succ_apply', round_reads]
      rcases Nat.lt_succ_iff_lt_or_eq.mp before with past | rfl
      · exact List.mem_cons_of_mem _ (inductionHypothesis past)
      · exact List.mem_cons_self

/-- Behind a comma the column is never zero again: the counter that the comma
resets is incremented in the same round. -/
theorem iterate_round_i_pos {chnames : Nat} (rounds : Nat)
    (later : 0 < ((round memory)^[rounds] (start chnames)).chanCount) :
    0 < ((round memory)^[rounds] (start chnames)).i := by
  cases rounds with
  | zero => exact absurd later (Nat.lt_irrefl 0)
  | succ rounds =>
      rw [Function.iterate_succ_apply']
      exact Nat.succ_pos _

/-- By the time the loop returns it has read the address behind the
terminator. -/
theorem loop_reads_past {chnames : Nat} {argument : CString}
    (stored : StoredAt memory chnames argument) {fuel : Nat}
    {final : Splitter}
    (returned : (start chnames).loop memory fuel = some final) :
    chnames + (argument.length + 1) ∈ final.reads := by
  obtain ⟨null, rounds, rfl⟩ := loop_eq_some returned
  have positive := stored.pos
  have inside := stored.inside
  have long : argument.length + 1 < rounds := by
    by_contra short
    rw [iterate_round_p (by omega)] at null
    omega
  have read : ((round memory)^[argument.length + 1] (start chnames)).p ∈
      ((round memory)^[rounds] (start chnames)).reads := p_mem_reads long
  have behind : chnames + (argument.length + 1) < 2 ^ 64 := inside
  rwa [iterate_round_p behind] at read

end Splitter

/-- For no string does the loop of `m_part` stop with the string split. -/
theorem not_partSplits {memory : Nat → UInt8} {chnames : Nat}
    {argument : CString} (stored : StoredAt memory chnames argument) :
    ¬PartSplits memory chnames argument := by
  rintro ⟨fuel, final, returned, split⟩
  have past := split.reads _ (Splitter.loop_reads_past stored returned)
  omega

/-- A memory that holds one string. -/
def memoryWith (chnames : Nat) (argument : CString) (address : Nat) : UInt8 :=
  (argument.bytes[address - chnames]?).getD 0

theorem storedAt_memoryWith {chnames : Nat} {argument : CString}
    (positive : 0 < chnames)
    (inside : chnames + argument.length + 1 < 2 ^ 64) :
    StoredAt (memoryWith chnames argument) chnames argument where
  pos := positive
  inside := inside
  byte k byte found := by
    rw [memoryWith, Nat.add_sub_cancel_left, found]
    rfl
  terminated := by
    rw [memoryWith, Nat.add_sub_cancel_left, CString.length,
      List.getElem?_eq_none (Nat.le_refl _)]
    rfl

theorem not_partSplits_one_channel :
    ¬PartSplits (memoryWith 4096 (.ofLiteral "#ham")) 4096
      (.ofLiteral "#ham") :=
  not_partSplits (storedAt_memoryWith (by decide) (by decide))

/-- At the end of `#a,#b` the loop goes on, and the second name, written one
column too far to the right, is not in its row. -/
theorem splitter_misses_second_name :
    let argument := CString.ofLiteral "#a,#b"
    let memory := memoryWith 4096 argument
    let atEnd := (Splitter.round memory)^[5] (Splitter.start 4096)
    atEnd.p ≠ 0 ∧ atEnd.row 0 = (CString.ofLiteral "#a").bytes ∧
      atEnd.row 1 = [] ∧ ¬PartSplits memory 4096 argument := by
  intro argument memory atEnd
  refine ⟨by decide +kernel, by decide +kernel, by decide +kernel, ?_⟩
  rintro ⟨fuel, final, returned, split⟩
  have past := split.reads _ (Splitter.loop_reads_past
    (storedAt_memoryWith (by decide) (by decide)) returned)
  omega

end Hamchat
