import Hamchat.Ardop.Correction
import Mathlib.Data.List.Nodup

/-!
# Sending and receiving check bytes

What `RSEncode` appends to a row of bytes, `RSDecode` checks and corrects.  The
constants of the coder are computed again when the number of check bytes
changes, so that what the calls return does not depend on the calls before them.
-/

namespace Hamchat
namespace Ardop

open Foundation Polynomial

/-- The number of places at which two rows of one length differ. -/
def differences (first second : List UInt8) : Nat :=
  (first.zip second).countP fun pair => pair.1 != pair.2

theorem differences_append {first second : List UInt8}
    (sameLength : first.length = second.length) (firstBack secondBack : List UInt8) :
    differences (first ++ firstBack) (second ++ secondBack) =
      differences first second + differences firstBack secondBack := by
  rw [differences, List.zip_append sameLength, List.countP_append]
  rfl

theorem differences_self (row : List UInt8) : differences row row = 0 := by
  induction row with
  | nil => rfl
  | cons byte rest inductionHypothesis =>
      rw [differences, List.zip_cons_cons, List.countP_cons_of_neg (by simp)]
      exact inductionHypothesis

/-- Rows of one length are equal if they do not differ. -/
theorem eq_of_differences_eq_zero {first second : List UInt8}
    (sameLength : first.length = second.length)
    (none : differences first second = 0) : first = second := by
  induction first generalizing second with
  | nil => exact (List.length_eq_zero_iff.mp sameLength.symm).symm
  | cons byte rest inductionHypothesis =>
      cases second with
      | nil => cases sameLength
      | cons other others =>
          rw [differences, List.zip_cons_cons, List.countP_cons] at none
          have here : ¬(byte != other) = true := by
            intro different
            rw [if_pos different] at none
            omega
          rw [bne_iff_ne, not_not] at here
          rw [here, inductionHypothesis (Nat.succ.inj sameLength)
            (Nat.eq_zero_of_add_eq_zero_right none)]

theorem differences_le_length (first second : List UInt8) :
    differences first second ≤ first.length := by
  refine List.countP_le_length.trans ?_
  rw [List.length_zip]
  exact Nat.min_le_left _ _

theorem differences_set_le (row other : List UInt8) (i : Nat) (byte : UInt8) :
    differences row (other.set i byte) ≤ differences row other + 1 := by
  induction row generalizing other i with
  | nil => exact Nat.zero_le _
  | cons first rest inductionHypothesis =>
      cases other with
      | nil => exact Nat.zero_le _
      | cons second others =>
          cases i with
          | zero =>
              rw [List.set_cons_zero, differences, differences, List.zip_cons_cons,
                List.zip_cons_cons, List.countP_cons, List.countP_cons]
              split <;> omega
          | succ i =>
              have step := inductionHypothesis others i
              rw [differences, differences] at step
              rw [List.set_cons_succ, differences, differences, List.zip_cons_cons,
                List.zip_cons_cons, List.countP_cons, List.countP_cons]
              omega

theorem getD_zip (first second : List UInt8) {i : Nat} (inside : i < first.length)
    (sameLength : first.length = second.length) :
    (first.zip second)[i]? = some (first.getD i 0, second.getD i 0) := by
  rw [List.getElem?_zip_eq_some, List.getD_eq_getElem?_getD,
    List.getD_eq_getElem?_getD, List.getElem?_eq_getElem inside,
    List.getElem?_eq_getElem (sameLength ▸ inside)]
  exact ⟨rfl, rfl⟩

/-- The errors are counted. -/
theorem card_errorPlaces {sent received : List UInt8} (sentSized : sent.length = 255)
    (receivedSized : received.length = 255) :
    (errorPlaces sent received).card = differences sent received := by
  have pairs : sent.zip received =
      (List.range 255).map fun i => (sent.getD i 0, received.getD i 0) := by
    apply List.ext_getElem?
    intro i
    rw [List.getElem?_map]
    rcases Nat.lt_or_ge i 255 with inside | beyond
    · rw [getD_zip _ _ (by omega) (by omega), List.getElem?_range inside]
      rfl
    · rw [List.getElem?_eq_none (by simp; omega), List.getElem?_eq_none (by simpa)]
      rfl
  rw [differences, pairs, List.countP_map, List.countP_eq_length_filter]
  have places : errorPlaces sent received =
      ((List.range 255).filter ((fun pair => pair.1 != pair.2) ∘
        fun i => (sent.getD i 0, received.getD i 0))).toFinset := by
    ext i
    rw [mem_errorPlaces, List.mem_toFinset, List.mem_filter, List.mem_range,
      Function.comp_apply, bne_iff_ne, entry, entry, symbol_injective.ne_iff, ne_comm]
  rw [places, List.toFinset_card_of_nodup (List.nodup_range.filter _)]

/-! ## The loop over the error locations -/

theorem eq_of_entry_eq {first second : List UInt8}
    (sameLength : first.length = second.length)
    (same : ∀ i < first.length, entry first i = entry second i) : first = second := by
  apply List.ext_getElem sameLength
  intro i inFirst inSecond
  have here := symbol_injective (same i inFirst)
  rwa [List.getD_eq_getElem?_getD, List.getD_eq_getElem?_getD,
    List.getElem?_eq_getElem inFirst, List.getElem?_eq_getElem inSecond] at here

theorem entry_reverse {row : List UInt8} {i : Nat} (inside : i < row.length) :
    entry row.reverse i = entry row (row.length - 1 - i) := by
  rw [entry, entry, List.getD_eq_getElem?_getD, List.getD_eq_getElem?_getD,
    List.getElem?_reverse inside]

section Loop

variable {npar : Nat} {lambda omega : List UInt8}

theorem length_foldl_correctError (locs : List Nat) (csize : Nat)
    (codeword : List UInt8) :
    (locs.foldl (correctError npar lambda omega csize) codeword).length =
      codeword.length := by
  induction locs generalizing codeword with
  | nil => rfl
  | cons loc rest inductionHypothesis =>
      rw [List.foldl_cons, inductionHypothesis, correctError, List.length_set]

/-- The loop changes the places that it visits, each of them once. -/
theorem entry_foldl_correctError {locs : List Nat} (nodup : locs.Nodup)
    (inside : ∀ loc ∈ locs, loc < 255) {codeword : List UInt8}
    (sized : codeword.length = 255) {place : Nat} (within : place < 255) :
    entry (locs.foldl (correctError npar lambda omega 255) codeword)
        (255 - place - 1) =
      entry codeword (255 - place - 1) +
        if place ∈ locs then symbol (errorMagnitude npar lambda omega place)
        else 0 := by
  induction locs generalizing codeword with
  | nil => rw [List.foldl_nil, if_neg List.not_mem_nil, add_zero]
  | cons loc rest inductionHypothesis =>
      have locInside := inside loc List.mem_cons_self
      have others : ∀ other ∈ rest, other < 255 := fun other among =>
        inside other (List.mem_cons_of_mem loc among)
      rw [List.nodup_cons] at nodup
      rw [List.foldl_cons, inductionHypothesis nodup.2 others
        (by rw [correctError, List.length_set, sized]), correctError, entry_set]
      by_cases here : place = loc
      · subst here
        rw [if_pos ⟨rfl, by omega⟩, if_neg nodup.1, add_zero,
          if_pos List.mem_cons_self, symbol_xor]
        rfl
      · rw [if_neg (by omega)]
        congr 1
        apply if_congr _ rfl rfl
        rw [List.mem_cons, or_iff_right here]

end Loop

/-! ## Correction of a row -/

section Rows

variable {npar : Nat} {sent received : List UInt8}

/-- With few errors, `correct_errors_erasures` restores the row. -/
theorem correctErrorsErasures_eq (positive : 0 < npar) (small : npar < 255)
    (sentSized : sent.length = 255) (receivedSized : received.length = 255)
    (code : generator npar ∣ bytesPolynomial sent.reverse)
    (some : sent ≠ received) (few : 2 * differences sent received ≤ npar)
    (synBytes : List UInt8) :
    correctErrorsErasures npar (npar / 2)
        (decodeData npar synBytes received.reverse 255) received.reverse 255 [] =
      (true, sent.reverse, differences sent received) := by
  have count := card_errorPlaces sentSized receivedSized
  rw [← count] at few ⊢
  have errors : (errorPlaces sent received).Nonempty := by
    rw [Finset.nonempty_iff_ne_empty, Ne, ← Finset.card_eq_zero, count]
    exact fun none => some (eq_of_differences_eq_zero (by omega) none)
  have sums := areSyndromes_decodeData small sentSized receivedSized code synBytes
  set synBytes' := decodeData npar synBytes received.reverse 255
  have locator := holds_modifiedBerlekampMassey sums few
    (fun place _ => errorLocation_ne_zero place) (errorLocation_injOn sent received)
    fun _ => errorValue_ne_zero
  have evaluator := holds_computeModifiedOmega sums few errors locator
  rw [correctErrorsErasures]
  set lambda := modifiedBerlekampMassey npar synBytes' []
  set omega := computeModifiedOmega npar lambda synBytes'
  have number := length_findRoots positive locator few
  have inside : ∀ loc ∈ findRoots npar lambda, loc < 255 := fun loc among =>
    (mem_errorPlaces.mp ((mem_findRoots positive locator few loc).mp among)).1
  have legal : ((findRoots npar lambda).any fun loc => 255 ≤ loc) = false := by
    rw [List.any_eq_false]
    intro loc among
    have within := inside loc among
    simpa using within
  have enough := Finset.card_pos.mpr errors
  rw [if_pos (by omega), legal, number]
  simp only [Bool.false_eq_true, if_false, Prod.mk.injEq, true_and, and_true]
  -- Every place is restored.
  apply eq_of_entry_eq
  · rw [length_foldl_correctError, List.length_reverse, List.length_reverse,
      receivedSized, sentSized]
  · intro i within
    rw [length_foldl_correctError, List.length_reverse, receivedSized] at within
    obtain ⟨place, placeInside, rfl⟩ : ∃ place < 255, 255 - place - 1 = i :=
      ⟨254 - i, by omega, by omega⟩
    have turned : 255 - 1 - (255 - place - 1) = place := by omega
    rw [entry_foldl_correctError (nodup_findRoots npar lambda) inside
        (by rw [List.length_reverse, receivedSized]) placeInside,
      entry_reverse (by omega), entry_reverse (by omega), receivedSized, sentSized,
      turned]
    by_cases wrong : place ∈ errorPlaces sent received
    · rw [if_pos ((mem_findRoots positive locator few place).mpr wrong),
        symbol_errorMagnitude positive locator evaluator few wrong, errorValue,
        CharTwo.sub_eq_add, ← add_assoc, CharTwo.add_self_eq_zero, zero_add]
    · rw [if_neg (mt (mem_findRoots positive locator few place).mp wrong), add_zero]
      by_contra different
      exact wrong (mem_errorPlaces.mpr ⟨placeInside, different⟩)

/-- No more errors than check bytes are noticed. -/
theorem checkSyndrome_of_errors (small : npar < 255)
    (sentSized : sent.length = 255) (receivedSized : received.length = 255)
    (code : generator npar ∣ bytesPolynomial sent.reverse)
    (some : sent ≠ received) (few : differences sent received ≤ npar)
    (synBytes : List UInt8) :
    checkSyndrome npar (decodeData npar synBytes received.reverse 255) = true := by
  have count := card_errorPlaces sentSized receivedSized
  rw [← count] at few
  have errors : (errorPlaces sent received).Nonempty := by
    rw [Finset.nonempty_iff_ne_empty, Ne, ← Finset.card_eq_zero, count]
    exact fun none => some (eq_of_differences_eq_zero (by omega) none)
  obtain ⟨j, inside, nonzero⟩ := exists_syndrome_ne_zero errors few
    (fun place _ => errorLocation_ne_zero place) (errorLocation_injOn sent received)
    fun _ => @errorValue_ne_zero sent received _
  by_contra accepted
  rw [Bool.not_eq_true, checkSyndrome_eq_false_iff] at accepted
  apply nonzero
  rw [← areSyndromes_decodeData small sentSized receivedSized code synBytes j inside]
  exact accepted j inside

end Rows

/-! ## The variables of the coder -/

/-- The constants belong to the number of check bytes. -/
def Coder.Ready (coder : Coder) : Prop :=
  ∀ npar : Nat, coder.NPAR = npar → 0 < npar → npar ≤ 64 →
    coder.MaxErrors = npar / 2 ∧ Holds npar coder.genPoly (generator npar)

/-- A call of the coder that stays inside its arrays, which have room for
`MAXNPAR` check bytes. -/
inductive CoderCall where
  | encode (bytToRS : List UInt8) (rsLen : Nat) (small : rsLen ≤ 64)
      (fits : bytToRS.length + rsLen ≤ 255)
  | decode (bytRcv : List UInt8) (checkLen : Nat) (small : checkLen ≤ 64)

/-- The variables after a call. -/
def Coder.call (coder : Coder) : CoderCall → Coder
  | .encode bytToRS rsLen _ _ => (rsEncode coder bytToRS rsLen).2
  | .decode bytRcv checkLen _ => (rsDecode coder bytRcv checkLen).coder

/-- The variables after the calls of a run of the program. -/
def coderAfter (calls : List CoderCall) : Coder :=
  calls.foldl Coder.call Coder.initial

theorem Coder.ready_initial : Coder.initial.Ready := by
  intro npar same
  have negative : (-1 : Int) = npar := same
  omega

theorem Coder.Ready.setLength {coder : Coder} (ready : coder.Ready) (rsLen : Nat) :
    (coder.setLength rsLen).Ready ∧ (coder.setLength rsLen).NPAR = rsLen := by
  unfold Coder.setLength
  split
  · refine ⟨?_, rfl⟩
    intro npar same positive small
    obtain rfl : rsLen = npar := Int.ofNat.inj same
    exact ⟨rfl, holds_computeGenpoly positive (by omega) coder.genPoly⟩
  · next same => exact ⟨ready, not_not.mp same⟩

/-- After the constants have been computed. -/
theorem Coder.Ready.setLength_spec {coder : Coder} (ready : coder.Ready)
    {rsLen : Nat} (positive : 0 < rsLen) (small : rsLen ≤ 64) :
    (coder.setLength rsLen).MaxErrors = rsLen / 2 ∧
      Holds rsLen (coder.setLength rsLen).genPoly (generator rsLen) :=
  (ready.setLength rsLen).1 rsLen (ready.setLength rsLen).2 positive small

/-- Decoding keeps the constants that it uses. -/
theorem Coder.Ready.rsDecode {coder : Coder} (ready : coder.Ready)
    (bytRcv : List UInt8) (checkLen : Nat) :
    (rsDecode coder bytRcv checkLen).coder.Ready := by
  have next := (ready.setLength checkLen).1
  unfold Ardop.rsDecode
  dsimp only
  split
  · exact ready
  · split
    · split <;> exact next
    · exact next

theorem Coder.Ready.call {coder : Coder} (ready : coder.Ready) (call : CoderCall) :
    (coder.call call).Ready := by
  cases call with
  | encode bytToRS rsLen _ _ => exact (ready.setLength rsLen).1
  | decode bytRcv checkLen _ => exact ready.rsDecode bytRcv checkLen

theorem ready_coderAfter (calls : List CoderCall) : (coderAfter calls).Ready := by
  unfold coderAfter
  induction calls using List.reverseRecOn with
  | nil => exact Coder.ready_initial
  | append_singleton calls call inductionHypothesis =>
      rw [List.foldl_append, List.foldl_cons, List.foldl_nil]
      exact inductionHypothesis.call call

/-! ## Rows with their check bytes -/

/-- The bytes followed by the check bytes, as the frames hold them. -/
def withCheckBytes (coder : Coder) (bytToRS : List UInt8) (rsLen : Nat) :
    List UInt8 :=
  bytToRS ++ (rsEncode coder bytToRS rsLen).1

/-- The entries of `intTemp`, from the last one to the first. -/
def powerRow (bytes : List UInt8) (checkLen : Nat) : List UInt8 :=
  bytes.drop (bytes.length - checkLen) ++ List.replicate (255 - bytes.length) 0 ++
    bytes.take (bytes.length - checkLen)

section Whole

variable {coder : Coder} {bytes other : List UInt8} {checkLen : Nat}

theorem length_rsEncode (coder : Coder) (bytToRS : List UInt8) (rsLen : Nat) :
    (rsEncode coder bytToRS rsLen).1.length = rsLen :=
  length_encodeData _ _ _

theorem length_withCheckBytes (coder : Coder) (bytToRS : List UInt8) (rsLen : Nat) :
    (withCheckBytes coder bytToRS rsLen).length = bytToRS.length + rsLen := by
  rw [withCheckBytes, List.length_append, length_rsEncode]

theorem length_powerRow (short : bytes.length ≤ 255) (long : checkLen ≤ bytes.length) :
    (powerRow bytes checkLen).length = 255 := by
  rw [powerRow, List.length_append, List.length_append, List.length_drop,
    List.length_replicate, List.length_take]
  omega

theorem reverse_powerRow (bytes : List UInt8) (checkLen : Nat) :
    (powerRow bytes checkLen).reverse =
      (bytes.take (bytes.length - checkLen)).reverse ++
        List.replicate (255 - bytes.length) 0 ++
          (bytes.drop (bytes.length - checkLen)).reverse := by
  rw [powerRow, List.reverse_append, List.reverse_append, List.reverse_replicate,
    List.append_assoc]

/-- The last loops of `RSDecode` undo the first ones. -/
theorem unpack_powerRow (short : bytes.length ≤ 255) (long : checkLen ≤ bytes.length) :
    ((powerRow bytes checkLen).reverse.take (bytes.length - checkLen)).reverse ++
        ((powerRow bytes checkLen).reverse.drop (255 - checkLen)).reverse = bytes := by
  have frontLength : (bytes.take (bytes.length - checkLen)).reverse.length =
      bytes.length - checkLen := by
    rw [List.length_reverse, List.length_take]
    omega
  have middleLength : ((bytes.take (bytes.length - checkLen)).reverse ++
      List.replicate (255 - bytes.length) 0).length = 255 - checkLen := by
    rw [List.length_append, frontLength, List.length_replicate]
    omega
  rw [reverse_powerRow, ← middleLength, List.drop_left, List.append_assoc,
    List.take_left' frontLength, List.reverse_reverse, List.reverse_reverse,
    List.take_append_drop]

theorem differences_powerRow (sameLength : bytes.length = other.length) :
    differences (powerRow bytes checkLen) (powerRow other checkLen) =
      differences bytes other := by
  have whole : differences (bytes.take (bytes.length - checkLen) ++
      bytes.drop (bytes.length - checkLen)) (other.take (bytes.length - checkLen) ++
        other.drop (bytes.length - checkLen)) = differences bytes other := by
    rw [List.take_append_drop, List.take_append_drop]
  rw [differences_append (by simp [sameLength])] at whole
  rw [powerRow, powerRow, ← sameLength, differences_append (by simp [sameLength]),
    differences_append (by simp [sameLength]), differences_self, ← whole]
  omega

theorem powerRow_injective (short : bytes.length ≤ 255)
    (long : checkLen ≤ bytes.length) (sameLength : bytes.length = other.length)
    (same : powerRow bytes checkLen = powerRow other checkLen) : bytes = other := by
  rw [← unpack_powerRow short long, same, sameLength,
    unpack_powerRow (sameLength ▸ short) (sameLength ▸ long)]

/-- Bytes with their check bytes are a multiple of the generator. -/
theorem generator_dvd_withCheckBytes (ready : coder.Ready) (positive : 0 < checkLen)
    (small : checkLen ≤ 64) (fits : bytes.length + checkLen ≤ 255) :
    generator checkLen ∣ bytesPolynomial
      (powerRow (withCheckBytes coder bytes checkLen) checkLen).reverse := by
  have spec := (ready.setLength_spec positive small).2
  have padded : (List.replicate (255 - (bytes.length + checkLen)) 0 ++ bytes).length ≤
      255 - checkLen := by
    rw [List.length_append, List.length_replicate]
    omega
  have code := generator_dvd_encodeData positive spec _ padded
  have dataLength : bytes.length + checkLen - checkLen = bytes.length :=
    Nat.add_sub_cancel _ _
  rw [reverse_powerRow, length_withCheckBytes, dataLength, withCheckBytes,
    List.take_left, List.drop_left, List.append_assoc]
  rw [List.reverse_append, List.reverse_replicate, List.append_assoc] at code
  exact code

/-- The branches of `RSDecode` for a row that is not too long or too short. -/
theorem rsDecode_eq (coder : Coder) (short : bytes.length ≤ 255)
    (long : checkLen < bytes.length) :
    (checkSyndrome checkLen (decodeData checkLen (coder.setLength checkLen).synBytes
          (powerRow bytes checkLen).reverse 255) = false ∧
        (rsDecode coder bytes checkLen).frameOK = true ∧
        (rsDecode coder bytes checkLen).blnRSOK = true ∧
        (rsDecode coder bytes checkLen).bytRcv = bytes) ∨
      (checkSyndrome checkLen (decodeData checkLen
          (coder.setLength checkLen).synBytes (powerRow bytes checkLen).reverse 255) =
          true ∧
        (rsDecode coder bytes checkLen).blnRSOK = false ∧
        ∀ codeword nErrors,
          correctErrorsErasures checkLen (coder.setLength checkLen).MaxErrors
              (decodeData checkLen (coder.setLength checkLen).synBytes
                (powerRow bytes checkLen).reverse 255)
              (powerRow bytes checkLen).reverse 255 [] =
            (true, codeword, nErrors) →
          (rsDecode coder bytes checkLen).frameOK = true ∧
            (rsDecode coder bytes checkLen).bytRcv =
              (codeword.take (bytes.length - checkLen)).reverse ++
                (codeword.drop (255 - checkLen)).reverse ∧
            (rsDecode coder bytes checkLen).coder.NErrors = nErrors) := by
  rw [rsDecode, if_neg (by omega), reverse_powerRow]
  dsimp only
  cases checkSyndrome checkLen (decodeData checkLen
      (coder.setLength checkLen).synBytes _ 255) with
  | false => exact Or.inl ⟨rfl, rfl, rfl, rfl⟩
  | true =>
      refine Or.inr ⟨rfl, ?_, ?_⟩
      · rw [if_pos rfl]
        split <;> rfl
      · intro codeword nErrors corrected
        rw [if_pos rfl, corrected]
        exact ⟨rfl, rfl, rfl⟩

theorem syndrome_of_differences (ready : coder.Ready) (positive : 0 < checkLen)
    (small : checkLen ≤ 64) (fits : bytes.length + checkLen ≤ 255)
    (sameLength : other.length = bytes.length + checkLen)
    (some : withCheckBytes coder bytes checkLen ≠ other)
    (few : differences (withCheckBytes coder bytes checkLen) other ≤ checkLen)
    (synBytes : List UInt8) :
    checkSyndrome checkLen (decodeData checkLen synBytes
      (powerRow other checkLen).reverse 255) = true := by
  have sentLength := length_withCheckBytes coder bytes checkLen
  apply checkSyndrome_of_errors (by omega) (length_powerRow (by omega) (by omega))
    (length_powerRow (by omega) (by omega))
    (generator_dvd_withCheckBytes ready positive small fits)
  · exact fun same => some
      (powerRow_injective (by omega) (by omega) (by omega) same)
  · rwa [differences_powerRow (by omega)]

end Whole

/-- A row with no more wrong bytes than half of its check bytes is restored. -/
theorem Coder.Ready.restores {sender receiver : Coder} (ready : sender.Ready)
    (receiverReady : receiver.Ready) {bytes received : List UInt8} {checkLen : Nat}
    (positive : 0 < checkLen) (small : checkLen ≤ 64) (some : bytes ≠ [])
    (fits : bytes.length + checkLen ≤ 255)
    (sameLength : received.length = bytes.length + checkLen)
    (few : 2 * differences (withCheckBytes sender bytes checkLen) received ≤
      checkLen) :
    let sent := withCheckBytes sender bytes checkLen
    let result := Ardop.rsDecode receiver received checkLen
    result.frameOK = true ∧ result.bytRcv = sent ∧
      (result.blnRSOK = true ↔ received = sent) ∧
      (received ≠ sent →
        result.coder.NErrors = differences sent received) := by
  intro sent result
  have spec := receiverReady.setLength_spec positive small
  have sentLength : sent.length = bytes.length + checkLen :=
    length_withCheckBytes _ _ _
  have dataPositive := List.length_pos_iff.mpr some
  have code : generator checkLen ∣
      bytesPolynomial (powerRow sent checkLen).reverse :=
    generator_dvd_withCheckBytes ready positive small fits
  have branches := rsDecode_eq receiver
    (show received.length ≤ 255 by omega) (show checkLen < received.length by omega)
  by_cases same : received = sent
  · -- Nothing is wrong.
    have accepted : checkSyndrome checkLen (decodeData checkLen
        (receiver.setLength checkLen).synBytes
        (powerRow sent checkLen).reverse 255) = false := by
      refine (checkSyndrome_decodeData_iff (by omega) _ ?_).mpr code
      rw [List.length_reverse, length_powerRow (by omega) (by omega)]
    rcases branches with ⟨_, frameOK, blnRSOK, bytRcv⟩ | ⟨refused, _⟩
    · exact ⟨frameOK, bytRcv.trans same, iff_of_true blnRSOK same,
        fun different => absurd same different⟩
    · rw [same] at refused
      exact absurd (accepted.symm.trans refused) (by decide)
  · have rows : powerRow sent checkLen ≠ powerRow received checkLen := fun equal =>
      same (powerRow_injective (by omega) (by omega) (by omega) equal).symm
    have distance : differences (powerRow sent checkLen)
        (powerRow received checkLen) = differences sent received :=
      differences_powerRow (by omega)
    have corrected := correctErrorsErasures_eq positive (by omega)
      (length_powerRow (by omega) (by omega))
      (length_powerRow (by omega) (by omega)) code rows (by rwa [distance])
      (receiver.setLength checkLen).synBytes
    rcases branches with ⟨accepted, _⟩ | ⟨_, blnRSOK, whenCorrected⟩
    · rw [syndrome_of_differences ready positive small fits sameLength
        (Ne.symm same) (by omega)] at accepted
      exact absurd accepted (by decide)
    · rw [← spec.1] at corrected
      obtain ⟨frameOK, bytRcv, count⟩ := whenCorrected _ _ corrected
      refine ⟨frameOK, ?_, iff_of_false (by rw [blnRSOK]; decide) same,
        fun _ => count.trans distance⟩
      rw [bytRcv, show received.length = sent.length by omega]
      exact unpack_powerRow (by omega) (by omega)

/-- A row with no more wrong bytes than check bytes is no row with its check
bytes, and it is not taken for one. -/
theorem Coder.Ready.notices {sender receiver : Coder} (ready : sender.Ready)
    (receiverReady : receiver.Ready) {bytes received : List UInt8} {checkLen : Nat}
    (positive : 0 < checkLen) (small : checkLen ≤ 64) (some : bytes ≠ [])
    (fits : bytes.length + checkLen ≤ 255)
    (sameLength : received.length = bytes.length + checkLen)
    (wrong : received ≠ withCheckBytes sender bytes checkLen)
    (few : differences (withCheckBytes sender bytes checkLen) received ≤ checkLen) :
    (Ardop.rsDecode receiver received checkLen).blnRSOK = false ∧
      ∀ other, received ≠ withCheckBytes receiver other checkLen := by
  have dataPositive := List.length_pos_iff.mpr some
  have refused := syndrome_of_differences ready positive small
    fits sameLength wrong.symm few
  constructor
  · rcases rsDecode_eq receiver (show received.length ≤ 255 by omega)
      (show checkLen < received.length by omega) with ⟨accepted, _⟩ | ⟨_, notOK, _⟩
    · rw [refused] at accepted
      exact absurd accepted (by decide)
    · exact notOK
  · rintro other rfl
    rw [length_withCheckBytes] at sameLength
    have code := generator_dvd_withCheckBytes receiverReady
      positive small (show other.length + checkLen ≤ 255 by omega)
    have accepted : checkSyndrome checkLen (decodeData checkLen [] (powerRow
        (withCheckBytes receiver other checkLen)
        checkLen).reverse 255) = false := by
      refine (checkSyndrome_decodeData_iff (by omega) _ ?_).mpr code
      have length := length_withCheckBytes receiver other checkLen
      rw [List.length_reverse, length_powerRow (by omega) (by omega)]
    rw [refused] at accepted
    exact absurd accepted (by decide)

/-- Whatever the coders have done before: bytes that reach the receiver with no
more wrong bytes than half of the check bytes, wrong check bytes among them, are
restored, and their number is the one that the receiver counts. -/
theorem rsDecode_of_few_differences {sentCalls receivedCalls : List CoderCall}
    {bytes received : List UInt8} {checkLen : Nat} (positive : 0 < checkLen)
    (small : checkLen ≤ 64) (some : bytes ≠ [])
    (fits : bytes.length + checkLen ≤ 255)
    (sameLength : received.length = bytes.length + checkLen)
    (few : 2 * differences (withCheckBytes (coderAfter sentCalls) bytes checkLen)
      received ≤ checkLen) :
    let sent := withCheckBytes (coderAfter sentCalls) bytes checkLen
    let result := rsDecode (coderAfter receivedCalls) received checkLen
    result.frameOK = true ∧ result.bytRcv = sent ∧
      (result.blnRSOK = true ↔ received = sent) ∧
      (received ≠ sent →
        result.coder.NErrors = differences sent received) :=
  (ready_coderAfter sentCalls).restores (ready_coderAfter receivedCalls) positive
    small some fits sameLength few

theorem rsDecode_of_two_wrong_bytes :
    (rsDecode (coderAfter []) (((withCheckBytes (coderAfter []) [72, 105] 4).set
      0 99).set 1 98) 4).bytRcv = withCheckBytes (coderAfter []) [72, 105] 4 := by
  have few : 2 * differences (withCheckBytes (coderAfter []) [72, 105] 4)
      (((withCheckBytes (coderAfter []) [72, 105] 4).set 0 99).set 1 98) ≤ 4 := by
    have first := differences_set_le (withCheckBytes (coderAfter []) [72, 105] 4)
      (withCheckBytes (coderAfter []) [72, 105] 4) 0 99
    have second := differences_set_le (withCheckBytes (coderAfter []) [72, 105] 4)
      ((withCheckBytes (coderAfter []) [72, 105] 4).set 0 99) 1 98
    rw [differences_self] at first
    omega
  have sized : (((withCheckBytes (coderAfter []) [72, 105] 4).set 0 99).set
      1 98).length = [(72 : UInt8), 105].length + 4 := by
    rw [List.length_set, List.length_set, length_withCheckBytes]
  exact (@rsDecode_of_few_differences [] [] [72, 105] _ 4 (by decide) (by decide)
    (by decide) (by decide) sized few).2.1

/-- No more wrong bytes than check bytes are ever taken for a row that is
right, and two rows with their check bytes differ in more bytes than that. -/
theorem rsDecode_notices {sentCalls receivedCalls : List CoderCall}
    {bytes received : List UInt8} {checkLen : Nat} (positive : 0 < checkLen)
    (small : checkLen ≤ 64) (some : bytes ≠ [])
    (fits : bytes.length + checkLen ≤ 255)
    (sameLength : received.length = bytes.length + checkLen)
    (wrong : received ≠ withCheckBytes (coderAfter sentCalls) bytes checkLen)
    (few : differences (withCheckBytes (coderAfter sentCalls) bytes checkLen)
      received ≤ checkLen) :
    (rsDecode (coderAfter receivedCalls) received checkLen).blnRSOK = false ∧
      ∀ other, received ≠ withCheckBytes (coderAfter receivedCalls) other checkLen :=
  (ready_coderAfter sentCalls).notices (ready_coderAfter receivedCalls) positive
    small some fits sameLength wrong few

theorem rsDecode_notices_one_wrong_byte :
    (rsDecode (coderAfter []) ((withCheckBytes (coderAfter []) [72, 105] 4).set 0 99)
      4).blnRSOK = false := by
  have few : differences (withCheckBytes (coderAfter []) [72, 105] 4)
      ((withCheckBytes (coderAfter []) [72, 105] 4).set 0 99) ≤ 4 := by
    have first := differences_set_le (withCheckBytes (coderAfter []) [72, 105] 4)
      (withCheckBytes (coderAfter []) [72, 105] 4) 0 99
    rw [differences_self] at first
    omega
  have wrong : (withCheckBytes (coderAfter []) [72, 105] 4).set 0 99 ≠
      withCheckBytes (coderAfter []) [72, 105] 4 := by
    intro same
    have head := congrArg List.head? same
    rw [withCheckBytes, List.cons_append, List.set_cons_zero, List.head?_cons,
      List.head?_cons] at head
    exact absurd head (by decide)
  have sized : ((withCheckBytes (coderAfter []) [72, 105] 4).set 0 99).length =
      [(72 : UInt8), 105].length + 4 := by
    rw [List.length_set, length_withCheckBytes]
  exact (@rsDecode_notices [] [] [72, 105] _ 4 (by decide) (by decide) (by decide)
    (by decide) sized wrong few).1

/-- `RSDecode` accepts a row without a correction exactly if its check bytes are
the ones that `RSEncode` computes. -/
theorem blnRSOK_iff {sentCalls receivedCalls : List CoderCall}
    {received : List UInt8} {checkLen : Nat} (positive : 0 < checkLen)
    (small : checkLen ≤ 64) :
    (rsDecode (coderAfter receivedCalls) received checkLen).blnRSOK = true ↔
      checkLen < received.length ∧ received.length ≤ 255 ∧
        received = withCheckBytes (coderAfter sentCalls)
          (received.take (received.length - checkLen)) checkLen := by
  set bytes := received.take (received.length - checkLen) with bytes_eq
  by_cases outside : 255 < received.length ∨ received.length < 1 + checkLen
  · apply iff_of_false
    · rw [rsDecode, if_pos outside]
      exact Bool.false_ne_true
    · rintro ⟨long, short, _⟩
      omega
  · have bytesLength : bytes.length = received.length - checkLen := by
      rw [bytes_eq, List.length_take]
      omega
    have some : bytes ≠ [] := List.length_pos_iff.mp (by omega)
    constructor
    · intro accepted
      refine ⟨by omega, by omega, ?_⟩
      by_contra wrong
      -- Only the check bytes can differ.
      have few : differences (withCheckBytes (coderAfter sentCalls) bytes checkLen)
          received ≤ checkLen := by
        have parts : received =
            bytes ++ received.drop (received.length - checkLen) := by
          rw [bytes_eq, List.take_append_drop]
        rw [withCheckBytes, parts, differences_append rfl, differences_self,
          Nat.zero_add]
        refine (differences_le_length _ _).trans ?_
        rw [length_rsEncode]
      rw [((ready_coderAfter sentCalls).notices (ready_coderAfter receivedCalls)
        positive small some (by omega) (by omega) wrong few).1] at accepted
      exact absurd accepted (by decide)
    · rintro ⟨_, _, same⟩
      refine ((ready_coderAfter sentCalls).restores (ready_coderAfter receivedCalls)
        positive small some (by omega) (by omega) ?_).2.2.1.mpr same
      rw [← same, differences_self]
      exact Nat.zero_le _

theorem blnRSOK_of_encoded :
    (rsDecode (coderAfter []) (withCheckBytes (coderAfter []) [72, 105] 4)
      4).blnRSOK = true := by
  have length := length_withCheckBytes (coderAfter []) [72, 105] 4
  refine (@blnRSOK_iff [] [] _ 4 (by decide) (by decide)).mpr ⟨?_, ?_, ?_⟩
  · rw [length]
    decide
  · rw [length]
    decide
  · rw [length]
    exact congrArg (fun bytes => withCheckBytes (coderAfter []) bytes 4)
      (List.take_left' rfl).symm

end Ardop
end Hamchat
