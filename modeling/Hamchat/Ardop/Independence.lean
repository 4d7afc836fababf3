import Hamchat.Ardop.Decoding

/-!
# What the coder keeps is not seen

The generator polynomial and the syndromes stay in variables between the calls
of the coder, and behind the entries that a call writes there is what earlier
calls have left.  What a call returns does not depend on it.
-/

namespace Hamchat
namespace Ardop

/-- Two arrays agree in the entries in front of a bound. -/
def AgreeBelow (bound : Nat) (first second : List UInt8) : Prop :=
  ∀ i < bound, first.getD i 0 = second.getD i 0

theorem tabulate_congr {count : Nat} {f g : Nat → UInt8}
    (same : ∀ i < count, f i = g i) : tabulate count f = tabulate count g :=
  List.map_congr_left fun i among => same i (List.mem_range.mp among)

theorem xorLoop_congr {count : Nat} {f g : Nat → UInt8}
    (same : ∀ i < count, f i = g i) : xorLoop count f = xorLoop count g := by
  unfold xorLoop
  apply List.foldl_ext
  intro sum i among
  rw [same i (List.mem_range.mp among)]

theorem Holds.agreeBelow {npar bound : Nat} (within : bound ≤ npar * 2)
    {first second : List UInt8} {p : Polynomial GaloisByte}
    (firstHolds : Holds npar first p) (secondHolds : Holds npar second p) :
    AgreeBelow bound first second := by
  intro i inside
  apply symbol_injective
  exact (firstHolds i (by omega)).trans (secondHolds i (by omega)).symm

variable {npar : Nat}

/-! ## The encoder -/

theorem encodeRound_congr {genPoly genPoly' : List UInt8}
    (agree : AgreeBelow npar genPoly genPoly') (lfsr : List UInt8) (byte : UInt8) :
    encodeRound npar genPoly lfsr byte = encodeRound npar genPoly' lfsr byte := by
  apply tabulate_congr
  intro j inside
  rw [agree j inside, agree 0 (by omega)]

theorem rsEncode_eq {coder other : Coder} (ready : coder.Ready)
    (otherReady : other.Ready) (bytToRS : List UInt8) {rsLen : Nat}
    (positive : 0 < rsLen) (small : rsLen ≤ 64) :
    (rsEncode coder bytToRS rsLen).1 = (rsEncode other bytToRS rsLen).1 := by
  have agree : AgreeBelow rsLen (coder.setLength rsLen).genPoly
      (other.setLength rsLen).genPoly :=
    (ready.setLength_spec positive small).2.agreeBelow (by omega)
      (otherReady.setLength_spec positive small).2
  have rounds : encodeRound rsLen (coder.setLength rsLen).genPoly =
      encodeRound rsLen (other.setLength rsLen).genPoly := by
    funext lfsr byte
    exact encodeRound_congr agree lfsr byte
  rw [rsEncode, rsEncode, encodeData, encodeData, rounds]

/-! ## The decoder -/

section Syndromes

variable {synBytes synBytes' : List UInt8} (agree : AgreeBelow npar synBytes synBytes')
include agree

theorem checkSyndrome_congr :
    checkSyndrome npar synBytes = checkSyndrome npar synBytes' := by
  unfold checkSyndrome
  rw [Bool.eq_iff_iff, List.any_eq_true, List.any_eq_true]
  apply exists_congr
  intro i
  apply and_congr_right
  intro among
  rw [agree i (List.mem_range.mp among)]

theorem computeDiscrepancy_congr (lambda : List UInt8) (L : Int) {n : Nat}
    (inside : n < npar) :
    computeDiscrepancy lambda synBytes L n = computeDiscrepancy lambda synBytes' L n := by
  apply xorLoop_congr
  intro i _
  rw [agree (n - i) (by omega)]

theorem masseyRound_congr (state : Massey) {n : Nat} (inside : n < npar) :
    masseyRound npar synBytes state n = masseyRound npar synBytes' state n := by
  rw [masseyRound, computeDiscrepancy_congr agree state.psi state.L inside,
    ← masseyRound]

theorem modifiedBerlekampMassey_congr (erasures : List Nat)
    (few : erasures.length ≤ npar) :
    modifiedBerlekampMassey npar synBytes erasures =
      modifiedBerlekampMassey npar synBytes' erasures := by
  unfold modifiedBerlekampMassey
  dsimp only
  congr 1
  apply List.foldl_ext
  intro state n among
  rw [List.mem_range'_1] at among
  exact masseyRound_congr agree state (by omega)

theorem computeModifiedOmega_congr (lambda : List UInt8) :
    computeModifiedOmega npar lambda synBytes =
      computeModifiedOmega npar lambda synBytes' := by
  apply tabulate_congr
  intro i inside
  split
  · next within =>
      apply symbol_injective
      change entry (multPolys npar lambda synBytes) i =
        entry (multPolys npar lambda synBytes') i
      rw [entry_multPolys _ _ inside, entry_multPolys _ _ inside]
      apply Finset.sum_congr rfl
      intro split among
      rw [Finset.mem_range] at among
      rw [entry, entry, entry, agree (i - split) (by omega)]
  · rfl

theorem correctErrorsErasures_congr (maxErrors csize : Nat) (codeword : List UInt8) :
    correctErrorsErasures npar maxErrors synBytes codeword csize [] =
      correctErrorsErasures npar maxErrors synBytes' codeword csize [] := by
  rw [correctErrorsErasures, correctErrorsErasures,
    modifiedBerlekampMassey_congr agree [] (Nat.zero_le npar),
    computeModifiedOmega_congr agree]

end Syndromes

theorem decodeData_agree (synBytes synBytes' data : List UInt8) (nbytes : Nat) :
    AgreeBelow npar (decodeData npar synBytes data nbytes)
      (decodeData npar synBytes' data nbytes) := by
  intro i inside
  apply symbol_injective
  change entry _ i = entry _ i
  rw [decodeData, decodeData, entry_overwrite, entry_overwrite, length_tabulate,
    if_pos inside, if_pos inside]

theorem length_correctErrorsErasures (maxErrors csize : Nat)
    (synBytes codeword : List UInt8) (erasures : List Nat) :
    (correctErrorsErasures npar maxErrors synBytes codeword csize erasures).2.1.length =
      codeword.length := by
  unfold correctErrorsErasures
  dsimp only
  split
  · split
    · rfl
    · exact length_foldl_correctError _ _ _
  · rfl

/-- `RSDecode` keeps the length of the row. -/
theorem length_rsDecode (coder : Coder) (bytRcv : List UInt8) (checkLen : Nat) :
    (rsDecode coder bytRcv checkLen).bytRcv.length = bytRcv.length := by
  unfold rsDecode
  dsimp only
  split
  · rfl
  · split
    · split
      · rw [List.length_append, List.length_reverse, List.length_reverse,
          List.length_take, List.length_drop, length_correctErrorsErasures]
        simp only [List.length_append, List.length_reverse, List.length_take,
          List.length_drop, List.length_replicate]
        omega
      · rfl
    · rfl

/-- What a call of `RSDecode` returns. -/
def RSResult.returned (result : RSResult) : Bool × Bool × List UInt8 :=
  (result.frameOK, result.blnRSOK, result.bytRcv)

theorem rsDecode_returned_eq {coder other : Coder} (ready : coder.Ready)
    (otherReady : other.Ready) (bytRcv : List UInt8) {checkLen : Nat}
    (positive : 0 < checkLen) (small : checkLen ≤ 64) :
    (rsDecode coder bytRcv checkLen).returned =
        (rsDecode other bytRcv checkLen).returned ∧
      ((rsDecode coder bytRcv checkLen).frameOK = true →
        (rsDecode coder bytRcv checkLen).blnRSOK = false →
          (rsDecode coder bytRcv checkLen).coder.NErrors =
            (rsDecode other bytRcv checkLen).coder.NErrors) := by
  have maxErrors := (ready.setLength_spec positive small).1
  have otherMaxErrors := (otherReady.setLength_spec positive small).1
  rw [rsDecode, rsDecode]
  dsimp only
  split
  · exact ⟨rfl, fun failed => absurd failed Bool.false_ne_true⟩
  · set intTemp := (bytRcv.take (bytRcv.length - checkLen)).reverse ++
      List.replicate (255 - bytRcv.length) 0 ++
        (bytRcv.drop (bytRcv.length - checkLen)).reverse
    have agree := @decodeData_agree checkLen
      (coder.setLength checkLen).synBytes (other.setLength checkLen).synBytes
      intTemp 255
    rw [checkSyndrome_congr agree, correctErrorsErasures_congr agree, maxErrors,
      otherMaxErrors]
    split
    · split
      · exact ⟨rfl, fun _ _ => rfl⟩
      · exact ⟨rfl, fun failed => absurd failed Bool.false_ne_true⟩
    · exact ⟨rfl, fun _ notOK => absurd notOK.symm Bool.false_ne_true⟩

/-- After any calls, the check bytes and everything that a decoding reports are
those of a coder that has just been started. -/
theorem coder_keeps_nothing (calls : List CoderCall) (bytes : List UInt8)
    {checkLen : Nat} (positive : 0 < checkLen) (small : checkLen ≤ 64) :
    (rsEncode (coderAfter calls) bytes checkLen).1 =
        (rsEncode Coder.initial bytes checkLen).1 ∧
      (rsDecode (coderAfter calls) bytes checkLen).returned =
        (rsDecode Coder.initial bytes checkLen).returned ∧
      ((rsDecode (coderAfter calls) bytes checkLen).frameOK = true →
        (rsDecode (coderAfter calls) bytes checkLen).blnRSOK = false →
          (rsDecode (coderAfter calls) bytes checkLen).coder.NErrors =
            (rsDecode Coder.initial bytes checkLen).coder.NErrors) :=
  ⟨rsEncode_eq (ready_coderAfter calls) Coder.ready_initial bytes positive small,
    rsDecode_returned_eq (ready_coderAfter calls) Coder.ready_initial bytes positive
      small⟩

theorem coder_keeps_nothing_of_four :
    (rsEncode (coderAfter [.encode [1] 2 (by decide) (by decide)]) [72, 105] 4).1 =
      (rsEncode Coder.initial [72, 105] 4).1 :=
  (@coder_keeps_nothing [.encode [1] 2 (by decide) (by decide)] [72, 105] 4
    (by decide) (by decide)).1

end Ardop
end Hamchat
