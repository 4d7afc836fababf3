import Hamchat.Ardop.Delivery

/-!
# Memory ARQ

A carrier that has failed more than once is tried again with the average of its samples.
`DemodPSK` then corrects all carriers again and moves each one to the start of `bytData`,
and `DemodQAM` counts only the first two in `frameLen`.  What is known of the carriers is
one invariant, which each attempt to correct them keeps.
-/

namespace Hamchat
namespace Ardop

/-! ## What is known -/

/-- The carriers that are tried again with the average of their samples. -/
def Retried (strMod : Modulation) (place : Nat) : Prop :=
  strMod = .psk4 ∨ strMod = .psk8 ∨ strMod = .qam16 ∧ place < 2

/-- The block that is found in the average of the samples. -/
def Samples.average (samples : Samples) (intDataLen intRSLen place : Nat) : List UInt8 :=
  (samples.averaged.getD place []).take (intDataLen + 3 + intRSLen)

/-- Each block of a reception, and each block that is found in an average, is close to
the one that was sent, or refused. -/
def Decided (strMod : Modulation) (bytFrameType : UInt8) (intDataLen intRSLen : Nat)
    (blocks : List (List UInt8)) (samples : Samples) : Prop :=
  samples.received.length = blocks.length ∧ ∀ place < blocks.length,
    (Readable bytFrameType intDataLen intRSLen (blocks.getD place [])
        (samples.received.getD place []) ∨
      Refused bytFrameType intDataLen intRSLen (samples.received.getD place [])) ∧
    (Retried strMod place →
      Readable bytFrameType intDataLen intRSLen (blocks.getD place [])
          (samples.average intDataLen intRSLen place) ∨
        Refused bytFrameType intDataLen intRSLen
          (samples.average intDataLen intRSLen place))

/-- What a carrier is known to be after some receptions. -/
structure Carrier.Stands (carrier : Carrier) (chunk : List UInt8) (heard retried : Prop)
    (count : Nat) : Prop where
  good : carrier.carrierOk = true ↔ heard
  delivers : Delivers chunk carrier
  saved : retried → ¬carrier.carrierOk = true → carrier.intSumCount = count

/-- What all carriers are known to be.  Those behind the carriers of the frame may have
been saved too. -/
structure Stand (strMod : Modulation) (chunks : List (List UInt8)) (heard : Nat → Prop)
    (count : Nat) (carriers : List Carrier) : Prop where
  enough : chunks.length ≤ carriers.length
  each : ∀ place < chunks.length, ∃ carrier, carriers[place]? = some carrier ∧
    carrier.Stands (chunks.getD place []) (heard place) (Retried strMod place) count
  counts : ∀ carrier ∈ carriers, carrier.intSumCount ≤ count

section Carriers

variable {strMod : Modulation} {bytFrameType : UInt8} {intDataLen intRSLen : Nat}
  {chunks blocks : List (List UInt8)}

theorem getD_eq_of_lt {α : Type} {lists : List (List α)} {place : Nat}
    (inside : place < lists.length) : lists[place]? = some (lists.getD place []) := by
  rw [List.getD_eq_getElem?_getD, List.getElem?_eq_getElem inside, Option.getD_some]

theorem blockOf_getD
    (encoded : List.Forall₂ (BlockOf bytFrameType intDataLen intRSLen) chunks blocks)
    {place : Nat} (inside : place < chunks.length) :
    BlockOf bytFrameType intDataLen intRSLen (chunks.getD place [])
      (blocks.getD place []) := by
  have among : place < blocks.length := encoded.length_eq ▸ inside
  have pair := encoded.get inside among
  rw [List.get_eq_getElem, List.get_eq_getElem] at pair
  rwa [List.getD_eq_getElem?_getD, List.getD_eq_getElem?_getD,
    List.getElem?_eq_getElem inside, List.getElem?_eq_getElem among, Option.getD_some,
    Option.getD_some]

/-! ### One carrier -/

variable {carrier : Carrier} {chunk block : List UInt8} {heard retried : Prop}
  {count : Nat}

theorem take_overwrite {array front : List UInt8} {length : Nat}
    (whole : (front.take length).length = length) :
    (overwrite array front).take length = front.take length := by
  rw [List.length_take] at whole
  rw [overwrite, List.take_append_of_le_length (by omega)]

theorem length_of_decided (blockOf : BlockOf bytFrameType intDataLen intRSLen chunk block)
    {bytes : List UInt8}
    (decided : Readable bytFrameType intDataLen intRSLen block bytes ∨
      Refused bytFrameType intDataLen intRSLen bytes) :
    bytes.length = intDataLen + 3 + intRSLen := by
  rcases decided with readable | refused
  · exact readable.1.trans blockOf.length_eq
  · exact refused.1

theorem Carrier.Stands.demodulate (stands : carrier.Stands chunk heard retried count)
    (received : List UInt8) :
    (demodulate carrier received).Stands chunk heard retried count := by
  rw [Ardop.demodulate]
  split
  · exact stands
  · next bad => exact ⟨stands.good, fun good => absurd good bad, stands.saved⟩

theorem Carrier.Stands.saveSamples (stands : carrier.Stands chunk heard retried count)
    (averaged : List UInt8) :
    (saveSamples carrier averaged).Stands chunk heard retried (count + 1) := by
  rw [Ardop.saveSamples]
  split
  · next good => exact ⟨stands.good, stands.delivers, fun _ bad => absurd good bad⟩
  · next bad =>
    have counted (again : retried) : carrier.intSumCount + 1 = count + 1 := by
      rw [stands.saved again bad]
    split
    · exact ⟨stands.good, fun good => absurd good bad, fun again _ => counted again⟩
    · exact ⟨stands.good, fun good => absurd good bad, fun again _ => counted again⟩

theorem saveSamples_carrierOk (carrier : Carrier) (averaged : List UInt8) :
    (saveSamples carrier averaged).carrierOk = carrier.carrierOk := by
  rw [saveSamples]
  split
  · rfl
  · split <;> rfl

/-- A carrier that has been saved before is tried with the averaged bytes. -/
theorem saveSamples_bytRawData (bad : ¬carrier.carrierOk = true)
    (before : 0 < carrier.intSumCount) (averaged : List UInt8) :
    (saveSamples carrier averaged).bytRawData =
      overwrite carrier.bytRawData averaged := by
  rw [saveSamples, if_neg bad, if_pos (by omega)]

theorem saveSamples_intSumCount (few : carrier.intSumCount ≤ count)
    (averaged : List UInt8) :
    (saveSamples carrier averaged).intSumCount ≤ count + 1 := by
  rw [saveSamples]
  split
  · omega
  · split
    · exact Nat.succ_le_succ few
    · exact Nat.succ_le_succ few

/-- An attempt to correct a carrier. -/
theorem Carrier.Stands.correct (stands : carrier.Stands chunk heard retried count)
    (blockOf : BlockOf bytFrameType intDataLen intRSLen chunk block)
    (lengths : BlockLengths intDataLen intRSLen) {coder : Coder} (ready : coder.Ready)
    (totalRSErrors : Nat) {attempt : List UInt8}
    (tries : ¬carrier.carrierOk = true →
      carrier.bytRawData.take (intDataLen + 3 + intRSLen) = attempt)
    (decided : Readable bytFrameType intDataLen intRSLen block attempt ∨
      Refused bytFrameType intDataLen intRSLen attempt) :
    (correctRawDataWithRS coder totalRSErrors carrier intDataLen intRSLen
      bytFrameType).carrier.Stands chunk
        (heard ∨ Readable bytFrameType intDataLen intRSLen block attempt) retried
        count := by
  have corrected := blockOf.correct lengths ready totalRSErrors stands.delivers
    fun bad => by rwa [tries bad]
  refine ⟨corrected.1.trans ?_, corrected.2, fun again bad => ?_⟩
  · by_cases good : carrier.carrierOk = true
    · exact iff_of_true (.inl good) (.inl (stands.good.mp good))
    · rw [tries good, stands.good]
  · rw [correctRawDataWithRS_intSumCount]
    exact stands.saved again fun good => bad (corrected.1.mpr (.inl good))

/-! ### All carriers -/

variable {carriers prepared rest : List Carrier} {known : Nat → Prop}

theorem Stand.mono {other : Nat → Prop} {more : Nat}
    (stand : Stand strMod chunks known count carriers) (within : count ≤ more)
    (same : ∀ place < chunks.length, known place ↔ other place)
    (done : more = count ∨ ∀ place < chunks.length, Retried strMod place → known place) :
    Stand strMod chunks other more carriers where
  enough := stand.enough
  each := by
    intro place inside
    obtain ⟨carrier, here, stands⟩ := stand.each place inside
    refine ⟨carrier, here, stands.good.trans (same place inside), stands.delivers, ?_⟩
    intro again bad
    rcases done with rfl | done
    · exact stands.saved again bad
    · exact absurd (stands.good.mpr (done place inside again)) bad
  counts carrier among := (stand.counts carrier among).trans within

theorem Stand.all_iff (stand : Stand strMod chunks known count carriers) :
    (carriers.take chunks.length).all Carrier.carrierOk = true ↔
      ∀ place < chunks.length, known place := by
  rw [List.all_eq_true]
  constructor
  · intro allGood place inside
    obtain ⟨carrier, here, stands⟩ := stand.each place inside
    refine stands.good.mp (allGood carrier (List.mem_of_getElem? (i := place) ?_))
    rw [List.getElem?_take_of_lt inside]
    exact here
  · intro heard carrier among
    obtain ⟨place, here⟩ := List.mem_iff_getElem?.mp among
    have inside : place < chunks.length := by
      have bound := (List.getElem?_eq_some_iff.mp here).1
      rw [List.length_take] at bound
      omega
    rw [List.getElem?_take_of_lt inside] at here
    obtain ⟨other, there, stands⟩ := stand.each place inside
    rw [here, Option.some.injEq] at there
    rw [there]
    exact stands.good.mpr (heard place inside)

/-- Some carriers are corrected, one after the other. -/
theorem Stand.correct (stand : Stand strMod chunks known count (prepared ++ rest))
    (attempt : Nat → List UInt8)
    (lengths : BlockLengths intDataLen intRSLen)
    (encoded : List.Forall₂ (BlockOf bytFrameType intDataLen intRSLen) chunks blocks)
    (tries : ∀ place carrier, prepared[place]? = some carrier →
      ¬carrier.carrierOk = true →
        carrier.bytRawData.take (intDataLen + 3 + intRSLen) = attempt place)
    (decided : ∀ place < prepared.length,
      Readable bytFrameType intDataLen intRSLen (blocks.getD place []) (attempt place) ∨
        Refused bytFrameType intDataLen intRSLen (attempt place))
    {corrected : CorrectedCarriers}
    (corrects : CorrectsEach bytFrameType intDataLen intRSLen prepared corrected) :
    Stand strMod chunks (fun place => known place ∨ place < prepared.length ∧
        Readable bytFrameType intDataLen intRSLen (blocks.getD place []) (attempt place))
      count (corrected.carriers ++ rest) := by
  have sameLength := corrects.sameLength
  refine ⟨?_, ?_, ?_⟩
  · rw [List.length_append, sameLength, ← List.length_append]
    exact stand.enough
  · intro place inside
    obtain ⟨carrier, here, stands⟩ := stand.each place inside
    rcases Nat.lt_or_ge place prepared.length with first | behind
    · rw [List.getElem?_append_left first] at here
      obtain ⟨coder, totalRSErrors, ready, after⟩ := corrects.each place carrier here
      refine ⟨(correctRawDataWithRS coder totalRSErrors carrier intDataLen intRSLen
        bytFrameType).carrier, ?_, ?_⟩
      · rw [List.getElem?_append_left (sameLength ▸ first)]
        exact after
      · have done := stands.correct (blockOf_getD encoded inside) lengths ready totalRSErrors
          (tries place carrier here) (decided place first)
        refine ⟨done.good.trans ?_, done.delivers, done.saved⟩
        rw [and_iff_right first]
    · rw [List.getElem?_append_right behind, ← sameLength] at here
      refine ⟨carrier, ?_, stands.good.trans ?_, stands.delivers, stands.saved⟩
      · rw [List.getElem?_append_right (sameLength ▸ behind)]
        exact here
      · exact (or_iff_left fun read => absurd read.1 (not_lt.mpr behind)).symm
  · intro carrier among
    rcases List.mem_append.mp among with first | behind
    · obtain ⟨place, here⟩ := List.mem_iff_getElem?.mp first
      have inside := sameLength ▸ (List.getElem?_eq_some_iff.mp here).1
      obtain ⟨coder, totalRSErrors, ready, after⟩ :=
        corrects.each place _ (List.getElem?_eq_getElem inside)
      rw [here, Option.some.injEq] at after
      rw [after, correctRawDataWithRS_intSumCount]
      exact stand.counts _ (List.mem_append_left _ (List.getElem_mem inside))
    · exact stand.counts carrier (List.mem_append_right _ behind)

/-- The bytes that are moved once all carriers of a frame are decoded. -/
theorem Stand.pieces_eq {corrected : CorrectedCarriers}
    (stand : Stand strMod chunks known count (corrected.carriers ++ rest))
    (corrects : CorrectsEach bytFrameType intDataLen intRSLen prepared corrected)
    (whole : prepared.length = chunks.length)
    (heard : ∀ place < chunks.length, known place) :
    corrected.pieces = chunks := by
  have sameLength := corrects.sameLength.trans whole
  have allGood := stand.all_iff.mpr heard
  rw [← sameLength, List.take_left] at allGood
  rw [corrects.pieces allGood]
  apply List.ext_getElem?
  intro place
  rw [List.getElem?_map]
  rcases Nat.lt_or_ge place chunks.length with inside | beyond
  · obtain ⟨carrier, here, stands⟩ := stand.each place inside
    rw [List.getElem?_append_left (by omega)] at here
    rw [here, getD_eq_of_lt inside, Option.map_some, Option.some.injEq]
    exact stands.delivers (stands.good.mpr (heard place inside))
  · rw [List.getElem?_eq_none (by omega), List.getElem?_eq_none beyond]
    rfl

theorem getElem?_demodulate {received : List (List UInt8)} {place : Nat}
    (here : carriers[place]? = some carrier) (inside : place < received.length) :
    (List.zipWith demodulate carriers received)[place]? =
      some (demodulate carrier (received.getD place [])) := by
  rw [List.getElem?_zipWith, here, getD_eq_of_lt inside]

/-- The received bytes go to the carriers of the frame. -/
theorem Stand.prepare (stand : Stand strMod chunks known count carriers)
    {received : List (List UInt8)} (whole : received.length = chunks.length) :
    Stand strMod chunks known count
      (List.zipWith Ardop.demodulate carriers received ++ carriers.drop received.length) := by
  have enough := stand.enough
  have usedLength : (List.zipWith Ardop.demodulate carriers received).length =
      chunks.length := by
    rw [List.length_zipWith, whole, Nat.min_eq_right enough]
  refine ⟨by rw [List.length_append]; omega, ?_, ?_⟩
  · intro place inside
    obtain ⟨carrier, here, stands⟩ := stand.each place inside
    refine ⟨_, ?_, stands.demodulate (received.getD place [])⟩
    rw [List.getElem?_append_left (by omega)]
    exact getElem?_demodulate here (by omega)
  · intro carrier among
    rcases List.mem_append.mp among with first | behind
    · obtain ⟨place, here⟩ := List.mem_iff_getElem?.mp first
      have inside : place < chunks.length :=
        usedLength ▸ (List.getElem?_eq_some_iff.mp here).1
      obtain ⟨before, there, -⟩ := stand.each place inside
      rw [getElem?_demodulate there (by omega), Option.some.injEq] at here
      rw [← here, Ardop.demodulate]
      have few := stand.counts before (List.mem_of_getElem? there)
      split <;> exact few
    · exact stand.counts carrier (List.mem_of_mem_drop behind)

/-- A carrier that is not good yet is tried with the received block. -/
theorem Stand.prepare_tries (stand : Stand strMod chunks known count carriers)
    {received : List (List UInt8)} {place : Nat} {carrier : Carrier}
    (here : (List.zipWith Ardop.demodulate carriers received)[place]? = some carrier)
    (inside : place < chunks.length) (within : place < received.length)
    (bad : ¬carrier.carrierOk = true) {length : Nat}
    (sized : (received.getD place []).length = length) :
    carrier.bytRawData.take length = received.getD place [] := by
  obtain ⟨before, there, -⟩ := stand.each place inside
  rw [getElem?_demodulate there within, Option.some.injEq] at here
  subst here
  have badBefore : ¬before.carrierOk = true := by
    intro good
    rw [Ardop.demodulate, if_pos good] at bad
    exact bad good
  have same : (received.getD place []).take length = received.getD place [] :=
    List.take_of_length_le (Nat.le_of_eq sized)
  rw [Ardop.demodulate, if_neg badBefore, take_overwrite (by rw [same, sized]), same]

theorem getElem?_saveCarriers (first : Nat) (averaged : List (List UInt8))
    (carriers : List Carrier) (place : Nat) :
    (saveCarriers first averaged carriers)[place]? = carriers[place]?.map fun carrier =>
      if place < first then saveSamples carrier (averaged.getD place []) else carrier := by
  rw [saveCarriers, List.getElem?_mapIdx]

theorem Stand.save (stand : Stand strMod chunks known count carriers)
    {first : Nat} (saves : ∀ place < chunks.length, Retried strMod place → place < first)
    (averaged : List (List UInt8)) :
    Stand strMod chunks known (count + 1) (saveCarriers first averaged carriers) where
  enough := by
    rw [saveCarriers, List.length_mapIdx]
    exact stand.enough
  each := by
    intro place inside
    obtain ⟨carrier, here, stands⟩ := stand.each place inside
    rw [getElem?_saveCarriers, here, Option.map_some]
    refine ⟨_, rfl, ?_⟩
    split
    · exact stands.saveSamples _
    · next not => exact ⟨stands.good, stands.delivers,
        fun again => absurd (saves place inside again) not⟩
  counts := by
    intro saved among
    obtain ⟨place, here⟩ := List.mem_iff_getElem?.mp among
    rw [getElem?_saveCarriers, Option.map_eq_some_iff] at here
    obtain ⟨carrier, there, rfl⟩ := here
    have few := stand.counts carrier (List.mem_of_getElem? there)
    split
    · exact saveSamples_intSumCount few _
    · exact few.trans (Nat.le_succ count)

/-! ### Second attempts -/

/-- A carrier that has been saved before is tried with the block in the average. -/
theorem Stand.tries (stand : Stand strMod chunks known count carriers)
    (before : 0 < count) {first : Nat} {averaged : List (List UInt8)} {place : Nat}
    {saved : Carrier} (here : (saveCarriers first averaged carriers)[place]? = some saved)
    (inside : place < chunks.length) (again : Retried strMod place)
    (within : place < first) (bad : ¬saved.carrierOk = true) {length : Nat}
    (whole : ((averaged.getD place []).take length).length = length) :
    saved.bytRawData.take length = (averaged.getD place []).take length := by
  obtain ⟨carrier, there, stands⟩ := stand.each place inside
  rw [getElem?_saveCarriers, there, Option.map_some, Option.some.injEq, if_pos within]
    at here
  subst here
  rw [saveSamples_carrierOk] at bad
  have counted := stands.saved again bad
  rw [saveSamples_bytRawData bad (by omega), take_overwrite whole]

/-- If nothing is tried again, nothing could be heard by it. -/
theorem Stand.known_of_not_retried (stand : Stand strMod chunks known (count + 1) carriers)
    {first : Nat} (rests : ∀ carrier ∈ carriers.take first, ¬carrier.carrierOk = true →
      carrier.intSumCount ≤ 1)
    (before : 0 < count) {place : Nat} (inside : place < chunks.length)
    (again : Retried strMod place) (within : place < first) : known place := by
  obtain ⟨carrier, here, stands⟩ := stand.each place inside
  by_contra unknown
  have bad : ¬carrier.carrierOk = true := fun good => unknown (stands.good.mp good)
  have among : carrier ∈ carriers.take first := by
    apply List.mem_of_getElem? (i := place)
    rw [List.getElem?_take_of_lt within]
    exact here
  have counted := stands.saved again bad
  have few := rests carrier among bad
  omega

/-- What is known of the variables while a frame is decoded. -/
structure Demodulation.Knows (demodulation : Demodulation) (strMod : Modulation)
    (chunks : List (List UInt8)) (known : Nat → Prop) (count : Nat) : Prop where
  ready : demodulation.coder.Ready
  stand : Stand strMod chunks known count demodulation.carriers

/-- The bytes that `frameLen` counts are the data. -/
def Demodulation.Moves (demodulation : Demodulation) (data : List UInt8) : Prop :=
  demodulation.bytData.take demodulation.frameLen = data

/-- What has been heard once the averages have been tried. -/
def AlsoAveraged (strMod : Modulation) (bytFrameType : UInt8) (intDataLen intRSLen : Nat)
    (blocks : List (List UInt8)) (samples : Samples) (count : Nat) (known : Nat → Prop)
    (place : Nat) : Prop :=
  known place ∨ 0 < count ∧ Retried strMod place ∧
    Readable bytFrameType intDataLen intRSLen (blocks.getD place [])
      (samples.average intDataLen intRSLen place)

theorem AlsoAveraged.of_done {samples : Samples} {place : Nat}
    (heard : AlsoAveraged strMod bytFrameType intDataLen intRSLen blocks samples count known
      place)
    (done : 0 < count → Retried strMod place → known place) : known place := by
  rcases heard with heard | ⟨before, again, -⟩
  · exact heard
  · exact done before again

/-- The first carriers are corrected again after they have been saved. -/
theorem Stand.again (stand : Stand strMod chunks known count carriers)
    (before : 0 < count) (lengths : BlockLengths intDataLen intRSLen)
    (encoded : List.Forall₂ (BlockOf bytFrameType intDataLen intRSLen) chunks blocks)
    {samples : Samples}
    (decided : Decided strMod bytFrameType intDataLen intRSLen blocks samples)
    {first tried : Nat} (few : tried ≤ chunks.length) (within : tried ≤ first)
    (retries : ∀ place < chunks.length, Retried strMod place ↔ place < tried)
    {corrected : CorrectedCarriers}
    (corrects : CorrectsEach bytFrameType intDataLen intRSLen
      ((saveCarriers first samples.averaged carriers).take tried) corrected) :
    Stand strMod chunks
      (AlsoAveraged strMod bytFrameType intDataLen intRSLen blocks samples count known)
      (count + 1)
      (corrected.carriers ++ (saveCarriers first samples.averaged carriers).drop tried) := by
  have readable (place : Nat) (inside : place < tried) :
      Readable bytFrameType intDataLen intRSLen (blocks.getD place [])
          (samples.average intDataLen intRSLen place) ∨
        Refused bytFrameType intDataLen intRSLen
          (samples.average intDataLen intRSLen place) :=
    (decided.2 place (encoded.length_eq ▸ inside.trans_le few)).2
      ((retries place (inside.trans_le few)).mpr inside)
  have saved := stand.save
    (fun place inside again => ((retries place inside).mp again).trans_le within)
    samples.averaged
  have enough := saved.enough
  have triedLength : ((saveCarriers first samples.averaged carriers).take tried).length =
      tried := by
    rw [List.length_take]
    omega
  rw [← List.take_append_drop tried (saveCarriers first samples.averaged carriers)] at saved
  have done := saved.correct (samples.average intDataLen intRSLen) lengths encoded
    (fun place carrier here bad => by
      have inside : place < tried :=
        triedLength ▸ (List.getElem?_eq_some_iff.mp here).1
      rw [List.getElem?_take_of_lt inside] at here
      exact stand.tries before here (inside.trans_le few)
        ((retries place (inside.trans_le few)).mpr inside) (inside.trans_le within) bad
        (length_of_decided (blockOf_getD encoded (inside.trans_le few))
          (readable place inside)))
    (fun place inside => readable place (triedLength ▸ inside)) corrects
  refine done.mono (Nat.le_refl _) ?_ (.inl rfl)
  intro place inside
  rw [AlsoAveraged, triedLength, retries place inside, and_iff_right before]

/-- Nothing is tried again. -/
theorem Stand.alsoAveraged (stand : Stand strMod chunks known (count + 1) carriers)
    {samples : Samples}
    (done : ∀ place < chunks.length, 0 < count → Retried strMod place → known place) :
    Stand strMod chunks
      (AlsoAveraged strMod bytFrameType intDataLen intRSLen blocks samples count known)
      (count + 1) carriers := by
  refine stand.mono (Nat.le_refl _) ?_ (.inl rfl)
  exact fun place inside => ⟨.inl, fun heard => AlsoAveraged.of_done heard (done place inside)⟩

variable {demodulation : Demodulation} {samples : Samples}

theorem Demodulation.Knows.retryPSK
    (knows : demodulation.Knows strMod chunks known count)
    (all : strMod = .psk4 ∨ strMod = .psk8) (lengths : BlockLengths intDataLen intRSLen)
    (encoded : List.Forall₂ (BlockOf bytFrameType intDataLen intRSLen) chunks blocks)
    (decided : Decided strMod bytFrameType intDataLen intRSLen blocks samples)
    (moves : (∀ place < chunks.length, known place) → demodulation.Moves chunks.flatten) :
    let next := retryPSK bytFrameType intDataLen intRSLen chunks.length samples.averaged
      demodulation
    let heard := AlsoAveraged strMod bytFrameType intDataLen intRSLen blocks samples count
      known
    next.Knows strMod chunks heard (count + 1) ∧
      ((∀ place < chunks.length, heard place) →
        (∀ place < chunks.length, known place) ∨ chunks.length = 1 →
          next.Moves chunks.flatten) := by
  intro next heard
  have retries (place : Nat) : Retried strMod place := by
    rcases all with four | eight
    · exact .inl four
    · exact .inr (.inl eight)
  obtain ⟨ready, stand⟩ := knows
  have saved := stand.save (fun place inside _ => inside) samples.averaged
  by_cases tries : ((saveCarriers chunks.length samples.averaged
      demodulation.carriers).take chunks.length).any (fun carrier =>
        !carrier.carrierOk && decide (carrier.intSumCount > 1)) = true
  · have next_eq : next = _ := if_pos tries
    obtain ⟨carrier, among, twice⟩ := List.any_eq_true.mp tries
    rw [Bool.and_eq_true, Bool.not_eq_true', decide_eq_true_eq] at twice
    have few := saved.counts carrier (List.mem_of_mem_take among)
    have corrects := @correctsEach_correctCarriers bytFrameType intDataLen intRSLen
      ((saveCarriers chunks.length samples.averaged demodulation.carriers).take
        chunks.length) _ ready demodulation.totalRSErrors
    have after := stand.again (by omega) lengths encoded decided (Nat.le_refl _)
      (Nat.le_refl _) (fun place inside => iff_of_true (retries place) inside) corrects
    rw [next_eq]
    refine ⟨⟨corrects.ready, after⟩, fun all whole => ?_⟩
    rcases whole with done | one
    · -- Nothing would have been tried.
      have good := List.all_eq_true.mp (saved.all_iff.mpr done) carrier among
      exact absurd (good.symm.trans twice.1) (by decide)
    · have pieces := after.pieces_eq corrects
        (by rw [List.length_take]; have := saved.enough; omega) all
      obtain ⟨chunk, rfl⟩ := List.length_eq_one_iff.mp one
      rw [Demodulation.Moves]
      dsimp only
      rw [pieces, List.foldl_cons, List.foldl_nil, List.flatten_singleton]
      exact List.take_left
  · have next_eq : next = _ := if_neg tries
    have rests : ∀ carrier ∈ (saveCarriers chunks.length samples.averaged
        demodulation.carriers).take chunks.length, ¬carrier.carrierOk = true →
          carrier.intSumCount ≤ 1 := by
      intro carrier among bad
      by_contra many
      refine tries (List.any_eq_true.mpr ⟨carrier, among, ?_⟩)
      rw [Bool.and_eq_true, Bool.not_eq_true', decide_eq_true_eq]
      exact ⟨Bool.not_eq_true _ ▸ bad, not_le.mp many⟩
    have done (place : Nat) (inside : place < chunks.length) (before : 0 < count)
        (again : Retried strMod place) : known place :=
      saved.known_of_not_retried rests before inside again inside
    rw [next_eq]
    exact ⟨⟨ready, saved.alsoAveraged done⟩, fun all _ => moves fun place inside =>
      AlsoAveraged.of_done (all place inside) (done place inside)⟩

theorem Demodulation.Knows.retryQAM
    (knows : demodulation.Knows .qam16 chunks known count)
    (noHeader : bytFrameType ≠ pktFrameHeader)
    (lengths : BlockLengths intDataLen intRSLen)
    (encoded : List.Forall₂ (BlockOf bytFrameType intDataLen intRSLen) chunks blocks)
    (decided : Decided .qam16 bytFrameType intDataLen intRSLen blocks samples)
    (moves : (∀ place < chunks.length, known place) → demodulation.Moves chunks.flatten) :
    let next := retryQAM bytFrameType intDataLen intRSLen chunks.length samples.averaged
      demodulation
    let heard := AlsoAveraged .qam16 bytFrameType intDataLen intRSLen blocks samples count
      known
    next.Knows .qam16 chunks heard (count + 1) ∧
      ((∀ place < chunks.length, heard place) →
        (∀ place < chunks.length, known place) ∨ chunks.length ≤ 2 →
          next.Moves chunks.flatten) := by
  intro next heard
  have retries {place : Nat} : Retried .qam16 place ↔ place < 2 := by
    rw [Retried]
    simp
  obtain ⟨ready, stand⟩ := knows
  have saved := stand.save (fun place _ => retries.mp) samples.averaged
  by_cases fails : ((demodulation.carriers.take 2).any fun carrier =>
      !carrier.carrierOk) = true ∧ bytFrameType ≠ pktFrameHeader
  · have next_eq : next = _ := if_pos fails
    by_cases tries : ((saveCarriers 2 samples.averaged demodulation.carriers).take 2).any
        (fun carrier => decide (carrier.intSumCount > 1)) = true
    · dsimp only at next_eq
      rw [if_pos tries] at next_eq
      obtain ⟨carrier, among, twice⟩ := List.any_eq_true.mp tries
      rw [decide_eq_true_eq] at twice
      have few := saved.counts carrier (List.mem_of_mem_take among)
      have corrects := @correctsEach_correctCarriers bytFrameType intDataLen intRSLen
        ((saveCarriers 2 samples.averaged demodulation.carriers).take
          (min 2 chunks.length)) _ ready demodulation.totalRSErrors
      have after := stand.again (by omega) lengths encoded decided (Nat.min_le_right _ _)
        (Nat.min_le_left _ _) (fun place inside => by rw [retries]; omega) corrects
      rw [next_eq]
      refine ⟨⟨corrects.ready, after⟩, fun all whole => ?_⟩
      have small : chunks.length ≤ 2 := by
        rcases whole with done | small
        · -- With more than two carriers one of the first two would not be known.
          by_contra many
          obtain ⟨carrier, among, bad⟩ := List.any_eq_true.mp fails.1
          have good := List.all_eq_true.mp (stand.all_iff.mpr done) carrier
            (List.take_subset_take_left _ (by omega) among)
          rw [good] at bad
          exact absurd bad (by decide)
        · exact small
      have pieces := after.pieces_eq corrects
        (by rw [List.length_take]; have := saved.enough; omega) all
      rw [Demodulation.Moves]
      dsimp only
      rw [pieces]
      exact List.take_left
    · dsimp only at next_eq
      rw [if_neg tries] at next_eq
      have rests : ∀ carrier ∈ (saveCarriers 2 samples.averaged
          demodulation.carriers).take 2, ¬carrier.carrierOk = true →
            carrier.intSumCount ≤ 1 := by
        intro carrier among _
        by_contra many
        refine tries (List.any_eq_true.mpr ⟨carrier, among, ?_⟩)
        rw [decide_eq_true_eq]
        exact not_le.mp many
      have done (place : Nat) (inside : place < chunks.length) (before : 0 < count)
          (again : Retried .qam16 place) : known place :=
        saved.known_of_not_retried rests before inside again (retries.mp again)
      rw [next_eq]
      exact ⟨⟨ready, saved.alsoAveraged done⟩, fun all _ => moves fun place inside =>
        AlsoAveraged.of_done (all place inside) (done place inside)⟩
  · have next_eq : next = demodulation := if_neg fails
    have done (place : Nat) (inside : place < chunks.length)
        (again : Retried .qam16 place) : known place := by
      obtain ⟨carrier, here, stands⟩ := stand.each place inside
      by_contra unknown
      refine fails ⟨List.any_eq_true.mpr ⟨carrier, ?_, ?_⟩, noHeader⟩
      · apply List.mem_of_getElem? (i := place)
        rw [List.getElem?_take_of_lt (retries.mp again)]
        exact here
      · rw [Bool.not_eq_true', ← Bool.not_eq_true]
        exact fun good => unknown (stands.good.mp good)
    rw [next_eq]
    have after := stand.mono (Nat.le_succ count) (fun _ _ => Iff.rfl) (.inr done)
    exact ⟨⟨ready, after.alsoAveraged fun place inside _ => done place inside⟩,
      fun all _ => moves fun place inside =>
        AlsoAveraged.of_done (all place inside) fun _ => done place inside⟩

/-- The last reception has needed no average, or the average harms nothing. -/
def Undisturbed (strMod : Modulation) (intNumCar : Nat) (known : Nat → Prop) : Prop :=
  (∀ place < intNumCar, known place) ∨ intNumCar = 1 ∨ strMod = .qam16 ∧ intNumCar ≤ 2

theorem Demodulation.Knows.retryFrame
    (knows : demodulation.Knows strMod chunks known count)
    (noHeader : bytFrameType ≠ pktFrameHeader)
    (lengths : BlockLengths intDataLen intRSLen)
    (encoded : List.Forall₂ (BlockOf bytFrameType intDataLen intRSLen) chunks blocks)
    (decided : Decided strMod bytFrameType intDataLen intRSLen blocks samples)
    (moves : (∀ place < chunks.length, known place) → demodulation.Moves chunks.flatten) :
    let next := retryFrame strMod bytFrameType intDataLen intRSLen chunks.length
      samples.averaged demodulation
    let heard := AlsoAveraged strMod bytFrameType intDataLen intRSLen blocks samples count
      known
    next.Knows strMod chunks heard (count + 1) ∧
      ((∀ place < chunks.length, heard place) → Undisturbed strMod chunks.length known →
        next.Moves chunks.flatten) := by
  intro next heard
  cases strMod with
  | fsk4 =>
      have never (place : Nat) : ¬Retried .fsk4 place := by
        rintro (four | eight | ⟨qam, -⟩)
        · cases four
        · cases eight
        · cases qam
      have after := knows.stand.mono (Nat.le_succ count) (fun _ _ => Iff.rfl)
        (.inr fun place _ again => absurd again (never place))
      exact ⟨⟨knows.ready,
        after.alsoAveraged fun place _ _ again => absurd again (never place)⟩,
        fun all _ => moves fun place inside =>
          AlsoAveraged.of_done (all place inside) fun _ again => absurd again (never place)⟩
  | psk4 =>
      have spec := knows.retryPSK (.inl rfl) lengths encoded decided moves
      refine ⟨spec.1, fun all whole => spec.2 all ?_⟩
      exact whole.imp_right fun small =>
        small.resolve_right fun qam => absurd qam.1 (by decide)
  | psk8 =>
      have spec := knows.retryPSK (.inr rfl) lengths encoded decided moves
      refine ⟨spec.1, fun all whole => spec.2 all ?_⟩
      exact whole.imp_right fun small =>
        small.resolve_right fun qam => absurd qam.1 (by decide)
  | qam16 =>
      have spec := knows.retryQAM noHeader lengths encoded decided moves
      refine ⟨spec.1, fun all whole => spec.2 all ?_⟩
      exact whole.imp_right fun small => by omega

end Carriers

end Ardop
end Hamchat
