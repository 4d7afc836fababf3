import Hamchat.Ardop.Station

/-!
# The gears of a station

The mode of a session is an index in the arrays of its bandwidth.  The index
stays inside them, although `GetNextFrameData` would let it run to their length,
because `Gearshift_9` asks for a faster mode only where there is one.
-/

namespace Hamchat
namespace Ardop

/-- The types of the data frames. -/
def dataFrameTypes : List UInt8 :=
  (frameCases.flatMap FrameCase.types).filter fun bytFrameType => 0x40 ≤ bytFrameType

theorem dataFrameTypes_spec : ∀ bytFrameType ∈ dataFrameTypes,
    isDataFrame bytFrameType = true ∧ 0x40 ≤ bytFrameType ∧ bytFrameType ≤ 0x7D ∧
      bytFrameType ^^^ 1 ∈ dataFrameTypes ∧ 0 < frameSize bytFrameType := by
  decide +kernel

/-- The cases of the data frames have the sizes of `FrameSize`. -/
theorem find_dataFrame : ∀ bytFrameType ∈ dataFrameTypes,
    (frameCases.find? fun frame => bytFrameType ∈ frame.types).map
      (fun frame => frame.intDataLen * frame.intNumCar) = some (frameSize bytFrameType) := by
  decide +kernel

theorem frameInfo_dataFrame {bytFrameType : UInt8}
    (data : bytFrameType ∈ dataFrameTypes) (packet : PacketSettings) :
    ∃ info, frameInfo packet bytFrameType = some info ∧
      info.intDataLen * info.intNumCar = frameSize bytFrameType := by
  obtain ⟨-, low, high, -, -⟩ := dataFrameTypes_spec bytFrameType data
  have lowNumber : 64 ≤ bytFrameType.toNat := low
  have highNumber : bytFrameType.toNat ≤ 125 := high
  have noControl : ¬(bytFrameType ≤ 0x1F ∨ 0xE0 ≤ bytFrameType) := by
    rintro (small | large)
    · have number : bytFrameType.toNat ≤ 31 := small
      omega
    · have number : 224 ≤ bytFrameType.toNat := large
      omega
  have noHeader : bytFrameType ≠ pktFrameHeader := by
    rintro rfl
    exact absurd high (by decide)
  have noData : bytFrameType ≠ pktFrameData := by
    rintro rfl
    exact absurd high (by decide)
  obtain ⟨frame, found, size⟩ :=
    Option.map_eq_some_iff.mp (find_dataFrame bytFrameType data)
  refine ⟨frame.parameters bytFrameType, ?_, size⟩
  rw [frameInfo, if_neg noControl, if_neg noHeader, if_neg noData, found]
  rfl

namespace Station

/-- The index of the mode is inside the arrays, and so is the one that is asked
for next. -/
structure Geared (station : Station) : Prop where
  length : station.bytFrameTypesForBWLength = station.bytFrameTypesForBW.length
  thresholds : station.bytFrameTypesForBW.length ≤ station.bytShiftUpThresholds.length
  small : station.bytFrameTypesForBW.length ≤ 16
  pointer : station.intFrameTypePtr < station.bytFrameTypesForBW.length
  modes : ∀ mode ∈ station.bytFrameTypesForBW, mode ∈ dataFrameTypes
  current : station.bytCurrentFrameType ∈ dataFrameTypes
  shift : station.intShiftUpDn = 0 ∨ station.intShiftUpDn = -1 ∨
    station.intShiftUpDn = 1 ∧
      station.intFrameTypePtr + 1 < station.bytFrameTypesForBW.length

variable {station : Station}

theorem Geared.touch (geared : station.Geared) {index : Nat}
    (inside : index < station.bytFrameTypesForBW.length) :
    station.touch index = station :=
  if_pos ⟨inside, inside.trans_le geared.thresholds, inside.trans_le geared.small⟩

theorem Geared.mode (geared : station.Geared) {index : Nat}
    (inside : index < station.bytFrameTypesForBW.length) :
    station.mode index ∈ dataFrameTypes := by
  apply geared.modes
  rw [Station.mode, List.getD_eq_getElem?_getD, List.getElem?_eq_getElem inside,
    Option.getD_some]
  exact List.getElem_mem inside

/-! ## Setting the gear -/

/-- The modes of every bandwidth of a session. -/
theorem getDataModes_spec (settings : Settings) {intBW : Nat}
    (known : intBW = 200 ∨ intBW = 500 ∨ intBW = 1000 ∨ intBW = 2000) :
    (getDataModes settings intBW).2 = (getDataModes settings intBW).1.length ∧
      0 < (getDataModes settings intBW).2 ∧
      (getDataModes settings intBW).1.length ≤
        (getShiftUpThresholds settings intBW).length ∧
      (getDataModes settings intBW).1.length ≤ 16 ∧
      ∀ mode ∈ (getDataModes settings intBW).1, mode ∈ dataFrameTypes := by
  rcases known with rfl | rfl | rfl | rfl
  all_goals
    simp only [getDataModes, getShiftUpThresholds]
    norm_num
    repeat' split
    all_goals decide +kernel

/-- Half of a length or nothing. -/
theorem pointer_lt {count : Nat} (positive : 0 < count) (half : Bool) :
    (if half then count / 2 else 0) < count := by
  split <;> omega

theorem initializeFrameData_geared (settings : Settings)
    (known : station.intSessionBW = 200 ∨ station.intSessionBW = 500 ∨
      station.intSessionBW = 1000 ∨ station.intSessionBW = 2000) :
    ∃ modes count thresholds pointer current,
      station.initializeFrameData settings =
        { station with
          bytFrameTypesForBW := modes
          bytFrameTypesForBWLength := count
          bytShiftUpThresholds := thresholds
          intFrameTypePtr := pointer
          bytCurrentFrameType := current
          intShiftUpDn := 0 } ∧
      (station.initializeFrameData settings).Geared := by
  obtain ⟨count, positive, thresholds, small, modes⟩ := getDataModes_spec settings known
  have inside := pointer_lt positive settings.fastStart
  have within := inside.trans_eq count
  have same : station.initializeFrameData settings =
      { station with
        bytFrameTypesForBW := (getDataModes settings station.intSessionBW).1
        bytFrameTypesForBWLength := (getDataModes settings station.intSessionBW).2
        bytShiftUpThresholds := getShiftUpThresholds settings station.intSessionBW
        intFrameTypePtr :=
          if settings.fastStart then (getDataModes settings station.intSessionBW).2 / 2
          else 0
        bytCurrentFrameType := (getDataModes settings station.intSessionBW).1.getD
          (if settings.fastStart then (getDataModes settings station.intSessionBW).2 / 2
            else 0) 0
        intShiftUpDn := 0 } := by
    rw [initializeFrameData, Station.touch]
    exact if_pos ⟨within, within.trans_le thresholds, within.trans_le small⟩
  refine ⟨_, _, _, _, _, same, ?_⟩
  rw [same]
  refine ⟨count, thresholds, small, within, modes, ?_, .inl rfl⟩
  apply modes
  simp only [List.getD_eq_getElem?_getD, List.getElem?_eq_getElem within,
    Option.getD_some]
  exact List.getElem_mem within

/-! ## Shifting the gear -/

/-- What `Gearshift_9` may change. -/
def Regeared (station next : Station) : Prop :=
  ∃ shift average acks naks worked tried,
    next =
      { station with
        intShiftUpDn := shift
        intAvgQuality := average
        intACKctr := acks
        intNAKctr := naks
        modeHasWorked := worked
        modeHasBeenTried := tried }

theorem Geared.countMode (geared : station.Geared) :
    Regeared station station.countMode ∧ station.countMode.Geared := by
  rw [Station.countMode]
  split
  · exact ⟨⟨_, _, _, _, _, _, rfl⟩, ⟨geared.length, geared.thresholds, geared.small,
      geared.pointer, geared.modes, geared.current, geared.shift⟩⟩
  · exact ⟨⟨_, _, _, _, _, _, rfl⟩, geared⟩

theorem Geared.shiftUp (geared : station.Geared)
    (faster : station.intFrameTypePtr + 1 < station.bytFrameTypesForBW.length) :
    Regeared station station.shiftUp ∧ station.shiftUp.Geared := by
  rw [Station.shiftUp, geared.touch faster]
  dsimp only
  split
  · exact ⟨⟨_, _, _, _, _, _, rfl⟩, ⟨geared.length, geared.thresholds, geared.small,
      geared.pointer, geared.modes, geared.current, .inl rfl⟩⟩
  · split
    · exact ⟨⟨_, _, _, _, _, _, rfl⟩, ⟨geared.length, geared.thresholds, geared.small,
        geared.pointer, geared.modes, geared.current, .inl rfl⟩⟩
    · exact ⟨⟨_, _, _, _, _, _, rfl⟩, ⟨geared.length, geared.thresholds, geared.small,
        geared.pointer, geared.modes, geared.current, .inr (.inr ⟨rfl, faster⟩)⟩⟩

theorem Regeared.trans {middle next : Station} (first : Regeared station middle)
    (second : Regeared middle next) : Regeared station next := by
  obtain ⟨_, _, _, _, _, _, rfl⟩ := first
  obtain ⟨shift, average, acks, naks, worked, tried, rfl⟩ := second
  exact ⟨shift, average, acks, naks, worked, tried, rfl⟩

theorem Geared.gearshift9 (geared : station.Geared) :
    Regeared station station.gearshift9 ∧ station.gearshift9.Geared := by
  obtain ⟨counted, middle⟩ := geared.countMode
  have pointer : station.countMode.intFrameTypePtr = station.intFrameTypePtr := by
    obtain ⟨_, _, _, _, _, _, same⟩ := counted
    rw [same]
  rw [Station.gearshift9, geared.touch geared.pointer]
  split
  · refine ⟨counted.trans ⟨_, _, _, _, _, _, rfl⟩, ?_⟩
    exact ⟨middle.length, middle.thresholds, middle.small, middle.pointer, middle.modes,
      middle.current, .inr (.inl rfl)⟩
  · split
    · next asked =>
        have faster := middle.shiftUp (by rw [pointer, ← middle.length]; exact asked.2.1)
        exact ⟨counted.trans faster.1, faster.2⟩
    · exact ⟨counted, middle⟩

/-- What `GetNextFrameData` may change of the mode. -/
def Shifted (station next : Station) : Prop :=
  ∃ pointer current,
    next =
      { station with
        intFrameTypePtr := pointer
        bytCurrentFrameType := current
        intShiftUpDn := 0 }

theorem Geared.moveTo (geared : station.Geared) {pointer : Nat}
    (inside : pointer < station.bytFrameTypesForBW.length) :
    Shifted station { station.moveTo pointer with intShiftUpDn := 0 } ∧
      { station.moveTo pointer with intShiftUpDn := 0 }.Geared := by
  have same : station.moveTo pointer =
      { station with
        intFrameTypePtr := pointer
        bytCurrentFrameType := station.mode pointer } :=
    if_pos ⟨inside, inside.trans_le geared.thresholds, inside.trans_le geared.small⟩
  rw [same]
  exact ⟨⟨_, _, rfl⟩, ⟨geared.length, geared.thresholds, geared.small, inside,
    geared.modes, geared.mode inside, .inl rfl⟩⟩

theorem Geared.unshifted (geared : station.Geared) :
    { station with intShiftUpDn := 0 }.Geared where
  length := geared.length
  thresholds := geared.thresholds
  small := geared.small
  pointer := geared.pointer
  modes := geared.modes
  current := geared.current
  shift := .inl rfl

/-- The index stays inside the arrays, although the source lets it run to their
length. -/
theorem Geared.shiftMode (geared : station.Geared) :
    Shifted station station.shiftMode ∧ station.shiftMode.Geared := by
  have pointer := geared.pointer
  have length := geared.length
  rw [Station.shiftMode]
  rcases geared.shift with same | down | ⟨up, faster⟩
  · rw [if_neg (by omega), if_neg (by omega)]
    refine ⟨⟨station.intFrameTypePtr, station.bytCurrentFrameType, ?_⟩, geared⟩
    rw [← same]
  · rw [if_pos (by omega)]
    split
    · exact geared.moveTo (by omega)
    · exact ⟨⟨_, _, rfl⟩, geared.unshifted⟩
  · rw [if_neg (by omega), if_pos (by omega)]
    split
    · exact geared.moveTo (by omega)
    · exact ⟨⟨_, _, rfl⟩, geared.unshifted⟩

/-! ## The next data frame -/

/-- The two types of a mode differ in the last bit. -/
theorem xor_one_and_one (bytType : UInt8) : (bytType ^^^ 1) &&& 1 ≠ bytType &&& 1 := by
  intro same
  have number := congrArg UInt8.toNat same
  simp only [UInt8.toNat_and, UInt8.toNat_xor, UInt8.toNat_one, Nat.and_one_is_mod]
    at number
  have parity := Nat.xor_mod_two_eq_one (a := bytType.toNat) (b := 1)
  omega

theorem Geared.toggled (geared : station.Geared) {bytFrameType : UInt8}
    (data : bytFrameType ∈ dataFrameTypes) :
    { station with
      bytCurrentFrameType := bytFrameType
      bytLastARQDataFrameSent := bytFrameType }.Geared where
  length := geared.length
  thresholds := geared.thresholds
  small := geared.small
  pointer := geared.pointer
  modes := geared.modes
  current := data
  shift := geared.shift

theorem Geared.toggleFrameType (geared : station.Geared) :
    ∃ bytFrameType ∈ dataFrameTypes,
      bytFrameType &&& 1 ≠ station.bytLastARQDataFrameAcked &&& 1 ∧
      station.toggleFrameType =
        { station with
          bytCurrentFrameType := bytFrameType
          bytLastARQDataFrameSent := bytFrameType } := by
  rw [Station.toggleFrameType]
  split
  · next same =>
      obtain ⟨-, -, -, other, -⟩ := dataFrameTypes_spec _ geared.current
      exact ⟨_, other, same ▸ xor_one_and_one _, rfl⟩
  · next different => exact ⟨_, geared.current, different, rfl⟩

/-- What `GetNextFrameData` chooses. -/
theorem Geared.getNextFrameData (settings : Settings) (geared : station.Geared) :
    ∃ pointer bytFrameType,
      bytFrameType ∈ dataFrameTypes ∧
      bytFrameType &&& 1 ≠ station.bytLastARQDataFrameAcked &&& 1 ∧
      station.getNextFrameData settings =
        (min (frameSize bytFrameType) station.bytDataToSend.length,
          { station with
            intFrameTypePtr := pointer
            bytCurrentFrameType := bytFrameType
            bytLastARQDataFrameSent := bytFrameType
            intShiftUpDn := 0 }) ∧
      (station.getNextFrameData settings).2.Geared := by
  obtain ⟨⟨pointer, current, shifted⟩, moved⟩ := geared.shiftMode
  obtain ⟨bytFrameType, data, differs, toggled⟩ := moved.toggleFrameType
  obtain ⟨info, found, size⟩ := frameInfo_dataFrame data settings.packet
  have next : station.getNextFrameData settings =
      (min (frameSize bytFrameType) station.bytDataToSend.length,
        { station with
          intFrameTypePtr := pointer
          bytCurrentFrameType := bytFrameType
          bytLastARQDataFrameSent := bytFrameType
          intShiftUpDn := 0 }) := by
    rw [Station.getNextFrameData, toggled]
    simp only [found, size, shifted]
  refine ⟨pointer, bytFrameType, data, ?_, next, ?_⟩
  · rw [shifted] at differs
    exact differs
  · have after := moved.toggled data
    rw [shifted] at after
    rw [next]
    exact after

end Station

end Ardop
end Hamchat
