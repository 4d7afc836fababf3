import Hamchat.Client.Handlers
import Hamchat.CharArray
import Hamchat.Foundation.Fields
import Hamchat.Numbers

/-!
# Heartbeats

`Heartbeat::CreatePacket` and `Heartbeat::SerializePacket` of
`src/heartbeat.cpp`.  The packet is a block of bytes in which the callsign and
the grid lie next to each other, without terminators of their own, and both are
printed as strings.  Floating point is left open: a power is the four bytes of a
`float`, and its text is a parameter.
-/

namespace Hamchat

open Foundation

/-! ## Words in memory -/

/-- The bytes of a word, the lowest first. -/
def littleEndian : (count value : Nat) → List UInt8
  | 0, _ => []
  | count + 1, value =>
      UInt8.ofNat value :: littleEndian count (value / 256)

/-- The word that some bytes hold. -/
def ofLittleEndian : List UInt8 → Nat
  | [] => 0
  | byte :: rest => byte.toNat + 256 * ofLittleEndian rest

@[simp] theorem length_littleEndian (count value : Nat) :
    (littleEndian count value).length = count := by
  induction count generalizing value with
  | zero => rfl
  | succ count inductionHypothesis =>
      rw [littleEndian, List.length_cons, inductionHypothesis]

theorem ofLittleEndian_littleEndian {count value : Nat}
    (bound : value < 256 ^ count) :
    ofLittleEndian (littleEndian count value) = value := by
  induction count generalizing value with
  | zero =>
      rw [Nat.pow_zero, Nat.lt_one_iff] at bound
      exact bound.symm
  | succ count inductionHypothesis =>
      have quotient : value / 256 < 256 ^ count := by
        apply Nat.div_lt_of_lt_mul
        rwa [Nat.pow_succ, Nat.mul_comm] at bound
      rw [littleEndian, ofLittleEndian, inductionHypothesis quotient]
      exact Nat.mod_add_div value 256

/-- `memcpy(array + offset, source, count)`, where `source` has `count`
bytes. -/
def CharArray.store (array : CharArray size) (offset : Nat)
    (source : List UInt8) (fits : offset + source.length ≤ size) :
    CharArray size where
  bytes := array.bytes.take offset ++ source ++
    array.bytes.drop (offset + source.length)
  length_eq := by
    have declared := array.length_eq
    simp only [List.length_append, List.length_take, List.length_drop]
    omega

/-! ## Packets -/

/-- `GRID_LEN` -/
def gridLen : Nat := 6

/-- `sizeof(heartbeat_pkt_t)` -/
def heartbeatPktSize : Nat := 40

/-- `heartbeat_pkt`: 16 bytes `tx_call`, 6 bytes `tx_grid`, 2 bytes of padding,
4 bytes `tx_power`, 4 bytes of padding, and 8 bytes `tx_time`. -/
abbrev HeartbeatPkt := CharArray heartbeatPktSize

namespace HeartbeatPkt

/-- The offset of `tx_grid`. -/
def txGrid : Nat := 16

/-- The offset of `tx_power`. -/
def txPower : Nat := 24

/-- The offset of `tx_time`. -/
def txTime : Nat := 32

/-- The packet after `memset`. -/
def zero : HeartbeatPkt where
  bytes := List.replicate heartbeatPktSize 0
  length_eq := List.length_replicate

end HeartbeatPkt

/-- How `Heartbeat::CreatePacket` ends. -/
inductive PacketOutcome
  /-- It returns NULL. -/
  | null
  /-- It calls `abort`. -/
  | abort
  /-- It has written behind the packet. -/
  | overrun
  /-- It returns a packet. -/
  | packet (hb : HeartbeatPkt)
  deriving DecidableEq

/-- `Heartbeat::CreatePacket`, for the callsign of the client or the station,
the grid and power of the station, and the time. -/
def createPacket (call staGrid : Option CString) (power : BitVec 32)
    (now : BitVec 64) : PacketOutcome :=
  match call with
  | none => .null
  | some call =>
      if fits : 0 + call.bytes.length ≤ heartbeatPktSize then
        let hb := HeartbeatPkt.zero.store 0 call.bytes fits
        match staGrid with
        | none => .abort
        | some staGrid =>
            let hb := hb.store HeartbeatPkt.txGrid
              (staGrid.bytes.take gridLen) (by
                have short : (staGrid.bytes.take gridLen).length ≤ gridLen :=
                  List.length_take_le _ _
                exact Nat.le_trans (Nat.add_le_add_left short _) (by decide))
            let hb := hb.store HeartbeatPkt.txPower
              (littleEndian 4 power.toNat)
              (by rw [length_littleEndian]; decide)
            .packet (hb.store HeartbeatPkt.txTime (littleEndian 8 now.toNat)
              (by rw [length_littleEndian]; decide))
      else
        .overrun

/-- What `snprintf` makes of a power with `"%.3g"`, rounded as `round_pwr`
does. -/
structure PowerFormat where
  /-- The text for the bytes of a `float`. -/
  text : BitVec 32 → CString
  /-- A sign, a digit, a point, two digits, and an exponent of up to five
  characters. -/
  length_le : ∀ power, (text power).length ≤ 10
  /-- There is no space in it. -/
  noSpace : ∀ power, 32 ∉ (text power).bytes

/-- `MIN_BUF_SZ` -/
def minBufSz : Nat := 80

/-- `Heartbeat::SerializePacket`, as the text in the buffer if it returns
`true`. -/
def serializePacket (format : PowerFormat) (pkt : Option HeartbeatPkt)
    (bufsz : Nat) : Option CString :=
  match pkt with
  | none => none
  | some pkt =>
      if bufsz < minBufSz then
        none
      else
        let power := (pkt.bytes.drop HeartbeatPkt.txPower).take 4
        let time := (pkt.bytes.drop HeartbeatPkt.txTime).take 8
        some <| (CString.concat [.ofLiteral "HB ", .read pkt.bytes,
          .ofLiteral " ", .read (pkt.bytes.drop HeartbeatPkt.txGrid),
          .ofLiteral "@", format.text (BitVec.ofNat 32 (ofLittleEndian power)),
          .ofLiteral " ", formatInt (ofLittleEndian time)]).truncate bufsz

/-! ## The bytes of a packet -/

/-- A store replaces the middle of three parts. -/
theorem CharArray.bytes_store {array : CharArray size} {offset : Nat}
    {source : List UInt8} (front middle back : List UInt8)
    (shape : array.bytes = front ++ middle ++ back)
    (frontLength : front.length = offset)
    (middleLength : middle.length = source.length)
    (fits : offset + source.length ≤ size) :
    (array.store offset source fits).bytes = front ++ source ++ back := by
  subst frontLength
  change array.bytes.take front.length ++ source ++
    array.bytes.drop (front.length + source.length) = front ++ source ++ back
  rw [shape, ← middleLength, ← List.length_append, List.drop_left,
    List.append_assoc front, List.take_left]

/-- The field of a string in cleared memory. -/
def paddedTo (width : Nat) (bytes : List UInt8) : List UInt8 :=
  bytes ++ List.replicate (width - bytes.length) 0

theorem length_paddedTo {width : Nat} {bytes : List UInt8}
    (short : bytes.length ≤ width) : (paddedTo width bytes).length = width := by
  rw [paddedTo, List.length_append, List.length_replicate]
  omega

/-- Storing a string at the start of cleared memory fills its field. -/
theorem CharArray.bytes_store_field {array : CharArray size} {offset : Nat}
    (front source : List UInt8) (width rest : Nat)
    (shape : array.bytes = front ++ List.replicate (width + rest) 0)
    (frontLength : front.length = offset) (short : source.length ≤ width)
    (fits : offset + source.length ≤ size) :
    (array.store offset source fits).bytes =
      front ++ paddedTo width source ++ List.replicate rest 0 := by
  have cleared : List.replicate (width + rest) (0 : UInt8) =
      List.replicate source.length 0 ++
        (List.replicate (width - source.length) 0 ++ List.replicate rest 0) := by
    rw [List.replicate_append_replicate, List.replicate_append_replicate]
    congr 1
    omega
  rw [cleared, ← List.append_assoc] at shape
  rw [CharArray.bytes_store front _ _ shape frontLength List.length_replicate,
    paddedTo]
  simp only [List.append_assoc]

/-- The packet of a callsign and a grid that fit their fields. -/
theorem createPacket_bytes {call grid : CString} {power : BitVec 32}
    {now : BitVec 64} (callShort : call.length ≤ callsignLen)
    (gridShort : grid.length ≤ gridLen) :
    ∃ hb, createPacket (some call) (some grid) power now = .packet hb ∧
      hb.bytes = paddedTo 16 call.bytes ++ paddedTo 8 grid.bytes ++
        paddedTo 8 (littleEndian 4 power.toNat) ++
          paddedTo 8 (littleEndian 8 now.toNat) := by
  have whole : grid.bytes.take gridLen = grid.bytes :=
    List.take_of_length_le gridShort
  have callBound : call.bytes.length ≤ 16 := callShort
  have gridBound : grid.bytes.length ≤ 8 := Nat.le_trans gridShort (by decide)
  have fits : 0 + call.bytes.length ≤ heartbeatPktSize := by
    unfold heartbeatPktSize
    omega
  simp only [createPacket, dif_pos fits, whole]
  refine ⟨_, rfl, ?_⟩
  have upToGrid : (paddedTo 16 call.bytes).length = HeartbeatPkt.txGrid :=
    length_paddedTo callBound
  have upToPower : (paddedTo 16 call.bytes ++ paddedTo 8 grid.bytes).length =
      HeartbeatPkt.txPower := by
    rw [List.length_append, upToGrid, length_paddedTo gridBound]
    rfl
  have upToTime : (paddedTo 16 call.bytes ++ paddedTo 8 grid.bytes ++
      paddedTo 8 (littleEndian 4 power.toNat)).length =
        HeartbeatPkt.txTime := by
    rw [List.length_append, upToPower,
      length_paddedTo (by rw [length_littleEndian]; decide)]
    rfl
  -- The fields are filled from the first to the last.
  have called := CharArray.bytes_store_field [] call.bytes 16 24
    (show HeartbeatPkt.zero.bytes = _ from rfl) rfl callBound fits
  have gridded := CharArray.bytes_store_field _ grid.bytes 8 16 called upToGrid
    gridBound (by unfold HeartbeatPkt.txGrid heartbeatPktSize; omega)
  have powered := CharArray.bytes_store_field _ (littleEndian 4 power.toNat) 8 8
    gridded upToPower (by rw [length_littleEndian]; decide)
    (by rw [length_littleEndian]; decide)
  have timed := CharArray.bytes_store_field _ (littleEndian 8 now.toNat) 8 0
    powered upToTime (by rw [length_littleEndian])
    (by rw [length_littleEndian]; decide)
  rw [List.replicate_zero, List.append_nil] at timed
  exact timed

theorem read_paddedTo {width : Nat} {string : CString}
    (short : string.length < width) (rest : List UInt8) :
    CString.read (paddedTo width string.bytes ++ rest) = string := by
  obtain ⟨count, room⟩ : ∃ count, width - string.bytes.length = count + 1 :=
    Nat.exists_eq_succ_of_ne_zero (Nat.sub_ne_zero_of_lt short)
  rw [paddedTo, room, List.replicate_succ, List.append_assoc,
    List.cons_append, CString.read_append_zero]

theorem paddedTo_self {width : Nat} {bytes : List UInt8}
    (full : bytes.length = width) : paddedTo width bytes = bytes := by
  rw [paddedTo, full, Nat.sub_self, List.replicate_zero, List.append_nil]

/-- What `"%s"` prints for `tx_call`: a callsign that fills the field runs on
into the grid. -/
def printedCall (call grid : CString) : CString :=
  if call.length < callsignLen then call else .concat [call, grid]

theorem read_call {call grid : CString} (callShort : call.length ≤ callsignLen)
    (gridShort : grid.length ≤ gridLen) (rest : List UInt8) :
    CString.read (paddedTo 16 call.bytes ++ paddedTo 8 grid.bytes ++ rest) =
      printedCall call grid := by
  have gridFits : grid.length < 8 := Nat.lt_of_le_of_lt gridShort (by decide)
  unfold printedCall
  split
  · rename_i short
    have room : call.length < 16 := short
    rw [List.append_assoc, read_paddedTo room]
  · rename_i full
    have exact16 : call.bytes.length = 16 :=
      Nat.le_antisymm callShort (Nat.not_lt.mp full)
    have joined : (CString.concat [call, grid]).bytes =
        call.bytes ++ grid.bytes := by
      simp [CString.concat]
    obtain ⟨count, room⟩ : ∃ count, 8 - grid.bytes.length = count + 1 :=
      Nat.exists_eq_succ_of_ne_zero (Nat.sub_ne_zero_of_lt gridFits)
    rw [paddedTo_self exact16, paddedTo, room, List.replicate_succ,
      ← List.append_assoc, ← joined, List.append_assoc, List.cons_append,
      CString.read_append_zero]

/-- The line that doc/AIR_PROTO describes. -/
def heartbeatLine (call grid power : CString) (time : Int) : CString :=
  .concat [.ofLiteral "HB ", call, .ofLiteral " ", grid, .ofLiteral "@", power,
    .ofLiteral " ", formatInt time]

theorem heartbeatLine_bytes (call grid power : CString) (time : Int) :
    (heartbeatLine call grid power time).bytes =
      [72, 66, 32] ++ (call.bytes ++ 32 :: (grid.bytes ++
        64 :: (power.bytes ++ 32 :: (formatInt time).bytes))) := by
  have start : (CString.ofLiteral "HB ").bytes = [72, 66, 32] := by decide
  have space : (CString.ofLiteral " ").bytes = [32] := by decide
  have sign : (CString.ofLiteral "@").bytes = [64] := by decide
  simp [heartbeatLine, CString.concat, start, space, sign]

/-- The decimal text of a 64-bit word has up to twenty digits. -/
theorem length_formatInt_le {value : Nat} (bound : value < 2 ^ 64) :
    (formatInt value).length ≤ 20 := by
  have digits : (decimalDigits value).length ≤ 20 := by
    rw [decimalDigits, List.length_map,
      Nat.length_toDigits_le_iff (by decide) (by decide)]
    exact Nat.lt_trans bound (by decide)
  rw [CString.length, formatInt_bytes, if_neg (by omega), List.nil_append,
    Int.natAbs_natCast]
  exact digits

/-- A word at the start of its field is read back. -/
theorem ofLittleEndian_take_paddedTo {count width value : Nat}
    (bound : value < 256 ^ count) (rest : List UInt8) :
    ofLittleEndian ((paddedTo width (littleEndian count value) ++ rest).take
      count) = value := by
  rw [paddedTo, List.append_assoc,
    List.take_left' (length_littleEndian count value),
    ofLittleEndian_littleEndian bound]

/-- The text that is sent fits the buffer. -/
theorem length_heartbeatLine_lt (format : PowerFormat) {call grid : CString}
    (power : BitVec 32) (now : BitVec 64) (callShort : call.length ≤ 22)
    (gridShort : grid.length ≤ gridLen) :
    (heartbeatLine call grid (format.text power) now.toNat).length <
      minBufSz := by
  have powerShort := format.length_le power
  have timeShort := length_formatInt_le now.isLt
  unfold CString.length at callShort gridShort powerShort timeShort
  unfold gridLen at gridShort
  rw [CString.length, heartbeatLine_bytes]
  simp only [List.length_append, List.length_cons, List.length_nil]
  unfold minBufSz
  omega

theorem length_printedCall_le {call grid : CString}
    (callShort : call.length ≤ callsignLen)
    (gridShort : grid.length ≤ gridLen) :
    (printedCall call grid).length ≤ 22 := by
  unfold CString.length callsignLen at callShort
  unfold CString.length gridLen at gridShort
  unfold printedCall
  split
  · unfold CString.length
    omega
  · simp only [CString.length, CString.concat, List.flatMap_cons,
      List.flatMap_nil, List.append_nil, List.length_append]
    omega

/-- What is sent for a callsign and a grid that fit their fields. -/
theorem serializePacket_createPacket (format : PowerFormat)
    {call grid : CString} (power : BitVec 32) (now : BitVec 64)
    (callShort : call.length ≤ callsignLen)
    (gridShort : grid.length ≤ gridLen) :
    ∃ hb, createPacket (some call) (some grid) power now = .packet hb ∧
      serializePacket format (some hb) minBufSz =
        some (heartbeatLine (printedCall call grid) grid (format.text power)
          now.toNat) := by
  obtain ⟨hb, created, bytes⟩ :=
    @createPacket_bytes call grid power now callShort gridShort
  have gridRoom : grid.length < 8 := Nat.lt_of_le_of_lt gridShort (by decide)
  have callLength : (paddedTo 16 call.bytes).length = HeartbeatPkt.txGrid :=
    length_paddedTo callShort
  have gridLength : (paddedTo 16 call.bytes ++ paddedTo 8 grid.bytes).length =
      HeartbeatPkt.txPower := by
    rw [List.length_append, callLength,
      length_paddedTo (Nat.le_of_lt gridRoom)]
    rfl
  have powerLength : (paddedTo 16 call.bytes ++ paddedTo 8 grid.bytes ++
      paddedTo 8 (littleEndian 4 power.toNat)).length =
        HeartbeatPkt.txTime := by
    rw [List.length_append, gridLength,
      length_paddedTo (by rw [length_littleEndian]; decide)]
    rfl
  have shownCall : CString.read hb.bytes = printedCall call grid := by
    rw [bytes, List.append_assoc, read_call callShort gridShort]
  have shownGrid : CString.read (hb.bytes.drop HeartbeatPkt.txGrid) = grid := by
    rw [bytes, List.append_assoc, List.append_assoc,
      List.drop_left' callLength, read_paddedTo gridRoom]
  have shownPower : BitVec.ofNat 32 (ofLittleEndian
      ((hb.bytes.drop HeartbeatPkt.txPower).take 4)) = power := by
    rw [bytes, List.append_assoc, List.drop_left' gridLength,
      ofLittleEndian_take_paddedTo power.isLt, BitVec.ofNat_toNat,
      BitVec.setWidth_eq]
  have shownTime : ofLittleEndian
      ((hb.bytes.drop HeartbeatPkt.txTime).take 8) = now.toNat := by
    have read : ofLittleEndian ((paddedTo 8 (littleEndian 8 now.toNat) ++
        []).take 8) = now.toNat :=
      ofLittleEndian_take_paddedTo now.isLt []
    rw [List.append_nil] at read
    rw [bytes, List.drop_left' powerLength, read]
  refine ⟨hb, created, ?_⟩
  simp only [serializePacket, Nat.lt_irrefl, if_false, shownCall, shownGrid,
    shownPower, shownTime]
  rw [← heartbeatLine, CString.truncate_of_lt (length_heartbeatLine_lt format
    power now (length_printedCall_le callShort gridShort) gridShort)]

/-! ## Reading a line back -/

/-- What a station reads off a line. -/
structure HeartbeatFields where
  /-- `$CALLSIGN` -/
  call : List UInt8
  /-- `$GRID` -/
  grid : List UInt8
  /-- `$POWER` -/
  power : List UInt8
  /-- `$now` -/
  time : Int

/-- Reads `HB $CALLSIGN $GRID@$POWER $now`: each field ends at the character
that follows it. -/
def readHeartbeat (line : CString) : HeartbeatFields :=
  let upTo (stop : UInt8) (text : List UInt8) := text.takeWhile (· ≠ stop)
  let behind (stop : UInt8) (text : List UInt8) :=
    (text.dropWhile (· ≠ stop)).drop 1
  let text := line.bytes.drop 3
  let afterCall := behind 32 text
  let afterGrid := behind 64 afterCall
  { call := upTo 32 text
    grid := upTo 64 afterCall
    power := upTo 32 afterGrid
    time := (strtol (.read (behind 32 afterGrid))).value }

/-- The heartbeat is the line of doc/AIR_PROTO, and a station reads the fields
off it. -/
def HeartbeatCarries (format : PowerFormat) (call grid : CString)
    (power : BitVec 32) (now : BitVec 64) : Prop :=
  ∃ hb line, createPacket (some call) (some grid) power now = .packet hb ∧
    serializePacket format (some hb) minBufSz = some line ∧
    line = heartbeatLine call grid (format.text power) now.toInt ∧
    readHeartbeat line =
      ⟨call.bytes, grid.bytes, (format.text power).bytes, now.toInt⟩

/-- The fields of a line can be read off it. -/
theorem readHeartbeat_heartbeatLine (format : PowerFormat)
    {call grid : CString} (power : BitVec 32) (now : BitVec 64)
    (callSpace : 32 ∉ call.bytes) (gridAt : 64 ∉ grid.bytes) :
    readHeartbeat (heartbeatLine call grid (format.text power) now.toInt) =
      ⟨call.bytes, grid.bytes, (format.text power).bytes, now.toInt⟩ := by
  have text : (heartbeatLine call grid (format.text power) now.toInt).bytes.drop
      3 = call.bytes ++ 32 :: (grid.bytes ++ 64 ::
        ((format.text power).bytes ++ 32 :: (formatInt now.toInt).bytes)) := by
    rw [heartbeatLine_bytes]
    rfl
  have time : (strtol (formatInt now.toInt)).value = now.toInt := by
    have lower := BitVec.le_toInt now
    have upper := BitVec.toInt_lt (x := now)
    rw [strtol_formatInt]
    simp only
    omega
  have callRead := takeWhile_dropWhile_word callSpace (grid.bytes ++
    64 :: ((format.text power).bytes ++ 32 :: (formatInt now.toInt).bytes))
  have gridRead := takeWhile_dropWhile_word gridAt
    ((format.text power).bytes ++ 32 :: (formatInt now.toInt).bytes)
  have powerRead := takeWhile_dropWhile_word (format.noSpace power)
    (formatInt now.toInt).bytes
  simp only [readHeartbeat, text, callRead, gridRead, powerRead,
    List.drop_one, List.tail_cons, CString.read_self, time]

/-- A valid callsign fits its field and has allowed characters only. -/
theorem isValidCallsign_spec {call : CString}
    (valid : isValidCallsign call = true) :
    call.length ≤ callsignLen ∧
      ∀ byte ∈ call.bytes, byte ∈ allowedChars.bytes := by
  unfold isValidCallsign at valid
  split at valid
  · cases valid
  · simp only [Bool.and_eq_true, Bool.not_eq_true', Bool.or_eq_false_iff,
      decide_eq_false_iff_not, List.all_eq_true, List.contains_iff_mem] at valid
    exact ⟨Nat.not_lt.mp valid.1.2.2, valid.2⟩

theorem space_not_mem_of_valid {call : CString}
    (valid : isValidCallsign call = true) : 32 ∉ call.bytes := fun member =>
  absurd ((isValidCallsign_spec valid).2 32 member) (by decide)

/-- A callsign that runs on into the grid shows in the line. -/
theorem length_lt_of_heartbeatLine_eq {call grid power : CString}
    {sent time : Int} (located : grid.bytes ≠ []) (gridSpace : 32 ∉ grid.bytes)
    (equal : heartbeatLine (printedCall call grid) grid power sent =
      heartbeatLine call grid power time) :
    call.length < callsignLen := by
  by_contra full
  have joined : (CString.concat [call, grid]).bytes =
      call.bytes ++ grid.bytes := by
    simp [CString.concat]
  have bytes := congrArg CString.bytes equal
  rw [printedCall, if_neg full, heartbeatLine_bytes, heartbeatLine_bytes, joined,
    List.append_assoc call.bytes] at bytes
  have behindCall := List.append_cancel_left (List.append_cancel_left bytes)
  obtain ⟨first, rest, shape⟩ := List.exists_cons_of_ne_nil located
  rw [shape, List.cons_append, List.cons.injEq] at behindCall
  apply gridSpace
  rw [shape, behindCall.1]
  exact List.mem_cons_self

/-- A negative time shows in the line by its sign. -/
theorem nonneg_of_heartbeatLine_eq {call grid power : CString} {sent : Nat}
    {time : Int}
    (equal : heartbeatLine call grid power sent =
      heartbeatLine call grid power time) :
    0 ≤ time := by
  by_contra negative
  have bytes := congrArg CString.bytes equal
  rw [heartbeatLine_bytes, heartbeatLine_bytes] at bytes
  have behindCall := List.append_cancel_left (List.append_cancel_left bytes)
  have behindGrid :=
    List.append_cancel_left (List.cons.inj behindCall).2
  have behindPower :=
    List.append_cancel_left (List.cons.inj behindGrid).2
  have times := (List.cons.inj behindPower).2
  rw [formatInt_bytes, formatInt_bytes, if_neg (by omega), if_pos (by omega),
    List.nil_append] at times
  have minus : 45 ∈ decimalDigits (sent : Int).natAbs := by
    rw [times]
    exact List.mem_cons_self
  exact absurd (isDigitOf_of_mem_decimalDigits 45 minus) (by decide)

/-- A heartbeat of a valid callsign is right exactly if the callsign leaves room
for a terminator in its field and the time is not negative. -/
theorem heartbeatCarries_iff (format : PowerFormat) {call grid : CString}
    (valid : isValidCallsign call = true) (located : grid.bytes ≠ [])
    (gridShort : grid.length ≤ gridLen) (gridSpace : 32 ∉ grid.bytes)
    (gridAt : 64 ∉ grid.bytes) (power : BitVec 32) (now : BitVec 64) :
    HeartbeatCarries format call grid power now ↔
      call.length < callsignLen ∧ 0 ≤ now.toInt := by
  obtain ⟨hb, created, serialized⟩ := serializePacket_createPacket format power
    now (isValidCallsign_spec valid).1 gridShort
  constructor
  · rintro ⟨other, line, sameCreated, sent, equal, -⟩
    rw [created] at sameCreated
    cases sameCreated
    rw [serialized, Option.some.injEq, equal] at sent
    have short := length_lt_of_heartbeatLine_eq located gridSpace sent
    refine ⟨short, ?_⟩
    rw [printedCall, if_pos short] at sent
    exact nonneg_of_heartbeatLine_eq sent
  · rintro ⟨short, positive⟩
    have printed : printedCall call grid = call := if_pos short
    have unsigned : (now.toNat : Int) = now.toInt := by
      rw [BitVec.toInt_eq_toNat_cond] at positive ⊢
      split at positive <;> omega
    rw [printed, unsigned] at serialized
    exact ⟨hb, _, created, serialized, rfl, readHeartbeat_heartbeatLine format
      power now (space_not_mem_of_valid valid) gridAt⟩

/-- A station that always sends with five watts. -/
def fiveWatts : PowerFormat where
  text := fun _ => .ofLiteral "5"
  length_le := fun _ => by decide
  noSpace := fun _ => by decide

/-- The bytes of `5.0f`. -/
def fiveWattsPower : BitVec 32 := 0x40A00000

theorem heartbeatCarries_iff_n0call :
    HeartbeatCarries fiveWatts (.ofLiteral "N0CALL") (.ofLiteral "AA00aa")
        fiveWattsPower 1673719225 ↔
      (CString.ofLiteral "N0CALL").length < callsignLen ∧
        0 ≤ (1673719225 : BitVec 64).toInt :=
  heartbeatCarries_iff fiveWatts (by decide +kernel) (by decide +kernel)
    (by decide +kernel) (by decide +kernel) (by decide +kernel) _ _

/-- A callsign of sixteen characters is printed together with the grid. -/
theorem heartbeat_call_runs_on :
    isValidCallsign (.ofLiteral "VK9ABCDEFGHIJKLM") = true ∧
      (∃ hb, createPacket (some (.ofLiteral "VK9ABCDEFGHIJKLM"))
          (some (.ofLiteral "FN20")) fiveWattsPower 1673719225 = .packet hb ∧
        serializePacket fiveWatts (some hb) minBufSz =
          some (.ofLiteral "HB VK9ABCDEFGHIJKLMFN20 FN20@5 1673719225")) ∧
      ¬HeartbeatCarries fiveWatts (.ofLiteral "VK9ABCDEFGHIJKLM")
        (.ofLiteral "FN20") fiveWattsPower 1673719225 := by
  obtain ⟨hb, created, serialized⟩ := serializePacket_createPacket fiveWatts
    fiveWattsPower 1673719225
    (show (CString.ofLiteral "VK9ABCDEFGHIJKLM").length ≤ callsignLen by
      decide +kernel)
    (show (CString.ofLiteral "FN20").length ≤ gridLen by decide +kernel)
  have printed : heartbeatLine
      (printedCall (.ofLiteral "VK9ABCDEFGHIJKLM") (.ofLiteral "FN20"))
      (.ofLiteral "FN20") (fiveWatts.text fiveWattsPower)
      (1673719225 : BitVec 64).toNat =
        .ofLiteral "HB VK9ABCDEFGHIJKLMFN20 FN20@5 1673719225" := by
    decide +kernel
  refine ⟨by decide +kernel, ⟨hb, created, printed ▸ serialized⟩, ?_⟩
  rintro ⟨other, line, sameCreated, sent, equal, -⟩
  rw [created] at sameCreated
  cases sameCreated
  rw [serialized, Option.some.injEq, equal] at sent
  exact absurd sent (by decide +kernel)

end Hamchat
