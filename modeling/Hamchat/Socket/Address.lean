import Hamchat.Config.Defs
import Hamchat.Foundation.Fields
import Hamchat.Numbers
import Hamchat.Parser.Defs

/-!
# Addresses of listeners and sockets

`Listener::Listener` and `Socket::Socket(const char *)` of
`src/transport_socket.cpp`, from the URI to the call of `socket`.  Both return
from none of their errors: they end the process by `shutdown`, or go on with what
they have.  Where they go on with something that C++ leaves undefined, the model
names it and ends.

The resolver is a parameter.  A NULL prints as glibc prints it.
-/

namespace Hamchat

open Foundation

/-- `enum { UDP, TCP, FIFO } type` -/
inductive UriType
  | udp
  | tcp
  | fifo
  deriving DecidableEq

/-- What a constructor has gone on with. -/
inductive AddressFault
  /-- The variable `type` has not been set. -/
  | typeUnset
  /-- The object has been deleted by `delete this`. -/
  | deleted
  /-- `memcpy` has written behind `host`. -/
  | hostOverrun
  /-- `host` is read without a NUL in the bytes that were set. -/
  | hostUnterminated
  /-- `hostnm` is NULL. -/
  | hostnmNull
  /-- The member `sock` has not been set. -/
  | sockUnset
  deriving DecidableEq

/-- What `socket` and `bind` or `connect` are called for. -/
structure SocketAddress where
  /-- The kind of socket. -/
  type : UriType
  /-- `char host[]`, where a byte that has not been set is `none`. -/
  host : List (Option UInt8)
  /-- `int port` -/
  port : Int
  /-- The argument of `htons`. -/
  sinPort : BitVec 16
  /-- `sin_addr` -/
  sinAddr : BitVec 32
  deriving DecidableEq

/-- How a constructor ends. -/
inductive AddressOutcome
  /-- `shutdown(status)` has ended the process before `socket` is called. -/
  | stopped (status : Nat)
  /-- It has gone on with something undefined. -/
  | undefined (fault : AddressFault)
  /-- It calls `socket` for this address. -/
  | opens (address : SocketAddress)
  deriving DecidableEq

/-! ## The common part -/

/-- The scheme of a URI, and the length of its prefix. -/
def uriType (uri : CString) : Option (UriType × Nat) :=
  if uri.sameIgnoringCaseUpTo 6 (.ofLiteral "tcp://") then
    some (.tcp, 6)
  else if uri.sameIgnoringCaseUpTo 6 (.ofLiteral "udp://") then
    some (.udp, 6)
  else if uri.sameIgnoringCaseUpTo 7 (.ofLiteral "fifo://") then
    some (.fifo, 7)
  else
    none

/-- `char host[room]` after `memset(host, 0, HOST_NAME_MAX)` and the `memcpy` of
the host, if that fits. -/
def hostArray (room : Nat) (host : List UInt8) :
    Option (List (Option UInt8)) :=
  if host.length ≤ room then
    some (host.map some ++
      (List.replicate hostNameMax (some (0 : UInt8)) ++
        List.replicate (room - hostNameMax) none).drop host.length)
  else
    none

/-- The string in an array, if a NUL ends it before its end and before a byte
that has not been set. -/
def readHost : List (Option UInt8) → Option (List UInt8)
  | some byte :: rest =>
      if byte = 0 then some [] else (readHost rest).map (byte :: ·)
  | none :: _ | [] => none

/-- What follows the separator: `host` is filled, and a port zero is reported
with the host before `shutdown(101)`. -/
def fillHost (array : Option (List (Option UInt8))) (port : Int)
    (next : List (Option UInt8) → Int → AddressOutcome) : AddressOutcome :=
  match array with
  | none => .undefined .hostOverrun
  | some host =>
      if port = 0 then
        match readHost host with
        | none => .undefined .hostUnterminated
        | some _ => .stopped 101
      else
        next host port

/-- The part of the constructors that extracts host and port, where `host` has
`room` bytes and `next` is what follows. -/
def extractHost (room : Nat) (start : List UInt8)
    (next : List (Option UInt8) → Int → AddressOutcome) : AddressOutcome :=
  if colon ∈ start then
    fillHost (hostArray room (start.takeWhile (· ≠ colon)))
      (atoi (.read ((start.dropWhile (· ≠ colon)).drop 1))) next
  else
    .undefined .deleted

section Constructors

variable (gethostbyname : List UInt8 → Option (BitVec 32))

/-- `Listener::Listener` behind the extraction of host and port. -/
def Listener.bindTo (type : UriType) (host : List (Option UInt8))
    (port : Int) : AddressOutcome :=
  -- A host that starts with an asterisk stands for every address.
  if host.head? = some (some 42) then
    .opens ⟨type, host, port, BitVec.ofInt 16 port, 0⟩
  else
    match readHost host with
    | none => .undefined .hostUnterminated
    | some name =>
        match gethostbyname name with
        | none => .stopped 108
        | some address =>
            .opens ⟨type, host, port, BitVec.ofInt 16 port, address⟩

/-- `Listener::Listener` -/
def Listener.construct (uri : CString) : AddressOutcome :=
  match uriType uri with
  | none => .undefined .typeUnset
  | some (.fifo, _) => .undefined .sockUnset
  | some (type, start) =>
      extractHost hostNameMax (uri.bytes.drop start)
        (Listener.bindTo gethostbyname type)

/-- `Socket::Socket(const char *uri)` behind the extraction of host and port. -/
def Socket.connectTo (type : UriType) (host : List (Option UInt8))
    (port : Int) : AddressOutcome :=
  match readHost host with
  | none => .undefined .hostUnterminated
  | some name =>
      match gethostbyname name with
      | none => .undefined .hostnmNull
      | some address =>
          .opens ⟨type, host, port, BitVec.ofInt 16 port, address⟩

/-- `Socket::Socket(const char *uri)` -/
def Socket.construct (uri : CString) : AddressOutcome :=
  match uriType uri with
  | none => .undefined .typeUnset
  | some (.fifo, _) => .undefined .deleted
  | some (type, start) =>
      extractHost (hostNameMax + 1) (uri.bytes.drop start)
        (Socket.connectTo gethostbyname type)

end Constructors

/-! ## Exact addresses -/

/-- The prefix of a URI, in lower case. -/
def UriType.scheme : UriType → CString
  | .udp => .ofLiteral "udp://"
  | .tcp => .ofLiteral "tcp://"
  | .fifo => .ofLiteral "fifo://"

/-- The text is a decimal number that is a port. -/
structure IsPort (text : List UInt8) (port : Nat) : Prop where
  /-- There is a digit. -/
  ne_nil : text ≠ []
  /-- There are only digits. -/
  digits : ∀ byte ∈ text, isDigitOf 10 byte = true
  /-- Their value. -/
  value : digitsValue 10 text = port
  /-- It is not zero. -/
  pos : 1 ≤ port
  /-- It has sixteen bits. -/
  le : port ≤ 65535

/-- The URI consists of a scheme for IP in any case, a host that fits its array,
a colon and a port. -/
structure IsAddress (uri : CString) (type : UriType) (host : List UInt8)
    (port : Nat) : Prop where
  /-- The scheme is not `fifo`. -/
  ip : type ≠ .fifo
  /-- The scheme comes first. -/
  scheme : (uri.bytes.take 6).map CString.toLower = type.scheme.bytes
  /-- The host, a colon and the port follow. -/
  rest : ∃ text, uri.bytes.drop 6 = host ++ colon :: text ∧ IsPort text port
  /-- The host leaves room for a NUL. -/
  short : host.length ≤ hostNameMax - 1

/-- A constructor has stopped, or opens the address that the URI consists of. -/
def AddressOutcome.Exact (outcome : AddressOutcome) (uri : CString) : Prop :=
  (∃ status, outcome = .stopped status) ∨
    ∃ address host port, outcome = .opens address ∧
      IsAddress uri address.type host port ∧
      readHost address.host = some host ∧ address.port = port ∧
      address.sinPort.toNat = port

/-- Two constructors have both stopped, or open the same host and port. -/
def AddressOutcome.Same (first second : AddressOutcome) : Prop :=
  (∃ status other, first = .stopped status ∧ second = .stopped other) ∨
    ∃ address other, first = .opens address ∧ second = .opens other ∧
      address.type = other.type ∧
      readHost address.host = readHost other.host ∧
      address.port = other.port ∧ address.sinPort = other.sinPort

/-- Both constructors handle the URI exactly, and agree on it. -/
def AddressExact (gethostbyname : List UInt8 → Option (BitVec 32))
    (uri : CString) : Prop :=
  (Listener.construct gethostbyname uri).Exact uri ∧
    (Socket.construct gethostbyname uri).Exact uri ∧
    (Listener.construct gethostbyname uri).Same
      (Socket.construct gethostbyname uri)

/-! ## What the constructors see -/

theorem uriType_eq_some {uri : CString} {type : UriType} {start : Nat}
    (found : uriType uri = some (type, start)) (ip : type ≠ .fifo) :
    start = 6 ∧ (uri.bytes.take 6).map CString.toLower = type.scheme.bytes := by
  unfold uriType at found
  split at found
  · rename_i same
    cases found
    exact ⟨rfl, (beq_iff_eq.mp same).trans (by decide)⟩
  · split at found
    · rename_i same
      cases found
      exact ⟨rfl, (beq_iff_eq.mp same).trans (by decide)⟩
    · split at found
      · cases found
        exact absurd rfl ip
      · cases found

theorem extractHost_eq {host : List UInt8} (absent : colon ∉ host)
    (text : List UInt8) (room : Nat)
    (next : List (Option UInt8) → Int → AddressOutcome) :
    extractHost room (host ++ colon :: text) next =
      fillHost (hostArray room host) (atoi (.read text)) next := by
  have cut := takeWhile_dropWhile_word absent text
  have member : colon ∈ host ++ colon :: text :=
    List.mem_append_right _ List.mem_cons_self
  rw [extractHost, if_pos member, cut.1, cut.2]
  rfl

/-- A string in front of the bytes of an array is read in front. -/
theorem readHost_append {host : List UInt8}
    (nulFree : ∀ byte ∈ host, byte ≠ 0) (rest : List (Option UInt8)) :
    readHost (host.map some ++ rest) = (readHost rest).map (host ++ ·) := by
  induction host with
  | nil => simp
  | cons byte host inductionHypothesis =>
      rw [List.forall_mem_cons] at nulFree
      rw [List.map_cons, List.cons_append, readHost, if_neg nulFree.1,
        inductionHypothesis nulFree.2, Option.map_map]
      rfl

/-- The array holds the host with a NUL behind it exactly if the host is shorter
than the part that was cleared. -/
theorem readHost_hostArray {room : Nat} {host : List UInt8}
    (nulFree : ∀ byte ∈ host, byte ≠ 0) {array : List (Option UInt8)}
    (filled : hostArray room host = some array) :
    readHost array = if host.length < hostNameMax then some host else none := by
  unfold hostArray at filled
  split at filled
  · cases filled
    rw [readHost_append nulFree, List.drop_append, List.drop_replicate,
      List.drop_replicate, List.length_replicate]
    split
    · rename_i short
      obtain ⟨count, left⟩ := Nat.exists_eq_succ_of_ne_zero
        (Nat.sub_ne_zero_of_lt short)
      rw [left, List.replicate_succ, List.cons_append, readHost, if_pos rfl]
      simp
    · rename_i full
      rw [Nat.sub_eq_zero_of_le (Nat.not_lt.mp full), List.replicate_zero,
        List.nil_append]
      cases room - hostNameMax - (host.length - hostNameMax) with
      | zero => rfl
      | succ count => rfl
  · cases filled

/-- `atoi` of a port. -/
theorem IsPort.atoi_eq {text : List UInt8} {port : Nat}
    (isPort : IsPort text port) : atoi (.read text) = port := by
  have upper := isPort.le
  have inLong : min (2 ^ 63 - 1) (port : Int) = port := by omega
  have fits : FitsInt port := by
    unfold FitsInt
    omega
  rw [atoi_of_digits isPort.digits, isPort.value, inLong, toInt32_of_fits fits]

/-- The constructors handle a URI exactly if it has a scheme for IP, a host that
fits its array and a colon, and the text behind the colon either counts as zero,
or is a port while the resolver knows the host. -/
structure HandledAddress (gethostbyname : List UInt8 → Option (BitVec 32))
    (uri : CString) (type : UriType) (host text : List UInt8) : Prop where
  /-- The scheme is `tcp` or `udp`. -/
  ip : uriType uri = some (type, 6) ∧ type ≠ .fifo
  /-- The first colon ends the host. -/
  cut : uri.bytes.drop 6 = host ++ colon :: text ∧ colon ∉ host
  /-- The host leaves room for a NUL. -/
  short : host.length < hostNameMax
  /-- The port is refused, or is one and leads to an address. -/
  port : atoi (.read text) = 0 ∨
    (∃ port, IsPort text port) ∧ (gethostbyname host).isSome

theorem toNat_ofInt_port {port : Nat} (le : port ≤ 65535) :
    (BitVec.ofInt 16 port).toNat = port := by
  rw [BitVec.ofInt_natCast, BitVec.toNat_ofNat]
  exact Nat.mod_eq_of_lt (by omega)

section Exact

variable {gethostbyname : List UInt8 → Option (BitVec 32)} {uri : CString}
variable {type : UriType} {host text : List UInt8}

/-- The bytes of a host hold no NUL. -/
theorem nulFree_of_cut (cut : uri.bytes.drop 6 = host ++ colon :: text) :
    ∀ byte ∈ host, byte ≠ 0 := by
  intro byte member
  apply uri.nulFree byte
  apply List.mem_of_mem_drop
  rw [cut]
  exact List.mem_append_left _ member

theorem Listener.construct_eq (found : uriType uri = some (type, 6))
    (ip : type ≠ .fifo) :
    Listener.construct gethostbyname uri =
      extractHost hostNameMax (uri.bytes.drop 6)
        (Listener.bindTo gethostbyname type) := by
  unfold Listener.construct
  rw [found]
  cases type with
  | udp => rfl
  | tcp => rfl
  | fifo => exact absurd rfl ip

theorem Socket.construct_eq (found : uriType uri = some (type, 6))
    (ip : type ≠ .fifo) :
    Socket.construct gethostbyname uri =
      extractHost (hostNameMax + 1) (uri.bytes.drop 6)
        (Socket.connectTo gethostbyname type) := by
  unfold Socket.construct
  rw [found]
  cases type with
  | udp => rfl
  | tcp => rfl
  | fifo => exact absurd rfl ip

/-- What stops is neither undefined nor an address. -/
theorem AddressOutcome.Exact.of_undefined {fault : AddressFault}
    (exact : (AddressOutcome.undefined fault).Exact uri) : False := by
  rcases exact with ⟨status, stopped⟩ | ⟨address, host, port, opens, -⟩
  · cases stopped
  · cases opens

/-- The text behind the host of an exact address is a port. -/
theorem isPort_of_exact (cut : uri.bytes.drop 6 = host ++ colon :: text)
    {address : SocketAddress} (reads : readHost address.host = some host)
    (exact : (AddressOutcome.opens address).Exact uri) :
    ∃ port, IsPort text port := by
  rcases exact with ⟨status, stopped⟩ |
    ⟨same, name, port, opened, isAddress, named, -⟩
  · cases stopped
  · cases opened
    rw [reads, Option.some.injEq] at named
    subst named
    obtain ⟨behind, rest, isPort⟩ := isAddress.rest
    rw [cut] at rest
    have texts := (List.cons.inj (List.append_cancel_left rest)).2
    exact ⟨port, texts ▸ isPort⟩

/-- What an exact outcome of a socket says of host and port. -/
theorem exact_fillHost (nulFree : ∀ byte ∈ host, byte ≠ 0)
    (cut : uri.bytes.drop 6 = host ++ colon :: text)
    (exact : (fillHost (hostArray (hostNameMax + 1) host) (atoi (.read text))
      (Socket.connectTo gethostbyname type)).Exact uri) :
    host.length < hostNameMax ∧ (atoi (.read text) = 0 ∨
      (∃ port, IsPort text port) ∧ (gethostbyname host).isSome) := by
  cases filled : hostArray (hostNameMax + 1) host with
  | none =>
      rw [filled] at exact
      exact exact.of_undefined.elim
  | some array =>
      have reads := readHost_hostArray nulFree filled
      rw [filled, fillHost] at exact
      by_cases short : host.length < hostNameMax
      · rw [if_pos short] at reads
        refine ⟨short, or_iff_not_imp_left.mpr fun nonzero => ?_⟩
        rw [if_neg nonzero, Socket.connectTo, reads] at exact
        cases resolved : gethostbyname host with
        | none =>
            simp only [resolved] at exact
            exact exact.of_undefined.elim
        | some address =>
            simp only [resolved] at exact
            exact ⟨isPort_of_exact cut reads exact, rfl⟩
      · rw [if_neg short] at reads
        split at exact
        · rw [reads] at exact
          exact exact.of_undefined.elim
        · rw [Socket.connectTo, reads] at exact
          exact exact.of_undefined.elim

/-- A URI that stops or opens an exact address is handled. -/
theorem HandledAddress.of_exact
    (exact : (Socket.construct gethostbyname uri).Exact uri) :
    ∃ type host text, HandledAddress gethostbyname uri type host text := by
  cases found : uriType uri with
  | none =>
      rw [Socket.construct, found] at exact
      exact exact.of_undefined.elim
  | some recognised =>
      obtain ⟨type, start⟩ := recognised
      by_cases fifo : type = .fifo
      · rw [Socket.construct, found, fifo] at exact
        exact exact.of_undefined.elim
      obtain ⟨rfl, scheme⟩ := uriType_eq_some found fifo
      rw [Socket.construct_eq found fifo] at exact
      by_cases separated : colon ∈ uri.bytes.drop 6
      · obtain ⟨host, text, cut, absent⟩ :=
          List.eq_append_cons_of_mem separated
        rw [cut, extractHost_eq absent] at exact
        obtain ⟨short, port⟩ := exact_fillHost (nulFree_of_cut cut) cut exact
        exact ⟨type, host, text, ⟨found, fifo⟩, ⟨cut, absent⟩, short, port⟩
      · rw [extractHost, if_neg separated] at exact
        exact exact.of_undefined.elim

theorem exists_hostArray {room : Nat} (fits : host.length ≤ room) :
    ∃ array, hostArray room host = some array :=
  ⟨_, if_pos fits⟩

/-- A listener opens the address of a host that resolves. -/
theorem exists_bindTo_eq {array : List (Option UInt8)}
    (reads : readHost array = some host)
    (resolves : (gethostbyname host).isSome) (type : UriType) (port : Int) :
    ∃ sinAddr, Listener.bindTo gethostbyname type array port =
      .opens ⟨type, array, port, BitVec.ofInt 16 port, sinAddr⟩ := by
  obtain ⟨address, resolved⟩ := Option.isSome_iff_exists.mp resolves
  unfold Listener.bindTo
  split
  · exact ⟨0, rfl⟩
  · simp only [reads, resolved]
    exact ⟨address, rfl⟩

/-- A socket opens the address of a host that resolves. -/
theorem exists_connectTo_eq {array : List (Option UInt8)}
    (reads : readHost array = some host)
    (resolves : (gethostbyname host).isSome) (type : UriType) (port : Int) :
    ∃ sinAddr, Socket.connectTo gethostbyname type array port =
      .opens ⟨type, array, port, BitVec.ofInt 16 port, sinAddr⟩ := by
  obtain ⟨address, resolved⟩ := Option.isSome_iff_exists.mp resolves
  unfold Socket.connectTo
  simp only [reads, resolved]
  exact ⟨address, rfl⟩

/-- A URI that is handled stops both constructors, or both open the address. -/
theorem HandledAddress.addressExact
    (handled : HandledAddress gethostbyname uri type host text) :
    AddressExact gethostbyname uri := by
  obtain ⟨⟨found, ip⟩, ⟨cut, absent⟩, short, port⟩ := handled
  have scheme := (uriType_eq_some found ip).2
  have nulFree := nulFree_of_cut cut
  rw [AddressExact, Listener.construct_eq found ip,
    Socket.construct_eq found ip, cut, extractHost_eq absent,
    extractHost_eq absent]
  obtain ⟨listening, listenerFilled⟩ :=
    exists_hostArray (Nat.le_of_lt short)
  obtain ⟨connecting, socketFilled⟩ :=
    exists_hostArray (Nat.le_succ_of_le (Nat.le_of_lt short))
  have listenerReads := readHost_hostArray nulFree listenerFilled
  have socketReads := readHost_hostArray nulFree socketFilled
  rw [if_pos short] at listenerReads socketReads
  rw [listenerFilled, socketFilled]
  rcases port with zero | ⟨⟨port, isPort⟩, resolves⟩
  · -- Both report the port and stop.
    simp only [fillHost, zero, if_true, listenerReads, socketReads]
    exact ⟨.inl ⟨101, rfl⟩, .inl ⟨101, rfl⟩, .inl ⟨101, 101, rfl, rfl⟩⟩
  · have nonzero : atoi (.read text) ≠ 0 := by
      have positive := isPort.pos
      rw [isPort.atoi_eq]
      omega
    have isAddress : IsAddress uri type host port :=
      ⟨ip, scheme, ⟨text, cut, isPort⟩, Nat.le_sub_one_of_lt short⟩
    obtain ⟨bound, binds⟩ := exists_bindTo_eq listenerReads resolves type
      (atoi (.read text))
    obtain ⟨address, connects⟩ := exists_connectTo_eq socketReads resolves type
      (atoi (.read text))
    have sixteen := toNat_ofInt_port isPort.le
    simp only [fillHost, if_neg nonzero, binds, connects]
    rw [isPort.atoi_eq]
    exact ⟨.inr ⟨_, host, port, rfl, isAddress, listenerReads, rfl, sixteen⟩,
      .inr ⟨_, host, port, rfl, isAddress, socketReads, rfl, sixteen⟩,
      .inr ⟨_, _, rfl, rfl, rfl, listenerReads.trans socketReads.symm, rfl,
        rfl⟩⟩

end Exact

/-- Both constructors handle a URI exactly, and agree on it, if and only if the
URI is handled. -/
theorem addressExact_iff (gethostbyname : List UInt8 → Option (BitVec 32))
    (uri : CString) :
    AddressExact gethostbyname uri ↔
      ∃ type host text, HandledAddress gethostbyname uri type host text := by
  constructor
  · intro exact
    exact HandledAddress.of_exact exact.2.1
  · rintro ⟨type, host, text, handled⟩
    exact handled.addressExact

/-- A resolver that knows every name. -/
def loopback (_name : List UInt8) : Option (BitVec 32) := some 0x0100007F

/-- A port beyond sixteen bits is accepted, and truncated. -/
theorem port_truncated :
    (∃ host, Listener.construct loopback (.ofLiteral "tcp://localhost:65537") =
      .opens ⟨.tcp, host, 65537, 1, 0x0100007F⟩) ∧
    ¬AddressExact loopback (.ofLiteral "tcp://localhost:65537") := by
  have opens : Listener.construct loopback
      (.ofLiteral "tcp://localhost:65537") =
        .opens ⟨.tcp, (CString.ofLiteral "localhost").bytes.map some ++
          List.replicate 55 (some 0), 65537, 1, 0x0100007F⟩ := by
    decide +kernel
  refine ⟨⟨_, opens⟩, ?_⟩
  rintro ⟨exact, -⟩
  rw [opens] at exact
  rcases exact with ⟨status, stopped⟩ |
    ⟨address, host, port, opened, -, -, stored, passed⟩
  · cases stopped
  · cases opened
    have equal : port = 1 := passed.symm
    have stored' : (65537 : Int) = port := stored
    omega

end Hamchat
