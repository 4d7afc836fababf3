import Hamchat.Network.Speaking
import Hamchat.Parser.Dispatch

/-!
# Leaving channels

A line `PART` names the channels to leave in one parameter, with commas between
them.  `Client::Parse` does not count the sender and the command in `argc`, and
the table allows one parameter, but `m_part` asks for two before it does
anything.
-/

namespace Hamchat

open Foundation

/-- `JOIN_MAX_CHAN` -/
def joinMaxChan : Nat := 16

/-- A comma. -/
def comma : UInt8 := 44

/-! ## Joined lists -/

section Joined

variable {sep : α} {lists : List (List α)}

theorem length_intercalate_le (sep : α) {bound : Nat}
    (short : ∀ list ∈ lists, list.length < bound) :
    (List.intercalate [sep] lists).length ≤ bound * lists.length := by
  induction lists with
  | nil => exact Nat.le_refl _
  | cons first rest inductionHypothesis =>
      rw [List.forall_mem_cons] at short
      have tail := inductionHypothesis short.2
      have head := short.1
      rw [List.length_cons, Nat.mul_succ]
      cases rest with
      | nil =>
          rw [List.intercalate_singleton]
          omega
      | cons second rest =>
          rw [List.intercalate_cons_cons, List.length_append,
            List.length_append, List.length_singleton]
          omega

theorem forall_mem_intercalate {property : α → Prop} (atSep : property sep)
    (inside : ∀ list ∈ lists, ∀ element ∈ list, property element) :
    ∀ element ∈ List.intercalate [sep] lists, property element := by
  induction lists with
  | nil => intro element member; cases member
  | cons first rest inductionHypothesis =>
      rw [List.forall_mem_cons] at inside
      have tail := inductionHypothesis inside.2
      cases rest with
      | nil =>
          rw [List.intercalate_singleton]
          exact inside.1
      | cons second rest =>
          rw [List.intercalate_cons_cons, List.forall_mem_append,
            List.forall_mem_append, List.forall_mem_singleton]
          exact ⟨⟨inside.1, atSep⟩, tail⟩

end Joined

/-! ## The line -/

/-- The channels that a PART names. -/
structure ChannelList where
  /-- The names. -/
  names : List CString
  /-- There is one. -/
  names_ne_nil : names ≠ []
  /-- There are up to 16. -/
  length_le : names.length ≤ joinMaxChan
  /-- Each name fits into `char chans[JOIN_MAX_CHAN][CHAN_LEN]`. -/
  short : ∀ name ∈ names, name.length < chanLen
  /-- A name holds no NUL, CR or LF. -/
  unbroken : ∀ name ∈ names, name.Unbroken
  /-- A name holds no space. -/
  noSpace : ∀ name ∈ names, sp ∉ name.bytes
  /-- A name holds no comma. -/
  noComma : ∀ name ∈ names, comma ∉ name.bytes

namespace ChannelList

variable (list : ChannelList)

/-- The names with commas between them. -/
def joined : List UInt8 := [comma].intercalate (list.names.map CString.bytes)

/-- `PART c1,c2,..,ck` -/
def line : List UInt8 := (CString.ofLiteral "PART").bytes ++ sp :: list.joined

theorem joined_length_le : list.joined.length ≤ chanLen * joinMaxChan := by
  have short : ∀ bytes ∈ list.names.map CString.bytes,
      bytes.length < chanLen := List.forall_mem_map.mpr list.short
  have bounded := length_intercalate_le comma short
  rw [List.length_map] at bounded
  exact bounded.trans (Nat.mul_le_mul_left _ list.length_le)

theorem joined_unbroken : ∀ byte ∈ list.joined, isStop byte = false :=
  forall_mem_intercalate (by decide) (List.forall_mem_map.mpr list.unbroken)

theorem space_not_mem_joined : sp ∉ list.joined := by
  intro member
  have inside : ∀ byte ∈ list.joined, byte ≠ sp := by
    refine forall_mem_intercalate (by decide) (List.forall_mem_map.mpr ?_)
    rintro name inNames byte inName rfl
    exact list.noSpace name inNames inName
  exact inside sp member rfl

theorem plain : PlainLine list.line := by
  constructor
  · rw [line, List.forall_mem_append, List.forall_mem_cons]
    exact ⟨by decide +kernel, by decide, list.joined_unbroken⟩
  · exact ⟨80, (CString.ofLiteral "ART").bytes ++ sp :: list.joined, rfl,
      by decide, by decide⟩

theorem line_length_le : list.line.length ≤ 510 := by
  have short := list.joined_length_le
  have command : (CString.ofLiteral "PART").bytes.length = 4 := by
    decide +kernel
  rw [line, List.length_append, List.length_cons, command]
  rw [chanLen, joinMaxChan] at short
  omega

/-- The table hands the line to `m_part` with one parameter. -/
theorem command_eq {client : Client} {sock : Socket}
    (active : client.isActive = true) (holds : sock.Holds list.line) :
    ∃ argv, client.command sock = some ⟨.mPart, 1, argv⟩ := by
  have nulFree : 0 ∉ list.joined := fun member =>
    ne_nul_of_isStop (list.joined_unbroken 0 member) rfl
  have noSpace : sp ∉ (CString.ofLiteral "PART").bytes := by decide +kernel
  have noColon : colon ∉ (CString.ofLiteral "PART").bytes := by decide +kernel
  obtain ⟨words, cut, same⟩ := exists_parameters noSpace noColon nulFree
  rw [lineFields, fields_of_not_mem colon_ne_sp list.space_not_mem_joined]
    at same
  have one : words.length = 1 := by
    rw [← List.length_map CString.bytes, same, List.length_singleton]
  have found : searchCommands client.isActive words.length
      (.ofLiteral "PART") ircCommands = .found .mPart := by
    rw [active, one]
    decide +kernel
  have hands := Client.command_of_words list.plain holds list.line_length_le
    cut (by decide +kernel) (by omega) (by rw [one]; decide) found
  rw [one] at hands
  exact ⟨_, hands⟩

end ChannelList

/-! ## Membership -/

/-- A client is a member of the channel of a name. -/
def Network.IsMemberOf (network : Network δ) (directory : Directory δ)
    (name : CString) (id : Nat) : Prop :=
  ∃ channel, directory.find network.channelTable name = some (some channel) ∧
    network.isMember directory channel id = some true

/-- After a call of `Client::Parse` the client is a member of none of the listed
channels, and nothing else has changed about members. -/
def Network.Parts (network : Network δ) (server : NetworkServer δ)
    (surroundings : Surroundings δ) (id : Nat) (list : ChannelList) : Prop :=
  ∃ next, network.advance server (.parse id surroundings) = some next ∧
    (∀ name ∈ list.names, ¬next.IsMemberOf server.directory name id) ∧
    ∀ name other, name ∉ list.names ∨ other ≠ id →
      (next.IsMemberOf server.directory name other ↔
        network.IsMemberOf server.directory name other)

section Part

variable {network : Network δ} {server : NetworkServer δ}
variable {surroundings : Surroundings δ} {id : Nat} {list : ChannelList}

/-- A socket has nothing to do with members. -/
theorem Network.isMemberOf_setSock (directory : Directory δ) (sock : Socket)
    (name : CString) (other : Nat) :
    (network.setClient id
        { network.clients id with sock := sock }).IsMemberOf directory name
        other ↔
      network.IsMemberOf directory name other := by
  have callsign : ((network.setClient id
      { network.clients id with sock := sock }).clients other).callsign =
        (network.clients other).callsign := by
    by_cases same : other = id
    · rw [same, Network.setClient_clients_self]
      rfl
    · rw [Network.setClient_clients_of_ne same]
  simp only [Network.IsMemberOf, Network.isMember, Network.findMember, callsign]
  rfl

/-- A PART changes no membership. -/
theorem Network.advance_part (server : NetworkServer δ)
    (surroundings : Surroundings δ) (alive : network.alive id = true)
    (active : (network.clients id).client.isActive = true)
    (holds : (network.clients id).sock.Holds list.line) :
    ∃ sock, network.advance server (.parse id surroundings) =
      some (network.setClient id
        { network.clients id with sock := sock }) := by
  obtain ⟨argv, hands⟩ := list.command_eq active holds
  exact Network.advance_of_returned alive hands rfl alive

/-- A PART does what it should exactly for a client that is a member of none of
the channels. -/
theorem Network.parts_iff (server : NetworkServer δ)
    (surroundings : Surroundings δ) (network : Network δ) (id : Nat)
    (list : ChannelList) (alive : network.alive id = true)
    (active : (network.clients id).client.isActive = true)
    (holds : (network.clients id).sock.Holds list.line) :
    network.Parts server surroundings id list ↔
      ∀ name ∈ list.names,
        ¬network.IsMemberOf server.directory name id := by
  obtain ⟨sock, advanced⟩ :=
    Network.advance_part server surroundings alive active holds
  constructor
  · rintro ⟨next, parsed, left, -⟩ name listed
    obtain rfl := Option.some.inj (advanced.symm.trans parsed)
    rw [← Network.isMemberOf_setSock server.directory sock]
    exact left name listed
  · intro outside
    refine ⟨_, advanced, fun name listed => ?_, fun name other _ => ?_⟩
    · rw [Network.isMemberOf_setSock]
      exact outside name listed
    · exact Network.isMemberOf_setSock server.directory sock name other

end Part

/-! ## A run -/

/-- `#hf` -/
def hfList : ChannelList where
  names := [.ofLiteral "#hf"]
  names_ne_nil := List.cons_ne_nil _ _
  length_le := by decide
  short := by decide +kernel
  unbroken := by decide +kernel
  noSpace := by decide +kernel
  noComma := by decide +kernel

/-- A client has joined a channel and sends a PART for it. -/
def departure : List (NetworkEvent (List (CString × Nat))) :=
  gathering ++
    [.receive 4 (.received (CString.ofLiteral "PART #hf\r\n").bytes) .zeroed]

theorem departure_holds :
    ∃ network, runFrom (Network.advance listServer)
        (.start listServer.directory) departure = some network ∧
      network.alive 0 = true ∧
      (network.clients 0).client.isActive = true ∧
      (network.clients 0).sock.Holds hfList.line ∧
      network.IsMemberOf listServer.directory (.ofLiteral "#hf") 0 := by
  have checked : (runFrom (Network.advance listServer)
      (.start listServer.directory) departure).any (fun network =>
        decide (network.alive 0 = true ∧
          (network.clients 0).client.isActive = true ∧
          (network.clients 0).sock.Holds hfList.line ∧
          listServer.directory.find network.channelTable (.ofLiteral "#hf") =
            some (some 0) ∧
          network.isMember listServer.directory 0 0 = some true)) = true := by
    decide +kernel
  obtain ⟨network, reached, checked⟩ := (Option.any_eq_true _ _).mp checked
  obtain ⟨alive, active, holds, found, member⟩ := of_decide_eq_true checked
  exact ⟨network, reached, alive, active, holds, 0, found, member⟩

theorem Network.parts_iff_departure :
    ∃ network, runFrom (Network.advance listServer)
        (.start listServer.directory) departure = some network ∧
      (network.Parts listServer (quietSurroundings .empty) 0 hfList ↔
        ∀ name ∈ hfList.names,
          ¬network.IsMemberOf listServer.directory name 0) := by
  obtain ⟨network, reached, alive, active, holds, -⟩ := departure_holds
  exact ⟨network, reached,
    Network.parts_iff listServer _ network 0 hfList alive active holds⟩

/-- After its PART the client is still a member. -/
theorem member_stays :
    ∃ network, runFrom (Network.advance listServer)
        (.start listServer.directory) departure = some network ∧
      network.alive 0 = true ∧
      (network.clients 0).client.isActive = true ∧
      (network.clients 0).sock.Holds hfList.line ∧
      ¬network.Parts listServer (quietSurroundings .empty) 0 hfList := by
  obtain ⟨network, reached, alive, active, holds, member⟩ := departure_holds
  refine ⟨network, reached, alive, active, holds, ?_⟩
  rintro ⟨next, parsed, left, -⟩
  obtain ⟨sock, advanced⟩ := Network.advance_part listServer
    (quietSurroundings .empty) alive active holds
  obtain rfl := Option.some.inj (advanced.symm.trans parsed)
  refine left (.ofLiteral "#hf") List.mem_cons_self ?_
  rwa [Network.isMemberOf_setSock]

end Hamchat
