import Hamchat.Dict.Blob
import Hamchat.Network.Handlers

/-!
# NAMES and the members of a channel

`m_names` from `src/m_names.cpp` walks the members of a channel with
`dict_enumerate_blob` and stops at the first entry without a pointer.  The
members are what `Channel::AddUser` and `Channel::RemoveUser` have left in the
dictionary of the repository, whose pointers never lead to a member record.
-/

namespace Hamchat

open Foundation

/-! ## Members -/

namespace Network

variable (network : Network (Option (Dict Nat)))

/-- Another table of members. -/
def setMembers (channel : Nat) (members : Option (Dict Nat)) :
    Network (Option (Dict Nat)) :=
  { network with
    channels := Function.update network.channels channel
      { network.channels channel with members := members } }

/-- `this->members = dict_new()`, in `Channel::Channel`. -/
def openMembers (channel : Nat) : Network (Option (Dict Nat)) :=
  network.setMembers channel (some dictNew)

/-- `Channel::RemoveUser` -/
def removeUser (channel id : Nat) : Option (Network (Option (Dict Nat))) :=
  (dictDirectory.del (network.channels channel).members
    (network.clients id).callsign).map (network.setMembers channel)

end Network

/-- A call that changes the members of a channel or a callsign. -/
inductive MemberCall
  /-- `channel->AddUser(id)` -/
  | addUser (id : Nat) (surroundings : Surroundings (Option (Dict Nat)))
  /-- `channel->RemoveUser(id)` -/
  | removeUser (id : Nat)
  /-- `id->SetCallsign(callsign)`, without the table of callsigns. -/
  | setCallsign (id : Nat) (callsign : CString)

/-- The network that a handler leaves, if it returns. -/
def Ending.network? : Ending δ → Option (Network δ)
  | .returned _ network => some network
  | .undefined => none

/-- One call, if it returns. -/
def MemberCall.perform (text : NetworkText) (channel : Nat)
    (network : Network (Option (Dict Nat))) :
    MemberCall → Option (Network (Option (Dict Nat)))
  | .addUser id surroundings =>
      let call : HandlerCall (Option (Dict Nat)) :=
        ⟨dictDirectory, text, surroundings, network, id, 0, []⟩
      (call.addUser network channel).ending.network?
  | .removeUser id => network.removeUser channel id
  | .setCallsign id callsign =>
      let object := network.clients id
      some (network.setClient id
        { object with client := object.client.setCallsign callsign })

/-- The network after some calls on a new channel. -/
def membersAfter (text : NetworkText) (channel : Nat)
    (network : Network (Option (Dict Nat))) (history : List MemberCall) :
    Option (Network (Option (Dict Nat))) :=
  runFrom (MemberCall.perform text channel) (network.openMembers channel)
    history

/-- The members after one more call. -/
def MemberCall.track (current : List Nat) : MemberCall → List Nat
  | .addUser id _ => current.insert id
  | .removeUser id => current.erase id
  | .setCallsign .. => current

/-- The clients that have been added and not been removed since. -/
def currentMembers (history : List MemberCall) : List Nat :=
  history.foldl MemberCall.track []

/-! ## The listing -/

/-- The loop of `m_names`, for at most `fuel` rounds, as the clients that it
names.  It does not go on through a pointer to a variable that is gone. -/
def namesLoop (members : Dict Nat) (records : Nat → MemberObject) :
    (fuel rank : Nat) → Option (List Nat)
  | 0, _ => none
  | fuel + 1, rank =>
      let call := dictEnumerateBlob members rank
      match call.next, call.entry.bind Enumerated.val with
      | none, _ | some _, none => some []
      | some _, some (.automatic _) => none
      | some rank, some (.object cm) =>
          match (records cm).cptr with
          | none => some []
          | some mcptr =>
              (namesLoop members records fuel rank).map (mcptr :: ·)

namespace HandlerCall

/-- The line 353 for a client. -/
def nameLine (call : HandlerCall δ) (target : CString) (member : Nat) :
    Delivery :=
  call.numeric 353 [call.callsign, .ofLiteral " = ", target, .ofLiteral " :",
    (call.network.clients member).callsign]

/-- The line 366. -/
def endOfNames (call : HandlerCall δ) (target : CString) : Delivery :=
  call.numeric 366 [call.callsign, .ofLiteral " ", target,
    .ofLiteral " :End of /NAMES list"]

/-- `m_names`, when `find_channel` has found the channel. -/
def listNames (call : HandlerCall (Option (Dict Nat))) (channel : Nat)
    (target : CString) : Outcome (Option (Dict Nat)) :=
  match (call.network.channels channel).members with
  | none => call.answer false []
  | some members =>
      .after []
        (namesLoop members call.network.records (members.size + 1) 0)
        fun named =>
          call.answer true
            (named.map (call.nameLine target) ++ [call.endOfNames target])

/-- One line 353 for each of the current members, no other, and one line 366. -/
def ListsExactly (call : HandlerCall (Option (Dict Nat))) (channel : Nat)
    (target : CString) (current : List Nat) : Prop :=
  ∃ order : List Nat, order.Perm current ∧
    call.listNames channel target = call.answer true
      (order.map (call.nameLine target) ++ [call.endOfNames target])

end HandlerCall

/-! ## The loop over the entries -/

/-- The clients that the pointers of some entries lead to, up to the first
NULL. -/
def namesOf (records : Nat → MemberObject) :
    List (Option (Pointer Nat)) → Option (List Nat)
  | [] | none :: _ => some []
  | some (.automatic _) :: _ => none
  | some (.object cm) :: rest =>
      match (records cm).cptr with
      | none => some []
      | some mcptr => (namesOf records rest).map (mcptr :: ·)

/-- With a round for each slot the loop handles the entries in order. -/
theorem namesLoop_eq {members : Dict Nat} (records : Nat → MemberObject)
    {fuel rank : Nat} (inside : rank ≤ members.size)
    (enough : members.size - rank < fuel) :
    namesLoop members records fuel rank =
      namesOf records (((List.range' rank (members.size - rank)).filterMap
        fun i => (members.table i).enumerated Keypair.blob).map
          Enumerated.val) := by
  induction fuel generalizing rank with
  | zero => omega
  | succ fuel inductionHypothesis =>
      have visited := @visit_eq _
        (fun i => (members.table i).enumerated Keypair.blob) members.size rank
        (members.size - rank) (by omega)
      rw [namesLoop]
      simp only [dictEnumerateBlob, dictEnumerateWith]
      rcases visited with ⟨ended, empty⟩ |
        ⟨found, entry, behind, within, next, returned, entries⟩
      · rw [ended, empty]
        rfl
      · rw [next, returned, entries, List.map_cons]
        have later := @inductionHypothesis (found + 1) within (by omega)
        rw [Option.bind_some]
        rcases entry.val with _ | ⟨cm⟩ | owner
        · rfl
        · rw [namesOf, ← later]
        · rfl

/-- The rounds of `m_names` suffice for every table. -/
theorem namesLoop_eq_namesOf (members : Dict Nat)
    (records : Nat → MemberObject) :
    namesLoop members records (members.size + 1) 0 =
      namesOf records
        ((members.entries Keypair.blob).map Enumerated.val) := by
  rw [namesLoop_eq records (Nat.zero_le _) (by omega), Dict.entries,
    List.range_eq_range', Nat.sub_zero]

/-- Without a pointer to a record the loop names nobody, and it comes to its end
if the first pointer, if there is one, is NULL. -/
theorem namesOf_eq_some_iff {vals : List (Option (Pointer Nat))}
    (noObject : ∀ cm, some (.object cm) ∉ vals)
    (records : Nat → MemberObject) {named : List Nat} :
    namesOf records vals = some named ↔
      named = [] ∧ ∀ val ∈ vals.head?, val = none := by
  cases vals with
  | nil => simp [namesOf, eq_comm]
  | cons first rest =>
      rcases first with _ | ⟨cm⟩ | owner
      · simp [namesOf, eq_comm]
      · exact absurd List.mem_cons_self (noObject cm)
      · simp [namesOf]

/-- The pointers of the entries are those in the slots. -/
theorem Dict.ObjectFree.entries {members : Dict Nat}
    (objectFree : members.ObjectFree) (cm : Nat) :
    some (Pointer.object cm) ∉
      (members.entries Keypair.blob).map Enumerated.val := by
  intro listed
  obtain ⟨entry, member, equal⟩ := List.mem_map.mp listed
  obtain ⟨i, -, used⟩ := List.mem_filterMap.mp member
  refine objectFree i cm ?_
  rw [Keypair.enumerated] at used
  split at used
  · rw [← equal, ← Option.some.inj used]
  · cases used

/-! ## What the calls leave -/

/-- The table of a channel has been made by calls on a new dictionary. -/
def MadeByCalls (members : Option (Dict Nat)) : Prop :=
  ∃ (ops : List (DictOp Nat)) (d : Dict Nat),
    members = some d ∧ dictAfter ops = some d

/-- One more call through the pointer of the channel. -/
theorem MadeByCalls.callDict {members next : Option (Dict Nat)}
    (made : MadeByCalls members) {op : DictOp Nat}
    (called : callDict members op = some next) : MadeByCalls next := by
  obtain ⟨ops, d, rfl, reached⟩ := made
  obtain ⟨after, applied, rfl⟩ := Option.map_eq_some_iff.mp called
  exact ⟨ops ++ [op], after, rfl,
    (runFrom_concat_eq_some _ _).mpr ⟨d, reached, applied⟩⟩

section Calls

variable {network next : Network (Option (Dict Nat))} {channel : Nat}

theorem MadeByCalls.addMember
    (made : MadeByCalls (network.channels channel).members)
    {surroundings : Surroundings (Option (Dict Nat))} {id : Nat}
    (added : network.addMember dictDirectory surroundings id channel =
      some next) :
    MadeByCalls (next.channels channel).members := by
  obtain ⟨members, stored, equal⟩ := Option.bind_eq_some_iff.mp added
  obtain rfl := Option.some.inj equal
  simpa using made.callDict stored

theorem HandlerCall.recordMember_network
    (call : HandlerCall (Option (Dict Nat))) :
    (call.recordMember network channel).ending.network? =
      network.addMember call.directory call.surroundings call.self channel := by
  rw [recordMember]
  cases network.addMember call.directory call.surroundings call.self
    channel <;> rfl

/-- A search that returns finds no pointer in such a table. -/
theorem MadeByCalls.find_eq_none {members : Option (Dict Nat)}
    (made : MadeByCalls members) {key : CString} {found : Option Nat}
    (search : dictDirectory.find members key = some found) : found = none := by
  obtain ⟨ops, d, rfl, reached⟩ := made
  obtain ⟨blob, looked, returned⟩ := Option.bind_eq_some_iff.mp search
  rcases blob with _ | ⟨record⟩ | owner
  · exact (Option.some.inj returned).symm
  · exact absurd looked
      ((objectFree_of_dictAfter reached).dictGetBlob_ne key record)
  · cases returned

/-- `Channel::AddUser` never finds its client among the members, so when it
returns it has made a member record. -/
theorem MadeByCalls.addUser
    (made : MadeByCalls (network.channels channel).members)
    {call : HandlerCall (Option (Dict Nat))}
    (repository : call.directory = dictDirectory)
    (returned : (call.addUser network channel).ending.network? = some next) :
    network.addMember dictDirectory call.surroundings call.self channel =
      some next := by
  rw [HandlerCall.addUser, repository] at returned
  cases search : network.findMember dictDirectory channel call.self with
  | none =>
      rw [search] at returned
      cases returned
  | some found =>
      obtain rfl := made.find_eq_none search
      rw [search] at returned
      rw [← repository, ← call.recordMember_network]
      exact returned

/-- A call that returns has called the dictionary at most once. -/
theorem MadeByCalls.perform
    (made : MadeByCalls (network.channels channel).members)
    {text : NetworkText} {call : MemberCall}
    (performed : call.perform text channel network = some next) :
    MadeByCalls (next.channels channel).members := by
  cases call with
  | addUser id surroundings =>
      exact made.addMember (made.addUser rfl performed)
  | removeUser id =>
      obtain ⟨members, deleted, rfl⟩ := Option.map_eq_some_iff.mp performed
      simpa [Network.setMembers] using made.callDict deleted
  | setCallsign id callsign =>
      obtain rfl := Option.some.inj performed
      exact made

end Calls

/-- The members of a new channel have been made by calls on a new dictionary. -/
theorem madeByCalls_of_membersAfter {text : NetworkText} {channel : Nat}
    {start reached : Network (Option (Dict Nat))} {history : List MemberCall}
    (after : membersAfter text channel start history = some reached) :
    MadeByCalls (reached.channels channel).members := by
  refine (Always.of_step
    (fun _ network => MadeByCalls (network.channels channel).members)
    ?_ ?_).final after
  · exact ⟨[], dictNew, by simp [Network.openMembers, Network.setMembers], rfl⟩
  · exact fun _ _ _ _ made performed => made.perform performed

/-! ## Which channels are listed -/

/-- The first key in the table, if there is one, is stored without a pointer. -/
def StartsWithoutPointer (members : Option (Dict Nat)) : Prop :=
  ∀ d ∈ members, ∀ entry ∈ (d.entries Keypair.blob).head?, entry.val = none

namespace HandlerCall

variable {call : HandlerCall (Option (Dict Nat))} {channel : Nat}
  {target : CString}

/-- A listing of members that the code has stored consists of the line 366, and
needs a table that does not start with a pointer. -/
theorem listsExactly_iff
    (made : MadeByCalls (call.network.channels channel).members)
    (current : List Nat) :
    call.ListsExactly channel target current ↔
      current = [] ∧
        StartsWithoutPointer (call.network.channels channel).members := by
  obtain ⟨ops, d, stored, reached⟩ := made
  have named := @namesOf_eq_some_iff _
    (objectFree_of_dictAfter reached).entries call.network.records
  simp only [← namesLoop_eq_namesOf] at named
  have bare : StartsWithoutPointer (call.network.channels channel).members ↔
      ∀ val ∈ ((d.entries Keypair.blob).map Enumerated.val).head?,
        val = none := by
    rw [stored, StartsWithoutPointer]
    simp
  rw [bare, ListsExactly, listNames, stored]
  dsimp only
  cases loop : namesLoop d call.network.records (d.size + 1) 0 with
  | none =>
      rw [loop] at named
      refine iff_of_false ?_ ?_
      · rintro ⟨order, -, equal⟩
        cases congrArg Outcome.ending equal
      · rintro ⟨-, starts⟩
        cases named.mpr ⟨rfl, starts⟩
  | some members =>
      obtain ⟨rfl, starts⟩ := (named.mp loop)
      rw [and_iff_left starts]
      constructor
      · rintro ⟨order, permuted, equal⟩
        have lengths := congrArg (List.length ∘ Outcome.sent) equal
        have empty : order = [] := by
          simpa [Outcome.after, answer, Outcome.reply] using lengths
        rw [empty] at permuted
        exact permuted.nil_eq.symm
      · rintro rfl
        exact ⟨[], .refl _, rfl⟩

/-- A listing has one line more than there are members. -/
theorem ListsExactly.length_sent {current : List Nat}
    (lists : call.ListsExactly channel target current) :
    (call.listNames channel target).sent.length = current.length + 1 := by
  obtain ⟨order, permuted, equal⟩ := lists
  rw [equal, ← permuted.length_eq]
  simp [answer, Outcome.reply]

/-- The loop over pointers to records sends the lines of the handler. -/
theorem nameLines_eq (target : CString) {vals : List (Option (Pointer Nat))}
    {records : List Nat} (walked : pointersToNull vals = some records) :
    ∃ named, namesOf call.network.records vals = some named ∧
      call.nameLines target records = named.map (call.nameLine target) := by
  induction vals generalizing records with
  | nil =>
      obtain rfl := Option.some.inj walked
      exact ⟨[], rfl, rfl⟩
  | cons first rest inductionHypothesis =>
      rcases first with _ | ⟨cm⟩ | owner
      · obtain rfl := Option.some.inj walked
        exact ⟨[], rfl, rfl⟩
      · obtain ⟨later, behind, rfl⟩ := Option.map_eq_some_iff.mp walked
        obtain ⟨named, walked, lines⟩ := inductionHypothesis behind
        rw [namesOf, nameLines]
        cases (call.network.records cm).cptr with
        | none => exact ⟨[], rfl, rfl⟩
        | some mcptr =>
            refine ⟨mcptr :: named, ?_, ?_⟩
            · exact Option.map_eq_some_iff.mpr ⟨named, walked, rfl⟩
            · rw [List.map_cons, ← lines]
              rfl
      · cases walked

/-- `m_names` goes on with the listing when it has found the channel. -/
theorem mNames_eq_listNames (named : call.argv[2]? = some target)
    (isChannel : target.bytes.head? = some 35)
    (found : call.findChannel (some target) = some (some channel))
    (repository : call.directory = dictDirectory) {records : List Nat}
    {d : Dict Nat} (stored : (call.network.channels channel).members = some d)
    (walked : dictDirectory.entries (some d) = some records) :
    call.mNames = call.listNames channel target := by
  obtain ⟨members, loop, lines⟩ := call.nameLines_eq target walked
  have isTarget : ¬target.bytes.head? ≠ some 35 := not_not.mpr isChannel
  unfold mNames listNames
  simp only [named, isTarget, found, stored, repository, walked, if_false,
    Outcome.after, namesLoop_eq_namesOf, loop, lines]
  rfl

end HandlerCall

/-- For every history of a new channel: the calls return and NAMES then lists
exactly the members, if and only if they return, nobody is a member and the table
of members does not start with a pointer. -/
theorem names_listMembers_iff (text : NetworkText) (channel : Nat)
    (start : Network (Option (Dict Nat))) (history : List MemberCall)
    (call : HandlerCall (Option (Dict Nat))) (target : CString) :
    (∃ reached, membersAfter text channel start history = some reached ∧
        { call with network := reached }.ListsExactly channel target
          (currentMembers history)) ↔
      currentMembers history = [] ∧
        ∃ reached, membersAfter text channel start history = some reached ∧
          StartsWithoutPointer (reached.channels channel).members := by
  have listing (reached : Network (Option (Dict Nat)))
      (after : membersAfter text channel start history = some reached) :=
    @HandlerCall.listsExactly_iff { call with network := reached } channel
      target (madeByCalls_of_membersAfter after) (currentMembers history)
  constructor
  · rintro ⟨reached, after, lists⟩
    obtain ⟨nobody, starts⟩ := (listing reached after).mp lists
    exact ⟨nobody, reached, after, starts⟩
  · rintro ⟨nobody, reached, after, starts⟩
    exact ⟨reached, after, (listing reached after).mpr ⟨nobody, starts⟩⟩

/-- A server whose clients have the callsigns `A`, `B` and so on. -/
def lettered : Network (Option (Dict Nat)) :=
  { Network.start dictDirectory with
    clients id :=
      { ClientObject.zeroed with
        client := freshClient.setCallsign (.read [65 + UInt8.ofNat id]) } }

/-- A NAMES command of the first client. -/
def asksNames : HandlerCall (Option (Dict Nat)) where
  directory := dictDirectory
  text := ⟨.ofLiteral "hamchat.local", .empty, fun _ _ _ _ => []⟩
  surroundings := ⟨0, .empty, .empty, ⟨none, 0, false⟩,
    .zeroed dictDirectory, .zeroed⟩
  network := lettered
  self := 0
  argc := 1
  argv := [.ofLiteral "A", .ofLiteral "NAMES", .ofLiteral "#radio"]

/-- The first clients join. -/
def joins (count : Nat) : List MemberCall :=
  (List.range count).map fun id => .addUser id asksNames.surroundings

/-- How many lines NAMES sends after a history. -/
def linesAfter (history : List MemberCall) : Option Nat :=
  (membersAfter asksNames.text 0 lettered history).map fun reached =>
    ({ asksNames with network := reached }.listNames 0
      (.ofLiteral "#radio")).sent.length

/-- With one member NAMES reads a variable that is gone; with six, after the
table has grown, it sends the line 366 only. -/
theorem names_incomplete :
    linesAfter (joins 1) = some 0 ∧ linesAfter (joins 6) = some 1 ∧
    ¬∀ history reached,
      membersAfter asksNames.text 0 lettered history = some reached →
        { asksNames with network := reached }.ListsExactly 0
          (.ofLiteral "#radio") (currentMembers history) := by
  have one : linesAfter (joins 1) = some 0 := by decide +kernel
  have six : linesAfter (joins 6) = some 1 := by decide +kernel
  refine ⟨one, six, fun lists => ?_⟩
  obtain ⟨reached, after, sent⟩ := Option.map_eq_some_iff.mp six
  have length := (lists _ reached after).length_sent
  rw [sent] at length
  exact absurd length (by decide)

end Hamchat
