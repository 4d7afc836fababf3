import Hamchat.Client.Storage

/-!
# Stored strings are terminated and faithful

`snprintf` keeps its array terminated.  The block of an away message never has
room for a NUL, and the array of a password has none for one of 32 bytes.
-/

namespace Hamchat

open Foundation

/-! ## Arrays -/

theorem Field.holds_new {size limit : Nat} {memory : CharArray size} :
    (Field.new memory).Holds limit ↔ memory.Terminated :=
  ⟨fun holds => holds.terminated, fun terminated =>
    ⟨terminated, fun _ given => nomatch given⟩⟩

/-- An array that `snprintf` has filled holds its parameter. -/
theorem Field.holds_snprintf {size limit : Nat} (memory : CharArray size)
    {string : CString} {given : Option CString} (positive : 0 < limit)
    (fits : limit ≤ size)
    (same : ∀ parameter, given = some parameter → parameter = string) :
    Field.Holds ⟨memory.snprintf limit string positive fits, given⟩ limit where
  terminated := memory.terminated_snprintf string positive fits
  text_eq parameter parameterGiven := by
    rw [same parameter parameterGiven]
    exact memory.text_snprintf string positive fits

/-- A cleared array that gets the first bytes of its parameter by `memcpy` holds
it exactly if they leave room for a NUL. -/
theorem Field.holds_memcpy_iff {size : Nat} (memory : CharArray size)
    {given copied : CString} (fits : copied.bytes.length ≤ size)
    (cut : copied.length < size → copied = given.truncate size) :
    Field.Holds
        ⟨(memory.memset size (Nat.le_refl size)).memcpy copied.bytes fits,
          some given⟩ size ↔
      copied.length < size := by
  constructor
  · intro holds
    exact (memory.terminated_memcpy_memset copied fits).mp holds.terminated
  · intro room
    refine ⟨(memory.terminated_memcpy_memset copied fits).mpr room, ?_⟩
    intro parameter same
    obtain rfl := Option.some.inj same
    rw [← cut room]
    exact memory.text_memcpy_memset copied fits

/-! ## Handlers -/

namespace StoredClient

variable {client next : StoredClient} {argc : Nat} {argv : List CString}

theorem StringsHold.setCallsign (holds : client.StringsHold)
    (callsign : CString) : (client.setCallsign callsign).StringsHold :=
  { holds with
    callsign := Field.holds_snprintf _ (by decide) (by decide)
      fun _ given => (Option.some.inj given).symm }

theorem sendConnectNumerics_eq_some
    (returned : client.sendConnectNumerics = some next) : next = client := by
  rw [sendConnectNumerics] at returned
  split at returned
  · cases returned
  · exact (Option.some.inj returned).symm

/-- `m_nick` leaves the client alone, or it stores a callsign and may add a
flag. -/
theorem mNick_eq_some {found : Bool}
    (returned : client.mNick argc argv found = some next) :
    next = client ∨ ∃ newCall connState,
      next = ({ client with connState := connState }).setCallsign newCall := by
  rw [mNick] at returned
  split at returned
  · split at returned
    · exact .inl (Option.some.inj returned).symm
    · rename_i newCall _
      split at returned
      · exact .inl (Option.some.inj returned).symm
      split at returned
      · exact .inl (Option.some.inj returned).symm
      refine .inr ⟨newCall, ?_⟩
      split at returned
      · exact ⟨client.connState, (Option.some.inj returned).symm⟩
      · refine ⟨client.connState ||| ircStateNick, ?_⟩
        dsimp only at returned
        split at returned
        · rw [Option.bind_eq_bind, Option.bind_eq_some_iff] at returned
          obtain ⟨after, numerics, returned⟩ := returned
          obtain rfl := sendConnectNumerics_eq_some numerics
          exact (Option.some.inj returned).symm
        · exact (Option.some.inj returned).symm
  · exact .inl (Option.some.inj returned).symm

theorem StringsHold.mNick (holds : client.StringsHold) {found : Bool}
    (returned : client.mNick argc argv found = some next) :
    next.StringsHold := by
  obtain rfl | ⟨newCall, connState, rfl⟩ := mNick_eq_some returned
  · exact holds
  · have flagged : StringsHold { client with connState := connState } :=
      { holds with }
    exact flagged.setCallsign newCall

theorem StringsHold.storeUser (holds : client.StringsHold) :
    (client.storeUser argv).StringsHold := by
  have default (index : Nat) : ∀ parameter, argv[index]? = some parameter →
      parameter = argv[index]?.getD (.ofLiteral "(null)") := by
    intro parameter given
    rw [given, Option.getD_some]
  exact { holds with
    username := Field.holds_snprintf _ (by decide) (Nat.le_refl _) (default 2)
    realname := Field.holds_snprintf _ (by decide) (Nat.le_refl _) (default 5) }

theorem StringsHold.mUser (holds : client.StringsHold)
    (returned : client.mUser argv = some next) : next.StringsHold := by
  rw [StoredClient.mUser] at returned
  split at returned
  · obtain rfl := Option.some.inj returned
    exact holds
  · dsimp only at returned
    split at returned
    · obtain rfl := sendConnectNumerics_eq_some returned
      exact holds.storeUser
    · obtain rfl := Option.some.inj returned
      exact holds.storeUser

/-- A stored password is held exactly if it is shorter than its array. -/
theorem StringsHold.storePass_iff (holds : client.StringsHold)
    {chpass : CString} :
    (client.storePass chpass).StringsHold ↔ chpass.length < passLen := by
  have copied : (chpass.truncate (passLen + 1)).length =
      min passLen chpass.length := List.length_take
  have room : (chpass.truncate (passLen + 1)).length < passLen ↔
      chpass.length < passLen := by omega
  have stored := Field.holds_memcpy_iff client.pass.array
    (chpass.length_truncate_le (passLen + 1)) fun short => by
      rw [CString.truncate_of_lt (room.mp short),
        CString.truncate_of_lt (Nat.lt_succ_of_lt (room.mp short))]
  rw [← room, ← stored]
  exact ⟨fun stringsHold => stringsHold.pass,
    fun passHolds => { holds with pass := passHolds }⟩

/-- A PASS keeps the strings exactly if it is refused, or its password is
shorter than the array. -/
theorem StringsHold.mPass_iff (holds : client.StringsHold) :
    (client.mPass argv).StringsHold ↔
      ∀ chpass, client.connState &&& ircStatePass = 0 →
        argv[2]? = some chpass → chpass.length < passLen := by
  rw [StoredClient.mPass]
  split
  · rename_i refused
    exact iff_of_true holds fun _ accepted => absurd accepted refused
  · rename_i accepted
    rw [not_not] at accepted
    split
    · rename_i missing
      simp [missing, holds]
    · rename_i chpass given
      rw [holds.storePass_iff]
      simp [accepted, given]

/-- The block of an away message has no room for a NUL. -/
theorem not_holds_copyAway (target : CString)
    (malloc : (size : Nat) → CharArray size) :
    ¬(copyAway target malloc).field.Holds (copyAway target malloc).size := by
  intro holds
  exact Nat.lt_irrefl _ (((malloc _).terminated_memcpy_memset
    (target.truncate (awayLen + 1)) (Nat.le_refl _)).mp holds.terminated)

/-- An AWAY keeps the strings exactly if it has no parameter. -/
theorem StringsHold.mAway_iff (holds : client.StringsHold) {now : Int}
    {malloc : (size : Nat) → CharArray size}
    (returned : client.mAway argc argv now malloc = some next) :
    next.StringsHold ↔ argc < 1 := by
  rw [StoredClient.mAway] at returned
  split at returned
  · rename_i given
    split at returned
    · cases returned
    · obtain rfl := Option.some.inj returned
      refine iff_of_false (fun stringsHold => ?_) (Nat.not_lt.mpr given)
      exact not_holds_copyAway _ _ (stringsHold.awayMsg _ rfl)
  · rename_i notGiven
    obtain rfl := Option.some.inj returned
    refine iff_of_true ?_ (Nat.not_le.mp notGiven)
    split
    · exact { holds with awayMsg := fun _ message => nomatch message }
    · exact holds

/-- A new client holds its strings exactly if its memory is terminated. -/
theorem stringsHold_construct_iff {memory : ClientMemory} :
    memory.construct.StringsHold ↔ memory.Terminated := by
  constructor
  · intro holds
    refine ⟨holds.callsign.terminated, holds.username.terminated,
      holds.realname.terminated, holds.pass.terminated, ?_⟩
    intro block message
    refine (holds.awayMsg ⟨block.1, .new block.2⟩ ?_).terminated
    rw [ClientMemory.construct, message, Option.map_some]
  · intro terminated
    refine ⟨Field.holds_new.mpr terminated.callsign,
      Field.holds_new.mpr terminated.username,
      Field.holds_new.mpr terminated.realname,
      Field.holds_new.mpr terminated.pass, ?_⟩
    intro block message
    obtain ⟨memoryBlock, found, rfl⟩ := Option.map_eq_some_iff.mp message
    exact Field.holds_new.mpr (terminated.awayMsg memoryBlock found)

end StoredClient

/-! ## Calls -/

namespace StorageState

variable {state next : StorageState}

theorem handle_eq_some {id : Nat} {handler : StoredClient → Option StoredClient} :
    state.handle id handler = some next ↔
      ∃ client after, state.clients id = some client ∧
        handler client = some after ∧
        next = { state with
          clients := Function.update state.clients id (some after) } := by
  rw [handle, Option.bind_eq_bind, Option.bind_eq_some_iff]
  refine exists_congr fun client => ?_
  rw [Option.bind_eq_some_iff, ← exists_and_left]
  refine exists_congr fun after => ?_
  rw [Option.some.injEq, eq_comm (a := next)]

/-- Storing one client keeps the strings exactly if its own are held. -/
theorem StringsHold.update_iff (holds : state.StringsHold) {id : Nat}
    {client : StoredClient} :
    StringsHold { state with
        clients := Function.update state.clients id (some client) } ↔
      client.StringsHold := by
  constructor
  · intro stringsHold
    exact stringsHold.clients id client (Function.update_self ..)
  · intro clientHolds
    refine ⟨fun other found alive => ?_, holds.names⟩
    by_cases same : other = id
    · subst same
      obtain rfl : client = found := by simpa using alive
      exact clientHolds
    · exact holds.clients other found (by simpa [same] using alive)

theorem StringsHold.join (holds : state.StringsHold) {argc : Nat}
    {argv : List CString} {found : Bool} {memory : CharArray chanLen}
    (joined : state.join argc argv found memory = some next) :
    next.StringsHold := by
  rw [StorageState.join] at joined
  split at joined
  · obtain rfl := Option.some.inj joined
    exact holds
  split at joined
  · cases joined
  rename_i chname _
  split at joined
  · obtain rfl := Option.some.inj joined
    exact holds
  split at joined
  · obtain rfl := Option.some.inj joined
    exact holds
  split at joined
  · obtain rfl := Option.some.inj joined
    exact holds
  · obtain rfl := Option.some.inj joined
    refine ⟨holds.clients, fun name member => ?_⟩
    rcases List.mem_append.mp member with before | new
    · exact holds.names name before
    · obtain rfl := List.mem_singleton.mp new
      exact Field.holds_snprintf memory (by decide) (Nat.le_refl _)
        fun _ given => (Option.some.inj given).symm

/-- A call keeps the strings exactly if it meets its condition. -/
theorem StringsHold.step_iff (holds : state.StringsHold) {call : StorageCall}
    (stepped : state.step call = some next) :
    next.StringsHold ↔ state.KeepsStrings call := by
  cases call with
  | connect id memory =>
      obtain rfl := Option.some.inj stepped
      rw [holds.update_iff]
      exact StoredClient.stringsHold_construct_iff
  | nick id argc argv found =>
      obtain ⟨client, after, alive, handled, rfl⟩ := handle_eq_some.mp stepped
      rw [holds.update_iff]
      exact iff_of_true ((holds.clients id client alive).mNick handled) trivial
  | user id argv =>
      obtain ⟨client, after, alive, handled, rfl⟩ := handle_eq_some.mp stepped
      rw [holds.update_iff]
      exact iff_of_true ((holds.clients id client alive).mUser handled) trivial
  | pass id argv =>
      obtain ⟨client, after, alive, handled, rfl⟩ := handle_eq_some.mp stepped
      obtain rfl := Option.some.inj handled
      rw [holds.update_iff, (holds.clients id client alive).mPass_iff]
      refine ⟨fun short client' alive' => ?_, fun short => short client alive⟩
      obtain rfl := Option.some.inj (alive.symm.trans alive')
      exact short
  | away id argc argv now malloc =>
      obtain ⟨client, after, alive, handled, rfl⟩ := handle_eq_some.mp stepped
      rw [holds.update_iff]
      exact (holds.clients id client alive).mAway_iff handled
  | join id argc argv found memory =>
      obtain ⟨client, -, joined⟩ := Option.bind_eq_some_iff.mp stepped
      exact iff_of_true (holds.join joined) trivial

end StorageState

/-! ## The strings as values -/

/-- The strings of a client are those that are read from its arrays. -/
structure StoredClient.Reads (stored : StoredClient) (client : Client) :
    Prop where
  /-- The callsign. -/
  callsign : client.callsign = stored.callsign.array.text
  /-- The flags. -/
  connState : client.connState = stored.connState
  /-- The user name. -/
  username : client.username = stored.username.array.text
  /-- The real name. -/
  realname : client.realname = stored.realname.array.text
  /-- The password. -/
  pass : client.pass = stored.pass.array.text

namespace StoredClient.Reads

variable {ω : Type} {registry : Registry ω} {world nextWorld : ω}
variable {stored : StoredClient} {client next : Client} {argc : Nat}
variable {argv : List CString} {value : Bool} {sent : List CString}

theorem setCallsign (reads : stored.Reads client) (callsign : CString) :
    (stored.setCallsign callsign).Reads (client.setCallsign callsign) where
  callsign :=
    (CharArray.text_snprintf _ callsign (by decide) (by decide)).symm
  connState := reads.connState
  username := reads.username
  realname := reads.realname
  pass := reads.pass

theorem storeUser (reads : stored.Reads client) :
    (stored.storeUser argv).Reads (client.markUser argv) where
  callsign := reads.callsign
  connState := congrArg (· ||| ircStateUser) reads.connState
  username :=
    (CharArray.text_snprintf _ _ (by decide) (Nat.le_refl _)).symm
  realname :=
    (CharArray.text_snprintf _ _ (by decide) (Nat.le_refl _)).symm
  pass := reads.pass

theorem storePass (reads : stored.Reads client) (chpass : CString) :
    (stored.storePass chpass).Reads (client.storePass chpass) where
  callsign := reads.callsign
  connState := congrArg (· ||| ircStatePass) reads.connState
  username := reads.username
  realname := reads.realname
  pass := (CharArray.text_memcpy_memset _ _
    (chpass.length_truncate_le (passLen + 1))).symm

/-- A NICK that returns leaves the arrays as the strings say. -/
theorem mNick (reads : stored.Reads client)
    (returned : Hamchat.mNick registry world client argc argv =
      .returned value sent nextWorld next) :
    ∃ found storedNext, stored.mNick argc argv found = some storedNext ∧
      storedNext.Reads next := by
  rcases mNick_returned registry world client argc argv returned with
    ⟨-, -, rfl⟩ | ⟨accepted, newCall, parameter, valid, -, rfl, -⟩
  · refine ⟨true, stored, ?_, reads⟩
    rw [StoredClient.mNick]
    split
    · split
      · rfl
      · rw [if_pos rfl, ite_self]
    · rfl
  · have given : 1 ≤ argc := by
      by_contra notGiven
      rw [Hamchat.mNick, if_neg notGiven] at returned
      rw [← (HandlerEnd.returned.inj returned).1] at accepted
      cases accepted
    have active : client.hasNickOrUser =
        decide (stored.connState &&& (ircStateNick ||| ircStateUser) ≠ 0) := by
      rw [Client.hasNickOrUser, reads.connState]
    cases flagged : client.hasNickOrUser with
    | true =>
        rw [flagged, eq_comm, decide_eq_true_iff] at active
        refine ⟨false, stored.setCallsign newCall, ?_, ?_⟩
        · simp [StoredClient.mNick, given, parameter, valid, active]
        · rw [Client.markNick, if_pos flagged]
          exact reads.setCallsign newCall
    | false =>
        have noUser := client.markNick_noUser flagged
        rw [flagged, eq_comm, decide_eq_false_iff_not, not_not] at active
        rw [Client.markNick, flagged, if_neg Bool.false_ne_true] at noUser ⊢
        rw [reads.connState] at noUser
        have marked : StoredClient.Reads
            { stored with connState := stored.connState ||| ircStateNick }
            { client with connState := client.connState ||| ircStateNick } :=
          { reads with
            connState := congrArg (· ||| ircStateNick) reads.connState }
        refine ⟨false, _, ?_, marked.setCallsign newCall⟩
        simp [StoredClient.mNick, given, parameter, valid, active, noUser]

/-- A USER that returns leaves the arrays as the strings say. -/
theorem mUser (reads : stored.Reads client)
    (returned : Hamchat.mUser registry world client argv =
      .returned value sent nextWorld next) :
    ∃ storedNext, stored.mUser argv = some storedNext ∧
      storedNext.Reads next := by
  rw [Hamchat.mUser] at returned
  dsimp only at returned
  rw [StoredClient.mUser, ← reads.connState]
  split at returned
  · rename_i refused
    cases returned
    rw [if_pos refused]
    exact ⟨stored, rfl, reads⟩
  · rename_i accepted
    rw [if_neg accepted]
    have flags : (stored.storeUser argv).connState =
        client.connState ||| ircStateUser := (reads.storeUser).connState.symm
    dsimp only
    rw [flags]
    split at returned
    · rename_i nick
      rw [if_pos nick, sendConnectNumerics]
      split at returned
      · rename_i passed
        cases returned
        refine ⟨_, if_neg ?_, reads.storeUser⟩
        intro password
        have set : (client.markUser argv).pass ≠ .empty := by
          rw [reads.storeUser.pass]
          exact password
        have failed : (Hamchat.sendConnectNumerics registry world
            (client.markUser argv)).1 = false := sendConnectNumerics_password set
        exact Bool.false_ne_true (failed.symm.trans passed)
      · cases returned
    · rename_i noNick
      cases returned
      rw [if_neg noNick]
      exact ⟨_, rfl, reads.storeUser⟩

/-- A PASS leaves the arrays as the strings say. -/
theorem mPass (reads : stored.Reads client)
    (returned : Hamchat.mPass registry world client argv =
      .returned value sent nextWorld next) :
    (stored.mPass argv).Reads next := by
  rw [Hamchat.mPass] at returned
  rw [StoredClient.mPass, ← reads.connState]
  split at returned
  · rename_i refused
    cases returned
    rw [if_pos refused]
    exact reads
  · rename_i accepted
    rw [if_neg accepted]
    cases parameter : argv[2]? with
    | none =>
        rw [parameter] at returned
        cases returned
        exact reads
    | some chpass =>
        rw [parameter] at returned
        cases returned
        exact reads.storePass chpass

end StoredClient.Reads

/-- Stored strings are terminated and faithful in every state exactly if every
call meets its condition. -/
theorem stringsHold_iff (calls : List StorageCall) :
    Always StorageState.step StorageState.start
        (fun _ state => state.StringsHold) calls ↔
      EachStep StorageState.step StorageState.start StorageState.KeepsStrings
        calls := by
  have atStart : StorageState.start.StringsHold := by
    constructor
    · intro id client alive
      cases alive
    · intro name member
      cases member
  exact (Always.iff_of_step_iff (fun _ => True) StorageState.StringsHold trivial
    (fun _ _ _ _ _ => trivial)
    (fun _ _ _ _ holds stepped => holds.step_iff stepped)).trans
      (and_iff_right atStart)

/-- Zeroed memory. -/
def zeroArray (size : Nat) : CharArray size :=
  ⟨List.replicate size 0, List.length_replicate⟩

/-- The memory of a client, zeroed. -/
def ClientMemory.zero : ClientMemory where
  callsign := zeroArray _
  awayMsg := none
  awaySince := 0
  username := zeroArray _
  realname := zeroArray _
  pass := zeroArray _

/-- An away message is stored without a NUL. -/
theorem away_not_terminated :
    ∃ state client block,
      runFrom StorageState.step StorageState.start
          [.connect 0 .zero,
            .away 0 1 [.empty, .ofLiteral "AWAY", .ofLiteral "lunch"] 0
              zeroArray] =
        some state ∧
      state.clients 0 = some client ∧ client.awayMsg = some block ∧
      ¬block.field.array.Terminated ∧ ¬state.StringsHold := by
  refine ⟨_, _, _, rfl, rfl, rfl, by decide +kernel, ?_⟩
  intro holds
  exact absurd ((holds.clients 0 _ rfl).awayMsg _ rfl).terminated
    (by decide +kernel)

end Hamchat
