import Hamchat.Dict.Blob
import Hamchat.Server.Steps

/-!
# Finding a client

Every table of the server is a dictionary reached by calls that register
clients, so no lookup ever returns a client.  The lookups are right exactly in
the runs in which nobody connects.
-/

namespace Hamchat

open Foundation

/-! ## Tables -/

/-- A dictionary pointer is NULL or was filled by calls. -/
def Reached (table : Option (Dict Nat)) : Prop :=
  ∀ d, table = some d → ∃ history, dictAfter history = some d

theorem Reached.new {table : Option (Dict Nat)} (reached : Reached table) :
    Reached (some (table.getD dictNew)) := by
  rintro d equal
  cases table with
  | none => exact ⟨[], equal⟩
  | some d' => exact reached d equal

theorem Reached.callDict {table next : Option (Dict Nat)} {op : DictOp Nat}
    (reached : Reached table) (called : callDict table op = some next) :
    Reached next := by
  rintro d rfl
  cases table with
  | none => cases called
  | some before =>
      obtain ⟨history, after⟩ := reached before rfl
      obtain ⟨d', applied, equal⟩ := Option.map_eq_some_iff.mp called
      obtain rfl := Option.some.inj equal
      exact ⟨history ++ [op],
        (runFrom_concat_eq_some _ _).mpr ⟨before, after, applied⟩⟩

theorem Reached.enterFd {table next : Option (Dict Nat)} {id : Nat}
    {fd now : Int} (reached : Reached table)
    (entered : ServerState.enterFd table id fd now = some next) :
    Reached next := by
  rw [ServerState.enterFd] at entered
  split at entered
  · rwa [← Option.some.inj entered]
  · exact reached.callDict entered

theorem Reached.forgetCallsign {table next : Option (Dict Nat)}
    {callsign : CString} (reached : Reached table)
    (forgotten : ServerState.forgetCallsign table callsign = some next) :
    Reached next := by
  rw [ServerState.forgetCallsign] at forgotten
  split at forgotten
  · rwa [← Option.some.inj forgotten]
  · exact reached.callDict forgotten

/-- No lookup in a table returns a registered object. -/
theorem Reached.ne_object {table : Option (Dict Nat)} (reached : Reached table)
    (key : CString) (id : Nat) :
    dictGetBlob table key none ≠ some (some (.object id)) := by
  intro found
  cases table with
  | none => cases found
  | some d =>
      obtain ⟨history, after⟩ := reached d rfl
      exact (objectFree_of_dictAfter after).dictGetBlob_ne key id found

/-- Both tables of the server were filled by calls. -/
structure ServerState.TablesReached (state : ServerState) : Prop where
  /-- `Clients_by_fd` -/
  byFd : Reached state.clientsByFd
  /-- `Clients_by_callsign` -/
  byCallsign : Reached state.clientsByCallsign

/-- Every call that returns keeps the tables reached. -/
theorem ServerState.TablesReached.apply {text : ServerText}
    {state next : ServerState} {event : ServerEvent} {result : Bool}
    (tables : state.TablesReached)
    (applied : state.apply text event = some (result, next)) :
    next.TablesReached := by
  cases event with
  | connect fd memory now =>
      obtain ⟨clientsByFd, entered, rfl⟩ := connect_eq_some applied
      exact ⟨tables.byFd.new.enterFd entered, tables.byCallsign.new⟩
  | nick id newCall now =>
      obtain ⟨cptr, -, ⟨-, -, rfl⟩ |
        ⟨-, -, forgotten, clientsByCallsign, deleted, added, rfl⟩⟩ :=
          nick_eq_some applied
      · exact tables
      · exact ⟨tables.byFd,
          (tables.byCallsign.forgetCallsign deleted).callDict added⟩
  | addUser id channel sameCallsign now =>
      obtain ⟨cptr, -, ⟨-, -, rfl⟩ | ⟨-, rfl⟩⟩ := addUser_eq_some applied
      · exact tables
      · exact ⟨tables.byFd, tables.byCallsign⟩
  | removeUser id channel =>
      obtain ⟨cptr, -, -, rfl⟩ := removeUser_eq_some applied
      exact ⟨tables.byFd, tables.byCallsign⟩
  | delete id =>
      obtain ⟨cptr, clientsByFd, clientsByCallsign, -, fdDeleted, forgotten,
        rfl⟩ := delete_eq_some applied
      exact ⟨tables.byFd.callDict fdDeleted,
        tables.byCallsign.forgetCallsign forgotten⟩

/-! ## The law of the tables -/

/-- `find_client` finds each client by its descriptor and by the last callsign
accepted for it, and returns NULL for descriptors and callsigns of no client. -/
structure ObservedServer.LookupsHold (observed : ObservedServer) : Prop where
  /-- A client is found by its descriptor. -/
  fd : ∀ id cptr, observed.server.live id = some cptr →
    observed.server.findClientByFd cptr.fd = some (some (.object id))
  /-- A client is found by the callsign of its last accepted NICK. -/
  callsign : ∀ id cptr callsign, observed.server.live id = some cptr →
    observed.lastNick id = some callsign →
    observed.server.findClientByCallsign callsign = some (some (.object id))
  /-- Nothing is found for a descriptor of no client. -/
  fd_free : ∀ fd,
    (∀ id cptr, observed.server.live id = some cptr → cptr.fd ≠ fd) →
    observed.server.findClientByFd fd = some none
  /-- Nothing is found for a callsign of no client. -/
  callsign_free : ∀ callsign,
    (∀ id cptr, observed.server.live id = some cptr →
      cptr.client.callsign ≠ callsign ∧
        observed.lastNick id ≠ some callsign) →
    observed.server.findClientByCallsign callsign = some none

/-- A call constructs a client. -/
def ServerEvent.Connects : ServerEvent → Prop
  | .connect .. => True
  | _ => False

namespace ObservedServer

variable {text : ServerText} {observed next : ObservedServer}
variable {event : ServerEvent} {events : List ServerEvent}

theorem tablesReached_start : start.server.TablesReached where
  byFd d equal := by cases equal
  byCallsign d equal := by cases equal

theorem tablesReached_step (tables : observed.server.TablesReached)
    (stepped : observed.step text event = some next) :
    next.server.TablesReached := by
  obtain ⟨result, server, applied, rfl⟩ := step_eq_some stepped
  exact tables.apply applied

/-- Where the law of the tables holds there is no client. -/
theorem LookupsHold.no_client (tables : observed.server.TablesReached)
    (lookups : observed.LookupsHold) (id : Nat) :
    observed.server.live id = none := by
  cases alive : observed.server.live id with
  | none => rfl
  | some cptr =>
      exact absurd (lookups.fd id cptr alive)
        (tables.byFd.ne_object ((formatInt cptr.fd).truncate 15) id)

/-- Before the first connection every call but a constructor fails. -/
theorem connects_of_start (stepped : start.step text event = some next) :
    event.Connects := by
  obtain ⟨result, server, applied, -⟩ := step_eq_some stepped
  cases event with
  | connect fd memory now => trivial
  | nick id newCall now => cases applied
  | addUser id channel sameCallsign now => cases applied
  | removeUser id channel => cases applied
  | delete id => cases applied

/-- A constructor leaves a client behind. -/
theorem exists_live_of_connects (connects : event.Connects)
    (stepped : observed.step text event = some next) :
    ∃ id cptr, next.server.live id = some cptr := by
  obtain ⟨result, server, applied, rfl⟩ := step_eq_some stepped
  cases event with
  | connect fd memory now =>
      obtain ⟨clientsByFd, -, rfl⟩ := ServerState.connect_eq_some applied
      exact ⟨_, _, Function.update_self ..⟩
  | _ => cases connects

theorem lookupsHold_start : start.LookupsHold where
  fd id cptr alive := by cases alive
  callsign id cptr callsign alive := by cases alive
  fd_free _ _ := rfl
  callsign_free _ _ := rfl

/-- In every state of a run in which the law of the tables holds there is no
client, and the law holds throughout a run exactly if nobody connects. -/
theorem lookupsHold_iff (text : ServerText) (events : List ServerEvent) :
    Always (step text) start
        (fun _ observed => observed.LookupsHold →
          ∀ id, observed.server.live id = none) events ∧
      (Always (step text) start (fun _ observed => observed.LookupsHold)
          events ↔
        EachStep (step text) start (fun _ event => ¬event.Connects)
          events) := by
  constructor
  · intro past within observed reached lookups id
    have tables : Always (step text) start
        (fun _ observed => observed.server.TablesReached) events :=
      Always.of_step _ tablesReached_start
        fun _ _ _ _ tables stepped => tablesReached_step tables stepped
    exact lookups.no_client (tables past within observed reached) id
  · refine Always.iff_eachStep (fun _ observed => observed = start) rfl
      ?_ ?_ ?_
    · rintro past _ rfl
      exact lookupsHold_start
    · rintro past _ event next within rfl stepped silent
      exact absurd (connects_of_start stepped) silent
    · rintro past _ event next within rfl stepped lookups connects
      obtain ⟨id, cptr, alive⟩ := exists_live_of_connects connects stepped
      have none_alive := LookupsHold.no_client
        (tablesReached_step tablesReached_start stepped) lookups id
      rw [alive] at none_alive
      cases none_alive

end ObservedServer

/-- A connection alone breaks the law of the tables. -/
theorem connection_not_found :
    ¬Always (ObservedServer.step .bare) .start
      (fun _ observed => observed.LookupsHold)
      [.connect 4 freshClient 1] := by
  intro always
  have found : (runFrom (ObservedServer.step .bare) .start
      [.connect 4 freshClient 1]).bind
        (fun observed => (observed.server.live 0).map fun cptr =>
          (cptr.fd, observed.server.findClientByFd 4)) =
      some (4, some (some (.automatic .dictAddPBlob))) := by
    decide +kernel
  obtain ⟨observed, reached, found⟩ := Option.bind_eq_some_iff.mp found
  obtain ⟨cptr, alive, found⟩ := Option.map_eq_some_iff.mp found
  obtain ⟨fdEq, stale⟩ := Prod.mk.inj found
  have right := (always.final reached).fd 0 cptr alive
  rw [fdEq, stale] at right
  cases right

end Hamchat
