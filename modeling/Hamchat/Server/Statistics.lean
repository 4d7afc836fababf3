import Hamchat.Foundation.HighWater
import Mathlib.Data.Finset.Card
import Mathlib.Order.Interval.Finset.Nat
import Mathlib.Data.UInt

/-!
# Client statistics

`sock_pending_cb`, `Client::Client` and `Client::~Client` keep three counters of
type `unsigned long`.  The live clients are told apart by their addresses, so
there are never as many of them as the counters can count.  The connections since
the start may be more.
-/

namespace Hamchat

open Foundation

/-! ## Counters -/

/-- The counters of clients in `struct Stats`. -/
structure Stats where
  /-- `unsigned long total_connections` -/
  totalConnections : UInt64
  /-- `unsigned long max_clients` -/
  maxClients : UInt64
  /-- `unsigned long curr_clients` -/
  currClients : UInt64

namespace Stats

/-- `struct Stats stats`, before anything is counted. -/
def zero : Stats := ⟨0, 0, 0⟩

variable (stats : Stats)

/-- `stats.total_connections++` in `sock_pending_cb` -/
def countConnection : Stats :=
  { stats with totalConnections := stats.totalConnections + 1 }

/-- What `Client::Client` counts. -/
def countClient : Stats :=
  let stats := { stats with currClients := stats.currClients + 1 }
  if stats.currClients > stats.maxClients then
    { stats with maxClients := stats.currClients }
  else
    stats

/-- `stats.curr_clients--` in `Client::~Client` -/
def discountClient : Stats :=
  { stats with currClients := stats.currClients - 1 }

variable {stats}

@[simp] theorem countConnection_maxClients :
    stats.countConnection.maxClients = stats.maxClients := rfl

@[simp] theorem countConnection_currClients :
    stats.countConnection.currClients = stats.currClients := rfl

@[simp] theorem countClient_totalConnections :
    stats.countClient.totalConnections = stats.totalConnections := by
  rw [countClient]
  dsimp only
  split <;> rfl

@[simp] theorem countClient_currClients :
    stats.countClient.currClients = stats.currClients + 1 := by
  rw [countClient]
  dsimp only
  split <;> rfl

/-- The mark is raised to the number of clients. -/
theorem countClient_maxClients_toNat (stats : Stats) :
    stats.countClient.maxClients.toNat =
      max stats.countClient.currClients.toNat stats.maxClients.toNat := by
  rw [countClient_currClients, countClient]
  dsimp only
  split
  · rename_i passed
    exact (Nat.max_eq_left
      (Nat.le_of_lt (UInt64.lt_iff_toNat_lt.mp passed))).symm
  · rename_i below
    exact (Nat.max_eq_right
      (UInt64.le_iff_toNat_le.mp (UInt64.not_lt.mp below))).symm

end Stats

/-- An increment that does not wrap. -/
theorem toNat_add_one {count : UInt64} (room : count.toNat + 1 < 2 ^ 64) :
    (count + 1).toNat = count.toNat + 1 := by
  rw [UInt64.toNat_add]
  exact Nat.mod_eq_of_lt room

/-- A decrement that does not wrap. -/
theorem toNat_sub_one {count : UInt64} (positive : 0 < count.toNat) :
    (count - 1).toNat + 1 = count.toNat := by
  have one_le : 1 ≤ count := UInt64.le_iff_toNat_le.mpr positive
  rw [UInt64.toNat_sub_of_le count 1 one_le]
  exact Nat.sub_add_cancel positive

/-! ## Clients -/

/-- `Client *`, not NULL. -/
abbrev ClientAddress := { address : UInt64 // address ≠ 0 }

/-- There are fewer addresses than the values of a counter. -/
theorem card_lt (live : Finset ClientAddress) : live.card < 2 ^ 64 := by
  have within : ∀ client ∈ live,
      (client : UInt64).toNat ∈ Finset.Ico 1 (2 ^ 64) := by
    intro client _
    refine Finset.mem_Ico.mpr ⟨?_, UInt64.toNat_lt _⟩
    refine Nat.pos_of_ne_zero fun null => client.2 ?_
    exact UInt64.toNat_inj.mp null
  have different : Set.InjOn (fun client : ClientAddress =>
      (client : UInt64).toNat) live :=
    fun _ _ _ _ same => Subtype.ext (UInt64.toNat_inj.mp same)
  have fewer := Finset.card_le_card_of_injOn _ within different
  rw [Nat.card_Ico] at fewer
  omega

/-- What a client is deleted for. -/
inductive Departure
  /-- `sock_read_cb` has read the end of the stream. -/
  | hangup
  /-- `m_quit` -/
  | quit
  /-- `m_kill` -/
  | kill
  /-- `Client::send_connect_numerics` -/
  | failedPassword

/-- The live clients and the statistics. -/
structure Population where
  /-- The clients that have been constructed and not deleted. -/
  live : Finset ClientAddress
  /-- `struct Stats stats` -/
  stats : Stats

/-- The start of the server. -/
def Population.start : Population := ⟨∅, .zero⟩

/-- Something that happens to a client. -/
inductive ClientEvent
  /-- `sock_pending_cb` accepts a connection, and `new` returns an address. -/
  | accept (client : ClientAddress)
  /-- `delete` -/
  | delete (departure : Departure) (client : ClientAddress)

/-- A connection is accepted. -/
def ClientEvent.isAccept : ClientEvent → Bool
  | .accept _ => true
  | .delete _ _ => false

/-- The number of connections that have been accepted. -/
def connections (events : List ClientEvent) : Nat :=
  events.countP ClientEvent.isAccept

namespace Population

/-- One event.  `new` does not return the address of a live client, and each client
is deleted once. -/
def step (population : Population) : ClientEvent → Option Population
  | .accept client =>
      if client ∈ population.live then
        none
      else
        some ⟨insert client population.live,
          population.stats.countConnection.countClient⟩
  | .delete _ client =>
      if client ∈ population.live then
        some ⟨population.live.erase client, population.stats.discountClient⟩
      else
        none

variable {population next : Population} {client : ClientAddress}

theorem step_accept_eq_some :
    population.step (.accept client) = some next ↔
      client ∉ population.live ∧
        next = ⟨insert client population.live,
          population.stats.countConnection.countClient⟩ := by
  rw [step, Option.ite_none_left_eq_some, Option.some.injEq, eq_comm]

theorem step_delete_eq_some {departure : Departure} :
    population.step (.delete departure client) = some next ↔
      client ∈ population.live ∧
        next = ⟨population.live.erase client,
          population.stats.discountClient⟩ := by
  rw [step, Option.ite_none_right_eq_some, Option.some.injEq, eq_comm]

end Population

/-! ## The invariant -/

/-- The counters, and the number of connections that the mark is bounded by. -/
structure Population.Exact (past : List ClientEvent)
    (population : Population) : Prop where
  /-- The live clients are counted. -/
  currClients : population.stats.currClients.toNat = population.live.card
  /-- The mark is not below the count. -/
  curr_le_max : population.stats.currClients.toNat ≤
    population.stats.maxClients.toNat
  /-- There have been enough connections for the mark. -/
  max_le_connections : population.stats.maxClients.toNat ≤ connections past
  /-- The connections are counted modulo the range of the counter. -/
  totalConnections : population.stats.totalConnections.toNat =
    connections past % 2 ^ 64

namespace Population.Exact

variable {past : List ClientEvent} {population next : Population}
variable {client : ClientAddress} {departure : Departure}

theorem start : Population.start.Exact [] :=
  ⟨rfl, Nat.le_refl _, Nat.le_refl _, rfl⟩

/-- Another client is counted without wrapping. -/
theorem accept_currClients (exact : population.Exact past)
    (new : client ∉ population.live) :
    (population.stats.currClients + 1).toNat =
      (insert client population.live).card := by
  have room := card_lt (insert client population.live)
  rw [Finset.card_insert_of_notMem new] at room ⊢
  rw [toNat_add_one (by rw [exact.currClients]; exact room), exact.currClients]

/-- A deleted client is discounted without wrapping. -/
theorem delete_currClients (exact : population.Exact past)
    (old : client ∈ population.live) :
    (population.stats.currClients - 1).toNat + 1 =
      population.stats.currClients.toNat := by
  refine toNat_sub_one ?_
  rw [exact.currClients]
  exact Finset.card_pos.mpr ⟨client, old⟩

theorem accept (exact : population.Exact past)
    (stepped : population.step (.accept client) = some next) :
    next.Exact (past ++ [.accept client]) := by
  obtain ⟨new, rfl⟩ := Population.step_accept_eq_some.mp stepped
  have counted := exact.accept_currClients new
  have card := Finset.card_insert_of_notMem new
  have mark :=
    population.stats.countConnection.countClient_maxClients_toNat
  have current := exact.currClients
  have below := exact.curr_le_max
  have enough := exact.max_le_connections
  have more : connections (past ++ [.accept client]) =
      connections past + 1 := by
    rw [connections, List.countP_append]
    rfl
  rw [Stats.countClient_currClients, Stats.countConnection_currClients,
    Stats.countConnection_maxClients] at mark
  refine ⟨?_, ?_, ?_, ?_⟩
  · simpa using counted
  · simp only [Stats.countClient_currClients, Stats.countConnection_currClients]
    omega
  · rw [more]
    dsimp only
    omega
  · rw [more, Stats.countClient_totalConnections, Stats.countConnection,
      UInt64.toNat_add, exact.totalConnections]
    exact Nat.mod_add_mod _ _ _

theorem delete (exact : population.Exact past)
    (stepped : population.step (.delete departure client) = some next) :
    next.Exact (past ++ [.delete departure client]) := by
  obtain ⟨old, rfl⟩ := Population.step_delete_eq_some.mp stepped
  have counted := exact.delete_currClients old
  have card := Finset.card_erase_add_one old
  have current := exact.currClients
  have below := exact.curr_le_max
  have same : connections (past ++ [.delete departure client]) =
      connections past := by
    rw [connections, List.countP_append]
    rfl
  refine ⟨?_, ?_, ?_, ?_⟩
  · dsimp only [Stats.discountClient]
    omega
  · dsimp only [Stats.discountClient]
    omega
  · rw [same]
    exact exact.max_le_connections
  · rw [same]
    exact exact.totalConnections

theorem step {event : ClientEvent} (exact : population.Exact past)
    (stepped : population.step event = some next) :
    next.Exact (past ++ [event]) := by
  cases event with
  | accept client => exact exact.accept stepped
  | delete departure client => exact exact.delete stepped

/-- In every run. -/
theorem always (events : List ClientEvent) :
    Always Population.step .start (fun past population =>
      population.Exact past) events :=
  Always.of_step _ start fun _ _ _ _ exact stepped => exact.step stepped

/-- Every step raises the mark to the count, if it has to. -/
theorem raised {event : ClientEvent} (exact : population.Exact past)
    (stepped : population.step event = some next) :
    next.stats.maxClients.toNat =
      max next.stats.currClients.toNat population.stats.maxClients.toNat := by
  cases event with
  | accept client =>
      obtain ⟨-, rfl⟩ := Population.step_accept_eq_some.mp stepped
      exact Stats.countClient_maxClients_toNat _
  | delete departure client =>
      obtain ⟨old, rfl⟩ := Population.step_delete_eq_some.mp stepped
      have counted := exact.delete_currClients old
      have below := exact.curr_le_max
      refine (Nat.max_eq_right ?_).symm
      dsimp only [Stats.discountClient]
      omega

end Population.Exact

/-! ## Runs -/

/-- The statistics agree with what has happened. -/
structure Population.Accounted (past : List ClientEvent)
    (population : Population) : Prop where
  /-- `curr_clients` is the number of live clients. -/
  currClients : population.stats.currClients.toNat = population.live.card
  /-- `max_clients` is the largest value that `curr_clients` has had. -/
  maxClients : IsGreatest
    (reachedValues Population.step .start
      (fun state => state.stats.currClients.toNat) past)
    population.stats.maxClients.toNat
  /-- `curr_clients <= max_clients` -/
  curr_le_max : population.stats.currClients ≤ population.stats.maxClients
  /-- `max_clients <= total_connections`, unless the connections are more than the
  counter can count. -/
  max_le_total : connections past < 2 ^ 64 →
    population.stats.maxClients ≤ population.stats.totalConnections

/-- `curr_clients` changes by one, without wrapping. -/
def ClientEvent.Counts : ClientEvent → (before after : UInt64) → Prop
  | .accept _, before, after => after.toNat = before.toNat + 1
  | .delete _ _, before, after => after.toNat + 1 = before.toNat

/-- The statistics of clients are exact in every run, and `curr_clients` never
wraps. -/
theorem statistics_exact (events : List ClientEvent) :
    Always Population.step .start (fun past population =>
        population.Accounted past) events ∧
      EachStep Population.step .start (fun population event =>
        ∀ next, population.step event = some next →
          event.Counts population.stats.currClients next.stats.currClients)
        events := by
  have exact := Population.Exact.always events
  have greatest : Always Population.step .start (fun past population =>
      IsGreatest (reachedValues Population.step .start
        (fun state => state.stats.currClients.toNat) past)
        population.stats.maxClients.toNat) events :=
    exact.isGreatest_mark rfl
      fun _ _ _ _ held stepped => held.raised stepped
  constructor
  · intro past within population reached
    have held := exact past within population reached
    refine ⟨held.currClients, greatest past within population reached,
      UInt64.le_iff_toNat_le.mpr held.curr_le_max, fun few => ?_⟩
    rw [UInt64.le_iff_toNat_le, held.totalConnections, Nat.mod_eq_of_lt few]
    exact held.max_le_connections
  · intro past event within population _ reached _ next stepped
    have held := exact past ((List.prefix_append _ _).trans within) population
      reached
    cases event with
    | accept client =>
        obtain ⟨new, rfl⟩ := Population.step_accept_eq_some.mp stepped
        have counted := held.accept_currClients new
        rw [Finset.card_insert_of_notMem new, ← held.currClients] at counted
        simpa [ClientEvent.Counts] using counted
    | delete departure client =>
        obtain ⟨old, rfl⟩ := Population.step_delete_eq_some.mp stepped
        exact held.delete_currClients old

/-- Somebody. -/
def visitor : ClientAddress := ⟨1, by decide⟩

/-- A client that connects and hangs up, again and again. -/
def visits : Nat → List ClientEvent
  | 0 => []
  | count + 1 => visits count ++ [.accept visitor] ++ [.delete .hangup visitor]

theorem connections_visits (count : Nat) :
    connections (visits count) = count := by
  induction count with
  | zero => rfl
  | succ count inductionHypothesis =>
      rw [connections] at inductionHypothesis
      rw [visits, connections, List.countP_append, List.countP_append,
        inductionHypothesis]
      rfl

/-- After some visits nobody is there, and the mark is one. -/
theorem runFrom_visits {count : Nat} (positive : 0 < count) :
    runFrom Population.step .start (visits count) =
      some ⟨∅, UInt64.ofNat count, 1, 0⟩ := by
  obtain ⟨count, rfl⟩ := Nat.exists_eq_succ_of_ne_zero positive.ne'
  clear positive
  induction count with
  | zero => rfl
  | succ count inductionHypothesis =>
      have arrives (total : UInt64) : Population.step ⟨∅, total, 1, 0⟩
          (.accept visitor) = some ⟨{visitor}, total + 1, 1, 1⟩ := rfl
      have leaves (total : UInt64) : Population.step ⟨{visitor}, total, 1, 1⟩
          (.delete .hangup visitor) = some ⟨∅, total, 1, 0⟩ := by
        rw [Population.step_delete_eq_some, Finset.erase_singleton]
        exact ⟨Finset.mem_singleton_self visitor, by
          rw [Stats.discountClient, UInt64.sub_self]⟩
      rw [visits, runFrom_concat, runFrom_concat, inductionHypothesis,
        Option.bind_some, arrives, Option.bind_some, leaves,
        ← UInt64.ofNat_one, ← UInt64.ofNat_add]

/-- After 2^64 connections their counter is back at zero. -/
theorem total_wraps :
    ∃ population, connections (visits (2 ^ 64)) = 2 ^ 64 ∧
      runFrom Population.step .start (visits (2 ^ 64)) = some population ∧
      ¬population.stats.maxClients ≤ population.stats.totalConnections := by
  refine ⟨_, connections_visits _, runFrom_visits (Nat.two_pow_pos 64), ?_⟩
  decide

end Hamchat
