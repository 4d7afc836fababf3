import Hamchat.Network.Changes
import Hamchat.Server.Statistics

/-!
# The statistics of a whole server

Connections, reads and handlers change the counters of clients in the way of the
events of `Population`: a connection is accepted, a client is deleted, or nothing
happens to them.  So the counters of every run of the server are those of a run of
clients that come and go.
-/

namespace Hamchat

open Foundation

/-! ## One step -/

/-- The live clients and their counters. -/
structure Census where
  /-- The clients that have not been deleted. -/
  alive : Nat → Bool
  /-- `stats.curr_clients` -/
  currClients : Nat
  /-- `stats.max_clients` -/
  maxClients : Nat

/-- The census of a server. -/
def Network.census (network : Network δ) : Census where
  alive := network.alive
  currClients := network.currClients
  maxClients := network.maxClients

namespace Census

variable (census : Census)

/-- A client has been constructed. -/
def add (id : Nat) : Census where
  alive := Function.update census.alive id true
  currClients := census.currClients + 1
  maxClients := max census.maxClients (census.currClients + 1)

/-- A client has been deleted. -/
def remove (id : Nat) : Census where
  alive := Function.update census.alive id false
  currClients := census.currClients - 1
  maxClients := census.maxClients

end Census

theorem Network.census_of_delete {network next : Network δ}
    {directory : Directory δ} {freed : ClientObject} {id : Nat}
    (deleted : network.delete directory freed id = some next) :
    network.alive id = true ∧ next.census = network.census.remove id := by
  obtain ⟨alive, byFd, byCallsign, -, -, rfl⟩ := delete_eq_some deleted
  exact ⟨alive, rfl⟩

/-- A handler deletes at most one client. -/
theorem HandlerCall.Made.census {call : HandlerCall δ} {next : Network δ}
    (made : call.Made next) :
    next.census = call.network.census ∨
      ∃ target, call.network.alive target = true ∧
        next.census = call.network.census.remove target := by
  induction made with
  | same => exact .inl rfl
  | client change => exact .inl rfl
  | callsign change table => exact .inl rfl
  | channel created =>
      obtain ⟨-, table, same⟩ := Network.newChannel_eq_some created
      rw [same]
      exact .inl rfl
  | member _ added before =>
      obtain ⟨members, rfl⟩ := Network.addMember_eq_some added
      exact before
  | delete deleted => exact .inr ⟨_, Network.census_of_delete deleted⟩

/-- A step constructs a client, deletes one or does neither. -/
theorem Network.advance_census {server : NetworkServer δ}
    {network next : Network δ} {event : NetworkEvent δ}
    (advanced : network.advance server event = some next) :
    next.census = network.census ∨
      (∃ target, network.alive target = true ∧
        next.census = network.census.remove target) ∨
      ∃ id fd memory now, event = .connect id fd memory now ∧
        network.alive id = false ∧ next.census = network.census.add id := by
  cases event with
  | connect id fd memory now =>
      obtain ⟨free, byFd, -, rfl⟩ := connect_eq_some advanced
      exact .inr (.inr ⟨id, fd, memory, now, rfl, free, rfl⟩)
  | receive fd recv freed =>
      rcases receive_eq_some advanced with
        rfl | ⟨id, -, ⟨sock, -, rfl⟩ | deleted⟩
      · exact .inl rfl
      · exact .inl rfl
      · exact .inr (.inl ⟨id, census_of_delete deleted⟩)
  | parse id surroundings =>
      obtain ⟨sock, ⟨-, rfl⟩ |
        ⟨handed, value, after, -, ran, -, rfl⟩⟩ :=
        advance_parse_eq_some advanced
      · exact .inl rfl
      · rcases (HandlerCall.Makes.handle handed.handler value after ran).census
          with same | deleted
        · exact .inl same
        · exact .inr (.inl deleted)

/-! ## Runs -/

/-- The clients and the counters are those of a population. -/
structure Census.Tracks (census : Census) (population : Population) : Prop where
  /-- The live clients. -/
  live : ∀ id, census.alive id = true ↔
    ∃ client ∈ population.live, (client : UInt64).toNat = id
  /-- `stats.curr_clients` -/
  currClients : census.currClients = population.stats.currClients.toNat
  /-- `stats.max_clients` -/
  maxClients : census.maxClients = population.stats.maxClients.toNat

namespace Census.Tracks

variable {census : Census} {population : Population}
variable {past : List ClientEvent} {id : Nat}

theorem start (directory : Directory δ) :
    (Network.start directory).census.Tracks Population.start where
  live id := by
    refine iff_of_false Bool.false_ne_true ?_
    rintro ⟨client, member, -⟩
    exact Finset.notMem_empty client member
  currClients := rfl
  maxClients := rfl

theorem toNat_injective {first second : ClientAddress}
    (same : (first : UInt64).toNat = (second : UInt64).toNat) :
    first = second :=
  Subtype.ext (UInt64.toNat_inj.mp same)

/-- A deletion is one of the events of a population. -/
theorem remove (tracks : census.Tracks population)
    (exact : population.Exact past) (alive : census.alive id = true)
    (departure : Departure) :
    ∃ client next, population.step (.delete departure client) = some next ∧
      (census.remove id).Tracks next := by
  obtain ⟨client, old, rfl⟩ := (tracks.live id).mp alive
  refine ⟨client, _, Population.step_delete_eq_some.mpr ⟨old, rfl⟩, ?_, ?_, ?_⟩
  · intro other
    dsimp only [Census.remove]
    by_cases same : other = (client : UInt64).toNat
    · rw [same, Function.update_self]
      refine iff_of_false Bool.false_ne_true ?_
      rintro ⟨kept, member, equal⟩
      exact (Finset.mem_erase.mp member).1 (toNat_injective equal)
    · rw [Function.update_of_ne same, tracks.live]
      refine exists_congr fun kept => and_congr_left fun equal => ?_
      rw [Finset.mem_erase, iff_and_self]
      rintro - rfl
      exact same equal.symm
  · have counted := exact.delete_currClients old
    have current := tracks.currClients
    dsimp only [Census.remove, Stats.discountClient]
    omega
  · exact tracks.maxClients

/-- So is a construction at an address that `new` can return. -/
theorem add (tracks : census.Tracks population)
    (exact : population.Exact past) (free : census.alive id = false)
    (notNull : 0 < id) (inside : id < 2 ^ 64) :
    ∃ client next, population.step (.accept client) = some next ∧
      (census.add id).Tracks next := by
  have address : (UInt64.ofNat id).toNat = id :=
    UInt64.toNat_ofNat_of_lt' inside
  have notZero : UInt64.ofNat id ≠ 0 := by
    intro null
    rw [null] at address
    exact notNull.ne address
  have new : (⟨UInt64.ofNat id, notZero⟩ : ClientAddress) ∉
      population.live := by
    intro member
    rw [(tracks.live id).mpr ⟨_, member, address⟩] at free
    cases free
  have counted := exact.accept_currClients new
  rw [Finset.card_insert_of_notMem new, ← exact.currClients] at counted
  refine ⟨_, _, Population.step_accept_eq_some.mpr ⟨new, rfl⟩, ?_, ?_, ?_⟩
  · intro other
    dsimp only [Census.add]
    by_cases same : other = id
    · rw [same, Function.update_self]
      exact iff_of_true rfl ⟨_, Finset.mem_insert_self _ _, address⟩
    · rw [Function.update_of_ne same, tracks.live]
      refine exists_congr fun kept => and_congr_left fun equal => ?_
      rw [Finset.mem_insert, iff_or_self]
      rintro rfl
      exact absurd (equal.symm.trans address) same
  · rw [Stats.countClient_currClients, Stats.countConnection_currClients,
      counted, ← tracks.currClients]
    rfl
  · rw [Stats.countClient_maxClients_toNat, Stats.countClient_currClients,
      Stats.countConnection_currClients, Stats.countConnection_maxClients,
      counted, ← tracks.currClients, ← tracks.maxClients, Nat.max_comm]
    rfl

end Census.Tracks

/-- `new` returns an address of 64 bits that is not NULL. -/
def NetworkEvent.Addressable : NetworkEvent δ → Prop
  | .connect id _ _ _ => 0 < id ∧ id < 2 ^ 64
  | .receive _ _ _ | .parse _ _ => True

/-- The population has come about by clients that come and go. -/
def Population.Reached (population : Population) : Prop :=
  ∃ history, runFrom Population.step .start history = some population

theorem Population.Reached.exact {population : Population}
    (reached : population.Reached) :
    ∃ past, population.Exact past := by
  obtain ⟨history, run⟩ := reached
  exact ⟨history, (Population.Exact.always history).final run⟩

theorem Population.Reached.step {population next : Population}
    {event : ClientEvent} (reached : population.Reached)
    (stepped : population.step event = some next) : next.Reached := by
  obtain ⟨history, run⟩ := reached
  exact ⟨history ++ [event], (runFrom_concat_eq_some _ _).mpr
    ⟨population, run, stepped⟩⟩

/-- In every run of a server the clients and the counters are those of a run of
clients that come and go. -/
theorem Network.always_tracks (server : NetworkServer δ)
    {events : List (NetworkEvent δ)}
    (addressable : EachStep (Network.advance server)
      (.start server.directory) (fun _ event => event.Addressable) events) :
    Always (Network.advance server) (.start server.directory)
      (fun _ network => ∃ population, population.Reached ∧
        network.census.Tracks population) events := by
  refine Always.of_eachStep _ ?_ ?_ addressable
  · exact ⟨.start, ⟨[], rfl⟩, .start server.directory⟩
  · rintro past network event next - ⟨population, reached, tracks⟩ advanced
      address
    obtain ⟨history, exact⟩ := reached.exact
    rcases Network.advance_census advanced with same |
      ⟨target, alive, same⟩ | ⟨id, fd, memory, now, rfl, free, same⟩
    · exact ⟨population, reached, same ▸ tracks⟩
    · obtain ⟨client, after, stepped, follows⟩ :=
        tracks.remove exact alive .hangup
      exact ⟨after, reached.step stepped, same ▸ follows⟩
    · obtain ⟨client, after, stepped, follows⟩ :=
        tracks.add exact free address.1 address.2
      exact ⟨after, reached.step stepped, same ▸ follows⟩

/-- So `curr_clients` is the number of live clients, and `max_clients` is not
below it. -/
theorem Network.always_counted (server : NetworkServer δ)
    {events : List (NetworkEvent δ)}
    (addressable : EachStep (Network.advance server)
      (.start server.directory) (fun _ event => event.Addressable) events) :
    Always (Network.advance server) (.start server.directory)
      (fun _ network => ∃ live : Finset Nat,
        (∀ id, network.alive id = true ↔ id ∈ live) ∧
          network.currClients = live.card ∧
          network.currClients ≤ network.maxClients) events := by
  intro past within network reached
  obtain ⟨population, run, tracks⟩ :=
    Network.always_tracks server addressable past within network reached
  obtain ⟨history, exact⟩ := run.exact
  refine ⟨population.live.image fun client : ClientAddress =>
    (client : UInt64).toNat, fun id => ?_, ?_, ?_⟩
  · rw [Finset.mem_image]
    exact tracks.live id
  · rw [Finset.card_image_of_injective _
        fun _ _ => Census.Tracks.toNat_injective, ← exact.currClients]
    exact tracks.currClients
  · exact tracks.currClients.trans_le
      (exact.curr_le_max.trans tracks.maxClients.ge)

end Hamchat
