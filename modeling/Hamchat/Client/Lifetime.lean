import Hamchat.Client.Session

/-!
# The lifetime of a client

Client objects are entries of a store, from which `Client::~Client` removes
them.  What a call of `Client::Parse` reads and writes is listed in order, as
uses of a client, of its `Socket` and of its `recvbuf`.  Adjacent uses of one
part are listed once.  After a handler has deleted the client that is served,
`Client::Parse` always goes on using it.
-/

namespace Hamchat

open Foundation

/-! ## Uses and deletions -/

/-- A part of a client object. -/
inductive Part
  /-- The `Client` itself. -/
  | client
  /-- Its `Socket`. -/
  | socket
  /-- The `recvbuf` of its `Socket`. -/
  | recvbuf
  deriving DecidableEq

/-- What the code does to a client object. -/
inductive Effect
  /-- It reads or writes a part of it. -/
  | use (id : Nat) (part : Part)
  /-- It deletes it, and its `Socket` with it. -/
  | delete (id : Nat)
  deriving DecidableEq

/-- The store after an effect. -/
def Effect.apply (store : Finset Nat) : Effect → Finset Nat
  | .use _ _ => store
  | .delete id => store.erase id

/-- The store after some effects. -/
def storeAfter (store : Finset Nat) (effects : List Effect) : Finset Nat :=
  effects.foldl Effect.apply store

/-- Every use of a client finds it in the store. -/
def UsesLive (id : Nat) (store : Finset Nat) (effects : List Effect) : Prop :=
  ∀ past part later, effects = past ++ .use id part :: later →
    id ∈ storeAfter store past

section Store

variable {id : Nat} {store : Finset Nat} {effects : List Effect}

/-- A client stays in the store until it is deleted. -/
theorem mem_storeAfter :
    id ∈ storeAfter store effects ↔ id ∈ store ∧ .delete id ∉ effects := by
  induction effects generalizing store with
  | nil => simp [storeAfter]
  | cons effect rest inductionHypothesis =>
      rw [storeAfter, List.foldl_cons]
      refine Iff.trans inductionHypothesis ?_
      cases effect with
      | use other part => simp [Effect.apply]
      | delete other =>
          simp only [Effect.apply, Finset.mem_erase, List.mem_cons,
            Effect.delete.injEq]
          tauto

/-- A client that is not deleted is used only while it is in the store. -/
theorem usesLive_of_kept (stored : id ∈ store)
    (kept : .delete id ∉ effects) : UsesLive id store effects := by
  rintro past part later rfl
  exact mem_storeAfter.mpr ⟨stored, fun deleted =>
    kept (List.mem_append_left _ deleted)⟩

/-- A client that is used after it was deleted is used outside the store. -/
theorem not_usesLive {before after : List Effect} {part : Part}
    (deleted : .delete id ∈ before) (used : .use id part ∈ after) :
    ¬UsesLive id store (before ++ after) := by
  intro live
  obtain ⟨between, later, rfl⟩ := List.append_of_mem used
  have stored := live (before ++ between) part later (by simp)
  exact (mem_storeAfter.mp stored).2 (List.mem_append_left _ deleted)

end Store

/-! ## What the functions of a client use -/

section Functions

variable (id : Nat)

/-- A statement about `cptr->sock->fd` or another field of the `Socket`. -/
def useSocket : List Effect := [.use id .client, .use id .socket]

/-- A statement about `cptr->sock->recvbuf`. -/
def useRecvbuf : List Effect := [.use id .client, .use id .recvbuf]

/-- `Client::Send` -/
def sendEffects : List Effect := useSocket id

/-- `Client::~Client`, after which the object is gone. -/
def destructorEffects : List Effect :=
  useSocket id ++ [.use id .client, .delete id]

/-- `Client::send_connect_numerics` -/
def numericsEffects (client : Client) : List Effect :=
  .use id .client ::
    if client.pass ≠ .empty then
      useSocket id ++ sendEffects id ++ destructorEffects id
    else
      sendEffects id

variable {id} {other : Nat}

@[simp] theorem delete_mem_useSocket : .delete id ∉ useSocket other := by
  simp [useSocket]

@[simp] theorem delete_mem_useRecvbuf : .delete id ∉ useRecvbuf other := by
  simp [useRecvbuf]

@[simp] theorem delete_mem_sendEffects : .delete id ∉ sendEffects other :=
  delete_mem_useSocket

@[simp] theorem delete_mem_destructorEffects :
    .delete id ∈ destructorEffects other ↔ id = other := by
  simp [destructorEffects]

/-- The numerics delete a client with a password. -/
@[simp] theorem delete_mem_numericsEffects {client : Client} :
    .delete id ∈ numericsEffects id client ↔ client.pass ≠ .empty := by
  rw [numericsEffects]
  split <;> simp_all

end Functions

/-- The effects of a function, and whether it returns. -/
structure Trace where
  /-- Its effects in order. -/
  effects : List Effect
  /-- It returns. -/
  returns : Bool

/-- A client that is served. -/
structure Served where
  /-- Its object. -/
  id : Nat
  /-- The fields that parsing and registration use. -/
  client : Client
  /-- `bool is_oper` -/
  isOper : Bool

/-- What the handlers see of the client objects. -/
structure Objects (ω : Type) where
  /-- The other clients in the store. -/
  others : ω → Finset Nat
  /-- The object that `find_client(callsign)` returns, if it returns. -/
  findClient : ω → CString → Option (Option Nat)
  /-- The handlers that are not modelled. -/
  run : Handler → ω → Served → (argc : Nat) → (argv : List CString) → Trace
  /-- They delete no client. -/
  spares : ∀ handler world served argc argv id,
    .delete id ∉ (run handler world served argc argv).effects

/-! ## What the handlers use -/

section Handlers

variable (registry : Registry ω) (objects : Objects ω) (world : ω)
variable (served : Served) (argc : Nat) (argv : List CString)

/-- `m_nick` -/
def nickTrace : Trace :=
  let id := served.id
  let client := served.client
  if 1 ≤ argc then
    let newCall := argv[2]?
    if !newCall.any isValidCallsign then
      ⟨sendEffects id, true⟩
    else
      let newCall := newCall.getD (.ofLiteral "(null)")
      match registry.findClient world newCall with
      | none => ⟨[], false⟩
      | some true => ⟨sendEffects id, true⟩
      | some false =>
          let reply :=
            if client.hasNickOrUser then
              sendEffects id
            else if client.markNick.connState &&& ircStateUser ≠ 0 then
              useSocket id ++ numericsEffects id client.markNick
            else
              useSocket id
          let renamed := registry.rename world client.callsign
            (newCall.truncate callsignLen)
          -- `SetCallsign` comes last.
          ⟨.use id .client :: useSocket id ++ reply ++ [.use id .client],
            renamed.isSome⟩
  else
    ⟨sendEffects id, true⟩

/-- `m_user`, which ends with a log of the stored names. -/
def userTrace : Trace :=
  let id := served.id
  let client := served.client
  if client.connState &&& ircStateUser ≠ 0 then
    ⟨.use id .client :: sendEffects id, true⟩
  else
    let client := client.markUser argv
    let numerics :=
      if client.connState &&& ircStateNick ≠ 0 then
        useSocket id ++ numericsEffects id client
      else
        useSocket id
    ⟨.use id .client :: numerics ++ useSocket id ++ [.use id .client], true⟩

/-- `m_pass` -/
def passTrace : Trace :=
  let id := served.id
  if served.client.connState &&& ircStatePass ≠ 0 then
    ⟨.use id .client :: sendEffects id, true⟩
  else
    match argv[2]? with
    | none => ⟨.use id .client :: sendEffects id, true⟩
    | some _ => ⟨[.use id .client], true⟩

/-- `m_quit` -/
def quitTrace : Trace :=
  let id := served.id
  ⟨.use id .client :: useSocket id ++ destructorEffects id, true⟩

/-- `m_kill`.  It goes on after its reply to missing parameters, and a NULL
callsign finds nobody. -/
def killTrace : Trace :=
  let id := served.id
  let missing :=
    if argv[3]? = none ∨ argv[4]? = none then sendEffects id else []
  if !served.client.isActive || !served.isOper then
    ⟨missing ++ .use id .client :: sendEffects id, true⟩
  else
    match argv[3]?.elim (some none) (objects.findClient world) with
    | none => ⟨missing ++ [.use id .client], false⟩
    | some none => ⟨missing ++ .use id .client :: sendEffects id, true⟩
    | some (some target) =>
        ⟨missing ++ .use id .client :: .use target .client ::
          sendEffects id ++ [.use id .client] ++ destructorEffects target, true⟩

/-- The handler of a command. -/
def handlerTrace (handed : Handed) : Trace :=
  match handed.handler with
  | .mNick => nickTrace registry world served handed.argc handed.argv
  | .mUser => userTrace served handed.argv
  | .mPass => passTrace served handed.argv
  | .mQuit => quitTrace served
  | .mKill => killTrace objects world served handed.argv
  | handler => objects.run handler world served handed.argc handed.argv

/-- `Client::Parse` after the handler has returned: the log of its result, the
move of the buffer, and the code after the label `cleanup`. -/
def afterHandler (id : Nat) : List Effect :=
  useSocket id ++ useRecvbuf id ++ useSocket id

/-- `Client::Parse` -/
def parseTrace (sock : Socket) : Option (List Effect) :=
  let id := served.id
  if sock.recvbufLock then
    some (useSocket id)
  else do
    let search := useSocket id ++ useRecvbuf id ++ [.use id .client]
    match ← parseHead served.client sock.recvbuf with
    | .emptyPrefix _ => some search
    | .line recvbuf buf sender bytesConsumed => do
        let tokens ← tokenLoop (recvbuf.bytes.drop buf)
          ⟨[sender, ⟨cmdLen, []⟩], 1, false, bytesConsumed⟩
        let search := search ++ useRecvbuf id ++ useSocket id
        if tokens.parc ≤ 1 then
          some (search ++ useSocket id)
        else do
          let name ← tokens.parv[1]?.bind Block.toCString
          match searchCommands served.client.isActive (tokens.parc - 1) name
            ircCommands with
          | .found handler => do
              let argv ← tokens.parv.mapM Block.toCString
              let trace := handlerTrace registry objects world served
                ⟨handler, tokens.parc - 1, argv⟩
              some (search ++ trace.effects ++
                if trace.returns then afterHandler id else [])
          | _ => some (search ++ sendEffects id ++ afterHandler id)

end Handlers

/-! ## When the client is deleted -/

/-- A command deletes the client that sends it: it is a QUIT, a USER after an
accepted NICK while a password is stored, or a KILL by an operator for the
callsign under which the client itself is found. -/
def Served.Deletes (objects : Objects ω) (world : ω) (served : Served)
    (handed : Handed) : Prop :=
  handed.handler = .mQuit ∨
    handed.handler = .mUser ∧
        served.client.connState &&& ircStateUser = 0 ∧
        served.client.connState &&& ircStateNick ≠ 0 ∧
        served.client.pass ≠ .empty ∨
      handed.handler = .mKill ∧ served.client.isActive = true ∧
        served.isOper = true ∧ ∃ callsign, handed.argv[3]? = some callsign ∧
          objects.findClient world callsign = some (some served.id)

section Deletion

variable {registry : Registry ω} {objects : Objects ω} {world : ω}
variable {served : Served} {handed : Handed} {argv : List CString}

/-- NICK deletes nobody. -/
theorem nickTrace_spares {argc id : Nat} :
    .delete id ∉ (nickTrace registry world served argc argv).effects := by
  rw [nickTrace]
  dsimp only
  split
  · split
    · simp
    · split
      · simp
      · simp
      · cases active : served.client.hasNickOrUser with
        | true => simp
        | false => simp [served.client.markNick_noUser active]
  · simp

/-- USER deletes the client if it sends the numerics while a password is
stored. -/
theorem userTrace_deletes :
    .delete served.id ∈ (userTrace served argv).effects ↔
      served.client.connState &&& ircStateUser = 0 ∧
        served.client.connState &&& ircStateNick ≠ 0 ∧
        served.client.pass ≠ .empty := by
  have flag : (served.client.markUser argv).connState &&& ircStateNick ≠ 0 ↔
      served.client.connState &&& ircStateNick ≠ 0 := by
    rw [Client.markUser, or_and_ne_zero, or_iff_left (by decide)]
  have password : (served.client.markUser argv).pass = served.client.pass := rfl
  rw [userTrace]
  dsimp only
  split
  · rename_i again
    simp [again]
  · rename_i first
    rw [not_not] at first
    split
    · rename_i nick
      simp [first, flag.mp nick, password]
    · rename_i noNick
      simp [first, mt flag.mpr noNick]

/-- PASS deletes nobody. -/
theorem passTrace_spares {id : Nat} :
    .delete id ∉ (passTrace served argv).effects := by
  rw [passTrace]
  split
  · simp
  · split <;> simp

/-- KILL deletes the client that it finds. -/
theorem killTrace_deletes :
    .delete served.id ∈ (killTrace objects world served argv).effects ↔
      served.client.isActive = true ∧ served.isOper = true ∧
        ∃ callsign, argv[3]? = some callsign ∧
          objects.findClient world callsign = some (some served.id) := by
  rw [killTrace]
  split
  · rename_i denied
    have notBoth : ¬(served.client.isActive = true ∧
        served.isOper = true) := by
      simpa [← Bool.not_eq_true, imp_iff_not_or] using denied
    refine iff_of_false (by simp) fun found => notBoth ⟨found.1, found.2.1⟩
  · rename_i admitted
    have both : served.client.isActive = true ∧ served.isOper = true := by
      simpa using admitted
    cases named : argv[3]? with
    | none => simp
    | some callsign =>
        simp only [both, true_and, Option.some.injEq, exists_eq_left',
          Option.elim_some]
        cases objects.findClient world callsign with
        | none => simp
        | some target =>
            cases target with
            | none => simp
            | some target => simp [eq_comm]

/-- A handler deletes the client exactly under its condition. -/
theorem handlerTrace_deletes :
    .delete served.id ∈ (handlerTrace registry objects world served
        handed).effects ↔ served.Deletes objects world handed := by
  obtain ⟨handler, argc, argv⟩ := handed
  have spares := objects.spares handler world served argc argv served.id
  cases handler with
  | mNick => simp [handlerTrace, Served.Deletes, nickTrace_spares]
  | mUser => simp [handlerTrace, Served.Deletes, userTrace_deletes]
  | mPass => simp [handlerTrace, Served.Deletes, passTrace_spares]
  | mQuit => simp [handlerTrace, Served.Deletes, quitTrace]
  | mKill => simp [handlerTrace, Served.Deletes, killTrace_deletes]
  | _ => simpa [handlerTrace, Served.Deletes] using spares

/-- A handler that has deleted the client returns. -/
theorem handlerTrace_returns (deletes : served.Deletes objects world handed) :
    (handlerTrace registry objects world served handed).returns = true := by
  obtain ⟨handler, argc, argv⟩ := handed
  rcases deletes with quit | ⟨user, -⟩ | ⟨kill, active, oper, callsign, named,
    found⟩
  · obtain rfl : handler = .mQuit := quit
    rfl
  · obtain rfl : handler = .mUser := user
    change (userTrace served argv).returns = true
    rw [userTrace]
    split <;> rfl
  · obtain rfl : handler = .mKill := kill
    have named : argv[3]? = some callsign := named
    simp [handlerTrace, killTrace, active, oper, named, found]

/-! ## The rest of the call -/

variable {sock : Socket} {effects : List Effect}

/-- What `Client::Parse` has used before and after the handler. -/
theorem parseTrace_eq_some
    (traced : parseTrace registry objects world served sock = some effects) :
    served.client.command sock = none ∧ .delete served.id ∉ effects ∨
      ∃ handed before, served.client.command sock = some handed ∧
        .delete served.id ∉ before ∧
        effects = before ++
          (handlerTrace registry objects world served handed).effects ++
          if (handlerTrace registry objects world served handed).returns then
            afterHandler served.id
          else [] := by
  rw [parseTrace] at traced
  rw [Client.command]
  split at traced
  · rename_i locked
    rw [if_pos locked]
    obtain rfl := Option.some.inj traced
    exact .inl ⟨rfl, by simp⟩
  · rename_i unlocked
    rw [if_neg unlocked]
    rw [Option.bind_eq_bind, Option.bind_eq_some_iff] at traced
    obtain ⟨head, headEq, traced⟩ := traced
    rw [headEq]
    cases head with
    | emptyPrefix recvbuf =>
        obtain rfl := Option.some.inj traced
        exact .inl ⟨rfl, by simp⟩
    | line recvbuf buf sender bytesConsumed =>
        rw [Option.bind_eq_bind, Option.bind_eq_some_iff] at traced
        obtain ⟨tokens, split, traced⟩ := traced
        simp only [Option.bind_eq_bind, Option.bind_some, split]
        split at traced
        · rename_i few
          rw [if_pos few]
          obtain rfl := Option.some.inj traced
          exact .inl ⟨rfl, by simp⟩
        · rename_i many
          rw [if_neg many]
          rw [Option.bind_eq_bind, Option.bind_eq_some_iff] at traced
          obtain ⟨name, named, traced⟩ := traced
          rw [named, Option.bind_some]
          generalize searchCommands served.client.isActive (tokens.parc - 1)
            name ircCommands = found at traced ⊢
          cases found with
          | found handler =>
              dsimp only at traced
              rw [Option.bind_eq_bind, Option.bind_eq_some_iff] at traced
              obtain ⟨argv, terminated, traced⟩ := traced
              simp only [terminated, Option.bind_some]
              exact .inr ⟨_, _, rfl, by simp, (Option.some.inj traced).symm⟩
          | _ =>
              obtain rfl := Option.some.inj traced
              exact .inl ⟨rfl, by simp [afterHandler]⟩

/-- The effects of a call that hands over a command are defined. -/
theorem parseTrace_of_command
    (hands : served.client.command sock = some handed) :
    ∃ effects, parseTrace registry objects world served sock =
      some effects := by
  obtain ⟨tokens, name, ⟨unlocked, recvbuf, buf, sender, consumed, head,
    split, many⟩, named, found, terminated, -⟩ :=
    Client.command_eq_some.mp hands
  rw [parseTrace, if_neg (by simp [unlocked]), head]
  simp only [Option.bind_eq_bind, Option.bind_some, split,
    if_neg (Nat.not_le_of_lt many), named, found, terminated]
  exact ⟨_, rfl⟩

end Deletion

/-! ## Runs -/

namespace Served

section Runs

variable (registry : Registry ω) (objects : Objects ω)
variable (others : OtherHandlers ω)

/-- The store when `Client::Parse` is called: the client and the others. -/
def store (served : Served) (world : ω) : Finset Nat :=
  insert served.id (objects.others world)

/-- A call uses the client only while it is in the store. -/
def Safe (served : Served) (call : ParseCall ω) : Prop :=
  ∀ effects,
    parseTrace registry objects call.world served call.sock = some effects →
      UsesLive served.id (served.store objects call.world) effects

/-- The command in the buffer does not delete the client. -/
def Keeps (served : Served) (call : ParseCall ω) : Prop :=
  ∀ handed, served.client.command call.sock = some handed →
    ¬served.Deletes objects call.world handed

/-- One call of `Client::Parse` that returns with the client in the store. -/
def step (served : Served) (call : ParseCall ω) : Option Served := do
  let effects ← parseTrace registry objects call.world served call.sock
  let parsed ← served.client.parse (registrationServer registry others)
    call.world call.sock
  match parsed.result with
  | .returned _ _ client _ =>
      if served.id ∈ storeAfter (served.store objects call.world) effects then
        some { served with client := client }
      else
        none
  | .ended => none

variable {registry objects others}

/-- A call uses the client only while it is in the store exactly if its command
does not delete it: `Client::Parse` goes on using a client that is gone. -/
theorem safe_iff (served : Served) (call : ParseCall ω) :
    served.Safe registry objects call ↔ served.Keeps objects call := by
  constructor
  · intro safe handed hands deletes
    obtain ⟨effects, traced⟩ := @parseTrace_of_command _ registry objects
      call.world served handed call.sock hands
    have live := safe effects traced
    rcases parseTrace_eq_some traced with
      ⟨nothing, -⟩ | ⟨handed', before, hands', -, rfl⟩
    · rw [hands] at nothing
      cases nothing
    · obtain rfl := Option.some.inj (hands.symm.trans hands')
      rw [handlerTrace_returns deletes, if_pos rfl] at live
      exact not_usesLive
        (List.mem_append_right _ (handlerTrace_deletes.mpr deletes))
        (show .use served.id .client ∈ afterHandler served.id by
          simp [afterHandler, useSocket]) live
  · intro keeps effects traced
    refine usesLive_of_kept (Finset.mem_insert_self _ _) ?_
    rcases parseTrace_eq_some traced with
      ⟨-, kept⟩ | ⟨handed, before, hands, kept, rfl⟩
    · exact kept
    · have spared : .delete served.id ∉
          (handlerTrace registry objects call.world served handed).effects :=
        mt handlerTrace_deletes.mp (keeps handed hands)
      simp only [List.mem_append, kept, spared, false_or]
      split
      · simp [afterHandler]
      · simp

/-- A handler of registration that returns with the client alive has not deleted
it. -/
theorem not_deletes_of_returned {served : Served} {world nextWorld : ω}
    {handed : Handed} {rv : Bool} {sent : List CString} {next : Client}
    (noKill : handed.handler ≠ .mKill)
    (returned : (registrationServer registry others).run handed.handler world
      served.client handed.argc handed.argv =
        .returned rv sent nextWorld next) :
    ¬served.Deletes objects world handed := by
  rintro (quit | ⟨user, first, nick, password⟩ | ⟨kill, -⟩)
  · rw [quit] at returned
    cases returned
  · have numerics : handed.numerics registry world served.client =
        some (served.client.markUser handed.argv) :=
      Handed.numerics_eq_some.mpr ⟨user, first, nick, rfl⟩
    obtain ⟨lines, ended⟩ :=
      @Handed.ended_of_numerics _ _ _ _ _ _ others numerics
        (sendConnectNumerics_password password)
    rw [ended] at returned
    cases returned
  · exact noKill kill

/-- A run uses the client only while it is in the store exactly if none of its
commands deletes the client. -/
theorem usesLive_iff (registry : Registry ω) (objects : Objects ω)
    (others : OtherHandlers ω) (start : Served) (calls : List (ParseCall ω)) :
    EachCall (step registry objects others) start (Safe registry objects)
        calls ↔
      EachCall (step registry objects others) start (Keeps objects) calls :=
  EachCall.congr (show Always _ _ (fun _ _ => True) _ from
    fun _ _ _ _ => trivial) fun _ served call _ => served.safe_iff call

end Runs

/-- No other client, and handlers that touch nothing. -/
def noObjects : Objects Unit where
  others _ := ∅
  findClient _ _ := some none
  run _ _ _ _ _ := ⟨[], true⟩
  spares := by simp

/-- `Client::Parse` uses a client that `m_quit` has deleted. -/
theorem quit_uses_deleted :
    ¬EachCall (step freeRegistry noObjects idleHandlers)
      ⟨0, freshClient, false⟩ (Safe freeRegistry noObjects)
      [.ofLiteral "QUIT :bye\r\n"] := by
  intro safe
  have quit : (freshClient.command
      (ParseCall.ofLiteral "QUIT :bye\r\n").sock).map Handed.handler =
        some .mQuit := by
    decide +kernel
  obtain ⟨handed, hands, handler⟩ := Option.map_eq_some_iff.mp quit
  have keeps := (safe_iff _ _).mp
    (safe [] (.ofLiteral "QUIT :bye\r\n") (List.prefix_refl _) _ rfl)
  exact keeps handed hands (.inl handler)

end Served

end Hamchat
