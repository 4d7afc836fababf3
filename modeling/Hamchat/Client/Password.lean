import Hamchat.Client.Session

/-!
# The password gate

PASS is open only to a client that is active, so its password is stored after a
NICK.  The flag that it sets makes `m_user` refuse, and `m_nick` sees a change
of callsign, so nothing validates the password any more.  Meanwhile the client
stays active, and every command that needs registration is let through.
-/

namespace Hamchat

open Foundation

/-- While a password waits for its validation, no command that needs
registration is handed over. -/
def Session.GatesPassword (server : Server ω) (session : Session)
    (call : ParseCall ω) : Prop :=
  session.pending = true → ∀ parsed handed,
    session.client.parse server call.world call.sock = some parsed →
    parsed.handed = some handed →
      requiresRegistration handed.handler = false

/-- A call whose validation of a password fails deletes the client. -/
def Session.DeletesRejected (registry : Registry ω) (server : Server ω)
    (session : Session) (call : ParseCall ω) : Prop :=
  ∀ parsed handed before,
    session.client.parse server call.world call.sock = some parsed →
    parsed.handed = some handed →
    handed.numerics registry call.world session.client = some before →
    (sendConnectNumerics registry call.world before).1 = false →
      parsed.result = .ended

/-- A password that waits keeps the client active, and keeps it from its
validation. -/
def Session.PendingActive (session : Session) : Prop :=
  session.pending = true →
    session.client.isActive = true ∧
      session.client.connState &&& ircStateUser ≠ 0

section Gate

variable {registry : Registry ω} {others : QuietHandlers ω}
variable {session next : Session} {call : ParseCall ω}

/-- A failed validation deletes the client. -/
theorem Session.deletesRejected (session : Session) (call : ParseCall ω) :
    session.DeletesRejected registry
      (registrationServer registry others.toOtherHandlers) call := by
  intro parsed handed before returned hands numerics failed
  cases result : parsed.result with
  | ended => rfl
  | returned value nextWorld client sock =>
      rcases Client.parse_client returned result with
        ⟨nothing, -⟩ | ⟨ranHanded, rv, sent, ranHands, -, ran⟩
      · rw [hands] at nothing
        cases nothing
      · obtain rfl := Option.some.inj (hands.symm.trans ranHands)
        obtain ⟨lines, ended⟩ := Handed.ended_of_numerics numerics failed
        rw [ended] at ran
        cases ran

/-- A flag that is set stays set. -/
theorem Client.Handled.keeps_user {client after : Client} {handed : Handed}
    {rv : Bool} (handled : client.Handled handed rv after)
    (flag : client.connState &&& ircStateUser ≠ 0) :
    after.connState &&& ircStateUser ≠ 0 := by
  cases handled with
  | unchanged => exact flag
  | nick newCall handler valid =>
      change client.markNick.connState &&& ircStateUser ≠ 0
      rw [Client.markNick]
      split
      · exact flag
      · exact or_and_ne_zero.mpr (.inl flag)
  | user => exact or_and_ne_zero.mpr (.inl flag)
  | pass => exact or_and_ne_zero.mpr (.inl flag)

/-- The flag of USER makes a client active. -/
theorem Client.isActive_of_user {client : Client}
    (flag : client.connState &&& ircStateUser ≠ 0) :
    client.isActive = true := by
  rw [Client.isActive_iff, ircStateAlive, Nat.and_or_distrib_left, Ne,
    Nat.or_eq_zero_iff]
  exact fun none => flag none.2

/-- A call keeps the password waiting behind the flag of USER. -/
theorem Session.PendingActive.step (active : session.PendingActive)
    (stepped : session.step registry others.toOtherHandlers call =
      some next) : next.PendingActive := by
  rcases Session.step_eq_some stepped with
    ⟨-, rfl⟩ | ⟨handed, rv, client, -, handled, rfl⟩
  · exact active
  · intro pending
    suffices flag : client.connState &&& ircStateUser ≠ 0 from
      ⟨Client.isActive_of_user flag, flag⟩
    simp only [Session.after, Handed.validates_eq_false, Bool.not_false,
      Bool.and_true, Bool.or_eq_true, Bool.and_eq_true] at pending
    rcases pending with waiting | ⟨accepted, -⟩
    · exact handled.keeps_user (active waiting).2
    · cases handled with
      | pass chpass _ parameter => exact or_and_ne_zero.mpr (.inr (by decide))
      | unchanged rv user pass =>
          rw [pass] at accepted
          cases accepted
      | nick newCall handler valid =>
          simp [Handed.acceptsPass, handler] at accepted
      | user handler first =>
          simp [Handed.acceptsPass, handler] at accepted

/-- Where a waiting password keeps the client active, the gate holds for a call
exactly if its buffer names no command that needs registration. -/
theorem Session.PendingActive.gates_iff (active : session.PendingActive)
    (server : Server ω) :
    session.GatesPassword server call ↔ (session.pending = true →
      ¬session.client.RequestsRegistered call.sock) := by
  constructor
  · intro gate pending requests
    obtain ⟨parsed, handed, returned, hands, needs⟩ :=
      Client.handed_of_requestsRegistered server call.world
        (active pending).1 requests
    rw [gate pending parsed handed returned hands] at needs
    cases needs
  · intro none pending parsed handed returned hands
    by_contra needs
    rw [Bool.not_eq_false] at needs
    exact none pending
      (Client.requestsRegistered_of_handed returned hands needs).2

end Gate

/-! ## Runs -/

/-- The password gate holds for a run exactly if no command that needs
registration arrives after an accepted password. -/
theorem Session.gatesPassword_iff (registry : Registry ω)
    (others : QuietHandlers ω) (start : Client) (calls : List (ParseCall ω)) :
    EachCall (Session.step registry others.toOtherHandlers)
        (Session.start start)
        (fun session call =>
          session.GatesPassword
              (registrationServer registry others.toOtherHandlers) call ∧
            session.DeletesRejected registry
              (registrationServer registry others.toOtherHandlers) call)
        calls ↔
      EachCall (Session.step registry others.toOtherHandlers)
        (Session.start start)
        (fun session call => session.pending = true →
          ¬session.client.RequestsRegistered call.sock) calls := by
  have active : Always (Session.step registry others.toOtherHandlers)
      (Session.start start) (fun _ session => session.PendingActive) calls := by
    refine Always.of_step _ ?_ fun _ _ _ _ active stepped => active.step stepped
    intro pending
    cases pending
  refine EachCall.congr active fun past session call active => ?_
  rw [active.gates_iff, and_iff_left (session.deletesRejected call)]

/-- JOIN is let through while a password waits. -/
theorem Session.join_passes_password :
    ¬EachCall (Session.step freeRegistry idleHandlers)
      (Session.start freshClient)
      (fun session call =>
        session.GatesPassword (registrationServer freeRegistry idleHandlers)
            call ∧
          session.DeletesRejected freeRegistry
            (registrationServer freeRegistry idleHandlers) call)
      [.ofLiteral "NICK W1AW\r\n", .ofLiteral "PASS secret\r\n",
        .ofLiteral "JOIN #hf\r\n"] := by
  intro gate
  have passes : (runFrom (Session.step freeRegistry idleHandlers)
      (Session.start freshClient)
      [.ofLiteral "NICK W1AW\r\n", .ofLiteral "PASS secret\r\n"]).bind
        (fun session => (session.client.parse
          (registrationServer freeRegistry idleHandlers) ()
          (ParseCall.ofLiteral "JOIN #hf\r\n").sock).bind
            fun parsed => parsed.handed.map fun handed =>
              (session.pending, requiresRegistration handed.handler)) =
      some (true, true) := by
    decide +kernel
  obtain ⟨session, reached, passes⟩ := Option.bind_eq_some_iff.mp passes
  obtain ⟨parsed, returned, passes⟩ := Option.bind_eq_some_iff.mp passes
  obtain ⟨handed, hands, result⟩ := Option.map_eq_some_iff.mp passes
  rw [Prod.mk.injEq] at result
  have refused := (gate
    [.ofLiteral "NICK W1AW\r\n", .ofLiteral "PASS secret\r\n"]
    (.ofLiteral "JOIN #hf\r\n") (List.prefix_refl _) session reached).1
    result.1 parsed handed returned hands
  rw [result.2] at refused
  cases refused

end Hamchat
