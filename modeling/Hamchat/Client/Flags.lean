import Hamchat.Client.Session

/-!
# The registration flags

`IRC_STATE_PASS` has the value of `IRC_STATE_USER`.  An accepted USER sets the
flag that stands for PASS, an accepted PASS the one that stands for USER, and
each makes the handler of the other reply 462.  The flags mean what they say
exactly in the runs that accept neither.
-/

namespace Hamchat

open Foundation

/-! ## What the flags should say -/

/-- Each flag is set exactly if what it is named for has happened. -/
structure Session.FlagsMean (session : Session) : Prop where
  /-- A USER has been accepted. -/
  user : session.client.connState &&& ircStateUser ≠ 0 ↔ session.user = true
  /-- A PASS has been accepted. -/
  pass : session.client.connState &&& ircStatePass ≠ 0 ↔ session.pass = true
  /-- A callsign is set. -/
  nick : session.client.connState &&& ircStateNick ≠ 0 ↔
    session.client.callsign ≠ .empty

/-- A call replies 462 only to a command that has been accepted before. -/
def Session.RefusesRepeated (session : Session) (call : ParseCall ω) : Prop :=
  ∀ handed, session.client.command call.sock = some handed →
    handed.isRefused session.client = true →
      (handed.handler = .mUser → session.user = true) ∧
        (handed.handler = .mPass → session.pass = true)

/-- A call hands over neither a USER nor a PASS with a parameter. -/
def Session.NoUserOrPass (session : Session) (call : ParseCall ω) : Prop :=
  ∀ handed, session.client.command call.sock = some handed →
    handed.handler ≠ .mUser ∧
      (handed.handler = .mPass → handed.argv[2]? = none)

/-- The flags mean what they say, and neither USER nor PASS has been
accepted. -/
structure Session.OnlyNick (session : Session) : Prop extends
    session.FlagsMean where
  /-- No USER has been accepted. -/
  noUser : session.user = false
  /-- No PASS has been accepted. -/
  noPass : session.pass = false

/-! ## One call -/

section Step

variable {session next : Session} {call : ParseCall ω}

/-- The flags of USER and PASS are one bit. -/
theorem Session.FlagsMean.user_eq_pass (means : session.FlagsMean) :
    session.user = session.pass :=
  Bool.eq_iff_iff.mpr (means.user.symm.trans means.pass)

/-- Where the flags mean what they say, no handler refuses a first USER or
PASS. -/
theorem Session.FlagsMean.refusesRepeated (means : session.FlagsMean) :
    session.RefusesRepeated call := by
  intro handed _ refused
  simp only [Handed.isRefused, Bool.or_eq_true, Bool.and_eq_true,
    decide_eq_true_iff] at refused
  rcases refused with ⟨user, flag⟩ | ⟨pass, flag⟩
  · exact ⟨fun _ => means.user.mp flag, fun isPass => by simp_all⟩
  · exact ⟨fun isUser => by simp_all, fun _ => means.pass.mp flag⟩

/-- A new client has no flag, so the flags mean what they say exactly if its
memory holds no callsign. -/
theorem Session.flagsMean_start {start : Client}
    (connected : start.connState = ircStateNone) :
    (Session.start start).FlagsMean ↔ start.callsign = .empty := by
  have noFlag (flag : Nat) : start.connState &&& flag = 0 := by
    rw [connected]
    exact Nat.zero_and flag
  constructor
  · intro means
    by_contra callsign
    exact means.nick.mpr callsign (noFlag _)
  · intro empty
    exact ⟨by simp [Session.start, noFlag], by simp [Session.start, noFlag],
      by simp [Session.start, noFlag, empty]⟩

/-- The flag of USER is clear, that of NICK follows the callsign, and nothing
has been accepted. -/
theorem Session.onlyNick_iff : session.OnlyNick ↔
    session.client.connState &&& ircStateUser = 0 ∧
      (session.client.connState &&& ircStateNick ≠ 0 ↔
        session.client.callsign ≠ .empty) ∧
      session.user = false ∧ session.pass = false := by
  constructor
  · rintro ⟨⟨user, -, nick⟩, noUser, noPass⟩
    refine ⟨?_, nick, noUser, noPass⟩
    by_contra flag
    have accepted := user.mp flag
    rw [noUser] at accepted
    cases accepted
  · rintro ⟨flag, nick, noUser, noPass⟩
    exact ⟨⟨iff_of_false (not_not_intro flag) (by simp [noUser]),
      iff_of_false (not_not_intro flag) (by simp [noPass]), nick⟩, noUser,
      noPass⟩

/-- After an accepted NICK its flag is set, and that of USER stays clear. -/
theorem Client.markNick_flags {client : Client}
    (noUser : client.connState &&& ircStateUser = 0) :
    client.markNick.connState &&& ircStateUser = 0 ∧
      client.markNick.connState &&& ircStateNick ≠ 0 := by
  cases active : client.hasNickOrUser with
  | true =>
      rw [Client.markNick, if_pos active]
      refine ⟨noUser, fun noNick => ?_⟩
      rw [Client.hasNickOrUser, Nat.and_or_distrib_left, noUser, noNick]
        at active
      cases active
  | false =>
      refine ⟨client.markNick_noUser active, ?_⟩
      rw [Client.markNick, active, if_neg (by decide), or_and_ne_zero]
      exact .inr (by decide)

/-- A call that hands over neither a USER nor a PASS with a parameter leaves the
flags as they should be, and no other call does. -/
theorem Session.OnlyNick.step {registry : Registry ω}
    {others : QuietHandlers ω} (onlyNick : session.OnlyNick)
    (stepped : session.step registry others.toOtherHandlers call =
      some next) :
    (session.NoUserOrPass call → next.OnlyNick) ∧
      (next.FlagsMean → session.NoUserOrPass call) := by
  obtain ⟨noFlag, nick, noUser, noPass⟩ := Session.onlyNick_iff.mp onlyNick
  rcases Session.step_eq_some stepped with
    ⟨nothing, rfl⟩ | ⟨handed, rv, client, hands, handled, rfl⟩
  · refine ⟨fun _ => onlyNick, fun _ handed hands => ?_⟩
    rw [nothing] at hands
    cases hands
  · have only (condition : handed.handler ≠ .mUser ∧
        (handed.handler = .mPass → handed.argv[2]? = none)) :
        session.NoUserOrPass call := by
      intro other otherHands
      obtain rfl := Option.some.inj (hands.symm.trans otherHands)
      exact condition
    cases handled with
    | unchanged rv user pass =>
        have notUser : handed.handler ≠ .mUser := fun isUser =>
          (user isUser).2 noFlag
        refine ⟨fun _ => Session.onlyNick_iff.mpr ⟨noFlag, nick, ?_, ?_⟩,
          fun _ => only ⟨notUser, fun isPass => ?_⟩⟩
        · simp [Session.after, noUser, notUser]
        · simp [Session.after, noPass, pass]
        · by_contra given
          have accepted := Handed.acceptsPass_iff.mpr
            ⟨isPass, noFlag, Option.isSome_iff_ne_none.mpr given⟩
          rw [pass] at accepted
          cases accepted
    | nick newCall handler valid =>
        obtain ⟨flag, nickFlag⟩ := Client.markNick_flags noFlag
        refine ⟨fun _ => Session.onlyNick_iff.mpr
          ⟨flag, iff_of_true nickFlag (truncate_ne_empty_of_valid valid), ?_,
            ?_⟩, fun _ => only (by simp [handler])⟩
        · simp [Session.after, noUser, handler]
        · simp [Session.after, noPass, handler, Handed.acceptsPass]
    | user handler first =>
        refine ⟨fun condition => absurd handler (condition handed hands).1,
          fun means => ?_⟩
        have one := means.user_eq_pass
        simp [Session.after, handler, noPass, Handed.acceptsPass] at one
    | pass chpass accepted parameter =>
        obtain ⟨handler, -, given⟩ := Handed.acceptsPass_iff.mp accepted
        refine ⟨fun condition => ?_, fun means => ?_⟩
        · have missing := (condition handed hands).2 handler
          rw [missing] at given
          cases given
        · have one := means.user_eq_pass
          simp [Session.after, noUser, accepted] at one

end Step

/-! ## Runs -/

/-- The flags mean what they say throughout a run, and no handler refuses a
first USER or PASS, exactly if the memory of the new client holds no callsign
and no call of the run hands over a USER or a PASS with a parameter. -/
theorem Session.flagsMean_iff (registry : Registry ω)
    (others : QuietHandlers ω) {start : Client}
    (connected : start.connState = ircStateNone)
    (calls : List (ParseCall ω)) :
    (Always (Session.step registry others.toOtherHandlers)
        (Session.start start) (fun _ session => session.FlagsMean) calls ∧
      EachCall (Session.step registry others.toOtherHandlers)
        (Session.start start) Session.RefusesRepeated calls) ↔
      start.callsign = .empty ∧
        EachStep (Session.step registry others.toOtherHandlers)
          (Session.start start) Session.NoUserOrPass calls := by
  have iffEmpty := Session.flagsMean_start connected
  have steps (empty : start.callsign = .empty) :
      Always (Session.step registry others.toOtherHandlers)
          (Session.start start) (fun _ session => session.FlagsMean) calls ↔
        EachStep (Session.step registry others.toOtherHandlers)
          (Session.start start) Session.NoUserOrPass calls := by
    refine Always.iff_eachStep (fun _ session => session.OnlyNick)
      ⟨iffEmpty.mpr empty, rfl, rfl⟩ (fun _ _ onlyNick => onlyNick.toFlagsMean)
      ?_ ?_
    · intro past session call next _ onlyNick stepped condition
      exact (onlyNick.step stepped).1 condition
    · intro past session call next _ onlyNick stepped means
      exact (onlyNick.step stepped).2 means
  constructor
  · rintro ⟨always, -⟩
    have empty := iffEmpty.mp (always [] (List.nil_prefix) _ rfl)
    exact ⟨empty, (steps empty).mp always⟩
  · rintro ⟨empty, condition⟩
    have always := (steps empty).mpr condition
    refine ⟨always, fun past call within session reached => ?_⟩
    exact (always past ((List.prefix_append _ _).trans within) session
      reached).refusesRepeated

/-- Handlers that do nothing to the client. -/
def quietHandlers : QuietHandlers Unit where
  toOtherHandlers := idleHandlers
  client_eq := by
    intro handler world client argc argv value sent nextWorld next returned
    cases returned
    rfl

theorem Session.flagsMean_iff_nick :
    (Always (Session.step freeRegistry quietHandlers.toOtherHandlers)
        (Session.start freshClient) (fun _ session => session.FlagsMean)
        [.ofLiteral "NICK W1AW\r\n"] ∧
      EachCall (Session.step freeRegistry quietHandlers.toOtherHandlers)
        (Session.start freshClient) Session.RefusesRepeated
        [.ofLiteral "NICK W1AW\r\n"]) ↔
      freshClient.callsign = .empty ∧
        EachStep (Session.step freeRegistry quietHandlers.toOtherHandlers)
          (Session.start freshClient) Session.NoUserOrPass
          [.ofLiteral "NICK W1AW\r\n"] :=
  Session.flagsMean_iff freeRegistry quietHandlers rfl _

/-- An accepted USER sets the flag of PASS. -/
theorem Session.user_sets_pass_flag :
    ¬(Always (Session.step freeRegistry quietHandlers.toOtherHandlers)
        (Session.start freshClient) (fun _ session => session.FlagsMean)
        [.ofLiteral "USER a b c :d\r\n"] ∧
      EachCall (Session.step freeRegistry quietHandlers.toOtherHandlers)
        (Session.start freshClient) Session.RefusesRepeated
        [.ofLiteral "USER a b c :d\r\n"]) := by
  rintro ⟨always, -⟩
  have passFlag : (runFrom
      (Session.step freeRegistry quietHandlers.toOtherHandlers)
      (Session.start freshClient) [.ofLiteral "USER a b c :d\r\n"]).map
        (fun session => (session.user, session.pass)) = some (true, false) := by
    decide +kernel
  obtain ⟨session, reached, flags⟩ := Option.map_eq_some_iff.mp passFlag
  rw [Prod.mk.injEq] at flags
  have one := (always.final reached).user_eq_pass
  rw [flags.1, flags.2] at one
  cases one

end Hamchat
