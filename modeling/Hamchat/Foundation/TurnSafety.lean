import Hamchat.Foundation.TurnTaking

/-!
# Two parties agree

Whatever a party does, on its own or at a signal that is on the link, keeps the
invariant of the two parties.  So at most one of them leads, and the other has
passed on the blocks that it has accepted, in their order, and at most the one
besides that waits for its answer.
-/

namespace Hamchat
namespace Foundation
namespace Party

variable {τ β α : Type} (odd : τ → Bool)

/-! ## What a party does -/

/-- The signal of a party that is on the link after it has acted. -/
def nextMine (mine heard played : Option (Signal τ β α)) : Option (Signal τ β α) :=
  match played, heard with
  | some signal, _ => some signal
  | none, none => mine
  | none, some _ => none

/-- The signal of the other that is on the link after a party has acted. -/
def nextYours (yours heard played : Option (Signal τ β α)) : Option (Signal τ β α) :=
  match played, heard with
  | none, none => yours
  | _, _ => none

/-- The party that hears a signal is the next to speak. -/
theorem nextMine_some (mine : Option (Signal τ β α)) (signal : Signal τ β α)
    (played : Option (Signal τ β α)) : nextMine mine (some signal) played = played := by
  cases played <;> rfl

theorem nextYours_some (yours : Option (Signal τ β α)) (signal : Signal τ β α)
    (played : Option (Signal τ β α)) : nextYours yours (some signal) played = none := by
  cases played <;> rfl

section Agree

variable {odd} {party other next : Party τ β α} {mine yours heard played : Option (Signal τ β α)}
variable {signal : Signal τ β α}

/-- A signal that is lost. -/
theorem Agree.hushed (agree : Agree odd party other mine yours) :
    Agree odd party other none none where
  roles := agree.roles
  spoken := by simp
  heard := by simp
  calls := by simp
  called := by simp
  toward := agree.toward.hushed
  back := agree.back.hushed

/-- A party sends a signal. -/
theorem Agree.of_signal (roles : party.role = .off ∨ other.role = .off ∨
      party.role.Matches other.role ∨ other.role.Matches party.role)
    (fits : party.role = .off ∨ signal.Fits party.role)
    (calls : signal = .call → other.role = .off ∨ other.role = .answering)
    (toward : Toward odd party other (some signal) none)
    (back : Toward odd other party none (some signal)) :
    Agree odd party other (some signal) none where
  roles := roles
  spoken := by simpa using fits
  heard := by simp
  calls same := calls (Option.some.inj same)
  called := by simp
  toward := toward
  back := back

/-- A party asks the other to stop. -/
theorem Agree.stops (agree : Agree odd party other mine yours) :
    Agree odd { party with stopping := true } other (some .stop) none := by
  refine .of_signal agree.roles (.inr trivial) (by simp) ?_ ?_
  · exact agree.toward.hushed.stopped.said (by simp) (by simp)
  · have alike : Alike party { party with stopping := true } :=
      ⟨rfl, fun role => ⟨role, rfl, rfl⟩, id, id⟩
    apply (agree.back.hushed.alike alike).told <;> simp

/-- A party that leads has sent what it has to send. -/
theorem Sends.agree {base : Party τ β α} (sends : Sends odd base next played)
    (role : base.role = .leading)
    (waits : other.role = .off ∨ other.role = .following ∨ other.role = .turning)
    (offer : base.offer = none) (fresh : Fresh odd base other)
    (back : Toward odd other base none none) : Agree odd next other played none := by
  have roles : base.role = .off ∨ other.role = .off ∨
      base.role.Matches other.role ∨ other.role.Matches base.role := by
    rw [role]
    rcases waits with off | follows | turns
    · exact .inr (.inl off)
    · exact .inr (.inr (.inl (by rw [follows]; trivial)))
    · exact .inr (.inr (.inl (by rw [turns]; trivial)))
  have agree : Agree odd base other none none := by
    refine ⟨roles, by simp, by simp, by simp, by simp, ?_, back⟩
    refine .leading role ⟨by simp, by simp, ?_, by simp, .inl ⟨fresh, by simp⟩⟩
    simp [offer]
  cases sends with
  | silent stopping => exact agree
  | stop => exact agree.stops
  | @block tag items awake differs =>
      refine .of_signal roles (.inr role) (by simp) ?_ ?_
      · refine .leading role ⟨?_, by simp, ?_, ?_, .inl ⟨?_, by simp⟩⟩
        · rintro _ _ ⟨⟩
          rfl
        · rintro _ _ ⟨⟩
          exact differs
        · exact fun stopping => absurd (awake.symm.trans stopping) Bool.false_ne_true
        · exact ⟨fresh.settled, fresh.seen, fresh.answered⟩
      · have alike : Alike base { base with offer := some (tag, items) } :=
          ⟨rfl, fun role => ⟨role, rfl, rfl⟩, id, id⟩
        apply (back.alike alike).told <;> simp
  | idle awake =>
      refine .of_signal roles (.inr role) (by simp) ?_ (by apply back.told <;> simp)
      refine .leading role ⟨by simp, fun _ => offer, by simp [offer], ?_,
        .inl ⟨fresh, by simp⟩⟩
      exact fun stopping => absurd (awake.symm.trans stopping) Bool.false_ne_true

/-- A party that waits for a call is called. -/
theorem Agree.answers (agree : Agree odd party other mine (some .call))
    (width reply : β) (waits : party.role = .off ∨ party.role = .answering) :
    Agree odd
      { party with
        role := .answering
        seen := none
        answered := none
        width := width
        offer := none } other (some (.connect reply)) none := by
  apply Agree.of_signal
  · rcases agree.heard _ rfl with off | calls
    · exact .inr (.inl off)
    · exact .inr (.inr (.inr (by rw [show other.role = .calling from calls]; trivial)))
  · exact .inr (.inl rfl)
  · simp
  · refine .listening (.inr (.inl rfl)) ?_
    cases agree.toward with
    | off role left => exact left.called (.inr rfl)
    | leading role leads => simp [role] at waits
    | waiting role untouched => exact untouched.settled
    | listening role settled => exact settled
  · have alike : Alike party
        { party with
          role := .answering
          seen := none
          answered := none
          width := width
          offer := none } := .of_role rfl (.inr (.inr (.inr rfl)))
    apply (agree.back.hushed.alike alike).told <;> simp

/-- The call of a party is answered. -/
theorem Agree.isAnswered {width : β}
    (agree : Agree odd party other mine (some (.connect width)))
    (calls : party.role = .calling) :
    Agree odd { party with role := .confirming, width := width } other
      (some (.connect width)) none := by
  have settled := agree.toward.settled (by simp [calls]) (by simp [calls])
  have answering : other.role = .off ∨ other.role = .answering := by
    have roles := agree.roles
    rcases agree.heard _ rfl with off | answers | confirms
    · exact .inl off
    · exact .inr answers
    · simp [calls, confirms, Role.Matches] at roles
  apply Agree.of_signal
  · rcases answering with off | answers
    · exact .inr (.inl off)
    · exact .inr (.inr (.inl (by rw [answers]; trivial)))
  · exact .inr (.inr rfl)
  · simp
  · refine .waiting (.inl rfl) ⟨settled, ?_, ?_⟩
    · intro follows
      simp [follows] at answering
    · intro follows
      simp [follows] at answering
  · have alike : Alike party { party with role := .confirming, width := width } :=
      .of_role rfl (.inr (.inl rfl))
    apply (agree.back.hushed.alike alike).told <;> simp

/-- The answer of a party is confirmed. -/
theorem Agree.joins {width : β}
    (agree : Agree odd party other mine (some (.connect width)))
    (waits : party.role = .answering) :
    Agree odd
      { party with
        role := .following
        seen := none
        answered := none
        width := width } other (some .ack) none := by
  have confirms : other.role = .off ∨ other.role = .confirming := by
    have roles := agree.roles
    rcases agree.heard _ rfl with off | answers | confirms
    · exact .inl off
    · simp [waits, answers, Role.Matches] at roles
    · exact .inr confirms
  apply Agree.of_signal
  · rcases confirms with off | confirms
    · exact .inr (.inl off)
    · exact .inr (.inr (.inr (by rw [confirms]; trivial)))
  · exact .inr rfl
  · simp
  · exact .listening (.inr (.inr rfl))
      (agree.toward.settled (by simp [waits]) (by simp [waits]))
  · cases agree.back with
    | off role left =>
        refine .off role ⟨left.state, ?_, by simp⟩
        rintro (calls | same)
        · cases calls
        · cases same
    | leading role leads => simp [role] at confirms
    | waiting role untouched =>
        exact .waiting role ⟨untouched.settled, fun _ => rfl, fun _ => rfl⟩
    | listening role settled =>
        rcases confirms with off | confirms
        · simp [off] at role
        · simp [confirms] at role

/-- A party that follows agrees to what is no block. -/
theorem Agree.agrees (agree : Agree odd party other mine (some signal))
    (follows : party.role = .following) (width : β)
    (asked : (∃ width, signal = .connect width) ∨ signal = .idle ∨ signal = .turn) :
    Agree odd { party with width := width } other (some .ack) none := by
  apply Agree.of_signal
  · exact agree.roles
  · exact .inr follows
  · simp
  · exact .listening (.inr (.inr follows))
      (agree.toward.settled (by simp [follows]) (by simp [follows]))
  · have alike : Alike party { party with width := width } :=
      ⟨rfl, fun _ => ⟨follows, rfl, rfl⟩, id, id⟩
    apply Toward.alike _ alike
    cases agree.back with
    | off role left =>
        refine .off role ⟨left.state, ?_, by simp⟩
        rintro (calls | same)
        · simp [follows] at calls
        · cases same
    | leading role leads =>
        -- Only a party that leads and has nothing to offer is idle.
        have idle : signal = .idle := by
          rcases asked with ⟨width, rfl⟩ | rfl | rfl
          · have := agree.heard _ rfl
            simp [role, Signal.Fits] at this
          · rfl
          · have := agree.heard _ rfl
            simp [role, Signal.Fits] at this
        subst idle
        have offer := leads.idle rfl
        refine .leading role ⟨by simp, by simp, leads.differs, ?_, ?_⟩
        · exact fun stopping => absurd rfl (leads.stopping stopping).2.1
        · rcases leads.state with ⟨fresh, -⟩ | ⟨⟨tag, items, delivered⟩, -⟩
          · exact .inl ⟨fresh, fun some => absurd offer some⟩
          · rw [delivered.offers] at offer
            cases offer
    | waiting role untouched => exact .waiting role untouched
    | listening role settled => exact .listening role settled

/-- A party that follows passes a block on. -/
theorem Agree.passesOn {tag : τ} {items : List α}
    (agree : Agree odd party other mine (some (.block tag items)))
    (follows : party.role = .following) (new : party.seen ≠ some tag) :
    Agree odd
      { party with
        passed := party.passed ++ items
        seen := some tag
        answered := some tag } other (some .ack) none := by
  have sent : other.role = .off ∨ other.role = .leading := agree.heard _ rfl
  apply Agree.of_signal
  · exact agree.roles
  · exact .inr follows
  · simp
  · exact .listening (.inr (.inr follows))
      (agree.toward.settled (by simp [follows]) (by simp [follows]))
  · obtain ⟨offers, -, fresh | delivered⟩ := agree.back.offered sent
    · refine agree.back.accepted sent ⟨offers, ?_, ?_, fun _ => rfl, fun _ => rfl⟩ follows
      · rw [← fresh.settled]
      · simp [follows]
    · exact absurd (delivered.seen follows) new

/-- A party that follows accepts a block again. -/
theorem Agree.accepts {tag : τ} {items : List α}
    (agree : Agree odd party other mine (some (.block tag items)))
    (follows : party.role = .following)
    (old : party.seen = some tag ∨ party.answered = some tag) :
    party.answered = some tag ∧ Agree odd party other (some .ack) none := by
  have sent : other.role = .off ∨ other.role = .leading := agree.heard _ rfl
  obtain ⟨offers, differs, fresh | delivered⟩ := agree.back.offered sent
  · rcases old with seen | answered
    · exact absurd (fresh.seen follows tag seen) differs
    · exact absurd (fresh.answered follows tag answered) differs
  · refine ⟨delivered.answered follows, ?_⟩
    apply Agree.of_signal agree.roles
    · exact .inr follows
    · simp
    · exact agree.toward.hushed.said (by simp) (by simp)
    · exact agree.back.accepted sent delivered follows

/-- A party that follows cannot read a block. -/
theorem Agree.rejects {tag : τ} {items : List α}
    (agree : Agree odd party other mine (some (.block tag items)))
    (follows : party.role = .following) (new : party.answered ≠ some tag) :
    Agree odd party other (some .nak) none := by
  have sent : other.role = .off ∨ other.role = .leading := agree.heard _ rfl
  obtain ⟨-, -, fresh | delivered⟩ := agree.back.offered sent
  · apply Agree.of_signal agree.roles
    · exact .inr follows
    · simp
    · exact agree.toward.hushed.said (by simp) (by simp)
    · exact agree.back.refused sent fresh (by simp)
  · exact absurd (delivered.answered follows) new

/-- A party that follows asks for the lead when nothing is offered to it that it
has passed on. -/
theorem Agree.asks (agree : Agree odd party other mine yours)
    (follows : party.role = .following)
    (waits : other.role = .off ∨ other.role = .confirming ∨ other.role = .leading)
    (settled : other.role = .leading → party.passed = other.confirmed) :
    Agree odd { party with role := .turning, answered := none } other (some .turn)
      none := by
  apply Agree.of_signal
  · rcases waits with off | confirms | leads
    · exact .inr (.inl off)
    · exact .inr (.inr (.inr (by rw [confirms]; trivial)))
    · exact .inr (.inr (.inr (by rw [leads]; trivial)))
  · exact .inr rfl
  · simp
  · refine .waiting (.inr rfl)
      ⟨agree.toward.settled (by simp [follows]) (by simp [follows]), ?_, ?_⟩
    · intro role
      simp [role] at waits
    · intro role
      simp [role] at waits
  · cases agree.back with
    | off role left => exact .off role ⟨left.state, by simp, by simp⟩
    | leading role leads =>
        refine .leading role ⟨by simp, by simp, leads.differs, by simp, .inl ⟨?_, by simp⟩⟩
        exact ⟨settled role, by simp, by simp⟩
    | waiting role untouched =>
        exact .waiting role ⟨untouched.settled, by simp, by simp⟩
    | listening role settled => exact .listening role settled

theorem Agree.turns (agree : Agree odd party other mine (some signal))
    (follows : party.role = .following)
    (asked : signal = .call ∨ (∃ width, signal = .connect width) ∨ signal = .idle) :
    Agree odd { party with role := .turning, answered := none } other (some .turn)
      none := by
  have roles := agree.roles
  have spoken := agree.heard _ rfl
  apply agree.asks follows
  · cases role : other.role <;> simp [follows, role, Role.Matches] at roles ⊢
    rcases asked with rfl | ⟨width, rfl⟩ | rfl <;> simp [role, Signal.Fits] at spoken
  · intro role
    cases agree.back with
    | leading _ leads =>
        rcases asked with rfl | ⟨width, rfl⟩ | rfl <;> simp [role, Signal.Fits] at spoken
        rcases leads.state with ⟨fresh, -⟩ | ⟨⟨tag, items, delivered⟩, -⟩
        · exact fresh.settled
        · have := delivered.offers.symm.trans (leads.idle rfl)
          cases this
    | off off left => simp [off] at role
    | waiting waits untouched => exact untouched.settled
    | listening _ settled => exact settled

theorem Agree.interrupts {tag : τ} {items : List α}
    (agree : Agree odd party other mine (some (.block tag items)))
    (follows : party.role = .following) (new : party.answered ≠ some tag) :
    Agree odd { party with role := .turning, answered := none } other (some .turn)
      none := by
  have sent : other.role = .off ∨ other.role = .leading := agree.heard _ rfl
  apply agree.asks follows (sent.imp_right .inr)
  intro _
  obtain ⟨-, -, fresh | delivered⟩ := agree.back.offered sent
  · exact fresh.settled
  · exact absurd (delivered.answered follows) new

/-- A party that has asked for the lead asks again. -/
theorem Agree.insists (agree : Agree odd party other mine yours)
    (turning : party.role = .turning) : Agree odd party other (some .turn) none := by
  apply Agree.of_signal agree.roles
  · exact .inr turning
  · simp
  · exact agree.toward.hushed.said (by simp) (by simp)
  · apply agree.back.hushed.told <;> simp [turning]

/-- A party that has asked for the lead is given it. -/
theorem Agree.takesOver (agree : Agree odd party other mine (some .ack))
    (turning : party.role = .turning)
    (sends : Sends odd { party with role := .leading, seen := none, offer := none } next
      played) : Agree odd next other played none := by
  have yields : other.role = .off ∨ other.role = .following := agree.heard _ rfl
  refine sends.agree rfl ?_ rfl ?_ ?_
  · exact yields.imp_right .inl
  · exact (agree.toward.untouched (.inr turning)).fresh rfl
  · exact agree.back.hushed.alike (.of_role rfl (.inr (.inr (.inl rfl))))

/-- A party that has been answered leads. -/
theorem Agree.starts (agree : Agree odd party other mine (some signal))
    (confirms : party.role = .confirming) (asked : signal = .ack ∨ signal = .turn)
    (sends : Sends odd { party with role := .leading, parity := true, offer := none }
      next played) : Agree odd next other played none := by
  have spoken := agree.heard _ rfl
  refine sends.agree rfl ?_ rfl ?_ ?_
  · rcases asked with rfl | rfl
    · exact spoken.imp_right .inl
    · exact spoken.imp_right .inr
  · exact (agree.toward.untouched (.inl confirms)).fresh rfl
  · exact agree.back.hushed.alike (.of_role rfl (.inr (.inr (.inl rfl))))

/-- A party that leads gives the lead to the other. -/
theorem Agree.yields (agree : Agree odd party other mine (some .turn)) (parity : Bool)
    (leads : party.role = .leading ∨ party.role = .confirming) :
    Agree odd
      { party with
        role := .following
        seen := none
        answered := none
        offer := none
        parity := parity } other (some .ack) none := by
  have turning : other.role = .off ∨ other.role = .turning := agree.heard _ rfl
  apply Agree.of_signal
  · exact .inr (turning.imp_right fun turning => .inr (by rw [turning]; trivial))
  · exact .inr rfl
  · simp
  · refine .listening (.inr (.inr rfl)) ?_
    cases agree.toward with
    | off role _ => simp [role] at leads
    | leading _ leads =>
        rcases leads.state with ⟨fresh, -⟩ | ⟨-, -, noTurn⟩
        · exact fresh.settled
        · exact absurd rfl noTurn
    | waiting _ untouched => exact untouched.settled
    | listening _ settled => exact settled
  · cases agree.back with
    | off role left => exact .off role ⟨left.state, by simp, by simp⟩
    | leading role _ => simp [role] at turning
    | waiting role untouched =>
        exact .waiting role ⟨untouched.settled, fun _ => rfl, fun _ => rfl⟩
    | listening role settled => exact .listening role settled

/-- A party that leads and has nothing offered goes on. -/
theorem Agree.wakes (agree : Agree odd party other mine (some .ack))
    (leads : party.role = .leading) (idle : party.offer = none)
    (sends : Sends odd party next played) : Agree odd next other played none := by
  have follows : other.role = .off ∨ other.role = .following := agree.heard _ rfl
  refine sends.agree leads (follows.imp_right .inl) idle ?_ agree.back.hushed
  rcases (agree.toward.leads leads).state with ⟨fresh, -⟩ | ⟨⟨tag, items, delivered⟩, -⟩
  · exact fresh
  · have := delivered.offers.symm.trans idle
    cases this

/-- The block of a party that leads is accepted. -/
theorem Agree.advances {tag : τ} {items : List α}
    (agree : Agree odd party other mine (some .ack)) (leads : party.role = .leading)
    (offers : party.offer = some (tag, items))
    (sends : Sends odd
      { party with
        confirmed := party.confirmed ++ items
        parity := odd tag
        offer := none } next played) : Agree odd next other played none := by
  have follows : other.role = .off ∨ other.role = .following := agree.heard _ rfl
  refine sends.agree leads (follows.imp_right .inl) rfl ?_ ?_
  · rcases (agree.toward.leads leads).state with
      ⟨-, noAck⟩ | ⟨⟨tag', items', delivered⟩, -⟩
    · exact absurd rfl (noAck (by simp [offers]))
    · obtain ⟨rfl, rfl⟩ : tag = tag' ∧ items = items' := by
        simpa using offers.symm.trans delivered.offers
      refine ⟨delivered.passed, ?_, ?_⟩
      · intro follows tag' same
        rw [delivered.seen follows] at same
        obtain rfl := Option.some.inj same
        rfl
      · intro follows tag' same
        rw [delivered.answered follows] at same
        obtain rfl := Option.some.inj same
        rfl
  · exact agree.back.hushed.alike (.of_role rfl (.inr (.inr (.inl leads))))

/-- The block of a party that leads could not be read, and it offers another in
its place. -/
theorem Agree.reoffers {tag : τ} {items : List α}
    (agree : Agree odd party other mine (some .nak)) (leads : party.role = .leading)
    (awake : party.stopping = false) (differs : odd tag ≠ party.parity) :
    Agree odd { party with offer := some (tag, items) } other (some (.block tag items))
      none := by
  have follows : other.role = .off ∨ other.role = .following := agree.heard _ rfl
  have fresh : Fresh odd party other := by
    rcases (agree.toward.leads leads).state with ⟨fresh, -⟩ | ⟨-, noNak, -⟩
    · exact fresh
    · exact absurd rfl noNak
  have sends : Sends odd { party with offer := none } _ _ := .block items awake differs
  refine sends.agree leads (follows.imp_right .inl) rfl ?_ ?_
  · exact ⟨fresh.settled, fresh.seen, fresh.answered⟩
  · exact agree.back.hushed.alike (.of_role rfl (.inr (.inr (.inl leads))))

/-- A party repeats its signal. -/
theorem Agree.repeats (agree : Agree odd party other mine yours)
    (awake : party.stopping = false) (current : Current party signal) :
    Agree odd party other (some signal) none := by
  have roles := agree.roles
  have toward := agree.toward.hushed
  have back := agree.back.hushed
  cases current with
  | call calls =>
      apply Agree.of_signal roles
      · exact .inr calls
      · cases role : other.role <;> simp [calls, role, Role.Matches] at roles ⊢
      · exact toward.said (by simp) (by simp)
      · apply back.told <;> simp [calls]
  | confirm confirms =>
      apply Agree.of_signal roles
      · exact .inr (.inr confirms)
      · simp
      · exact toward.said (by simp) (by simp)
      · apply back.told <;> simp
  | turn turning => exact agree.insists turning
  | block leads offers =>
      apply Agree.of_signal roles
      · exact .inr leads
      · simp
      · have same := toward.leads leads
        refine .leading leads ⟨?_, by simp, same.differs, by simp [awake], same.state⟩
        rintro _ _ ⟨⟩
        exact offers
      · apply back.told <;> simp
  | idle leads idle =>
      apply Agree.of_signal roles
      · exact .inr leads
      · simp
      · have same := toward.leads leads
        exact .leading leads
          ⟨by simp, fun _ => idle, same.differs, by simp [awake], same.state⟩
      · apply back.told <;> simp

/-- What a party leaves that gives up. -/
theorem Agree.left (agree : Agree odd party other mine yours) :
    Left odd party other mine yours := by
  have noBlock {role : Role} (same : party.role = role) (notOff : role ≠ .off)
      (notLeading : role ≠ .leading) (tag : τ) (items : List α)
      (sent : mine = some (.block tag items)) : False := by
    rcases agree.spoken _ sent with off | leads
    · exact notOff (same.symm.trans off)
    · exact notLeading (same.symm.trans leads)
  cases agree.toward with
  | off role left => exact left
  | leading role leads =>
      refine ⟨?_, ?_, ?_⟩
      · rcases leads.state with ⟨fresh, -⟩ | ⟨⟨tag, items, delivered⟩, -⟩
        · exact .inl fresh.settled
        · exact .inr ⟨tag, items, delivered.offers, delivered.passed⟩
      · rintro (calls | called)
        · have roles := agree.roles
          simp [role, calls, Role.Matches] at roles
        · have called := agree.called called
          simp [role] at called
      · rintro tag items rfl
        exact agree.toward.offered (.inr role)
  | waiting role untouched =>
      refine ⟨.inl untouched.settled, fun _ => untouched.settled, ?_⟩
      intro tag items sent
      rcases role with role | role
      · exact (noBlock role (by simp) (by simp) tag items sent).elim
      · exact (noBlock role (by simp) (by simp) tag items sent).elim
  | listening role settled =>
      refine ⟨.inl settled, fun _ => settled, ?_⟩
      intro tag items sent
      rcases role with role | role | role
      · exact (noBlock role (by simp) (by simp) tag items sent).elim
      · exact (noBlock role (by simp) (by simp) tag items sent).elim
      · exact (noBlock role (by simp) (by simp) tag items sent).elim

/-- A party gives up. -/
theorem Agree.ends (agree : Agree odd party other mine yours) (stopping : Bool)
    (answered : Option τ) (width : β) :
    Agree odd
      { party with
        role := .off
        stopping := stopping
        answered := answered
        width := width } other mine yours where
  roles := .inl rfl
  spoken _ _ := .inl rfl
  heard := agree.heard
  calls := agree.calls
  called _ := .inl rfl
  back := agree.back.alike (.of_role rfl (.inl rfl))
  toward := by
    have left := agree.left
    refine .off rfl ⟨left.state, left.called, ?_⟩
    intro tag items sent
    obtain ⟨offers, differs, fresh | delivered⟩ := left.block tag items sent
    · exact ⟨offers, differs, .inl ⟨fresh.settled, fresh.seen, fresh.answered⟩⟩
    · exact ⟨offers, differs, .inr ⟨delivered.offers, delivered.passed, delivered.stays,
        delivered.seen, delivered.answered⟩⟩

theorem Agree.acts (agree : Agree odd party other mine yours)
    (acts : Acts odd party heard next played)
    (hears : ∀ signal, heard = some signal → yours = some signal) :
    Agree odd next other (nextMine mine heard played) (nextYours yours heard played) := by
  cases acts with
  | ignores heard =>
      cases heard with
      | none => exact agree
      | some signal => exact agree.hushed
  | repeats awake current => exact agree.repeats awake current
  | stops heard => exact agree.stops
  | ends heard stopping answered width quiet =>
      have ends : Agree odd
          { party with
            role := .off
            stopping := stopping
            answered := answered
            width := width } other mine yours := agree.ends stopping answered width
      rcases quiet with rfl | rfl
      · cases heard with
        | none => exact ends
        | some signal => exact ends.hushed
      · apply Agree.of_signal (.inl rfl) (.inl rfl) (by simp)
        · exact ends.toward.hushed.said (by simp) (by simp)
        · apply ends.back.hushed.told <;> simp
  | answers width reply waits =>
      exact Agree.answers (hears _ rfl ▸ agree) width reply waits
  | refuses waits =>
      apply Agree.of_signal agree.roles
      · exact waits
      · simp
      · exact agree.toward.hushed.said (by simp) (by simp)
      · apply agree.back.hushed.told <;> simp
  | isAnswered width calls => exact Agree.isAnswered (hears _ rfl ▸ agree) calls
  | joins width waits => exact Agree.joins (hears _ rfl ▸ agree) waits
  | joinsAgain width follows =>
      exact Agree.agrees (hears _ rfl ▸ agree) follows width (.inl ⟨width, rfl⟩)
  | agrees follows asked =>
      exact Agree.agrees (hears _ rfl ▸ agree) follows party.width (.inr asked)
  | passesOn follows new => exact Agree.passesOn (hears _ rfl ▸ agree) follows new
  | discards items follows old => 
      obtain ⟨answered, agrees⟩ := Agree.accepts (hears _ rfl ▸ agree) follows (.inl old)
      rw [← answered]
      exact agrees
  | acceptsAgain items follows old =>
      exact (Agree.accepts (hears _ rfl ▸ agree) follows (.inr old)).2
  | rejects items follows new => exact Agree.rejects (hears _ rfl ▸ agree) follows new
  | turns follows asked => exact Agree.turns (hears _ rfl ▸ agree) follows asked
  | interrupts items follows new =>
      exact Agree.interrupts (hears _ rfl ▸ agree) follows new
  | insists tag items turning => exact agree.insists turning
  | takesOver turning sends =>
      rw [nextMine_some, nextYours_some]
      exact Agree.takesOver (hears _ rfl ▸ agree) turning sends
  | starts confirms asked sends =>
      rw [nextMine_some, nextYours_some]
      exact Agree.starts (hears _ rfl ▸ agree) confirms asked sends
  | yields parity leads => exact Agree.yields (hears _ rfl ▸ agree) parity leads
  | wakes leads idle sends =>
      rw [nextMine_some, nextYours_some]
      exact Agree.wakes (hears _ rfl ▸ agree) leads idle sends
  | advances leads offers sends =>
      rw [nextMine_some, nextYours_some]
      exact Agree.advances (hears _ rfl ▸ agree) leads offers sends
  | reoffers items leads awake offers differs =>
      exact Agree.reoffers (hears _ rfl ▸ agree) leads awake differs
  | isOpen next played leads stopping =>
      -- No signal that says so is on the link.
      exact absurd (hears _ rfl) ((agree.toward.leads leads).stopping stopping).1

/-- One party calls or is off, and the other is off. -/
theorem Agree.start (calls : party.role = .calling ∨ party.role = .off)
    (off : other.role = .off) (sent : mine = none ∨ mine = some .call ∧
      party.role = .calling) (settled : other.passed = party.confirmed)
    (back : party.passed = other.confirmed) : Agree odd party other mine none where
  roles := .inr (.inl off)
  spoken := by
    rintro signal same
    rcases sent with none | ⟨call, role⟩
    · rw [none] at same
      cases same
    · obtain rfl := Option.some.inj (call.symm.trans same)
      exact .inr role
  heard := by simp
  calls _ := .inl off
  called := by simp
  toward := by
    rcases calls with role | role
    · exact .listening (.inl role) settled
    · refine .off role ⟨.inl settled, fun _ => settled, ?_⟩
      rintro tag items same
      rcases sent with none | ⟨call, -⟩
      · rw [none] at same
        cases same
      · rw [call] at same
        cases same
  back := .off off ⟨.inl back, fun _ => back, by simp⟩

/-- At most one of the parties calls or leads. -/
theorem Agree.one_leads (agree : Agree odd party other mine yours) :
    ¬((party.role = .calling ∨ party.role = .confirming ∨ party.role = .leading) ∧
      (other.role = .calling ∨ other.role = .confirming ∨ other.role = .leading)) := by
  rintro ⟨first, second⟩
  have roles := agree.roles
  rcases first with first | first | first <;> rcases second with second | second | second <;>
    simp [first, second, Role.Matches] at roles

/-- What the other has passed on are the blocks that it has accepted, and at most
the one besides that waits for its answer. -/
theorem Agree.passed (agree : Agree odd party other mine yours) :
    other.passed = party.confirmed ∨
      ∃ tag items, party.offer = some (tag, items) ∧
        other.passed = party.confirmed ++ items :=
  agree.left.state

end Agree

end Party

end Foundation
end Hamchat
