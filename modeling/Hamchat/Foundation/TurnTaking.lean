import Mathlib.Data.List.Basic

/-!
# Taking turns on a link that loses signals

Two parties share a link that carries one signal at a time and may lose it.  One
of them calls.  Then one leads and offers blocks of items, and the other follows
and answers.  A tag that comes with a block says whether its parity is that of
the block before it, so a block that is repeated is passed on once.  The party
that follows may ask for the lead.

A party is described by what it may do on its own.  The invariant of two parties
and the signal between them is kept by everything that either may do.
-/

namespace Hamchat
namespace Foundation

/-- What a party is doing. -/
inductive Role where
  | off
  | calling
  | confirming
  | leading
  | answering
  | following
  | turning
  deriving DecidableEq

/-- A signal on the link.  The tags are of type `τ`, the widths of a connection of
type `β` and the items of type `α`. -/
inductive Signal (τ β α : Type) where
  | call
  | connect (width : β)
  | refuse
  | block (tag : τ) (items : List α)
  | idle
  | ack
  | nak
  | turn
  | stop

/-- A party, with the items that it has passed on and those of its own that have
been accepted. -/
structure Party (τ β α : Type) where
  role : Role
  /-- It has asked the other to stop. -/
  stopping : Bool
  /-- The block that waits for an answer. -/
  offer : Option (τ × List α)
  /-- The parity of its last block that was accepted. -/
  parity : Bool
  /-- The tag of the last block that it has passed on. -/
  seen : Option τ
  /-- The tag of the last block that it has accepted. -/
  answered : Option τ
  /-- The width of the connection. -/
  width : β
  confirmed : List α
  passed : List α

variable {τ β α : Type} (odd : τ → Bool)

namespace Party

/-- The signal that a party may repeat. -/
inductive Current : Party τ β α → Signal τ β α → Prop
  | call {party : Party τ β α} (calls : party.role = .calling) : Current party .call
  | confirm {party : Party τ β α} (confirms : party.role = .confirming) :
      Current party (.connect party.width)
  | block {party : Party τ β α} {tag : τ} {items : List α}
      (leads : party.role = .leading) (offers : party.offer = some (tag, items)) :
      Current party (.block tag items)
  | idle {party : Party τ β α} (leads : party.role = .leading)
      (idle : party.offer = none) : Current party .idle
  | turn {party : Party τ β α} (turning : party.role = .turning) : Current party .turn

/-- What a party does that leads and has nothing offered. -/
inductive Sends : Party τ β α → Party τ β α → Option (Signal τ β α) → Prop
  | silent {party : Party τ β α} (stopping : party.stopping = true) :
      Sends party party none
  | stop {party : Party τ β α} :
      Sends party { party with stopping := true } (some .stop)
  | block {party : Party τ β α} {tag : τ} (items : List α)
      (awake : party.stopping = false) (differs : odd tag ≠ party.parity) :
      Sends party { party with offer := some (tag, items) } (some (.block tag items))
  | idle {party : Party τ β α} (awake : party.stopping = false) :
      Sends party party (some .idle)

/-- What a party may do at a signal that it hears, or on its own.  What it does
that has asked to stop and is told that a block of its own is accepted is left
open. -/
inductive Acts : Party τ β α → Option (Signal τ β α) → Party τ β α →
    Option (Signal τ β α) → Prop
  | ignores {party : Party τ β α} (heard : Option (Signal τ β α)) :
      Acts party heard party none
  | repeats {party : Party τ β α} {signal : Signal τ β α}
      (awake : party.stopping = false) (current : Current party signal) :
      Acts party none party (some signal)
  | stops {party : Party τ β α} (heard : Option (Signal τ β α)) :
      Acts party heard { party with stopping := true } (some .stop)
  | ends {party : Party τ β α} (heard : Option (Signal τ β α)) (stopping : Bool)
      (answered : Option τ) (width : β) {played : Option (Signal τ β α)}
      (quiet : played = none ∨ played = some .stop) :
      Acts party heard
        { party with
          role := .off
          stopping := stopping
          answered := answered
          width := width } played
  | answers {party : Party τ β α} (width reply : β)
      (waits : party.role = .off ∨ party.role = .answering) :
      Acts party (some .call)
        { party with
          role := .answering
          seen := none
          answered := none
          width := width
          offer := none } (some (.connect reply))
  | refuses {party : Party τ β α} (waits : party.role = .off ∨ party.role = .answering) :
      Acts party (some .call) party (some .refuse)
  | isAnswered {party : Party τ β α} (width : β) (calls : party.role = .calling) :
      Acts party (some (.connect width)) { party with role := .confirming, width := width }
        (some (.connect width))
  | joins {party : Party τ β α} (width : β) (waits : party.role = .answering) :
      Acts party (some (.connect width))
        { party with
          role := .following
          seen := none
          answered := none
          width := width } (some .ack)
  | joinsAgain {party : Party τ β α} (width : β) (follows : party.role = .following) :
      Acts party (some (.connect width)) { party with width := width } (some .ack)
  | agrees {party : Party τ β α} {signal : Signal τ β α} (follows : party.role = .following)
      (asked : signal = .idle ∨ signal = .turn) :
      Acts party (some signal) party (some .ack)
  | passesOn {party : Party τ β α} {tag : τ} {items : List α}
      (follows : party.role = .following) (new : party.seen ≠ some tag) :
      Acts party (some (.block tag items))
        { party with
          passed := party.passed ++ items
          seen := some tag
          answered := some tag } (some .ack)
  | discards {party : Party τ β α} {tag : τ} (items : List α)
      (follows : party.role = .following) (old : party.seen = some tag) :
      Acts party (some (.block tag items)) { party with answered := some tag }
        (some .ack)
  | acceptsAgain {party : Party τ β α} {tag : τ} (items : List α)
      (follows : party.role = .following) (old : party.answered = some tag) :
      Acts party (some (.block tag items)) party (some .ack)
  | rejects {party : Party τ β α} {tag : τ} (items : List α)
      (follows : party.role = .following) (new : party.answered ≠ some tag) :
      Acts party (some (.block tag items)) party (some .nak)
  | turns {party : Party τ β α} {signal : Signal τ β α} (follows : party.role = .following)
      (asked : signal = .call ∨ (∃ width, signal = .connect width) ∨ signal = .idle) :
      Acts party (some signal) { party with role := .turning, answered := none }
        (some .turn)
  | interrupts {party : Party τ β α} {tag : τ} (items : List α)
      (follows : party.role = .following) (new : party.answered ≠ some tag) :
      Acts party (some (.block tag items))
        { party with role := .turning, answered := none } (some .turn)
  | insists {party : Party τ β α} (tag : τ) (items : List α)
      (turning : party.role = .turning) :
      Acts party (some (.block tag items)) party (some .turn)
  | takesOver {party next : Party τ β α} {played : Option (Signal τ β α)}
      (turning : party.role = .turning)
      (sends : Sends odd
        { party with role := .leading, seen := none, offer := none } next played) :
      Acts party (some .ack) next played
  | starts {party next : Party τ β α} {signal : Signal τ β α}
      {played : Option (Signal τ β α)} (confirms : party.role = .confirming)
      (asked : signal = .ack ∨ signal = .turn)
      (sends : Sends odd
        { party with role := .leading, parity := true, offer := none } next played) :
      Acts party (some signal) next played
  | yields {party : Party τ β α} (parity : Bool)
      (leads : party.role = .leading ∨ party.role = .confirming) :
      Acts party (some .turn)
        { party with
          role := .following
          seen := none
          answered := none
          offer := none
          parity := parity } (some .ack)
  | wakes {party next : Party τ β α} {played : Option (Signal τ β α)}
      (leads : party.role = .leading) (idle : party.offer = none)
      (sends : Sends odd party next played) :
      Acts party (some .ack) next played
  | advances {party next : Party τ β α} {tag : τ} {items : List α}
      {played : Option (Signal τ β α)} (leads : party.role = .leading)
      (offers : party.offer = some (tag, items))
      (sends : Sends odd
        { party with
          confirmed := party.confirmed ++ items
          parity := odd tag
          offer := none } next played) :
      Acts party (some .ack) next played
  | reoffers {party : Party τ β α} {tag : τ} (items : List α)
      (leads : party.role = .leading) (awake : party.stopping = false)
      (offers : party.offer ≠ none) (differs : odd tag ≠ party.parity) :
      Acts party (some .nak) { party with offer := some (tag, items) }
        (some (.block tag items))
  | isOpen {party : Party τ β α} (next : Party τ β α) (played : Option (Signal τ β α))
      (leads : party.role = .leading) (stopping : party.stopping = true) :
      Acts party (some .ack) next played

end Party

/-! ## The invariant -/

/-- The roles that two parties may have at the same time, if neither is off. -/
def Role.Matches : Role → Role → Prop
  | .calling, .answering => True
  | .confirming, .answering => True
  | .confirming, .following => True
  | .confirming, .turning => True
  | .leading, .following => True
  | .leading, .turning => True
  | .turning, .following => True
  | _, _ => False

/-- The role of a party that has sent a signal and is not off. -/
def Signal.Fits : Signal τ β α → Role → Prop
  | .call, role => role = .calling
  | .connect _, role => role = .answering ∨ role = .confirming
  | .refuse, role => role = .answering
  | .block _ _, role => role = .leading
  | .idle, role => role = .leading
  | .ack, role => role = .following
  | .nak, role => role = .following
  | .turn, role => role = .turning
  | .stop, _ => True

namespace Party

/-- The other has not passed on what is offered to it. -/
structure Fresh (party other : Party τ β α) : Prop where
  settled : other.passed = party.confirmed
  seen : other.role = .following →
    ∀ tag, other.seen = some tag → odd tag = party.parity
  answered : other.role = .following →
    ∀ tag, other.answered = some tag → odd tag = party.parity

/-- The other has passed on what is offered to it. -/
structure Delivered (party other : Party τ β α) (tag : τ) (items : List α) : Prop where
  offers : party.offer = some (tag, items)
  passed : other.passed = party.confirmed ++ items
  stays : other.role ≠ .turning
  seen : other.role = .following → other.seen = some tag
  answered : other.role = .following → other.answered = some tag

/-- The other has passed on nothing since it follows. -/
structure Untouched (party other : Party τ β α) : Prop where
  settled : other.passed = party.confirmed
  seen : other.role = .following → other.seen = none
  answered : other.role = .following → other.answered = none

/-- What is between a party that leads and the other.  `mine` is the signal of
the party that is on the link, `yours` that of the other. -/
structure Leads (party other : Party τ β α) (mine yours : Option (Signal τ β α)) : Prop where
  block : ∀ tag items, mine = some (.block tag items) →
    party.offer = some (tag, items)
  idle : mine = some .idle → party.offer = none
  differs : ∀ tag items, party.offer = some (tag, items) → odd tag ≠ party.parity
  stopping : party.stopping = true →
    yours ≠ some .ack ∧ mine ≠ some .idle ∧ ∀ tag items, mine ≠ some (.block tag items)
  state : Fresh odd party other ∧ (party.offer ≠ none → yours ≠ some .ack) ∨
    (∃ tag items, Delivered party other tag items) ∧ yours ≠ some .nak ∧
      yours ≠ some .turn

/-- What is between a party that is off and the other. -/
structure Left (party other : Party τ β α) (mine yours : Option (Signal τ β α)) : Prop where
  state : other.passed = party.confirmed ∨
    ∃ tag items, party.offer = some (tag, items) ∧
      other.passed = party.confirmed ++ items
  called : other.role = .calling ∨ yours = some .call → other.passed = party.confirmed
  block : ∀ tag items, mine = some (.block tag items) →
    party.offer = some (tag, items) ∧ odd tag ≠ party.parity ∧
      (Fresh odd party other ∨ Delivered party other tag items)

/-- What is between a party and the other about the items of the party. -/
inductive Toward (party other : Party τ β α) (mine yours : Option (Signal τ β α)) : Prop
  | off (role : party.role = .off) (left : Left odd party other mine yours)
  | leading (role : party.role = .leading) (leads : Leads odd party other mine yours)
  | waiting (role : party.role = .confirming ∨ party.role = .turning)
      (untouched : Untouched party other)
  | listening (role : party.role = .calling ∨ party.role = .answering ∨
        party.role = .following)
      (settled : other.passed = party.confirmed)

/-- The invariant of two parties and the link between them. -/
structure Agree (party other : Party τ β α) (mine yours : Option (Signal τ β α)) : Prop where
  roles : party.role = .off ∨ other.role = .off ∨ party.role.Matches other.role ∨
    other.role.Matches party.role
  spoken : ∀ signal, mine = some signal → party.role = .off ∨ signal.Fits party.role
  heard : ∀ signal, yours = some signal → other.role = .off ∨ signal.Fits other.role
  calls : mine = some .call → other.role = .off ∨ other.role = .answering
  called : yours = some .call → party.role = .off ∨ party.role = .answering
  toward : Toward odd party other mine yours
  back : Toward odd other party yours mine

theorem Agree.symm {party other : Party τ β α} {mine yours : Option (Signal τ β α)}
    (agree : Agree odd party other mine yours) : Agree odd other party yours mine where
  roles := by have := agree.roles; tauto
  spoken := agree.heard
  heard := agree.spoken
  calls := agree.called
  called := agree.calls
  toward := agree.back
  back := agree.toward

/-- A party that has had nothing passed on yet offers something new. -/
theorem Untouched.fresh {odd : τ → Bool} {party base other : Party τ β α}
    (untouched : Untouched party other) (confirmed : base.confirmed = party.confirmed) :
    Fresh odd base other where
  settled := untouched.settled.trans confirmed.symm
  seen follows tag same := by
    rw [untouched.seen follows] at same
    cases same
  answered follows tag same := by
    rw [untouched.answered follows] at same
    cases same

section Toward

variable {odd} {party other next : Party τ β α} {mine yours : Option (Signal τ β α)}
variable {signal : Signal τ β α}

/-- A signal that has been heard or is lost. -/
theorem Toward.hushed (toward : Toward odd party other mine yours) :
    Toward odd party other none none := by
  cases toward with
  | off role left =>
      refine .off role ⟨left.state, fun called => left.called ?_, by simp⟩
      exact .inl (called.resolve_right (by simp))
  | leading role leads =>
      refine .leading role ⟨by simp, by simp, leads.differs, by simp, ?_⟩
      rcases leads.state with ⟨fresh, -⟩ | ⟨delivered, -⟩
      · exact .inl ⟨fresh, by simp⟩
      · exact .inr ⟨delivered, by simp, by simp⟩
  | waiting role untouched => exact .waiting role untouched
  | listening role settled => exact .listening role settled

/-- The party sends something that is no offer. -/
theorem Toward.said (toward : Toward odd party other none none)
    (noBlock : ∀ tag items, signal ≠ .block tag items) (noIdle : signal ≠ .idle) :
    Toward odd party other (some signal) none := by
  cases toward with
  | off role left =>
      exact .off role ⟨left.state, left.called, by simp [noBlock]⟩
  | leading role leads =>
      refine .leading role ⟨by simp [noBlock], by simp [noIdle], leads.differs, ?_,
        leads.state⟩
      exact fun _ => ⟨by simp, by simp [noIdle], by simp [noBlock]⟩
  | waiting role untouched => exact .waiting role untouched
  | listening role settled => exact .listening role settled

/-- The other sends something that is no answer. -/
theorem Toward.told (toward : Toward odd party other none none)
    (noAck : signal ≠ .ack) (noNak : signal ≠ .nak)
    (turns : signal = .turn → other.role = .turning)
    (calls : signal = .call → other.role = .calling) :
    Toward odd party other none (some signal) := by
  cases toward with
  | off role left =>
      refine .off role ⟨left.state, fun called => left.called (.inl ?_), left.block⟩
      exact called.elim id fun same => calls (Option.some.inj same)
  | leading role leads =>
      refine .leading role ⟨leads.block, leads.idle, leads.differs, ?_, ?_⟩
      · exact fun _ => ⟨by simpa using noAck, by simp, by simp⟩
      · rcases leads.state with ⟨fresh, -⟩ | ⟨⟨tag, items, delivered⟩, -⟩
        · exact .inl ⟨fresh, fun _ => by simpa using noAck⟩
        · refine .inr ⟨⟨tag, items, delivered⟩, by simpa using noNak, ?_⟩
          exact fun same => delivered.stays (turns (Option.some.inj same))
  | waiting role untouched => exact .waiting role untouched
  | listening role settled => exact .listening role settled

/-- A party that is neither off nor leading offers nothing. -/
theorem Toward.settled (toward : Toward odd party other mine yours)
    (role : party.role ≠ .off) (notLeading : party.role ≠ .leading) :
    other.passed = party.confirmed := by
  cases toward with
  | off off _ => exact absurd off role
  | leading leading _ => exact absurd leading notLeading
  | waiting _ untouched => exact untouched.settled
  | listening _ settled => exact settled

theorem Toward.leads (toward : Toward odd party other mine yours)
    (role : party.role = .leading) : Leads odd party other mine yours := by
  cases toward with
  | leading _ leads => exact leads
  | off same _ => simp [role] at same
  | waiting same _ => simp [role] at same
  | listening same _ => simp [role] at same

theorem Toward.untouched (toward : Toward odd party other mine yours)
    (role : party.role = .confirming ∨ party.role = .turning) :
    Untouched party other := by
  cases toward with
  | waiting _ untouched => exact untouched
  | off same _ => simp [same] at role
  | leading same _ => simp [same] at role
  | listening same _ =>
      rcases role with role | role
      · simp [role] at same
      · simp [role] at same

/-- The party asks the other to stop. -/
theorem Toward.stopped (toward : Toward odd party other none none) :
    Toward odd { party with stopping := true } other none none := by
  cases toward with
  | off role left =>
      refine .off role ⟨left.state, left.called, by simp⟩
  | leading role leads =>
      refine .leading role ⟨by simp, by simp, leads.differs, by simp, ?_⟩
      rcases leads.state with ⟨fresh, -⟩ | ⟨⟨tag, items, delivered⟩, -⟩
      · exact .inl ⟨⟨fresh.settled, fresh.seen, fresh.answered⟩, by simp⟩
      · refine .inr ⟨⟨tag, items, ?_⟩, by simp, by simp⟩
        exact ⟨delivered.offers, delivered.passed, delivered.stays, delivered.seen,
          delivered.answered⟩
  | waiting role untouched =>
      exact .waiting role ⟨untouched.settled, untouched.seen, untouched.answered⟩
  | listening role settled => exact .listening role settled

/-- What a party that has sent a block has offered. -/
theorem Toward.offered {tag : τ} {items : List α}
    (toward : Toward odd party other (some (.block tag items)) yours)
    (sent : party.role = .off ∨ party.role = .leading) :
    party.offer = some (tag, items) ∧ odd tag ≠ party.parity ∧
      (Fresh odd party other ∨ Delivered party other tag items) := by
  cases toward with
  | off role left => exact left.block tag items rfl
  | leading role leads =>
      have offers := leads.block tag items rfl
      refine ⟨offers, leads.differs tag items offers, ?_⟩
      rcases leads.state with ⟨fresh, -⟩ | ⟨⟨tag', items', delivered⟩, -⟩
      · exact .inl fresh
      · obtain ⟨rfl, rfl⟩ : tag = tag' ∧ items = items' := by
          simpa using offers.symm.trans delivered.offers
        exact .inr delivered
  | waiting role untouched => grind
  | listening role settled => grind

/-- The other accepts a block that it has passed on. -/
theorem Toward.accepted {tag : τ} {items : List α}
    (toward : Toward odd party other (some (.block tag items)) yours)
    (sent : party.role = .off ∨ party.role = .leading)
    (delivered : Delivered party next tag items) (follows : next.role = .following) :
    Toward odd party next none (some .ack) := by
  cases toward with
  | off role left =>
      refine .off role ⟨.inr ⟨tag, items, delivered.offers, delivered.passed⟩, ?_, by simp⟩
      rintro (calls | same)
      · simp [follows] at calls
      · cases same
  | leading role leads =>
      refine .leading role ⟨by simp, by simp, leads.differs, ?_, ?_⟩
      · exact fun stopping => absurd rfl ((leads.stopping stopping).2.2 tag items)
      · exact .inr ⟨⟨tag, items, delivered⟩, by simp, by simp⟩
  | waiting role untouched => grind
  | listening role settled => grind

/-- The other answers a block that it has not passed on. -/
theorem Toward.refused {tag : τ} {items : List α}
    (toward : Toward odd party other (some (.block tag items)) yours)
    (sent : party.role = .off ∨ party.role = .leading) (fresh : Fresh odd party next)
    (noAck : signal ≠ .ack) : Toward odd party next none (some signal) := by
  cases toward with
  | off off left =>
      refine .off off ⟨.inl fresh.settled, fun _ => fresh.settled, by simp⟩
  | leading leading leads =>
      refine .leading leading ⟨by simp, by simp, leads.differs, ?_, ?_⟩
      · exact fun _ => ⟨by simpa using noAck, by simp, by simp⟩
      · exact .inl ⟨fresh, fun _ => by simpa using noAck⟩
  | waiting role untouched => grind
  | listening role settled => grind

end Toward

/-! ## Changes of the other party -/

/-- A party changes nothing that matters to the one whose items it passes on. -/
structure Alike (party next : Party τ β α) : Prop where
  passed : next.passed = party.passed
  follows : next.role = .following → party.role = .following ∧
    next.seen = party.seen ∧ next.answered = party.answered
  turns : next.role = .turning → party.role = .turning
  calls : next.role = .calling → party.role = .calling

/-- A party that neither follows nor turns nor calls. -/
theorem Alike.of_role {party next : Party τ β α} (passed : next.passed = party.passed)
    (role : next.role = .off ∨ next.role = .confirming ∨ next.role = .leading ∨
      next.role = .answering) : Alike party next where
  passed := passed
  follows same := by simp [same] at role
  turns same := by simp [same] at role
  calls same := by simp [same] at role

section Alike

variable {odd} {party other next : Party τ β α} {mine yours : Option (Signal τ β α)}

theorem Fresh.alike (fresh : Fresh odd party other) (alike : Alike other next) :
    Fresh odd party next where
  settled := alike.passed.trans fresh.settled
  seen role := by
    obtain ⟨follows, seen, -⟩ := alike.follows role
    rw [seen]
    exact fresh.seen follows
  answered role := by
    obtain ⟨follows, -, answered⟩ := alike.follows role
    rw [answered]
    exact fresh.answered follows

theorem Delivered.alike {tag : τ} {items : List α}
    (delivered : Delivered party other tag items) (alike : Alike other next) :
    Delivered party next tag items where
  offers := delivered.offers
  passed := alike.passed.trans delivered.passed
  stays turning := delivered.stays (alike.turns turning)
  seen role := by
    obtain ⟨follows, seen, -⟩ := alike.follows role
    rw [seen, delivered.seen follows]
  answered role := by
    obtain ⟨follows, -, answered⟩ := alike.follows role
    rw [answered, delivered.answered follows]

theorem Untouched.alike (untouched : Untouched party other) (alike : Alike other next) :
    Untouched party next where
  settled := alike.passed.trans untouched.settled
  seen role := by
    obtain ⟨follows, seen, -⟩ := alike.follows role
    rw [seen, untouched.seen follows]
  answered role := by
    obtain ⟨follows, -, answered⟩ := alike.follows role
    rw [answered, untouched.answered follows]

theorem Leads.alike (leads : Leads odd party other mine yours)
    (alike : Alike other next) : Leads odd party next mine yours where
  block := leads.block
  idle := leads.idle
  differs := leads.differs
  stopping := leads.stopping
  state := by
    rcases leads.state with ⟨fresh, quiet⟩ | ⟨⟨tag, items, delivered⟩, quiet⟩
    · exact .inl ⟨fresh.alike alike, quiet⟩
    · exact .inr ⟨⟨tag, items, delivered.alike alike⟩, quiet⟩

theorem Left.alike (left : Left odd party other mine yours) (alike : Alike other next) :
    Left odd party next mine yours where
  state := by rw [alike.passed]; exact left.state
  called calls := alike.passed.trans (left.called (calls.imp_left alike.calls))
  block tag items same := by
    obtain ⟨offers, differs, state⟩ := left.block tag items same
    exact ⟨offers, differs, state.imp (·.alike alike) (·.alike alike)⟩

theorem Toward.alike (toward : Toward odd party other mine yours)
    (alike : Alike other next) : Toward odd party next mine yours := by
  cases toward with
  | off role left => exact .off role (left.alike alike)
  | leading role leads => exact .leading role (leads.alike alike)
  | waiting role untouched => exact .waiting role (untouched.alike alike)
  | listening role settled => exact .listening role (alike.passed.trans settled)

end Alike

end Party

end Foundation
end Hamchat
