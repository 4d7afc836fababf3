import Hamchat.Foundation.TurnSafety

/-!
# Two parties agree on a width

The party that calls takes the width of the answer and confirms it, and the other
takes the width of that.  Neither changes it as long as it takes part.
-/

namespace Hamchat
namespace Foundation

/-- A party takes part in a connection. -/
def Role.TakesPart (role : Role) : Prop :=
  role = .leading ∨ role = .following ∨ role = .turning

/-- A party that takes part neither is off nor calls nor is called. -/
theorem Role.TakesPart.not_waits {role : Role} (takesPart : role.TakesPart) :
    role ≠ .off ∧ (role ≠ .calling ∧ role ≠ .confirming) ∧ role ≠ .answering := by
  rcases takesPart with rfl | rfl | rfl <;> decide

namespace Party

variable {τ β α : Type} {odd : τ → Bool} {party other next base : Party τ β α}
variable {mine yours heard played : Option (Signal τ β α)}

/-- What an act means for the width of a connection. -/
inductive Widens (party : Party τ β α) (heard : Option (Signal τ β α))
    (next : Party τ β α) (played : Option (Signal τ β α)) : Prop
  | off (role : next.role = .off) (quiet : played = none ∨ played = some .stop)
  | answers (reply : β) (called : heard = some .call) (role : next.role = .answering)
      (plays : played = some (.connect reply))
  | confirms (width : β) (answered : heard = some (.connect width))
      (calls : party.role = .calling) (role : next.role = .confirming)
      (taken : next.width = width) (plays : played = some (.connect width))
  | joins (width : β) (confirmed : heard = some (.connect width))
      (waits : party.role = .answering ∨ party.role = .following)
      (role : next.role = .following) (taken : next.width = width)
      (plays : played = some .ack)
  | keeps (width : next.width = party.width)
      (role : next.role = party.role ∨
        (party.role = .confirming ∨ party.role.TakesPart) ∧ next.role.TakesPart ∧
          heard ≠ none)
      (noCall : played = some .call → party.role = .calling)
      (noConnect : ∀ width, played = some (.connect width) →
        party.role = .confirming ∧ width = party.width)

/-- A party that leads keeps the width. -/
theorem Sends.widens {signal : Signal τ β α} (sends : Sends odd base next played)
    (leads : base.role = .leading) (width : base.width = party.width)
    (before : party.role = .confirming ∨ party.role.TakesPart) :
    Widens party (some signal) next played := by
  have leads : base.role.TakesPart := .inl leads
  cases sends with
  | silent => exact .keeps width (.inr ⟨before, leads, nofun⟩) nofun nofun
  | stop => exact .keeps width (.inr ⟨before, leads, nofun⟩) nofun nofun
  | block => exact .keeps width (.inr ⟨before, leads, nofun⟩) nofun nofun
  | idle => exact .keeps width (.inr ⟨before, leads, nofun⟩) nofun nofun

/-- An act that is not left open. -/
theorem Acts.widens (acts : Acts odd party heard next played)
    (told : party.role = .leading → party.stopping = true → heard ≠ some .ack) :
    Widens party heard next played := by
  cases acts with
  | ignores heard => exact .keeps rfl (.inl rfl) nofun nofun
  | repeats awake current =>
      refine .keeps rfl (.inl rfl) ?_ ?_
      · intro same
        cases same
        cases current with
        | call calls => exact calls
      · intro width same
        cases same
        cases current with
        | confirm confirms => exact ⟨confirms, rfl⟩
  | stops heard => exact .keeps rfl (.inl rfl) nofun nofun
  | ends heard stopping answered width quiet => exact .off rfl quiet
  | answers width reply waits => exact .answers reply rfl rfl rfl
  | refuses waits => exact .keeps rfl (.inl rfl) nofun nofun
  | isAnswered width calls => exact .confirms width rfl calls rfl rfl rfl
  | joins width waits => exact .joins width rfl (.inl waits) rfl rfl rfl
  | joinsAgain width follows => exact .joins width rfl (.inr follows) follows rfl rfl
  | agrees follows asked => exact .keeps rfl (.inl rfl) nofun nofun
  | passesOn follows new => exact .keeps rfl (.inl rfl) nofun nofun
  | discards items follows old => exact .keeps rfl (.inl rfl) nofun nofun
  | acceptsAgain items follows old => exact .keeps rfl (.inl rfl) nofun nofun
  | rejects items follows new => exact .keeps rfl (.inl rfl) nofun nofun
  | turns follows asked =>
      have turns : Role.turning.TakesPart := .inr (.inr rfl)
      exact .keeps rfl (.inr ⟨.inr (.inr (.inl follows)), turns, nofun⟩) nofun nofun
  | interrupts items follows new =>
      have turns : Role.turning.TakesPart := .inr (.inr rfl)
      exact .keeps rfl (.inr ⟨.inr (.inr (.inl follows)), turns, nofun⟩) nofun nofun
  | insists tag items turning => exact .keeps rfl (.inl rfl) nofun nofun
  | takesOver turning sends =>
      exact sends.widens rfl rfl (.inr (.inr (.inr turning)))
  | starts confirms asked sends => exact sends.widens rfl rfl (.inl confirms)
  | yields parity leads =>
      refine .keeps rfl (.inr ⟨?_, .inr (.inl rfl), nofun⟩) nofun nofun
      exact leads.symm.imp id .inl
  | wakes leads idle sends => exact sends.widens leads rfl (.inr (.inl leads))
  | advances leads offers sends => exact sends.widens leads rfl (.inr (.inl leads))
  | reoffers items leads awake offers differs => exact .keeps rfl (.inl rfl) nofun nofun
  | isOpen next played leads stopping => exact absurd rfl (told leads stopping)

/-- What is between the party that has called and the other about the width. -/
structure SameWidth (party other : Party τ β α) (mine yours : Option (Signal τ β α)) :
    Prop where
  caller : party.role ≠ .answering
  called : other.role ≠ .calling ∧ other.role ≠ .confirming
  noCall : yours ≠ some .call
  answers : ∀ width, yours = some (.connect width) →
    party.role = .off ∨ party.role = .calling ∨ party.role = .confirming
  confirms : ∀ width, mine = some (.connect width) →
    party.role = .off ∨ width = party.width
  same : party.role ≠ .off → other.role.TakesPart → other.width = party.width

theorem nextMine_cases (mine heard played : Option (Signal τ β α)) :
    nextMine mine heard played = played ∨
      nextMine mine heard played = mine ∧ heard = none ∧ played = none := by
  cases played <;> cases heard <;> simp [nextMine]

theorem nextYours_cases (yours heard played : Option (Signal τ β α)) :
    nextYours yours heard played = none ∨
      nextYours yours heard played = yours ∧ heard = none ∧ played = none := by
  cases played <;> cases heard <;> simp [nextYours]

/-- The party that has called acts. -/
theorem SameWidth.calls (width : SameWidth party other mine yours)
    (agree : Agree odd party other mine yours) (acts : Acts odd party heard next played)
    (hears : ∀ signal, heard = some signal → yours = some signal) :
    SameWidth next other (nextMine mine heard played) (nextYours yours heard played) := by
  have told (leads : party.role = .leading) (stopping : party.stopping = true) :
      heard ≠ some .ack :=
    fun same => ((agree.toward.leads leads).stopping stopping).1 (hears _ same)
  have noCall : nextYours yours heard played ≠ some .call := by
    rcases nextYours_cases yours heard played with none | ⟨same, -⟩
    · rw [none]
      exact nofun
    · rw [same]
      exact width.noCall
  cases acts.widens told with
  | off role quiet =>
      refine ⟨?_, width.called, noCall, fun _ _ => .inl role, fun _ _ => .inl role, ?_⟩
      · rw [role]
        decide
      · exact fun notOff => absurd role notOff
  | answers reply called => exact absurd (hears _ called) width.noCall
  | confirms taken answered calls role same plays =>
      have roles := agree.roles
      refine ⟨?_, width.called, noCall, fun _ _ => .inr (.inr role), ?_, ?_⟩
      · rw [role]
        decide
      · intro other sent
        rw [answered, nextMine_some, plays] at sent
        cases sent
        exact .inr same.symm
      · rintro - (leads | follows | turns)
        · simp [calls, leads, Role.Matches] at roles
        · simp [calls, follows, Role.Matches] at roles
        · simp [calls, turns, Role.Matches] at roles
  | joins taken confirmed waits =>
      have before := width.answers taken (hears _ confirmed)
      rcases waits with answers | follows
      · exact absurd answers width.caller
      · simp [follows] at before
  | keeps same role noCalls noConnect =>
      have stays : heard = none → next.role = party.role :=
        fun none => role.resolve_right fun changed => changed.2.2 none
      refine ⟨?_, width.called, noCall, ?_, ?_, ?_⟩
      · rcases role with role | ⟨-, role, -⟩
        · rw [role]
          exact width.caller
        · exact role.not_waits.2.2
      · intro taken sent
        rcases nextYours_cases yours heard played with none | ⟨kept, none, -⟩
        · rw [none] at sent
          cases sent
        · rw [stays none]
          exact width.answers taken (kept.symm.trans sent)
      · intro taken sent
        rcases nextMine_cases mine heard played with plays | ⟨kept, none, -⟩
        · exact .inr ((noConnect taken (plays.symm.trans sent)).2.trans same.symm)
        · rw [stays none, same]
          exact width.confirms taken (kept.symm.trans sent)
      · intro notOff takesPart
        rw [same]
        apply width.same _ takesPart
        rcases role with role | ⟨before, -⟩
        · rwa [← role]
        · rcases before with confirms | takesPart
          · rw [confirms]
            decide
          · exact takesPart.not_waits.1

/-- The other party acts. -/
theorem SameWidth.isCalled (width : SameWidth party other mine yours)
    (agree : Agree odd party other mine yours) (acts : Acts odd other heard next played)
    (hears : ∀ signal, heard = some signal → mine = some signal) :
    SameWidth party next (nextYours mine heard played) (nextMine yours heard played) := by
  have told (leads : other.role = .leading) (stopping : other.stopping = true) :
      heard ≠ some .ack :=
    fun same => ((agree.symm.toward.leads leads).stopping stopping).1 (hears _ same)
  have confirms (taken : β) (sent : nextYours mine heard played = some (.connect taken)) :
      party.role = .off ∨ taken = party.width := by
    rcases nextYours_cases mine heard played with none | ⟨kept, -⟩
    · rw [none] at sent
      cases sent
    · exact width.confirms taken (kept.symm.trans sent)
  cases acts.widens told with
  | off role quiet =>
      refine ⟨width.caller, ?_, ?_, ?_, confirms, ?_⟩
      · simp [role]
      · rcases nextMine_cases yours heard played with plays | ⟨kept, -⟩
        · rw [plays]
          rcases quiet with rfl | rfl <;> exact nofun
        · rw [kept]
          exact width.noCall
      · intro taken sent
        rcases nextMine_cases yours heard played with plays | ⟨kept, -⟩
        · rw [plays] at sent
          rcases quiet with rfl | rfl <;> cases sent
        · exact width.answers taken (kept.symm.trans sent)
      · exact fun _ takesPart => absurd role takesPart.not_waits.1
  | answers reply called role plays =>
      refine ⟨width.caller, ?_, ?_, ?_, confirms, ?_⟩
      · simp [role]
      · rw [called, nextMine_some, plays]
        exact nofun
      · intro _ _
        exact (agree.spoken _ (hears _ called)).imp id .inl
      · exact fun _ takesPart => absurd role takesPart.not_waits.2.2
  | confirms taken answered calls => exact absurd calls width.called.1
  | joins taken confirmed waits role same plays =>
      refine ⟨width.caller, ?_, ?_, ?_, confirms, ?_⟩
      · simp [role]
      · rw [confirmed, nextMine_some, plays]
        exact nofun
      · intro other sent
        rw [confirmed, nextMine_some, plays] at sent
        cases sent
      · intro notOff _
        rw [same]
        exact (width.confirms taken (hears _ confirmed)).resolve_left notOff
  | keeps same role noCalls noConnect =>
      refine ⟨width.caller, ?_, ?_, ?_, confirms, ?_⟩
      · rcases role with role | ⟨-, role, -⟩
        · rw [role]
          exact width.called
        · exact ⟨role.not_waits.2.1.1, role.not_waits.2.1.2⟩
      · rcases nextMine_cases yours heard played with plays | ⟨kept, -⟩
        · rw [plays]
          exact fun call => width.called.1 (noCalls call)
        · rw [kept]
          exact width.noCall
      · intro taken sent
        rcases nextMine_cases yours heard played with plays | ⟨kept, -⟩
        · exact absurd (noConnect taken (plays.symm.trans sent)).1 width.called.2
        · exact width.answers taken (kept.symm.trans sent)
      · intro notOff takesPart
        rw [same]
        apply width.same notOff
        rcases role with role | ⟨before, -⟩
        · rwa [← role]
        · exact before.resolve_left width.called.2

/-- The width of a call that has just been made. -/
theorem SameWidth.start (calls : party.role = .calling ∨ party.role = .off)
    (off : other.role = .off) (sent : mine = none ∨ mine = some .call) :
    SameWidth party other mine none where
  caller := by rcases calls with role | role <;> simp [role]
  called := by simp [off]
  noCall := nofun
  answers _ := nofun
  confirms width same := by
    rcases sent with none | call
    · rw [none] at same
      cases same
    · rw [call] at same
      cases same
  same _ takesPart := absurd off takesPart.not_waits.1

end Party

end Foundation
end Hamchat
