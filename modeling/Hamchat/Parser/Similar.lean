import Hamchat.Parser.Command
import Mathlib.Data.Option.Basic

/-!
# The same call on two servers

`Client::Parse` looks at the server only through its handlers.  If the handlers of
two servers do the same up to what else they change, then a call for the same
client and the same buffer does the same on both.
-/

namespace Hamchat

section Similar

variable {ω : Type} (related : ω → ω → Prop)

/-- Two handlers send the same, and end with the same client and related servers.
What they return may differ. -/
inductive HandlerEnd.Similar : HandlerEnd ω → HandlerEnd ω → Prop
  /-- Both return. -/
  | returned (value value' : Bool) (sent : List CString) {world world' : ω}
      (client : Client) (worlds : related world world') :
      Similar (.returned value sent world client)
        (.returned value' sent world' client)
  /-- Both end. -/
  | ended (sent : List CString) : Similar (.ended sent) (.ended sent)

/-- Two calls end with the same client and buffer and related servers. -/
inductive ParseEnd.Similar : ParseEnd ω → ParseEnd ω → Prop
  /-- Both return. -/
  | returned (value : Bool) {world world' : ω} (client : Client)
      (sock : Socket) (worlds : related world world') :
      Similar (.returned value world client sock)
        (.returned value world' client sock)
  /-- Both end. -/
  | ended : Similar .ended .ended

/-- Two dispatches hand over and send the same, and lead to related servers. -/
structure Dispatched.Similar (first second : Dispatched ω) : Prop where
  /-- The command. -/
  handed : first.handed = second.handed
  /-- The lines. -/
  sent : first.sent = second.sent
  /-- The server and the client. -/
  after : Option.Rel (fun left right => related left.1 right.1 ∧
    left.2 = right.2) first.after second.after

/-- Two calls hand over and send the same, and lead to related servers. -/
structure Parsed.Similar (first second : Parsed ω) : Prop where
  /-- The command. -/
  handed : first.handed = second.handed
  /-- The lines. -/
  sent : first.sent = second.sent
  /-- The end. -/
  result : first.result.Similar related second.result

variable {related} {server server' : Server ω} {world world' : ω}
variable {client : Client}

/-- Similar handlers make similar dispatches. -/
theorem Client.dispatch_similar
    (servername : server.servername = server'.servername)
    (worlds : related world world')
    (runs : ∀ handler argc argv, HandlerEnd.Similar related
      (server.run handler world client argc argv)
      (server'.run handler world' client argc argv)) (tokens : Tokens) :
    Option.Rel (Dispatched.Similar related)
      (client.dispatch server world tokens)
      (client.dispatch server' world' tokens) := by
  rw [Client.dispatch, Client.dispatch, servername]
  cases tokens.parv[1]?.bind Block.toCString with
  | none => exact .none
  | some name =>
      simp only [Option.bind_eq_bind, Option.bind_some]
      cases searchCommands client.isActive (tokens.parc - 1) name
          ircCommands with
      | notRegistered => exact .some ⟨rfl, rfl, .some ⟨worlds, rfl⟩⟩
      | notEnough => exact .some ⟨rfl, rfl, .some ⟨worlds, rfl⟩⟩
      | unknown => exact .some ⟨rfl, rfl, .some ⟨worlds, rfl⟩⟩
      | found handler =>
          cases tokens.parv.mapM Block.toCString with
          | none => exact .none
          | some argv =>
              have ran := runs handler (tokens.parc - 1) argv
              simp only [Option.bind_some]
              generalize server.run handler world client (tokens.parc - 1)
                argv = left at ran
              generalize server'.run handler world' client (tokens.parc - 1)
                argv = right at ran
              cases ran with
              | returned value value' sent client' worlds' =>
                  exact .some ⟨rfl, rfl, .some ⟨worlds', rfl⟩⟩
              | ended sent => exact .some ⟨rfl, rfl, .none⟩

/-- Similar handlers make similar calls. -/
theorem Client.parse_similar
    (servername : server.servername = server'.servername)
    (worlds : related world world')
    (runs : ∀ handler argc argv, HandlerEnd.Similar related
      (server.run handler world client argc argv)
      (server'.run handler world' client argc argv)) (sock : Socket) :
    Option.Rel (Parsed.Similar related) (client.parse server world sock)
      (client.parse server' world' sock) := by
  rw [Client.parse, Client.parse]
  split
  · exact .some ⟨rfl, rfl, .returned true client sock worlds⟩
  dsimp only
  cases parseHead client sock.recvbuf with
  | none => exact .none
  | some head =>
      cases head with
      | emptyPrefix recvbuf =>
          exact .some ⟨rfl, rfl, .returned false client _ worlds⟩
      | line recvbuf buf sender bytesConsumed =>
          simp only [Option.bind_eq_bind, Option.bind_some]
          cases tokenLoop (recvbuf.bytes.drop buf)
              ⟨[sender, ⟨cmdLen, []⟩], 1, false, bytesConsumed⟩ with
          | none => exact .none
          | some tokens =>
              simp only [Option.bind_some]
              split
              · exact .some ⟨rfl, rfl, .returned true client _ worlds⟩
              · have dispatched :=
                  Client.dispatch_similar servername worlds runs tokens
                generalize client.dispatch server world tokens = left
                  at dispatched
                generalize client.dispatch server' world' tokens = right
                  at dispatched
                cases dispatched with
                | none => exact .none
                | @some left right similar =>
                    obtain ⟨handed, sent, after⟩ := similar
                    simp only [Option.bind_some]
                    generalize left.after = leftAfter at after
                    generalize right.after = rightAfter at after
                    cases after with
                    | none => exact .some ⟨handed, sent, .ended⟩
                    | @some leftEnd rightEnd ends =>
                        obtain ⟨leftWorld, leftClient⟩ := leftEnd
                        obtain ⟨rightWorld, rightClient⟩ := rightEnd
                        obtain ⟨worlds', rfl⟩ := ends
                        exact .some ⟨handed, sent,
                          .returned true leftClient _ worlds'⟩

end Similar

end Hamchat
