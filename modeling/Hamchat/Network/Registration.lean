import Hamchat.Client.StoredStrings
import Hamchat.Network.Runs

/-!
# Registration as the network sees it

NICK, USER and PASS work on the fields of one client and on the table of
callsigns.  Over a whole network they do what the handlers of registration do
over these two, and so they and AWAY store what the arrays of a client hold.
-/

namespace Hamchat

/-- The network that a handler leaves, as one client and the table of
callsigns. -/
def Outcome.registrationEnd (outcome : Outcome δ) (id : Nat) : HandlerEnd δ :=
  match outcome.ending with
  | .returned value network =>
      .returned value outcome.texts network.clientsByCallsign
        (network.clients id).client
  | .undefined => .ended outcome.texts

/-- The away message is what its block holds. -/
structure StoredClient.ReadsAway (stored : StoredClient)
    (object : ClientObject) : Prop where
  /-- The message, if there is one. -/
  awayMsg : object.awayMsg = stored.awayMsg.map (·.field.array.text)
  /-- The time. -/
  awaySince : object.awaySince = stored.awaySince

theorem Outcome.registrationEnd_of_returned {outcome : Outcome δ} {id : Nat}
    {value : Bool} {network : Network δ}
    (returned : outcome.ending = .returned value network) :
    outcome.registrationEnd id =
      .returned value outcome.texts network.clientsByCallsign
        (network.clients id).client := by
  rw [registrationEnd, returned]

theorem sendText_numeric {numeric : Nat} {shown : CString}
    (shows : shown =
      .concat [.ofLiteral " ", formatNumeric numeric, .ofLiteral " "])
    (servername : CString) (pieces : List CString) :
    sendText ([.ofLiteral ":", servername, .ofLiteral " ",
        formatNumeric numeric, .ofLiteral " "] ++ pieces) =
      sendText (.ofLiteral ":" :: servername :: shown :: pieces) := by
  rw [shows, sendText, sendText]
  refine congrArg (CString.truncate · 512) (CString.ext ?_)
  simp [CString.concat]

namespace HandlerCall

variable (call : HandlerCall δ)

/-- `Clients_by_callsign` as the handlers of registration use it. -/
def registry : Registry δ where
  servername := call.text.servername
  findClient table callsign :=
    (call.directory.find table callsign).map Option.isSome
  rename table callsign next := do
    let without ← call.directory.forgetCallsign table callsign
    call.directory.add without next call.self call.surroundings.now
  welcome _ client :=
    (call.welcome client.callsign).map (·.message.text)

theorem sendConnectNumerics_texts (world : δ) (client : Client) :
    Hamchat.sendConnectNumerics call.registry world client =
      (call.sendConnectNumerics client).map id
        (·.map fun delivery => delivery.message.text) := by
  rw [Hamchat.sendConnectNumerics, sendConnectNumerics]
  split
  · have spelled : CString.ofLiteral " 464 " =
        .concat [.ofLiteral " ", formatNumeric 464, .ofLiteral " "] := by
      decide
    exact congrArg (fun text => (false, [text, _]))
      (sendText_numeric spelled _ _).symm
  · rfl

theorem nickReply_texts (world : δ) (newCall : CString) :
    Hamchat.nickReply call.registry world call.object.client.markNick
        call.object.client.hasNickOrUser newCall =
      (call.nickReply newCall).map id
        (·.map fun delivery => delivery.message.text) := by
  rw [Hamchat.nickReply, nickReply]
  cases active : call.object.client.hasNickOrUser with
  | true =>
      rw [Client.markNick, if_pos active]
      rfl
  | false =>
      rw [if_neg Bool.false_ne_true, if_neg Bool.false_ne_true]
      split
      · exact call.sendConnectNumerics_texts world _
      · rfl

/-- A reply with a numeric that changes nothing. -/
theorem answer_registrationEnd {numeric : Nat} {shown : CString}
    (shows : shown =
      .concat [.ofLiteral " ", formatNumeric numeric, .ofLiteral " "])
    (value : Bool) (pieces : List CString) :
    (call.answer value [call.numeric numeric pieces]).registrationEnd
        call.self =
      .returned value
        [sendText (.ofLiteral ":" :: call.text.servername :: shown :: pieces)]
        call.network.clientsByCallsign call.object.client :=
  congrArg (fun text => HandlerEnd.returned value [text] _ _)
    (sendText_numeric shows _ pieces)

theorem reply_registrationEnd (object : ClientObject) (table : δ)
    (value : Bool) (sent : List Delivery) :
    (Outcome.reply { call.network.setClient call.self object with
        clientsByCallsign := table } value sent).registrationEnd call.self =
      .returned value (sent.map (·.message.text)) table object.client :=
  congrArg (fun object : ClientObject =>
      HandlerEnd.returned value _ table object.client)
    (Network.setClient_clients_self object)

/-- `Client::SetCallsign` changes the client and the table of callsigns. -/
theorem setCallsign_eq_rename (client : Client) (newCall : CString) :
    (call.network.setClient call.self
        { call.object with client := client }).setCallsign call.directory
        call.surroundings.now call.self newCall =
      (call.registry.rename call.network.clientsByCallsign client.callsign
        (client.setCallsign newCall).callsign).map fun table =>
          { call.network.setClient call.self
              { call.object with client := client.setCallsign newCall } with
            clientsByCallsign := table } := by
  simp only [Network.setCallsign, Network.setClient_clients_self,
    Network.setClient_setClient]
  change Option.bind (call.directory.forgetCallsign
    call.network.clientsByCallsign client.callsign) _ =
      Option.map _ (Option.bind _ _)
  rw [Option.map_bind]
  refine Option.bind_congr fun without _ => ?_
  exact (Option.map_eq_bind ..).symm

/-- `m_nick` over the network is `m_nick` over the client and the table. -/
theorem mNick_registrationEnd :
    call.mNick.registrationEnd call.self =
      Hamchat.mNick call.registry call.network.clientsByCallsign
        call.object.client call.argc call.argv := by
  rw [mNick, Hamchat.mNick]
  dsimp only
  split
  · cases call.argv[2]? with
    | none => exact call.answer_registrationEnd (by decide) false _
    | some newCall =>
        dsimp only [Option.any_some, Option.getD_some]
        split
        · exact call.answer_registrationEnd (by decide) false _
        · have searched : call.registry.findClient
              call.network.clientsByCallsign newCall =
                (call.findClient (some newCall)).map Option.isSome := rfl
          rw [searched]
          cases call.findClient (some newCall) with
          | none => rfl
          | some owner =>
              cases owner with
              | some _ =>
                  exact call.answer_registrationEnd (by decide) false _
              | none =>
                  dsimp only [Outcome.after, Option.map_some,
                    Option.isSome_none]
                  simp only [call.nickReply_texts, Prod.map_fst, Prod.map_snd,
                    id_eq, call.setCallsign_eq_rename, Client.markNick_callsign]
                  rcases call.nickReply newCall with ⟨_ | _, sent⟩
                  · rfl
                  · dsimp only
                    rw [if_pos rfl]
                    cases call.registry.rename call.network.clientsByCallsign
                        call.object.client.callsign _ with
                    | none => rfl
                    | some table => exact call.reply_registrationEnd ..
  · exact call.answer_registrationEnd (by decide) false _

/-- `m_user` over the network is `m_user` over the client and the table. -/
theorem mUser_registrationEnd :
    call.mUser.registrationEnd call.self =
      Hamchat.mUser call.registry call.network.clientsByCallsign
        call.object.client call.argv := by
  rw [mUser, Hamchat.mUser]
  dsimp only
  split
  · exact call.answer_registrationEnd (by decide) false _
  · have numerics := call.sendConnectNumerics_texts
      call.network.clientsByCallsign (call.object.client.markUser call.argv)
    rw [Client.markUser] at numerics ⊢
    rw [numerics]
    dsimp only [Prod.map]
    split
    · rcases call.sendConnectNumerics _ with ⟨_ | _, sent⟩
      · rfl
      · exact call.reply_registrationEnd ..
    · exact call.reply_registrationEnd ..

/-- `m_pass` over the network is `m_pass` over the client. -/
theorem mPass_registrationEnd :
    call.mPass.registrationEnd call.self =
      Hamchat.mPass call.registry call.network.clientsByCallsign
        call.object.client call.argv := by
  rw [mPass, Hamchat.mPass]
  split
  · exact call.answer_registrationEnd (by decide) false _
  · cases call.argv[2]? with
    | none => exact call.answer_registrationEnd (by decide) false _
    | some chpass => exact call.reply_registrationEnd ..

/-! ## Arrays -/

variable {call} {stored : StoredClient} {value : Bool} {next : Network δ}

theorem mNick_reads (reads : stored.Reads call.object.client)
    (returned : call.mNick.ending = .returned value next) :
    ∃ found storedNext, stored.mNick call.argc call.argv found =
        some storedNext ∧
      storedNext.Reads (next.clients call.self).client :=
  reads.mNick (call.mNick_registrationEnd.symm.trans
    (Outcome.registrationEnd_of_returned returned))

theorem mUser_reads (reads : stored.Reads call.object.client)
    (returned : call.mUser.ending = .returned value next) :
    ∃ storedNext, stored.mUser call.argv = some storedNext ∧
      storedNext.Reads (next.clients call.self).client :=
  reads.mUser (call.mUser_registrationEnd.symm.trans
    (Outcome.registrationEnd_of_returned returned))

theorem mPass_reads (reads : stored.Reads call.object.client)
    (returned : call.mPass.ending = .returned value next) :
    (stored.mPass call.argv).Reads (next.clients call.self).client :=
  reads.mPass (call.mPass_registrationEnd.symm.trans
    (Outcome.registrationEnd_of_returned returned))

/-- An AWAY that returns stores what the block of the message holds, whatever
`malloc` returns. -/
theorem mAway_reads (reads : stored.ReadsAway call.object)
    (malloc : (size : Nat) → CharArray size)
    (returned : call.mAway.ending = .returned value next) :
    ∃ storedNext, stored.mAway call.argc call.argv call.surroundings.now
        malloc = some storedNext ∧
      storedNext.ReadsAway (next.clients call.self) := by
  have updated {object : ClientObject} {sent : List Delivery} {value' : Bool}
      (ends : (call.update value' sent object).ending =
        .returned value next) : next.clients call.self = object := by
    cases ends
    exact Network.setClient_clients_self object
  rw [mAway] at returned
  rw [StoredClient.mAway]
  split at returned
  · rename_i given
    rw [if_pos given]
    cases parameter : call.argv[2]? with
    | none =>
        rw [parameter] at returned
        cases returned
    | some target =>
        rw [parameter] at returned
        rw [updated returned]
        refine ⟨_, rfl, ⟨?_, rfl⟩⟩
        exact congrArg some
          (CharArray.text_memcpy_memset _ _ (Nat.le_refl _)).symm
  · rename_i notGiven
    rw [if_neg notGiven, updated returned, reads.awayMsg, Option.isSome_map]
    refine ⟨_, rfl, ?_⟩
    split
    · exact ⟨rfl, rfl⟩
    · exact reads

end HandlerCall

end Hamchat
