import Hamchat.Network.Changes
import Hamchat.Parser.Parameters

/-!
# One message, one line

A message that expands to a text with a line end in it would be taken for two
lines by the client that receives it.  Parameters and stored names hold no line
end.  An away message holds none either, but it is not terminated, and
`do_privmsg` sends what stands behind its block with it.
-/

namespace Hamchat

open Foundation

/-! ## Strings that appear in messages -/

/-- The strings of a client that others are sent hold no NUL, CR or LF. -/
structure ClientObject.Unbroken (object : ClientObject) : Prop where
  /-- The callsign. -/
  callsign : object.client.callsign.Unbroken
  /-- The user name. -/
  username : object.client.username.Unbroken
  /-- The host name. -/
  hostname : object.hostname.Unbroken
  /-- The block of the away message. -/
  awayMsg : ∀ block ∈ object.awayMsg, block.Unbroken

theorem ClientObject.unbroken_iff {object : ClientObject} :
    object.Unbroken ↔ object.client.callsign.Unbroken ∧
      object.client.username.Unbroken ∧ object.hostname.Unbroken ∧
      ∀ block ∈ object.awayMsg, block.Unbroken :=
  ⟨fun unbroken => ⟨unbroken.callsign, unbroken.username, unbroken.hostname,
    unbroken.awayMsg⟩, fun ⟨callsign, username, hostname, awayMsg⟩ =>
    ⟨callsign, username, hostname, awayMsg⟩⟩

instance (object : ClientObject) : Decidable object.Unbroken :=
  decidable_of_iff' _ ClientObject.unbroken_iff

/-- The strings of every client hold no NUL, CR or LF. -/
def Network.Unbroken (network : Network δ) : Prop :=
  ∀ id, network.alive id = true → (network.clients id).Unbroken

/-- A message expands to a text without NUL, CR or LF, of any length. -/
def Message.Unbroken (message : Message) : Prop :=
  (CString.concat message.pieces).Unbroken

instance (message : Message) : Decidable message.Unbroken :=
  inferInstanceAs (Decidable (CString.Unbroken _))

/-- A handler sends only such messages. -/
def Outcome.Unbroken (outcome : Outcome δ) : Prop :=
  ∀ delivery ∈ outcome.sent, delivery.message.Unbroken

/-- The constructor assigns the host name. -/
theorem ClientObject.Unbroken.construct {memory : ClientObject}
    (unbroken : memory.Unbroken) (fd now : Int) :
    (memory.construct fd now).Unbroken where
  callsign := unbroken.callsign
  username := unbroken.username
  hostname := show (CString.ofLiteral "irc.local").Unbroken from by decide
  awayMsg := unbroken.awayMsg

theorem unbroken_shown {parameter : Option CString}
    (unbroken : ∀ given ∈ parameter, given.Unbroken) :
    (shown parameter).Unbroken := by
  cases parameter with
  | none => decide
  | some given => exact unbroken given rfl

/-- A handler stores nothing but parts of its parameters. -/
theorem ClientObject.Change.unbroken {argv : List CString}
    {object next : ClientObject} (change : ClientObject.Change argv object next)
    (parameters : ∀ parameter ∈ argv, parameter.Unbroken)
    (before : object.Unbroken) : next.Unbroken := by
  have given (index : Nat) : ∀ parameter ∈ argv[index]?, parameter.Unbroken :=
    fun parameter found => parameters parameter (List.mem_of_getElem? found)
  cases change with
  | same => exact before
  | nick newCall found =>
      refine { before with callsign := ?_, username := ?_ }
      · exact (given 2 newCall found).truncate callsignLen
      · exact object.client.markNick_username.symm ▸ before.username
  | user =>
      refine { before with username := ?_ }
      exact (unbroken_shown (given 2)).truncate (userLen + 1)
  | pass chpass => exact { before with }
  | away target found =>
      refine { before with awayMsg := fun block stored => ?_ }
      obtain rfl := Option.some.inj stored
      exact (given 2 target found).truncate (awayLen + 1)
  | back since =>
      exact { before with awayMsg := fun block stored => by cases stored }
  | pong now => exact { before with }
  | spoke now => exact { before with }

/-! ## Handlers -/

/-- NICK, PING, INVITE, PRIVMSG and NOTICE. -/
def Handler.SendsLines (handler : Handler) : Prop :=
  handler = .mNick ∨ handler = .mPing ∨ handler = .mInvite ∨
    handler = .mPrivmsg ∨ handler = .mNotice

/-- What a call of a handler gets holds no NUL, CR or LF. -/
structure HandlerCall.Unbroken (call : HandlerCall δ) : Prop where
  /-- The server name. -/
  servername : call.text.servername.Unbroken
  /-- The strings of the clients. -/
  clients : call.network.Unbroken
  /-- The sender is alive. -/
  alive : call.network.alive call.self = true
  /-- The parameters. -/
  argv : ∀ parameter ∈ call.argv, parameter.Unbroken

/-- What a handler reads of a client that it finds: INVITE, PRIVMSG and NOTICE
find no deleted client, and behind the block of an away message the next NUL
comes before any CR or LF. -/
def HandlerCall.ReadsUnbroken (call : HandlerCall δ) : Handler → Prop
  | .mInvite =>
      ∀ iptr ∈ (call.findClient call.argv[2]?).join,
        call.network.alive iptr = true
  | .mPrivmsg | .mNotice =>
      ∀ target ∈ call.argv[2]?, target.bytes.head? ≠ some 35 →
        ∀ dcptr ∈ (call.findClient (some target)).join,
          call.network.alive dcptr = true ∧
            ((call.network.clients dcptr).awayMsg.isSome = true →
              call.surroundings.behindAway.Unbroken)
  | _ => True

theorem isStop_digit : ∀ value < 58, 48 ≤ value →
    isStop (UInt8.ofNat value) = false := by
  decide

instance (call : HandlerCall δ) :
    (handler : Handler) → Decidable (call.ReadsUnbroken handler)
  | .mInvite => inferInstanceAs (Decidable (∀ iptr ∈ _, _))
  | .mPrivmsg | .mNotice =>
      inferInstanceAs (Decidable (∀ target ∈ _, _ → ∀ dcptr ∈ _, _))
  | .mAdmin | .mAway | .mCap | .mDie | .mHelp | .mInfo | .mJoin | .mKick
  | .mKill | .mList | .mLusers | .mMode | .mMotd | .mNames | .mNick | .mOper
  | .mPart | .mPass | .mPing | .mPong | .mQuit | .mRehash | .mStats | .mTime
  | .mTopic | .mUser | .mUserhost | .mVersion | .mWho | .mWhois | .mWhowas =>
      instDecidableTrue

theorem unbroken_formatInt (value : Nat) : (formatInt value).Unbroken := by
  intro byte member
  have inDigits := (List.takeWhile_prefix _).subset member
  rw [if_neg (by omega)] at inDigits
  obtain ⟨char, digit, rfl⟩ := List.mem_map.mp inDigits
  have isDigit := Nat.isDigit_of_mem_toDigits (by decide) (by decide) digit
  simp only [Char.isDigit, Bool.and_eq_true, decide_eq_true_iff,
    UInt32.le_iff_toNat_le] at isDigit
  exact isStop_digit char.toNat (Nat.lt_succ_of_le isDigit.2) isDigit.1

theorem unbroken_formatNumeric (numeric : Nat) :
    (formatNumeric numeric).Unbroken := by
  refine CString.unbroken_concat.mpr fun part member => ?_
  rcases List.mem_pair.mp member with rfl | rfl
  · split
    · decide
    · decide
  · exact unbroken_formatInt numeric

/-- A message is checked piece by piece. -/
theorem Message.unbroken_of_pieces {numeric : Option Nat}
    {pieces : List CString} (unbroken : ∀ piece ∈ pieces, piece.Unbroken) :
    Message.Unbroken ⟨numeric, pieces⟩ :=
  CString.unbroken_concat.mpr unbroken

namespace HandlerCall.Unbroken

variable {call : HandlerCall δ}

theorem object (unbroken : call.Unbroken) : call.object.Unbroken :=
  unbroken.clients call.self unbroken.alive

theorem callsign (unbroken : call.Unbroken) : call.callsign.Unbroken :=
  unbroken.object.callsign

theorem given (unbroken : call.Unbroken) (index : Nat) :
    ∀ parameter ∈ call.argv[index]?, parameter.Unbroken :=
  fun parameter found => unbroken.argv parameter (List.mem_of_getElem? found)

theorem shownGiven (unbroken : call.Unbroken) (index : Nat) :
    (shown call.argv[index]?).Unbroken :=
  unbroken_shown (unbroken.given index)

theorem numeric (unbroken : call.Unbroken) (numeric : Nat)
    {pieces : List CString} (rest : ∀ piece ∈ pieces, piece.Unbroken) :
    (call.numeric numeric pieces).message.Unbroken := by
  have formatted := unbroken_formatNumeric numeric
  refine Message.unbroken_of_pieces (List.forall_mem_append.mpr ⟨?_, rest⟩)
  simp only [List.forall_mem_cons, unbroken.servername, formatted, true_and]
  decide

theorem answer {value : Bool} {sent : List Delivery}
    (unbroken : ∀ delivery ∈ sent, delivery.message.Unbroken) :
    (call.answer value sent).Unbroken :=
  unbroken

theorem after {sent : List Delivery} {result : Option α}
    {next : α → Outcome δ}
    (unbroken : ∀ delivery ∈ sent, delivery.message.Unbroken)
    (later : ∀ value, result = some value → (next value).Unbroken) :
    (Outcome.after sent result next).Unbroken := by
  cases result with
  | none => exact unbroken
  | some value => exact later value rfl

theorem afterNothing {result : Option α} {next : α → Outcome δ}
    (later : ∀ value, result = some value → (next value).Unbroken) :
    (Outcome.after [] result next).Unbroken :=
  after (List.forall_mem_nil _) later

theorem throughNull {outcome : Outcome δ} (unbroken : outcome.Unbroken) :
    outcome.throughNull.Unbroken :=
  unbroken

/-- One reply of a line with a numeric. -/
theorem reply (unbroken : call.Unbroken) (value : Bool) (numeric : Nat)
    {pieces : List CString} (rest : ∀ piece ∈ pieces, piece.Unbroken) :
    (call.answer value [call.numeric numeric pieces]).Unbroken :=
  answer (List.forall_mem_singleton.mpr (unbroken.numeric numeric rest))

theorem mPing (unbroken : call.Unbroken) : call.mPing.Unbroken := by
  rw [HandlerCall.mPing]
  split
  · refine answer (List.forall_mem_singleton.mpr ?_)
    refine Message.unbroken_of_pieces ?_
    simp only [List.forall_mem_cons, unbroken.servername, unbroken.shownGiven 2,
      true_and]
    decide
  · exact answer nofun

/-- No numerics are sent: a client without either flag has no flag of USER. -/
theorem nickReply (unbroken : call.Unbroken) {newCall : CString}
    (given : newCall.Unbroken) :
    ∀ delivery ∈ (call.nickReply newCall).2, delivery.message.Unbroken := by
  rw [HandlerCall.nickReply]
  cases active : call.object.client.hasNickOrUser with
  | true =>
      rw [if_pos rfl]
      refine List.forall_mem_singleton.mpr (Message.unbroken_of_pieces ?_)
      simp only [List.forall_mem_cons, unbroken.callsign, given, true_and]
      decide
  | false =>
      simp [call.object.client.markNick_noUser active]

theorem mNick (unbroken : call.Unbroken) : call.mNick.Unbroken := by
  rw [HandlerCall.mNick]
  split
  · cases found : call.argv[2]? with
    | none =>
        refine unbroken.reply false 432 ?_
        simp only [List.forall_mem_cons, unbroken.callsign, true_and]
        decide
    | some newCall =>
        have given := unbroken.given 2 newCall found
        dsimp only
        split
        · refine unbroken.reply false 432 ?_
          simp only [List.forall_mem_cons, unbroken.callsign, given, true_and]
          decide
        refine afterNothing fun owner _ => ?_
        cases owner with
        | some _ =>
            refine unbroken.reply false 433 ?_
            have target : (if call.callsign = .empty then
                CString.ofLiteral "*" else call.callsign).Unbroken := by
              split
              · decide
              · exact unbroken.callsign
            simp only [List.forall_mem_cons, target, given, true_and]
            decide
        | none =>
            have replied := unbroken.nickReply given
            dsimp only
            split
            · rename_i sent reply
              rw [reply] at replied
              exact after replied fun next _ => replied
            · rename_i sent reply
              rw [reply] at replied
              exact replied
  · refine unbroken.reply false 431 ?_
    simp only [List.forall_mem_cons, unbroken.callsign, true_and]
    decide

/-- A client that INVITE finds. -/
theorem invited (unbroken : call.Unbroken)
    (reads : call.ReadsUnbroken .mInvite) {iptr : Nat}
    (found : call.findClient call.argv[2]? = some (some iptr)) :
    (call.network.clients iptr).Unbroken := by
  refine unbroken.clients iptr (reads iptr ?_)
  rw [found]
  rfl

theorem mInvite (unbroken : call.Unbroken)
    (reads : call.ReadsUnbroken .mInvite) : call.mInvite.Unbroken := by
  have callsign := unbroken.callsign
  have chname := unbroken.shownGiven 3
  have invitee := unbroken.shownGiven 2
  rw [HandlerCall.mInvite]
  refine afterNothing fun found _ => ?_
  cases found with
  | none =>
      refine unbroken.reply false 403 ?_
      simp only [List.forall_mem_cons, callsign, chname, true_and]
      decide
  | some channel =>
      refine afterNothing fun member _ => ?_
      cases member with
      | none =>
          refine unbroken.reply false 442 ?_
          simp only [List.forall_mem_cons, callsign, chname, true_and]
          decide
      | some record =>
          dsimp only
          split
          · refine unbroken.reply false 482 ?_
            simp only [List.forall_mem_cons, callsign, chname, true_and]
            decide
          refine afterNothing fun target search => ?_
          cases target with
          | none =>
              refine answer (List.forall_mem_singleton.mpr ?_)
              exact Message.unbroken_of_pieces nofun
          | some iptr =>
              have name : (call.network.clients iptr).callsign.Unbroken :=
                (unbroken.invited reads search).callsign
              refine afterNothing fun already _ => ?_
              cases already with
              | some _ =>
                  refine unbroken.reply false 443 ?_
                  simp only [List.forall_mem_cons, callsign, name, chname,
                    true_and]
                  decide
              | none =>
                  refine answer (List.forall_mem_cons.mpr ⟨?_,
                    List.forall_mem_singleton.mpr ?_⟩)
                  · refine unbroken.numeric 341 ?_
                    simp only [List.forall_mem_cons, callsign, invitee, chname,
                      true_and]
                    decide
                  · refine Message.unbroken_of_pieces ?_
                    simp only [List.forall_mem_cons, callsign, name, chname,
                      true_and]
                    decide

theorem messageStart (unbroken : call.Unbroken) (isNotice : Bool) :
    ∀ piece ∈ call.messageStart isNotice, piece.Unbroken := by
  have object := unbroken.object
  rw [HandlerCall.messageStart]
  cases isNotice with
  | false =>
      simp only [List.forall_mem_cons, unbroken.callsign, object.username,
        object.hostname, true_and]
      decide
  | true =>
      simp only [List.forall_mem_cons, unbroken.callsign, object.username,
        object.hostname, true_and]
      decide

/-- A message to a client, with what is said of its absence. -/
theorem doPrivmsg (unbroken : call.Unbroken)
    (reads : call.ReadsUnbroken .mPrivmsg) (isNotice : Bool) :
    (call.doPrivmsg isNotice).Unbroken := by
  have callsign := unbroken.callsign
  rw [HandlerCall.doPrivmsg]
  cases given : call.argv[2]? with
  | none =>
      refine unbroken.reply false 411 ?_
      simp only [List.forall_mem_cons, callsign, true_and]
      decide
  | some target =>
      have targetHolds := unbroken.given 2 target given
      cases text : call.argv[3]? with
      | none =>
          refine unbroken.reply false 412 ?_
          simp only [List.forall_mem_cons, callsign, true_and]
          decide
      | some msg =>
          have msgHolds := unbroken.given 3 msg text
          dsimp only
          split
          · rw [speech_outcome]
            refine afterNothing fun found _ => ?_
            cases found with
            | none =>
                refine throughNull (unbroken.reply false 404 ?_)
                simp only [List.forall_mem_cons, callsign, targetHolds,
                  true_and]
                decide
            | some channel => exact afterNothing fun _ _ => nofun
          · rename_i notChannel
            refine afterNothing fun found search => ?_
            cases found with
            | none =>
                refine unbroken.reply false 401 ?_
                simp only [List.forall_mem_cons, callsign, targetHolds,
                  true_and]
                decide
            | some dcptr =>
                have read := reads target given notChannel dcptr
                  (by rw [search]; rfl)
                have destination := unbroken.clients dcptr read.1
                have name : (call.network.clients dcptr).callsign.Unbroken :=
                  destination.callsign
                refine List.forall_mem_append.mpr
                  ⟨?_, List.forall_mem_singleton.mpr ?_⟩
                · cases message : (call.network.clients dcptr).awayMsg with
                  | none => exact nofun
                  | some block =>
                      have blockHolds := destination.awayMsg block message
                      have behind := read.2 (by rw [message]; rfl)
                      refine List.forall_mem_singleton.mpr
                        (unbroken.numeric 301 ?_)
                      simp only [List.forall_mem_cons, callsign, name,
                        blockHolds, behind, true_and]
                      decide
                · refine Message.unbroken_of_pieces
                    (List.forall_mem_append.mpr
                      ⟨unbroken.messageStart isNotice, ?_⟩)
                  simp only [List.forall_mem_cons, name, msgHolds, true_and]
                  decide

/-- The handlers that this is about. -/
theorem handle (unbroken : call.Unbroken) {handler : Handler}
    (sends : handler.SendsLines)
    (reads : call.ReadsUnbroken handler) : (call.handle handler).Unbroken := by
  rcases sends with rfl | rfl | rfl | rfl | rfl
  · exact unbroken.mNick
  · exact unbroken.mPing
  · exact unbroken.mInvite reads
  · exact unbroken.doPrivmsg reads false
  · exact unbroken.doPrivmsg reads true

end HandlerCall.Unbroken

/-! ## Runs -/

/-- The command of a step has no NUL, CR or LF in its parameters, and the
messages of the handlers in question hold none. -/
structure NetworkStep.Unbroken (step : NetworkStep δ) : Prop where
  /-- The parameters. -/
  argv : ∀ handed ∈ step.handed,
    ∀ parameter ∈ handed.argv, parameter.Unbroken
  /-- The messages. -/
  sent : ∀ handed ∈ step.handed, handed.handler.SendsLines →
    ∀ delivery ∈ step.sent, delivery.message.Unbroken

/-- A client is constructed in memory without line ends, such as zeroed memory,
and a command reads no line end of the clients that it finds. -/
def Network.ReadsUnbroken (server : NetworkServer δ) (network : Network δ) :
    NetworkEvent δ → Prop
  | .connect _ _ memory _ => memory.Unbroken
  | .receive .. => True
  | .parse id surroundings =>
      ∀ handed ∈
          (network.clients id).client.command (network.clients id).sock,
        (server.call surroundings network id handed).ReadsUnbroken
          handed.handler

instance (server : NetworkServer δ) (network : Network δ) :
    (event : NetworkEvent δ) → Decidable (network.ReadsUnbroken server event)
  | .connect _ _ memory _ => inferInstanceAs (Decidable memory.Unbroken)
  | .receive .. => instDecidableTrue
  | .parse .. => inferInstanceAs (Decidable (∀ handed ∈ _, _))

namespace Network.Unbroken

variable {server : NetworkServer δ} {network next : Network δ}
variable {event : NetworkEvent δ}

/-- A step keeps line ends out of the strings of the clients. -/
theorem advance (unbroken : network.Unbroken)
    (reads : network.ReadsUnbroken server event)
    (advanced : network.advance server event = some next) :
    next.Unbroken := by
  intro id alive
  rcases Network.advance_client advanced alive with
    ⟨fd, memory, now, rfl, constructed⟩ |
    ⟨before, sock, same | ⟨surroundings, handed, object, rfl, hands, change,
      changed⟩⟩
  · rw [constructed]
    exact ClientObject.Unbroken.construct reads fd now
  · rw [same]
    exact { unbroken id before with }
  · rw [changed]
    have parameters := Client.command_unbroken (unbroken id before).callsign
      hands
    exact { change.unbroken parameters (unbroken id before) with }

/-- A step without a command. -/
theorem step_of_handed {step : NetworkStep δ} (handed : step.handed = none) :
    step.Unbroken := by
  constructor
  · intro command hands
    rw [handed] at hands
    cases hands
  · intro command hands
    rw [handed] at hands
    cases hands

/-- What a step hands over and sends. -/
theorem step (unbroken : network.Unbroken)
    (servername : server.text.servername.Unbroken)
    (reads : network.ReadsUnbroken server event) :
    (network.step server event).Unbroken := by
  cases event with
  | connect id fd memory now => exact step_of_handed rfl
  | receive fd recv freed => exact step_of_handed rfl
  | parse id surroundings =>
      rw [Network.step]
      cases returned : network.parse server id surroundings with
      | none => exact step_of_handed rfl
      | some parsed =>
          obtain ⟨alive, handedEq, -⟩ := Network.parse_eq_some returned
          have parameters : ∀ handed ∈ parsed.handed,
              ∀ parameter ∈ handed.argv, parameter.Unbroken := by
            intro handed hands
            exact Client.command_unbroken (unbroken id alive).callsign
              (handedEq.symm.trans hands)
          refine ⟨parameters, fun handed hands sends => ?_⟩
          have call : (server.call surroundings network id handed).Unbroken :=
            ⟨servername, unbroken, alive, parameters handed hands⟩
          dsimp only
          rw [Network.parseSent_of_handed hands]
          exact call.handle sends (reads handed (handedEq.symm.trans hands))

end Network.Unbroken

/-- In a run whose calls read no line end of other clients, the strings of the
clients never hold one, and no line is injected into a message. -/
theorem linesHold (server : NetworkServer δ)
    (servername : server.text.servername.Unbroken)
    (events : List (NetworkEvent δ))
    (reads : EachCall (Network.advance server) (.start server.directory)
      (fun network event => network.ReadsUnbroken server event) events) :
    Always (Network.advance server) (.start server.directory)
        (fun _ network => network.Unbroken) events ∧
      EachCall (Network.advance server) (.start server.directory)
        (fun network event => (network.step server event).Unbroken) events := by
  have always : Always (Network.advance server) (.start server.directory)
      (fun _ network => network.Unbroken) events :=
    Always.of_eachStep _ nofun
      (fun _ _ _ _ _ unbroken advanced admitted =>
        unbroken.advance admitted advanced)
      reads.eachStep
  exact ⟨always, EachCall.of_always always reads
    fun _ _ _ unbroken admitted => unbroken.step servername admitted⟩

/-- Two clients register, and one of them is away. -/
def lunch : List (NetworkEvent (List (CString × Nat))) :=
  [.connect 0 4 .zeroed 0, .connect 1 5 .zeroed 0] ++
    typed 0 4 (.ofLiteral "NICK W1AW\r\n") (quietSurroundings .empty) ++
    typed 1 5 (.ofLiteral "NICK N0CALL\r\n") (quietSurroundings .empty) ++
    typed 1 5 (.ofLiteral "AWAY :lunch\r\n") (quietSurroundings .empty) ++
    [.receive 4
      (.received (CString.ofLiteral "PRIVMSG N0CALL :hi\r\n").bytes) .zeroed]

theorem linesHold_lunch :
    let events := lunch ++ [.parse 0 (quietSurroundings .empty)]
    Always (Network.advance listServer) (.start listServer.directory)
        (fun _ network => network.Unbroken) events ∧
      EachCall (Network.advance listServer) (.start listServer.directory)
        (fun network event => (network.step listServer event).Unbroken)
        events :=
  linesHold listServer (by decide +kernel) _
    (EachCall.of_check (by decide +kernel))

/-- The size of the next block of the heap can stand behind an away message, here
0x0d11 with a CR in it.  The line 301 is then broken. -/
theorem away_breaks_line :
    ∃ network, runFrom (Network.advance listServer)
        (.start listServer.directory) lunch = some network ∧
      ¬(network.step listServer
        (.parse 0 (quietSurroundings (.read [0x11, 0x0d])))).Unbroken := by
  have broken : (runFrom (Network.advance listServer)
      (.start listServer.directory) lunch).any (fun network =>
        let step := network.step listServer
          (.parse 0 (quietSurroundings (.read [0x11, 0x0d])))
        step.handed.any (fun handed => decide (handed.handler = .mPrivmsg)) &&
          step.sent.any fun delivery =>
            !decide delivery.message.Unbroken) = true := by
    decide +kernel
  obtain ⟨network, reached, broken⟩ := (Option.any_eq_true _ _).mp broken
  refine ⟨network, reached, fun unbroken => ?_⟩
  rw [Bool.and_eq_true] at broken
  obtain ⟨handed, hands, privmsg⟩ := (Option.any_eq_true _ _).mp broken.1
  obtain ⟨delivery, sent, cut⟩ := List.any_eq_true.mp broken.2
  have whole := unbroken.sent handed hands
    (.inr (.inr (.inr (.inl (of_decide_eq_true privmsg))))) delivery sent
  simp [whole] at cut

end Hamchat
