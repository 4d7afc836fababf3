import Hamchat.Foundation.TwoRuns
import Hamchat.Network.Changes
import Hamchat.Network.Forget
import Hamchat.Parser.Similar

/-!
# What new memory holds

The constructors of `Client`, `Socket` and `Channel` assign few of their fields,
so what the others hold is what the memory held before.  Two servers are compared
that get the same connections and the same lines, but different memory.
-/

namespace Hamchat

open Foundation

/-! ## The same input -/

/-- Two events are the same, but for the memory of a new client and of a new
channel, which is in a relation. -/
inductive NetworkEvent.Corresponds
    (clients : ClientObject → ClientObject → Prop)
    (channels : ChannelObject δ → ChannelObject δ → Prop) :
    NetworkEvent δ → NetworkEvent δ → Prop
  /-- A connection. -/
  | connect (id : Nat) (fd now : Int) {memory memory' : ClientObject}
      (same : clients memory memory') :
      Corresponds clients channels (.connect id fd memory now)
        (.connect id fd memory' now)
  /-- A read. -/
  | receive (fd : Int) (recv : Recv) (freed : ClientObject) :
      Corresponds clients channels (.receive fd recv freed)
        (.receive fd recv freed)
  /-- A call of `Client::Parse`. -/
  | parse (id : Nat) (surroundings : Surroundings δ) {channel : ChannelObject δ}
      (same : channels surroundings.channel channel) :
      Corresponds clients channels (.parse id surroundings)
        (.parse id { surroundings with channel := channel })

/-- The same connections and the same lines, with any memory. -/
def SameInput : List (NetworkEvent δ) → List (NetworkEvent δ) → Prop :=
  List.Forall₂ (NetworkEvent.Corresponds (fun _ _ => True) fun _ _ => True)

/-- Two contents of the memory of a client agree wherever the fields are read
before they are assigned. -/
structure ClientObject.ReadAlike (first second : ClientObject) : Prop where
  /-- `callsign` -/
  callsign : first.client.callsign = second.client.callsign
  /-- `username` -/
  username : first.client.username = second.client.username
  /-- `realname` -/
  realname : first.client.realname = second.client.realname
  /-- `pass` -/
  pass : first.client.pass = second.client.pass
  /-- `is_oper` -/
  isOper : first.isOper = second.isOper
  /-- `away_msg` -/
  awayMsg : first.awayMsg = second.awayMsg
  /-- `last_msg`, if it is positive. -/
  lastMsg : max first.lastMsg 0 = max second.lastMsg 0
  /-- `recvbuf`, `recvbuf_lock`, `read_waiting` and `recvbuf_offset`. -/
  sock : first.sock = second.sock

/-- Two contents of the memory of a channel agree in its key and its topic, and in
what belongs to a topic that is set. -/
structure ChannelObject.ReadAlike (first second : ChannelObject δ) : Prop where
  /-- `key` -/
  key : first.key = second.key
  /-- `topic` -/
  topic : first.topic = second.topic
  /-- `topic_setby` -/
  topicSetby : first.topic ≠ .empty → first.topicSetby = second.topicSetby
  /-- `topic_time` -/
  topicTime : first.topic ≠ .empty → first.topicTime = second.topicTime

/-- The same connections and the same lines, with memory that agrees wherever it is
read. -/
def SameRead : List (NetworkEvent δ) → List (NetworkEvent δ) → Prop :=
  List.Forall₂ (NetworkEvent.Corresponds ClientObject.ReadAlike
    ChannelObject.ReadAlike)

/-! ## The same behaviour -/

/-- What a step shows: the command that is dispatched, the messages, and whether
the server goes on. -/
def Network.visible (server : NetworkServer δ) (network : Network δ)
    (event : NetworkEvent δ) : Option Handed × List Delivery × Bool :=
  let step := network.step server event
  (step.handed, step.sent, step.next.isSome)

/-- Two inputs are answered in the same way. -/
def NetworkServer.AnswersAlike (server : NetworkServer δ)
    (first second : List (NetworkEvent δ)) : Prop :=
  outputs (Network.advance server) (Network.visible server)
      (.start server.directory) first =
    outputs (Network.advance server) (Network.visible server)
      (.start server.directory) second

/-- Nobody is an operator, and no channel has a key. -/
structure Network.Unprivileged (network : Network δ) : Prop where
  /-- The clients. -/
  isOper : ∀ id, network.alive id = true →
    (network.clients id).isOper = false
  /-- The channels. -/
  key : ∀ channel < network.channelCount,
    (network.channels channel).key = .empty

/-- A client is no operator, has no name, and is not away. -/
def ClientObject.Blank (object : ClientObject) : Prop :=
  object.isOper = false ∧ object.callsign = .empty ∧ object.awayMsg = none

instance (object : ClientObject) : Decidable object.Blank :=
  inferInstanceAs (Decidable (_ ∧ _ ∧ _))

/-- The memory of a new client is blank, and that of a new channel has no key. -/
def NetworkEvent.Blank : NetworkEvent δ → Prop
  | .connect _ _ memory _ => memory.Blank
  | .receive .. => True
  | .parse _ surroundings => surroundings.channel.key = .empty

instance : (event : NetworkEvent δ) → Decidable event.Blank
  | .connect _ _ memory _ => inferInstanceAs (Decidable memory.Blank)
  | .receive .. => instDecidableTrue
  | .parse .. => inferInstanceAs (Decidable (_ = _))

/-! ## Alike servers -/

/-- Two servers differ only in what no reply depends on. -/
def Network.Alike (first second : Network δ) : Prop :=
  first.forget = second.forget

theorem ClientObject.ReadAlike.construct {memory memory' : ClientObject}
    (same : memory.ReadAlike memory') (fd now : Int) :
    (memory.construct fd now).forget = (memory'.construct fd now).forget := by
  have client : ({ memory.client with connState := ircStateNone } : Client) =
      { memory'.client with connState := ircStateNone } := by
    simp only [same.callsign, same.username, same.realname, same.pass]
  simp only [ClientObject.forget, ClientObject.construct, client, same.isOper,
    same.awayMsg, same.lastMsg, same.sock]

theorem ChannelObject.ReadAlike.forget {first second : ChannelObject δ}
    (same : first.ReadAlike second) (members : δ) (name : CString)
    (owner : Option Nat) :
    { first.forget with members := members, name := name, owner := owner } =
      { second.forget with members := members, name := name, owner := owner } := by
  simp only [ChannelObject.forget, ChannelObject.mk.injEq, same.key, same.topic,
    true_and, and_true]
  refine ⟨?_, ?_⟩
  · split
    · rfl
    · exact same.topicSetby (same.topic ▸ ‹_›)
  · split
    · rfl
    · exact same.topicTime (same.topic ▸ ‹_›)

theorem forget_channel {surroundings : Surroundings δ}
    {channel : ChannelObject δ}
    (same : surroundings.channel.ReadAlike channel) (directory : Directory δ) :
    surroundings.forget directory =
      Surroundings.forget directory
        { surroundings with channel := channel } := by
  rw [Surroundings.forget, Surroundings.forget,
    same.forget directory.null .empty none]

namespace Network.Alike

variable {first second : Network δ}

theorem alive (alike : first.Alike second) : first.alive = second.alive :=
  show first.forget.alive = second.forget.alive from
    congrArg Network.alive alike

theorem clientsByFd (alike : first.Alike second) :
    first.clientsByFd = second.clientsByFd :=
  show first.forget.clientsByFd = second.forget.clientsByFd from
    congrArg Network.clientsByFd alike

theorem object (alike : first.Alike second) (id : Nat) :
    (first.clients id).forget = (second.clients id).forget :=
  congrFun (congrArg Network.clients alike) id

theorem client (alike : first.Alike second) (id : Nat) :
    (first.clients id).client = (second.clients id).client :=
  show (first.clients id).forget.client = (second.clients id).forget.client from
    congrArg ClientObject.client (alike.object id)

theorem sock (alike : first.Alike second) (id : Nat) :
    (first.clients id).sock = (second.clients id).sock :=
  show (first.clients id).forget.sock = (second.clients id).forget.sock from
    congrArg ClientObject.sock (alike.object id)

theorem setClient (alike : first.Alike second) (id : Nat)
    {object object' : ClientObject} (same : object.forget = object'.forget) :
    (first.setClient id object).Alike (second.setClient id object') := by
  rw [Alike, forget_setClient, forget_setClient, same,
    show first.forget = second.forget from alike]

/-- The same client with another content of its fields and its buffer. -/
theorem setClient_with (alike : first.Alike second) (id : Nat) (client : Client)
    (sock : Socket) :
    (first.setClient id
      { first.clients id with client := client, sock := sock }).Alike
      (second.setClient id
        { second.clients id with client := client, sock := sock }) := by
  refine alike.setClient id ?_
  exact congrArg (fun object : ClientObject =>
      { object with client := client, sock := sock })
    (alike.object id)

/-! ## Steps -/

theorem forget_withConnected (network : Network δ) (directory : Directory δ)
    (id : Nat) (object : ClientObject) (byFd : δ) :
    (network.withClient directory id object byFd).forget =
      network.forget.withClient directory id object.forget byFd := by
  rw [withClient, withClient, ← forget_setClient]
  rfl

theorem connect (alike : first.Alike second) (directory : Directory δ) (id : Nat)
    (fd now : Int) {memory memory' : ClientObject}
    (same : memory.ReadAlike memory') :
    (first.connect directory id fd memory now).map forget =
      (second.connect directory id fd memory' now).map forget := by
  rw [Network.connect, Network.connect, alike.alive, enterFd, enterFd,
    alike.clientsByFd]
  split
  · rfl
  · simp only [Option.bind_eq_bind, Option.map_bind, Function.comp_def,
      Option.map_some, forget_withConnected, same.construct fd now,
      show first.forget = second.forget from alike]

theorem delete (alike : first.Alike second) (directory : Directory δ)
    (freed : ClientObject) (id : Nat) :
    (first.delete directory freed id).map forget =
      (second.delete directory freed id).map forget := by
  rw [← delete_forget, ← delete_forget,
    show first.forget = second.forget from alike]

theorem receive (alike : first.Alike second) (directory : Directory δ) (fd : Int)
    (recv : Recv) (freed : ClientObject) :
    (first.receive directory fd recv freed).map forget =
      (second.receive directory fd recv freed).map forget := by
  rw [Network.receive, Network.receive, alike.clientsByFd]
  cases directory.find second.clientsByFd ((formatInt fd).truncate 15) with
  | none => rfl
  | some found =>
      simp only [Option.bind_eq_bind, Option.bind_some]
      cases found with
      | none => exact congrArg some alike
      | some id =>
          dsimp only
          rw [alike.alive, alike.sock id]
          split
          · cases sockReadCb (second.clients id).sock recv with
            | none => rfl
            | some ending =>
                cases ending with
                | returned sock =>
                    refine congrArg some (alike.setClient id ?_)
                    exact congrArg (fun object : ClientObject =>
                      { object with sock := sock }) (alike.object id)
                | deleted => exact alike.delete directory freed id
                | aborted => rfl
          · rfl

end Network.Alike

/-- No command makes its sender an operator. -/
theorem ClientObject.Change.isOper {argv : List CString}
    {object next : ClientObject}
    (change : ClientObject.Change argv object next) :
    next.isOper = object.isOper := by
  cases change <;> rfl

/-- Outcomes without a difference look alike to `Client::Parse`. -/
theorem Outcome.handlerEnd_similar {first second : Outcome δ}
    (same : first.forget = second.forget) (id : Nat) :
    HandlerEnd.Similar Network.Alike (first.handlerEnd id)
      (second.handlerEnd id) := by
  have sent : first.sent = second.sent :=
    show first.forget.sent = second.forget.sent from
      congrArg Outcome.sent same
  have texts : first.texts = second.texts := by
    rw [Outcome.texts, Outcome.texts, sent]
  have ending : first.ending.forget = second.ending.forget :=
    congrArg Outcome.ending same
  rw [Outcome.handlerEnd, Outcome.handlerEnd, texts]
  cases left : first.ending with
  | returned value network =>
      cases right : second.ending with
      | returned value' network' =>
          rw [left, right] at ending
          have alike : network.Alike network' :=
            (Ending.returned.inj ending).2
          dsimp only
          rw [alike.alive, alike.client id]
          split
          · exact .returned value value' second.texts _ alike
          · exact .ended second.texts
      | undefined =>
          rw [left, right] at ending
          cases ending
  | undefined =>
      cases right : second.ending with
      | returned value network =>
          rw [left, right] at ending
          cases ending
      | undefined => exact .ended second.texts

namespace Network.Alike

variable {first second : Network δ} (server : NetworkServer δ)

/-- A handler does the same on both servers. -/
theorem handle (alike : first.Alike second) {surroundings : Surroundings δ}
    {channel : ChannelObject δ}
    (same : surroundings.channel.ReadAlike channel) (id : Nat)
    (handed : Handed) (handler : Handler) :
    ((server.call surroundings first id handed).handle handler).forget =
      ((server.call { surroundings with channel := channel } second id
        handed).handle handler).forget := by
  have calls : (server.call surroundings first id handed).forget =
      (server.call { surroundings with channel := channel } second id
        handed).forget := by
    rw [HandlerCall.forget, HandlerCall.forget]
    simp only [NetworkServer.call]
    rw [forget_channel same, show first.forget = second.forget from alike]
  calc ((server.call surroundings first id handed).handle handler).forget
      = ((server.call surroundings first id handed).forget.handle
          handler).forget := (HandlerCall.handle_forget ..).symm
    _ = ((server.call { surroundings with channel := channel } second id
          handed).forget.handle handler).forget := by rw [calls]
    _ = _ := HandlerCall.handle_forget ..

/-- `Client::Parse` calls its handlers with the client in its place. -/
theorem run (alike : first.Alike second) {surroundings : Surroundings δ}
    {channel : ChannelObject δ}
    (same : surroundings.channel.ReadAlike channel) (id : Nat) (client : Client)
    (handler : Handler) (argc : Nat) (argv : List CString) :
    HandlerEnd.Similar Network.Alike
      ((server.handlers surroundings id).run handler first client argc argv)
      ((server.handlers { surroundings with channel := channel } id).run handler
        second client argc argv) := by
  have placed : (first.setClient id
        { first.clients id with client := client }).Alike
      (second.setClient id { second.clients id with client := client }) :=
    alike.setClient id (congrArg (fun object : ClientObject =>
      { object with client := client }) (alike.object id))
  exact Outcome.handlerEnd_similar
    (placed.handle server same id ⟨handler, argc, argv⟩ handler) id

/-- A call of `Client::Parse` does the same on both servers. -/
theorem parse (alike : first.Alike second) {surroundings : Surroundings δ}
    {channel : ChannelObject δ}
    (same : surroundings.channel.ReadAlike channel) (id : Nat) :
    Option.Rel (Parsed.Similar Network.Alike)
      (first.parse server id surroundings)
      (second.parse server id { surroundings with channel := channel }) := by
  rw [Network.parse, Network.parse, alike.alive, alike.client id, alike.sock id]
  split
  · refine Client.parse_similar ?_ alike ?_ _
    · rfl
    · exact alike.run server same id (second.clients id).client
  · exact .none

theorem afterParse (id : Nat) {left right : ParseEnd (Network δ)}
    (similar : ParseEnd.Similar Network.Alike left right) :
    (Network.afterParse id left).map forget =
      (Network.afterParse id right).map forget := by
  cases similar with
  | ended => rfl
  | returned value client sock alike =>
      exact congrArg some (alike.setClient_with id client sock)

theorem parseSent (alike : first.Alike second) {surroundings : Surroundings δ}
    {channel : ChannelObject δ}
    (same : surroundings.channel.ReadAlike channel) (id : Nat)
    {left right : Parsed (Network δ)} (handed : left.handed = right.handed)
    (sent : left.sent = right.sent) :
    first.parseSent server id surroundings left =
      second.parseSent server id { surroundings with channel := channel }
        right := by
  rw [Network.parseSent, Network.parseSent, handed, sent]
  cases right.handed with
  | none => rfl
  | some handed =>
      have outcomes := alike.handle server same id handed
        handed.handler
      exact show Outcome.sent (Outcome.forget _) = Outcome.sent
        (Outcome.forget _) from congrArg Outcome.sent outcomes

/-- A step shows the same on both servers, and keeps them alike. -/
theorem step (alike : first.Alike second) {event event' : NetworkEvent δ}
    (same : NetworkEvent.Corresponds ClientObject.ReadAlike
      ChannelObject.ReadAlike event event') :
    (first.step server event).handed = (second.step server event').handed ∧
      (first.step server event).sent = (second.step server event').sent ∧
      (first.step server event).next.map forget =
        (second.step server event').next.map forget := by
  cases same with
  | connect id fd now memories =>
      have next := alike.connect server.directory id fd now memories
      refine ⟨rfl, ?_, next⟩
      have isSome := congrArg Option.isSome next
      rw [Option.isSome_map, Option.isSome_map] at isSome
      rw [Network.step, Network.step]
      dsimp only
      rw [isSome]
  | receive fd recv freed =>
      exact ⟨rfl, rfl, alike.receive server.directory fd recv freed⟩
  | parse id surroundings channels =>
      have parsed := alike.parse server channels id
      rw [Network.step, Network.step]
      generalize leftEq : first.parse server id surroundings = left at parsed
      generalize rightEq : second.parse server id _ = right at parsed
      cases parsed with
      | none => exact ⟨rfl, rfl, rfl⟩
      | @some left right similar =>
          obtain ⟨handed, sent, result⟩ := similar
          exact ⟨handed, alike.parseSent server channels id handed sent,
            afterParse id result⟩

end Network.Alike

/-! ## Runs -/

/-- Memory that agrees where it is read makes no difference. -/
theorem answersAlike_of_sameRead (server : NetworkServer δ)
    {first second : List (NetworkEvent δ)} (same : SameRead first second) :
    server.AnswersAlike first second := by
  refine outputs_eq_of_alike Network.Alike
    (NetworkEvent.Corresponds ClientObject.ReadAlike ChannelObject.ReadAlike)
    ?_ ?_ rfl same
  · intro left right event event' alike events
    obtain ⟨handed, sent, next⟩ := alike.step server events
    have goesOn := congrArg Option.isSome next
    rw [Option.isSome_map, Option.isSome_map] at goesOn
    rw [Network.visible, Network.visible, handed, sent, goesOn]
  · intro left right event event' alike events
    exact rel_of_map_eq (alike.step server events).2.2

theorem Network.unprivileged_start (directory : Directory δ) :
    (Network.start directory).Unprivileged where
  isOper _ alive := absurd alive Bool.false_ne_true
  key channel inside := absurd inside (Nat.not_lt_zero channel)

/-- No step makes an operator or gives a channel a key. -/
theorem Network.Unprivileged.advance {server : NetworkServer δ}
    {network next : Network δ} {event : NetworkEvent δ}
    (unprivileged : network.Unprivileged) (blank : event.Blank)
    (advanced : network.advance server event = some next) :
    next.Unprivileged where
  isOper id alive := by
    rcases Network.advance_client advanced alive with
      ⟨fd, memory, now, rfl, constructed⟩ |
      ⟨before, sock, same | ⟨_, handed, object, -, -, change, changed⟩⟩
    · rw [constructed]
      exact blank.1
    · rw [same]
      exact unprivileged.isOper id before
    · rw [changed]
      exact change.isOper.trans (unprivileged.isOper id before)
  key channel inside := by
    rcases Network.advance_channel advanced inside with
      ⟨before, members, same⟩ | ⟨id, surroundings, members, name, rfl, made⟩
    · rw [same]
      exact unprivileged.key channel before
    · rw [made]
      exact blank

/-- The client that an event has connected is blank. -/
def Network.NewcomerBlank (network : Network δ) (last : Option (NetworkEvent δ)) :
    Prop :=
  ∀ id fd memory now, last = some (.connect id fd memory now) →
    (network.clients id).Blank

/-- Memory that agrees where it is read makes no difference; and if it is blank,
then nobody is ever an operator, no channel is keyed, and no newcomer is named or
away. -/
theorem garbage_unread (server : NetworkServer δ)
    {first second : List (NetworkEvent δ)} (same : SameRead first second)
    (blank : ∀ event ∈ first, event.Blank) :
    server.AnswersAlike first second ∧
      Always (Network.advance server) (.start server.directory)
        (fun past network => network.Unprivileged ∧
          network.NewcomerBlank past.getLast?) first := by
  refine ⟨answersAlike_of_sameRead server same, ?_⟩
  have atStart : (Network.start server.directory).NewcomerBlank none := by
    intro id fd memory now last
    cases last
  refine Always.of_eachStep _ ⟨Network.unprivileged_start _, atStart⟩ ?_
    (show EachStep _ _ (fun _ event => event.Blank) first from ?_)
  · rintro past network event next within ⟨unprivileged, -⟩ advanced blank
    refine ⟨unprivileged.advance blank advanced, ?_⟩
    rw [List.getLast?_concat]
    rintro id fd memory now ⟨⟩
    obtain ⟨-, byFd, -, rfl⟩ := Network.connect_eq_some advanced
    rw [Network.withClient_clients_self]
    exact blank
  · intro past event within network next _ _
    exact blank event (within.subset (by simp))

/-- A client connects and sends two lines. -/
def visit (memory : ClientObject)
    (surroundings : Surroundings (List (CString × Nat))) (line : CString) :
    List (NetworkEvent (List (CString × Nat))) :=
  [.connect 0 4 memory 0] ++
    typed 0 4 (.ofLiteral "NICK W1AW\r\n") surroundings ++
    typed 0 4 line surroundings

/-- The fields that are not read before they are assigned, with other contents. -/
def strayClient : ClientObject :=
  { ClientObject.zeroed with
    client := { freshClient with connState := 31 }
    fd := 77
    awaySince := 7
    connected := 3
    lastPing := 9
    gotPong := true
    lastMsg := -5 }

/-- A topic that is not set, by somebody. -/
def strayChannel : ChannelObject (List (CString × Nat)) :=
  { ChannelObject.zeroed listDirectory with
    topicSetby := .ofLiteral "N0CALL"
    topicTime := 9 }

theorem garbage_unread_join :
    let quiet := quietSurroundings .empty
    let first := visit .zeroed quiet (.ofLiteral "JOIN #qso\r\n")
    let second := visit strayClient { quiet with channel := strayChannel }
      (.ofLiteral "JOIN #qso\r\n")
    listServer.AnswersAlike first second ∧
      Always (Network.advance listServer) (.start listServer.directory)
        (fun past network => network.Unprivileged ∧
          network.NewcomerBlank past.getLast?) first := by
  have clients : ClientObject.zeroed.ReadAlike strayClient :=
    ⟨rfl, rfl, rfl, rfl, rfl, rfl, by decide, rfl⟩
  have channels : (quietSurroundings .empty).channel.ReadAlike strayChannel :=
    ⟨rfl, rfl, fun set => absurd rfl set, fun set => absurd rfl set⟩
  exact garbage_unread listServer
    (.cons (.connect 0 4 0 clients) (.cons (.receive ..)
      (.cons (.parse 0 _ channels) (.cons (.receive ..)
        (.cons (.parse 0 _ channels) .nil)))))
    (by decide +kernel)

/-- A server with the dictionary of the repository. -/
def dictServer : NetworkServer (Option (Dict Nat)) where
  directory := dictDirectory
  text := listServer.text

/-- What its commands meet. -/
def dictSurroundings : Surroundings (Option (Dict Nat)) where
  now := 0
  behindAway := .empty
  nullCallsign := .empty
  record := ⟨none, 0, false⟩
  channel := .zeroed dictDirectory
  freed := .zeroed

/-- Memory whose `recvbuf` happens to hold a line. -/
def strayLine : ClientObject :=
  { ClientObject.zeroed with
    sock :=
      { Socket.zeroed with
        recvbuf := (RecvBuf.zero.write 0
          (CString.ofLiteral "NICK W1AW\r\n").bytes).getD .zero } }

/-- A client whose memory happens to hold `is_oper` is not told that DIE is for
operators.  No read finds its client in the dictionary of the repository, but there a client is
named by a line that its memory happens to hold. -/
theorem garbage_read :
    (¬∀ first second : List (NetworkEvent (List (CString × Nat))),
      SameInput first second → listServer.AnswersAlike first second) ∧
    ¬∀ first second : List (NetworkEvent (Option (Dict Nat))),
      SameInput first second → dictServer.AnswersAlike first second := by
  constructor
  · intro unread
    have same := unread
      (visit .zeroed (quietSurroundings .empty) (.ofLiteral "DIE now\r\n"))
      (visit { ClientObject.zeroed with isOper := true }
        (quietSurroundings .empty) (.ofLiteral "DIE now\r\n"))
      (.cons (.connect 0 4 0 trivial) (.cons (.receive ..)
        (.cons (.parse 0 _ trivial) (.cons (.receive ..)
          (.cons (.parse 0 _ trivial) .nil)))))
    have sent := congrArg (List.map fun shows => shows.2.1.length) same
    revert sent
    decide +kernel
  · intro unread
    have same := unread
      [.connect 0 4 .zeroed 0, .parse 0 dictSurroundings]
      [.connect 0 4 strayLine 0, .parse 0 dictSurroundings]
      (.cons (.connect 0 4 0 trivial) (.cons (.parse 0 _ trivial) .nil))
    have handed := congrArg (List.map fun shows => shows.1.isSome) same
    revert handed
    decide +kernel

end Hamchat
