import Hamchat.Network.Defs

/-!
# The handlers of the command table

Every handler that `irc_commands` names, over the objects and tables of the
server.  Lines of the log are left out.
-/

namespace Hamchat

/-- `IDLE_AFTER` -/
def idleAfter : Int := 120

/-- A call of a handler. -/
structure HandlerCall (δ : Type) where
  /-- The calls on tables. -/
  directory : Directory δ
  /-- The texts of the server. -/
  text : NetworkText
  /-- What the call meets. -/
  surroundings : Surroundings δ
  /-- The server. -/
  network : Network δ
  /-- `Client *cptr` -/
  self : Nat
  /-- `int argc` -/
  argc : Nat
  /-- `char **argv`, up to its first NULL. -/
  argv : List CString

/-- What a message to a channel leads to. -/
structure Speech (δ : Type) where
  /-- The call of `Channel::SendToAll`, with its channel and the pieces of the
  text. -/
  relayed : Option (Nat × List CString)
  /-- What `do_privmsg` does. -/
  outcome : Outcome δ

namespace HandlerCall

variable (call : HandlerCall δ)

/-- `*cptr` -/
def object : ClientObject := call.network.clients call.self

/-- `cptr->GetCallsign()` -/
def callsign : CString := call.object.callsign

/-- `cptr->Send(...)` with a format that starts with the server name and a
numeric. -/
def numeric (numeric : Nat) (pieces : List CString) : Delivery where
  recipient := call.self
  message :=
    { numeric := some numeric
      pieces := [.ofLiteral ":", call.text.servername, .ofLiteral " ",
        formatNumeric numeric, .ofLiteral " "] ++ pieces }

/-- `cptr->Send(...)` with another format. -/
def line (pieces : List CString) : Delivery := ⟨call.self, none, pieces⟩

/-- `find_client(callsign)` -/
def findClient (callsign : Option CString) : Option (Option Nat) :=
  call.directory.findPointer call.network.clientsByCallsign callsign

/-- `find_channel(name)` -/
def findChannel (name : Option CString) : Option (Option Nat) :=
  call.directory.findPointer call.network.channelTable name

/-- `channel->IsMember(id)` -/
def findMember (channel id : Nat) : Option (Option Nat) :=
  call.network.findMember call.directory channel id

/-- Return without a change. -/
def answer (value : Bool) (sent : List Delivery) : Outcome δ :=
  .reply call.network value sent

/-- Return with the sender changed. -/
def update (value : Bool) (sent : List Delivery) (object : ClientObject) :
    Outcome δ :=
  .reply (call.network.setClient call.self object) value sent

/-! ## Registration -/

/-- The lines that `Client::send_connect_numerics` sends to a client that it
accepts. -/
def welcome (callsign : CString) : List Delivery :=
  let clients := formatInt call.network.currClients
  let most := formatInt call.network.maxClients
  [call.numeric 1 [callsign,
      .ofLiteral " :Welcome to the Internet Relay Chat Network ", callsign,
      .ofLiteral "!"],
    call.numeric 2 [callsign, .ofLiteral " :Your host is ",
      call.text.servername, .ofLiteral ", running version hamchat ", version],
    call.numeric 3 [callsign, .ofLiteral " :This server was created ",
      call.text.created],
    call.numeric 4 [callsign, .ofLiteral " ", call.text.servername,
      .ofLiteral " hamchat-", version, .ofLiteral " :exp"],
    call.numeric 251 [callsign, .ofLiteral " :There are ", clients,
      .ofLiteral " users connected to this instance"],
    call.numeric 255 [callsign, .ofLiteral " :I have ", clients,
      .ofLiteral " clients and no linked servers"],
    call.numeric 265 [callsign, .ofLiteral " ", clients, .ofLiteral " ", most,
      .ofLiteral " :Current local users ", clients, .ofLiteral ", max ", most],
    call.numeric 266 [callsign, .ofLiteral " ", clients, .ofLiteral " ", most,
      .ofLiteral " :Current global users ", clients, .ofLiteral ", max ", most],
    call.numeric 250 [callsign, .ofLiteral " :Highest connection count: ",
      most, .ofLiteral " (", most, .ofLiteral " clients) (", most,
      .ofLiteral " received)"]]

/-- `Client::send_connect_numerics` of a client, as its result and what it sends.
When a password is set, it deletes the client. -/
def sendConnectNumerics (client : Client) : Bool × List Delivery :=
  if client.pass ≠ .empty then
    (false, [
      call.numeric 464 [client.callsign, .ofLiteral " :Password incorrect"],
      call.line [.ofLiteral "ERROR :Incorrect user/password"]])
  else
    (true, call.welcome client.callsign)

/-- What is sent for an accepted NICK, and whether the client is alive after
it. -/
def nickReply (newCall : CString) : Bool × List Delivery :=
  let client := call.object.client.markNick
  if call.object.client.hasNickOrUser then
    (true, [call.line [.ofLiteral ":", call.callsign, .ofLiteral " NICK ",
      newCall]])
  else if client.connState &&& ircStateUser ≠ 0 then
    call.sendConnectNumerics client
  else
    (true, [])

/-- `m_nick` -/
def mNick : Outcome δ :=
  if 1 ≤ call.argc then
    match call.argv[2]? with
    | none =>
        call.answer false [call.numeric 432 [call.callsign, .ofLiteral " ",
          shown none, .ofLiteral " :Invalid callsign format"]]
    | some newCall =>
        if !isValidCallsign newCall then
          call.answer false [call.numeric 432 [call.callsign, .ofLiteral " ",
            newCall, .ofLiteral " :Invalid callsign format"]]
        else
          .after [] (call.findClient (some newCall)) fun owner =>
            match owner with
            | some _ =>
                let target :=
                  if call.callsign = .empty then
                    .ofLiteral "*"
                  else
                    call.callsign
                call.answer false [call.numeric 433 [target, .ofLiteral " ",
                  newCall, .ofLiteral " :Callsign is already registered"]]
            | none =>
                let network := call.network.setClient call.self
                  { call.object with client := call.object.client.markNick }
                match call.nickReply newCall with
                | (true, sent) =>
                    .after sent
                      (network.setCallsign call.directory
                        call.surroundings.now call.self newCall)
                      fun network => .reply network true sent
                | (false, sent) => .undefined sent
  else
    call.answer false [call.numeric 431 [call.callsign,
      .ofLiteral " :No callsign given"]]

/-- `m_user`.  After `send_connect_numerics` has deleted the client the handler
reads through its NULL socket. -/
def mUser : Outcome δ :=
  let client := call.object.client
  if client.connState &&& ircStateUser ≠ 0 then
    call.answer false [call.numeric 462 [call.callsign,
      .ofLiteral " :You may not reregister"]]
  else
    let client := client.markUser call.argv
    let object := { call.object with client := client }
    if client.connState &&& ircStateNick ≠ 0 then
      match call.sendConnectNumerics client with
      | (true, sent) => call.update true sent object
      | (false, sent) => .undefined sent
    else
      call.update true [] object

/-- `m_pass` -/
def mPass : Outcome δ :=
  let client := call.object.client
  if client.connState &&& ircStatePass ≠ 0 then
    call.answer false [call.numeric 462 [call.callsign,
      .ofLiteral " :You may not reregister"]]
  else
    match call.argv[2]? with
    | none =>
        call.answer false [call.numeric 461 [call.callsign,
          .ofLiteral " PASS :Not enough parameters"]]
    | some chpass =>
        call.update false []
          { call.object with client := client.storePass chpass }

/-- `m_cap` -/
def mCap : Outcome δ :=
  let target :=
    if call.callsign = .empty then .ofLiteral "*" else call.callsign
  call.answer true [call.numeric 421 [target,
    .ofLiteral " CAP :Unknown command"]]

/-- `m_quit` -/
def mQuit : Outcome δ :=
  .after []
    (call.network.delete call.directory call.surroundings.freed call.self)
    fun network => .reply network true []

/-! ## Channels -/

/-- The end of `Channel::AddUser`: the new record and the topic. -/
def recordMember (network : Network δ) (channel : Nat) : Outcome δ :=
  .after []
    (network.addMember call.directory call.surroundings call.self channel)
    fun next =>
      let chptr := network.channels channel
      let sent :=
        if chptr.topic = .empty then
          [call.numeric 331 [call.callsign, .ofLiteral " ", chptr.name,
            .ofLiteral " :No topic is set"]]
        else
          [call.numeric 332 [call.callsign, .ofLiteral " ", chptr.name,
              .ofLiteral " :", chptr.topic],
            call.numeric 333 [call.callsign, .ofLiteral " ", chptr.name,
              .ofLiteral " ", chptr.topicSetby, .ofLiteral " :",
              formatInt chptr.topicTime]]
      .reply next false sent

/-- `Channel::AddUser`, and the value that `m_join` returns. -/
def addUser (network : Network δ) (channel : Nat) : Outcome δ :=
  .after [] (network.findMember call.directory channel call.self) fun found =>
    match found with
    | none => call.recordMember network channel
    | some record =>
        match (network.records record).cptr with
        | some other =>
            if (network.clients other).callsign.sameIgnoringCase
                call.callsign then
              .reply network false []
            else
              call.recordMember network channel
        | none =>
            if call.surroundings.nullCallsign.sameIgnoringCase
                call.callsign then
              (Outcome.reply network false []).throughNull
            else
              (call.recordMember network channel).throughNull

/-- `m_join` from the point where the channel is found or made. -/
def joinChannel (network : Network δ) (channel : Nat) : Outcome δ :=
  let chptr := network.channels channel
  if chptr.key ≠ .empty then
    .reply network false [call.numeric 475 [call.callsign, .ofLiteral " ",
      chptr.name, .ofLiteral " :Cannot join channel (+k)"]]
  else if countUserChannels call.self ≥ userMaxChan then
    .reply network false [call.numeric 405 [call.callsign, .ofLiteral " ",
      chptr.name, .ofLiteral " :You have joined too many channels"]]
  else
    call.addUser network channel

/-- `m_join`.  `find_or_add_channel` searches for the channel again. -/
def mJoin : Outcome δ :=
  if call.argc < 1 then
    call.answer false []
  else
    match call.argv[2]? with
    | none => .undefined []
    | some chname =>
        if chname = .empty then
          call.answer false []
        else if isZeroName chname then
          call.answer false []
        else
          .after [] (call.findChannel (some chname)) fun found =>
            match found with
            | some channel => call.joinChannel call.network channel
            | none =>
                .after []
                  (call.network.newChannel call.directory call.surroundings
                    call.self chname)
                  fun made => call.joinChannel made.2 made.1

/-- `m_part`.  The loop that splits the list of channels runs until its pointer is
NULL. -/
def mPart : Outcome δ :=
  if call.argc < 2 then call.answer false [] else .undefined []

/-- The lines 353 of `m_names`, up to a record whose `cptr` is NULL. -/
def nameLines (target : CString) : List Nat → List Delivery
  | [] => []
  | record :: rest =>
      match (call.network.records record).cptr with
      | none => []
      | some member =>
          call.numeric 353 [call.callsign, .ofLiteral " = ", target,
              .ofLiteral " :", (call.network.clients member).callsign] ::
            nameLines target rest

/-- `m_names` -/
def mNames : Outcome δ :=
  let endOfNames := call.numeric 366 [call.callsign, .ofLiteral " ",
    shown call.argv[2]?, .ofLiteral " :End of /NAMES list"]
  match call.argv[2]? with
  | none => call.answer false [endOfNames]
  | some target =>
      if target.bytes.head? ≠ some 35 then
        call.answer false [endOfNames]
      else
        .after [] (call.findChannel (some target)) fun found =>
          match found with
          | none => call.answer false [endOfNames]
          | some channel =>
              .after []
                (call.directory.entries (call.network.channels channel).members)
                fun records =>
                  call.answer true
                    (call.nameLines target records ++ [endOfNames])

/-- `m_invite` -/
def mInvite : Outcome δ :=
  let invitee := call.argv[2]?
  let chname := call.argv[3]?
  .after [] (call.findChannel chname) fun found =>
    match found with
    | none =>
        call.answer false [call.numeric 403 [call.callsign, .ofLiteral " ",
          shown chname, .ofLiteral " :No such channel"]]
    | some channel =>
        .after [] (call.findMember channel call.self) fun member =>
          match member with
          | none =>
              call.answer false [call.numeric 442 [call.callsign,
                .ofLiteral " ", shown chname,
                .ofLiteral " :You're not on that channel"]]
          | some record =>
              if !(call.network.records record).hasOp then
                call.answer false [call.numeric 482 [call.callsign,
                  .ofLiteral " ", shown chname,
                  .ofLiteral " :You're not channel operator"]]
              else
                .after [] (call.findClient invitee) fun target =>
                  match target with
                  | none => call.answer false [call.line []]
                  | some iptr =>
                      let name := (call.network.clients iptr).callsign
                      .after [] (call.findMember channel iptr) fun already =>
                        match already with
                        | some _ =>
                            call.answer false [call.numeric 443 [call.callsign,
                              .ofLiteral " ", name, .ofLiteral " ",
                              shown chname]]
                        | none =>
                            call.answer true
                              [call.numeric 341 [call.callsign, .ofLiteral " ",
                                  shown invitee, .ofLiteral " ", shown chname],
                                ⟨iptr, none, [.ofLiteral ":", call.callsign,
                                  .ofLiteral " INVITE ", name, .ofLiteral " ",
                                  shown chname]⟩]

/-! ## Messages -/

/-- The text of a private message in front of its target. -/
def messageStart (isNotice : Bool) : List CString :=
  [.ofLiteral ":", call.callsign, .ofLiteral "!", call.object.client.username,
    .ofLiteral "@", call.object.hostname,
    if isNotice then .ofLiteral " NOTICE " else .ofLiteral " PRIVMSG "]

/-- `cptr->last_msg = now; return true;` -/
def messageSent (sent : List Delivery) : Outcome δ :=
  call.update true sent { call.object with lastMsg := call.surroundings.now }

/-- `"Cannot send to channel"` -/
def cannotSend (target : CString) : Delivery :=
  call.numeric 404 [call.callsign, .ofLiteral " ", target,
    .ofLiteral " :Cannot send to channel"]

/-- The part of `do_privmsg` for a channel, with its call of `SendToAll`. -/
def speech (isNotice : Bool) (target msg : CString) : Speech δ :=
  match call.findChannel (some target) with
  | none => ⟨none, .undefined []⟩
  | some none =>
      ⟨none, (call.answer false [call.cannotSend target]).throughNull⟩
  | some (some chptr) =>
      let muted := false
      let isMember := true
      match call.network.isMember call.directory chptr call.self with
      | none => ⟨none, .undefined []⟩
      | some found =>
          let isMember := if found then true else isMember
          if muted || !isMember then
            ⟨none, call.answer false [call.cannotSend target]⟩
          else
            ⟨some (chptr, call.messageStart isNotice ++
              [target, .ofLiteral " :", msg]), call.messageSent []⟩

/-- `do_privmsg`.  `SendToAll` sends nothing, and a channel that is not found is
asked for its members before it is tested. -/
def doPrivmsg (isNotice : Bool) : Outcome δ :=
  match call.argv[2]? with
  | none =>
      call.answer false [call.numeric 411 [call.callsign,
        .ofLiteral " :No recipient given"]]
  | some target =>
      match call.argv[3]? with
      | none =>
          call.answer false [call.numeric 412 [call.callsign,
            .ofLiteral " :No text to send"]]
      | some msg =>
          if target.bytes.head? = some 35 then
            (call.speech isNotice target msg).outcome
          else
            .after [] (call.findClient (some target)) fun found =>
              match found with
              | none =>
                  call.answer false [call.numeric 401 [call.callsign,
                    .ofLiteral " ", target, .ofLiteral " :No such callsign"]]
              | some dcptr =>
                  let destination := call.network.clients dcptr
                  let away :=
                    match destination.awayMsg with
                    | none => []
                    | some block =>
                        [call.numeric 301 [call.callsign, .ofLiteral " ",
                          destination.callsign, .ofLiteral " :", block,
                          call.surroundings.behindAway]]
                  call.messageSent (away ++
                    [⟨dcptr, none, call.messageStart isNotice ++
                      [destination.callsign, .ofLiteral " :", msg]⟩])

variable {call} in
/-- The answer of `IsMember` decides nothing. -/
theorem speech_outcome {isNotice : Bool} {target msg : CString} :
    (call.speech isNotice target msg).outcome =
      .after [] (call.findChannel (some target)) fun found =>
        match found with
        | none => (call.answer false [call.cannotSend target]).throughNull
        | some chptr =>
            .after [] (call.findMember chptr call.self) fun _ =>
              call.messageSent [] := by
  rw [speech]
  cases call.findChannel (some target) with
  | none => rfl
  | some found =>
      cases found with
      | none => rfl
      | some chptr =>
          simp only [Outcome.after, findMember, Network.isMember]
          cases call.network.findMember call.directory chptr call.self with
          | none => rfl
          | some mp => cases mp <;> rfl

/-- `m_away` -/
def mAway : Outcome δ :=
  let object :=
    if call.object.awayMsg.isSome then
      { call.object with awayMsg := none, awaySince := 0 }
    else
      call.object
  if 1 ≤ call.argc then
    match call.argv[2]? with
    | none => .undefined []
    | some target =>
        call.update true
          [call.numeric 306 [call.callsign,
            .ofLiteral " :You have been marked as being away"]]
          { object with
            awaySince := call.surroundings.now
            awayMsg := some (target.truncate (awayLen + 1)) }
  else
    call.update true
      [⟨call.self, some 305, [call.text.servername, .ofLiteral " 305 ",
        call.callsign,
        .ofLiteral " :You are no longer marked as being away."]⟩]
      object

/-- `m_ping` -/
def mPing : Outcome δ :=
  if 1 ≤ call.argc then
    call.answer true [call.line [.ofLiteral ":", call.text.servername,
      .ofLiteral " PONG :", shown call.argv[2]?]]
  else
    call.answer false []

/-- `m_pong` -/
def mPong : Outcome δ :=
  if call.object.lastPing ≠ 0 then
    call.update true []
      { call.object with lastPing := call.surroundings.now, gotPong := true }
  else
    call.answer false []

/-! ## Operators -/

/-- `"Permission denied"`, unless the sender is an operator. -/
def operatorOnly (allowed : Outcome δ) : Outcome δ :=
  if call.object.isOper then
    allowed
  else
    call.answer false [call.numeric 481 [call.callsign,
      .ofLiteral " :Permission denied, you are not an IRC operator."]]

/-- `m_die`.  `shutdown(void)` closes and unlinks the pid file, and returns. -/
def mDie : Outcome δ := call.operatorOnly (call.answer true [])

/-- `m_rehash` -/
def mRehash : Outcome δ := call.operatorOnly (call.answer true [])

/-- `m_stats` -/
def mStats : Outcome δ := call.operatorOnly (call.answer true [])

/-- `m_whowas` -/
def mWhowas : Outcome δ := call.operatorOnly (call.answer false [])

/-- `m_oper` -/
def mOper : Outcome δ :=
  call.answer false [call.numeric 481 [call.callsign,
    .ofLiteral " :Permission denied, you are not an IRC operator."]]

/-- The first reply of `m_kill`, unless it has both of its parameters. -/
def killMissing (callsign reason : Option CString) : List Delivery :=
  if callsign.isNone || reason.isNone then
    [call.numeric 461 [call.callsign,
      .ofLiteral " KILL :Not enough parameters"]]
  else
    []

/-- `m_kill` from the point where the target is found. -/
def killClient (sent : List Delivery) (reason : Option CString)
    (target : Nat) : Outcome δ :=
  let sent := sent ++ [call.line [.ofLiteral ":", call.callsign,
    .ofLiteral " KILL ", (call.network.clients target).callsign,
    .ofLiteral " :", shown reason]]
  .after sent
    (call.network.delete call.directory call.surroundings.freed target)
    fun network => .reply network true sent

/-- `m_kill`, which takes the reason for the callsign and goes on after its first
reply. -/
def mKill : Outcome δ :=
  let callsign := call.argv[3]?
  let reason := call.argv[4]?
  let sent := call.killMissing callsign reason
  if !call.object.client.isActive || !call.object.isOper then
    call.answer false (sent ++ [call.numeric 481 [call.callsign,
      .ofLiteral " :Permission denied, you are not an IRC operator."]])
  else
    .after sent (call.findClient callsign) fun found =>
      match found with
      | none =>
          call.answer false (sent ++ [call.numeric 401 [call.callsign,
            .ofLiteral " ", shown callsign, .ofLiteral " :No such nickname"]])
      | some target => call.killClient sent reason target

/-! ## Information -/

/-- The seconds that `m_whois` reports as idle. -/
def idleTime (object : ClientObject) : Int :=
  if 0 < object.lastMsg ∧ idleAfter < call.surroundings.now - object.lastMsg then
    call.surroundings.now - object.lastMsg
  else
    0

/-- `m_whois` -/
def mWhois : Outcome δ :=
  let nick := if 3 ≤ call.argc then call.argv[3]? else call.argv[2]?
  match nick with
  | none =>
      call.answer false [call.numeric 431 [call.callsign,
        .ofLiteral " :No callsign given"]]
  | some nick =>
      .after [] (call.findClient (some nick)) fun found =>
        match found with
        | none =>
            call.answer false [call.numeric 401 [call.callsign, .ofLiteral " ",
              nick, .ofLiteral " :Callsign is not currently reachable"]]
        | some acptr =>
            let object := call.network.clients acptr
            let name := object.callsign
            let about (numeric : Nat) (pieces : List CString) : Delivery :=
              call.numeric numeric
                ([call.callsign, .ofLiteral " ", name] ++ pieces)
            call.answer true (
              [about 311 [.ofLiteral " ", object.client.username,
                  .ofLiteral " ", object.hostname, .ofLiteral " * :",
                  object.client.realname],
                about 312 [.ofLiteral " ", name, .ofLiteral ".hamchat :", name,
                  .ofLiteral " via hamchat"]] ++
              (if object.isOper then
                [about 313 [.ofLiteral " :Is an IRC operator"]]
              else
                []) ++
              [about 317 [.ofLiteral " ", formatInt (call.idleTime object),
                .ofLiteral " ", formatInt object.connected,
                .ofLiteral " :seconds idle, signon time"]] ++
              (if call.object.client.connState &&& ircStatePass ≠ 0 then
                [about 330 [.ofLiteral " ", name,
                    .ofLiteral " :is logged in as"],
                  about 307 [.ofLiteral " :has logged in for this account"]]
              else
                []) ++
              [about 318 [.ofLiteral " :End of /WHOIS"]])

/-- A handler that sends lines of the server. -/
def inform (handler : Handler) (value : Bool) : Outcome δ :=
  call.answer value ((call.text.lines handler call.callsign
    call.surroundings.now call.network.currClients).map (⟨call.self, ·⟩))

/-- `m_list`, which no active client gets an answer from. -/
def mList : Outcome δ :=
  if !call.object.client.isActive then
    call.inform .mList true
  else
    call.answer false []

/-! ## The table -/

/-- `cp->cmd_func(cptr, argc, argv)` -/
def handle : Handler → Outcome δ
  | .mAdmin => call.inform .mAdmin true
  | .mAway => call.mAway
  | .mCap => call.mCap
  | .mDie => call.mDie
  | .mHelp => call.inform .mHelp true
  | .mInfo => call.inform .mInfo false
  | .mInvite => call.mInvite
  | .mJoin => call.mJoin
  | .mKill => call.mKill
  | .mList => call.mList
  | .mLusers => call.inform .mLusers false
  | .mNames => call.mNames
  | .mNick => call.mNick
  | .mNotice => call.doPrivmsg true
  | .mOper => call.mOper
  | .mPart => call.mPart
  | .mPass => call.mPass
  | .mPing => call.mPing
  | .mPong => call.mPong
  | .mPrivmsg => call.doPrivmsg false
  | .mQuit => call.mQuit
  | .mRehash => call.mRehash
  | .mStats => call.mStats
  | .mTime => call.inform .mTime true
  | .mUser => call.mUser
  | .mVersion => call.inform .mVersion true
  | .mWhois => call.mWhois
  | .mWhowas => call.mWhowas
  -- These return false at once; `MOTD::Send` sends nothing.
  | .mKick | .mMode | .mMotd | .mTopic | .mUserhost | .mWho =>
      call.answer false []

end HandlerCall

end Hamchat
