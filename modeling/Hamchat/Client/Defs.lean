import Hamchat.CString

/-!
# Clients and commands

The fields of `Client` that parsing and registration use, the connection flags
of `include/irc_client.h`, and the command table of `include/irc_cmd_table.h`.
-/

namespace Hamchat

/-- `CALLSIGN_LEN` -/
def callsignLen : Nat := 16

/-- `USER_LEN` -/
def userLen : Nat := 10

/-- `REALNAME_LEN` -/
def realnameLen : Nat := 24

/-- `PASS_LEN` -/
def passLen : Nat := 32

/-- `IRC_STATE_NONE` -/
def ircStateNone : Nat := 0x0000

/-- `IRC_STATE_NICK` -/
def ircStateNick : Nat := 0x0004

/-- `IRC_STATE_USER` -/
def ircStateUser : Nat := 0x0010

/-- `IRC_STATE_PASS`, which has the value of `IRC_STATE_USER`. -/
def ircStatePass : Nat := 0x0010

/-- `IRC_STATE_ALIVE` -/
def ircStateAlive : Nat := ircStateNick ||| ircStateUser

/-- `Client` -/
structure Client where
  /-- `char callsign[CALLSIGN_LEN+1]` -/
  callsign : CString
  /-- `int conn_state` -/
  connState : Nat
  /-- `char username[USER_LEN+1]` -/
  username : CString
  /-- `char realname[REALNAME_LEN+1]` -/
  realname : CString
  /-- `char pass[PASS_LEN]`, read as a string. -/
  pass : CString
  /-- The callsign fits its array. -/
  callsign_le : callsign.length ≤ callsignLen
  deriving DecidableEq

/-- `IRC_IsActive` -/
def Client.isActive (client : Client) : Bool :=
  client.connState &&& ircStateAlive ≠ 0

/-- A client before registration. -/
def freshClient : Client where
  callsign := .empty
  connState := ircStateNone
  username := .empty
  realname := .empty
  pass := .empty
  callsign_le := by decide

/-- `Client::Send`, as the text of the line that it sends. -/
def sendText (parts : List CString) : CString :=
  (CString.concat parts).truncate 512

/-! ## The command table -/

/-- The handlers named in `irc_commands`. -/
inductive Handler
  | mAdmin
  | mAway
  | mCap
  | mDie
  | mHelp
  | mInfo
  | mInvite
  | mJoin
  | mKick
  | mKill
  | mList
  | mLusers
  | mMode
  | mMotd
  | mNames
  | mNick
  | mNotice
  | mOper
  | mPart
  | mPass
  | mPing
  | mPong
  | mPrivmsg
  | mQuit
  | mRehash
  | mStats
  | mTime
  | mTopic
  | mUser
  | mUserhost
  | mVersion
  | mWho
  | mWhois
  | mWhowas
  deriving DecidableEq

/-- `irc_cmds`, without the wire byte and the help text. -/
structure IrcCmds where
  /-- `const char *cmd_proto` -/
  cmdProto : Option CString
  /-- `int min_args` -/
  minArgs : Int
  /-- `int max_args` -/
  maxArgs : Int
  /-- `bool (*cmd_func)(Client *, int, char **)` -/
  cmdFunc : Option Handler
  /-- `bool registered` -/
  registered : Bool
  deriving DecidableEq

/-- A row with a command and a handler. -/
def IrcCmds.row (cmdProto : String) (minArgs maxArgs : Int) (cmdFunc : Handler)
    (registered : Bool) : IrcCmds where
  cmdProto := some (CString.ofLiteral cmdProto)
  minArgs := minArgs
  maxArgs := maxArgs
  cmdFunc := some cmdFunc
  registered := registered

/-- `MAXPARA` -/
def maxPara : Int := 15

/-- `irc_commands` -/
def ircCommands : List IrcCmds :=
  [
    .row "ADMIN" 0 1 .mAdmin true,
    .row "AWAY" 0 1 .mAway true,
    .row "CAP" 0 maxPara .mCap false,
    .row "DIE" 0 1 .mDie true,
    .row "HELP" 0 2 .mHelp true,
    .row "INFO" 0 0 .mInfo true,
    .row "INVITE" 2 2 .mInvite true,
    .row "JOIN" 1 2 .mJoin true,
    .row "KICK" 2 3 .mKick true,
    .row "KILL" 1 2 .mKill true,
    .row "LIST" 0 2 .mList true,
    .row "LUSERS" 0 0 .mLusers true,
    .row "MODE" 1 maxPara .mMode true,
    .row "MOTD" 0 1 .mMotd true,
    .row "NAMES" 0 1 .mNames true,
    .row "NICK" 1 1 .mNick false,
    .row "NOTICE" 2 2 .mNotice true,
    .row "OPER" 1 1 .mOper true,
    .row "PART" 0 1 .mPart true,
    .row "PASS" 0 1 .mPass true,
    .row "PING" 1 1 .mPing false,
    .row "PONG" 1 1 .mPong false,
    .row "PRIVMSG" 2 3 .mPrivmsg true,
    .row "QUIT" 0 1 .mQuit false,
    .row "REHASH" 0 1 .mRehash true,
    .row "STATS" 1 2 .mStats true,
    .row "TIME" 0 1 .mTime true,
    .row "TOPIC" 1 2 .mTopic true,
    .row "USER" 4 4 .mUser false,
    .row "USERHOST" 1 5 .mUserhost true,
    .row "VERSION" 0 1 .mVersion true,
    .row "WHO" 1 1 .mWho true,
    .row "WHOIS" 0 2 .mWhois true,
    .row "WHOWAS" 1 1 .mWhowas true,
    { cmdProto := none
      minArgs := -1
      maxArgs := -1
      cmdFunc := none
      registered := false }
  ]

end Hamchat
