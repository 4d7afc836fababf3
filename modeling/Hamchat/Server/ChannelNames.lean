import Hamchat.Foundation.Interning
import Hamchat.Server.Channels

/-!
# Names of channels

`find_channel` looks for a name as it was typed.  `Channel::Channel` copies at
most 23 bytes of it and registers the channel under the copy.  Here `Channels`
is a finite map, and a channel is the number of its object.
-/

namespace Hamchat

open Foundation

/-- `dict *Channels` and the number of `Channel` objects made. -/
abbrev ChannelTable := Interner CString

/-- `find_channel` -/
def findChannel (table : ChannelTable) (name : CString) : Option Nat :=
  table.entries name

/-- `Channel::Channel` copies the name and registers the new object. -/
def constructChannel (table : ChannelTable) (name : CString) :
    Nat × ChannelTable :=
  let field := name.truncate chanLen
  (table.count,
    { entries := Function.update table.entries field (some table.count)
      count := table.count + 1 })

/-- `find_or_add_channel` -/
def findOrAddChannel (table : ChannelTable) (name : CString) :
    Nat × ChannelTable :=
  match findChannel table name with
  | none => constructChannel table name
  | some chptr => (chptr, table)

/-- One call of `find_or_add_channel`: the object that it returns, and the
object that the entry of `Channels` held which `Channel::Channel` writes. -/
def requestChannel (log : InternLog CString) (name : CString) :
    Option (InternLog CString) :=
  let (chptr, table) := findOrAddChannel log.table name
  let replaced :=
    if (findChannel log.table name).isNone then
      log.table.entries (name.truncate chanLen)
    else
      none
  some ⟨table, log.served ++ [⟨name, chptr, replaced⟩]⟩

/-! ## Channels as interned names -/

theorem CString.truncate_truncate (string : CString) (size : Nat) :
    (string.truncate size).truncate size = string.truncate size := by
  ext1
  simp [CString.truncate]

/-- A name is stored whole exactly if it is shorter than its field. -/
theorem CString.truncate_eq_self {string : CString} {size : Nat}
    (positive : 0 < size) :
    string.truncate size = string ↔ string.length < size := by
  rw [CString.ext_iff, CString.truncate, List.take_eq_self_iff, CString.length]
  omega

/-- `find_or_add_channel` interns the names of channels. -/
theorem requestChannel_eq :
    requestChannel = InternLog.request (CString.truncate · chanLen) := by
  funext log name
  rw [requestChannel, InternLog.request, Interner.request,
    findOrAddChannel, findChannel]
  cases log.table.entries name <;> rfl

/-- The model of JOIN registers a channel under the name under which
`find_or_add_channel` leaves its object. -/
theorem entries_openChannel (state : ChannelServer) (table : ChannelTable)
    (memory : JoinMemory) (id : Nat) (name : CString)
    (found : memory.channelFound = true)
    (same : state.channels name = none ↔ findChannel table name = none) :
    (findOrAddChannel table name).2.entries
        (state.openChannel memory id name).1 =
      some (findOrAddChannel table name).1 := by
  rw [findOrAddChannel, ChannelServer.openChannel, if_pos found]
  cases registered : findChannel table name with
  | none =>
      rw [same.mpr registered]
      exact Function.update_self ..
  | some chptr =>
      cases opened : state.channels name with
      | none =>
          rw [same.mp opened] at registered
          cases registered
      | some channel => exact registered

/-! ## One channel for a name -/

/-- Names that agree on the bytes that a channel keeps are one name of at most
23 bytes. -/
def ChannelNamesApart (name other : CString) : Prop :=
  name.truncate chanLen = other.truncate chanLen →
    name = other ∧ other.length < chanLen

/-- Requests get the same channel exactly for the same name, and no entry of
`Channels` is replaced, in every history of requests for names of which no two
agree on their first 23 bytes, unless they are one name of at most 23 bytes; and
in no other. -/
theorem oneChannelPerName_iff (names : List CString) :
    Always requestChannel InternLog.empty (fun _ log => log.Faithful) names ↔
      names.Pairwise ChannelNamesApart := by
  rw [requestChannel_eq, InternLog.always_faithful_iff
    fun name => name.truncate_truncate chanLen]
  refine List.Pairwise.iff fun {name other} => ?_
  rw [Separated, ChannelNamesApart,
    CString.truncate_eq_self (show 0 < chanLen by decide)]

/-- A second JOIN of a name of 24 bytes makes a second channel in the place of
the first. -/
theorem long_name_gets_two_channels :
    (runFrom requestChannel InternLog.empty
        [.ofLiteral "#abcdefghijklmnopqrstuvw",
          .ofLiteral "#abcdefghijklmnopqrstuvw"]).map
        (fun log => log.served.map fun request =>
          (request.object, request.replaced)) =
      some [(0, none), (1, some 0)] ∧
    ¬Always requestChannel InternLog.empty (fun _ log => log.Faithful)
      [.ofLiteral "#abcdefghijklmnopqrstuvw",
        .ofLiteral "#abcdefghijklmnopqrstuvw"] := by
  have served : (runFrom requestChannel InternLog.empty
        [.ofLiteral "#abcdefghijklmnopqrstuvw",
          .ofLiteral "#abcdefghijklmnopqrstuvw"]).map
        (fun log => log.served.map fun request =>
          (request.object, request.replaced)) =
      some [(0, none), (1, some 0)] := by
    decide +kernel
  refine ⟨served, fun always => ?_⟩
  obtain ⟨log, reached, entries⟩ := Option.map_eq_some_iff.mp served
  have last : (1, some 0) ∈ log.served.map fun request =>
      (request.object, request.replaced) := by
    rw [entries]
    simp
  obtain ⟨request, member, replaced⟩ := List.mem_map.mp last
  have kept := (always.final reached).kept request member
  rw [(Prod.mk.inj replaced).2] at kept
  cases kept

end Hamchat
