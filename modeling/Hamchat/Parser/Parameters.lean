import Hamchat.Parser.Command
import Hamchat.Parser.Line

/-!
# Parameters without line ends

The loop of `Client::Parse` stops at every byte that could end a line, so it
copies none.  The only parameter that it does not copy is the first one, which
is the callsign of the client: nothing is handed over from a line with a prefix.
-/

namespace Hamchat

/-- A string holds no NUL, CR or LF. -/
def CString.Unbroken (string : CString) : Prop :=
  ∀ byte ∈ string.bytes, isStop byte = false

instance (string : CString) : Decidable string.Unbroken :=
  List.decidableBAll (fun byte => isStop byte = false) string.bytes

namespace CString

theorem Unbroken.truncate {string : CString} (unbroken : string.Unbroken)
    (size : Nat) : (string.truncate size).Unbroken :=
  fun byte member => unbroken byte (List.mem_of_mem_take member)

/-- A text is unbroken exactly if its parts are. -/
theorem unbroken_concat {parts : List CString} :
    (concat parts).Unbroken ↔ ∀ part ∈ parts, part.Unbroken := by
  constructor
  · intro unbroken part member byte inPart
    exact unbroken byte (List.mem_flatMap.mpr ⟨part, member, inPart⟩)
  · intro unbroken byte member
    obtain ⟨part, inParts, inPart⟩ := List.mem_flatMap.mp member
    exact unbroken part inParts byte inPart

end CString

/-! ## The loop -/

/-- No block of a list holds a NUL, CR or LF. -/
def Unbroken (parv : List Block) : Prop :=
  ∀ block ∈ parv, ∀ byte ∈ block.bytes, isStop byte = false

theorem Tokens.allocate_unbroken {tokens next : Tokens}
    (unbroken : Unbroken tokens.parv)
    (allocated : tokens.allocate = some next) : Unbroken next.parv := by
  rw [Tokens.allocate] at allocated
  split at allocated
  · cases allocated
  split at allocated
  · obtain rfl := Option.some.inj allocated
    exact unbroken
  split at allocated
  · obtain rfl := Option.some.inj allocated
    intro block member byte inBlock
    rcases List.mem_append.mp member with before | new
    · exact unbroken block before byte inBlock
    · obtain rfl := List.mem_singleton.mp new
      cases inBlock
  · cases allocated

theorem Tokens.copyByte_unbroken {tokens next : Tokens} {byte : UInt8}
    (unbroken : Unbroken tokens.parv) (inside : isStop byte = false)
    (copied : tokens.copyByte byte = some next) : Unbroken next.parv := by
  rw [Tokens.copyByte, Option.bind_eq_bind, Option.bind_eq_some_iff] at copied
  obtain ⟨block, found, copied⟩ := copied
  rw [Option.bind_eq_some_iff] at copied
  obtain ⟨stored, store, copied⟩ := copied
  obtain rfl := Option.some.inj copied
  rw [Block.store, Option.ite_none_right_eq_some] at store
  obtain rfl := Option.some.inj store.2
  intro other member other' inOther
  rcases List.mem_or_eq_of_mem_set member with before | rfl
  · exact unbroken other before other' inOther
  · rcases List.mem_append.mp inOther with before | new
    · exact unbroken block (List.mem_of_getElem? found) other' before
    · exact List.mem_singleton.mp new ▸ inside

/-- The loop copies no byte that ends a line. -/
theorem tokenLoop_unbroken {memory : List UInt8} {tokens final : Tokens}
    (unbroken : Unbroken tokens.parv)
    (split : tokenLoop memory tokens = some final) : Unbroken final.parv := by
  induction memory generalizing tokens with
  | nil => cases split
  | cons byte rest inductionHypothesis =>
      rw [tokenLoop, Option.bind_eq_bind, Option.bind_eq_some_iff] at split
      obtain ⟨allocated, allocation, split⟩ := split
      have kept := Tokens.allocate_unbroken unbroken allocation
      split at split
      · obtain rfl := Option.some.inj split
        exact kept
      · rename_i goesOn
        rw [← isStop_iff, Bool.not_eq_true] at goesOn
        split at split
        · refine inductionHypothesis ?_ split
          exact kept
        split at split
        · refine inductionHypothesis ?_ split
          exact kept
        · rw [Option.bind_eq_some_iff] at split
          obtain ⟨copied, copy, split⟩ := split
          exact inductionHypothesis
            (Tokens.copyByte_unbroken kept goesOn copy) split

/-! ## A command -/

/-- A block that is terminated reads as some of its bytes. -/
theorem Block.toCString_subset {block : Block} {string : CString}
    (terminated : block.toCString = some string) :
    string.bytes ⊆ block.bytes := by
  rw [Block.toCString, Option.ite_none_right_eq_some] at terminated
  obtain rfl := Option.some.inj terminated.2
  exact (List.takeWhile_prefix _).subset

/-- All elements of a list are read exactly if each of them is. -/
theorem mapM_eq_some_iff {read : α → Option β} {list : List α}
    {mapped : List β} :
    list.mapM read = some mapped ↔ list.map read = mapped.map some := by
  induction list generalizing mapped with
  | nil => cases mapped <;> simp
  | cons first rest inductionHypothesis =>
      rw [List.mapM_cons, Option.bind_eq_bind, Option.bind_eq_some_iff]
      constructor
      · rintro ⟨head, firstRead, all⟩
        rw [Option.bind_eq_bind, Option.bind_eq_some_iff] at all
        obtain ⟨tail, restRead, all⟩ := all
        obtain rfl := Option.some.inj all
        rw [List.map_cons, List.map_cons, firstRead,
          inductionHypothesis.mp restRead]
      · intro same
        obtain ⟨head, tail, rfl, firstRead, restRead⟩ :=
          List.map_eq_cons_iff.mp same.symm
        refine ⟨head, firstRead.symm, ?_⟩
        rw [inductionHypothesis.mpr restRead.symm]
        rfl

theorem exists_of_mem_mapM {read : α → Option β} {list : List α}
    {mapped : List β} (all : list.mapM read = some mapped) {value : β}
    (member : value ∈ mapped) : ∃ source ∈ list, read source = some value := by
  rw [← List.mem_map, mapM_eq_some_iff.mp all]
  exact List.mem_map_of_mem member

theorem mapM_getElem? {read : α → Option β} {list : List α}
    {mapped : List β} (all : list.mapM read = some mapped) (i : Nat) :
    list[i]?.bind read = mapped[i]? := by
  have same := congrArg (·[i]?) (mapM_eq_some_iff.mp all)
  simp only [List.getElem?_map] at same
  have joined := congrArg (Option.bind · id) same
  simp only [Option.bind_map] at joined
  exact joined.trans (Option.bind_fun_some _)

/-- The parameters that are handed over hold no NUL, CR or LF, whatever is in the
buffer. -/
theorem Client.command_unbroken {client : Client} {sock : Socket}
    {handed : Handed} (unbroken : client.callsign.Unbroken)
    (hands : client.command sock = some handed) :
    ∀ parameter ∈ handed.argv, parameter.Unbroken := by
  obtain ⟨tokens, name, ⟨-, recvbuf, buf, sender, consumed, head, split, many⟩,
    -, -, terminated, -⟩ := Client.command_eq_some.mp hands
  obtain ⟨first, rest, found, ways⟩ := parseHead_eq_some head
  have noPrefix : first ≠ colon := by
    rintro rfl
    obtain ⟨one, -⟩ := tokenLoop_prefix head found split
    rw [one] at many
    exact Nat.lt_irrefl 1 many
  have senderEq : sender.bytes = client.callsign.bytes := by
    rcases ways with ⟨-, equal⟩ | ⟨isColon, -⟩ | ⟨isColon, -⟩ | ⟨isColon, -⟩
    · cases equal
      rfl
    · exact absurd isColon noPrefix
    · exact absurd isColon noPrefix
    · exact absurd isColon noPrefix
  have start : Unbroken [sender, ⟨cmdLen, []⟩] := by
    intro block member byte inBlock
    rcases List.mem_pair.mp member with rfl | rfl
    · exact unbroken byte (senderEq ▸ inBlock)
    · cases inBlock
  intro parameter member byte inParameter
  obtain ⟨block, inParv, read⟩ :=
    exists_of_mem_mapM terminated member
  exact tokenLoop_unbroken start split block inParv byte
    (Block.toCString_subset read inParameter)

end Hamchat
