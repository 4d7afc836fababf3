import Mathlib.Data.List.Forall2

/-!
# The rig wrapper

`Rig` of `src/rig.cpp` over `Rig_Hamlib` of `src/rig_hamlib.cpp`.  The hamlib
library answers each call with a return code, in which zero means success; what
it does inside is left open, so a run is a list of calls with the reply of the
library to each.

`Rig_Hamlib` turns the code into a `bool` and `Rig` takes this `bool` for a code
again, in `SetVFOFreq` and `SetVFOMode` but not in `SetPTT`.
-/

namespace Hamchat

/-- `ptt_t` -/
inductive Ptt
  | off
  | on
  | onMic
  | onData
  deriving DecidableEq

/-- The value of a `ptt_t` in a condition. -/
def Ptt.isOn : Ptt → Bool
  | .off => false
  | .on | .onMic | .onData => true

theorem Ptt.false_eq_isOn {ptt : Ptt} : false = ptt.isOn ↔ ptt = .off := by
  cases ptt <;> decide

/-- `RIG_OK` -/
def rigOk : Int := 0

/-- `RIG_VFO_A` -/
def rigVfoA : Nat := 1

/-- The calls into the hamlib library, where `φ` is the type `freq_t`. -/
inductive HamlibCall (φ : Type)
  | rigGetPtt (vfo : Nat)
  | rigSetPtt (vfo : Nat) (ptt : Ptt)
  | rigSetFreq (vfo : Nat) (freq : φ)
  | rigSetMode (vfo mode : Nat) (width : Int)
  deriving DecidableEq

/-- What a call into the library leaves behind. -/
structure HamlibReply where
  /-- The return code. -/
  rc : Int
  /-- The variable behind the pointer that `rig_get_ptt` takes. -/
  ptt : Ptt
  deriving DecidableEq

/-- The library, as its reply to each call. -/
abbrev Hamlib (φ : Type) := HamlibCall φ → HamlibReply

/-- An `int` that receives a `bool`. -/
def intOfBool (value : Bool) : Int := if value then 1 else 0

/-! ## `Rig_Hamlib` -/

/-- `Rig_Hamlib` -/
structure RigHamlib where
  /-- `ptt_t ptt` -/
  ptt : Ptt
  deriving DecidableEq

namespace RigHamlib

variable {φ : Type} (library : Hamlib φ)

/-- `Rig_Hamlib::GetPTT` -/
def getPTT (this : RigHamlib) : RigHamlib × Bool :=
  let reply := library (.rigGetPtt rigVfoA)
  ({ this with ptt := reply.ptt }, false)

/-- `Rig_Hamlib::SetPTT` -/
def setPTT (state : Bool) : Bool :=
  let rc :=
    if state then
      (library (.rigSetPtt rigVfoA .onData)).rc
    else
      (library (.rigSetPtt rigVfoA .off)).rc
  if rc ≠ rigOk then false else true

/-- `Rig_Hamlib::SetVFOFreq` -/
def setVFOFreq (vfo : Nat) (freq : φ) : Bool :=
  let rc := (library (.rigSetFreq vfo freq)).rc
  if rc = rigOk then true else false

/-- `Rig_Hamlib::SetVFOMode` -/
def setVFOMode (vfo mode : Nat) (width : Int) : Bool :=
  let rc := (library (.rigSetMode vfo mode width)).rc
  if rc = rigOk then true else false

end RigHamlib

/-! ## `Rig` -/

/-- `enum rig_driver_t` -/
inductive RigDriver
  | none
  | hamlib
  | flrig
  | serialPtt
  deriving DecidableEq

/-- `Rig` -/
structure Rig where
  /-- `enum rig_driver_t driver` -/
  driver : RigDriver
  /-- `Rig_Hamlib *hamlib` -/
  hamlib : Option RigHamlib
  deriving DecidableEq

namespace Rig

variable {φ : Type} (library : Hamlib φ)

/-- The object behind `hamlib`, behind the two tests that each function makes. -/
def connection (this : Rig) : Option RigHamlib :=
  if this.driver = .hamlib then this.hamlib else .none

/-- `Rig::GetPTT` -/
def getPTT (this : Rig) : Rig × Bool :=
  match this.connection with
  | some hamlib =>
      let answer := hamlib.getPTT library
      ({ this with hamlib := some answer.1 }, answer.2)
  | none => (this, false)

/-- `Rig::SetPTT` -/
def setPTT (this : Rig) (state : Bool) : Bool :=
  match this.connection with
  | some _ => RigHamlib.setPTT library state
  | none => false

/-- `Rig::SetVFOFreq` -/
def setVFOFreq (this : Rig) (vfo : Nat) (freq : φ) : Bool :=
  match this.connection with
  | some _ =>
      let rc := intOfBool (RigHamlib.setVFOFreq library vfo freq)
      if rc = rigOk then true else false
  | none => false

/-- `Rig::SetVFOMode` -/
def setVFOMode (this : Rig) (vfo mode : Nat) (width : Int) : Bool :=
  match this.connection with
  | some _ =>
      let rc := intOfBool (RigHamlib.setVFOMode library vfo mode width)
      if rc = rigOk then true else false
  | none => false

end Rig

/-! ## Runs -/

/-- The calls on a `Rig`. -/
inductive RigCall (φ : Type)
  | setPTT (state : Bool)
  | getPTT
  | setVFOFreq (vfo : Nat) (freq : φ)
  | setVFOMode (vfo mode : Nat) (width : Int)
  deriving DecidableEq

/-- What the library is asked for by a call on a connected rig. -/
def RigCall.request : RigCall φ → HamlibCall φ
  | .setPTT state => .rigSetPtt rigVfoA (if state then .onData else .off)
  | .getPTT => .rigGetPtt rigVfoA
  | .setVFOFreq vfo freq => .rigSetFreq vfo freq
  | .setVFOMode vfo mode width => .rigSetMode vfo mode width

/-- The rig after a call, and what the call returns. -/
def Rig.perform (library : Hamlib φ) (rig : Rig) : RigCall φ → Rig × Bool
  | .setPTT state => (rig, rig.setPTT library state)
  | .getPTT => rig.getPTT library
  | .setVFOFreq vfo freq => (rig, rig.setVFOFreq library vfo freq)
  | .setVFOMode vfo mode width => (rig, rig.setVFOMode library vfo mode width)

/-- One call on a rig, with the library as it is at that time. -/
structure RigEvent (φ : Type) where
  /-- The call. -/
  call : RigCall φ
  /-- How the library would reply to each request. -/
  library : Hamlib φ

/-- The reply of the library to the request of the call. -/
def RigEvent.reply (event : RigEvent φ) : HamlibReply :=
  event.library event.call.request

/-- What the calls of a run return. -/
def Rig.answers (rig : Rig) : List (RigEvent φ) → List Bool
  | [] => []
  | event :: later =>
      let performed := rig.perform event.library event.call
      performed.2 :: performed.1.answers later

/-! ## Agreement with the driver -/

/-- A rig whose driver is hamlib and which has opened it. -/
def Rig.Connected (rig : Rig) : Prop :=
  rig.driver = .hamlib ∧ rig.hamlib.isSome

/-- A call that sets something returns `true` exactly for the code `RIG_OK`, and
a successful `GetPTT` returns what the library has reported. -/
def RigEvent.Agrees (event : RigEvent φ) (answer : Bool) : Prop :=
  match event.call with
  | .getPTT => event.reply.rc = rigOk → answer = event.reply.ptt.isOn
  | .setPTT _ | .setVFOFreq .. | .setVFOMode .. =>
      answer = true ↔ event.reply.rc = rigOk

/-- All calls of a run agree with the driver. -/
def Rig.AgreesWithDriver (rig : Rig) (events : List (RigEvent φ)) : Prop :=
  List.Forall₂ RigEvent.Agrees events (rig.answers events)

/-- The calls on which the wrapper tells the truth. -/
def RigEvent.IsReported (event : RigEvent φ) : Prop :=
  match event.call with
  | .setPTT _ => True
  | .getPTT => event.reply.rc ≠ rigOk ∨ event.reply.ptt = .off
  | .setVFOFreq .. | .setVFOMode .. => False

theorem Rig.Connected.connection {rig : Rig} (connected : rig.Connected) :
    ∃ hamlib, rig.connection = some hamlib := by
  obtain ⟨driver, opened⟩ := connected
  rw [Rig.connection, if_pos driver]
  exact Option.isSome_iff_exists.mp opened

/-- No call disconnects the rig. -/
theorem Rig.Connected.perform {rig : Rig} (connected : rig.Connected)
    (library : Hamlib φ) (call : RigCall φ) :
    (rig.perform library call).1.Connected := by
  obtain ⟨hamlib, opened⟩ := connected.connection
  cases call with
  | setPTT state => exact connected
  | setVFOFreq vfo freq => exact connected
  | setVFOMode vfo mode width => exact connected
  | getPTT =>
      rw [Rig.perform, Rig.getPTT, opened]
      exact ⟨connected.1, rfl⟩

/-- The second conversion of a success code turns it around. -/
theorem intOfBool_eq_rigOk (success : Bool) :
    intOfBool success = rigOk ↔ success = false := by
  cases success <;> decide

/-- The answer of one call agrees with the driver exactly if the wrapper reports
that call. -/
theorem RigEvent.agrees_iff {rig : Rig} (connected : rig.Connected)
    (event : RigEvent φ) :
    event.Agrees (rig.perform event.library event.call).2 ↔
      event.IsReported := by
  obtain ⟨call, library⟩ := event
  obtain ⟨hamlib, opened⟩ := connected.connection
  cases call with
  | setPTT state =>
      have agrees : RigHamlib.setPTT library state = true ↔
          (library (RigCall.setPTT state).request).rc = rigOk := by
        unfold RigHamlib.setPTT RigCall.request
        cases state <;> simp
      simp only [Rig.perform, Rig.setPTT, opened]
      exact iff_of_true agrees trivial
  | getPTT =>
      have agrees (reply : HamlibReply) :
          (reply.rc = rigOk → false = reply.ptt.isOn) ↔
            reply.rc ≠ rigOk ∨ reply.ptt = .off := by
        rw [Ptt.false_eq_isOn]
        exact imp_iff_not_or
      simp only [Rig.perform, Rig.getPTT, opened, RigHamlib.getPTT]
      exact agrees _
  | setVFOFreq vfo freq =>
      simp only [Rig.perform, Rig.setVFOFreq, opened, intOfBool_eq_rigOk]
      unfold RigEvent.Agrees RigEvent.IsReported RigEvent.reply
      simp [RigHamlib.setVFOFreq, RigCall.request]
  | setVFOMode vfo mode width =>
      simp only [Rig.perform, Rig.setVFOMode, opened, intOfBool_eq_rigOk]
      unfold RigEvent.Agrees RigEvent.IsReported RigEvent.reply
      simp [RigHamlib.setVFOMode, RigCall.request]

/-- Over every run on a connected rig, all answers agree with the driver exactly
if no call sets the frequency or the mode and every successful `GetPTT` finds
the transmitter off. -/
theorem agreesWithDriver_iff {rig : Rig} (connected : rig.Connected)
    (events : List (RigEvent φ)) :
    rig.AgreesWithDriver events ↔ ∀ event ∈ events, event.IsReported := by
  induction events generalizing rig with
  | nil => simp [Rig.AgreesWithDriver, Rig.answers]
  | cons event later inductionHypothesis =>
      have next := inductionHypothesis
        (connected.perform event.library event.call)
      rw [Rig.AgreesWithDriver] at next
      rw [Rig.AgreesWithDriver, Rig.answers, List.forall₂_cons, next,
        RigEvent.agrees_iff connected, List.forall_mem_cons]

theorem agreesWithDriver_iff_setPTT :
    Rig.AgreesWithDriver ⟨.hamlib, some ⟨.off⟩⟩
        [(⟨.setPTT true, fun _ => ⟨0, .onData⟩⟩ : RigEvent Nat)] ↔
      ∀ event ∈ [(⟨.setPTT true, fun _ => ⟨0, .onData⟩⟩ : RigEvent Nat)],
        event.IsReported :=
  agreesWithDriver_iff ⟨rfl, rfl⟩ _

/-- The library sets the frequency and `SetVFOFreq` returns `false`; it refuses
and `SetVFOFreq` returns `true`; it reports an active transmitter and `GetPTT`
returns `false`. -/
theorem wrapper_disagrees :
    Rig.answers ⟨.hamlib, some ⟨.off⟩⟩
        [⟨.setVFOFreq 1 14105000, fun _ => ⟨0, .off⟩⟩,
          ⟨.setVFOFreq 1 14105000, fun _ => ⟨-1, .off⟩⟩,
          (⟨.getPTT, fun _ => ⟨0, .on⟩⟩ : RigEvent Nat)] =
      [false, true, false] ∧
    ¬Rig.AgreesWithDriver ⟨.hamlib, some ⟨.off⟩⟩
        [⟨.setVFOFreq 1 14105000, fun _ => ⟨0, .off⟩⟩,
          ⟨.setVFOFreq 1 14105000, fun _ => ⟨-1, .off⟩⟩,
          (⟨.getPTT, fun _ => ⟨0, .on⟩⟩ : RigEvent Nat)] := by
  refine ⟨by decide, ?_⟩
  intro agrees
  have first := (List.forall₂_cons.mp agrees).1
  exact absurd (first.mpr rfl) (by decide)

end Hamchat
