import Unimoc.Drive.History
import Unimoc.Drive.LocalRequest
import Unimoc.Ebike.InhibitLatch

/-! The latch of the e-bike control in the drive: a readiness other than ENGAGED inhibits the
control, which keeps the drive off for the rest of the spin unless it returns an old request. -/
namespace Unimoc.Ebike

open Cyphal Drive Kunteng Runs

variable {F : Type} [Arithmetic F]

theorem inhibit_again (unit : EbikeUnit F) (n : Nat) :
    Drive.EbikeControl.inhibit^[n + 1] unit = Drive.EbikeControl.inhibit unit := by
  induction n with
  | zero => rfl
  | succ n ih =>
    rw [Function.iterate_succ_apply', ih]
    rfl

/-- A readiness other than ENGAGED keeps the drive off for the rest of its spin. -/
def ReleaseObeyed (s : System F (EbikeUnit F)) (input : System.Input F) : Prop :=
  s.HandlesRelease input → ¬s.CallsEngage input

theorem callsEngage_iff {s : System F (EbikeUnit F)} {input : System.Input F} {unit : EbikeUnit F}
    (unasked : s.engageRequested = false) (controlled : s.ebike = some unit)
    (slow : 0 < toMicroseconds unit.control.parameters.rearmPedalStop) (handles : s.HandlesRelease input) :
    s.CallsEngage input ↔ EbikeControl.Remembers input.nowUs unit.control := by
  have released := System.toLocalControl_released unasked controlled handles
  obtain ⟨n, vehicle, asked⟩ :=
    System.spinLocalControl_released released input.nowUs input.motorTemperature
  rw [inhibit_again] at asked
  have engage := EbikeControl.update_inhibited unit.functions input.nowUs vehicle
    (unit.readings.headD ⟨Scalar.zero, [], []⟩) unit.control.inhibit rfl rfl slow
  unfold System.CallsEngage EbikeControl.Remembers
  rw [asked]
  change (unit.control.inhibit.update unit.functions input.nowUs vehicle
    (unit.readings.headD ⟨Scalar.zero, [], []⟩)).2.output.engage = true ↔ _
  rw [engage]
  change (!unit.control.due input.nowUs && unit.control.output.engage) = true ↔ _
  rw [Bool.and_eq_true, Bool.not_eq_true']

/-- Over any calls that are heeded the control keeps the drive off after an inhibit and after a fault;
in a drive with a re-arm time, after any spins, exactly when no old request is left in a spin that
handles a readiness other than ENGAGED. -/
theorem inhibit_latch (functions : EbikeFunctions F) (parameters : EbikeParameters F) :
    (∀ past : List (ControlEvent F), Throughout (EbikeControl.Heeded functions parameters) past →
      Throughout (EbikeControl.KeepsOff functions parameters) past) ∧
    ∀ (boot : System.Boot F (EbikeUnit F)) (inputs : List (System.Input F)) (input : System.Input F)
      (unit : EbikeUnit F), (System.run boot inputs).ebike = some unit →
        0 < toMicroseconds unit.control.parameters.rearmPedalStop →
          (ReleaseObeyed (System.run boot inputs) input ↔
            ((System.run boot inputs).HandlesRelease input →
              ¬EbikeControl.Remembers input.nowUs unit.control)) := by
  constructor
  · exact fun past heeded => EbikeControl.throughout_keepsOff functions parameters heeded
  · intro boot inputs input unit controlled slow
    unfold ReleaseObeyed
    constructor
    · intro obeyed handles
      rw [← callsEngage_iff (System.run_asked boot inputs) controlled slow handles]
      exact obeyed handles
    · intro fresh handles
      rw [callsEngage_iff (System.run_asked boot inputs) controlled slow handles]
      exact fresh handles

/-! ### The drive of the simulated board with an e-bike -/

section Simulated

def simFunctions : EbikeFunctions Binary32 := ⟨id, fun _ => 1.0⟩

def pulse (displayBytes : List UInt8) : EbikeReading Binary32 := ⟨30.0, [0.0], displayBytes⟩

def levelRequest : List UInt8 :=
  encodeDisplayRequest { DisplayRequest.initial with assistLevel := 3, maxSpeed := 25 }
    defaultChecksumSeed

def simUnit : EbikeUnit Binary32 := ⟨simFunctions, .create, [pulse [], pulse levelRequest]⟩

def simEbike : System.Boot Binary32 (EbikeUnit Binary32) where
  store := simStore
  externalEnable := true
  timerClock := 170000000
  dropsFault := false
  uniqueIdHash := 0
  ebike := some simUnit
  restartHook := true
  nowUs := 1000
  subscriptions := []

def simRide : System Binary32 (EbikeUnit Binary32) :=
  System.run simEbike [simInput 2000 [] [], simInput 3000 [] []]

def vehicleWith (engaged faulted : Bool) : EbikeVehicle Binary32 :=
  ⟨Scalar.zero, -10.0, 10.0, 36.0, Scalar.zero, Scalar.zero, engaged, faulted⟩

/-- The pedals turn, the display asks for the assist, and the second step engages. -/
def ridingCalls : List (ControlEvent Binary32) :=
  [.update 3000 (vehicleWith false false) (pulse levelRequest), .update 2000 (vehicleWith false false) (pulse [])]

/-- A fault at a step while the drive is engaged, then none; and SLEEP before the first step of the
control. -/
theorem inhibit_latch_fault :
    Throughout (EbikeControl.KeepsOff simFunctions .default)
        (.update 5000 (vehicleWith false false) (pulse []) ::
          .update 4000 (vehicleWith true true) (pulse []) :: ridingCalls) ∧
      ReleaseObeyed (System.run simEbike []) (simInput 1500 [readinessMessage 0] []) := by
  obtain ⟨calls, spins⟩ := inhibit_latch simFunctions .default
  refine ⟨calls _ (by decide +kernel), ?_⟩
  apply (spins simEbike [] (simInput 1500 [readinessMessage 0] [])
    (Drive.EbikeControl.configure simStore.settings simUnit) rfl (by decide)).mpr
  intro _ remembers
  exact Bool.false_ne_true remembers.2

/-- Half a millisecond after a step the old request is still returned, and the drive engages in
the spin of the SLEEP. A fault is overlooked half a millisecond after a step, and in a step by a
control that wants nothing and has not seen the drive engaged. -/
theorem inhibit_overtaken :
    ¬Throughout (EbikeControl.KeepsOff simFunctions .default)
        (.update 3500 (vehicleWith false false) (pulse []) :: .inhibit :: ridingCalls) ∧
      ¬Throughout (EbikeControl.KeepsOff simFunctions .default)
        (.update 4000 (vehicleWith true false) (pulse []) ::
          .update 3500 (vehicleWith true true) (pulse []) :: ridingCalls) ∧
      ¬Throughout (EbikeControl.KeepsOff simFunctions .default)
        [.update 4000 (vehicleWith true false) (pulse levelRequest), .update 3000 (vehicleWith true true) (pulse []),
          .update 2000 (vehicleWith false false) (pulse [])] ∧
      ¬ReleaseObeyed simRide (simInput 3500 [readinessMessage 0] []) := by
  have engages (e : ControlEvent Binary32) (past : List (ControlEvent Binary32))
      (late : ¬EbikeControl.KeepsOff simFunctions .default e past) :
      ¬Throughout (EbikeControl.KeepsOff simFunctions .default) (e :: past) :=
    fun kept => late ((throughout_cons ..).mp kept).1
  refine ⟨engages _ _ fun off => ?_, engages _ _ fun off => ?_, engages _ _ fun off => ?_, fun obeyed => ?_⟩
  · exact absurd (off (by decide +kernel) (by decide +kernel)) (by decide +kernel)
  · exact absurd (off (by decide +kernel) (by decide +kernel)) (by decide +kernel)
  · exact absurd (off (by decide +kernel) (by decide +kernel)) (by decide +kernel)
  · have handles : simRide.HandlesRelease (simInput 3500 [readinessMessage 0] []) := by
      refine ⟨[], readinessMessage 0, [], ?_, rfl, by decide, ?_, ?_, 0, rfl, by decide⟩
      · unfold System.takenTransfers simRide System.run
        simp only [List.foldl_cons, List.foldl_nil]
        rw [System.queue_spin, System.queue_spin]
        rfl
      · decide +kernel
      · decide +kernel
    apply obeyed handles
    unfold System.CallsEngage
    decide +kernel

end Simulated

end Unimoc.Ebike
