import Unimoc.CurrentControl.Isr

/-! The outer loop: what the drive hands it through mailboxes and generation counters,
and how a step of the control thread takes it. What its controllers report and the current
reference they give come with the step. -/
namespace Unimoc.CurrentControl

open Settings

/-- Setpoint of the outer loop, written by the drive. -/
structure OuterSetpoint (F : Type) where
  active : Bool
  mode : Cyphal.ControlMode
  current : Rotor F
  speed : F
  position : F
deriving DecidableEq

def OuterSetpoint.default {F : Type} [Scalar F] : OuterSetpoint F :=
  ⟨false, .torque, .zero, Scalar.zero, Scalar.zero⟩

structure BatteryLimits (F : Type) where
  valid : Bool
  driveCurrent : F
  chargeCurrent : F

def BatteryLimits.none {F : Type} [Scalar F] : BatteryLimits F := ⟨false, Scalar.zero, Scalar.zero⟩

inductive HomingState
  | idle
  | searching
  | done
  | fault
deriving DecidableEq, Repr

structure OuterStatus (F : Type) where
  speed : F
  torqueMin : F
  torqueMax : F
  homing : HomingState

/-- Gains of the speed and position loops; they may change while the loop runs. -/
structure LoopGains (F : Type) where
  speedKp : F
  speedKi : F
  speedAccelLimit : F
  positionKp : F
  positionSpeedLimit : F
  positionAccelLimit : F
  positionTolerance : F
  positionSpeedTolerance : F
deriving DecidableEq

structure DcLinkLimit (F : Type) where
  driveCurrentMax : F
  chargeCurrentMax : F
  regenDerateStart : F
  trip : F

structure LoopParameters (F : Type) where
  generation : UInt32
  polePairs : UInt8
  dt : F
  currentLimit : F
  torqueConstant : F
  dcLink : DcLinkLimit F
  speedMin : F
  speedMax : F
  homingSpeed : F
  homingCurrent : F
  gains : LoopGains F

/-- The mailboxes and counters of the loop, and what its thread took of them. -/
structure OuterLoop (F : Type) where
  generation : UInt32
  parameters : LoopParameters F
  gains : LoopGains F
  gainsGeneration : UInt32
  setpoint : OuterSetpoint F
  battery : BatteryLimits F
  homingRequests : UInt32
  active : LoopParameters F
  appliedGainsGeneration : UInt32
  status : OuterStatus F
  /-- Changes of the gains since the thread took the last one; the code keeps no such number. -/
  untaken : Nat

namespace OuterLoop

variable {F : Type} [Arithmetic F]

/-- Control cycles in one step of the loop. -/
def cyclesPerStep : UInt64 := 8

def gainsFrom (settings : NvmSettings) : LoopGains F where
  speedKp := settings.real .speedKp
  speedKi := settings.real .speedKi
  speedAccelLimit := settings.real .speedAccelLimit
  positionKp := settings.real .posKpPos
  positionSpeedLimit := settings.real .posSpeedLimit
  positionAccelLimit := settings.real .posAccelLimit
  positionTolerance := settings.real .posPositionTolerance
  positionSpeedTolerance := settings.real .posSpeedTolerance

def polePairsOf (settings : NvmSettings) : F :=
  Scalar.ofUInt64 (settings.natural8 .polePairs).toUInt64

def torqueConstantOf (settings : NvmSettings) : F :=
  settings.real .fluxPm * ((1.5 : F) * polePairsOf settings)

def dtSlowFromPwmFrequency (freq : F) : F :=
  1.0 / ((2.0 : F) * freq) * Scalar.ofUInt64 numSubSteps.toUInt64

def parametersFrom (settings : NvmSettings) (generation : UInt32) : LoopParameters F where
  generation := generation
  polePairs := settings.natural8 .polePairs
  dt := dtSlowFromPwmFrequency (settings.real .pwmFrequency) * Scalar.ofUInt64 cyclesPerStep
  currentLimit := settings.real .motorIMax
  torqueConstant := torqueConstantOf settings
  dcLink := ⟨settings.real .batteryDriveCurrentMax, settings.real .batteryChargeCurrentMax,
    settings.real .dcLinkRegenDerateStart, settings.real .dcLinkTrip⟩
  speedMin := settings.real .motorOmegaMin / polePairsOf settings
  speedMax := settings.real .motorOmegaMax / polePairsOf settings
  homingSpeed := settings.real .posHomingSpeed
  homingCurrent := settings.real .posHomingCurrent
  gains := gainsFrom settings

def noGains : LoopGains F :=
  ⟨Scalar.zero, Scalar.zero, Scalar.zero, Scalar.zero, Scalar.zero, Scalar.zero, Scalar.zero,
    Scalar.zero⟩

def noParameters : LoopParameters F :=
  ⟨0, 1, Scalar.zero, Scalar.zero, Scalar.zero,
    ⟨Scalar.zero, Scalar.zero, Scalar.zero, Scalar.zero⟩, Scalar.zero, Scalar.zero, Scalar.zero,
    Scalar.zero, noGains⟩

def powerOn : OuterLoop F where
  generation := 0
  parameters := noParameters
  gains := noGains
  gainsGeneration := 0
  setpoint := .default
  battery := .none
  homingRequests := 0
  active := noParameters
  appliedGainsGeneration := 0
  status := ⟨Scalar.zero, Scalar.zero, Scalar.zero, .idle⟩
  untaken := 0

def setGains (gains : LoopGains F) (outer : OuterLoop F) : OuterLoop F :=
  { outer with
    gains := gains
    gainsGeneration := outer.gainsGeneration + 1
    untaken := outer.untaken + 1 }

/-- Gains handed over before are older than those of the settings. -/
def init (settings : NvmSettings) (outer : OuterLoop F) : OuterLoop F :=
  let generation := outer.generation + 1
  let parameters := parametersFrom settings generation
  setGains parameters.gains { outer with generation := generation, parameters := parameters }

def setSetpoint (setpoint : OuterSetpoint F) (outer : OuterLoop F) : OuterLoop F :=
  { outer with setpoint := setpoint }

def setBatteryLimits (limits : BatteryLimits F) (outer : OuterLoop F) : OuterLoop F :=
  { outer with battery := limits }

def startHoming (outer : OuterLoop F) : OuterLoop F :=
  { outer with homingRequests := outer.homingRequests + 1 }

def loadParameters (outer : OuterLoop F) : OuterLoop F :=
  if outer.parameters.generation ≠ outer.active.generation then
    { outer with active := outer.parameters }
  else outer

def applyGains (outer : OuterLoop F) : OuterLoop F :=
  if outer.gainsGeneration ≠ outer.appliedGainsGeneration then
    { outer with
      appliedGainsGeneration := outer.gainsGeneration
      untaken := 0
      active := { outer.active with gains := outer.gains } }
  else outer

/-- A step of the control thread: new parameters, then new gains; `status` is what its
controllers report at the end. -/
def step (status : OuterStatus F) (outer : OuterLoop F) : OuterLoop F :=
  { outer.loadParameters.applyGains with status := status }

/-- The gains the next step works with. -/
def nextGains (outer : OuterLoop F) : LoopGains F :=
  if outer.gainsGeneration ≠ outer.appliedGainsGeneration then outer.gains
  else if outer.parameters.generation ≠ outer.active.generation then outer.parameters.gains
  else outer.active.gains

section Gains

omit [Arithmetic F]

@[simp] theorem step_handed (status : OuterStatus F) (outer : OuterLoop F) :
    (outer.step status).gains = outer.gains := by
  unfold step loadParameters applyGains
  split <;> split <;> rfl

@[simp] theorem init_gains {F : Type} [Arithmetic F] (settings : NvmSettings) (outer : OuterLoop F) :
    (outer.init settings).gains = gainsFrom settings := rfl

/-- The counters tell, up to their wrap, how many changes the thread has not taken. -/
structure Counted (outer : OuterLoop F) : Prop where
  gains : outer.gainsGeneration = outer.appliedGainsGeneration + UInt32.ofNat outer.untaken
  restarts : ∃ restarts ≤ outer.untaken,
    outer.generation = outer.active.generation + UInt32.ofNat restarts
  newest : outer.parameters.generation = outer.generation
  taken : outer.untaken = 0 → outer.active.gains = outer.gains

namespace Counted

theorem ofNat_succ (count : UInt32) (n : Nat) :
    count + UInt32.ofNat n + 1 = count + UInt32.ofNat (n + 1) := by
  rw [UInt32.add_assoc, ← UInt32.ofNat_one, ← UInt32.ofNat_add]

theorem add_none (count : UInt32) : count + UInt32.ofNat 0 = count := UInt32.add_zero count

/-- Fewer changes than the counter has values do not bring it round. -/
theorem apart {count : UInt32} {n : Nat} (changed : n ≠ 0) (few : n < 2 ^ 32) :
    count + UInt32.ofNat n ≠ count := by
  intro round
  have unchanged : UInt32.ofNat n = 0 := by
    have := congrArg (· - count) round
    grind
  have same := congrArg UInt32.toNat unchanged
  rw [UInt32.toNat_ofNat_of_lt' few] at same
  exact changed same

variable {outer : OuterLoop F}

/-- The mailboxes of the setpoint, the battery and the search have counters of their own. -/
theorem aside (counted : outer.Counted) (setpoint : OuterSetpoint F) (battery : BatteryLimits F)
    (homingRequests : UInt32) :
    { outer with setpoint := setpoint, battery := battery, homingRequests := homingRequests }.Counted :=
  ⟨counted.gains, counted.restarts, counted.newest, counted.taken⟩

theorem setGains (counted : outer.Counted) (gains : LoopGains F) : (outer.setGains gains).Counted := by
  obtain ⟨restarts, within, generation⟩ := counted.restarts
  refine ⟨?_, ⟨restarts, Nat.le_succ_of_le within, generation⟩, counted.newest, nofun⟩
  show outer.gainsGeneration + 1 = _
  rw [counted.gains, ofNat_succ]
  rfl

theorem init {F : Type} [Arithmetic F] {outer : OuterLoop F} (counted : outer.Counted)
    (settings : NvmSettings) : (outer.init settings).Counted := by
  obtain ⟨restarts, within, generation⟩ := counted.restarts
  refine ⟨?_, ⟨restarts + 1, Nat.succ_le_succ within, ?_⟩, rfl, nofun⟩
  · show outer.gainsGeneration + 1 = _
    rw [counted.gains, ofNat_succ]
    rfl
  · show outer.generation + 1 = _
    rw [generation, ofNat_succ]
    rfl

theorem loadParameters (counted : outer.Counted) :
    outer.loadParameters.Counted ∧ outer.loadParameters.generation = outer.loadParameters.active.generation := by
  obtain ⟨restarts, within, generation⟩ := counted.restarts
  unfold OuterLoop.loadParameters
  split
  · rename_i restarted
    refine ⟨⟨counted.gains, ⟨0, Nat.zero_le _, ?_⟩, counted.newest, fun taken => ?_⟩, counted.newest.symm⟩
    · rw [add_none]
      exact counted.newest.symm
    · rw [Nat.le_zero.mp (within.trans_eq taken), add_none] at generation
      exact absurd (counted.newest.trans generation) restarted
  · rename_i loaded
    exact ⟨counted, counted.newest.symm.trans (not_not.mp loaded)⟩

theorem step (counted : outer.Counted) (status : OuterStatus F) : (outer.step status).Counted := by
  obtain ⟨kept, same⟩ := counted.loadParameters
  unfold OuterLoop.step OuterLoop.applyGains
  generalize outer.loadParameters = outer at kept same
  split
  · refine ⟨?_, ⟨0, Nat.le_refl 0, ?_⟩, kept.newest, fun _ => rfl⟩
    · exact (add_none _).symm
    · exact same.trans (add_none _).symm
  · exact ⟨kept.gains, kept.restarts, kept.newest, kept.taken⟩

theorem gains_newer (counted : outer.Counted) (few : outer.untaken + 1 < 2 ^ 32) :
    outer.gainsGeneration + 1 ≠ outer.appliedGainsGeneration := by
  rw [counted.gains, ofNat_succ]
  exact apart (Nat.succ_ne_zero _) few

theorem restart_newer (counted : outer.Counted) (few : outer.untaken + 1 < 2 ^ 32) :
    outer.generation + 1 ≠ outer.active.generation := by
  obtain ⟨restarts, within, generation⟩ := counted.restarts
  rw [generation, ofNat_succ]
  exact apart (Nat.succ_ne_zero _) (by omega)

/-- The next step works with the gains that were handed over last. -/
theorem nextGains_eq (counted : outer.Counted) (few : outer.untaken < 2 ^ 32) : outer.nextGains = outer.gains := by
  unfold nextGains
  split
  · rfl
  · rename_i same
    have taken : outer.untaken = 0 := by
      by_contra changed
      exact apart changed few (counted.gains.symm.trans (not_not.mp same))
    obtain ⟨restarts, within, generation⟩ := counted.restarts
    rw [Nat.le_zero.mp (within.trans_eq taken), add_none] at generation
    rw [if_neg (not_not.mpr (counted.newest.trans generation))]
    exact counted.taken taken

end Counted

end Gains

theorem powerOn_counted : (powerOn : OuterLoop F).Counted :=
  ⟨rfl, ⟨0, Nat.le_refl 0, rfl⟩, rfl, fun _ => rfl⟩

end OuterLoop

end Unimoc.CurrentControl
