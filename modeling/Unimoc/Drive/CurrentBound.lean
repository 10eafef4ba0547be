import Unimoc.CurrentControl.OuterStep
import Unimoc.Drive.CartControl
import Unimoc.Settings.ExactValues
import Unimoc.Settings.Factory

/-! The current reference of the outer loop stays within the current limit and within the
power window of the battery, in exact arithmetic. -/
namespace Unimoc.Drive

open Settings CurrentControl

/-- Settings the validation accepts on some hardware. -/
def AcceptedSettings (settings : NvmSettings) : Prop :=
  ∃ limits : HardwareCapabilities Binary32, validate settings limits = .success

/-- Limits of a cart control that has its parameters from accepted settings, or none yet. -/
def HandedOver (limits : BatteryLimits ExtendedReal) : Prop :=
  ∃ (cart : CartControl ExtendedReal) (nowUs : UInt64), limits = cart.batteryLimits nowUs ∧
    (cart.parameters = CartControl.initial.parameters ∨
      ∃ settings, AcceptedSettings settings ∧ cart.parameters = CartParameters.from settings)

section Values

variable {settings : NvmSettings}

theorem real_extended (accepted : AcceptedSettings settings) {r : Register} (listed : r ∈ finiteReals) :
    (settings.real r : ExtendedReal) = .real (settings.real r) := by
  obtain ⟨limits, success⟩ := accepted
  exact Binary.extended_finite ((validate_accepted success).finite r listed)

theorem polePairs_nonzero (accepted : AcceptedSettings settings) :
    (OuterLoop.polePairsOf settings : ℝ) ≠ 0 := by
  obtain ⟨limits, success⟩ := accepted
  have nonzero := (validate_powerLimits success).polePairs
  intro zero
  have zeroPairs : (settings.natural8 .polePairs).toUInt64.toNat = 0 := Nat.cast_eq_zero.mp zero
  apply nonzero
  apply UInt8.toNat_inj.mp
  simpa using zeroPairs

theorem torqueConstant_extended (accepted : AcceptedSettings settings) :
    (OuterLoop.torqueConstantOf settings : ExtendedReal) = .real (OuterLoop.torqueConstantOf settings) := by
  unfold OuterLoop.torqueConstantOf
  rw [real_extended accepted (by decide)]
  rfl

theorem dcLink_sound (accepted : AcceptedSettings settings) (generation : UInt32) :
    (OuterLoop.parametersFrom settings generation : LoopParameters ExtendedReal).dcLink.Sound
      (settings.real .batteryDriveCurrentMax) (settings.real .batteryChargeCurrentMax)
      (settings.real .dcLinkRegenDerateStart) (settings.real .dcLinkTrip) := by
  obtain ⟨limits, success⟩ := id accepted
  have power := validate_powerLimits success
  constructor
  · unfold OuterLoop.parametersFrom
    simp only [real_extended accepted (show Register.batteryDriveCurrentMax ∈ finiteReals by decide),
      real_extended accepted (show Register.batteryChargeCurrentMax ∈ finiteReals by decide),
      real_extended accepted (show Register.dcLinkRegenDerateStart ∈ finiteReals by decide),
      real_extended accepted (show Register.dcLinkTrip ∈ finiteReals by decide)]
  · exact power.driveCurrent
  · exact power.chargeCurrent
  · exact power.derating

end Values

theorem handedOver_real {limits : BatteryLimits ExtendedReal} (handedOver : HandedOver limits)
    (valid : limits.valid = true) :
    ∃ drive charge : ℝ, 0 ≤ drive ∧ 0 ≤ charge ∧ limits = ⟨true, .real drive, .real charge⟩ := by
  obtain ⟨cart, nowUs, rfl, configured⟩ := handedOver
  have share : ∃ part : ℝ, 0 ≤ part ∧ cart.parameters.batteryShare = .real part := by
    rcases configured with fresh | ⟨settings, accepted, set⟩
    · exact ⟨0, le_refl 0, by rw [fresh]; exact ExtendedReal.scalar_zero⟩
    · obtain ⟨capabilities, success⟩ := id accepted
      refine ⟨settings.real .cartBatteryShare, (validate_powerLimits success).batteryShare, ?_⟩
      rw [set]
      exact real_extended accepted (by decide)
  obtain ⟨part, nonneg, share⟩ := share
  unfold CartControl.batteryLimits at valid ⊢
  split at valid
  · cases valid
  · split at valid
    · cases valid
    · rename_i stale finite
      rw [if_neg stale, if_neg finite]
      split
      · exact ⟨0, 0, le_refl 0, le_refl 0, by rw [ExtendedReal.scalar_zero]⟩
      · simp only [Bool.or_eq_true, Bool.not_eq_true', not_or, Bool.not_eq_false] at finite
        obtain ⟨discharge, drives⟩ := ExtendedReal.isFinite_real finite.1
        obtain ⟨charge, charges⟩ := ExtendedReal.isFinite_real finite.2
        refine ⟨max discharge 0 * part, max charge 0 * part, ?_, ?_, ?_⟩
        · exact mul_nonneg (le_max_right ..) nonneg
        · exact mul_nonneg (le_max_right ..) nonneg
        · rw [drives, charges, share, ExtendedReal.scalar_zero, ExtendedReal.max_real,
            ExtendedReal.max_real]
          rfl

/-! ### What a run keeps -/

/-- The loop works with the settings of the last `Init()`, up to live gains, or is about to
load them. -/
structure Loaded (t : OuterThread ExtendedReal) (settings : Option NvmSettings) : Prop where
  ready : t.hasIsr = settings.isSome
  accepted : ∀ s, settings = some s → AcceptedSettings s
  counted : t.loop.Counted
  parameters : ∀ s, settings = some s → t.loop.parameters = OuterLoop.parametersFrom s t.loop.generation
  active : ∀ s, settings = some s → t.loop.active.generation = t.loop.generation →
    ∃ gains, t.loop.active = { t.loop.parameters with gains := gains }
  battery : t.loop.battery.valid = true → ∃ drive charge : ℝ, 0 ≤ drive ∧ 0 ≤ charge ∧
    t.loop.battery = ⟨true, .real drive, .real charge⟩

namespace Loaded

variable {t : OuterThread ExtendedReal} {settings : Option NvmSettings}

theorem taken (loaded : Loaded t settings) {s : NvmSettings} (present : settings = some s) :
    ∃ gains, t.loop.loadParameters.applyGains.active =
      { (OuterLoop.parametersFrom s t.loop.generation : LoopParameters ExtendedReal) with
        gains := gains } := by
  have parameters := loaded.parameters s present
  have generation : t.loop.parameters.generation = t.loop.generation := by
    rw [parameters]
    rfl
  have same : ∃ gains, t.loop.loadParameters.active = { t.loop.parameters with gains := gains } := by
    unfold OuterLoop.loadParameters
    split
    · exact ⟨t.loop.parameters.gains, rfl⟩
    · rename_i loadedBefore
      apply loaded.active s present
      rw [← generation]
      exact (not_not.mp loadedBefore).symm
  obtain ⟨gains, same⟩ := same
  rw [← parameters]
  unfold OuterLoop.applyGains
  split
  · refine ⟨t.loop.loadParameters.gains, ?_⟩
    simp only [same]
  · exact ⟨gains, same⟩

theorem loaded_kept : t.loop.loadParameters.applyGains.parameters = t.loop.parameters ∧
    t.loop.loadParameters.applyGains.generation = t.loop.generation ∧
    t.loop.loadParameters.applyGains.battery = t.loop.battery := by
  unfold OuterLoop.applyGains OuterLoop.loadParameters
  split <;> split <;> exact ⟨rfl, rfl, rfl⟩

theorem step (loaded : Loaded t settings) (wrap : ExtendedReal → ExtendedReal)
    (observed : Observed ExtendedReal) : Loaded (t.step wrap observed).2 settings := by
  have ready := loaded.ready
  cases present : settings with
  | none =>
    have unmoved : (t.step wrap observed).2 = t := by
      unfold OuterThread.step
      rw [if_pos (by simp [ready, present])]
    rw [unmoved, ← present]
    exact loaded
  | some s =>
    have taken := OuterThread.step_loop t wrap observed (by simp [ready, present])
    obtain ⟨parameters, generation, battery⟩ := loaded_kept (t := t)
    obtain ⟨gains, active⟩ := loaded.taken present
    rw [← loaded.parameters s present] at active
    constructor
    · rw [OuterThread.step_hasIsr, ready, present]
    · rw [← present]
      exact loaded.accepted
    · rw [taken]
      exact loaded.counted.step _
    · intro s' same
      rw [taken]
      change t.loop.loadParameters.applyGains.parameters =
        OuterLoop.parametersFrom s' t.loop.loadParameters.applyGains.generation
      rw [parameters, generation]
      exact loaded.parameters s' (present.trans same)
    · intro s' _ _
      rw [taken]
      exact ⟨gains, active.trans (by rw [← parameters]; rfl)⟩
    · rw [taken]
      change t.loop.loadParameters.applyGains.battery.valid = true → _
      intro valid
      rw [battery] at valid
      obtain ⟨drive, charge, driveNonneg, chargeNonneg, limits⟩ := loaded.battery valid
      exact ⟨drive, charge, driveNonneg, chargeNonneg, battery.trans limits⟩

theorem init (loaded : Loaded t settings) {s : NvmSettings} (accepted : AcceptedSettings s)
    (few : t.loop.untaken + 1 < 2 ^ 32) : Loaded (t.init s) (some s) where
  ready := rfl
  accepted s' same := by
    cases same
    exact accepted
  counted := loaded.counted.init s
  parameters s' same := by
    cases same
    rfl
  active s' _ current := absurd current.symm (loaded.counted.restart_newer few)
  battery := loaded.battery

theorem next (loaded : Loaded t settings) (wrap : ExtendedReal → ExtendedReal)
    (e : LoopEvent ExtendedReal) (past : List (LoopEvent ExtendedReal))
    (latest : settings = OuterThread.settingsIn past)
    (admitted : (OuterThread.machine wrap AcceptedSettings HandedOver).admits t e) :
    Loaded (t.next wrap e) (OuterThread.settingsIn (e :: past)) := by
  subst latest
  have counted := t.next_counted wrap loaded.counted e
  obtain ⟨ready, accepted, -, parameters, active, battery⟩ := id loaded
  cases e with
  | init s => exact loaded.init admitted.1 admitted.2
  | setSetpoint setpoint => exact ⟨ready, accepted, counted, parameters, active, battery⟩
  | setBatteryLimits limits =>
    exact ⟨ready, accepted, counted, parameters, active, fun valid => handedOver_real admitted valid⟩
  | setGains gains => exact ⟨ready, accepted, counted, parameters, active, battery⟩
  | startHoming => exact ⟨ready, accepted, counted, parameters, active, battery⟩
  | step observed => exact loaded.step wrap observed

theorem powerOn : Loaded OuterThread.powerOn none where
  ready := rfl
  accepted s absent := by cases absent
  counted := OuterLoop.powerOn_counted
  parameters s absent := by cases absent
  active s absent := by cases absent
  battery valid := by cases valid

end Loaded

theorem run_loaded (wrap : ExtendedReal → ExtendedReal) (trace : List (LoopEvent ExtendedReal))
    (legal : (OuterThread.machine wrap AcceptedSettings HandedOver).Legal trace) :
    Loaded ((OuterThread.machine wrap AcceptedSettings HandedOver).replay trace)
      (OuterThread.settingsIn trace) := by
  apply Runs.Machine.invariant (fun t past => Loaded t (OuterThread.settingsIn past)) Loaded.powerOn
  · intro e past loaded admitted
    exact loaded.next wrap e past rfl admitted
  · exact legal

/-! ### The bound -/

/-- The drive and the charge current of the battery: those of the BMS, else those of the
settings. -/
noncomputable def batteryCurrents (settings : NvmSettings) (battery : BatteryLimits ExtendedReal) :
    ℝ × ℝ :=
  if battery.valid then (battery.driveCurrent.toReal, battery.chargeCurrent.toReal)
  else (settings.real .batteryDriveCurrentMax, settings.real .batteryChargeCurrentMax)

/-- Mechanical power of a q current at an electrical speed. -/
noncomputable def mechanicalPower (settings : NvmSettings) (q electricalSpeed : ℝ) : ℝ :=
  OuterLoop.torqueConstantOf settings * q * (electricalSpeed / OuterLoop.polePairsOf settings)

/-- Zero without a setpoint, within the current limit, and within the power window of the
battery. -/
def Bounded (settings : NvmSettings) (t : OuterThread ExtendedReal) (observed : Observed ExtendedReal)
    (reference : Option (Rotor ExtendedReal)) : Prop :=
  ∃ d q : ℝ, reference = some ⟨.real d, .real q⟩ ∧
    (t.loop.setpoint.active = false → d = 0 ∧ q = 0) ∧
    Real.sqrt (d * d + q * q) ≤ settings.real .motorIMax ∧
    ∀ v w : ℝ, observed.dcLink = .real v → observed.electricalSpeed = .real w → 0 < v →
      let (drive, charge) := batteryCurrents settings t.loop.battery
      let allowedCharge :=
        chargeAt charge (settings.real .dcLinkRegenDerateStart) (settings.real .dcLinkTrip) v
      mechanicalPower settings q w ∈ Set.Icc (-(v * allowedCharge)) (v * drive)

/-- Before `Init()` there is no control cycle to hand a reference to. -/
def BoundedStep (wrap : ExtendedReal → ExtendedReal) (e : LoopEvent ExtendedReal)
    (past : List (LoopEvent ExtendedReal)) : Prop :=
  match e with
  | .step observed =>
    let t := (OuterThread.machine wrap AcceptedSettings HandedOver).replay past
    match OuterThread.settingsIn past with
    | none => (t.step wrap observed).1 = none
    | some settings => Bounded settings t observed (t.step wrap observed).1
  | _ => True

namespace Loaded

variable {t : OuterThread ExtendedReal} {settings : Option NvmSettings}

theorem window_sound (loaded : Loaded t settings) {s : NvmSettings} (present : settings = some s) :
    t.takeParameters.dcLinkLimit.Sound (batteryCurrents s t.loop.battery).1
      (batteryCurrents s t.loop.battery).2 (s.real .dcLinkRegenDerateStart) (s.real .dcLinkTrip) := by
  obtain ⟨gains, active⟩ := loaded.taken present
  have sound := dcLink_sound (loaded.accepted s present) t.loop.generation
  have battery : t.takeParameters.loop.battery = t.loop.battery := by
    rw [OuterThread.takeParameters_loop]
    exact loaded_kept.2.2
  have dcLink : t.takeParameters.loop.active.dcLink =
      (OuterLoop.parametersFrom s t.loop.generation : LoopParameters ExtendedReal).dcLink := by
    rw [OuterThread.takeParameters_loop, active]
  unfold OuterThread.dcLinkLimit batteryCurrents
  rw [battery, dcLink]
  by_cases valid : t.loop.battery.valid = true
  · obtain ⟨drive, charge, driveNonneg, chargeNonneg, limits⟩ := loaded.battery valid
    simp only [limits, if_true]
    exact ⟨by rw [sound.values]; rfl, driveNonneg, chargeNonneg, sound.room⟩
  · simp only [valid]
    exact sound

theorem bounded (loaded : Loaded t settings) {s : NvmSettings} (present : settings = some s)
    (wrap : ExtendedReal → ExtendedReal) (observed : Observed ExtendedReal) :
    Bounded s t observed (t.step wrap observed).1 := by
  have accepted := loaded.accepted s present
  have sound := loaded.window_sound present
  have ready : t.hasIsr = true := by
    rw [loaded.ready, present]
    rfl
  obtain ⟨current, idle, reference⟩ := OuterThread.step_reference t wrap observed ready
  obtain ⟨gains, active⟩ := loaded.taken present
  rw [OuterThread.takeParameters_loop, active] at reference
  obtain ⟨limits, success⟩ := id accepted
  have radius := (validate_powerLimits success).motorIMax
  have currentLimit :
      (OuterLoop.parametersFrom s t.loop.generation : LoopParameters ExtendedReal).currentLimit =
        .real (s.real .motorIMax) := real_extended accepted (by decide)
  have torqueConstant :
      (OuterLoop.parametersFrom s t.loop.generation : LoopParameters ExtendedReal).torqueConstant =
        .real (OuterLoop.torqueConstantOf s) := torqueConstant_extended accepted
  have polePairs :
      (Scalar.ofUInt64 (OuterLoop.parametersFrom s t.loop.generation :
        LoopParameters ExtendedReal).polePairs.toUInt64 : ExtendedReal) =
        .real (OuterLoop.polePairsOf s) := rfl
  simp only [currentLimit, torqueConstant, polePairs] at reference
  have within := limitCurrent_within radius current
  obtain ⟨d, q, result, length⟩ := sound.limit_within within
    (observed.electricalSpeed / .real (OuterLoop.polePairsOf s)) observed.dcLink
  refine ⟨d, q, reference.trans (congrArg some result), ?_, length, ?_⟩
  · intro inactive
    rw [idle inactive, limitCurrent_zero, sound.limit_zero] at result
    simp only [Rotor.zero, ExtendedReal.scalar_zero, Rotor.mk.injEq, ExtendedReal.real.injEq] at result
    exact ⟨result.1.symm, result.2.symm⟩
  · intro v w dcLink speed positive
    obtain ⟨x, y, limited, -⟩ := within
    obtain ⟨q', scaled, lower, upper⟩ := sound.limit_power positive x y (OuterLoop.torqueConstantOf s)
      (w / OuterLoop.polePairsOf s)
    rw [limited, dcLink, speed, ExtendedReal.quotient_real _ (polePairs_nonzero accepted), scaled] at result
    obtain ⟨-, rfl⟩ : x = d ∧ q' = q := by simpa using result
    exact ⟨lower, upper⟩

end Loaded

theorem current_reference_bounded (wrap : ExtendedReal → ExtendedReal)
    (trace : List (LoopEvent ExtendedReal))
    (legal : (OuterThread.machine wrap AcceptedSettings HandedOver).Legal trace) :
    Runs.Throughout (BoundedStep wrap) trace := by
  induction trace with
  | nil => exact Runs.throughout_nil _
  | cons e past ih =>
    obtain ⟨-, before⟩ := (Runs.Machine.legal_cons _ e past).mp legal
    rw [Runs.throughout_cons]
    refine ⟨?_, ih before⟩
    have loaded := run_loaded wrap past before
    unfold BoundedStep
    cases e with
    | step observed =>
      cases present : OuterThread.settingsIn past with
      | none =>
        have ready := loaded.ready
        rw [present] at ready
        simp [OuterThread.step, ready]
      | some settings => exact loaded.bounded present wrap observed
    | _ => trivial

noncomputable def batteryCart : CartControl ExtendedReal :=
  (CartControl.initial.configure (.from .default)).onBatteryStatus ⟨40.0, 20.0, .closed⟩ 0

/-- From torque to speed within the limits of a BMS. -/
theorem current_reference_bounded_change :
    Runs.Throughout (BoundedStep id)
      [.step ⟨1.0, 300.0, 48.0⟩,
        .setSetpoint ⟨true, .speed, .zero, 20.0, 0.0⟩,
        .step ⟨0.5, 250.0, 48.0⟩,
        .setSetpoint ⟨true, .torque, ⟨3.0, 90.0⟩, 0.0, 0.0⟩,
        .setBatteryLimits (batteryCart.batteryLimits 0),
        .init .default] := by
  have accepted : AcceptedSettings .default := ⟨simCapabilities, by decide +kernel⟩
  have handedOver : HandedOver (batteryCart.batteryLimits 0) :=
    ⟨batteryCart, 0, rfl, .inr ⟨.default, accepted, rfl⟩⟩
  apply current_reference_bounded
  exact ⟨trivial, trivial, trivial, trivial, handedOver, ⟨accepted, by decide⟩, trivial⟩

end Unimoc.Drive
