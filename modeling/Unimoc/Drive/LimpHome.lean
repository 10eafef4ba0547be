import Unimoc.Drive.CartControl
import Unimoc.Lib.Ramp
import Unimoc.Lib.Runs
import Unimoc.Settings.ExactValues
import Unimoc.Settings.Factory

/-! The brake pedal in limp-home mode, in exact arithmetic. The torque of the pedal opposes
the motion; what the ramp puts out does where one step takes back what it held before. -/
namespace Unimoc.Drive

open CurrentControl Settings

/-- What happens to the cart control of a drive. -/
inductive CartEvent (F : Type)
  | configured (settings : NvmSettings)
  | reset
  | wheelCommand (torque : F) (nowUs : UInt64)
  | pedalState (pedals : CartPedals F) (nowUs : UInt64)
  | batteryStatus (battery : CartBattery F) (nowUs : UInt64)
  | busLost
  | update (nowUs : UInt64) (shaftSpeed : F) (engaged : Bool)

namespace CartControl

section Events

variable {F : Type} [Arithmetic F] (cart : CartControl F)

def handle : CartEvent F → CartControl F
  | .configured settings => cart.configure (.from settings)
  | .reset => cart.reset
  | .wheelCommand torque nowUs => cart.onWheelCommand torque nowUs
  | .pedalState pedals nowUs => cart.onPedalState pedals nowUs
  | .batteryStatus battery nowUs => cart.onBatteryStatus battery nowUs
  | .busLost => cart.onBusLost
  | .update nowUs shaftSpeed engaged => (cart.update nowUs shaftSpeed engaged).2

/-- The larger channel of the brake pedal. -/
def brakeTravel : F :=
  Scalar.max (Scalar.max 0.0 (clampTravel cart.pedals.brake.1)) (clampTravel cart.pedals.brake.2)

/-- How much of the brake torque a speed leaves. -/
def fade (speed : F) : F :=
  if Scalar.zero < cart.parameters.standstillSpeed then
    Scalar.min (Scalar.abs speed / cart.parameters.standstillSpeed) 1.0
  else 1.0

theorem pedalTorque_pressed (pressed : pedalDeadband < cart.brakeTravel) (speed : F) :
    cart.pedalTorque speed =
      if Scalar.zero < speed then
        -(cart.parameters.limpHomeTorque * cart.brakeTravel * cart.fade speed)
      else if speed < Scalar.zero then
        cart.parameters.limpHomeTorque * cart.brakeTravel * cart.fade speed
      else Scalar.zero :=
  if_pos pressed

/-- How far the torque may move in an update. -/
def rampStep (nowUs : UInt64) : F :=
  cart.parameters.torqueRamp *
    (if cart.updated then microseconds (nowUs - cart.lastUpdateUs) else Scalar.zero)

end Events

variable {cart : CartControl ℝ} {nowUs : UInt64} {shaftSpeed : ℝ} {engaged : Bool}

/-- Settings the validation has accepted. -/
def Configured (cart : CartControl ℝ) : Prop :=
  ∃ (s : NvmSettings) (limits : HardwareCapabilities Binary32),
    validate s limits = .success ∧ cart.parameters = .from s

/-- An update in limp-home mode with the brake pedal pressed, or no update. -/
def Braking (cart : CartControl ℝ) : CartEvent ℝ → Prop
  | .update nowUs shaftSpeed engaged =>
    (cart.update nowUs shaftSpeed engaged).1.mode = .limpHome ∧ pedalDeadband < cart.brakeTravel
  | .configured s => ∃ limits : HardwareCapabilities Binary32, validate s limits = .success
  | _ => True

noncomputable def braking (start : CartControl ℝ) : Runs.Machine (CartControl ℝ) (CartEvent ℝ) where
  start := start
  next := handle
  admits := Braking

/-- The torque put out is zero or opposed to the measured motion. -/
def Opposes (cart : CartControl ℝ) : CartEvent ℝ → Prop
  | .update nowUs shaftSpeed engaged =>
    let torque := (cart.update nowUs shaftSpeed engaged).1.torque
    torque = 0 ∨ torque * shaftSpeed < 0
  | _ => True

/-- The torque left along the motion, or at standstill, is at most one step of the ramp. -/
def Catches (cart : CartControl ℝ) : CartEvent ℝ → Prop
  | .update nowUs shaftSpeed _ =>
    (0 ≤ cart.toCart shaftSpeed → cart.torque ≤ cart.rampStep nowUs) ∧
      (cart.toCart shaftSpeed ≤ 0 → -cart.rampStep nowUs ≤ cart.torque)
  | _ => True

theorem validate_cart {s : NvmSettings} {limits : HardwareCapabilities Binary32}
    (accepted : validate s limits = .success) :
    0 < (s.real .cartTorqueRamp : ℝ) ∧ 0 ≤ (s.real .cartLimpHomeTorque : ℝ) ∧
      0 ≤ (s.real .cartStandstillSpeed : ℝ) := by
  have finite := (validate_accepted accepted).finite
  unfold validate at accepted
  iterate 6 obtain ⟨-, accepted⟩ := passed accepted (by decide)
  obtain ⟨cart, -⟩ := passed accepted (by decide)
  simp only [Bool.or_eq_true, not_or, Bool.not_eq_true, isNotAbove, isNegative, decide_eq_false_iff_not]
    at cart
  obtain ⟨zero, value⟩ := finite_zero
  refine ⟨?_, ?_, ?_⟩
  · rw [← value]
    exact not_le.mp fun below =>
      cart.1.1.1.2 ((Binary.le_value (finite _ (by decide)) zero).mpr below)
  · rw [← value]
    exact not_lt.mp fun below =>
      cart.1.1.2 ((Binary.lt_value (finite _ (by decide)) zero).mpr below)
  · rw [← value]
    exact not_lt.mp fun below =>
      cart.1.2 ((Binary.lt_value (finite _ (by decide)) zero).mpr below)

theorem Configured.bounds (configured : cart.Configured) :
    0 < cart.parameters.torqueRamp ∧ 0 ≤ cart.parameters.limpHomeTorque ∧
      0 ≤ cart.parameters.standstillSpeed := by
  obtain ⟨s, limits, accepted, same⟩ := configured
  rw [same]
  exact validate_cart accepted

theorem microseconds_nonneg (durationUs : UInt64) : (0 : ℝ) ≤ microseconds durationUs := by
  have scale : (0 : ℝ) ≤ 1.0e-6 := by norm_num
  exact mul_nonneg scale (Nat.cast_nonneg durationUs.toNat)

theorem Configured.rampStep_nonneg (configured : cart.Configured) (nowUs : UInt64) :
    0 ≤ cart.rampStep nowUs := by
  apply mul_nonneg configured.bounds.1.le
  split_ifs
  · exact microseconds_nonneg _
  · exact Scalar.zero_exact.ge

theorem fade_nonneg (configured : cart.Configured) (speed : ℝ) : 0 ≤ cart.fade speed := by
  unfold fade
  split_ifs
  · rw [Scalar.min_exact, Scalar.abs_exact]
    exact le_min (div_nonneg (abs_nonneg speed) configured.bounds.2.2) (by norm_num)
  · norm_num

theorem pedalTorque_opposes (configured : cart.Configured) (pressed : pedalDeadband < cart.brakeTravel)
    (speed : ℝ) :
    (0 ≤ speed → cart.pedalTorque speed ≤ 0) ∧ (speed ≤ 0 → 0 ≤ cart.pedalTorque speed) := by
  have travel : (0 : ℝ) ≤ cart.brakeTravel := by
    have deadband : (0 : ℝ) ≤ pedalDeadband := by norm_num [pedalDeadband]
    exact deadband.trans pressed.le
  have brake : 0 ≤ cart.parameters.limpHomeTorque * cart.brakeTravel * cart.fade speed :=
    mul_nonneg (mul_nonneg configured.bounds.2.1 travel) (fade_nonneg configured speed)
  rw [pedalTorque_pressed cart pressed, Scalar.zero_exact]
  split_ifs with forward backward
  · exact ⟨fun _ => neg_nonpos.mpr brake, fun still => absurd forward (not_lt.mpr still)⟩
  · exact ⟨fun still => absurd backward (not_lt.mpr still), fun _ => brake⟩
  · exact ⟨fun _ => le_rfl, fun _ => le_rfl⟩

theorem nextTorque_limpHome (speed dt : ℝ) :
    cart.nextTorque .limpHome speed dt =
      Ramp.follow (cart.pedalTorque speed) (cart.parameters.torqueRamp * dt) cart.torque := by
  simp only [nextTorque, Scalar.clamp, Scalar.min_exact, Scalar.max_exact, ↓reduceIte, Ramp.follow]

theorem update_limpHome (limp : (cart.update nowUs shaftSpeed engaged).1.mode = .limpHome) :
    (cart.update nowUs shaftSpeed engaged).1.torque =
        cart.toCart (cart.update nowUs shaftSpeed engaged).2.torque ∧
      (cart.update nowUs shaftSpeed engaged).2.torque =
        Ramp.follow (cart.pedalTorque (cart.toCart shaftSpeed)) (cart.rampStep nowUs) cart.torque := by
  cases engaged with
  | false => cases limp
  | true =>
    refine ⟨rfl, ?_⟩
    simp only [update, Bool.not_true, Bool.false_eq_true, ↓reduceIte] at limp ⊢
    rw [limp]
    exact nextTorque_limpHome _ _

theorem toCart_mul (first second : ℝ) :
    cart.toCart first * second = first * cart.toCart second := by
  unfold toCart
  split_ifs
  · exact neg_mul_comm first second
  · rfl

theorem toCart_zero {value : ℝ} : cart.toCart value = 0 ↔ value = 0 := by
  unfold toCart
  split_ifs
  · exact neg_eq_zero
  · rfl

theorem opposed_iff (torque speed : ℝ) :
    torque = 0 ∨ torque * speed < 0 ↔ (0 ≤ speed → torque ≤ 0) ∧ (speed ≤ 0 → 0 ≤ torque) := by
  constructor
  · rintro (rest | against)
    · rw [rest]
      exact ⟨fun _ => le_rfl, fun _ => le_rfl⟩
    · constructor <;> intro moving <;> by_contra along <;> nlinarith
  · rintro ⟨forward, backward⟩
    rcases lt_trichotomy speed 0 with behind | still | ahead
    · rcases (backward behind.le).eq_or_lt with rest | against
      · exact .inl rest.symm
      · exact .inr (mul_neg_of_pos_of_neg against behind)
    · exact .inl (le_antisymm (forward still.ge) (backward still.le))
    · rcases (forward ahead.le).eq_or_lt with rest | against
      · exact .inl rest
      · exact .inr (mul_neg_of_neg_of_pos against ahead)

/-- One update: the torque opposes the motion exactly when one step takes back what does not. -/
theorem opposes_iff (configured : cart.Configured) {e : CartEvent ℝ} (braking : cart.Braking e) :
    cart.Opposes e ↔ cart.Catches e := by
  cases e with
  | update nowUs shaftSpeed engaged =>
    obtain ⟨limp, pressed⟩ := braking
    obtain ⟨output, ramped⟩ := update_limpHome limp
    obtain ⟨forward, backward⟩ := pedalTorque_opposes configured pressed (cart.toCart shaftSpeed)
    have room := configured.rampStep_nonneg nowUs
    unfold Opposes Catches
    dsimp only
    rw [output, toCart_mul, toCart_zero, opposed_iff, ramped]
    refine and_congr (forall_congr' fun ahead => ?_) (forall_congr' fun behind => ?_)
    · exact Ramp.follow_nonpos room (forward ahead)
    · exact Ramp.follow_nonneg (backward behind)
  | _ => exact Iff.rfl

theorem Configured.handle (configured : cart.Configured) {e : CartEvent ℝ} (braking : cart.Braking e) :
    (cart.handle e).Configured := by
  cases e with
  | configured s =>
    obtain ⟨limits, accepted⟩ := braking
    exact ⟨s, limits, accepted, rfl⟩
  | update nowUs shaftSpeed engaged => cases engaged <;> exact configured
  | _ => exact configured

variable {start : CartControl ℝ}

theorem braking_configured (configured : start.Configured) :
    ∀ trace, (braking start).Legal trace → ((braking start).replay trace).Configured :=
  Runs.Machine.invariant (fun cart _ => Configured cart) configured fun _ _ ih admitted =>
    ih.handle admitted

/-- The brake drives the cart on no update exactly when, on every update, one step of the ramp
takes back what the torque still has along the motion. -/
theorem limpHome_brakes (configured : start.Configured)
    (trace : List (CartEvent ℝ)) (legal : (braking start).Legal trace) :
    Runs.Throughout (fun e past => ((braking start).replay past).Opposes e) trace ↔
      Runs.Throughout (fun e past => ((braking start).replay past).Catches e) trace :=
  Runs.Machine.throughout_congr (fun cart _ => Configured cart) (braking_configured configured)
    (fun _ _ ready admitted => opposes_iff ready admitted) trace legal

/-- The speed of an update is ahead in the direction of the cart. -/
def RollsForward (cart : CartControl ℝ) : CartEvent ℝ → Prop
  | .update _ shaftSpeed _ => 0 < cart.toCart shaftSpeed
  | _ => True

theorem rolling_torque (configured : start.Configured) (rest : start.torque = 0) :
    ∀ trace, (braking start).Legal trace →
      Runs.Throughout (fun e past => ((braking start).replay past).RollsForward e) trace →
        ((braking start).replay trace).Configured ∧ ((braking start).replay trace).torque ≤ 0 := by
  apply Runs.Machine.invariant_under (fun e past => ((braking start).replay past).RollsForward e)
    (fun cart _ => Configured cart ∧ cart.torque ≤ 0) ⟨configured, rest.le⟩
  rintro e past ⟨ready, brakes⟩ admitted ahead
  refine ⟨ready.handle admitted, ?_⟩
  cases e with
  | update nowUs shaftSpeed engaged =>
    obtain ⟨limp, pressed⟩ := admitted
    change ((braking start).replay past).update nowUs shaftSpeed engaged |>.2.torque ≤ 0
    rw [(update_limpHome limp).2]
    have room := ready.rampStep_nonneg nowUs
    exact (Ramp.follow_nonpos room ((pedalTorque_opposes ready pressed _).1 (le_of_lt ahead))).mpr
      (brakes.trans room)
  | reset => exact Scalar.zero_exact.le
  | _ => exact brakes

theorem rolling_brakes (configured : start.Configured) (rest : start.torque = 0) :
    ∀ trace, (braking start).Legal trace →
      Runs.Throughout (fun e past => ((braking start).replay past).RollsForward e) trace →
        Runs.Throughout (fun e past => ((braking start).replay past).Opposes e) trace := by
  apply Runs.Machine.throughout_under _ (fun cart _ => Configured cart ∧ cart.torque ≤ 0) _
    (rolling_torque configured rest)
  rintro e past ⟨ready, brakes⟩ admitted ahead
  refine (opposes_iff ready admitted).mpr ?_
  cases e with
  | update nowUs shaftSpeed engaged =>
    have room := ready.rampStep_nonneg nowUs
    exact ⟨fun _ => brakes.trans room, fun behind => absurd ahead (not_lt.mpr behind)⟩
  | _ => trivial

section Bench

theorem default_configured : ({ (initial : CartControl ℝ) with parameters := .from .default }).Configured :=
  ⟨.default, simCapabilities, by decide, rfl⟩

theorem default_cart :
    (NvmSettings.default.real .cartTimeout : Binary32) = .finite 13421773 (-27) ∧
      (NvmSettings.default.real .cartTorqueRamp : Binary32) = .finite 13107200 (-18) ∧
        (NvmSettings.default.real .cartLimpHomeTorque : Binary32) = .finite 10485760 (-21) ∧
          (NvmSettings.default.real .cartStandstillSpeed : Binary32) = .finite 8388608 (-23) := by
  decide

theorem default_exact :
    (1 / 10 : ℝ) ≤ NvmSettings.default.real .cartTimeout ∧
      (NvmSettings.default.real .cartTimeout : ℝ) < 2 / 10 ∧
        (NvmSettings.default.real .cartTorqueRamp : ℝ) = 50 ∧
          (NvmSettings.default.real .cartLimpHomeTorque : ℝ) = 5 ∧
            (NvmSettings.default.real .cartStandstillSpeed : ℝ) = 1 := by
  obtain ⟨timeout, ramp, torque, speed⟩ := default_cart
  rw [real_value, real_value, real_value, real_value, timeout, ramp, torque, speed]
  norm_num [Binary.value]

noncomputable def rolling : CartControl ℝ :=
  (((initial.configure (.from .default)).onWheelCommand 0 0).update 0 10 true).2

def brakeDown : CartPedals ℝ := ⟨(0, 0), (1, 1), true, true⟩

/-- The wheel command times out at 10 rad/s, and the cart stands in the next millisecond. -/
def stop : List (CartEvent ℝ) :=
  [.update 201000 0 true, .update 200000 10 true, .pedalState brakeDown 200000]

theorem microseconds_exact (durationUs : UInt64) :
    (microseconds durationUs : ℝ) = durationUs.toNat / 1000000 := by
  show (1.0e-6 : ℝ) * durationUs.toNat = _
  norm_num
  ring

theorem default_fresh : (microseconds 0 : ℝ) ≤ NvmSettings.default.real .cartTimeout := by
  rw [microseconds_exact]
  exact le_trans (by norm_num) default_exact.1

theorem default_stale : ¬(microseconds 200000 : ℝ) ≤ NvmSettings.default.real .cartTimeout := by
  have waited : (200000 : UInt64).toNat = 200000 := rfl
  rw [microseconds_exact, waited]
  exact not_le.mpr (default_exact.2.1.trans_eq (by norm_num))

theorem rolling_eq :
    rolling = { (initial : CartControl ℝ) with
      parameters := .from .default, mode := .vdc, torque := 0, updated := true, hasCommand := true,
      commandTorque := 0 } := by
  simp [rolling, update, CartControl.fresh, onWheelCommand, configure, CartParameters.from, initial,
    nextMode, nextTorque, default_fresh, Scalar.isFinite]

/-- The cart with the brake pedal down, before and after the update that finds it so. -/
noncomputable def pressed : CartControl ℝ := rolling.onPedalState brakeDown 200000

noncomputable def braked : CartControl ℝ := (pressed.update 200000 10 true).2

theorem pressed_limps : (pressed.update 200000 10 true).1.mode = .limpHome := by
  simp [pressed, rolling_eq, update, CartControl.fresh, onPedalState, CartParameters.from, initial,
    nextMode, default_fresh, default_stale]

theorem pressed_travel : (pressed.brakeTravel : ℝ) = 1 := by
  simp only [brakeTravel, pressed, onPedalState, brakeDown, clampTravel, Scalar.isFinite, Scalar.clamp,
    Scalar.min_exact, Scalar.max_exact]
  norm_num

theorem pressed_down : (pedalDeadband : ℝ) < pressed.brakeTravel := by
  rw [pressed_travel]
  norm_num [pedalDeadband]

theorem pressed_parameters : pressed.parameters = .from .default := by
  unfold pressed
  rw [rolling_eq]
  rfl

theorem pressed_configured : pressed.Configured := by
  unfold pressed
  rw [rolling_eq]
  exact default_configured

theorem pressed_target : pressed.pedalTorque 10 = -5 := by
  obtain ⟨-, -, -, torque, standstill⟩ := default_exact
  have full : pressed.fade 10 = 1 := by
    unfold fade
    rw [pressed_parameters, Scalar.zero_exact, Scalar.min_exact, Scalar.abs_exact]
    simp only [CartParameters.from, standstill]
    norm_num
  rw [pedalTorque_pressed pressed pressed_down, Scalar.zero_exact, if_pos (by norm_num), full,
    pressed_travel, pressed_parameters]
  simp only [CartParameters.from, torque]
  norm_num

theorem braked_torque : braked.torque = -5 := by
  have waited : (200000 : UInt64).toNat = 200000 := rfl
  have step : pressed.rampStep 200000 = 10 := by
    have since : (pressed.updated, pressed.lastUpdateUs) = (true, 0) := by
      rw [pressed, rolling_eq]
      rfl
    obtain ⟨updated, last⟩ := Prod.mk.inj since
    have duration : (200000 - 0 : UInt64) = 200000 := rfl
    unfold rampStep
    rw [updated, last, pressed_parameters, if_pos rfl, duration, microseconds_exact, waited]
    simp only [CartParameters.from, default_exact.2.2.1]
    norm_num
  have rest : pressed.torque = 0 := by
    rw [pressed, rolling_eq]
    rfl
  have forward : pressed.toCart 10 = 10 := by
    unfold toCart
    rw [pressed_parameters]
    rfl
  rw [braked, (update_limpHome pressed_limps).2, forward, pressed_target, step, rest]
  norm_num [Ramp.follow]

theorem braked_eq :
    braked = { pressed with mode := .limpHome, torque := -5, lastUpdateUs := 200000, updated := true } := by
  have kept : braked = { pressed with
      mode := (pressed.update 200000 10 true).1.mode, torque := braked.torque, lastUpdateUs := 200000,
      updated := true } := rfl
  rw [kept, pressed_limps, braked_torque]

theorem braked_limps : (braked.update 201000 0 true).1.mode = .limpHome := by
  have soon : (microseconds 1000 : ℝ) ≤ NvmSettings.default.real .cartTimeout := by
    have waited : (1000 : UInt64).toNat = 1000 := rfl
    rw [microseconds_exact, waited]
    exact le_trans (by norm_num) default_exact.1
  have late : ¬(microseconds 201000 : ℝ) ≤ NvmSettings.default.real .cartTimeout := by
    have waited : (201000 : UInt64).toNat = 201000 := rfl
    rw [microseconds_exact, waited]
    exact not_le.mpr (default_exact.2.1.trans (by norm_num))
  have aged : (201000 - 200000 : UInt64) = 1000 := rfl
  simp [braked_eq, pressed, rolling_eq, update, CartControl.fresh, onPedalState, CartParameters.from,
    initial, nextMode, aged, soon, late]

theorem rolling_configured : rolling.Configured := by
  rw [rolling_eq]
  exact default_configured

theorem pressed_braking : pressed.Braking (.update 200000 10 true) := ⟨pressed_limps, pressed_down⟩

theorem braked_braking : braked.Braking (.update 201000 0 true) := by
  refine ⟨braked_limps, ?_⟩
  rw [braked_eq]
  exact pressed_down

theorem braked_configured : braked.Configured := pressed_configured.handle pressed_braking

theorem stop_legal : (braking rolling).Legal stop := ⟨braked_braking, pressed_braking, trivial, trivial⟩

theorem braked_step : braked.rampStep 201000 = 1 / 20 := by
  have waited : (201000 - 200000 : UInt64).toNat = 1000 := rfl
  rw [braked_eq]
  unfold rampStep
  dsimp only
  rw [pressed_parameters, if_pos rfl, microseconds_exact, waited]
  simp only [CartParameters.from, default_exact.2.2.1]
  norm_num

theorem limpHome_brakes_stop :
    Runs.Throughout (fun e past => ((braking rolling).replay past).Opposes e) stop ↔
      Runs.Throughout (fun e past => ((braking rolling).replay past).Catches e) stop :=
  limpHome_brakes rolling_configured stop stop_legal

/-- The factory settings: the cart stops within a millisecond and is driven backward. -/
theorem limpHome_drags :
    rolling.Configured ∧ rolling.torque = 0 ∧ (braking rolling).Legal stop ∧
      ¬Runs.Throughout (fun e past => ((braking rolling).replay past).Opposes e) stop := by
  refine ⟨rolling_configured, by rw [rolling_eq], stop_legal, fun opposed => ?_⟩
  have last : braked.Opposes (.update 201000 0 true) := ((Runs.throughout_cons ..).mp opposed).1
  have still : braked.toCart 0 = 0 := toCart_zero.mpr rfl
  have room := ((opposes_iff braked_configured braked_braking).mp last).2 still.le
  rw [braked_step, braked_torque] at room
  norm_num at room

end Bench

end CartControl

end Unimoc.Drive
