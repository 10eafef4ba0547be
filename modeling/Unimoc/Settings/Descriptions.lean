import Unimoc.Lib.BinaryRound
import Unimoc.Settings.ExactValues
import Unimoc.Settings.Factory

/-! The limits the register descriptions give, against the validation of the settings. -/
namespace Unimoc.Settings

/-- The smallest and the largest value a register may take. -/
structure RegisterLimits (F : Type) where
  minimum : F
  maximum : F
deriving DecidableEq

namespace RegisterLimits

variable {F : Type} [Scalar F]

/-- No limit beyond a finite number. -/
def any : RegisterLimits F := ⟨-Scalar.infinity, Scalar.infinity⟩

def atLeast (minimum : F) : RegisterLimits F := ⟨minimum, Scalar.infinity⟩

def atMost (maximum : F) : RegisterLimits F := ⟨-Scalar.infinity, maximum⟩

def between (minimum maximum : F) : RegisterLimits F := ⟨minimum, maximum⟩

/-- A subject-ID or a service-ID; 65535 disables the port. -/
def portId : RegisterLimits F := ⟨0.0, 65535.0⟩

def Admits (limits : RegisterLimits F) (value : F) : Prop := limits.minimum ≤ value ∧ value ≤ limits.maximum

end RegisterLimits

open RegisterLimits in
/-- The limits in the table of `ForEachRegister()`. -/
def Register.limits {F : Type} [Scalar F] : Register → RegisterLimits F
  | .nodeId => between 0.0 127.0
  | .nodeDescription => any
  | .motorType => between 0.0 2.0
  | .polePairs => between 1.0 255.0
  | .controlMode => between 0.0 2.0
  | .statorR | .statorL | .motorIMax | .motorOmegaMax => atLeast 0.0
  | .motorOmegaMin => atMost 0.0
  | .batteryDriveCurrentMax | .batteryChargeCurrentMax | .dcLinkRegenDerateStart | .dcLinkTrip
  | .fluxPm | .lD | .lQ | .asmRR | .asmRS | .asmLS | .asmLR | .asmLM | .motorJ => atLeast 0.0
  | .mechObsQ => any
  | .mechObsR => atLeast 0.0
  | .pmsmFluxObsCD | .pmsmFluxObsCQ => any
  | .pmsmFluxObsRSpeed => atLeast 0.0
  | .hallEnable => between 0.0 1.0
  | .hallOffset => any
  | .hallREdge | .hallRSector => atLeast 0.0
  | .asmObsGI | .asmObsGFlux | .asmFluxKp | .asmFluxKi => any
  | .asmFluxIDMin | .asmFluxIDMax | .fwVMax => atLeast 0.0
  | .fwKi | .fwIDMin => any
  | .pwmFrequency => between 16000.0 32000.0
  | .currentKpD | .currentKiD | .currentKpQ | .currentKiQ => any
  | .currentVMax | .svmDutyMin | .svmDutyMax => between 0.0 1.0
  | .dtcDeadTime | .dtcFPwm => atLeast 0.0
  | .dtcIThreshold | .hfiVInject | .hfiErrorGain => any
  | .excitationMode => between 0.0 1.0
  | .excitationLM | .excitationKp | .excitationKi => any
  | .excitationIFMin | .excitationIFMax | .excitationObsTau => atLeast 0.0
  | .excitationObsLM => any
  | .speedKp | .speedKi | .speedAccelLimit => atLeast 0.0
  | .posKpPos | .posKpSpeed | .posKiSpeed | .posSpeedLimit | .posAccelLimit => any
  | .posPositionTolerance | .posSpeedTolerance => atLeast 0.0
  | .posHomingSpeed => any
  | .posHomingCurrent => atLeast 0.0
  | .adcOffsetA | .adcOffsetB | .adcOffsetC => any
  | .adcGainA | .adcGainB | .adcGainC | .adcGainVdc => atLeast 0.0
  | .subReadinessId | .subCurrentSetpointId | .subTorqueSetpointId | .subSpeedSetpointId
  | .subPositionSetpointId | .subServoSetpointId | .pubTelemetryId | .srvCymonVariablesId
  | .srvCymonBufferInfoId | .srvCymonSetupId | .srvCymonArmId | .srvCymonReadId
  | .pubCymonTriggerId | .subCymonTriggerId => portId
  | .telemetryRate => between 0.0 1000.0
  | .commandTimeout => between 0.0 10.0
  | .subWheelCommandId | .subPedalStateId | .subBatteryStatusId | .pubDriveStatusId
  | .pubCommissioningId | .pubHomingStateId => portId
  | .cartWheel => between 0.0 3.0
  | .cartReversed => between 0.0 1.0
  | .cartTimeout => atLeast 0.0
  | .cartStatusRate => between 0.0 1000.0
  | .cartTorqueRamp | .cartLimpHomeTorque | .cartStandstillSpeed => atLeast 0.0
  | .cartBatteryShare => between 0.0 1.0
  | .ebikePulsesPerRev => between 2.0 64.0
  | .ebikeWheelCircumference => between 0.5 4.0
  | .ebikeGearRatio => between 0.0 100.0
  | .ebikeBatteryCells => between 1.0 30.0
  | .ebikeNominalVoltage => between 1.0 255.0
  | .ebikeGain1 | .ebikeGain2 | .ebikeGain3 | .ebikeGain4 | .ebikeGain5 => between 0.0 20.0
  | .ebikePowerScale => atLeast 0.0
  | .ebikeMaxRatio | .ebikeTorqueRatio => between 0.0 20.0
  | .ebikeTorqueDeadband | .ebikeMinCadence | .ebikeSpeedTaper | .ebikeRiseTime | .ebikeFallTime
  | .ebikeEngageHold | .ebikeRearmTime | .ebikeDisplayTimeout => atLeast 0.0

/-- The value of a register as a number; a text has none. -/
def NvmSettings.number {F : Type} [Arithmetic F] (s : NvmSettings) (r : Register) : Option F :=
  match r.kind with
  | .real32 => some (s.real r)
  | .natural8 => some (Scalar.ofUInt64 (s.natural8 r).toUInt64)
  | .natural16 => some (Scalar.ofUInt64 (s.natural16 r).toUInt64)
  | .text => none

/-! ### What the validation checks -/

/-- Refused at zero or below. -/
def aboveZero : List Register := [
  .dcLinkRegenDerateStart, .statorR, .statorL, .lD, .lQ, .asmRR, .asmRS, .asmLS, .asmLR, .asmLM,
  .motorJ, .dtcFPwm, .excitationObsTau, .mechObsR, .hallREdge, .hallRSector, .adcGainA, .adcGainB,
  .adcGainC, .adcGainVdc, .commandTimeout, .cartTimeout, .cartTorqueRamp, .ebikeGearRatio,
  .ebikePowerScale, .ebikeSpeedTaper, .ebikeRiseTime, .ebikeFallTime, .ebikeDisplayTimeout]

/-- Refused below zero. -/
def notBelowZero : List Register := [
  .motorIMax, .motorOmegaMax, .batteryDriveCurrentMax, .batteryChargeCurrentMax, .fluxPm,
  .asmFluxIDMin, .excitationIFMin, .dtcDeadTime, .posPositionTolerance, .posSpeedTolerance,
  .posHomingCurrent, .pmsmFluxObsRSpeed, .speedKp, .speedKi, .speedAccelLimit, .fwVMax,
  .telemetryRate, .cartStatusRate, .cartLimpHomeTorque, .cartStandstillSpeed, .ebikeTorqueDeadband,
  .ebikeMinCadence, .ebikeEngageHold, .ebikeRearmTime]

/-- Refused below another register, which is at least zero. -/
def aboveOther : List (Register × Register) := [
  (.asmFluxIDMax, .asmFluxIDMin), (.excitationIFMax, .excitationIFMin),
  (.dcLinkTrip, .dcLinkRegenDerateStart)]

def ratioReals : List Register := [.currentVMax, .svmDutyMin, .svmDutyMax, .cartBatteryShare]

def gainReals : List Register := [
  .ebikeGain1, .ebikeGain2, .ebikeGain3, .ebikeGain4, .ebikeGain5, .ebikeMaxRatio, .ebikeTorqueRatio]

/-- Bytes with a smallest and a largest value. -/
def boundedBytes : List (Register × UInt8 × UInt8) := [
  (.nodeId, 0, 127), (.motorType, 0, 2), (.polePairs, 1, 255), (.controlMode, 0, 2),
  (.hallEnable, 0, 1), (.excitationMode, 0, 1), (.cartWheel, 0, 3), (.cartReversed, 0, 1),
  (.ebikePulsesPerRev, 2, 64), (.ebikeBatteryCells, 1, 30), (.ebikeNominalVoltage, 1, 255)]

section Checked

variable (F : Type) [Arithmetic F]

/-- Refused above a number. -/
def cappedReals : List (Register × F) := [
  (.telemetryRate, 1000.0), (.cartStatusRate, 1000.0), (.commandTimeout, 10.0),
  (.ebikeWheelCircumference, 4.0), (.ebikeGearRatio, 20.0 * 5.0)]

/-- The checks of the validation, register by register. -/
structure Checked (s : NvmSettings) : Prop where
  above : ∀ r ∈ aboveZero, isNotAbove F s r = false
  notBelow : ∀ r ∈ notBelowZero, isNegative F s r = false
  other : ∀ p ∈ aboveOther, ¬(s.real p.1 : F) < s.real p.2 ∨ ¬(s.real p.1 : F) ≤ s.real p.2
  ratios : ∀ r ∈ ratioReals, isRatio F s r = true
  gains : ∀ r ∈ gainReals, isGain F s r = true
  capped : ∀ p ∈ cappedReals F, exceeds F s p.1 p.2 = false
  omegaMin : isPositive F s .motorOmegaMin = false
  wheel : ¬(s.real .ebikeWheelCircumference : F) < 0.5
  bytes : ∀ p ∈ boundedBytes, p.2.1 ≤ s.natural8 p.1 ∧ s.natural8 p.1 ≤ p.2.2

theorem byte_bounds (n : UInt8) : 0 ≤ n ∧ n ≤ 255 ∧ (n ≠ 0 → 1 ≤ n) := by
  simp only [UInt8.le_iff_toNat_le, ne_eq, ← UInt8.toNat_inj]
  have small := n.toNat_lt
  simp
  omega

theorem validate_checked {s : NvmSettings} {limits : HardwareCapabilities F}
    (accepted : validate s limits = .success) : Checked F s := by
  have enums := (validate_accepted accepted).enums
  simp only [isValidEnumValues, Bool.and_eq_true, decide_eq_true_eq] at enums
  unfold validate at accepted
  obtain ⟨basics, accepted⟩ := passed accepted (by decide)
  obtain ⟨ratings, accepted⟩ := passed accepted (by decide)
  obtain ⟨motor, accepted⟩ := passed accepted (by decide)
  obtain ⟨noise, accepted⟩ := passed accepted (by decide)
  obtain ⟨ratios, accepted⟩ := passed accepted (by decide)
  obtain ⟨subjects, accepted⟩ := passed accepted (by decide)
  obtain ⟨cart, accepted⟩ := passed accepted (by decide)
  obtain ⟨ebike, -⟩ := passed accepted (by decide)
  simp only [Bool.or_eq_true, not_or, Bool.not_eq_true, decide_eq_false_iff_not, UInt8.not_lt,
    Bool.not_eq_false'] at basics ratings motor noise ratios subjects cart ebike
  constructor
  · simp [aboveZero, ratings, motor, noise, ratios, subjects, cart, ebike]
  · simp [notBelowZero, ratings, motor, noise, ratios, subjects, cart, ebike]
  · simp [aboveOther, ratings, motor]
  · simp [ratioReals, ratios, cart]
  · simp [gainReals, ebike]
  · simp [cappedReals, subjects, cart, ebike]
  · simp [ratings]
  · simp [ebike]
  · simp [boundedBytes, basics, ebike, enums, byte_bounds]

end Checked

/-! ### In the format of the target -/

theorem natural_value {n : UInt64} (small : n.toNat < 2 ^ 24) :
    (Scalar.ofUInt64 n : Binary32).isFinite = true ∧ (Scalar.ofUInt64 n : Binary32).value = n.toNat := by
  have fits (nonzero : n.toNat ≠ 0) : (0 : Int) + (Nat.log2 n.toNat + 1 : Nat) ≤ 128 := by
    have digits : Nat.log2 n.toNat < 24 := (Nat.log2_lt nonzero).mpr small
    omega
  have unrounded : (Binary.round false n.toNat 0 : Binary32).isFinite = true ∧
      (Binary.round false n.toNat 0 : Binary32).value = Binary.scaled false n.toNat 0 :=
    Binary.round_exact false small (by decide) fits
  refine ⟨unrounded.1, unrounded.2.trans ?_⟩
  simp [Binary.scaled]

theorem natural_le {a b : UInt64} (order : a ≤ b) (small : b.toNat < 2 ^ 24) :
    (Scalar.ofUInt64 a : Binary32) ≤ Scalar.ofUInt64 b := by
  have below : a.toNat ≤ b.toNat := order
  obtain ⟨firstFinite, first⟩ := natural_value (below.trans_lt small)
  obtain ⟨secondFinite, second⟩ := natural_value small
  refine (Binary.le_value firstFinite secondFinite).mpr ?_
  rw [first, second]
  exact_mod_cast below

theorem finite_le {a b : Binary32} (first : a.isFinite = true) (second : b.isFinite = true) (above : ¬b < a) :
    a ≤ b :=
  (Binary.le_value first second).mpr (not_lt.mp fun below => above ((Binary.lt_value second first).mpr below))

theorem finite_lt_le {a b : Binary32} (first : a.isFinite = true) (second : b.isFinite = true)
    (above : ¬b ≤ a) : a ≤ b :=
  (Binary.le_value first second).mpr
    (not_le.mp fun below => above ((Binary.le_value second first).mpr below)).le

theorem finite_trans {a b c : Binary32} (first : a.isFinite = true) (second : b.isFinite = true)
    (third : c.isFinite = true) (lower : a ≤ b) (upper : b ≤ c) : a ≤ c :=
  (Binary.le_value first third).mpr
    (((Binary.le_value first second).mp lower).trans ((Binary.le_value second third).mp upper))

theorem finite_any {a : Binary32} (finite : a.isFinite = true) : RegisterLimits.any.Admits a := by
  cases a with
  | finite m e => exact ⟨rfl, rfl⟩
  | nan => cases finite
  | infinite negative => cases finite

theorem zero_le {a : Binary32} (finite : a.isFinite = true) (above : ¬a < Scalar.zero) :
    (RegisterLimits.atLeast 0.0).Admits a := by
  refine ⟨finite_le finite_zero.1 finite above, ?_⟩
  exact (finite_any finite).2

section Reals

variable {s : NvmSettings}

/-- Only the frequency is not tested for being finite. -/
theorem finite_or_frequency : ∀ r : Register, r.kind = .real32 → r ∈ finiteReals ∨ r = .pwmFrequency := by
  intro r
  cases r <;> decide

theorem frequency_finite (accepted : Accepted Binary32 s) :
    (s.real .pwmFrequency : Binary32).isFinite = true := by
  have low := accepted.frequency_exact.1
  rw [real_value] at low
  cases value : (s.real .pwmFrequency : Binary32) with
  | finite m e => rfl
  | nan | infinite negative =>
    rw [value] at low
    norm_num [Binary.value] at low

theorem real_finite (accepted : Accepted Binary32 s) {r : Register} (kind : r.kind = .real32) :
    (s.real r : Binary32).isFinite = true := by
  rcases finite_or_frequency r kind with listed | rfl
  · exact accepted.finite r listed
  · exact frequency_finite accepted

theorem frequency_within (accepted : Accepted Binary32 s) :
    (RegisterLimits.between 16000.0 32000.0).Admits (s.real .pwmFrequency : Binary32) := by
  obtain ⟨low, high⟩ := accepted.frequency_exact
  obtain ⟨first, -, -, -, last⟩ := frequency_values
  have finite := frequency_finite accepted
  have least : (16000.0 : Binary32).value = 16000 := by
    rw [first]
    norm_num [Binary.value]
  have most : (32000.0 : Binary32).value = 32000 := by
    rw [last]
    norm_num [Binary.value]
  constructor
  · refine (Binary.le_value (by rw [first]; rfl) finite).mpr ?_
    exact least.trans_le low
  · refine (Binary.le_value finite (by rw [last]; rfl)).mpr ?_
    exact high.trans_eq most.symm

theorem real_limits : ∀ r : Register, r.kind = .real32 →
    (r.limits : RegisterLimits Binary32) = .any ∨
    (r.limits = (.atLeast 0.0 : RegisterLimits Binary32) ∧
      (r ∈ aboveZero ∨ r ∈ notBelowZero ∨ r ∈ aboveOther.map Prod.fst)) ∨
    (r.limits = (.between 0.0 1.0 : RegisterLimits Binary32) ∧ r ∈ ratioReals) ∨
    (r.limits = (.between 0.0 20.0 : RegisterLimits Binary32) ∧ r ∈ gainReals) ∨
    r ∈ [.motorOmegaMin, .pwmFrequency, .telemetryRate, .cartStatusRate, .commandTimeout,
      .ebikeWheelCircumference, .ebikeGearRatio] := by
  intro r
  cases r <;> decide

theorem boundedBytes_limits : ∀ p ∈ boundedBytes,
    (p.1.limits : RegisterLimits Binary32) =
      .between (Scalar.ofUInt64 p.2.1.toUInt64) (Scalar.ofUInt64 p.2.2.toUInt64) := by
  decide

theorem mem_boundedBytes : ∀ r : Register, r.kind = .natural8 → r ∈ boundedBytes.map Prod.fst := by
  intro r
  cases r <;> decide

theorem port_limits : ∀ r : Register, r.kind = .natural16 →
    (r.limits : RegisterLimits Binary32) = .between (Scalar.ofUInt64 0) (Scalar.ofUInt64 65535) := by
  intro r
  cases r <;> decide

section Within

variable {s : NvmSettings} (checked : Checked Binary32 s) (accepted : Accepted Binary32 s)
include checked

omit checked in
theorem port_within {r : Register} (kind : r.kind = .natural16) :
    (r.limits : RegisterLimits Binary32).Admits (Scalar.ofUInt64 (s.natural16 r).toUInt64) := by
  have small := (s.natural16 r).toNat_lt
  rw [port_limits r kind]
  constructor
  · apply natural_le
    · exact UInt64.zero_le
    · rw [UInt16.toNat_toUInt64]
      exact small.trans (by decide)
  · apply natural_le
    · rw [UInt64.le_iff_toNat_le, UInt16.toNat_toUInt64]
      exact Nat.le_of_lt_succ small
    · decide

theorem byte_within {r : Register} (kind : r.kind = .natural8) :
    (r.limits : RegisterLimits Binary32).Admits (Scalar.ofUInt64 (s.natural8 r).toUInt64) := by
  obtain ⟨p, listed, rfl⟩ := List.mem_map.mp (mem_boundedBytes r kind)
  obtain ⟨low, high⟩ := checked.bytes p listed
  have wide {a b : UInt8} (order : a ≤ b) :
      (Scalar.ofUInt64 a.toUInt64 : Binary32) ≤ Scalar.ofUInt64 b.toUInt64 := by
    apply natural_le
    · rw [UInt64.le_iff_toNat_le, UInt8.toNat_toUInt64, UInt8.toNat_toUInt64]
      exact order
    · rw [UInt8.toNat_toUInt64]
      exact b.toNat_lt.trans (by decide)
  rw [boundedBytes_limits p listed]
  exact ⟨wide low, wide high⟩

include accepted

theorem nonnegative_within {r : Register} (kind : r.kind = .real32)
    (listed : r ∈ aboveZero ∨ r ∈ notBelowZero) :
    (RegisterLimits.atLeast 0.0).Admits (s.real r : Binary32) := by
  have finite := real_finite accepted kind
  rcases listed with positive | nonnegative
  · have above := of_decide_eq_false (checked.above r positive)
    exact ⟨finite_lt_le finite_zero.1 finite above, (finite_any finite).2⟩
  · exact zero_le finite (of_decide_eq_false (checked.notBelow r nonnegative))

theorem above_within {p : Register × Register} (listed : p ∈ aboveOther) :
    (RegisterLimits.atLeast 0.0).Admits (s.real p.1 : Binary32) := by
  have kinds : p.1.kind = .real32 ∧ p.2.kind = .real32 ∧ (p.2 ∈ aboveZero ∨ p.2 ∈ notBelowZero) := by
    revert p
    decide
  have first := real_finite accepted kinds.1
  have second := real_finite accepted kinds.2.1
  have base := (nonnegative_within checked accepted kinds.2.1 kinds.2.2).1
  have order : (s.real p.2 : Binary32) ≤ s.real p.1 := by
    rcases checked.other p listed with above | above
    · exact finite_le second first above
    · exact finite_lt_le second first above
  exact ⟨finite_trans finite_zero.1 second first base order, (finite_any first).2⟩

theorem capped_within {r : Register} {limit : Binary32} (listed : (r, limit) ∈ cappedReals Binary32) :
    (s.real r : Binary32) ≤ limit := by
  have facts : ∀ p ∈ cappedReals Binary32, p.1.kind = .real32 ∧ p.2.isFinite = true := by
    decide
  obtain ⟨kind, finite⟩ := facts _ listed
  exact finite_le (real_finite accepted kind) finite (of_decide_eq_false (checked.capped _ listed))

theorem real_within {r : Register} (kind : r.kind = .real32) :
    (r.limits : RegisterLimits Binary32).Admits (s.real r) := by
  have finite := real_finite accepted kind
  rcases real_limits r kind with any | ⟨least, listed⟩ | ⟨ratio, listed⟩ | ⟨gain, listed⟩ | listed
  · rw [any]
    exact finite_any finite
  · rw [least]
    rcases listed with positive | nonnegative | above
    · exact nonnegative_within checked accepted kind (.inl positive)
    · exact nonnegative_within checked accepted kind (.inr nonnegative)
    · obtain ⟨p, other, rfl⟩ := List.mem_map.mp above
      exact above_within checked accepted other
  · rw [ratio]
    have inside := checked.ratios r listed
    simp only [isRatio, Bool.and_eq_true, decide_eq_true_eq] at inside
    exact inside
  · rw [gain]
    have inside := checked.gains r listed
    simp only [isGain, Bool.and_eq_true, decide_eq_true_eq] at inside
    exact inside
  · have low (zero : r ∈ aboveZero ∨ r ∈ notBelowZero) :=
      (nonnegative_within checked accepted kind zero).1
    simp only [List.mem_cons, List.not_mem_nil, or_false] at listed
    rcases listed with rfl | rfl | rfl | rfl | rfl | rfl | rfl
    · exact ⟨(finite_any finite).1, finite_le finite finite_zero.1 (of_decide_eq_false checked.omegaMin)⟩
    · exact frequency_within accepted
    · exact ⟨low (by decide), capped_within checked accepted (by decide)⟩
    · exact ⟨low (by decide), capped_within checked accepted (by decide)⟩
    · exact ⟨low (by decide), capped_within checked accepted (by decide)⟩
    · exact ⟨finite_le (by decide) finite checked.wheel,
        capped_within checked accepted (by decide)⟩
    · exact ⟨low (by decide), capped_within checked accepted (by decide)⟩

end Within

end Reals

/-- The value of every register of accepted settings is within the limits of its description. -/
theorem described_limits_sound {s : NvmSettings} {capabilities : HardwareCapabilities Binary32}
    (accepted : validate s capabilities = .success) (r : Register) (value : Binary32)
    (shown : s.number r = some value) :
    (r.limits : RegisterLimits Binary32).minimum ≤ value ∧
      value ≤ (r.limits : RegisterLimits Binary32).maximum := by
  have checked := validate_checked Binary32 accepted
  unfold NvmSettings.number at shown
  cases kind : r.kind with
  | real32 =>
    rw [kind] at shown
    obtain rfl : s.real r = value := Option.some.inj shown
    exact real_within checked (validate_accepted accepted) kind
  | natural8 =>
    rw [kind] at shown
    obtain rfl : Scalar.ofUInt64 (s.natural8 r).toUInt64 = value := Option.some.inj shown
    exact byte_within checked kind
  | natural16 =>
    rw [kind] at shown
    obtain rfl : Scalar.ofUInt64 (s.natural16 r).toUInt64 = value := Option.some.inj shown
    exact port_within kind
  | text =>
    rw [kind] at shown
    cases shown

theorem described_limits_sound_default :
    (Register.limits .dcLinkTrip : RegisterLimits Binary32).minimum ≤ NvmSettings.default.real .dcLinkTrip ∧
      NvmSettings.default.real .dcLinkTrip ≤ (Register.limits .dcLinkTrip : RegisterLimits Binary32).maximum := by
  have accepted : validate NvmSettings.default simCapabilities = .success := by decide
  exact described_limits_sound accepted .dcLinkTrip _ rfl

end Unimoc.Settings
