import Unimoc.Settings.Registers

/-! The validation every change of the live settings passes. -/
namespace Unimoc.Settings

open Cyphal

inductive SettingsStatus
  | success
  | factoryDefaults
  | invalidImage
  | invalidSettings
  | outOfRange
  | storageUnavailable
  | storageError
  | persistBlocked
deriving DecidableEq, Repr

/-- Immutable electrical limits of a hardware target. -/
structure HardwareCapabilities (F : Type) where
  maxPhaseCurrent : F
  maxMotorCurrent : F
  maxBatteryDriveCurrent : F
  maxBatteryChargeCurrent : F
  maxDcLinkVoltage : F

/-- The registers `IsFiniteEbike()` tests. -/
def ebikeReals : List Register := [
  .ebikeWheelCircumference, .ebikeGearRatio, .ebikeGain1, .ebikeGain2, .ebikeGain3,
  .ebikeGain4, .ebikeGain5, .ebikePowerScale, .ebikeMaxRatio, .ebikeTorqueRatio,
  .ebikeTorqueDeadband, .ebikeMinCadence, .ebikeSpeedTaper, .ebikeRiseTime, .ebikeFallTime,
  .ebikeEngageHold, .ebikeRearmTime, .ebikeDisplayTimeout]

/-- The registers `IsFinite()` tests: all that hold a unit or a float but the PWM
frequency, which is one of a few values. -/
def finiteReals : List Register := [
  .statorR, .statorL, .motorIMax, .motorOmegaMax, .motorOmegaMin, .batteryDriveCurrentMax,
  .batteryChargeCurrentMax, .fluxPm, .lD, .lQ, .asmRR, .asmRS, .asmLS, .asmLR, .asmLM, .motorJ,
  .mechObsQ, .mechObsR, .pmsmFluxObsCD, .pmsmFluxObsCQ, .pmsmFluxObsRSpeed, .hallOffset,
  .hallREdge, .hallRSector, .asmObsGI, .asmObsGFlux, .asmFluxKp, .asmFluxKi, .asmFluxIDMin,
  .asmFluxIDMax, .fwVMax, .fwKi, .fwIDMin, .currentKpD, .currentKiD, .currentKpQ, .currentKiQ,
  .currentVMax, .svmDutyMin, .svmDutyMax, .dtcDeadTime, .dtcFPwm, .dtcIThreshold, .hfiVInject,
  .hfiErrorGain, .excitationLM, .excitationKp, .excitationKi, .excitationIFMin,
  .excitationIFMax, .excitationObsTau, .excitationObsLM, .speedKp, .speedKi, .speedAccelLimit,
  .posKpPos, .posKpSpeed, .posKiSpeed, .posSpeedLimit, .posAccelLimit, .posPositionTolerance,
  .posSpeedTolerance, .posHomingSpeed, .posHomingCurrent, .adcOffsetA, .adcOffsetB,
  .adcOffsetC, .adcGainC, .adcGainA, .adcGainB, .adcGainVdc, .telemetryRate, .commandTimeout,
  .dcLinkRegenDerateStart, .dcLinkTrip, .cartTimeout, .cartStatusRate, .cartTorqueRamp,
  .cartLimpHomeTorque, .cartStandstillSpeed, .cartBatteryShare] ++ ebikeReals

/-- True when two enabled ports share one port-ID. -/
def hasDuplicatePort : List UInt16 → Bool
  | [] => false
  | port :: rest => (port ≠ unsetPortId && rest.contains port) || hasDuplicatePort rest

def hasPortIdCollision (s : NvmSettings) : Bool :=
  let readiness :=
    if s.natural8 .nodeId = 0 ∧ s.natural16 .subReadinessId = readinessFollowsNodeId then unsetPortId
    else effectiveReadinessId (s.natural16 .subReadinessId) (s.natural8 .nodeId)
  let subjects := readiness :: [.subCurrentSetpointId, .subTorqueSetpointId, .subSpeedSetpointId,
    .subPositionSetpointId, .subServoSetpointId, .pubTelemetryId, .subWheelCommandId,
    .subPedalStateId, .subBatteryStatusId, .pubDriveStatusId, .pubCommissioningId,
    .pubHomingStateId].map s.natural16
  let services := [.srvCymonVariablesId, .srvCymonBufferInfoId, .srvCymonSetupId, .srvCymonArmId,
    .srvCymonReadId].map s.natural16
  let onSubject (port : UInt16) := port ≠ unsetPortId && subjects.contains port
  hasDuplicatePort subjects || hasDuplicatePort services ||
    onSubject (s.natural16 .pubCymonTriggerId) || onSubject (s.natural16 .subCymonTriggerId)

def maxSubjectId : UInt16 := 8191

def isSubjectId (port : UInt16) : Bool := port ≤ maxSubjectId || port == unsetPortId

def isServiceId (port : UInt16) : Bool := port ≤ maxServiceId || port == unsetPortId

section Floating

variable (F : Type) [Arithmetic F]

def isFinite (s : NvmSettings) : Bool := finiteReals.all fun r => Scalar.isFinite (s.real r : F)

def isValidEnumValues (s : NvmSettings) : Bool :=
  s.natural8 .motorType ≤ 2 && s.natural8 .controlMode ≤ 2 &&
    [16000.0, 20000.0, 24000.0, 28000.0, 32000.0].any (Scalar.eq (s.real .pwmFrequency : F)) &&
    s.natural8 .excitationMode ≤ 1 && s.natural8 .hallEnable ≤ 1 && s.natural8 .cartWheel ≤ 3 &&
    s.natural8 .cartReversed ≤ 1

def isNegative (s : NvmSettings) (r : Register) : Bool := (s.real r : F) < Scalar.zero

def isPositive (s : NvmSettings) (r : Register) : Bool := Scalar.zero < (s.real r : F)

/-- `value <= ZeroOf(value)`. -/
def isNotAbove (s : NvmSettings) (r : Register) : Bool := (s.real r : F) ≤ Scalar.zero

def isRatio (s : NvmSettings) (r : Register) : Bool :=
  Scalar.zero ≤ (s.real r : F) && (s.real r : F) ≤ 1.0

def isGain (s : NvmSettings) (r : Register) : Bool :=
  Scalar.zero ≤ (s.real r : F) && (s.real r : F) ≤ 20.0

def exceeds (s : NvmSettings) (r : Register) (limit : F) : Bool := limit < (s.real r : F)

variable {F}

def validate (s : NvmSettings) (limits : HardwareCapabilities F) : SettingsStatus :=
  if !isFinite F s || !isValidEnumValues F s || 127 < s.natural8 .nodeId || s.natural8 .polePairs = 0 then
    .invalidSettings
  -- limits of the hardware
  else if isNegative F s .motorIMax || exceeds F s .motorIMax limits.maxMotorCurrent ||
      isNegative F s .batteryDriveCurrentMax ||
      exceeds F s .batteryDriveCurrentMax limits.maxBatteryDriveCurrent ||
      isNegative F s .batteryChargeCurrentMax ||
      exceeds F s .batteryChargeCurrentMax limits.maxBatteryChargeCurrent ||
      isPositive F s .motorOmegaMin || isNegative F s .motorOmegaMax ||
      isNotAbove F s .dcLinkRegenDerateStart ||
      (s.real .dcLinkTrip : F) ≤ s.real .dcLinkRegenDerateStart ||
      exceeds F s .dcLinkTrip limits.maxDcLinkVoltage then
    .outOfRange
  -- motor and controller parameters
  else if isNotAbove F s .statorR || isNotAbove F s .statorL || isNegative F s .fluxPm ||
      isNotAbove F s .lD || isNotAbove F s .lQ || isNotAbove F s .asmRR || isNotAbove F s .asmRS ||
      isNotAbove F s .asmLS || isNotAbove F s .asmLR || isNotAbove F s .asmLM ||
      isNotAbove F s .motorJ || isNegative F s .asmFluxIDMin ||
      (s.real .asmFluxIDMax : F) < s.real .asmFluxIDMin || isNegative F s .excitationIFMin ||
      (s.real .excitationIFMax : F) < s.real .excitationIFMin || isNegative F s .dtcDeadTime ||
      isNotAbove F s .dtcFPwm || isNotAbove F s .excitationObsTau ||
      isNegative F s .posPositionTolerance || isNegative F s .posSpeedTolerance ||
      isNegative F s .posHomingCurrent then
    .outOfRange
  -- noise variances are positive; gains, weights and limits are not negative
  else if isNotAbove F s .mechObsR || isNegative F s .pmsmFluxObsRSpeed ||
      isNotAbove F s .hallREdge || isNotAbove F s .hallRSector || isNegative F s .speedKp ||
      isNegative F s .speedKi || isNegative F s .speedAccelLimit then
    .outOfRange
  else if isNegative F s .fwVMax || !isRatio F s .currentVMax || !isRatio F s .svmDutyMin ||
      !isRatio F s .svmDutyMax || (s.real .svmDutyMax : F) < s.real .svmDutyMin ||
      isNotAbove F s .adcGainA || isNotAbove F s .adcGainB || isNotAbove F s .adcGainC ||
      isNotAbove F s .adcGainVdc then
    .outOfRange
  -- subject-IDs, rates and timeouts
  else if (!isSubjectId (s.natural16 .subReadinessId) &&
        s.natural16 .subReadinessId ≠ readinessFollowsNodeId) ||
      !isSubjectId (s.natural16 .subCurrentSetpointId) ||
      !isSubjectId (s.natural16 .subTorqueSetpointId) ||
      !isSubjectId (s.natural16 .subSpeedSetpointId) ||
      !isSubjectId (s.natural16 .subPositionSetpointId) ||
      !isSubjectId (s.natural16 .subServoSetpointId) || !isSubjectId (s.natural16 .pubTelemetryId) ||
      isNegative F s .telemetryRate || exceeds F s .telemetryRate (1000.0 : F) ||
      isNotAbove F s .commandTimeout || exceeds F s .commandTimeout (10.0 : F) then
    .outOfRange
  -- cart: limp-home starts before the readiness times out
  else if !isSubjectId (s.natural16 .subWheelCommandId) ||
      !isSubjectId (s.natural16 .subPedalStateId) || !isSubjectId (s.natural16 .subBatteryStatusId) ||
      !isSubjectId (s.natural16 .pubDriveStatusId) ||
      !isSubjectId (s.natural16 .pubCommissioningId) ||
      !isSubjectId (s.natural16 .pubHomingStateId) || isNotAbove F s .cartTimeout ||
      exceeds F s .cartTimeout (s.real .commandTimeout : F) || isNegative F s .cartStatusRate ||
      exceeds F s .cartStatusRate (1000.0 : F) || isNotAbove F s .cartTorqueRamp ||
      isNegative F s .cartLimpHomeTorque || isNegative F s .cartStandstillSpeed ||
      !isRatio F s .cartBatteryShare then
    .outOfRange
  -- e-bike: sensor, wheel, battery and assist parameters
  else if s.natural8 .ebikePulsesPerRev < 2 || 64 < s.natural8 .ebikePulsesPerRev ||
      (s.real .ebikeWheelCircumference : F) < 0.5 || exceeds F s .ebikeWheelCircumference (4.0 : F) ||
      isNotAbove F s .ebikeGearRatio || exceeds F s .ebikeGearRatio (20.0 * 5.0 : F) ||
      s.natural8 .ebikeBatteryCells < 1 || 30 < s.natural8 .ebikeBatteryCells ||
      s.natural8 .ebikeNominalVoltage = 0 || !isGain F s .ebikeGain1 || !isGain F s .ebikeGain2 ||
      !isGain F s .ebikeGain3 || !isGain F s .ebikeGain4 || !isGain F s .ebikeGain5 ||
      !isGain F s .ebikeMaxRatio || !isGain F s .ebikeTorqueRatio ||
      isNotAbove F s .ebikePowerScale || isNegative F s .ebikeTorqueDeadband ||
      isNegative F s .ebikeMinCadence || isNotAbove F s .ebikeSpeedTaper ||
      isNotAbove F s .ebikeRiseTime || isNotAbove F s .ebikeFallTime ||
      isNegative F s .ebikeEngageHold || isNegative F s .ebikeRearmTime ||
      isNotAbove F s .ebikeDisplayTimeout then
    .outOfRange
  -- trace services and triggers
  else if !isServiceId (s.natural16 .srvCymonVariablesId) ||
      !isServiceId (s.natural16 .srvCymonBufferInfoId) || !isServiceId (s.natural16 .srvCymonSetupId) ||
      !isServiceId (s.natural16 .srvCymonArmId) || !isServiceId (s.natural16 .srvCymonReadId) ||
      !isSubjectId (s.natural16 .pubCymonTriggerId) ||
      !isSubjectId (s.natural16 .subCymonTriggerId) then
    .outOfRange
  else if hasPortIdCollision s then .invalidSettings
  else .success

end Floating

end Unimoc.Settings
