import Unimoc.Settings.Store
import Unimoc.Units.Float

/-! The default settings and the profile of the simulated board, in the formats of the
target. -/
namespace Unimoc.Settings

open Cyphal

namespace NvmSettings

/-- The stored pattern of a number in single precision. -/
def pattern (value : Binary32) : UInt32 := Arithmetic.toReal32 value

/-- A value given in thousandths of the unit (`_mH`, `_mWb`, `_ms`). -/
def milli (value : Binary32) : Binary32 := value / 1000.0

def hoverboardR : Binary32 := 0.15

def hoverboardL : Binary32 := milli 0.35

def hoverboardCurrentBandwidth : Binary32 := 2000.0

/-- `unimoc`, padded with terminators. -/
def defaultName : Vector UInt8 (nodeNameMaxLen + 1) :=
  Vector.ofFn fun i => "unimoc".toUTF8.toList.getD i.val 0

def default : NvmSettings
  | .nodeId => (0 : UInt8)
  | .nodeDescription => defaultName
  | .motorType => (0 : UInt8)
  | .polePairs => (15 : UInt8)
  | .controlMode => (0 : UInt8)
  | .statorR => pattern hoverboardR
  | .statorL => pattern hoverboardL
  | .motorIMax => pattern 15.0
  | .motorOmegaMax => pattern 1500.0
  | .motorOmegaMin => pattern (-1500.0)
  | .batteryDriveCurrentMax => pattern 15.0
  | .batteryChargeCurrentMax => pattern 5.0
  | .dcLinkRegenDerateStart => pattern 55.0
  | .dcLinkTrip => pattern 58.0
  | .fluxPm => pattern (milli 23.0)
  | .lD => pattern hoverboardL
  | .lQ => pattern hoverboardL
  | .asmRR => pattern 0.3
  | .asmRS => pattern 0.5
  | .asmLS => pattern (milli 50.0)
  | .asmLR => pattern (milli 50.0)
  | .asmLM => pattern (milli 47.0)
  | .motorJ => pattern 2.5e-2
  | .mechObsQ => pattern 1e-5
  | .mechObsR => pattern 1e-4
  | .pmsmFluxObsCD => pattern 50.0
  | .pmsmFluxObsCQ => pattern 1.0
  | .pmsmFluxObsRSpeed => pattern 0.0
  | .hallEnable => (0 : UInt8)
  | .hallOffset => pattern 0.0
  | .hallREdge => pattern 3e-3
  | .hallRSector => pattern 3e-2
  | .asmObsGI => pattern 500.0
  | .asmObsGFlux => pattern 5000.0
  | .asmFluxKp => pattern 10.0
  | .asmFluxKi => pattern 50.0
  | .asmFluxIDMin => pattern 0.0
  | .asmFluxIDMax => pattern 10.0
  | .fwVMax => pattern 0.9
  | .fwKi => pattern 10.0
  | .fwIDMin => pattern (-10.0)
  | .pwmFrequency => pattern 20000.0
  | .currentKpD => pattern (hoverboardL * hoverboardCurrentBandwidth)
  | .currentKiD => pattern (hoverboardR * hoverboardCurrentBandwidth)
  | .currentKpQ => pattern (hoverboardL * hoverboardCurrentBandwidth)
  | .currentKiQ => pattern (hoverboardR * hoverboardCurrentBandwidth)
  | .currentVMax => pattern 0.9
  | .svmDutyMin => pattern 0.05
  | .svmDutyMax => pattern 0.95
  | .dtcDeadTime => pattern 0.0
  | .dtcFPwm => pattern 10000.0
  | .dtcIThreshold => pattern 0.1
  | .hfiVInject => pattern 0.0
  | .hfiErrorGain => pattern 1.0
  | .excitationMode => (0 : UInt8)
  | .excitationLM => pattern (milli 47.0)
  | .excitationKp => pattern 5.0
  | .excitationKi => pattern 50.0
  | .excitationIFMin => pattern 0.0
  | .excitationIFMax => pattern 10.0
  | .excitationObsTau => pattern (milli 2.0)
  | .excitationObsLM => pattern (milli 47.0)
  | .speedKp => pattern 0.3
  | .speedKi => pattern 5.0
  | .speedAccelLimit => pattern 1000.0
  | .posKpPos => pattern 10.0
  | .posKpSpeed => pattern 5.0
  | .posKiSpeed => pattern 20.0
  | .posSpeedLimit => pattern 100.0
  | .posAccelLimit => pattern 500.0
  | .posPositionTolerance => pattern 0.01
  | .posSpeedTolerance => pattern 1.0
  | .posHomingSpeed => pattern 5.0
  | .posHomingCurrent => pattern 2.0
  | .adcOffsetA | .adcOffsetB | .adcOffsetC => pattern 0.0
  | .adcGainA | .adcGainB | .adcGainC | .adcGainVdc => pattern 1.0
  | .subReadinessId => readinessFollowsNodeId
  | .subCurrentSetpointId => (107 : UInt16)
  | .subTorqueSetpointId => (100 : UInt16)
  | .subSpeedSetpointId => (101 : UInt16)
  | .subPositionSetpointId => (102 : UInt16)
  | .subServoSetpointId => (108 : UInt16)
  | .pubTelemetryId => (212 : UInt16)
  | .srvCymonVariablesId => (120 : UInt16)
  | .srvCymonBufferInfoId => (121 : UInt16)
  | .srvCymonSetupId => (122 : UInt16)
  | .srvCymonArmId => (123 : UInt16)
  | .srvCymonReadId => (124 : UInt16)
  | .pubCymonTriggerId | .subCymonTriggerId => unsetPortId
  | .telemetryRate => pattern 20.0
  | .commandTimeout => pattern 0.5
  | .subWheelCommandId => (110 : UInt16)
  | .subPedalStateId => (111 : UInt16)
  | .subBatteryStatusId => (112 : UInt16)
  | .pubDriveStatusId => (214 : UInt16)
  | .pubCommissioningId => (215 : UInt16)
  | .pubHomingStateId => (204 : UInt16)
  | .cartWheel | .cartReversed => (0 : UInt8)
  | .cartTimeout => pattern 0.1
  | .cartStatusRate => pattern 50.0
  | .cartTorqueRamp => pattern (50.0 / 1.0)
  | .cartLimpHomeTorque => pattern 5.0
  | .cartStandstillSpeed => pattern 1.0
  | .cartBatteryShare => pattern 1.0
  | .ebikePulsesPerRev => (36 : UInt8)
  | .ebikeWheelCircumference => pattern 2.1
  | .ebikeGearRatio => pattern 1.0
  | .ebikeBatteryCells => (10 : UInt8)
  | .ebikeNominalVoltage => (36 : UInt8)
  | .ebikeGain1 => pattern 0.3
  | .ebikeGain2 => pattern 0.6
  | .ebikeGain3 => pattern 1.0
  | .ebikeGain4 => pattern 1.5
  | .ebikeGain5 => pattern 2.0
  | .ebikePowerScale => pattern 300.0
  | .ebikeMaxRatio => pattern 4.0
  | .ebikeTorqueRatio => pattern 0.5
  | .ebikeTorqueDeadband => pattern 2.0
  | .ebikeMinCadence => pattern 2.0
  | .ebikeSpeedTaper => pattern 20.0
  | .ebikeRiseTime => pattern 0.5
  | .ebikeFallTime => pattern 0.15
  | .ebikeEngageHold => pattern 2.0
  | .ebikeRearmTime => pattern 1.0
  | .ebikeDisplayTimeout => pattern 2.0

end NvmSettings

def simCapabilities : HardwareCapabilities Binary32 where
  maxPhaseCurrent := 60.0
  maxMotorCurrent := 50.0
  maxBatteryDriveCurrent := 50.0
  maxBatteryChargeCurrent := 20.0
  maxDcLinkVoltage := 60.0

/-- Every default passes the validation. -/
example : validate NvmSettings.default simCapabilities = .success := by decide

end Unimoc.Settings
