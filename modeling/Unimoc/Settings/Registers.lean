import Unimoc.Cyphal.Interface
import Mathlib.Logic.Function.Basic

/-! The persistent registers of the drive: the table of `ForEachRegister()`, in its
order, the settings record indexed by it, and the stored encoding. -/
namespace Unimoc.Settings

open Cyphal

/-- How a register is stored: units and floats as 32-bit patterns, bytes and byte
enumerations, port-IDs, the node name. -/
inductive Kind
  | real32
  | natural8
  | natural16
  | text
deriving DecidableEq, Repr

/-- The name is an array of characters with room for its terminator. -/
def Kind.Carrier : Kind → Type
  | .real32 => UInt32
  | .natural8 => UInt8
  | .natural16 => UInt16
  | .text => Vector UInt8 (nodeNameMaxLen + 1)

inductive Register
  | nodeId | nodeDescription | motorType | polePairs | controlMode | statorR | statorL
  | motorIMax | motorOmegaMax | motorOmegaMin | batteryDriveCurrentMax
  | batteryChargeCurrentMax | dcLinkRegenDerateStart | dcLinkTrip | fluxPm | lD | lQ | asmRR
  | asmRS | asmLS | asmLR | asmLM | motorJ | mechObsQ | mechObsR | pmsmFluxObsCD
  | pmsmFluxObsCQ | pmsmFluxObsRSpeed | hallEnable | hallOffset | hallREdge | hallRSector
  | asmObsGI | asmObsGFlux | asmFluxKp | asmFluxKi | asmFluxIDMin | asmFluxIDMax | fwVMax
  | fwKi | fwIDMin | pwmFrequency | currentKpD | currentKiD | currentKpQ | currentKiQ
  | currentVMax | svmDutyMin | svmDutyMax | dtcDeadTime | dtcFPwm | dtcIThreshold
  | hfiVInject | hfiErrorGain | excitationMode | excitationLM | excitationKp | excitationKi
  | excitationIFMin | excitationIFMax | excitationObsTau | excitationObsLM | speedKp
  | speedKi | speedAccelLimit | posKpPos | posKpSpeed | posKiSpeed | posSpeedLimit
  | posAccelLimit | posPositionTolerance | posSpeedTolerance | posHomingSpeed
  | posHomingCurrent | adcOffsetA | adcOffsetB | adcOffsetC | adcGainA | adcGainB | adcGainC
  | adcGainVdc | subReadinessId | subCurrentSetpointId | subTorqueSetpointId
  | subSpeedSetpointId | subPositionSetpointId | subServoSetpointId | pubTelemetryId
  | srvCymonVariablesId | srvCymonBufferInfoId | srvCymonSetupId | srvCymonArmId
  | srvCymonReadId | pubCymonTriggerId | subCymonTriggerId | telemetryRate | commandTimeout
  | subWheelCommandId | subPedalStateId | subBatteryStatusId | pubDriveStatusId
  | pubCommissioningId | pubHomingStateId | cartWheel | cartReversed | cartTimeout
  | cartStatusRate | cartTorqueRamp | cartLimpHomeTorque | cartStandstillSpeed
  | cartBatteryShare | ebikePulsesPerRev | ebikeWheelCircumference | ebikeGearRatio
  | ebikeBatteryCells | ebikeNominalVoltage | ebikeGain1 | ebikeGain2 | ebikeGain3
  | ebikeGain4 | ebikeGain5 | ebikePowerScale | ebikeMaxRatio | ebikeTorqueRatio
  | ebikeTorqueDeadband | ebikeMinCadence | ebikeSpeedTaper | ebikeRiseTime | ebikeFallTime
  | ebikeEngageHold | ebikeRearmTime | ebikeDisplayTimeout
deriving DecidableEq, Repr

namespace Register

/-- The order of `ForEachRegister()`. -/
def all : List Register := [
  .nodeId, .nodeDescription, .motorType, .polePairs, .controlMode, .statorR, .statorL,
  .motorIMax, .motorOmegaMax, .motorOmegaMin, .batteryDriveCurrentMax,
  .batteryChargeCurrentMax, .dcLinkRegenDerateStart, .dcLinkTrip, .fluxPm, .lD, .lQ, .asmRR,
  .asmRS, .asmLS, .asmLR, .asmLM, .motorJ, .mechObsQ, .mechObsR, .pmsmFluxObsCD,
  .pmsmFluxObsCQ, .pmsmFluxObsRSpeed, .hallEnable, .hallOffset, .hallREdge, .hallRSector,
  .asmObsGI, .asmObsGFlux, .asmFluxKp, .asmFluxKi, .asmFluxIDMin, .asmFluxIDMax, .fwVMax,
  .fwKi, .fwIDMin, .pwmFrequency, .currentKpD, .currentKiD, .currentKpQ, .currentKiQ,
  .currentVMax, .svmDutyMin, .svmDutyMax, .dtcDeadTime, .dtcFPwm, .dtcIThreshold,
  .hfiVInject, .hfiErrorGain, .excitationMode, .excitationLM, .excitationKp, .excitationKi,
  .excitationIFMin, .excitationIFMax, .excitationObsTau, .excitationObsLM, .speedKp,
  .speedKi, .speedAccelLimit, .posKpPos, .posKpSpeed, .posKiSpeed, .posSpeedLimit,
  .posAccelLimit, .posPositionTolerance, .posSpeedTolerance, .posHomingSpeed,
  .posHomingCurrent, .adcOffsetA, .adcOffsetB, .adcOffsetC, .adcGainA, .adcGainB, .adcGainC,
  .adcGainVdc, .subReadinessId, .subCurrentSetpointId, .subTorqueSetpointId,
  .subSpeedSetpointId, .subPositionSetpointId, .subServoSetpointId, .pubTelemetryId,
  .srvCymonVariablesId, .srvCymonBufferInfoId, .srvCymonSetupId, .srvCymonArmId,
  .srvCymonReadId, .pubCymonTriggerId, .subCymonTriggerId, .telemetryRate, .commandTimeout,
  .subWheelCommandId, .subPedalStateId, .subBatteryStatusId, .pubDriveStatusId,
  .pubCommissioningId, .pubHomingStateId, .cartWheel, .cartReversed, .cartTimeout,
  .cartStatusRate, .cartTorqueRamp, .cartLimpHomeTorque, .cartStandstillSpeed,
  .cartBatteryShare, .ebikePulsesPerRev, .ebikeWheelCircumference, .ebikeGearRatio,
  .ebikeBatteryCells, .ebikeNominalVoltage, .ebikeGain1, .ebikeGain2, .ebikeGain3,
  .ebikeGain4, .ebikeGain5, .ebikePowerScale, .ebikeMaxRatio, .ebikeTorqueRatio,
  .ebikeTorqueDeadband, .ebikeMinCadence, .ebikeSpeedTaper, .ebikeRiseTime, .ebikeFallTime,
  .ebikeEngageHold, .ebikeRearmTime, .ebikeDisplayTimeout]

def kind : Register → Kind
  | .nodeId | .motorType | .polePairs | .controlMode | .hallEnable | .excitationMode
  | .cartWheel | .cartReversed | .ebikePulsesPerRev | .ebikeBatteryCells
  | .ebikeNominalVoltage =>
    .natural8
  | .subReadinessId | .subCurrentSetpointId | .subTorqueSetpointId | .subSpeedSetpointId
  | .subPositionSetpointId | .subServoSetpointId | .pubTelemetryId | .srvCymonVariablesId
  | .srvCymonBufferInfoId | .srvCymonSetupId | .srvCymonArmId | .srvCymonReadId
  | .pubCymonTriggerId | .subCymonTriggerId | .subWheelCommandId | .subPedalStateId
  | .subBatteryStatusId | .pubDriveStatusId | .pubCommissioningId | .pubHomingStateId =>
    .natural16
  | .nodeDescription =>
    .text
  | _ => .real32

end Register

structure RegisterEntry where
  name : String
  effect : RegisterEffect
deriving DecidableEq, Repr

/-- Applied while the drive is disengaged. -/
def setting (name : String) : RegisterEntry := ⟨name, .disengaged⟩

/-- Taken at once, also while the drive is engaged (live tuning). -/
def tunable (name : String) : RegisterEntry := ⟨name, .immediate⟩

/-- Takes effect after a restart. -/
def afterRestart (name : String) : RegisterEntry := ⟨name, .restart⟩

namespace Register

def entry : Register → RegisterEntry
  | .nodeId => afterRestart "uavcan.node.id"
  | .nodeDescription => afterRestart "uavcan.node.description"
  | .motorType => setting "unimoc.motor.type"
  | .polePairs => setting "unimoc.motor.pole_pairs"
  | .controlMode => setting "unimoc.control.mode"
  | .statorR => setting "unimoc.motor.stator.R"
  | .statorL => setting "unimoc.motor.stator.L"
  | .motorIMax => setting "unimoc.motor.limits.i_max"
  | .motorOmegaMax => setting "unimoc.motor.limits.omega_max"
  | .motorOmegaMin => setting "unimoc.motor.limits.omega_min"
  | .batteryDriveCurrentMax => setting "unimoc.battery.limits.drive_current"
  | .batteryChargeCurrentMax => setting "unimoc.battery.limits.charge_current"
  | .dcLinkRegenDerateStart => setting "unimoc.battery.limits.regen_derate_voltage"
  | .dcLinkTrip => setting "unimoc.battery.limits.trip_voltage"
  | .fluxPm => setting "unimoc.motor.pmsm.flux_pm"
  | .lD => setting "unimoc.motor.pmsm.L_d"
  | .lQ => setting "unimoc.motor.pmsm.L_q"
  | .asmRR => setting "unimoc.motor.asm.R_r"
  | .asmRS => setting "unimoc.motor.asm.R_s"
  | .asmLS => setting "unimoc.motor.asm.L_s"
  | .asmLR => setting "unimoc.motor.asm.L_r"
  | .asmLM => setting "unimoc.motor.asm.L_m"
  | .motorJ => setting "unimoc.motor.mechanics.J"
  | .mechObsQ => setting "unimoc.observer.mech.Q"
  | .mechObsR => setting "unimoc.observer.mech.R"
  | .pmsmFluxObsCD => setting "unimoc.observer.pmsm_flux.C_d"
  | .pmsmFluxObsCQ => setting "unimoc.observer.pmsm_flux.C_q"
  | .pmsmFluxObsRSpeed => setting "unimoc.observer.pmsm_flux.R_speed"
  | .hallEnable => setting "unimoc.observer.hall.enable"
  | .hallOffset => setting "unimoc.observer.hall.offset"
  | .hallREdge => setting "unimoc.observer.hall.R_edge"
  | .hallRSector => setting "unimoc.observer.hall.R_sector"
  | .asmObsGI => setting "unimoc.observer.asm_flux.g_i"
  | .asmObsGFlux => setting "unimoc.observer.asm_flux.g_flux"
  | .asmFluxKp => setting "unimoc.control.asm_flux.kp"
  | .asmFluxKi => setting "unimoc.control.asm_flux.ki"
  | .asmFluxIDMin => setting "unimoc.control.asm_flux.i_d_min"
  | .asmFluxIDMax => setting "unimoc.control.asm_flux.i_d_max"
  | .fwVMax => setting "unimoc.control.fw.v_max"
  | .fwKi => setting "unimoc.control.fw.ki"
  | .fwIDMin => setting "unimoc.control.fw.i_d_min"
  | .pwmFrequency => setting "unimoc.control.pwm_frequency"
  | .currentKpD => tunable "unimoc.control.current.kp_d"
  | .currentKiD => tunable "unimoc.control.current.ki_d"
  | .currentKpQ => tunable "unimoc.control.current.kp_q"
  | .currentKiQ => tunable "unimoc.control.current.ki_q"
  | .currentVMax => setting "unimoc.control.current.v_max"
  | .svmDutyMin => setting "unimoc.control.svm.duty_min"
  | .svmDutyMax => setting "unimoc.control.svm.duty_max"
  | .dtcDeadTime => setting "unimoc.control.dtc.dead_time"
  | .dtcFPwm => setting "unimoc.control.dtc.f_pwm"
  | .dtcIThreshold => setting "unimoc.control.dtc.i_threshold"
  | .hfiVInject => setting "unimoc.observer.hfi.v_inject"
  | .hfiErrorGain => setting "unimoc.observer.hfi.error_gain"
  | .excitationMode => setting "unimoc.control.excitation.mode"
  | .excitationLM => setting "unimoc.control.excitation.L_m"
  | .excitationKp => setting "unimoc.control.excitation.kp"
  | .excitationKi => setting "unimoc.control.excitation.ki"
  | .excitationIFMin => setting "unimoc.control.excitation.i_f_min"
  | .excitationIFMax => setting "unimoc.control.excitation.i_f_max"
  | .excitationObsTau => setting "unimoc.observer.excitation.tau"
  | .excitationObsLM => setting "unimoc.observer.excitation.L_m"
  | .speedKp => tunable "unimoc.control.speed.kp"
  | .speedKi => tunable "unimoc.control.speed.ki"
  | .speedAccelLimit => tunable "unimoc.control.speed.accel_limit"
  | .posKpPos => tunable "unimoc.control.pos.kp"
  | .posKpSpeed => setting "unimoc.control.pos.kp_speed"
  | .posKiSpeed => setting "unimoc.control.pos.ki_speed"
  | .posSpeedLimit => tunable "unimoc.control.pos.speed_limit"
  | .posAccelLimit => tunable "unimoc.control.pos.accel_limit"
  | .posPositionTolerance => tunable "unimoc.control.pos.position_tolerance"
  | .posSpeedTolerance => tunable "unimoc.control.pos.speed_tolerance"
  | .posHomingSpeed => setting "unimoc.control.pos.homing_speed"
  | .posHomingCurrent => setting "unimoc.control.pos.homing_current"
  | .adcOffsetA => setting "unimoc.startup.adc_offset_a"
  | .adcOffsetB => setting "unimoc.startup.adc_offset_b"
  | .adcOffsetC => setting "unimoc.startup.adc_offset_c"
  | .adcGainA => setting "unimoc.startup.gain_a"
  | .adcGainB => setting "unimoc.startup.gain_b"
  | .adcGainC => setting "unimoc.startup.gain_c"
  | .adcGainVdc => setting "unimoc.startup.gain_vdc"
  | .subReadinessId => afterRestart "uavcan.sub.readiness.id"
  | .subCurrentSetpointId => afterRestart "uavcan.sub.current_setpoint.id"
  | .subTorqueSetpointId => afterRestart "uavcan.sub.torque_setpoint.id"
  | .subSpeedSetpointId => afterRestart "uavcan.sub.speed_setpoint.id"
  | .subPositionSetpointId => afterRestart "uavcan.sub.position_setpoint.id"
  | .subServoSetpointId => afterRestart "uavcan.sub.servo_setpoint.id"
  | .pubTelemetryId => afterRestart "uavcan.pub.telemetry.id"
  | .srvCymonVariablesId => afterRestart "uavcan.srv.cymon_variables.id"
  | .srvCymonBufferInfoId => afterRestart "uavcan.srv.cymon_buffer_info.id"
  | .srvCymonSetupId => afterRestart "uavcan.srv.cymon_setup.id"
  | .srvCymonArmId => afterRestart "uavcan.srv.cymon_arm.id"
  | .srvCymonReadId => afterRestart "uavcan.srv.cymon_read.id"
  | .pubCymonTriggerId => afterRestart "uavcan.pub.cymon_trigger.id"
  | .subCymonTriggerId => afterRestart "uavcan.sub.cymon_trigger.id"
  | .telemetryRate => tunable "unimoc.telemetry.rate"
  | .commandTimeout => tunable "unimoc.control.command_timeout"
  | .subWheelCommandId => afterRestart "uavcan.sub.wheel_command.id"
  | .subPedalStateId => afterRestart "uavcan.sub.pedal_state.id"
  | .subBatteryStatusId => afterRestart "uavcan.sub.battery_status.id"
  | .pubDriveStatusId => afterRestart "uavcan.pub.drive_status.id"
  | .pubCommissioningId => afterRestart "uavcan.pub.commissioning.id"
  | .pubHomingStateId => afterRestart "uavcan.pub.homing_state.id"
  | .cartWheel => setting "unimoc.cart.wheel"
  | .cartReversed => setting "unimoc.cart.reversed"
  | .cartTimeout => setting "unimoc.cart.timeout"
  | .cartStatusRate => tunable "unimoc.cart.status_rate"
  | .cartTorqueRamp => tunable "unimoc.cart.torque_ramp"
  | .cartLimpHomeTorque => tunable "unimoc.cart.limp_home_torque"
  | .cartStandstillSpeed => tunable "unimoc.cart.standstill_speed"
  | .cartBatteryShare => setting "unimoc.cart.battery_share"
  | .ebikePulsesPerRev => setting "unimoc.ebike.pulses_per_rev"
  | .ebikeWheelCircumference => setting "unimoc.ebike.wheel_circumference"
  | .ebikeGearRatio => setting "unimoc.ebike.gear_ratio"
  | .ebikeBatteryCells => setting "unimoc.ebike.battery_cells"
  | .ebikeNominalVoltage => setting "unimoc.ebike.nominal_voltage"
  | .ebikeGain1 => setting "unimoc.ebike.gain_1"
  | .ebikeGain2 => setting "unimoc.ebike.gain_2"
  | .ebikeGain3 => setting "unimoc.ebike.gain_3"
  | .ebikeGain4 => setting "unimoc.ebike.gain_4"
  | .ebikeGain5 => setting "unimoc.ebike.gain_5"
  | .ebikePowerScale => setting "unimoc.ebike.power_scale"
  | .ebikeMaxRatio => setting "unimoc.ebike.max_ratio"
  | .ebikeTorqueRatio => setting "unimoc.ebike.torque_ratio"
  | .ebikeTorqueDeadband => setting "unimoc.ebike.torque_deadband"
  | .ebikeMinCadence => setting "unimoc.ebike.min_cadence"
  | .ebikeSpeedTaper => setting "unimoc.ebike.speed_taper"
  | .ebikeRiseTime => setting "unimoc.ebike.rise_time"
  | .ebikeFallTime => setting "unimoc.ebike.fall_time"
  | .ebikeEngageHold => setting "unimoc.ebike.engage_hold"
  | .ebikeRearmTime => setting "unimoc.ebike.rearm_time"
  | .ebikeDisplayTimeout => setting "unimoc.ebike.display_timeout"

def name (r : Register) : String := r.entry.name

def effect (r : Register) : RegisterEffect := r.entry.effect

theorem mem_all (r : Register) : r ∈ all := by
  cases r <;> decide

end Register
instance (k : Kind) : DecidableEq k.Carrier :=
  match k with
  | .real32 => inferInstanceAs (DecidableEq UInt32)
  | .natural8 => inferInstanceAs (DecidableEq UInt8)
  | .natural16 => inferInstanceAs (DecidableEq UInt16)
  | .text => inferInstanceAs (DecidableEq (Vector UInt8 (nodeNameMaxLen + 1)))

/-- The settings: one value for every register. -/
def NvmSettings := (r : Register) → r.kind.Carrier

namespace NvmSettings

/-- The bit pattern of a register that holds a unit or a float. -/
def real32 (settings : NvmSettings) (r : Register) : UInt32 :=
  match r.kind, settings r with
  | .real32, bits => bits
  | _, _ => 0

def natural8 (settings : NvmSettings) (r : Register) : UInt8 :=
  match r.kind, settings r with
  | .natural8, value => value
  | _, _ => 0

def natural16 (settings : NvmSettings) (r : Register) : UInt16 :=
  match r.kind, settings r with
  | .natural16, value => value
  | _, _ => 0

/-- The value of a unit or float register in the format of the target. -/
def real {F : Type} [Arithmetic F] (settings : NvmSettings) (r : Register) : F :=
  Arithmetic.ofReal32 (settings.real32 r)

def set (settings : NvmSettings) (r : Register) (value : r.kind.Carrier) : NvmSettings :=
  Function.update settings r value

@[simp] theorem set_self (settings : NvmSettings) (r : Register) (value : r.kind.Carrier) :
    settings.set r value r = value := Function.update_self ..

theorem real_congr {F : Type} [Arithmetic F] {first second : NvmSettings} {r : Register}
    (same : first r = second r) : (first.real r : F) = second.real r := by
  unfold real real32
  rw [same]

theorem set_other (settings : NvmSettings) {r q : Register} (value : r.kind.Carrier) (other : q ≠ r) :
    settings.set r value q = settings q := Function.update_of_ne other ..

end NvmSettings

/-- The stored bytes of a value, little endian; a name with its terminator. -/
def encodeRegisterValue : (k : Kind) → k.Carrier → List UInt8
  | .real32, (bits : UInt32) =>
    [bits.toUInt8, (bits >>> 8).toUInt8, (bits >>> 16).toUInt8, (bits >>> 24).toUInt8]
  | .natural8, (value : UInt8) => [value]
  | .natural16, (value : UInt16) => [value.toUInt8, (value >>> 8).toUInt8]
  | .text, (name : Vector UInt8 (nodeNameMaxLen + 1)) =>
    (name.toList.take nodeNameMaxLen).takeWhile (· ≠ 0) ++ [0]

def sameEncoding (k : Kind) (first second : k.Carrier) : Bool :=
  encodeRegisterValue k first == encodeRegisterValue k second

@[simp] theorem sameEncoding_self (k : Kind) (value : k.Carrier) : sameEncoding k value value = true := by
  simp [sameEncoding]

theorem sameEncoding_trans {k : Kind} {a b c : k.Carrier} (first : sameEncoding k a b = true)
    (second : sameEncoding k b c = true) : sameEncoding k a c = true := by
  simp only [sameEncoding, beq_iff_eq] at *
  exact first.trans second

/-- Copies the registers that may change while the drive is engaged. -/
def copyTunable (source target : NvmSettings) : NvmSettings := fun r =>
  if r.effect = .immediate then source r else target r

/-- The first register in which `live` differs from `applied` outside the tunable ones. -/
def firstUntunableChange (applied live : NvmSettings) : Option Register :=
  let untuned := copyTunable applied live
  Register.all.find? fun r => !sameEncoding r.kind (applied r) (untuned r)

theorem firstUntunableChange_none {applied live : NvmSettings} :
    firstUntunableChange applied live = none ↔
      ∀ r, r.effect ≠ .immediate → sameEncoding r.kind (applied r) (live r) = true := by
  simp only [firstUntunableChange, List.find?_eq_none, copyTunable, Bool.not_eq_true', Bool.not_eq_false]
  constructor
  · intro same r untunable
    simpa [untunable] using same r (Register.mem_all r)
  · intro same r _
    split
    · exact sameEncoding_self ..
    · rename_i untunable
      exact same r untunable

end Unimoc.Settings
