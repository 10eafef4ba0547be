import Unimoc.Settings.Validate

/-! What the validation says of the settings it accepts. -/
namespace Unimoc.Settings

open Cyphal

/-- Registers that are above zero. -/
def positiveReals : List Register := [.motorJ, .mechObsR, .hallREdge, .hallRSector, .dtcFPwm]

def subjectPorts : List Register := [
  .subCurrentSetpointId, .subTorqueSetpointId, .subSpeedSetpointId, .subPositionSetpointId,
  .subServoSetpointId, .pubTelemetryId, .subWheelCommandId, .subPedalStateId, .subBatteryStatusId,
  .pubDriveStatusId, .pubCommissioningId, .pubHomingStateId, .pubCymonTriggerId, .subCymonTriggerId]

def servicePorts : List Register := [
  .srvCymonVariablesId, .srvCymonBufferInfoId, .srvCymonSetupId, .srvCymonArmId, .srvCymonReadId]

structure Accepted (F : Type) [Arithmetic F] (s : NvmSettings) : Prop where
  finite : ∀ r ∈ finiteReals, Scalar.isFinite (s.real r : F) = true
  enums : isValidEnumValues F s = true
  nodeId : s.natural8 .nodeId ≤ 127
  positive : ∀ r ∈ positiveReals, ¬(s.real r : F) ≤ Scalar.zero
  omegaMin : ¬(Scalar.zero : F) < s.real .motorOmegaMin
  omegaMax : ¬(s.real .motorOmegaMax : F) < Scalar.zero
  duties : ¬(s.real .svmDutyMax : F) < s.real .svmDutyMin
  readiness : isSubjectId (s.natural16 .subReadinessId) = true ∨
    s.natural16 .subReadinessId = readinessFollowsNodeId
  subjects : ∀ r ∈ subjectPorts, isSubjectId (s.natural16 r) = true
  services : ∀ r ∈ servicePorts, isServiceId (s.natural16 r) = true
  distinct : hasPortIdCollision s = false

variable {F : Type} [Arithmetic F]

theorem passed {refused : Prop} [Decidable refused] {answer rest : SettingsStatus}
    (accepted : (if refused then answer else rest) = .success) (bad : answer ≠ .success) :
    ¬refused ∧ rest = .success := by
  by_cases wrong : refused
  · exact absurd ((if_pos wrong).symm.trans accepted) bad
  · exact ⟨wrong, (if_neg wrong).symm.trans accepted⟩

theorem validate_accepted {s : NvmSettings} {limits : HardwareCapabilities F}
    (accepted : validate s limits = .success) : Accepted F s := by
  unfold validate at accepted
  obtain ⟨basics, accepted⟩ := passed accepted (by decide)
  obtain ⟨ratings, accepted⟩ := passed accepted (by decide)
  obtain ⟨motor, accepted⟩ := passed accepted (by decide)
  obtain ⟨noise, accepted⟩ := passed accepted (by decide)
  obtain ⟨ratios, accepted⟩ := passed accepted (by decide)
  obtain ⟨subjects, accepted⟩ := passed accepted (by decide)
  obtain ⟨cart, accepted⟩ := passed accepted (by decide)
  obtain ⟨-, accepted⟩ := passed accepted (by decide)
  obtain ⟨services, accepted⟩ := passed accepted (by decide)
  obtain ⟨collision, -⟩ := passed accepted (by decide)
  simp only [Bool.or_eq_true, Bool.and_eq_true, not_or, not_and, Bool.not_eq_true, Bool.not_eq_false,
    decide_eq_true_eq, Bool.not_eq_eq_eq_not, Bool.not_true, isFinite, isNotAbove, isNegative, isPositive,
    List.all_eq_true, ne_eq, not_not] at basics ratings motor noise ratios subjects cart services collision
  refine ⟨basics.1.1.1, basics.1.1.2, ?_, ?_, ratings.1.1.1.1.2, ratings.1.1.1.2, ratios.1.1.1.1.2, ?_, ?_,
    ?_, collision⟩
  · exact UInt8.not_lt.mp basics.1.2
  · simp [positiveReals, motor, noise]
  · cases subject : isSubjectId (s.natural16 .subReadinessId) with
    | true => exact .inl rfl
    | false => exact .inr (subjects.1.1.1.1.1.1.1.1.1.1 subject)
  · simp [subjectPorts, subjects, cart, services]
  · simp [servicePorts, services]

end Unimoc.Settings
