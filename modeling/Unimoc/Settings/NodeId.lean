import Mathlib.Data.List.Pairwise
import Unimoc.Settings.Accepted

/-! What another node-ID changes for the validation: nothing but the readiness subject. -/
namespace Unimoc.Settings

open Cyphal

namespace NvmSettings

variable (s : NvmSettings) (nodeId : UInt8)

@[simp] theorem nodeId_set : (s.set .nodeId nodeId).natural8 .nodeId = nodeId := by
  show s.set .nodeId nodeId .nodeId = nodeId
  exact set_self ..

theorem nodeId_other {r : Register} (other : r ≠ .nodeId) : s.set .nodeId nodeId r = s r :=
  set_other s _ other

theorem real32_nodeId (r : Register) : (s.set .nodeId nodeId).real32 r = s.real32 r := by
  by_cases same : r = .nodeId
  · rw [same]
    rfl
  · unfold real32
    rw [nodeId_other s nodeId same]

theorem real_nodeId {F : Type} [Arithmetic F] (r : Register) :
    ((s.set .nodeId nodeId).real r : F) = s.real r := by
  unfold real
  rw [real32_nodeId]

theorem natural16_nodeId (r : Register) : (s.set .nodeId nodeId).natural16 r = s.natural16 r := by
  by_cases same : r = .nodeId
  · rw [same]
    rfl
  · unfold natural16
    rw [nodeId_other s nodeId same]

theorem natural8_nodeId {r : Register} (other : r ≠ .nodeId) :
    (s.set .nodeId nodeId).natural8 r = s.natural8 r := by
  unfold natural8
  rw [nodeId_other s nodeId other]

end NvmSettings

open NvmSettings

section Validated

variable {F : Type} [Arithmetic F] {s : NvmSettings} {limits : HardwareCapabilities F} {nodeId : UInt8}

theorem validate_nodeId (accepted : validate s limits = .success) (range : nodeId ≤ 127) :
    validate (s.set .nodeId nodeId) limits =
      if hasPortIdCollision (s.set .nodeId nodeId) then .invalidSettings else .success := by
  unfold validate at accepted ⊢
  simp only [isFinite, isValidEnumValues, isNegative, isPositive, isNotAbove, isRatio, isGain, exceeds,
    real_nodeId, natural16_nodeId, nodeId_set, natural8_nodeId, ne_eq, reduceCtorEq, not_false_eq_true]
    at accepted ⊢
  obtain ⟨basics, accepted⟩ := passed accepted (by decide)
  obtain ⟨ratings, accepted⟩ := passed accepted (by decide)
  obtain ⟨motor, accepted⟩ := passed accepted (by decide)
  obtain ⟨noise, accepted⟩ := passed accepted (by decide)
  obtain ⟨ratios, accepted⟩ := passed accepted (by decide)
  obtain ⟨subjects, accepted⟩ := passed accepted (by decide)
  obtain ⟨cart, accepted⟩ := passed accepted (by decide)
  obtain ⟨bike, accepted⟩ := passed accepted (by decide)
  obtain ⟨services, accepted⟩ := passed accepted (by decide)
  apply (if_neg _).trans
  · rw [if_neg ratings, if_neg motor, if_neg noise, if_neg ratios, if_neg subjects, if_neg cart, if_neg bike,
      if_neg services]
  · simp only [Bool.or_eq_true, decide_eq_true_eq, not_or] at basics ⊢
    exact ⟨⟨basics.1.1, UInt8.not_lt.mpr range⟩, basics.2⟩

end Validated

end Unimoc.Settings
