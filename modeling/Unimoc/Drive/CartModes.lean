import Unimoc.Drive.LimpHome

/-! The modes of the cart control over runs, in exact arithmetic: the ramp of the torque in
limp-home and stopping, the way back to the wheel command, and the end of the engagement. -/
namespace Unimoc.Drive

open CurrentControl Settings

namespace CartControl

/-- The settings of a drive are accepted ones. -/
def Accepts : CartEvent ℝ → Prop
  | .configured s => ∃ limits : HardwareCapabilities Binary32, validate s limits = .success
  | _ => True

noncomputable def carting : Runs.Machine (CartControl ℝ) (CartEvent ℝ) where
  start := initial
  next := handle
  admits _ := Accepts

/-! ### What a run shows -/

def updatedAt : CartEvent ℝ → List (CartEvent ℝ) → Option (Option UInt64)
  | .update nowUs _ _, _ => some (some nowUs)
  | _, _ => none

/-- The time of the latest wheel command, none after a bus loss. -/
def commandAt : CartEvent ℝ → List (CartEvent ℝ) → Option (Option UInt64)
  | .wheelCommand _ nowUs, _ => some (some nowUs)
  | .busLost, _ => some none
  | _, _ => none

/-- The torque put out by the latest update, and whether the wheel was reversed then. -/
noncomputable def shownBy : CartEvent ℝ → List (CartEvent ℝ) → Option (ℝ × Bool)
  | .update nowUs shaftSpeed engaged, past =>
    let cart := carting.replay past
    some ((cart.update nowUs shaftSpeed engaged).1.torque, cart.parameters.reversed)
  | _, _ => none

def lastUpdate (past : List (CartEvent ℝ)) : Option UInt64 := Runs.latest updatedAt none past

def lastCommand (past : List (CartEvent ℝ)) : Option UInt64 := Runs.latest commandAt none past

noncomputable def lastShown (past : List (CartEvent ℝ)) : ℝ × Bool := Runs.latest shownBy (0, false) past

/-- The time since an earlier moment, zero without one. -/
noncomputable def elapsed (since : Option UInt64) (nowUs : UInt64) : ℝ :=
  match since with
  | none => 0
  | some since => microseconds (nowUs - since)

/-- Ramped: neither driven by the wheel command nor off. -/
def CartMode.ramped (mode : CartMode) : Prop := mode = .limpHome ∨ mode = .stopping

/-- What an update of the cart control keeps to, after the events before it. -/
structure KeepsModes (past : List (CartEvent ℝ)) (nowUs : UInt64) (shaftSpeed : ℝ) (engaged : Bool)
    (cart next : CartControl ℝ) (output : CartOutput ℝ) : Prop where
  ramp : CartMode.ramped output.mode →
    |next.torque - cart.torque| ≤ cart.parameters.torqueRamp * elapsed (lastUpdate past) nowUs
  shown : CartMode.ramped output.mode → (lastShown past).2 = cart.parameters.reversed →
    |output.torque - (lastShown past).1| ≤ cart.parameters.torqueRamp * elapsed (lastUpdate past) nowUs
  back : engaged = true → CartMode.ramped cart.mode → output.mode = .vdc →
    (∃ commandUs, lastCommand past = some commandUs ∧
      microseconds (nowUs - commandUs) ≤ cart.parameters.timeout) ∧
      |cart.toCart shaftSpeed| ≤ cart.parameters.standstillSpeed
  fades : output.mode = .stopping → |output.torque| ≤ |(lastShown past).1|
  releases : output.mode = .stopping → (output.holdsEngagement = true ↔ output.torque ≠ 0)
  disengaged : engaged = false → output = ⟨.off, 0, false⟩

def KeepsModes.Of (e : CartEvent ℝ) (past : List (CartEvent ℝ)) : Prop :=
  let cart := carting.replay past
  match e with
  | .update nowUs shaftSpeed engaged =>
    KeepsModes past nowUs shaftSpeed engaged cart (cart.update nowUs shaftSpeed engaged).2
      (cart.update nowUs shaftSpeed engaged).1
  | _ => True

/-! ### One update -/

section Step

variable {cart : CartControl ℝ} {past : List (CartEvent ℝ)} {nowUs : UInt64} {shaftSpeed : ℝ}

/-- The state of the cart control and what the run has shown agree. -/
structure Tracks (cart : CartControl ℝ) (past : List (CartEvent ℝ)) : Prop where
  updated : lastUpdate past = if cart.updated then some cart.lastUpdateUs else none
  command : lastCommand past = if cart.hasCommand then some cart.commandUs else none
  shown : cart.mode ≠ .off →
    (lastShown past).1 = if (lastShown past).2 then -cart.torque else cart.torque
  ramp : 0 ≤ cart.parameters.torqueRamp

theorem Tracks.rampStep (tracks : Tracks cart past) (nowUs : UInt64) :
    cart.rampStep nowUs = cart.parameters.torqueRamp * elapsed (lastUpdate past) nowUs := by
  unfold CartControl.rampStep
  rw [tracks.updated]
  split_ifs
  · rfl
  · rw [Scalar.zero_exact]
    rfl

theorem Tracks.room (tracks : Tracks cart past) (nowUs : UInt64) : 0 ≤ cart.rampStep nowUs := by
  apply mul_nonneg tracks.ramp
  split_ifs
  · exact microseconds_nonneg _
  · exact Scalar.zero_exact.ge

theorem nextTorque_stopping (speed dt : ℝ) :
    cart.nextTorque .stopping speed dt =
      Ramp.follow 0 (cart.parameters.torqueRamp * dt) cart.torque := by
  simp [nextTorque, Scalar.clamp, Ramp.follow, Scalar.zero_exact, Scalar.min_exact, Scalar.max_exact]

theorem update_ramped (ramped : CartMode.ramped (cart.update nowUs shaftSpeed true).1.mode) :
    ∃ target, (cart.update nowUs shaftSpeed true).2.torque =
        Ramp.follow target (cart.rampStep nowUs) cart.torque ∧
      ((cart.update nowUs shaftSpeed true).1.mode = .stopping → target = 0) := by
  simp only [update, Bool.not_true, Bool.false_eq_true, ↓reduceIte] at ramped ⊢
  rcases ramped with limp | stopping
  · rw [limp]
    refine ⟨_, nextTorque_limpHome _ _, fun stopping => ?_⟩
    cases stopping
  · rw [stopping]
    exact ⟨0, nextTorque_stopping _ _, fun _ => rfl⟩

theorem update_shown (engaged : Bool) :
    (cart.update nowUs shaftSpeed engaged).1.torque =
      cart.toCart (cart.update nowUs shaftSpeed engaged).2.torque := by
  cases engaged with
  | false => exact Scalar.zero_exact.trans (toCart_zero.mpr Scalar.zero_exact).symm
  | true => rfl

theorem update_off (off : cart.mode = .off) :
    ¬CartMode.ramped (cart.update nowUs shaftSpeed true).1.mode := by
  simp only [update, Bool.not_true, Bool.false_eq_true, ↓reduceIte, nextMode, off, CartMode.ramped]
  split_ifs <;> simp

theorem nextMode_back {command pedals standstill : Bool} (ramped : CartMode.ramped cart.mode)
    (back : cart.nextMode command pedals standstill = .vdc) : command = true ∧ standstill = true := by
  unfold nextMode at back
  rcases ramped with mode | mode
  · cases command <;> cases standstill <;> cases pedals <;> simp [mode] at back ⊢
  · cases command <;> cases standstill <;> cases pedals <;> simp [mode] at back ⊢

theorem update_back (ramped : CartMode.ramped cart.mode)
    (back : (cart.update nowUs shaftSpeed true).1.mode = .vdc) :
    cart.fresh cart.hasCommand cart.commandUs nowUs = true ∧
      |cart.toCart shaftSpeed| ≤ cart.parameters.standstillSpeed := by
  simp only [update, Bool.not_true, Bool.false_eq_true, ↓reduceIte] at back
  obtain ⟨fresh, still⟩ := nextMode_back ramped back
  refine ⟨fresh, ?_⟩
  rw [← Scalar.abs_exact]
  exact of_decide_eq_true still

theorem toCart_abs (value : ℝ) : |cart.toCart value| = |value| := by
  unfold toCart
  split_ifs
  · exact abs_neg value
  · rfl

theorem Tracks.update (tracks : Tracks cart past) (engaged : Bool) :
    KeepsModes past nowUs shaftSpeed engaged cart (cart.update nowUs shaftSpeed engaged).2
      (cart.update nowUs shaftSpeed engaged).1 := by
  have room := tracks.room nowUs
  have shown := @update_shown cart nowUs shaftSpeed engaged
  cases engaged with
  | false =>
    have unramped : ¬CartMode.ramped (cart.update nowUs shaftSpeed false).1.mode := by
      rintro (limp | stopping)
      · cases limp
      · cases stopping
    refine ⟨fun ramped => absurd ramped unramped, fun ramped => absurd ramped unramped, ?_, ?_, ?_, ?_⟩
    · intro on
      cases on
    · intro stopping
      cases stopping
    · intro stopping
      cases stopping
    · intro _
      show CartOutput.mk CartMode.off Scalar.zero false = _
      rw [Scalar.zero_exact]
  | true =>
    have driven (ramped : CartMode.ramped (cart.update nowUs shaftSpeed true).1.mode) :
        cart.mode ≠ .off := fun off => update_off off ramped
    refine ⟨?_, ?_, ?_, ?_, ?_, fun off => absurd off Bool.true_eq_false.mp⟩
    · intro ramped
      obtain ⟨target, torque, -⟩ := update_ramped ramped
      rw [torque, ← tracks.rampStep]
      exact Ramp.follow_near room
    · intro ramped same
      obtain ⟨target, torque, -⟩ := update_ramped ramped
      have near : |Ramp.follow target (cart.rampStep nowUs) cart.torque - cart.torque| ≤
          cart.rampStep nowUs := Ramp.follow_near room
      rw [tracks.shown (driven ramped), same, shown, torque, ← tracks.rampStep]
      unfold toCart
      split_ifs
      · rw [neg_sub_neg, abs_sub_comm]
        exact near
      · exact near
    · intro _ ramped back
      obtain ⟨fresh, still⟩ := update_back ramped back
      refine ⟨?_, still⟩
      obtain ⟨received, soon⟩ := (Bool.and_eq_true _ _).mp fresh
      exact ⟨cart.commandUs, by rw [tracks.command, if_pos received], of_decide_eq_true soon⟩
    · intro stopping
      have ramped : CartMode.ramped (cart.update nowUs shaftSpeed true).1.mode := .inr stopping
      obtain ⟨target, torque, zero⟩ := update_ramped ramped
      have last : |(lastShown past).1| = |cart.torque| := by
        rw [tracks.shown (driven ramped)]
        split_ifs
        · exact abs_neg _
        · rfl
      rw [last, shown, toCart_abs, torque, zero stopping]
      exact Ramp.follow_zero room
    · intro stopping
      rw [shown, ne_eq, toCart_zero]
      have holds : (cart.update nowUs shaftSpeed true).1.holdsEngagement =
          ((cart.update nowUs shaftSpeed true).1.mode = .limpHome ||
            (cart.update nowUs shaftSpeed true).1.mode = .stopping &&
              !Scalar.eq (cart.update nowUs shaftSpeed true).2.torque Scalar.zero) := rfl
      rw [holds, stopping, Scalar.zero_exact]
      generalize (cart.update nowUs shaftSpeed true).2.torque = torque
      have rest : Scalar.eq torque 0 = true ↔ torque = 0 := by
        rw [Scalar.eq, Bool.and_eq_true, decide_eq_true_eq, decide_eq_true_eq]
        exact le_antisymm_iff.symm
      simp [← rest]

end Step

/-! ### Runs -/

theorem tracks_initial : Tracks initial [] where
  updated := rfl
  command := rfl
  shown := fun driven => absurd rfl driven
  ramp := Scalar.zero_exact.ge

theorem Tracks.handle {past : List (CartEvent ℝ)} (tracks : Tracks (carting.replay past) past)
    {e : CartEvent ℝ} (accepted : Accepts e) : Tracks ((carting.replay past).handle e) (e :: past) := by
  cases e with
  | configured s =>
    obtain ⟨limits, accepted⟩ := accepted
    exact ⟨tracks.updated, tracks.command, tracks.shown, (validate_cart accepted).1.le⟩
  | reset => exact ⟨tracks.updated, tracks.command, fun driven => absurd rfl driven, tracks.ramp⟩
  | wheelCommand torque nowUs => exact ⟨tracks.updated, rfl, tracks.shown, tracks.ramp⟩
  | pedalState pedals nowUs => exact ⟨tracks.updated, tracks.command, tracks.shown, tracks.ramp⟩
  | batteryStatus battery nowUs => exact ⟨tracks.updated, tracks.command, tracks.shown, tracks.ramp⟩
  | busLost => exact ⟨tracks.updated, rfl, tracks.shown, tracks.ramp⟩
  | update nowUs shaftSpeed engaged =>
    have shown := @update_shown (carting.replay past) nowUs shaftSpeed engaged
    refine ⟨?_, ?_, fun _ => ?_, ?_⟩
    · cases engaged <;> rfl
    · cases engaged <;> exact tracks.command
    · exact shown
    · cases engaged <;> exact tracks.ramp

theorem carting_tracks : ∀ trace, carting.Legal trace → Tracks (carting.replay trace) trace :=
  Runs.Machine.invariant Tracks tracks_initial fun _ _ tracks accepted => tracks.handle accepted

/-- In every run the ramped modes keep to the torque ramp, and a cart drive goes back to the
wheel command only with a fresh one and at standstill. -/
theorem cart_modes_kept (trace : List (CartEvent ℝ)) (legal : carting.Legal trace) :
    Runs.Throughout KeepsModes.Of trace := by
  apply Runs.Machine.throughout_under (fun _ _ => True) Tracks KeepsModes.Of
    (fun trace legal _ => carting_tracks trace legal) _ trace legal
    (Runs.Throughout.of_forall fun _ _ => trivial)
  intro e past tracks _ _
  cases e with
  | update nowUs shaftSpeed engaged => exact tracks.update engaged
  | _ => trivial

/-- A cart with the factory settings loses its wheel command. -/
theorem cart_modes_kept_lost :
    Runs.Throughout KeepsModes.Of
      [.update 400000 3 true, .update 0 3 true, .wheelCommand 2 0, .configured .default] := by
  refine cart_modes_kept _ ⟨trivial, trivial, trivial, ?_, trivial⟩
  exact ⟨simCapabilities, by decide +kernel⟩

end CartControl

end Unimoc.Drive
