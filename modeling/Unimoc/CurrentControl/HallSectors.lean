import Unimoc.CurrentControl.BoundedWrapping
import Unimoc.Lib.Circle

/-! The sectors of the Hall sensors on the circle: the innovation of a code is the shortest way from
the estimate to the sector of the code, and an edge is on both sides of it. -/
namespace Unimoc.CurrentControl

section Turns

variable {steps k : Nat} {angle : ℝ}

theorem wrapDown_turns {value wrapped : ℝ} (found : wrapDown steps value = some wrapped) :
    ∃ turns : ℤ, wrapped = value + turns * twoPi := by
  induction steps generalizing value with
  | zero => cases found
  | succ steps ih =>
    unfold wrapDown at found
    split_ifs at found
    · obtain ⟨turns, rfl⟩ := ih found
      refine ⟨turns - 1, ?_⟩
      push_cast
      ring
    · cases found
      exact ⟨0, by simp⟩

theorem wrapUp_turns {value wrapped : ℝ} (found : wrapUp steps value = some wrapped) :
    ∃ turns : ℤ, wrapped = value + turns * twoPi := by
  induction steps generalizing value with
  | zero => cases found
  | succ steps ih =>
    unfold wrapUp at found
    split_ifs at found
    · obtain ⟨turns, rfl⟩ := ih found
      refine ⟨turns + 1, ?_⟩
      push_cast
      ring
    · cases found
      exact ⟨0, by simp⟩

/-- The same place on the circle, told by an angle of (-pi, pi]. -/
structure Wrapped (angle wrapped : ℝ) : Prop where
  principal : Principal wrapped
  turned : ∃ turns : ℤ, wrapped = angle + turns * twoPi

theorem wrapAngle_yields (enough : k < steps) (near : |angle| ≤ k * twoPi) :
    Yields (Wrapped angle) (wrapAngle steps angle) := by
  obtain ⟨lower, upper⟩ := abs_le.mp near
  have positive := pi_pos
  have revolution := twoPi_eq
  refine (wrapDown_yields k enough (by linarith)).found.bind fun lowered ⟨down, below, least⟩ => ?_
  have up : -pi < lowered + k * twoPi := by
    rcases least with same | above
    · rw [same]
      linarith
    · linarith [abs_nonneg angle]
  refine (wrapUp_yields k enough up below).found.mono fun wrapped ⟨raised, principal⟩ => ?_
  obtain ⟨fewer, rfl⟩ := wrapDown_turns down
  obtain ⟨more, rfl⟩ := wrapUp_turns raised
  refine ⟨principal, fewer + more, ?_⟩
  push_cast
  ring

end Turns

namespace HallFusion

variable (hall : HallFusion ℝ) (sector : Fin 6)

/-- On the circle in the closed sector that starts after `sector` widths from the offset. -/
def InSector (angle : ℝ) : Prop :=
  ∃ turns : ℤ, hall.offset + sector.val * sectorWidth ≤ angle + turns * twoPi ∧
    angle + turns * twoPi ≤ hall.offset + (sector.val + 1) * sectorWidth

noncomputable def center : ℝ := hall.offset + (sector.val + 0.5) * sectorWidth

variable {hall sector}

theorem inSector_iff {angle : ℝ} : hall.InSector sector angle ↔
    ∃ turns : ℤ, |angle - hall.center sector + turns * twoPi| ≤ sectorWidth / 2 := by
  refine exists_congr fun turns => ?_
  unfold center
  rw [abs_le]
  constructor
  · rintro ⟨after, before⟩
    constructor <;> linarith
  · rintro ⟨after, before⟩
    constructor <;> linarith

theorem inSector_deviation {deviation angle : ℝ} {turns : ℤ}
    (turned : deviation = angle - hall.center sector + turns * twoPi) (change : ℝ) :
    hall.InSector sector (angle + change) ↔
      ∃ turns : ℤ, |deviation + change + turns * twoPi| ≤ sectorWidth / 2 := by
  subst turned
  rw [inSector_iff]
  constructor
  · rintro ⟨more, inside⟩
    refine ⟨more - turns, ?_⟩
    convert inside using 2
    push_cast
    ring
  · rintro ⟨more, inside⟩
    refine ⟨more + turns, ?_⟩
    convert inside using 2
    push_cast
    ring

/-- The angle is where the sector starts. -/
def Starts (hall : HallFusion ℝ) (sector : Fin 6) (angle : ℝ) : Prop :=
  Wrapped (hall.offset + sector.val * sectorWidth) angle

theorem Starts.inside {start : ℝ} (starts : hall.Starts sector start) : hall.InSector sector start := by
  obtain ⟨turns, turned⟩ := starts.turned
  have width := sectorWidth_pos
  refine ⟨-turns, ?_, ?_⟩ <;> rw [turned] <;> push_cast <;> linarith

theorem Starts.before {start : ℝ} {next : Fin 6} (starts : hall.Starts next start)
    (follows : next.val = (sector.val + 1) % 6) : hall.InSector sector start := by
  obtain ⟨turns, turned⟩ := starts.turned
  have width := sectorWidth_pos
  have revolution : twoPi = 6 * (sectorWidth : ℝ) := by
    rw [sectorWidth_eq, twoPi_eq]
    ring
  by_cases last : sector.val = 5
  · have first : next.val = 0 := by omega
    rw [first, revolution] at turned
    refine ⟨1 - turns, ?_, ?_⟩ <;> rw [turned, last, revolution] <;> push_cast <;> linarith
  · have ahead : next.val = sector.val + 1 := by omega
    rw [ahead] at turned
    refine ⟨-turns, ?_, ?_⟩ <;> rw [turned] <;> push_cast <;> linarith

/-- The way from an estimate to the sector: it ends there, there is none from inside, and none is
shorter. -/
structure Nearest (hall : HallFusion ℝ) (sector : Fin 6) (estimate innovation : ℝ) : Prop where
  arrives : hall.InSector sector (estimate + innovation)
  zero_iff : innovation = 0 ↔ hall.InSector sector estimate
  shortest : ∀ change, |change| < |innovation| → ¬hall.InSector sector (estimate + change)

theorem nearest {deviation estimate : ℝ} (wrapped : Wrapped (estimate - hall.center sector) deviation) :
    hall.Nearest sector estimate (Circle.correction (sectorWidth / 2) deviation) := by
  obtain ⟨turns, turned⟩ := wrapped.turned
  have nonneg : 0 ≤ (sectorWidth : ℝ) / 2 := by linarith [sectorWidth_pos]
  have principal : |deviation| ≤ twoPi / 2 := by
    rw [twoPi_eq, mul_div_cancel_left₀ _ two_ne_zero]
    exact wrapped.principal.magnitude
  have inside := inSector_deviation turned
  have here : hall.InSector sector estimate ↔ |deviation| ≤ sectorWidth / 2 := by
    rw [← Circle.inside_iff principal, ← add_zero estimate, inside, add_zero]
  refine ⟨(inside _).mpr ⟨0, ?_⟩, (Circle.correction_zero nonneg).trans here.symm, fun change small reached => ?_⟩
  · rw [Int.cast_zero, zero_mul, add_zero]
    exact Circle.correction_arrives nonneg
  · have outside : sectorWidth / 2 < |deviation| := by
      by_contra within
      rw [(Circle.correction_zero nonneg).mpr (not_lt.mp within), abs_zero] at small
      exact absurd small (not_lt.mpr (abs_nonneg change))
    rw [Circle.correction_magnitude nonneg outside] at small
    obtain ⟨more, close⟩ := (inside change).mp reached
    exact absurd close (not_le.mpr (Circle.beyond principal small more))

section Wraps

variable (hall) (sector) {steps k : Nat} (enough : k < steps)
include enough

theorem sectorStart_starts (near : |hall.offset| + twoPi ≤ k * twoPi) :
    Yields (hall.Starts sector) (hall.sectorStart (wrapAngle steps) sector) := by
  have width := sectorWidth_eq
  have positive := pi_pos
  have revolution := twoPi_eq
  have index : (Scalar.ofUInt64 (UInt64.ofNat sector.val) : ℝ) = (sector.val : ℝ) := by
    show ((UInt64.ofNat sector.val).toNat : ℝ) = sector.val
    rw [UInt64.toNat_ofNat_of_lt' (sector.isLt.trans (by decide))]
  have first : (0 : ℝ) ≤ sector.val := Nat.cast_nonneg _
  have last : (sector.val : ℝ) ≤ 5 := by exact_mod_cast Nat.le_of_lt_succ sector.isLt
  unfold sectorStart
  rw [index, mul_comm]
  refine wrapAngle_yields enough ((abs_add_le _ _).trans ?_)
  rw [abs_of_nonneg (mul_nonneg first sectorWidth_pos.le)]
  nlinarith

theorem sectorInnovation_nearest {estimate : ℝ} (near : |hall.offset| + |estimate| + 2 * twoPi ≤ k * twoPi) :
    Yields (hall.Nearest sector estimate) (hall.sectorInnovation (wrapAngle steps) sector estimate) := by
  have width := sectorWidth_eq
  have positive := pi_pos
  have revolution := twoPi_eq
  have reach : |hall.offset| + twoPi ≤ k * twoPi := by linarith [abs_nonneg estimate]
  unfold sectorInnovation
  refine (hall.sectorStart_starts sector enough reach).bind fun start starts => ?_
  obtain ⟨turns, turned⟩ := starts.turned
  refine (wrapAngle_yields enough ?_).bind fun deviation wrapped => Yields.pure ?_
  · have start_le := starts.principal.magnitude
    have half : 0 ≤ (sectorWidth : ℝ) * 0.5 := mul_nonneg sectorWidth_pos.le (by norm_num)
    have both := abs_sub estimate (start + sectorWidth * 0.5)
    have more := abs_add_le start (sectorWidth * 0.5)
    rw [abs_of_nonneg half] at more
    norm_num at both more ⊢
    linarith [abs_nonneg hall.offset]
  · obtain ⟨more, found⟩ := wrapped.turned
    have around : Wrapped (estimate - hall.center sector) deviation := by
      refine ⟨wrapped.principal, more - turns, ?_⟩
      rw [found, turned]
      unfold center
      push_cast
      norm_num
      ring
    have nearest := nearest around
    unfold Circle.correction at nearest
    convert nearest using 1
    norm_num [Scalar.zero, div_eq_mul_inv]

end Wraps

theorem edgeAngle_boundary (hall : HallFusion ℝ) {previous code : UInt8} {source target : Fin 6}
    (left : HallFusion.sector previous = some source) (entered : HallFusion.sector code = some target)
    (adjacent : Adjacent source target) {steps k : Nat} (enough : k < steps)
    (near : |hall.offset| + twoPi ≤ k * twoPi) :
    Yields (fun edge => ∃ angle, edge = some angle ∧ hall.InSector source angle ∧ hall.InSector target angle)
      (hall.edgeAngle (wrapAngle steps) previous code) := by
  have start (sector : Fin 6) := hall.sectorStart_starts sector enough near
  unfold edgeAngle
  rw [left, entered]
  refine Yields.ite (fun forward => ?_) fun turned => ?_
  · exact (start target).map fun angle starts => ⟨angle, rfl, starts.before forward, starts.inside⟩
  · have backward : source.val = (target.val + 1) % 6 := by
      rcases adjacent with ahead | behind
      · exact absurd (congrArg Fin.val ahead) turned
      · exact congrArg Fin.val behind
    rw [if_pos backward]
    exact (start source).map fun angle starts => ⟨angle, rfl, starts.inside, starts.before backward⟩

/-- Any place on the circle is within so many turns that the wrap reaches it in the end. -/
theorem turns_reach (distance : ℝ) : ∃ k : Nat, distance ≤ k * twoPi := by
  have positive : 0 < (twoPi : ℝ) := by
    rw [twoPi_eq]
    exact mul_pos two_pos pi_pos
  obtain ⟨k, above⟩ := exists_nat_ge (distance / twoPi)
  exact ⟨k, (div_le_iff₀ positive).mp above⟩

/-- On the circle, the innovation is the shortest way into the sector of a code, and the edge between
two adjacent codes is in both of their sectors. -/
theorem sectors_decoded (hall : HallFusion ℝ) :
    (∀ sector estimate, ∃ enough, ∀ steps, enough ≤ steps →
      Yields (hall.Nearest sector estimate) (hall.sectorInnovation (wrapAngle steps) sector estimate)) ∧
    (∀ previous code source target, HallFusion.sector previous = some source →
      HallFusion.sector code = some target → Adjacent source target →
      ∃ enough, ∀ steps, enough ≤ steps →
        Yields
          (fun edge => ∃ angle, edge = some angle ∧ hall.InSector source angle ∧ hall.InSector target angle)
          (hall.edgeAngle (wrapAngle steps) previous code)) := by
  constructor
  · intro sector estimate
    obtain ⟨k, near⟩ := turns_reach (|hall.offset| + |estimate| + 2 * twoPi)
    exact ⟨k + 1, fun steps enough => hall.sectorInnovation_nearest sector enough near⟩
  · intro previous code source target left entered adjacent
    obtain ⟨k, near⟩ := turns_reach (|hall.offset| + twoPi)
    exact ⟨k + 1, fun steps enough => hall.edgeAngle_boundary left entered adjacent enough near⟩

noncomputable def mountedAcross : HallFusion ℝ := ⟨3, 0, 0, true, false, false, 0, 0, 0, 0, 0⟩

theorem sectors_decoded_across :
    (∃ enough, ∀ steps, enough ≤ steps →
      Yields (mountedAcross.Nearest 5 0) (mountedAcross.sectorInnovation (wrapAngle steps) 5 0)) ∧
    ∃ enough, ∀ steps, enough ≤ steps →
      Yields
        (fun edge => ∃ angle, edge = some angle ∧ mountedAcross.InSector 5 angle ∧
          mountedAcross.InSector 0 angle)
        (mountedAcross.edgeAngle (wrapAngle steps) 4 5) :=
  ⟨(sectors_decoded mountedAcross).1 5 0,
    (sectors_decoded mountedAcross).2 4 5 5 0 (by decide) (by decide) (.inl (by decide))⟩

end HallFusion

end Unimoc.CurrentControl
