import Unimoc.CurrentControl.HallSectors
import Unimoc.CurrentControl.Position

/-! The simulated Hall sensors: three signals of half a revolution each, and the age of their last
edge by a grid of sixths of a revolution. -/
namespace Unimoc.Sim

open CurrentControl

/-- Bit 0 of the code is A, bit 1 is B, bit 2 is C. -/
structure HallSignals (F : Type) where
  code : UInt8
  edge : Bool
  edgeAge : F
deriving DecidableEq

structure HallSensor (F : Type) where
  offset : F
  signals : HallSignals F

namespace HallSensor

def halfRevolution : UInt32 := 0x80000000

def sixthRevolution : UInt32 := 0x2AAAAAAB

/-- Rising edges of A, B and C relative to the offset. -/
def risingEdges : List UInt32 := [0, 2 * sixthRevolution, 4 * sixthRevolution]

/-- A sensor is high for the half revolution after its rising edge. -/
def codeOf (position : UInt32) : UInt8 :=
  risingEdges.zipIdx.foldl
    (fun code edge => if position - edge.1 < halfRevolution then code ||| (1 <<< UInt8.ofNat edge.2) else code) 0

section Steps

variable {F : Type} [Arithmetic F]

def position (electricalAngle : RotorAngle) (sensor : HallSensor F) : UInt32 :=
  electricalAngle.raw.toUInt32 - (RotorAngle.fromAngle sensor.offset).raw.toUInt32

def code (electricalAngle : RotorAngle) (sensor : HallSensor F) : UInt8 :=
  codeOf (sensor.position electricalAngle)

def angleInRevolution (angle : RotorAngle) : F := Scalar.ofInt angle.raw.toInt * RotorAngle.radiansPerCount

/-- Since the grid point just behind the angle, within the step. -/
def edgeAge (electricalAngle : RotorAngle) (electricalSpeed timeStep : F) (sensor : HallSensor F) : F :=
  if Scalar.eq electricalSpeed Scalar.zero then Scalar.zero
  else
    let sinceForwardEdge := sensor.position electricalAngle % sixthRevolution
    let distance := if Scalar.zero < electricalSpeed then sinceForwardEdge else sixthRevolution - sinceForwardEdge
    let travel : F := angleInRevolution ⟨distance.toInt32, 0⟩
    let travelMagnitude := if Scalar.zero < electricalSpeed then travel else -travel
    Scalar.clamp (travelMagnitude / electricalSpeed) Scalar.zero timeStep

def reset (electricalAngle : RotorAngle) (sensor : HallSensor F) : HallSensor F :=
  { sensor with signals := ⟨sensor.code electricalAngle, false, Scalar.zero⟩ }

def update (electricalAngle : RotorAngle) (electricalSpeed timeStep : F) (sensor : HallSensor F) :
    HallSensor F :=
  let code := sensor.code electricalAngle
  if code = sensor.signals.code then { sensor with signals := { sensor.signals with edge := false } }
  else { sensor with signals := ⟨code, true, sensor.edgeAge electricalAngle electricalSpeed timeStep⟩ }

end Steps

/-! ### Sectors -/

/-- The first position of each sector. -/
def first : Fin 6 → Nat := ![0, 715827884, 1431655766, 2147483648, 2863311532, 3579139414]

/-- The first position after each sector. -/
def last : Fin 6 → Nat := ![715827884, 1431655766, 2147483648, 2863311532, 3579139414, 4294967296]

/-- The codes of the sectors, as forward rotation steps through them. -/
def sectorCode : Fin 6 → UInt8 := ![5, 1, 3, 2, 6, 4]

theorem high_iff (position edge : UInt32) : position - edge < halfRevolution ↔
    edge.toNat ≤ position.toNat ∧ position.toNat < edge.toNat + 2147483648 ∨
      position.toNat + 2147483648 < edge.toNat := by
  have inside := position.toNat_lt
  have edge_inside := edge.toNat_lt
  have half : halfRevolution.toNat = 2147483648 := by decide
  rw [UInt32.lt_iff_toNat_lt, UInt32.toNat_sub, half]
  omega

theorem exists_sector (position : UInt32) : ∃ sector, first sector ≤ position.toNat ∧ position.toNat < last sector := by
  have inside := position.toNat_lt
  simp [Fin.exists_fin_succ, first, last]
  omega

theorem codeOf_sector {position : UInt32} {sector : Fin 6} (after : first sector ≤ position.toNat)
    (before : position.toNat < last sector) : codeOf position = sectorCode sector := by
  have two : (2 * sixthRevolution).toNat = 1431655766 := by decide
  have four : (4 * sixthRevolution).toNat = 2863311532 := by decide
  simp only [codeOf, risingEdges, List.zipIdx_cons, List.zipIdx_nil, List.foldl_cons, List.foldl_nil, high_iff, two,
    four, UInt32.toNat_zero]
  fin_cases sector <;> simp [first, last] at after before <;> split_ifs <;> first | rfl | omega

theorem sector_sectorCode (sector : Fin 6) : HallFusion.sector (sectorCode sector) = some sector := by
  revert sector
  decide

theorem sectorCode_valid (sector : Fin 6) : sectorCode sector ≠ 0 ∧ sectorCode sector ≠ 7 := by
  revert sector
  decide

theorem code_valid {F : Type} [Arithmetic F] (sensor : HallSensor F) (angle : RotorAngle) :
    sensor.code angle ≠ 0 ∧ sensor.code angle ≠ 7 := by
  obtain ⟨sector, after, before⟩ := exists_sector (sensor.position angle)
  unfold code
  rw [codeOf_sector after before]
  exact sectorCode_valid sector

theorem next_ne (sector : Fin 6) : sector ≠ sector + 1 := by
  revert sector
  decide

section Distances

variable {position : UInt32} {sector : Fin 6} (after : first sector ≤ position.toNat)
  (before : position.toNat < last sector) {travel distance : Nat}
include after before

end Distances

end HallSensor

end Unimoc.Sim
