import Unimoc.CurrentControl.ControlLoop
import Unimoc.CurrentControl.Position
import Unimoc.Lib.Chord
import Unimoc.Units.Exact

/-! Sine and cosine from the table of the firmware: interpolated along the chords of the circle,
then brought back to length one. -/
namespace Unimoc.CurrentControl.PortableSinCosProvider

def sinTableFractionBits : Nat := 23

def sinTableFractionMask : UInt32 := (1 <<< UInt32.ofNat sinTableFractionBits) - 1

def sinTableQuarterSize : Nat := 128

/-! Billionths: a revolution in 512 steps, and a quarter more with the end of its last step. -/

def firstQuarter : List Int :=
  [0, 12271538, 24541229, 36807223, 49067674, 61320736, 73564564, 85797312, 98017140, 110222207, 122410675,
   134580709, 146730474, 158858143, 170961889, 183039888, 195090322, 207111376, 219101240, 231058108,
   242980180, 254865660, 266712757, 278519689, 290284677, 302005949, 313681740, 325310292, 336889853,
   348418680, 359895037, 371317194, 382683432, 393992040, 405241314, 416429560, 427555093, 438616239,
   449611330, 460538711, 471396737, 482183772, 492898192, 503538384, 514102744, 524589683, 534997620,
   545324988, 555570233, 565731811, 575808191, 585797857, 595699304, 605511041, 615231591, 624859488,
   634393284, 643831543, 653172843, 662415778, 671558955, 680600998, 689540545, 698376249, 707106781,
   715730825, 724247083, 732654272, 740951125, 749136395, 757208847, 765167266, 773010453, 780737229,
   788346428, 795836905, 803207531, 810457198, 817584813, 824589303, 831469612, 838224706, 844853565,
   851355193, 857728610, 863972856, 870086991, 876070094, 881921264, 887639620, 893224301, 898674466,
   903989293, 909167983, 914209756, 919113852, 923879533, 928506080, 932992799, 937339012, 941544065,
   945607325, 949528181, 953306040, 956940336, 960430519, 963776066, 966976471, 970031253, 972939952,
   975702130, 978317371, 980785280, 983105487, 985277642, 987301418, 989176510, 990902635, 992479535,
   993906970, 995184727, 996312612, 997290457, 998118113, 998795456, 999322385, 999698819, 999924702]

def secondQuarter : List Int :=
  [1000000000, 999924702, 999698819, 999322385, 998795456, 998118113, 997290457, 996312612, 995184727,
   993906970, 992479535, 990902635, 989176510, 987301418, 985277642, 983105487, 980785280, 978317371,
   975702130, 972939952, 970031253, 966976471, 963776066, 960430519, 956940336, 953306040, 949528181,
   945607325, 941544065, 937339012, 932992799, 928506080, 923879533, 919113852, 914209756, 909167983,
   903989293, 898674466, 893224301, 887639620, 881921264, 876070094, 870086991, 863972856, 857728610,
   851355193, 844853565, 838224706, 831469612, 824589303, 817584813, 810457198, 803207531, 795836905,
   788346428, 780737229, 773010453, 765167266, 757208847, 749136395, 740951125, 732654272, 724247083,
   715730825, 707106781, 698376249, 689540545, 680600998, 671558955, 662415778, 653172843, 643831543,
   634393284, 624859488, 615231591, 605511041, 595699304, 585797857, 575808191, 565731811, 555570233,
   545324988, 534997620, 524589683, 514102744, 503538384, 492898192, 482183772, 471396737, 460538711,
   449611330, 438616239, 427555093, 416429560, 405241314, 393992040, 382683432, 371317194, 359895037,
   348418680, 336889853, 325310292, 313681740, 302005949, 290284677, 278519689, 266712757, 254865660,
   242980180, 231058108, 219101240, 207111376, 195090322, 183039888, 170961889, 158858143, 146730474,
   134580709, 122410675, 110222207, 98017140, 85797312, 73564564, 61320736, 49067674, 36807223, 24541229,
   12271538]

def thirdQuarter : List Int :=
  [0, -12271538, -24541229, -36807223, -49067674, -61320736, -73564564, -85797312, -98017140, -110222207,
   -122410675, -134580709, -146730474, -158858143, -170961889, -183039888, -195090322, -207111376, -219101240,
   -231058108, -242980180, -254865660, -266712757, -278519689, -290284677, -302005949, -313681740, -325310292,
   -336889853, -348418680, -359895037, -371317194, -382683432, -393992040, -405241314, -416429560, -427555093,
   -438616239, -449611330, -460538711, -471396737, -482183772, -492898192, -503538384, -514102744, -524589683,
   -534997620, -545324988, -555570233, -565731811, -575808191, -585797857, -595699304, -605511041, -615231591,
   -624859488, -634393284, -643831543, -653172843, -662415778, -671558955, -680600998, -689540545, -698376249,
   -707106781, -715730825, -724247083, -732654272, -740951125, -749136395, -757208847, -765167266, -773010453,
   -780737229, -788346428, -795836905, -803207531, -810457198, -817584813, -824589303, -831469612, -838224706,
   -844853565, -851355193, -857728610, -863972856, -870086991, -876070094, -881921264, -887639620, -893224301,
   -898674466, -903989293, -909167983, -914209756, -919113852, -923879533, -928506080, -932992799, -937339012,
   -941544065, -945607325, -949528181, -953306040, -956940336, -960430519, -963776066, -966976471, -970031253,
   -972939952, -975702130, -978317371, -980785280, -983105487, -985277642, -987301418, -989176510, -990902635,
   -992479535, -993906970, -995184727, -996312612, -997290457, -998118113, -998795456, -999322385, -999698819,
   -999924702]

def fourthQuarter : List Int :=
  [-1000000000, -999924702, -999698819, -999322385, -998795456, -998118113, -997290457, -996312612,
   -995184727, -993906970, -992479535, -990902635, -989176510, -987301418, -985277642, -983105487, -980785280,
   -978317371, -975702130, -972939952, -970031253, -966976471, -963776066, -960430519, -956940336, -953306040,
   -949528181, -945607325, -941544065, -937339012, -932992799, -928506080, -923879533, -919113852, -914209756,
   -909167983, -903989293, -898674466, -893224301, -887639620, -881921264, -876070094, -870086991, -863972856,
   -857728610, -851355193, -844853565, -838224706, -831469612, -824589303, -817584813, -810457198, -803207531,
   -795836905, -788346428, -780737229, -773010453, -765167266, -757208847, -749136395, -740951125, -732654272,
   -724247083, -715730825, -707106781, -698376249, -689540545, -680600998, -671558955, -662415778, -653172843,
   -643831543, -634393284, -624859488, -615231591, -605511041, -595699304, -585797857, -575808191, -565731811,
   -555570233, -545324988, -534997620, -524589683, -514102744, -503538384, -492898192, -482183772, -471396737,
   -460538711, -449611330, -438616239, -427555093, -416429560, -405241314, -393992040, -382683432, -371317194,
   -359895037, -348418680, -336889853, -325310292, -313681740, -302005949, -290284677, -278519689, -266712757,
   -254865660, -242980180, -231058108, -219101240, -207111376, -195090322, -183039888, -170961889, -158858143,
   -146730474, -134580709, -122410675, -110222207, -98017140, -85797312, -73564564, -61320736, -49067674,
   -36807223, -24541229, -12271538]

def lastQuarter : List Int :=
  [0, 12271538, 24541229, 36807223, 49067674, 61320736, 73564564, 85797312, 98017140, 110222207, 122410675,
   134580709, 146730474, 158858143, 170961889, 183039888, 195090322, 207111376, 219101240, 231058108,
   242980180, 254865660, 266712757, 278519689, 290284677, 302005949, 313681740, 325310292, 336889853,
   348418680, 359895037, 371317194, 382683432, 393992040, 405241314, 416429560, 427555093, 438616239,
   449611330, 460538711, 471396737, 482183772, 492898192, 503538384, 514102744, 524589683, 534997620,
   545324988, 555570233, 565731811, 575808191, 585797857, 595699304, 605511041, 615231591, 624859488,
   634393284, 643831543, 653172843, 662415778, 671558955, 680600998, 689540545, 698376249, 707106781,
   715730825, 724247083, 732654272, 740951125, 749136395, 757208847, 765167266, 773010453, 780737229,
   788346428, 795836905, 803207531, 810457198, 817584813, 824589303, 831469612, 838224706, 844853565,
   851355193, 857728610, 863972856, 870086991, 876070094, 881921264, 887639620, 893224301, 898674466,
   903989293, 909167983, 914209756, 919113852, 923879533, 928506080, 932992799, 937339012, 941544065,
   945607325, 949528181, 953306040, 956940336, 960430519, 963776066, 966976471, 970031253, 972939952,
   975702130, 978317371, 980785280, 983105487, 985277642, 987301418, 989176510, 990902635, 992479535,
   993906970, 995184727, 996312612, 997290457, 998118113, 998795456, 999322385, 999698819, 999924702,
   1000000000]

def sinTable : List Int := firstQuarter ++ secondQuarter ++ thirdQuarter ++ fourthQuarter ++ lastQuarter

section Lookup

variable {F : Type} [Arithmetic F]

/-- A literal with nine decimals. -/
def literal (billionths : Int) : F :=
  if billionths < 0 then -OfScientific.ofScientific billionths.natAbs true 9
  else OfScientific.ofScientific billionths.natAbs true 9

def entry (place : Nat) : F := literal (sinTable.getD place 0)

def sinTableFractionScale : F := 1.0 / Scalar.ofUInt64 (UInt64.ofNat (2 ^ sinTableFractionBits))

def linearInterpolate (start stop factor : F) : F := start + factor * (stop - start)

/-- A revolution has `2 ^ 32` counts. -/
def calculate (raw : Int32) : SinCos F :=
  let phase := raw.toUInt32
  let index := (phase >>> UInt32.ofNat sinTableFractionBits).toNat
  let factor : F := Scalar.ofUInt64 (phase &&& sinTableFractionMask).toUInt64 * sinTableFractionScale
  let sin : F := linearInterpolate (entry index) (entry (index + 1)) factor
  let cos : F :=
    linearInterpolate (entry (index + sinTableQuarterSize)) (entry (index + sinTableQuarterSize + 1)) factor
  let normalization := (1.5 : F) - (0.5 : F) * (sin * sin + cos * cos)
  ⟨sin * normalization, cos * normalization⟩

/-- Whole revolutions are dropped. -/
def calculateAngle (angle : F) : SinCos F :=
  let revolutions := angle * RotorAngle.revolutionsPerRadian
  let carry := Scalar.toInt revolutions
  let fraction := revolutions - Scalar.ofInt carry
  let counts := RotorAngle.roundToInt64 (fraction * (4294967296.0 : F))
  let counts :=
    if RotorAngle.countsPerHalfRevolution ≤ counts then counts - RotorAngle.countsPerRevolution
    else if counts < -RotorAngle.countsPerHalfRevolution then counts + RotorAngle.countsPerRevolution
    else counts
  calculate (Int32.ofInt counts)

end Lookup

/-! ### The table -/

/-- The powers of this point, in units of `10 ^ -18`, run through the places of the table. -/
def step : Rotation.Point := ⟨999924701839144541, 12271538285719926⟩

noncomputable def place (index : Nat) : ℝ := index * (2.0 * Real.pi / 512.0)

theorem place_eq (index : Nat) : place index = index * (2 * Real.pi / 512) := by norm_num [place]

theorem step_near : Rotation.Near (10 ^ 18) (1 / 5) step (2 * Real.pi / 512) := by
  let close : ℝ := 157079632679489661923 / 12800000000000000000000
  have small : |close| ≤ 1 := by norm_num [close, abs_le]
  have numbers : ‖step.value - ((10 ^ 18 : ℕ) : ℂ) * Rotation.series close‖ ≤ 18 / 100 := by
    refine (Rotation.sub_series step (10 ^ 18) close).trans ?_
    have first : |(step.cos : ℝ) - ((10 ^ 18 : ℕ) : ℝ) * (1 - close ^ 2 / 2 + close ^ 4 / 24 - close ^ 6 / 720)| ≤
        1 / 10 := by
      norm_num [step, close, abs_le]
    have second : |(step.sin : ℝ) - ((10 ^ 18 : ℕ) : ℝ) *
        (close - close ^ 3 / 6 + close ^ 5 / 120 - close ^ 7 / 5040)| ≤ 8 / 100 := by
      norm_num [step, close, abs_le]
    linarith
  have apart : |close - 2 * Real.pi / 512| ≤ 1 / 10 ^ 21 := by
    have low := Real.pi_gt_d20
    have high := Real.pi_lt_d20
    exact abs_le.mpr ⟨by norm_num [close] at *; linarith, by norm_num [close] at *; linarith⟩
  refine (Rotation.near_series small numbers apart).trans ?_
  norm_num [close, abs_of_pos]

/-- What is checked along the powers holds of each entry and a point that is close to its place. -/
theorem walked {good : Rotation.Point → Int → Bool}
    (checked : Rotation.walk (10 ^ 18) step good ⟨10 ^ 18, 0⟩ sinTable = true) {index : Nat} (inside : index ≤ 640) :
    ∃ point : Rotation.Point, |(point.sin : ℝ) / 10 ^ 18 - Real.sin (place index)| ≤ 3 / 10 ^ 15 ∧
      good point (sinTable.getD index 0) = true := by
  have length : sinTable.length = 641 := by decide +kernel
  have start : Rotation.Near (10 ^ 18) 0 ⟨10 ^ 18, 0⟩ 0 := by
    simp [Rotation.Near, Rotation.Point.value, Rotation.unit_zero, Complex.ext_iff]
  have found : sinTable[index]? = some (sinTable.getD index 0) := by
    rw [List.getD_eq_getElem?_getD, List.getElem?_eq_getElem (by omega), Option.getD_some]
  obtain ⟨point, near, fits⟩ := Rotation.walk_sound (by norm_num) step_near sinTable start
    (by rw [length]; norm_num) checked index _ found
  have angle : (0 : ℝ) + index * (2 * Real.pi / 512) = place index := by rw [zero_add, place_eq]
  have few : (index : ℝ) ≤ 640 := by exact_mod_cast inside
  have sine := near.sin
  rw [angle] at sine
  obtain ⟨low, high⟩ := abs_le.mp sine
  push_cast at low high
  exact ⟨point, abs_le.mpr ⟨by linarith, by linarith⟩, fits⟩

/-- Off by no more than half of the last decimal, and what the powers are off. -/
def close (point : Rotation.Point) (billionths : Int) : Bool :=
  decide (|billionths * 10 ^ 9 - point.sin| ≤ 500010000)

theorem table_walk : Rotation.walk (10 ^ 18) step close ⟨10 ^ 18, 0⟩ sinTable = true := by
  decide +kernel

theorem table_sin {index : Nat} (inside : index ≤ 640) :
    |(sinTable.getD index 0 : ℝ) / 10 ^ 9 - Real.sin (place index)| ≤ 501 / 10 ^ 12 := by
  obtain ⟨point, near, fits⟩ := walked table_walk inside
  have whole : |((sinTable.getD index 0 : ℤ) : ℝ) * 10 ^ 9 - point.sin| ≤ 500010000 := by
    exact_mod_cast of_decide_eq_true fits
  obtain ⟨a, b⟩ := abs_le.mp near
  obtain ⟨c, d⟩ := abs_le.mp whole
  exact abs_le.mpr ⟨by linarith, by linarith⟩

theorem place_quarter (index : Nat) : place (index + sinTableQuarterSize) = place index + Real.pi / 2 := by
  rw [place_eq, place_eq, sinTableQuarterSize]
  push_cast
  ring

theorem literal_exact (billionths : Int) : (literal billionths : ℝ) = billionths / 10 ^ 9 := by
  have decimal (n : Nat) : (OfScientific.ofScientific n true 9 : ℝ) = n / 10 ^ 9 := by
    have rational : (OfScientific.ofScientific n true 9 : ℚ≥0) = n / 10 ^ 9 := by
      rw [← NNRat.coe_inj]
      push_cast
      show Rat.ofScientific n true 9 = _
      rw [Rat.ofScientific_true_def, Rat.mkRat_eq_div]
      push_cast
      rfl
    rw [← NNRat.cast_ofScientific, rational]
    push_cast
    rfl
  unfold literal
  split
  · rename_i negative
    show -(OfScientific.ofScientific billionths.natAbs true 9 : ℝ) = _
    rw [decimal, Nat.cast_natAbs, abs_of_neg negative]
    push_cast
    ring
  · rename_i positive
    show (OfScientific.ofScientific billionths.natAbs true 9 : ℝ) = _
    rw [decimal, Nat.cast_natAbs, abs_of_nonneg (not_lt.mp positive)]

/-- Cosine and sine of the table at a place. -/
noncomputable def tablePoint (index : Nat) : ℂ := ⟨entry (index + sinTableQuarterSize), entry index⟩

theorem tablePoint_near {index : Nat} (inside : index ≤ 512) :
    ‖tablePoint index - Rotation.unit (place index)‖ ≤ 1002 / 10 ^ 12 := by
  have sin := @table_sin index (by omega)
  have cos := @table_sin (index + sinTableQuarterSize) (by unfold sinTableQuarterSize; omega)
  rw [place_quarter, Real.sin_add_pi_div_two] at cos
  refine (Complex.norm_le_abs_re_add_abs_im _).trans ?_
  rw [Complex.sub_re, Complex.sub_im, Rotation.unit_re, Rotation.unit_im]
  have sine : (tablePoint index).im = (sinTable.getD index 0 : ℝ) / 10 ^ 9 := literal_exact _
  have cosine : (tablePoint index).re = (sinTable.getD (index + sinTableQuarterSize) 0 : ℝ) / 10 ^ 9 :=
    literal_exact _
  rw [sine, cosine]
  linarith

/-! ### The pair -/

def point (pair : SinCos ℝ) : ℂ := ⟨pair.cos, pair.sin⟩

def index (raw : Int32) : Nat := raw.toUInt32.toNat / 2 ^ 23

noncomputable def fraction (raw : Int32) : ℝ := (raw.toUInt32.toNat % 2 ^ 23 : Nat) / (2 ^ 23 : Nat)

theorem fraction_eq (raw : Int32) : fraction raw = (raw.toUInt32.toNat % 2 ^ 23 : Nat) / 2 ^ 23 := by norm_num [fraction]

theorem index_lt (raw : Int32) : index raw < 512 := by
  have inside := raw.toUInt32.toNat_lt
  unfold index
  omega

theorem fraction_inside (raw : Int32) : 0 ≤ fraction raw ∧ fraction raw ≤ 1 := by
  rw [fraction_eq]
  have below : raw.toUInt32.toNat % 2 ^ 23 ≤ 2 ^ 23 := (Nat.mod_lt _ (by norm_num)).le
  have real : ((raw.toUInt32.toNat % 2 ^ 23 : Nat) : ℝ) ≤ 2 ^ 23 := by exact_mod_cast below
  exact ⟨by positivity, by rw [div_le_one (by norm_num)]; exact real⟩

theorem index_shift (raw : Int32) :
    (raw.toUInt32 >>> UInt32.ofNat sinTableFractionBits).toNat = index raw := by
  have amount : (UInt32.ofNat sinTableFractionBits).toNat % 32 = 23 := by decide
  rw [UInt32.toNat_shiftRight, amount, Nat.shiftRight_eq_div_pow, index]

theorem fraction_mask (raw : Int32) :
    (raw.toUInt32 &&& sinTableFractionMask).toNat = raw.toUInt32.toNat % 2 ^ 23 := by
  have mask : sinTableFractionMask.toNat = 2 ^ 23 - 1 := by decide
  rw [UInt32.toNat_and, mask, Nat.and_two_pow_sub_one_eq_mod]

theorem calculate_exact (raw : Int32) : point (calculate raw) =
    Rotation.corrected (Rotation.chord (tablePoint (index raw)) (tablePoint (index raw + 1)) (fraction raw)) := by
  have factor : Scalar.ofUInt64 (raw.toUInt32 &&& sinTableFractionMask).toUInt64 * sinTableFractionScale =
      fraction raw := by
    have count : (Scalar.ofUInt64 (raw.toUInt32 &&& sinTableFractionMask).toUInt64 : ℝ) =
        (raw.toUInt32.toNat % 2 ^ 23 : Nat) := by
      show (((raw.toUInt32 &&& sinTableFractionMask).toUInt64.toNat : Nat) : ℝ) = _
      rw [UInt32.toNat_toUInt64, fraction_mask]
    have scale : (sinTableFractionScale : ℝ) = 1 / 2 ^ 23 := by
      show (1.0 : ℝ) / ((UInt64.ofNat (2 ^ sinTableFractionBits)).toNat : ℝ) = _
      have size : (UInt64.ofNat (2 ^ sinTableFractionBits)).toNat = 2 ^ 23 := by decide
      rw [size]
      norm_num
    rw [count, scale, fraction_eq, mul_one_div]
  let sin : ℝ := entry (index raw) + fraction raw * (entry (index raw + 1) - entry (index raw))
  let cos : ℝ := entry (index raw + sinTableQuarterSize) +
    fraction raw * (entry (index raw + sinTableQuarterSize + 1) - entry (index raw + sinTableQuarterSize))
  have line : Rotation.chord (tablePoint (index raw)) (tablePoint (index raw + 1)) (fraction raw) = ⟨cos, sin⟩ := by
    apply Complex.ext
    · simp only [Rotation.chord, tablePoint, Complex.add_re, Complex.re_ofReal_mul, Complex.sub_re, cos]
      rw [Nat.add_right_comm]
    · simp only [Rotation.chord, tablePoint, Complex.add_im, Complex.im_ofReal_mul, Complex.sub_im, sin]
  have result : calculate raw =
      (⟨sin * ((1.5 : ℝ) - (0.5 : ℝ) * (sin * sin + cos * cos)),
        cos * ((1.5 : ℝ) - (0.5 : ℝ) * (sin * sin + cos * cos))⟩ : SinCos ℝ) := by
    unfold calculate
    simp only [index_shift, factor]
    rfl
  have normalization : (1.5 : ℝ) - (0.5 : ℝ) * (sin * sin + cos * cos) = 3 / 2 - ‖(⟨cos, sin⟩ : ℂ)‖ ^ 2 / 2 := by
    rw [Rotation.norm_sq]
    norm_num
    ring
  rw [line, result, normalization]
  apply Complex.ext
  · rw [Rotation.corrected_eq, Complex.re_ofReal_mul]
    exact mul_comm _ _
  · rw [Rotation.corrected_eq, Complex.im_ofReal_mul]
    exact mul_comm _ _

/-- The phase as a place of the table and a part of a step. -/
theorem turned (raw : Int32) :
    Rotation.unit (2 * Real.pi * raw.toInt / 2 ^ 32) =
      Rotation.unit (place (index raw) + fraction raw * (2 * Real.pi / 512)) := by
  have parts : (raw.toUInt32.toNat : ℝ) = 2 ^ 23 * index raw + 2 ^ 23 * fraction raw := by
    have division := Nat.div_add_mod raw.toUInt32.toNat (2 ^ 23)
    have real : (2 ^ 23 * (raw.toUInt32.toNat / 2 ^ 23 : Nat) + (raw.toUInt32.toNat % 2 ^ 23 : Nat) : ℝ) =
        raw.toUInt32.toNat := by exact_mod_cast division
    rw [index, fraction_eq]
    rw [mul_div_cancel₀ _ (by norm_num)]
    exact real.symm
  have turns : raw.toInt = raw.toUInt32.toNat ∨ raw.toInt = (raw.toUInt32.toNat : ℤ) - 2 ^ 32 := by
    have signed : raw.toInt = if 2 * raw.toUInt32.toNat < 2 ^ 32 then (raw.toUInt32.toNat : ℤ)
        else (raw.toUInt32.toNat : ℤ) - 2 ^ 32 := BitVec.toInt_eq_toNat_cond raw.toBitVec
    rw [signed]
    split
    · exact .inl rfl
    · exact .inr rfl
  have same : place (index raw) + fraction raw * (2 * Real.pi / 512) =
      2 * Real.pi * raw.toUInt32.toNat / 2 ^ 32 := by
    rw [parts, place_eq]
    ring
  rw [same]
  rcases turns with positive | negative
  · rw [positive, Int.cast_natCast]
  · have back : 2 * Real.pi * (raw.toInt : ℝ) / 2 ^ 32 = 2 * Real.pi * raw.toUInt32.toNat / 2 ^ 32 + -(2 * Real.pi) := by
      rw [negative]
      push_cast
      ring
    have whole : Rotation.unit (-(2 * Real.pi)) = 1 := by
      apply Complex.ext
      · simp [Rotation.unit_re]
      · simp [Rotation.unit_im]
    rw [back, Rotation.unit_add, whole, mul_one]

theorem width_bounds : 0 ≤ 2 * Real.pi / 512 / 2 ∧ 2 * Real.pi / 512 / 2 ≤ 61360 / 10 ^ 7 := by
  have high := Real.pi_lt_d20
  constructor
  · positivity
  · norm_num at high ⊢
    linarith

theorem tablePoint_next {index : Nat} (inside : index < 512) :
    ‖tablePoint (index + 1) - Rotation.unit (place index + 2 * Real.pi / 512)‖ ≤ 1002 / 10 ^ 12 := by
  have near := @tablePoint_near (index + 1) (by omega)
  have next : place (index + 1) = place index + 2 * Real.pi / 512 := by
    rw [place_eq, place_eq]
    push_cast
    ring
  rwa [next] at near

theorem chord_near (raw : Int32) :
    ‖Rotation.chord (tablePoint (index raw)) (tablePoint (index raw + 1)) (fraction raw) -
      Rotation.chord (Rotation.unit (place (index raw))) (Rotation.unit (place (index raw) + 2 * Real.pi / 512))
        (fraction raw)‖ ≤ 1002 / 10 ^ 12 := by
  obtain ⟨nonneg, part⟩ := fraction_inside raw
  exact Rotation.chord_sub nonneg part (tablePoint_near (index_lt raw).le) (tablePoint_next (index_lt raw))

theorem calculate_near (raw : Int32) :
    ‖point (calculate raw) - Rotation.unit (2 * Real.pi * raw.toInt / 2 ^ 32)‖ ≤ 33 / 10 ^ 9 := by
  obtain ⟨nonneg, part⟩ := fraction_inside raw
  obtain ⟨least, most⟩ := width_bounds
  have bound := Rotation.corrected_near nonneg part (chord_near raw) (by linarith) (by linarith) (by norm_num)
  have cube := pow_le_pow_left₀ least most 3
  have fourth := pow_le_pow_left₀ least most 4
  have square := pow_le_pow_left₀ least most 2
  rw [calculate_exact, turned]
  refine bound.trans ?_
  norm_num at cube fourth square ⊢
  linarith

/-- The pair is never longer than one. -/
theorem calculate_length (raw : Int32) :
    1 - 5 / 10 ^ 9 ≤ (calculate raw : SinCos ℝ).cos ^ 2 + (calculate raw : SinCos ℝ).sin ^ 2 ∧
    (calculate raw : SinCos ℝ).cos ^ 2 + (calculate raw : SinCos ℝ).sin ^ 2 ≤ 1 := by
  obtain ⟨nonneg, part⟩ := fraction_inside raw
  obtain ⟨least, most⟩ := width_bounds
  have square := pow_le_pow_left₀ least most 2
  norm_num at square
  obtain ⟨long, short⟩ := Rotation.norm_corrected_near nonneg part (chord_near raw) (by norm_num; linarith)
  rw [← calculate_exact] at long short
  have off : ((2 * Real.pi / 512 / 2) ^ 2 + 1002 / 10 ^ 12) ^ 2 ≤ (3766 / 10 ^ 8) ^ 2 :=
    pow_le_pow_left₀ (by positivity) (by norm_num; linarith) 2
  have low : 1 - 25 / 10 ^ 10 ≤ ‖point (calculate raw)‖ := by
    norm_num at off long ⊢
    linarith
  have length : ‖point (calculate raw)‖ ^ 2 = (calculate raw : SinCos ℝ).cos ^ 2 + (calculate raw : SinCos ℝ).sin ^ 2 :=
    Rotation.norm_sq _ _
  rw [← length]
  constructor
  · have squares := pow_le_pow_left₀ (by norm_num) low 2
    norm_num at squares ⊢
    linarith
  · exact pow_le_one₀ (norm_nonneg _) short

/-! ### Angles -/

theorem toInt_floor {value : ℝ} (nonneg : 0 ≤ value) (below : value < 2 ^ 64) :
    (Scalar.toInt value : ℝ) ≤ value ∧ value < Scalar.toInt value + 1 := by
  have whole : (Scalar.toUInt64 value).toNat = ⌊value⌋₊ := by
    refine UInt64.toNat_ofNat_of_lt' ?_
    exact (Nat.floor_lt nonneg).mpr (by exact_mod_cast below)
  unfold Scalar.toInt
  rw [Scalar.zero_exact, if_neg (not_lt.mpr nonneg), Int.cast_natCast, whole]
  exact ⟨Nat.floor_le nonneg, Nat.lt_floor_add_one value⟩

theorem toInt_neg {value : ℝ} (positive : 0 < value) : Scalar.toInt (-value) = -Scalar.toInt value := by
  unfold Scalar.toInt
  rw [Scalar.zero_exact, if_pos (neg_neg_of_pos positive), if_neg (not_lt.mpr positive.le)]
  show -((Scalar.toUInt64 (- -value)).toNat : ℤ) = _
  rw [neg_neg]

theorem toInt_near {value : ℝ} (below : |value| < 2 ^ 64) : |value - Scalar.toInt value| ≤ 1 := by
  rcases le_or_gt 0 value with nonneg | negative
  · rw [abs_of_nonneg nonneg] at below
    obtain ⟨low, high⟩ := toInt_floor nonneg below
    exact abs_le.mpr ⟨by linarith, by linarith⟩
  · rw [abs_of_neg negative] at below
    obtain ⟨low, high⟩ := toInt_floor (neg_nonneg.mpr negative.le) below
    have mirrored := toInt_neg (neg_pos.mpr negative)
    rw [neg_neg] at mirrored
    rw [mirrored]
    push_cast
    exact abs_le.mpr ⟨by linarith, by linarith⟩

theorem roundToInt64_near {value : ℝ} (below : |value| ≤ 2 ^ 32) : |value - RotorAngle.roundToInt64 value| ≤ 1 / 2 := by
  have half : (0.5 : ℝ) = 1 / 2 := by norm_num
  obtain ⟨least, most⟩ := abs_le.mp below
  unfold RotorAngle.roundToInt64
  rw [Scalar.zero_exact]
  split
  · rename_i nonneg
    show |value - Scalar.toInt (value + (0.5 : ℝ))| ≤ _
    rw [half]
    obtain ⟨low, high⟩ := @toInt_floor (value + 1 / 2) (by linarith) (by linarith)
    exact abs_le.mpr ⟨by linarith, by linarith⟩
  · rename_i negative
    show |value - Scalar.toInt (value - (0.5 : ℝ))| ≤ _
    have positive := not_le.mp negative
    obtain ⟨low, high⟩ := @toInt_floor (-value + 1 / 2) (by linarith) (by linarith)
    have mirrored := @toInt_neg (-value + 1 / 2) (by linarith)
    have same : value - 1 / 2 = -(-value + 1 / 2) := by ring
    rw [half, same, mirrored]
    push_cast
    exact abs_le.mpr ⟨by linarith, by linarith⟩

/-- The constant of the source for π. -/
noncomputable def pi : ℝ := 3.141592653589793115997963468544185161590576171875

theorem revolutionsPerRadian_exact : (RotorAngle.revolutionsPerRadian : ℝ) = 1 / (2 * pi) := by
  show (1.0 : ℝ) / ((2.0 : ℝ) * (3.141592653589793115997963468544185161590576171875 : ℝ)) = _
  norm_num [pi]

theorem pi_close : |Real.pi / pi - 1| ≤ 4 / 10 ^ 17 := by
  have low := Real.pi_gt_d20
  have high := Real.pi_lt_d20
  have positive : (0 : ℝ) < pi := by norm_num [pi]
  have apart : |Real.pi - pi| ≤ 12248 / 10 ^ 20 := by
    unfold pi
    norm_num at low high ⊢
    exact abs_le.mpr ⟨by linarith, by linarith⟩
  rw [div_sub_one positive.ne', abs_div, abs_of_pos positive, div_le_iff₀ positive]
  refine apart.trans ?_
  norm_num [pi]

theorem ofInt_exact {n : Int} (small : n.natAbs < 2 ^ 64) : (Scalar.ofInt n : ℝ) = n := by
  have magnitude : (Scalar.ofUInt64 (UInt64.ofNat n.natAbs) : ℝ) = n.natAbs := by
    show (((UInt64.ofNat n.natAbs).toNat : Nat) : ℝ) = _
    rw [UInt64.toNat_ofNat_of_lt' small]
  unfold Scalar.ofInt
  rw [magnitude, Nat.cast_natAbs]
  split
  · rename_i negative
    show -((|n| : ℤ) : ℝ) = n
    rw [abs_of_neg negative]
    push_cast
    ring
  · rename_i positive
    rw [abs_of_nonneg (not_lt.mp positive)]

theorem toInt_small (value : ℝ) : (Scalar.toInt value).natAbs < 2 ^ 64 := by
  have inside (x : UInt64) : x.toNat < 2 ^ 64 := x.toNat_lt
  unfold Scalar.toInt
  split
  · rw [Int.natAbs_neg, Int.natAbs_natCast]
    exact inside _
  · rw [Int.natAbs_natCast]
    exact inside _

/-- The counts of an angle are the nearest ones, but for whole revolutions and what the constant is off. -/
theorem counts_near {angle : ℝ} (range : |angle| < 2 ^ 65) :
    ∃ raw : Int32, calculateAngle angle = (calculate raw : SinCos ℝ) ∧
      ∃ turns : ℤ, |2 * Real.pi * raw.toInt / 2 ^ 32 - (angle + turns * (2 * Real.pi))| ≤
        8 / 10 ^ 10 + 4 / 10 ^ 17 * |angle| := by
  have positive : (0 : ℝ) < pi := by norm_num [pi]
  obtain ⟨revolutions, scale⟩ : ∃ revolutions : ℝ, revolutions = angle * (1 / (2 * pi)) := ⟨_, rfl⟩
  obtain ⟨carry, whole⟩ : ∃ carry, carry = Scalar.toInt revolutions := ⟨_, rfl⟩
  obtain ⟨counts, nearest⟩ : ∃ counts, counts = RotorAngle.roundToInt64 ((revolutions - carry) * 2 ^ 32) := ⟨_, rfl⟩
  have below : |revolutions| < 2 ^ 64 := by
    have turn : (0 : ℝ) < 2 * pi := mul_pos two_pos positive
    rw [scale, abs_mul, abs_of_pos (one_div_pos.mpr turn), mul_one_div, div_lt_iff₀ turn]
    refine range.trans ?_
    norm_num [pi]
  have part : |revolutions - carry| ≤ 1 := whole ▸ toInt_near below
  have scaled : |(revolutions - carry) * 2 ^ 32| ≤ 2 ^ 32 := by
    rw [abs_mul, abs_of_pos (by positivity : (0 : ℝ) < 2 ^ 32)]
    exact mul_le_of_le_one_left (by positivity) part
  have rounded : |(revolutions - carry) * 2 ^ 32 - counts| ≤ 1 / 2 := nearest ▸ roundToInt64_near scaled
  have few : |counts| ≤ 2 ^ 32 := by
    have real : |(counts : ℝ)| < 2 ^ 32 + 1 := by
      have apart := abs_sub_abs_le_abs_sub (counts : ℝ) ((revolutions - carry) * 2 ^ 32)
      rw [abs_sub_comm] at apart
      have sum := sub_le_iff_le_add.mp (apart.trans rounded)
      exact lt_of_le_of_lt (sum.trans (add_le_add_right scaled _)) (by norm_num)
    have integer : |counts| < 2 ^ 32 + 1 := by exact_mod_cast real
    omega
  obtain ⟨least, most⟩ := abs_le.mp few
  obtain ⟨turn, low, high, wrapped⟩ : ∃ turn : ℤ, -2 ^ 31 ≤ counts + turn * 2 ^ 32 ∧ counts + turn * 2 ^ 32 < 2 ^ 31 ∧
      calculateAngle angle = (calculate (Int32.ofInt (counts + turn * 2 ^ 32)) : SinCos ℝ) := by
    have same : calculateAngle angle = (calculate (Int32.ofInt
        (if RotorAngle.countsPerHalfRevolution ≤ counts then counts - RotorAngle.countsPerRevolution
        else if counts < -RotorAngle.countsPerHalfRevolution then counts + RotorAngle.countsPerRevolution
        else counts)) : SinCos ℝ) := by
      have constant : (4294967296.0 : ℝ) = 2 ^ 32 := by norm_num
      have inputs : RotorAngle.roundToInt64 ((angle * RotorAngle.revolutionsPerRadian -
          Scalar.ofInt (Scalar.toInt (angle * RotorAngle.revolutionsPerRadian))) * (4294967296.0 : ℝ)) = counts := by
        rw [revolutionsPerRadian_exact, ofInt_exact (toInt_small _), constant, ← scale, ← whole, ← nearest]
      unfold calculateAngle
      dsimp only
      rw [← inputs]
    rw [same]
    unfold RotorAngle.countsPerHalfRevolution RotorAngle.countsPerRevolution
    split_ifs
    · exact ⟨-1, by omega, by omega, by congr 2⟩
    · exact ⟨1, by omega, by omega, by congr 2⟩
    · exact ⟨0, by omega, by omega, by congr 2; omega⟩
  refine ⟨_, wrapped, turn - carry, ?_⟩
  have value : (Int32.ofInt (counts + turn * 2 ^ 32)).toInt = counts + turn * 2 ^ 32 :=
    Int32.toInt_ofInt_of_le (by omega) (by omega)
  have parts : 2 * Real.pi * ((counts + turn * 2 ^ 32 : ℤ) : ℝ) / 2 ^ 32 -
      (angle + ((turn - carry : ℤ) : ℝ) * (2 * Real.pi)) =
      2 * Real.pi / 2 ^ 32 * (counts - (revolutions - carry) * 2 ^ 32) + angle * (Real.pi / pi - 1) := by
    have wholeTurns : revolutions * (2 * Real.pi) = angle * (Real.pi / pi) := by
      rw [scale]
      field_simp
    push_cast
    linear_combination wholeTurns
  rw [value, parts]
  refine (abs_add_le _ _).trans (add_le_add ?_ ?_)
  · rw [abs_mul, abs_of_pos (by positivity), abs_sub_comm]
    refine (mul_le_mul_of_nonneg_left rounded (by positivity)).trans ?_
    have high := Real.pi_lt_d20
    norm_num at high ⊢
    linarith
  · rw [abs_mul, mul_comm]
    exact mul_le_mul_of_nonneg_right pi_close (abs_nonneg _)

theorem unit_turns (angle : ℝ) (turns : ℤ) :
    Rotation.unit (angle + turns * (2 * Real.pi)) = Rotation.unit angle := by
  apply Complex.ext
  · rw [Rotation.unit_re, Rotation.unit_re, Real.cos_add_int_mul_two_pi]
  · rw [Rotation.unit_im, Rotation.unit_im, Real.sin_add_int_mul_two_pi]

theorem calculateAngle_near {angle : ℝ} (range : |angle| < 2 ^ 65) :
    ‖point (calculateAngle angle) - Rotation.unit angle‖ ≤ 34 / 10 ^ 9 + 4 / 10 ^ 17 * |angle| := by
  obtain ⟨raw, same, turns, near⟩ := counts_near range
  have apart := Rotation.unit_sub (2 * Real.pi * raw.toInt / 2 ^ 32) (angle + turns * (2 * Real.pi))
  rw [unit_turns] at apart
  rw [same]
  refine (norm_sub_le_norm_sub_add_norm_sub _ (Rotation.unit (2 * Real.pi * raw.toInt / 2 ^ 32)) _).trans ?_
  have found := calculate_near raw
  norm_num at found near ⊢
  linarith

theorem point_parts {pair : SinCos ℝ} {angle error : ℝ} (near : ‖point pair - Rotation.unit angle‖ ≤ error) :
    |pair.sin - Real.sin angle| ≤ error ∧ |pair.cos - Real.cos angle| ≤ error := by
  have im := (Complex.abs_im_le_norm _).trans near
  have re := (Complex.abs_re_le_norm _).trans near
  rw [Complex.sub_im, Rotation.unit_im] at im
  rw [Complex.sub_re, Rotation.unit_re] at re
  exact ⟨im, re⟩

/-- Into the rotor frame and back, a vector is scaled by the square of the length of the pair. -/
theorem park_round_trip (vector : Stator ℝ) (pair : SinCos ℝ) :
    (vector.toRotor pair).toStator pair =
      ⟨(pair.cos ^ 2 + pair.sin ^ 2) * vector.alpha, (pair.cos ^ 2 + pair.sin ^ 2) * vector.beta⟩ := by
  unfold Stator.toRotor Rotor.toStator
  show (⟨(vector.alpha * pair.cos + vector.beta * pair.sin) * pair.cos -
      (vector.beta * pair.cos - vector.alpha * pair.sin) * pair.sin,
    (vector.alpha * pair.cos + vector.beta * pair.sin) * pair.sin +
      (vector.beta * pair.cos - vector.alpha * pair.sin) * pair.cos⟩ : Stator ℝ) = _
  congr 1
  · ring
  · ring

/-- The error of the table at every phase and at every angle whose revolutions can be counted; the
transforms with the pair never stretch a vector, and hardly shrink it. -/
theorem sin_cos_accuracy (raw : Int32) (angle : ℝ) (range : |angle| < 2 ^ 65) :
    (|(calculate raw).sin - Real.sin (2 * Real.pi * raw.toInt / 2 ^ 32)| ≤ 33 / 10 ^ 9 ∧
      |(calculate raw).cos - Real.cos (2 * Real.pi * raw.toInt / 2 ^ 32)| ≤ 33 / 10 ^ 9) ∧
    (|(calculateAngle angle).sin - Real.sin angle| ≤ 34 / 10 ^ 9 + 4 / 10 ^ 17 * |angle| ∧
      |(calculateAngle angle).cos - Real.cos angle| ≤ 34 / 10 ^ 9 + 4 / 10 ^ 17 * |angle|) ∧
    ∃ factor : ℝ, 1 - 5 / 10 ^ 9 ≤ factor ∧ factor ≤ 1 ∧ ∀ vector : Stator ℝ,
      (vector.toRotor (calculate raw)).toStator (calculate raw) = ⟨factor * vector.alpha, factor * vector.beta⟩ := by
  obtain ⟨long, short⟩ := calculate_length raw
  exact ⟨point_parts (calculate_near raw), point_parts (calculateAngle_near range), _, long, short,
    fun vector => park_round_trip vector _⟩

theorem sin_cos_accuracy_sixth :
    |(calculateAngle (Real.pi / 6)).sin - 1 / 2| ≤ 34 / 10 ^ 9 + 4 / 10 ^ 17 * |Real.pi / 6| := by
  have range : |Real.pi / 6| < 2 ^ 65 := by
    rw [abs_of_pos (by positivity)]
    linarith [Real.pi_le_four]
  have accuracy := (sin_cos_accuracy 0 (Real.pi / 6) range).2.1.1
  rwa [Real.sin_pi_div_six] at accuracy

end Unimoc.CurrentControl.PortableSinCosProvider
