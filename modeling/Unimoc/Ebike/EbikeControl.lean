import Unimoc.Drive.DriveNode
import Unimoc.Ebike.AssistController
import Unimoc.Ebike.Kunteng
import Unimoc.Ebike.PedalObserver

/-! The e-bike control: pedals, display link and assist law, and the engagement on demand. -/
namespace Unimoc.Ebike

open Drive Kunteng Settings

structure EbikeParameters (F : Type) where
  pedal : PedalObserverConfig F
  assist : AssistConfig F
  /-- The drive stays engaged this long after the assist ended. -/
  engageHold : F
  /-- After a fault the pedals must stand still this long before the drive engages again. -/
  rearmPedalStop : F
  displayTimeout : F
  wheelCircumferenceM : F
  /-- Motor shaft revolutions per wheel revolution. -/
  gearRatio : F
  batteryCells : UInt8
  nominalVoltage : UInt8
  /-- Positive rotor torque and speed drive backward. -/
  reversed : Bool

structure ControlOutput (F : Type) where
  engage : Bool
  /-- In the rotor direction. -/
  torque : F
  light : Bool

/-- What the hardware of the e-bike has collected; ages and bytes come oldest first. -/
structure EbikeReading (F : Type) where
  crankTorque : F
  pulseAges : List F
  displayBytes : List UInt8

structure EbikeControl (F : Type) where
  parameters : EbikeParameters F
  motorSpeedPerKmh : F
  pedal : PedalObserver F
  assist : AssistController F
  decoder : DisplayDecoder
  request : DisplayRequest
  started : Bool
  lastUpdateUs : UInt64
  lastRequestUs : UInt64
  displayAlive : Bool
  output : ControlOutput F
  wanting : Bool
  lastWantUs : UInt64
  latched : Bool
  pedalStillSinceUs : UInt64
  wasEngaged : Bool
  /-- 0 below empty to 5 four bars. -/
  bars : Nat

/-- Angle wrap and exponential of the target. -/
structure EbikeFunctions (F : Type) where
  wrapAngle : F → F
  exp : F → F

/-- Calls closer together return the last result. -/
def stepUs : UInt64 := 1000

/-- A long gap is a pause of the thread, not a long time step. -/
def maxStepUs : UInt64 := 20000

def maxPulsesPerUpdate : Nat := 8

def maxDisplayBytes : Nat := 16

def errorFault : UInt8 := 1

def barCodes : List BatteryLevel := [.belowEmpty, .empty, .oneBar, .twoBars, .threeBars, .fourBars]

section Floating

variable {F : Type} [Arithmetic F]

def EbikeParameters.default : EbikeParameters F where
  pedal := .default
  assist := .default
  engageHold := 2.0
  rearmPedalStop := 1.0
  displayTimeout := 2.0
  wheelCircumferenceM := 2.1
  gearRatio := 1.0
  batteryCells := 10
  nominalVoltage := 36
  reversed := false

def EbikeParameters.from (settings : NvmSettings) : EbikeParameters F where
  pedal := { PedalObserverConfig.default with pulsesPerRev := settings.natural8 .ebikePulsesPerRev }
  assist :=
    { levelGain :=
        [0.0, settings.real .ebikeGain1, settings.real .ebikeGain2, settings.real .ebikeGain3,
          settings.real .ebikeGain4, settings.real .ebikeGain5, settings.real .ebikeGain5,
          settings.real .ebikeGain5]
      powerScale := settings.real .ebikePowerScale
      maxRatio := settings.real .ebikeMaxRatio
      torqueRatio := settings.real .ebikeTorqueRatio
      torqueDeadband := settings.real .ebikeTorqueDeadband
      minCadence := settings.real .ebikeMinCadence
      speedTaper := settings.real .ebikeSpeedTaper
      riseTime := settings.real .ebikeRiseTime
      fallTime := settings.real .ebikeFallTime }
  engageHold := settings.real .ebikeEngageHold
  rearmPedalStop := settings.real .ebikeRearmTime
  displayTimeout := settings.real .ebikeDisplayTimeout
  wheelCircumferenceM := settings.real .ebikeWheelCircumference
  gearRatio := settings.real .ebikeGearRatio
  batteryCells := settings.natural8 .ebikeBatteryCells
  nominalVoltage := settings.natural8 .ebikeNominalVoltage
  reversed := settings.natural8 .cartReversed ≠ 0

def ControlOutput.none : ControlOutput F := ⟨false, Scalar.zero, false⟩

namespace EbikeControl

/-- Thresholds of the bars for each cell; the first is not reached. -/
def cellVolts : List F := [0.0, 3.15, 3.35, 3.55, 3.75, 3.95]

def barHysteresisCellVolts : F := 0.05

/-- The voltage sags under load. -/
def barsMaxCurrent : F := 2.0

def maxWheelPeriod : F := (65535.0 : F) / 1000.0

/-- Motor speed of one km/h of vehicle speed. -/
def radPerSecondPerKmh (parameters : EbikeParameters F) : F :=
  CurrentControl.twoPi * parameters.gearRatio /
    (Scalar.max parameters.wheelCircumferenceM 0.1 * (3.6 : F))

/-- New parameters restart the pedal observer and the assist ramp. -/
def configure (parameters : EbikeParameters F) (c : EbikeControl F) : EbikeControl F :=
  { c with
    parameters := parameters
    pedal := .create parameters.pedal
    assist := .create parameters.assist
    motorSpeedPerKmh := radPerSecondPerKmh parameters
    wanting := false
    latched := false
    output := .none }

def create : EbikeControl F :=
  { parameters := .default
    motorSpeedPerKmh := Scalar.zero
    pedal := .create .default
    assist := .create .default
    decoder := .initial
    request := .initial
    started := false
    lastUpdateUs := 0
    lastRequestUs := 0
    displayAlive := false
    output := .none
    wanting := false
    lastWantUs := 0
    latched := false
    pedalStillSinceUs := 0
    wasEngaged := false
    bars := 5 : EbikeControl F }.configure .default

/-- Latches like a fault. -/
def inhibit (c : EbikeControl F) : EbikeControl F := { c with latched := true, wanting := false }

/-! ### The display -/

/-- The bars reached with this offset of the thresholds. -/
def barsAt (cellVoltage offset : F) : Nat :=
  (List.range (cellVolts : List F).length).foldl
    (fun reached level =>
      if 0 < level ∧ cellVolts.getD level Scalar.zero + offset ≤ cellVoltage then level else reached) 0

/-- With hysteresis, and only while the load is small. -/
def batteryBars (vehicle : EbikeVehicle F) (c : EbikeControl F) : BatteryLevel × EbikeControl F :=
  let bars :=
    if vehicle.batteryCurrent < barsMaxCurrent && -barsMaxCurrent < vehicle.batteryCurrent then
      let cells : F := Scalar.ofUInt64 (max c.parameters.batteryCells 1).toUInt64
      let cellVoltage := vehicle.dcLink / 1.0 / cells
      let rising := barsAt cellVoltage barHysteresisCellVolts
      let falling := barsAt cellVoltage (-barHysteresisCellVolts)
      if c.bars < rising then rising else if falling < c.bars then falling else c.bars
    else c.bars
  (barCodes.getD bars .belowEmpty, { c with bars := bars })

def wheelPeriod (motorSpeed : F) (c : EbikeControl F) : F :=
  let speed := if motorSpeed < Scalar.zero then -motorSpeed else motorSpeed
  if speed ≤ Scalar.zero then maxWheelPeriod
  else Scalar.min (CurrentControl.twoPi * c.parameters.gearRatio / speed) maxWheelPeriod

/-- The status frame that answers a request. -/
def answer (vehicle : EbikeVehicle F) (c : EbikeControl F) : List UInt8 × EbikeControl F :=
  let (level, c) := c.batteryBars vehicle
  (encodeControllerFrame
    { batteryLevel := level
      nominalVoltage := c.parameters.nominalVoltage
      wheelPeriod := c.wheelPeriod vehicle.motorSpeed
      errorCode := if vehicle.faulted || c.latched then errorFault else 0
      throttle := false
      cruise := false
      pas := c.pedal.pedaling
      brake := false
      batteryCurrent := vehicle.batteryCurrent
      motorTemperature := vehicle.motorTemperature }, c)

/-- A byte of the display, with the frames sent so far. -/
def takeByte (nowUs : UInt64) (vehicle : EbikeVehicle F) (state : List (List UInt8) × EbikeControl F)
    (byte : UInt8) : List (List UInt8) × EbikeControl F :=
  let (sent, c) := state
  match c.decoder.push byte with
  | (none, decoder) => (sent, { c with decoder := decoder })
  | (some request, decoder) =>
    let c :=
      { c with decoder := decoder, request := request, lastRequestUs := nowUs, displayAlive := true }
    let (frame, c) := c.answer vehicle
    (sent ++ [frame], c)

/-- The frames for the display, and the control; a display that is silent too long is lost. -/
def serviceDisplay (nowUs : UInt64) (vehicle : EbikeVehicle F) (bytes : List UInt8) (c : EbikeControl F) :
    List (List UInt8) × EbikeControl F :=
  let (sent, c) := (bytes.take maxDisplayBytes).foldl (takeByte nowUs vehicle) ([], c)
  if c.displayAlive && toMicroseconds c.parameters.displayTimeout ≤ nowUs - c.lastRequestUs then
    (sent, { c with displayAlive := false })
  else (sent, c)

/-! ### The engagement on demand -/

def wants (c : EbikeControl F) : Bool :=
  c.displayAlive && 0 < c.request.assistLevel && c.pedal.pedaling

def watchPedals (nowUs : UInt64) (c : EbikeControl F) : EbikeControl F :=
  if c.pedal.pedaling then { c with pedalStillSinceUs := nowUs } else c

def latchFault (faulted : Bool) (c : EbikeControl F) : EbikeControl F :=
  if faulted && (c.wanting || c.wasEngaged || c.wants) then { c with latched := true } else c

def rearmed (nowUs : UInt64) (c : EbikeControl F) : Bool :=
  toMicroseconds c.parameters.rearmPedalStop ≤ nowUs - c.pedalStillSinceUs

def rearm (nowUs : UInt64) (c : EbikeControl F) : EbikeControl F :=
  if c.latched && c.rearmed nowUs then { c with latched := false } else c

def demand (nowUs : UInt64) (c : EbikeControl F) : EbikeControl F :=
  if c.wants && !c.latched then { c with wanting := true, lastWantUs := nowUs }
  else if c.wanting &&
      (c.latched || toMicroseconds c.parameters.engageHold ≤ nowUs - c.lastWantUs) then
    { c with wanting := false }
  else c

def engagement (nowUs : UInt64) (vehicle : EbikeVehicle F) (c : EbikeControl F) : EbikeControl F :=
  { (((c.watchPedals nowUs).latchFault vehicle.faulted).rearm nowUs).demand nowUs with
    wasEngaged := vehicle.engaged }

/-! ### An update -/

def due (nowUs : UInt64) (c : EbikeControl F) : Bool :=
  !(c.started && nowUs - c.lastUpdateUs < stepUs)

def elapsed (nowUs : UInt64) (c : EbikeControl F) : F :=
  Scalar.ofUInt64 (if c.started then min (nowUs - c.lastUpdateUs) maxStepUs else stepUs) * 1e-6

def begin (nowUs : UInt64) (c : EbikeControl F) : EbikeControl F :=
  { c with
    started := true
    pedalStillSinceUs := if c.started then c.pedalStillSinceUs else nowUs
    lastUpdateUs := nowUs }

variable (functions : EbikeFunctions F)

/-- Pedals and display, up to the engagement; the frames for the display are the first
component. -/
def observe (nowUs : UInt64) (vehicle : EbikeVehicle F) (reading : EbikeReading F) (c : EbikeControl F) :
    List (List UInt8) × EbikeControl F :=
  let dt := c.elapsed nowUs
  let c := c.begin nowUs
  let c :=
    { c with
      pedal := c.pedal.step functions.wrapAngle dt reading.crankTorque
        (reading.pulseAges.take maxPulsesPerUpdate) }
  c.serviceDisplay nowUs vehicle reading.displayBytes

/-- The pedals and the speed limit are in the cart frame. -/
def assistInput (vehicle : EbikeVehicle F) (c : EbikeControl F) : AssistInput F where
  pedaling := c.pedal.pedaling
  cadence := c.pedal.cadence
  pedalTorque := c.pedal.meanPedalTorque
  motorSpeed := if c.parameters.reversed then -vehicle.motorSpeed else vehicle.motorSpeed
  speedLimit := c.motorSpeedPerKmh * Scalar.ofUInt64 c.request.maxSpeed.toUInt64
  torqueLimit := if c.parameters.reversed then -vehicle.torqueMin else vehicle.torqueMax
  level := if !c.wanting || c.latched then 0 else if c.displayAlive then c.request.assistLevel else 0

/-- The assist torque is zero until the drive is wanted. -/
def drive (dt : F) (vehicle : EbikeVehicle F) (c : EbikeControl F) : EbikeControl F :=
  let assist := c.assist.step functions.exp dt (c.assistInput vehicle)
  { c with
    assist := assist
    output :=
      { engage := c.wanting && !c.latched
        torque := if c.parameters.reversed then -assist.torque else assist.torque
        light := c.displayAlive && c.request.light } }

def advance (nowUs : UInt64) (vehicle : EbikeVehicle F) (reading : EbikeReading F) (c : EbikeControl F) :
    List (List UInt8) × EbikeControl F :=
  let (sent, observed) := c.observe functions nowUs vehicle reading
  (sent, (observed.engagement nowUs vehicle).drive functions (c.elapsed nowUs) vehicle)

/-- The frames for the display, and the control; its `output` is what the call returns. -/
def update (nowUs : UInt64) (vehicle : EbikeVehicle F) (reading : EbikeReading F) (c : EbikeControl F) :
    List (List UInt8) × EbikeControl F :=
  if !c.due nowUs then ([], c) else c.advance functions nowUs vehicle reading

end EbikeControl

end Floating

/-! ### The e-bike of a drive -/

/-- The control with its hardware: what each step will read, nothing after the last. -/
structure EbikeUnit (F : Type) where
  functions : EbikeFunctions F
  control : EbikeControl F
  readings : List (EbikeReading F)

variable {F : Type} [Arithmetic F]

instance : Drive.EbikeControl (EbikeUnit F) F where
  configure settings unit := { unit with control := unit.control.configure (.from settings) }
  update nowUs vehicle unit :=
    let reading := unit.readings.headD ⟨Scalar.zero, [], []⟩
    let control := (unit.control.update unit.functions nowUs vehicle reading).2
    (⟨control.output.engage, control.output.torque⟩,
      { unit with
        control := control
        readings := if unit.control.due nowUs then unit.readings.tail else unit.readings })
  inhibit unit := { unit with control := unit.control.inhibit }

end Unimoc.Ebike
