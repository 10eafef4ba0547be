import Unimoc.Units.Scalar

/-! The line protocol of the display: requests of 13 bytes found in the byte stream, and the
status frame that answers each of them. -/
namespace Unimoc.Ebike.Kunteng

def displayFrameSize : Nat := 13

/-- The value is the code on the line. -/
inductive BatteryLevel
  | belowEmpty
  | empty
  | oneBar
  | twoBars
  | threeBars
  | fourBars
deriving DecidableEq, Repr

def BatteryLevel.code : BatteryLevel → UInt8
  | .belowEmpty => 1
  | .empty => 3
  | .oneBar => 4
  | .twoBars => 8
  | .threeBars => 12
  | .fourBars => 16

structure ControllerStatus (F : Type) where
  batteryLevel : BatteryLevel
  nominalVoltage : UInt8
  /-- Time of one wheel revolution. -/
  wheelPeriod : F
  errorCode : UInt8
  throttle : Bool
  cruise : Bool
  pas : Bool
  brake : Bool
  batteryCurrent : F
  motorTemperature : F

structure DisplayRequest where
  assistLevel : UInt8
  light : Bool
  wheelSizeCode : UInt8
  /-- Speed limit in km/h. -/
  maxSpeed : UInt8
  motorCharacteristic : UInt8
  powerAssistMode : Bool
  maxCurrentCode : UInt8
  /-- The frame as received. -/
  raw : List UInt8
deriving DecidableEq, Repr

def DisplayRequest.initial : DisplayRequest :=
  ⟨0, false, 0, 0, 0, false, 0, List.replicate displayFrameSize 0⟩

def controllerStart : UInt8 := 65
def displayEnd : UInt8 := 0x0E
def displayEndMarkerA : UInt8 := 0x32
def displayEndMarkerB : UInt8 := 0x37
def displayChecksumIndex : Nat := 5
def defaultChecksumSeed : UInt8 := 10
def maxChecksumSeed : UInt8 := 50
def throttleBit : UInt8 := 0x02
def cruiseBit : UInt8 := 0x08
def pasBit : UInt8 := 0x10
def brakeBit : UInt8 := 0x20

/-- The xor of all bytes but one. -/
def xorExcept (frame : List UInt8) (skipped : Nat) : UInt8 := (frame.eraseIdx skipped).foldl (· ^^^ ·) 0

section Status

variable {F : Type} [Scalar F]

def clampByte (value : F) : UInt8 := (Scalar.toUInt64 (Scalar.clamp (value + 0.5) 0.0 255.0)).toUInt8

def bit (set : Bool) (mask : UInt8) : UInt8 := if set then mask else 0

/-- The checksum leaves out the start byte and counts itself as zero. -/
def encodeControllerFrame (status : ControllerStatus F) : List UInt8 :=
  let periodMs := status.wheelPeriod / 1.0 * 1000.0
  let period := Scalar.toUInt64 (Scalar.clamp periodMs 0.0 65535.0)
  let mode := bit status.throttle throttleBit ||| bit status.cruise cruiseBit |||
    bit status.pas pasBit ||| bit status.brake brakeBit
  let frame :=
    [controllerStart, status.batteryLevel.code, status.nominalVoltage, (period >>> 8).toUInt8,
      period.toUInt8, status.errorCode, 0, mode, clampByte (status.batteryCurrent / 1.0 * (4.0 : F)),
      clampByte ((status.motorTemperature - 15.0) / 1.0), 0, 0]
  frame.set 6 (xorExcept frame 0)

end Status

/-- The speed is `(10 + field) | (bit 5 of byte 4)`. -/
def encodeDisplayRequest (request : DisplayRequest) (checksumSeed : UInt8) : List UInt8 :=
  let speed : UInt8 := min (max request.maxSpeed 10) 63
  let speedBit : Bool := 41 < speed
  let speedField : UInt8 := (if speedBit then speed &&& 0x1F else speed) - 10
  let kept (i : Nat) : UInt8 := request.raw.getD i 0
  let frame : List UInt8 :=
    [kept 0, (request.assistLevel &&& 7) ||| bit request.light 0x80,
      ((request.wheelSizeCode >>> 2) &&& (7 : UInt8)) ||| (speedField <<< 3), request.motorCharacteristic,
      (kept 4 &&& (0x17 : UInt8)) ||| ((request.wheelSizeCode &&& (3 : UInt8)) <<< 6) ||| bit speedBit 0x20 |||
        bit request.powerAssistMode 0x08,
      kept 5, kept 6, (kept 7 &&& 0xF0) ||| (request.maxCurrentCode &&& 0x0F), kept 8, kept 9, kept 10,
      displayEndMarkerB, displayEnd]
  frame.set displayChecksumIndex (xorExcept frame displayChecksumIndex ^^^ checksumSeed)

/-- A frame without checking it. -/
def decode (frame : List UInt8) : DisplayRequest :=
  let byte (i : Nat) : UInt8 := frame.getD i 0
  { assistLevel := byte 1 &&& 7
    light := (byte 1 &&& 0x80) ≠ 0
    wheelSizeCode := ((byte 4 &&& 0xC0) >>> 6) ||| ((byte 2 &&& 7) <<< 2)
    maxSpeed := ((10 : UInt8) + ((byte 2 &&& 0xF8) >>> 3)) ||| (byte 4 &&& 0x20)
    motorCharacteristic := byte 3
    powerAssistMode := (byte 4 &&& 0x08) ≠ 0
    maxCurrentCode := byte 7 &&& 0x0F
    raw := frame }

/-- The last bytes of the line, and the checksum constant of the display. -/
structure DisplayDecoder where
  window : List UInt8
  count : Nat
  seed : UInt8
  candidate : UInt8
  candidateCount : Nat
deriving DecidableEq, Repr

namespace DisplayDecoder

/-- Frames in a row that must show another constant. -/
def seedFrames : Nat := 2

def initial : DisplayDecoder := ⟨List.replicate displayFrameSize 0, 0, defaultChecksumSeed, 0, 0⟩

def hasEndMarker (decoder : DisplayDecoder) : Bool :=
  let marker := decoder.window.getD (displayFrameSize - 2) 0
  (marker = displayEndMarkerA || marker = displayEndMarkerB) &&
    decoder.window.getD (displayFrameSize - 1) 0 = displayEnd

def learnSeed (seed : UInt8) (decoder : DisplayDecoder) : DisplayDecoder :=
  if maxChecksumSeed < seed then { decoder with candidateCount := 0 }
  else
    let decoder :=
      if seed = decoder.candidate ∧ 0 < decoder.candidateCount then
        { decoder with candidateCount := decoder.candidateCount + 1 }
      else { decoder with candidate := seed, candidateCount := 1 }
    if seedFrames ≤ decoder.candidateCount then { decoder with seed := seed, candidateCount := 0 }
    else decoder

/-- The request, if the byte completed a valid one. -/
def push (byte : UInt8) (decoder : DisplayDecoder) : Option DisplayRequest × DisplayDecoder :=
  let window := decoder.window.tail ++ [byte]
  let decoder := { decoder with window := window, count := min (decoder.count + 1) displayFrameSize }
  if decoder.count < displayFrameSize || !decoder.hasEndMarker then (none, decoder)
  else
    let seed := xorExcept window displayChecksumIndex ^^^ window.getD displayChecksumIndex 0
    let decoder := if seed ≠ decoder.seed then decoder.learnSeed seed else decoder
    if seed ≠ decoder.seed then (none, decoder)
    else (some (decode window), { decoder with candidateCount := 0, count := 0 })

end DisplayDecoder

end Unimoc.Ebike.Kunteng
