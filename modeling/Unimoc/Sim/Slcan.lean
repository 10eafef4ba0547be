import Mathlib.Data.List.Basic

/-! The serial-line CAN adapter of the simulation: text lines of the tools on its terminals, and
the CAN frames in them. -/
namespace Unimoc.Sim

def canClassicMtu : Nat := 8

def canFdMtu : Nat := 64

/-- Only the first `size` bytes of the data are valid. -/
structure CanFrame where
  extendedCanId : UInt32
  size : UInt8
  data : Vector UInt8 canFdMtu
deriving DecidableEq, Repr

def CanFrame.initial : CanFrame := ⟨0, 0, Vector.replicate canFdMtu 0⟩

namespace Slcan

abbrev Text := List Char

def carriageReturn : Char := '\r'

def lineFeed : Char := '\n'

def ok : Text := [carriageReturn]

/-- The bell. -/
def error : Text := [Char.ofNat 7]

def hex : Text := "0123456789ABCDEF".toList

/-- Data length of the CAN FD length codes. -/
def dlcToLength : List UInt8 := [0, 1, 2, 3, 4, 5, 6, 7, 8, 12, 16, 20, 24, 32, 48, 64]

/-- Longest line of a classic frame: `T`, the id, the length code, the data, the end. -/
def maxFrameText : Nat := 1 + 8 + 1 + 2 * canClassicMtu + 1

def nibble (digit : Char) : Option UInt32 :=
  if '0' ≤ digit ∧ digit ≤ '9' then some (UInt32.ofNat (digit.toNat - '0'.toNat))
  else if 'A' ≤ digit ∧ digit ≤ 'F' then some (UInt32.ofNat (digit.toNat - 'A'.toNat) + 10)
  else if 'a' ≤ digit ∧ digit ≤ 'f' then some (UInt32.ofNat (digit.toNat - 'a'.toNat) + 10)
  else none

def shiftIn (value : UInt32) (digit : Char) : Option UInt32 := (nibble digit).map fun n => (value <<< 4) ||| n

def parseHex (digits : Text) : Option UInt32 := digits.foldlM shiftIn 0

/-- `substr` of the source. -/
def substr (line : Text) (start count : Nat) : Text := (line.drop start).take count

structure LineResult where
  reply : Text
  frame : Option CanFrame
  opened : Option Bool
deriving DecidableEq, Repr

def parseData (line : Text) (size : Nat) : Option (List UInt8) :=
  if line.length < 10 + 2 * size then none
  else (List.range size).mapM fun i => (parseHex (substr line (10 + 2 * i) 2)).map (·.toUInt8)

/-- Eight digits of the id, one of the length code, and the data. -/
def parseFrame (command : Char) (line : Text) : Option CanFrame :=
  if line.length < 10 then none
  else do
    let id ← parseHex (substr line 1 8)
    let dlc ← parseHex (substr line 9 1)
    if command = 'T' ∧ 8 < dlc then none
    else do
      let size := dlcToLength.getD dlc.toNat 0
      let bytes ← parseData line size.toNat
      return ⟨id &&& 0x1FFFFFFF, size, Vector.ofFn fun i => bytes.getD i 0⟩

def parseLine (line : Text) : LineResult :=
  match line with
  | [] => ⟨ok, none, none⟩
  | command :: _ =>
    if command = 'O' ∨ command = 'L' then ⟨ok, none, some true⟩
    else if command = 'C' then ⟨ok, none, some false⟩
    else if command = 'T' ∨ command = 'D' ∨ command = 'B' then
      match parseFrame command line with
      | some frame => ⟨[], some frame, none⟩
      | none => ⟨error, none, none⟩
    else if command = 't' ∨ command = 'r' ∨ command = 'R' then ⟨[], none, none⟩
    else ⟨ok, none, none⟩

def digitAt (value : Nat) : Char := hex.getD value '0'

def idDigits (id : UInt32) : Text :=
  [28, 24, 20, 16, 12, 8, 4, 0].map fun shift : UInt32 => digitAt ((id >>> shift) &&& 0xF).toNat

def byteDigits (byte : UInt8) : Text := [digitAt (byte >>> 4).toNat, digitAt (byte &&& 0xF).toNat]

def formatFrame (frame : CanFrame) (textSize : Nat) : Text :=
  if textSize < maxFrameText then []
  else
    let size := if canClassicMtu < frame.size.toNat then canClassicMtu else frame.size.toNat
    'T' :: idDigits frame.extendedCanId ++ [digitAt size] ++
      (frame.data.toList.take size).flatMap byteDigits ++ [carriageReturn]

end Slcan

end Unimoc.Sim
