import SprdVendor.Lib.Text

namespace SprdVendor.LibCamera
open Lib

/-- What the area functions can run into: a null pointer, the end of a scratch buffer, a scratch
buffer without a terminator, and the end of an array. -/
inductive Fault where
  | null
  | scratch
  | unterminated
  | array
deriving DecidableEq

def nul : Char := '\x00'

def cString (buf : List Char) : List Char := buf.takeWhile (· ≠ nul)

def clear (n : Nat) (buf : List Char) : List Char := List.replicate n nul ++ buf.drop n

def strncpy (buf text : List Char) : Except Fault (List Char) :=
  if text.length ≤ buf.length then .ok (text ++ buf.drop text.length) else .error .scratch

/-- A number up to the next comma: `b` is the rest of `k`, and the text goes through `m`. The number,
what is behind the comma and `m` are returned. -/
def readField (b m : List Char) : Except Fault (Int × List Char × List Char) :=
  let field := (cString b).takeWhile (· ≠ ',')
  if field = cString b then .error .null
  else do
    let m ← strncpy m field
    return (strtol 32 0 (cString m), b.drop (field.length + 1), clear 20 m)

def readWeight (b : List Char) : Except Fault Int :=
  if nul ∈ b then .ok (strtol 32 0 (cString b)) else .error .unterminated

/-- The body of the loop of `parse_rect`, for the text between two parentheses: the numbers that are
written, and the scratch buffers. -/
def readArea (excludeWeight : Bool) (k m text : List Char) :
    Except Fault (List Int × List Char × List Char) := do
  let k ← strncpy k text
  let (left, b, m) ← readField k m
  let (top, b, m) ← readField b m
  let (right, b, m) ← readField b m
  let (bottom, b, m) ← readField b m
  let weight ← if excludeWeight then pure [] else (fun w => [w]) <$> readWeight b
  return ([left, top, right, bottom] ++ weight, clear 10 k, clear 20 m)

def kFocusZoneMax : Nat := 5

def nextPiece (a : List Char) : Option (List Char × List Char) :=
  match a.dropWhile (· ≠ '(') with
  | [] => none
  | _ :: a =>
    match a.dropWhile (· ≠ ')') with
    | [] => none
    | _ :: rest => some (a.takeWhile (· ≠ ')'), rest)

/-- The loop of `parse_rect`, with the turns that are left. The array has `room` numbers left. -/
def parseLoop (excludeWeight : Bool) : Nat → Nat → List Char → List Char → List Char →
    Except Fault (List (List Int))
  | 0, _, _, _, _ => .ok []
  | turns + 1, room, k, m, a =>
    match nextPiece a with
    | none => .ok []
    | some (text, a) => do
      let (numbers, k, m) ← readArea excludeWeight k m text
      if room < numbers.length then .error .array
      else
        let areas ← parseLoop excludeWeight turns (room - numbers.length) k m a
        return numbers :: areas

def parseRect (size : Nat) (str : Option (List Char)) (excludeWeight : Bool) :
    Except Fault (List (List Int)) :=
  match str with
  | none => .ok []
  | some a =>
    parseLoop excludeWeight kFocusZoneMax size (List.replicate 40 nul) (List.replicate 40 nul) a

def areaArray (size : Nat) (areas : List (List Int)) : List Int :=
  areas.flatten ++ List.replicate (size - areas.flatten.length) 0

def readArray (arr : List Int) (i : Nat) : Except Fault Int :=
  match arr[i]? with
  | some v => .ok v
  | none => .error .array

/-- The areas that are turned down. A coordinate of zero keeps an area from being looked at. -/
def badArea (left top right bottom weight : Int) : Bool :=
  (left ≠ 0 ∧ right ≠ 0 ∧ top ≠ 0 ∧ bottom ≠ 0) ∧
    (left ≥ right ∨ top ≥ bottom ∨ left < -1000 ∨ top < -1000 ∨ right > 1000 ∨ bottom > 1000 ∨
      weight < 1 ∨ weight > 1000)

def chekLoop (arr : List Int) : List Nat → Except Fault Nat
  | [] => .ok 0
  | i :: is => do
    let left ← readArray arr (i * 5)
    let top ← readArray arr (i * 5 + 1)
    let right ← readArray arr (i * 5 + 2)
    let bottom ← readArray arr (i * 5 + 3)
    let weight ← readArray arr (i * 5 + 4)
    if badArea left top right bottom weight then .ok 1 else chekLoop arr is

/-- `chekFocusAreas` and `chekMeteringAreas`; the value 0 accepts the areas. -/
def chekFocusAreas (p : Option (List Char)) (maxNum : Int) : Except Fault Nat := do
  let areas ← parseRect (4 * kFocusZoneMax) p false
  if (areas.length : Int) > maxNum then .ok 1
  else chekLoop (areaArray (4 * kFocusZoneMax) areas) (List.range areas.length)

structure PreviewRect where
  x : Int
  y : Int
  width : Int
  height : Int
deriving DecidableEq

def toInt (v : Int) : Int := v.bmod (2 ^ 32)

def convertCoordinate (v size origin : Int) : Int :=
  toInt ((toInt (toInt (1000 + v) * size)).tdiv 2000 + origin)

def coordinateConvert (rect : PreviewRect) (arr : List Int) (n : Nat) : List Int :=
  arr.mapIdx fun i v =>
    if i < n * 4 then
      if i % 2 = 0 then convertCoordinate v rect.width rect.x
      else convertCoordinate v rect.height rect.y
    else v

/-- `coordinate_struct_convert` for an array of numbers of `n` areas: the width stands for the right
edge and the height for the bottom. -/
def coordinateStructConvert (arr : List Int) (n : Nat) : List Int :=
  arr.mapIdx fun i v =>
    if i < n * 4 ∧ i % 4 ≥ 2 then toInt (v - arr.getD (i - 2) 0) else v

def areaRects (rect : PreviewRect) (areas : List (List Int)) : List Int :=
  let arr := coordinateConvert rect (areaArray (4 * kFocusZoneMax) areas) areas.length
  coordinateStructConvert arr areas.length

/-- The loop of `getFocusAreas` that copies the numbers from `i` on: the number of areas at the end,
zero behind a negative number, and what was copied. -/
def copyLoop (arr : List Int) (count : Nat) : Nat → Nat → Except Fault (Nat × List Int)
  | 0, _ => .ok (count, [])
  | turns + 1, i => do
    let v ← readArray arr i
    let next ← readArray arr (i + 1)
    if next < 0 then .ok (0, [v])
    else
      let (count, rest) ← copyLoop arr count turns (i + 1)
      return (count, v :: rest)

/-- `getFocusAreas` and `getMeteringAreas`: the number of areas, and the numbers that are written to
`area`. -/
def getFocusAreas (p : Option (List Char)) (rect : PreviewRect) : Except Fault (Nat × List Int) := do
  let areas ← parseRect (4 * kFocusZoneMax) p true
  copyLoop (areaRects rect areas) areas.length (areas.length * 4) 0

end SprdVendor.LibCamera
