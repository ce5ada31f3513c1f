import SprdVendor.Lib.OnFirst

namespace SprdVendor.SlogModem
open Lib

abbrev Name := List Char

inductive LogType where
  | unknown
  | log
  | sipc
  | dump
  | miniDump
  | version
  | ringbuf
  | sleeplog
deriving DecidableEq, Repr

structure FileTime where
  year : Nat
  month : Nat
  mday : Nat
  hour : Nat
  min : Nat
  sec : Nat
deriving DecidableEq, Repr

namespace FileTime

def zero : FileTime := ⟨0, 0, 0, 0, 0, 0⟩

def lt (s t : FileTime) : Bool :=
  if s.year < t.year then true
  else if s.year > t.year then false
  else if s.month < t.month then true
  else if s.month > t.month then false
  else if s.mday < t.mday then true
  else if s.mday > t.mday then false
  else if s.hour < t.hour then true
  else if s.hour > t.hour then false
  else if s.min < t.min then true
  else if s.min > t.min then false
  else s.sec < t.sec

def pad (w n : Nat) : Name :=
  List.replicate (w - (Nat.toDigits 10 n).length) '0' ++ Nat.toDigits 10 n

def text (sep : Char) (t : FileTime) : Name :=
  pad 4 t.year ++ '-' :: pad 2 t.month ++ '-' :: pad 2 t.mday ++ sep :: pad 2 t.hour ++
    '-' :: pad 2 t.min ++ '-' :: pad 2 t.sec

end FileTime

def parseDigits : Name → Nat → Nat → Option (Nat × Nat)
  | [], num, parsed => some (num, parsed)
  | c :: s, num, parsed =>
    if c.isDigit then
      if 2 ^ 32 - 1 ≤ num then none
      else parseDigits s ((num * 10 + (c.toNat - '0'.toNat)) % 2 ^ 32) (parsed + 1)
    else some (num, parsed)

def parseNumber : Name → Option (Nat × Nat)
  | [] => none
  | c :: s => if c.isDigit then parseDigits (c :: s) 0 0 else none

def parseLogFileNum (name : Name) : Option (Nat × Nat) :=
  (parseNumber name).bind fun r => if name[r.2]? = some '-' then some r else none

inductive SizeCall where
  | none
  | addSize (len : Nat)
  | decSize (len : Nat)
deriving DecidableEq, Repr

def SizeCall.apply : SizeCall → Nat → Nat
  | .none, size => size
  | .addSize len, size => size + len
  | .decSize len, size => size - len

def fileIoBufSize : Nat := 1024 * 64

/-- A `LogFile` object; `id` is its address. -/
structure LogFile where
  id : Nat
  baseName : Name
  type : LogType
  time : FileTime
  size : Nat
  opened : Bool
  dataLen : Nat
deriving DecidableEq, Repr

structure Kernel where
  results : List Int
  noSpace : Bool
deriving DecidableEq, Repr

def writeData (results : List Int) (len : Nat) : Option Int :=
  go len results len
where
  go (total : Nat) : List Int → Nat → Option Int
  | _, 0 => some total
  | [], _ + 1 => none
  | n :: results, left + 1 => if n < 0 then some n else go total results (left + 1 - n.toNat)

def Kernel.failed (k : Kernel) (n : Int) : Int := if n < 0 ∧ k.noSpace then -2 else n

namespace LogFile

def created (id : Nat) (name : Name) (t : LogType) (time : FileTime) : LogFile :=
  ⟨id, name, t, time, 0, true, 0⟩

def close (f : LogFile) : LogFile := if f.opened then { f with opened := false, dataLen := 0 } else f

def flush (f : LogFile) : LogFile := if f.opened then { f with dataLen := 0 } else f

def write (f : LogFile) (len : Nat) (k : Kernel) : Option (LogFile × SizeCall × Int) :=
  if f.opened = false then some (f, .none, -1)
  else if len + f.dataLen < fileIoBufSize then
    some ({ f with dataLen := f.dataLen + len, size := f.size + len }, .addSize len, len)
  else if f.dataLen ≠ 0 then
    k.results.head?.map fun n =>
      if (f.dataLen : Int) ≤ n then
        let n := n.toNat - f.dataLen
        ({ f with dataLen := 0, size := f.size + n }, .addSize n, n)
      else if 0 < n then ({ f with dataLen := f.dataLen - n.toNat }, .none, 0)
      else (f, .none, k.failed n)
  else
    (writeData k.results len).map fun n =>
      if 0 < n then ({ f with size := f.size + n.toNat }, .addSize n.toNat, n)
      else (f, .none, k.failed n)

def copyLoop : List (Int × Int) → Nat → Option (Nat × Int)
  | [], _ => none
  | (n, nwr) :: calls, total =>
    if n < 0 then some (total, -1)
    else if n = 0 then some (total, 0)
    else if nwr ≠ n then some (total + nwr.toNat, -1)
    else copyLoop calls (total + n.toNat)

/-- There is no `src` when the source file cannot be opened. -/
def copy (f : LogFile) (src : Option (List (Int × Int))) : Option (LogFile × SizeCall × Int) :=
  if f.opened = false then some (f, .none, -1)
  else match src with
    | none => some (f, .none, -1)
    | some calls => (copyLoop calls 0).map fun r =>
        ({ f with size := f.size + r.1 }, .addSize r.1, r.2)

def discard (f : LogFile) : LogFile × SizeCall × Int :=
  if f.opened then ({ f with size := 0, dataLen := 0 }, .decSize f.size, 0) else (f, .none, -1)

def renumber (f : LogFile) (num len : Nat) : LogFile :=
  { f with baseName := Nat.toDigits 10 num ++ f.baseName.drop len }

def rotate (f : LogFile) (renamed : Bool) : LogFile :=
  match parseLogFileNum f.baseName with
  | none => f
  | some (num, len) => if renamed then f.renumber ((num + 1) % 2 ^ 32) len else f

def changeNameNum (f : LogFile) (num : Nat) (renamed : Bool) : LogFile :=
  match parseLogFileNum f.baseName with
  | none => f
  | some (curNum, len) => if num ≠ curNum ∧ renamed then f.renumber num len else f

end LogFile

end SprdVendor.SlogModem
