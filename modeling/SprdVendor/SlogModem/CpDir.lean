import SprdVendor.SlogModem.LogFile

namespace SprdVendor.SlogModem
open Lib

structure Entry where
  baseName : Name
  type : LogType
  time : FileTime
  size : Nat
deriving DecidableEq, Repr

structure CpDirectory where
  name : Name
  size : Nat
  startLog : Option Nat
  curLog : Option Nat
  logFiles : List LogFile
deriving DecidableEq, Repr

def insertByTime (f : LogFile) : List LogFile → List LogFile
  | [] => [f]
  | p :: lst =>
    if p.type = .version ∨ p.type ≠ .unknown ∧ f.time.lt p.time = true then f :: p :: lst
    else p :: insertByTime f lst

def insertAscending (lst : List LogFile) (f : LogFile) : List LogFile :=
  match f.type with
  | .version => lst ++ [f]
  | .unknown => f :: lst
  | _ => insertByTime f lst

def trimFiles (keep : LogFile → Bool) (unlink : Nat → Bool) :
    Nat → List LogFile → List LogFile × Nat
  | _, [] => ([], 0)
  | sz, f :: fs =>
    if keep f then
      let r := trimFiles keep unlink sz fs
      (f :: r.1, r.2)
    else if unlink f.id = false then (f :: fs, 0)
    else if sz ≤ f.size then (fs, f.size)
    else
      let r := trimFiles keep unlink (sz - f.size) fs
      (r.1, f.size + r.2)

namespace CpDirectory

def new (name : Name) : CpDirectory := ⟨name, 0, none, none, []⟩

def statFiles : Nat → CpDirectory → List Entry → CpDirectory
  | _, d, [] => d
  | n, d, e :: es =>
    let f : LogFile := ⟨n, e.baseName, e.type, e.time, e.size, false, 0⟩
    statFiles (n + 1)
      { d with logFiles := insertAscending d.logFiles f, size := d.size + e.size } es

def stat (n : Nat) (name : Name) (es : List Entry) : CpDirectory := statFiles n (new name) es

def has (d : CpDirectory) (id : Nat) : Bool := d.logFiles.any fun f => f.id = id

def onFile (id : Nat) (g : LogFile → Option (LogFile × SizeCall × β)) (d : CpDirectory) :
    Option (CpDirectory × SizeCall × β) :=
  (onFirst (fun f => f.id = id) g d.logFiles).map fun r =>
    ({ d with logFiles := r.1, size := r.2.1.apply d.size }, r.2)

def getFileTypeNum (d : CpDirectory) (t : LogType) : Nat :=
  (d.logFiles.filter fun f => f.type = t).length

/-- Here `now` is the local time, if there is one, and `opened` tells whether the file can be opened. -/
def createLogFile (id : Nat) (now : Option FileTime) (opened : Bool) (d : CpDirectory) :
    CpDirectory × Option Nat :=
  match now with
  | none => (d, none)
  | some lt =>
    let name := ('0' :: '-' :: d.name ++ '-' :: lt.text '_' ++ ['.', 'l', 'o', 'g']).take 63
    if opened then
      ({ d with
          startLog := if d.getFileTypeNum .log = 0 then some id else d.startLog
          curLog := some id
          logFiles := d.logFiles ++ [LogFile.created id name .log lt] }, some id)
    else (d, none)

def createFile (id : Nat) (fname : Name) (t : LogType) (opened : Bool) (d : CpDirectory) :
    CpDirectory × Option Nat :=
  if opened then
    ({ d with logFiles := d.logFiles ++ [LogFile.created id fname t .zero] }, some id)
  else (d, none)

def closeLogFile (d : CpDirectory) : Option CpDirectory :=
  d.curLog.bind fun id =>
    (d.onFile id fun f => some (f.close, .none, ())).map fun r => { r.1 with curLog := none }

def rotate (renamed : Nat → Bool) (d : CpDirectory) : CpDirectory :=
  { d with logFiles := d.logFiles.map fun f =>
      if f.type = .log then f.rotate (renamed f.id) else f }

def startLogNum (d : CpDirectory) (start : Nat) : Option Nat :=
  (d.logFiles.find? fun f => f.id ≠ start ∧ f.type = .log).bind fun f =>
    (parseLogFileNum f.baseName).map fun r => (r.1 + 1) % 2 ^ 32

def renameStartLog (renamed : Nat → Bool) (d : CpDirectory) : CpDirectory :=
  match d.startLog with
  | none => d
  | some start =>
    match d.startLogNum start with
    | none => d
    | some num => { d with logFiles := d.logFiles.map fun f =>
        if f.id = start then f.changeNameNum num (renamed f.id) else f }

def trim (unlink : Nat → Bool) (sz : Nat) (d : CpDirectory) : CpDirectory × Nat :=
  let r := trimFiles (fun _ => false) unlink sz d.logFiles
  ({ d with logFiles := r.1, size := d.size - r.2 }, r.2)

def keeps (d : CpDirectory) (f : LogFile) : Bool :=
  d.startLog = some f.id ∨ d.curLog = some f.id ∨ f.type = .version

def trimWorkingDir (unlink renamed : Nat → Bool) (sz : Nat) (d : CpDirectory) :
    CpDirectory × Nat :=
  let r := trimFiles d.keeps unlink sz d.logFiles
  (({ d with logFiles := r.1, size := d.size - r.2 }).renameStartLog renamed, r.2)

def takeOut (id : Nat) (d : CpDirectory) : Option (LogFile × List LogFile) :=
  (d.logFiles.find? fun f => f.id = id).map fun f =>
    (f, d.logFiles.eraseP fun f => f.id = id)

/-- The overload `remove(LogFile*)`; what `unlink` returns is not looked at. -/
def remove (id : Nat) (d : CpDirectory) : CpDirectory × SizeCall :=
  match d.takeOut id with
  | none => (d, .none)
  | some (f, rest) => ({ d with logFiles := rest, size := d.size - f.size }, .decSize f.size)

/-- The size of the removed file is taken off here, but the set above is not told. -/
def fileRemoved (id : Nat) (d : CpDirectory) : CpDirectory × SizeCall :=
  match d.takeOut id with
  | none => (d, .none)
  | some (f, rest) =>
    ({ d with
        logFiles := rest
        size := d.size - f.size
        startLog := if d.startLog = some id then none else d.startLog }, .none)

end CpDirectory

end SprdVendor.SlogModem
