import SprdVendor.SlogModem.CpDir

namespace SprdVendor.SlogModem
open Lib

structure CpSetDirectory where
  id : Nat
  path : Name
  cpDirs : List CpDirectory
  size : Nat
deriving DecidableEq, Repr

/-- What a scan finds in a CP set and on a media, `none` for a directory that cannot be opened. -/
abbrev SetListing := List (Name × Option (List Entry))

abbrev Listing := List (Name × Option SetListing)

structure OpenEnv where
  mkdir : Bool
  now : Option FileTime
  opened : Bool
deriving DecidableEq, Repr

/-- The loop of the three `trim` functions above the files: what is left in the list, `total_dec`
and the amount still to be freed. -/
def trimEach (skip : α → Bool) (t : Nat → α → α × Nat) (empty : α → Bool) :
    Nat → List α → List α × Nat × Nat
  | sz, [] => ([], 0, sz)
  | sz, a :: l =>
    if skip a then
      let r := trimEach skip t empty sz l
      (a :: r.1, r.2)
    else
      let c := t sz a
      let left := if empty c.1 then [] else [c.1]
      if sz ≤ c.2 then (left ++ l, c.2, 0)
      else
        let r := trimEach skip t empty (sz - c.2) l
        (left ++ r.1, c.2 + r.2.1, r.2.2)

def CpDirectory.empty (d : CpDirectory) : Bool := d.logFiles.isEmpty

namespace CpSetDirectory

def empty (s : CpSetDirectory) : Bool := s.cpDirs.isEmpty

def has (s : CpSetDirectory) (id : Nat) : Bool := s.cpDirs.any fun d => d.has id

def statDirs : Nat → CpSetDirectory → SetListing → CpSetDirectory × Nat
  | n, s, [] => (s, n)
  | n, s, (_, none) :: ds => statDirs n s ds
  | n, s, (name, some es) :: ds =>
    let d := CpDirectory.stat n name es
    statDirs (n + es.length) { s with cpDirs := s.cpDirs ++ [d], size := s.size + d.size } ds

def onDir (id : Nat) (g : CpDirectory → Option (CpDirectory × SizeCall × β))
    (s : CpSetDirectory) : Option (CpSetDirectory × SizeCall × β) :=
  (onFirst (fun d => d.has id) g s.cpDirs).map fun r =>
    ({ s with cpDirs := r.1, size := r.2.1.apply s.size }, r.2)

def getCpDir (s : CpSetDirectory) (name : Name) : Option CpDirectory :=
  s.cpDirs.find? fun d => d.name = name

def createCpDir (name : Name) (mkdir : Bool) (s : CpSetDirectory) : CpSetDirectory :=
  match s.getCpDir name with
  | some _ => s
  | none => if mkdir then { s with cpDirs := s.cpDirs ++ [CpDirectory.new name] } else s

def inCpDir (name : Name) (g : CpDirectory → CpDirectory × Option Nat) (s : CpSetDirectory) :
    CpSetDirectory × Option Nat :=
  match onFirst (fun d => d.name = name) (fun d => some (g d)) s.cpDirs with
  | some r => ({ s with cpDirs := r.1 }, r.2)
  | none => (s, none)

def createFile (id : Nat) (cpName fname : Name) (t : LogType) (mkdir opened : Bool)
    (s : CpSetDirectory) : CpSetDirectory × Option Nat :=
  (s.createCpDir cpName mkdir).inCpDir cpName (CpDirectory.createFile id fname t opened)

def newLogFile (id : Nat) (cpName : Name) (e : OpenEnv) (s : CpSetDirectory) :
    CpSetDirectory × Option Nat :=
  (s.createCpDir cpName e.mkdir).inCpDir cpName (CpDirectory.createLogFile id e.now e.opened)

/-- The directory object of a CP goes when its directory is gone; the media is not told. -/
def dropCpDir (cpName : Name) (d : CpDirectory) (s : CpSetDirectory) : CpSetDirectory :=
  { s with cpDirs := s.cpDirs.eraseP fun d => d.name = cpName, size := s.size - d.size }

/-- The set before the new log file is created, and whether the directory of the CP will be new;
`cpDir` tells whether the directory can still be accessed. -/
def findCpDir (cpName : Name) (cpDir : Bool) (s : CpSetDirectory) : CpSetDirectory × Bool :=
  match s.getCpDir cpName with
  | none => (s, true)
  | some d => if cpDir then (s, false) else (s.dropCpDir cpName d, true)

def recreateLogFile (id : Nat) (cpName : Name) (cpDir : Bool) (e : OpenEnv)
    (s : CpSetDirectory) : CpSetDirectory × Option (Nat × Bool) :=
  let c := s.findCpDir cpName cpDir
  let r := c.1.newLogFile id cpName e
  (r.1, r.2.map fun f => (f, c.2))

def trim (unlink : Nat → Bool) (sz : Nat) (s : CpSetDirectory) : CpSetDirectory × Nat :=
  let r := trimEach (fun _ => false) (CpDirectory.trim unlink) CpDirectory.empty sz s.cpDirs
  ({ s with cpDirs := r.1, size := s.size - r.2.1 }, r.2.1)

def trimWorkingDir (unlink renamed : Nat → Bool) (sz : Nat) (s : CpSetDirectory) :
    CpSetDirectory × Nat :=
  let r := trimEach (fun _ => false) (CpDirectory.trimWorkingDir unlink renamed)
    CpDirectory.empty sz s.cpDirs
  ({ s with cpDirs := r.1, size := s.size - r.2.1 }, r.2.1)

end CpSetDirectory

structure MediaStorage where
  inited : Bool
  limit : Nat
  fileLimit : Nat
  overwrite : Bool
  logDirs : List CpSetDirectory
  curSet : Option Nat
  size : Nat
deriving DecidableEq, Repr

def insertSetAscending (s : CpSetDirectory) : List CpSetDirectory → List CpSetDirectory
  | [] => [s]
  | p :: lst => if s.path < p.path then s :: p :: lst else p :: insertSetAscending s lst

namespace MediaStorage

def new : MediaStorage := ⟨false, 0, 512 * 1024 * 1024, true, [], none, 0⟩

def has (m : MediaStorage) (id : Nat) : Bool := m.logDirs.any fun s => s.has id

def statSets : Nat → MediaStorage → Listing → MediaStorage × Nat
  | n, m, [] => (m, n)
  | n, m, (_, none) :: l => statSets n m l
  | n, m, (path, some ds) :: l =>
    let r := CpSetDirectory.statDirs (n + 1) ⟨n, path, [], 0⟩ ds
    statSets r.2
      { m with logDirs := insertSetAscending r.1 m.logDirs, size := m.size + r.1.size } l

/-- There is no `l` when the top directory cannot be created or opened. -/
def init (n : Nat) (l : Option Listing) (m : MediaStorage) : Option (MediaStorage × Nat) :=
  l.map fun l =>
    let r := statSets n m l
    ({ r.1 with inited := true }, r.2)

def onDir (id : Nat) (g : CpDirectory → Option (CpDirectory × SizeCall × β))
    (m : MediaStorage) : Option (MediaStorage × β) :=
  (onFirst (fun s => s.has id) (CpSetDirectory.onDir id g) m.logDirs).map fun r =>
    ({ m with logDirs := r.1, size := r.2.1.apply m.size }, r.2.2)

def fileRemoved (id : Nat) (m : MediaStorage) : Option (MediaStorage × Unit) :=
  m.onDir id fun d =>
    let r := d.fileRemoved id
    some (r.1, r.2, ())

def onCurSet (g : CpSetDirectory → CpSetDirectory × β) (m : MediaStorage) :
    Option (MediaStorage × β) :=
  m.curSet.bind fun c =>
    (onFirst (fun s => s.id = c) (fun s => some (g s)) m.logDirs).map fun r =>
      ({ m with logDirs := r.1 }, r.2)

def createCpSet (id : Nat) (now : Option FileTime) (mkdir : Bool) (m : MediaStorage) :
    MediaStorage :=
  match now with
  | none => m
  | some lt =>
    if mkdir then
      { m with logDirs := m.logDirs ++ [⟨id, lt.text '-', [], 0⟩], curSet := some id }
    else m

def trim (unlink renamed : Nat → Bool) (sz : Nat) (m : MediaStorage) :
    Option (MediaStorage × Nat) :=
  let r := trimEach (fun s => m.curSet = some s.id) (CpSetDirectory.trim unlink)
    CpSetDirectory.empty sz m.logDirs
  let m := { m with logDirs := r.1, size := m.size - r.2.1 }
  if r.2.2 = 0 then some (m, r.2.1)
  else (m.onCurSet (CpSetDirectory.trimWorkingDir unlink renamed r.2.2)).map fun q =>
    ({ q.1 with size := q.1.size - q.2 }, r.2.1 + q.2)

def checkQuota (unlink renamed : Nat → Bool) (m : MediaStorage) : Option (MediaStorage × Bool) :=
  if m.limit = 0 ∨ m.size ≤ m.limit then some (m, true)
  else if m.overwrite = false then some (m, false)
  else (m.trim unlink renamed (m.size - m.limit)).map fun r => (r.1, r.1.size ≤ r.1.limit)

def processDiskFull (unlink renamed : Nat → Bool) (m : MediaStorage) :
    Option (MediaStorage × Bool) :=
  if m.overwrite = false then some (m, false)
  else (m.trim unlink renamed m.fileLimit).map fun r => (r.1, m.fileLimit / 2 ≤ r.2)

def clear (m : MediaStorage) : MediaStorage := { m with logDirs := [], curSet := none, size := 0 }

def dropCurSet (m : MediaStorage) : Option MediaStorage :=
  m.curSet.bind fun c =>
    (m.logDirs.find? fun s => s.id = c).map fun s =>
      { m with
        logDirs := m.logDirs.eraseP fun s => s.id = c
        curSet := none
        size := m.size - s.size }

end MediaStorage

end SprdVendor.SlogModem
