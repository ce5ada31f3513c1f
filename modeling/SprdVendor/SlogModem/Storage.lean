import SprdVendor.SlogModem.Media
import SprdVendor.Lib.Run

namespace SprdVendor.SlogModem
open Lib

inductive MediaType where
  | none
  | internal
  | sdCard
deriving DecidableEq, Repr

/-- The storage handle of one CP; `newDirCb` tells whether it has a callback for new directories. -/
structure CpStorage where
  name : Name
  newDirCb : Bool
  curFile : Option Nat
  shallStop : Bool
deriving DecidableEq, Repr

/-- The storage with its handles; `nextId` is the address that the next object gets. -/
structure StorageManager where
  curType : MediaType
  dataPart : MediaStorage
  sdCard : MediaStorage
  cps : List CpStorage
  nextId : Nat
deriving DecidableEq, Repr

structure MediaEnv where
  hasSd : Bool
  listing : Option Listing
  now : Option FileTime
  mkdir : Bool

structure FileEnv where
  media : MediaEnv
  mkdir : Bool
  opened : Bool

/-- What the callbacks for new directories and new logs find: the length of the version text, if
there is one, and whether there is a time stamp. -/
structure CallbackEnv where
  version : Option Nat
  file : FileEnv
  versionKernel : Kernel
  timestamp : Option Kernel

/-- What `recreate_log_file` finds: the directories that can be accessed and those that can be
created. -/
structure RecreateEnv where
  topDir : Bool
  curSetDir : Bool
  cpDir : Bool
  mkdirTop : Bool
  setNow : Option FileTime
  mkdirSet : Bool
  file : OpenEnv

/-- What the calls of `unlink` and `rename` return for each file. -/
structure TrimEnv where
  unlink : Nat → Bool
  renamed : Nat → Bool

/-- What one `CpStorage::write` finds; `found` tells whether its log file is still there. -/
structure WriteEnv where
  media : MediaEnv
  request : OpenEnv
  found : Bool
  recreate : RecreateEnv
  callback : CallbackEnv
  early : TrimEnv
  kernel : Kernel
  renamed : Nat → Bool
  nextNow : Option FileTime
  nextOpened : Bool
  late : TrimEnv

def timestampSize : Nat := 16

namespace StorageManager

def media (s : StorageManager) : MediaType → Option MediaStorage
  | .none => none
  | .internal => some s.dataPart
  | .sdCard => some s.sdCard

def onMedia (t : MediaType) (g : MediaStorage → Option (MediaStorage × β))
    (s : StorageManager) : Option (StorageManager × β) :=
  match t with
  | .none => none
  | .internal => (g s.dataPart).map fun r => ({ s with dataPart := r.1 }, r.2)
  | .sdCard => (g s.sdCard).map fun r => ({ s with sdCard := r.1 }, r.2)

def mediaOf (s : StorageManager) (id : Nat) : MediaType :=
  if s.dataPart.has id then .internal else if s.sdCard.has id then .sdCard else .none

def onDir (id : Nat) (g : CpDirectory → Option (CpDirectory × SizeCall × β))
    (s : StorageManager) : Option (StorageManager × β) :=
  s.onMedia (s.mediaOf id) (MediaStorage.onDir id g)

def onFile (id : Nat) (g : LogFile → Option (LogFile × SizeCall × β)) (s : StorageManager) :
    Option (StorageManager × β) :=
  s.onDir id (CpDirectory.onFile id g)

/-- Close a file; a deleted object was closed by its destructor and is not closed again. -/
def closeFile (id : Nat) (s : StorageManager) : StorageManager :=
  match s.onFile id fun f => some (f.close, .none, ()) with
  | some r => r.1
  | none => s

def onCp (i : Nat) (g : CpStorage → CpStorage) (s : StorageManager) : StorageManager :=
  { s with cps := s.cps.modify i g }

def setCurFile (i : Nat) (f : Option Nat) (s : StorageManager) : StorageManager :=
  s.onCp i fun c => { c with curFile := f }

def closeCurFile (s : StorageManager) (c : CpStorage) : StorageManager :=
  match c.curFile with
  | some id => s.closeFile id
  | none => s

def stopCp (i : Nat) (s : StorageManager) : StorageManager :=
  match s.cps[i]? with
  | some c => (s.closeCurFile c).setCurFile i none
  | none => s

def stopAllCps (s : StorageManager) : StorageManager :=
  let t := s.cps.foldl closeCurFile s
  { t with cps := t.cps.map fun c => { c with curFile := none } }

def initSdCard (e : MediaEnv) (s : StorageManager) : Option StorageManager :=
  if s.sdCard.inited then some s
  else (s.sdCard.init s.nextId e.listing).map fun r => { s with sdCard := r.1, nextId := r.2 }

def changeTo (t : MediaType) (e : MediaEnv) (s : StorageManager) : StorageManager :=
  match t with
  | .none => s
  | .internal =>
    { s with
      dataPart := s.dataPart.createCpSet s.nextId e.now e.mkdir
      nextId := s.nextId + 1
      curType := .internal }
  | .sdCard =>
    { s with
      sdCard := s.sdCard.createCpSet s.nextId e.now e.mkdir
      nextId := s.nextId + 1
      curType := .sdCard }

/-- The result is true when the media changed, also when the SD card cannot be scanned. -/
def checkMediaChange (e : MediaEnv) (s : StorageManager) : StorageManager × Bool :=
  if e.hasSd then
    if s.curType = .sdCard then (s, false)
    else
      let s := if s.curType = .internal then s.stopAllCps else s
      match s.initSdCard e with
      | none => (s, true)
      | some s => (s.changeTo .sdCard e, true)
  else if s.curType = .internal then (s, false)
  else
    let s := if s.curType = .sdCard then s.stopAllCps else s
    (s.changeTo .internal e, true)

def inCurSet (t : MediaType) (g : Nat → CpSetDirectory → CpSetDirectory × β)
    (s : StorageManager) : Option (StorageManager × β) :=
  (s.onMedia t (MediaStorage.onCurSet (g s.nextId))).map fun r =>
    ({ r.1 with nextId := s.nextId + 1 }, r.2)

def requestFile (name : Name) (e : OpenEnv) (s : StorageManager) :
    Option (StorageManager × Option Nat) :=
  if s.curType = .none then some (s, none)
  else s.inCurSet s.curType fun id => CpSetDirectory.newLogFile id name e

def createFile (name fname : Name) (t : LogType) (e : FileEnv) (s : StorageManager) :
    Option (StorageManager × Option Nat) :=
  let s := (s.checkMediaChange e.media).1
  if s.curType = .none then some (s, none)
  else s.inCurSet s.curType fun id => CpSetDirectory.createFile id name fname t e.mkdir e.opened

def saveVersion (name : Name) (e : CallbackEnv) (s : StorageManager) : Option StorageManager :=
  match e.version with
  | none => some s
  | some len =>
    (s.createFile name (name ++ ".version".toList) .version e.file).bind fun r =>
      match r.2 with
      | none => some r.1
      | some id => (r.1.onFile id fun f => f.write len e.versionKernel).map fun q =>
          q.1.closeFile id

def saveTimestamp (f : Option Nat) (e : CallbackEnv) (s : StorageManager) :
    Option StorageManager :=
  match e.timestamp with
  | none => some s
  | some k => f.bind fun id =>
      (s.onFile id fun f => f.write timestampSize k).map fun r => r.1

def newLog (i : Nat) (newDir : Bool) (e : CallbackEnv) (s : StorageManager) :
    Option StorageManager :=
  s.cps[i]?.bind fun c =>
    (if newDir ∧ c.newDirCb then s.saveVersion c.name e else some s).bind fun s =>
      s.cps[i]?.bind fun c => s.saveTimestamp c.curFile e

def checkDirs (t : MediaType) (e : RecreateEnv) (s : StorageManager) :
    Option (StorageManager × Bool) :=
  if e.topDir = false then
    s.stopAllCps.onMedia t fun m => some (m.clear, e.mkdirTop)
  else if e.curSetDir = false then
    s.stopAllCps.onMedia t fun m => m.dropCurSet.map fun m => (m, true)
  else s.onMedia t fun m => m.curSet.map fun _ => (m, true)

def createCpFile (t : MediaType) (name : Name) (e : RecreateEnv) (s : StorageManager) :
    Option (StorageManager × Option Nat) :=
  (s.onMedia t fun m => some (m.createCpSet s.nextId e.setNow e.mkdirSet, ())).bind fun r =>
    let s := { r.1 with nextId := s.nextId + 1 }
    (s.media t).bind fun m =>
      if m.curSet = none then some (s, none)
      else s.inCurSet t fun id => CpSetDirectory.newLogFile id name e.file

def recreateLogFile (t : MediaType) (name : Name) (e : RecreateEnv) (s : StorageManager) :
    Option (StorageManager × Option (Nat × Bool)) :=
  (s.checkDirs t e).bind fun r =>
    if r.2 = false then some (r.1, none)
    else (r.1.media t).bind fun m =>
      if m.curSet = none then
        (r.1.createCpFile t name e).map fun q => (q.1, q.2.map fun f => (f, true))
      else r.1.inCurSet t fun id => CpSetDirectory.recreateLogFile id name e.cpDir e.file

def replaceFile (i id : Nat) (name : Name) (e : WriteEnv) (s : StorageManager) :
    Option (StorageManager × Bool) :=
  let t := s.mediaOf id
  (s.onMedia t (MediaStorage.fileRemoved id)).bind fun r =>
    (r.1.recreateLogFile t name e.recreate).bind fun r =>
      match r.2 with
      | none => some (r.1.setCurFile i none, false)
      | some (f, newDir) =>
        ((r.1.setCurFile i (some f)).newLog i newDir e.callback).map fun s => (s, true)

def openFile (i : Nat) (name : Name) (e : WriteEnv) (s : StorageManager) :
    Option (StorageManager × Bool) :=
  (s.requestFile name e.request).bind fun r =>
    match r.2 with
    | none => some (r.1, false)
    | some f => ((r.1.setCurFile i (some f)).newLog i true e.callback).map fun s => (s, true)

def prepare (i : Nat) (e : WriteEnv) (s : StorageManager) : Option (StorageManager × Bool) :=
  let r := s.checkMediaChange e.media
  let s := if r.2 then r.1.stopCp i else r.1
  s.cps[i]?.bind fun c =>
    match c.curFile with
    | none => s.openFile i c.name e
    | some id =>
      if e.found then if s.mediaOf id = .none then none else some (s, true)
      else s.replaceFile i id c.name e

def changeFile (i id size : Nat) (e : WriteEnv) (s : StorageManager) : Option StorageManager :=
  (s.media s.curType).bind fun ms =>
    if ms.fileLimit ≤ size then
      (s.onDir id fun d => d.closeLogFile.map fun d =>
          let r := (d.rotate e.renamed).createLogFile s.nextId e.nextNow e.nextOpened
          (r.1, .none, r.2)).bind fun r =>
        r.2.map fun f => { r.1 with nextId := s.nextId + 1 }.setCurFile i (some f)
    else some s

def stopIfFull (i : Nat) (room : Bool) (s : StorageManager) : Option StorageManager :=
  if room then some s
  else s.cps[i]?.bind fun c => c.curFile.bind fun id =>
    ((s.onCp i fun c => { c with shallStop := true }).onFile id fun f =>
      some (f.flush, .none, ())).map fun r => r.1

def makeRoom (i : Nat) (c : CpStorage) (e : TrimEnv) (s : StorageManager) :
    Option (StorageManager × Bool) :=
  if c.shallStop then
    (s.onMedia s.curType (MediaStorage.checkQuota e.unlink e.renamed)).map fun r =>
      (if r.2 then r.1.onCp i fun c => { c with shallStop := false } else r.1, r.2)
  else some (s, true)

def afterWrite (i id size : Nat) (n : Int) (e : WriteEnv) (s : StorageManager) :
    Option StorageManager :=
  if 0 < n then
    (s.changeFile i id size e).bind fun s =>
      (s.onMedia s.curType (MediaStorage.checkQuota e.late.unlink e.late.renamed)).bind fun r =>
        r.1.stopIfFull i r.2
  else if n = -2 then
    (s.onMedia s.curType (MediaStorage.processDiskFull e.late.unlink e.late.renamed)).bind fun r =>
      r.1.stopIfFull i r.2
  else some s

def writeCurFile (i len : Nat) (e : WriteEnv) (s : StorageManager) :
    Option (StorageManager × Int) :=
  s.cps[i]?.bind fun c => c.curFile.bind fun id =>
    (s.makeRoom i c e.early).bind fun r =>
      if r.2 = false then some (r.1, -1)
      else
        (r.1.onFile id fun f =>
            (f.write len e.kernel).map fun w => (w.1, w.2.1, w.1.size, w.2.2)).bind fun w =>
          (w.1.afterWrite i id w.2.1 w.2.2 e).map fun s => (s, w.2.2)

def write (i len : Nat) (e : WriteEnv) (s : StorageManager) : Option (StorageManager × Int) :=
  (s.prepare i e).bind fun r => if r.2 then r.1.writeCurFile i len e else some (r.1, -1)

def clear (s : StorageManager) : StorageManager :=
  let s := s.stopAllCps
  { s with dataPart := s.dataPart.clear, sdCard := s.sdCard.clear, curType := .none }

def init (listing : Option Listing) (sd : Option (Option Listing)) : Option StorageManager :=
  (MediaStorage.new.init 0 listing).bind fun d =>
    match sd with
    | none => some ⟨.none, d.1, .new, [], d.2⟩
    | some listing => (MediaStorage.new.init d.2 listing).map fun c => ⟨.none, d.1, c.1, [], c.2⟩

end StorageManager

inductive StorAct where
  | write (cp len : Nat) (e : WriteEnv)
  | createFile (cp : Nat) (fname : Name) (t : LogType) (e : FileEnv)
  | fileWrite (id len : Nat) (k : Kernel)
  | fileCopy (id : Nat) (src : Option (List (Int × Int)))
  | fileDiscard (id : Nat)
  | fileClose (id : Nat)
  | fileRemove (id : Nat)
  | createStorage (name : Name) (newDirCb : Bool)
  | deleteStorage (cp : Nat)
  | clear
  | setFileSizeLimit (sz : Nat)
  | setDataPartLimit (sz : Nat)
  | setSdLimit (sz : Nat)
  | setOverwrite (ow : Bool)

namespace StorageManager

def step (s : StorageManager) : StorAct → Option StorageManager
  | .write cp len e => (s.write cp len e).map fun r => r.1
  | .createFile cp fname t e =>
    s.cps[cp]?.bind fun c => (s.createFile c.name fname t e).map fun r => r.1
  | .fileWrite id len k => (s.onFile id fun f => f.write len k).map fun r => r.1
  | .fileCopy id src => (s.onFile id fun f => f.copy src).map fun r => r.1
  | .fileDiscard id => (s.onFile id fun f => some f.discard).map fun r => r.1
  | .fileClose id => (s.onFile id fun f => some (f.close, .none, ())).map fun r => r.1
  | .fileRemove id => (s.onDir id fun d =>
      let r := d.remove id
      some (r.1, r.2, ())).map fun r => r.1
  | .createStorage name cb => some { s with cps := s.cps ++ [⟨name, cb, none, false⟩] }
  | .deleteStorage cp =>
    s.cps[cp]?.map fun c => { s.closeCurFile c with cps := s.cps.eraseIdx cp }
  | .clear => some s.clear
  | .setFileSizeLimit sz =>
    some { s with
      dataPart := { s.dataPart with fileLimit := sz }
      sdCard := { s.sdCard with fileLimit := sz } }
  | .setDataPartLimit sz => some { s with dataPart := { s.dataPart with limit := sz } }
  | .setSdLimit sz => some { s with sdCard := { s.sdCard with limit := sz } }
  | .setOverwrite ow =>
    some { s with
      dataPart := { s.dataPart with overwrite := ow }
      sdCard := { s.sdCard with overwrite := ow } }

end StorageManager

end SprdVendor.SlogModem
