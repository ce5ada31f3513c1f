import SprdVendor.NvItem.Common

namespace SprdVendor.NvItem
open Lib List

/-- The dirty bits of one buffer, one bit for a sector. -/
structure DirtyTable where
  words : List (BitVec 32)
  length_words : words.length = dirtyTableMaxSize
deriving DecidableEq

def DirtyTable.clean : DirtyTable := ⟨List.replicate dirtyTableMaxSize 0, List.length_replicate⟩

def DirtyTable.union (t t' : DirtyTable) : DirtyTable :=
  ⟨List.zipWith (· ||| ·) t.words t'.words, by
    rw [List.length_zipWith, t.length_words, t'.length_words, Nat.min_self]⟩

def DirtyTable.hasDirty (t : DirtyTable) : Bool := t.words.any (· != 0)

def shrMask [Target] (n : Nat) : BitVec 32 :=
  if n < 32 then BitVec.allOnes 32 >>> n else Target.shr32

/-- The loop of `_markDirtyInfo` over the words from the first marked one on. There is no
result when the loop leaves the table. -/
def markWords [Target] : List (BitVec 32) → (bits scts : Nat) → Option (List (BitVec 32))
  | [], _, _ => none
  | w :: ws, bits, scts =>
    if 32 - bits < scts then
      (markWords ws 0 (scts - (32 - bits))).map ((w ||| BitVec.allOnes 32 <<< bits) :: ·)
    else some ((w ||| shrMask (32 - scts) <<< bits) :: ws)

theorem length_markWords [Target] (h : markWords ws bits scts = some vs) :
    vs.length = ws.length := by
  induction ws generalizing bits scts vs with
  | nil => cases h
  | cons w ws ih =>
    rw [markWords] at h
    split at h
    · obtain ⟨us, hu, he⟩ := Option.map_eq_some_iff.1 h
      rw [← he, length_cons, length_cons, ih hu]
    · cases h
      rfl

def DirtyTable.markDirtyInfo [Target] (t : DirtyTable) (start scts : Nat) : Option DirtyTable :=
  match h : markWords (t.words.drop (start / 32)) (start % 32) scts with
  | none => none
  | some ws => some ⟨t.words.take (start / 32) ++ ws, by
      rw [List.length_append, length_markWords h, ← List.length_append, List.take_append_drop,
        t.length_words]⟩

structure BufCtrl where
  diskbuf : List UInt8
  dirty : DirtyTable
  checksum : Nat
deriving DecidableEq

def BufCtrl.image (c : BufCtrl) (n : Nat) : List UInt8 := c.diskbuf.take n

/-- On a mismatch the source also asks the kernel for a crash dump and then goes on with the
answer modelled here. -/
def BufCtrl.chkNVBufEcc (c : BufCtrl) (n : Nat) : Bool := chkNVEcc c.diskbuf n c.checksum

def BufCtrl.copyFrom (c src : BufCtrl) (n : Nat) (dirty : DirtyTable) : BufCtrl :=
  let diskbuf := patch c.diskbuf 0 (src.image n)
  ⟨diskbuf, dirty, calcChecksum (diskbuf.take n)⟩

structure Part where
  partId : Nat
  sctNum : Nat
  fromChannel : BufCtrl
  backup : BufCtrl
  toDisk : BufCtrl
deriving DecidableEq

def Part.key (p : Part) : Nat × Nat := (p.partId, p.sctNum)

def Part.bytes (p : Part) : Nat := sectSize * p.sctNum

def Part.markDirtyInfo [Target] (p : Part) (start scts : Nat) : Option Part :=
  (p.fromChannel.dirty.markDirtyInfo start scts).map fun t =>
    { p with fromChannel := { p.fromChannel with dirty := t } }

def Part.ifHasDirty (p : Part) : Bool := p.backup.dirty.hasDirty

/-- There is no result when the copy leaves the allocated buffer. -/
def Part.writeData (p : Part) (start : Nat) (buf : List UInt8) : Option Part :=
  if buf.length ≠ 0 then
    if p.fromChannel.chkNVBufEcc p.bytes then
      if start + buf.length ≤ p.fromChannel.diskbuf.length then
        let diskbuf := patch p.fromChannel.diskbuf start buf
        some { p with
          fromChannel := { p.fromChannel with
            diskbuf := diskbuf, checksum := calcChecksum (diskbuf.take p.bytes) } }
      else none
    else some p
  else some p

def Part.commit (p : Part) : Part :=
  if p.fromChannel.chkNVBufEcc p.bytes then
    { p with
      backup := p.backup.copyFrom p.fromChannel p.bytes
        (p.backup.dirty.union p.fromChannel.dirty) }
  else p

def Part.restoreData (p : Part) : Part :=
  if p.backup.chkNVBufEcc p.bytes then
    { p with fromChannel := p.fromChannel.copyFrom p.backup p.bytes p.backup.dirty }
  else p

def Part.getData (p : Part) : Part :=
  if p.backup.chkNVBufEcc p.bytes then
    { p with
      toDisk := p.toDisk.copyFrom p.backup p.bytes (p.toDisk.dirty.union p.backup.dirty)
      backup := { p.backup with dirty := .clean } }
  else p

def Part.written (p : Part) (ok : Bool) : Part :=
  if ok then { p with toDisk := { p.toDisk with dirty := .clean } } else p

def Part.save (p : Part) (ok : Bool) : Part :=
  if p.ifHasDirty then
    if p.getData.toDisk.chkNVBufEcc p.bytes then p.getData.written ok else p.getData
  else p

def saveToDisk (wr : Nat → Bool) (ctl : List Part) : List Part :=
  ctl.mapIdx fun id p => p.save (wr id)

def getCtlId (ctl : List Part) (partId : Nat) : Option Nat :=
  ctl.findIdx? fun p => p.partId == partId

/-- Apply an operation to the partition with the given index; an index outside the table, as
`(uint32)-1` is, has no result. -/
def onPart (ctl : List Part) (id : Option Nat) (f : Part → Option Part) : Option (List Part) :=
  id.bind fun i => (ctl[i]?).bind fun p => (f p).map fun p' => ctl.set i p'

def backupData (cali : Bool) (wr : Nat → Bool) (ctl : List Part) (id : Option Nat) :
    Option (List Part) :=
  (onPart ctl id fun p => some p.commit).map fun ctl =>
    if cali then saveToDisk wr ctl else ctl

structure NvConfig where
  partId : Nat
  imageSize : Nat
deriving DecidableEq

/-- A partition after `initBuf`: the image and the four spare bytes behind it are the same in
all three buffers, and the checksums cover the configured size. -/
def initPart (cfg : NvConfig) (diskbuf : List UInt8) : Part :=
  let buf : BufCtrl := ⟨diskbuf, .clean, calcChecksum (diskbuf.take cfg.imageSize)⟩
  ⟨cfg.partId, cfg.imageSize / sectSize, buf, buf, buf⟩

def initBuf (cfg : List (NvConfig × List UInt8)) : List Part :=
  cfg.map fun c => initPart c.1 c.2

end SprdVendor.NvItem
