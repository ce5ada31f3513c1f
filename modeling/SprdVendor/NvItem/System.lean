import SprdVendor.Lib.Run
import SprdVendor.NvItem.Fs
import SprdVendor.NvItem.Packet
import SprdVendor.NvItem.BufSound

namespace SprdVendor.NvItem
open Lib

inductive Pass where
  | check (id : Nat)
  | get (id : Nat)
  | write (id : Nat)
deriving DecidableEq

structure Saved where
  next : Option Pass
  ctl : List Part
  disk : Nat → Disk
  wrote : List Nat

/-- One step of `saveToDisk`: the test `__ifHasDirty`, `__getData`, or `ramDisk_Write`, for which
`w` says what becomes of its two files. -/
def Pass.step (w : WriteRes × WriteRes) (ctl : List Part) (disk : Nat → Disk) : Pass → Saved
  | .check id =>
    match ctl[id]? with
    | none => ⟨none, ctl, disk, []⟩
    | some p => ⟨some (if p.ifHasDirty then .get id else .check (id + 1)), ctl, disk, []⟩
  | .get id =>
    match ctl[id]? with
    | none => ⟨some (.write id), ctl, disk, []⟩
    | some p => ⟨some (.write id), ctl.set id p.getData, disk, []⟩
  | .write id =>
    match ctl[id]? with
    | none => ⟨some (.check (id + 1)), ctl, disk, []⟩
    | some p =>
      if p.toDisk.chkNVBufEcc p.bytes then
        let r := ramDiskWrite w.1 w.2 (disk id) (p.toDisk.image p.bytes)
        ⟨some (.check (id + 1)), ctl.set id (p.written r.2), Function.update disk id r.1, [id]⟩
      else ⟨some (.check (id + 1)), ctl, disk, []⟩

/-- Where the sync thread stands: before it reads a packet, in the loop over its bytes, between a
commit and the wake-up of the save thread, in the save pass of calibration mode, before it resets
and answers, or behind a memory fault. -/
inductive Pc where
  | poll
  | parse (buf : List UInt8)
  | notify
  | save (p : Pass)
  | finish
  | crashed
deriving DecidableEq

inductive Saver where
  | idle
  | waiting
  | save (p : Pass)
deriving DecidableEq

/-- The daemon with its two threads. The last four fields are only written: the verdicts of
`_getPacket`, the events, the partitions which the last pass of the save thread wrote, and the
number of its finished passes. -/
structure Sys where
  nv : Nv
  disk : Nat → Disk
  pc : Pc
  saver : Saver
  hist : List Packet
  evs : List Ev
  wrote : List Nat
  passes : Nat

inductive Act where
  | read (b : List UInt8) (beyond : Nat → UInt8)
  | sync (w : WriteRes × WriteRes)
  | saver (w : WriteRes × WriteRes)
  | wake

def Sys.readStep (s : Sys) (b : List UInt8) (beyond : Nat → UInt8) : Sys :=
  let g := getPacket s.nv b beyond
  match accept g.2 g.1 with
  | none => { s with pc := .crashed, hist := s.hist ++ [g.1] }
  | some (.again nv evs) => { s with nv := nv, hist := s.hist ++ [g.1], evs := s.evs ++ evs }
  | some (.parse nv buf) => { s with nv := nv, pc := .parse buf, hist := s.hist ++ [g.1] }

/-- One turn of the loop over the bytes of a packet. The commit of a request belongs to the turn
that reads its tail. -/
def Sys.turn [Target] (s : Sys) (buf : List UInt8) : Sys :=
  if buf = [] then { s with pc := .poll }
  else
    match iter s.nv buf with
    | none => { s with pc := .crashed }
    | some (.next nv buf evs) => { s with nv := nv, pc := .parse buf, evs := s.evs ++ evs }
    | some (.brk nv evs) => { s with nv := nv, pc := .poll, evs := s.evs ++ evs }
    | some (.done nv) =>
      match onPart nv.ctl nv.sync.id fun p => some p.commit with
      | none => { s with pc := .crashed }
      | some ctl => { s with
          nv := { nv with ctl := ctl }
          pc := .notify
          evs := s.evs ++ [.commit (nv.sync.id.getD 0)] }

/-- A signal reaches the save thread only while it waits. -/
def Sys.signal (s : Sys) : Sys :=
  { s with
    pc := .finish
    saver := if s.saver = .waiting then .save (.check 0) else s.saver
    wrote := if s.saver = .waiting then [] else s.wrote }

def Sys.syncStep [Target] (cali : Bool) (w : WriteRes × WriteRes) (s : Sys) : Option Sys :=
  match s.pc with
  | .poll | .crashed => none
  | .parse buf => some (s.turn buf)
  | .notify => some (if cali then { s with pc := .save (.check 0) } else s.signal)
  | .save p =>
    let r := p.step w s.nv.ctl s.disk
    some { s with
      nv := { s.nv with ctl := r.ctl }, disk := r.disk
      pc := match r.next with
        | some p => .save p
        | none => .finish }
  | .finish => some { s with
      nv := { s.nv with sync := s.nv.sync.init }, pc := .poll, evs := s.evs ++ [.rsp 1] }

def Sys.saverStep (w : WriteRes × WriteRes) (s : Sys) : Option Sys :=
  match s.saver with
  | .idle => some { s with saver := .waiting }
  | .waiting => none
  | .save p =>
    let r := p.step w s.nv.ctl s.disk
    match r.next with
    | some p => some { s with
        nv := { s.nv with ctl := r.ctl }, disk := r.disk, saver := .save p
        wrote := s.wrote ++ r.wrote }
    | none => some { s with saver := .idle, passes := s.passes + 1 }

/-- The steps of the two threads in any order. A waiting thread may wake without a signal. -/
def Sys.step [Target] (cali : Bool) (s : Sys) : Act → Option Sys
  | .read b beyond => if s.pc = .poll then some (s.readStep b beyond) else none
  | .sync w => s.syncStep cali w
  | .saver w => s.saverStep w
  | .wake =>
    if s.saver = .waiting then some { s with saver := .save (.check 0), wrote := [] } else none

inductive Sys.Moves [Target] (cali : Bool) (s : Sys) : Act → Sys → Prop where
  | read (b : List UInt8) (beyond : Nat → UInt8) (hp : s.pc = .poll) :
      Moves cali s (.read b beyond) (s.readStep b beyond)
  | turn (buf : List UInt8) (hp : s.pc = .parse buf) : Moves cali s (.sync w) (s.turn buf)
  | saveNow (hp : s.pc = .notify) (hc : cali = true) :
      Moves cali s (.sync w) { s with pc := .save (.check 0) }
  | signal (hp : s.pc = .notify) (hc : cali = false) : Moves cali s (.sync w) s.signal
  | saveHere (p : Pass) (pc : Pc) (hp : s.pc = .save p) (hn : pc = .finish ∨ ∃ p, pc = .save p) :
      Moves cali s (.sync w) { s with
        nv := { s.nv with ctl := (p.step w s.nv.ctl s.disk).ctl }
        disk := (p.step w s.nv.ctl s.disk).disk, pc := pc }
  | finish (hp : s.pc = .finish) : Moves cali s (.sync w) { s with
      nv := { s.nv with sync := s.nv.sync.init }, pc := .poll, evs := s.evs ++ [.rsp 1] }
  | wait (hs : s.saver = .idle) : Moves cali s (.saver w) { s with saver := .waiting }
  | save (p p' : Pass) (hs : s.saver = .save p)
      (hn : (p.step w s.nv.ctl s.disk).next = some p') :
      Moves cali s (.saver w) { s with
        nv := { s.nv with ctl := (p.step w s.nv.ctl s.disk).ctl }
        disk := (p.step w s.nv.ctl s.disk).disk, saver := .save p'
        wrote := s.wrote ++ (p.step w s.nv.ctl s.disk).wrote }
  | saved (p : Pass) (hs : s.saver = .save p) (hn : (p.step w s.nv.ctl s.disk).next = none) :
      Moves cali s (.saver w) { s with saver := .idle, passes := s.passes + 1 }
  | wake (hs : s.saver = .waiting) :
      Moves cali s .wake { s with saver := .save (.check 0), wrote := [] }

theorem Sys.step_moves [Target] {s s' : Sys} (h : s.step cali a = some s') :
    s.Moves cali a s' := by
  cases a with
  | read b beyond =>
    rw [Sys.step] at h
    split at h
    · cases h
      exact .read b beyond ‹_›
    · cases h
  | sync w =>
    rw [Sys.step, Sys.syncStep] at h
    cases hp : s.pc with
    | parse buf =>
      rw [hp] at h
      cases h
      exact .turn buf hp
    | notify =>
      rw [hp] at h
      cases cali with
      | false =>
        cases h
        exact .signal hp rfl
      | true =>
        cases h
        exact .saveNow hp rfl
    | save p =>
      rw [hp] at h
      cases h
      refine .saveHere p _ hp ?_
      split
      · exact .inr ⟨_, rfl⟩
      · exact .inl rfl
    | finish =>
      rw [hp] at h
      cases h
      exact .finish hp
    | _ => rw [hp] at h; cases h
  | saver w =>
    rw [Sys.step, Sys.saverStep] at h
    cases hs : s.saver with
    | idle =>
      rw [hs] at h
      cases h
      exact .wait hs
    | waiting => rw [hs] at h; cases h
    | save p =>
      rw [hs] at h
      dsimp only at h
      cases hn : (p.step w s.nv.ctl s.disk).next with
      | some p' =>
        rw [hn] at h
        cases h
        exact .save p p' hs hn
      | none =>
        rw [hn] at h
        cases h
        exact .saved p hs hn
  | wake =>
    rw [Sys.step] at h
    split at h
    · cases h
      exact .wake ‹_›
    · cases h

/-- How `initBuf` finds a partition: its configuration, its files, the order in which they are
read, what becomes of a repair, and the bytes `malloc` gives behind the image. -/
structure Boot where
  cfg : NvConfig
  disk : Disk
  firstName : Name
  repair : WriteRes
  spare : List UInt8

def Boot.read (b : Boot) : List UInt8 × Disk :=
  ramDiskRead b.firstName b.repair b.cfg.imageSize b.disk

def bootKeys (boots : List Boot) : List (Nat × Nat) :=
  boots.map fun b => (b.cfg.partId, b.cfg.imageSize / sectSize)

def Sys.start [Target] (boots : List Boot) : Sys where
  nv := .init (initBuf (boots.map fun b => (b.cfg, b.read.1 ++ b.spare)))
  disk i := (boots[i]?.map fun b => b.read.2).getD ⟨none, none⟩
  pc := .poll
  saver := .idle
  hist := []
  evs := []
  wrote := []
  passes := 0

theorem start_keys [Target] (boots : List Boot) : (Sys.start boots).nv.keys = bootKeys boots := by
  simp only [Sys.start, Nv.init, initPacket, Nv.keys, initBuf, List.map_map]
  rfl

theorem boots_fit {boots : List Boot} (hb : ∀ b ∈ boots, b.cfg.imageSize % sectSize = 0) :
    ∀ c ∈ boots.map fun b => (b.cfg, b.read.1 ++ b.spare), NvConfig.Fits c := by
  intro c hc
  obtain ⟨b, hm, rfl⟩ := List.mem_map.1 hc
  refine ⟨hb b hm, ?_⟩
  rw [List.length_append, Boot.read, length_ramDiskRead]
  exact Nat.le_add_right _ _

theorem Boot.backupImage_initPart (b : Boot) (hb : b.cfg.imageSize % sectSize = 0) :
    (initPart b.cfg (b.read.1 ++ b.spare)).backupImage = b.read.1 := by
  have hd : sectSize * (b.cfg.imageSize / sectSize) = b.read.1.length := by
    rw [Boot.read, length_ramDiskRead]
    exact Nat.mul_div_cancel' (Nat.dvd_of_mod_eq_zero hb)
  change (b.read.1 ++ b.spare).take (sectSize * (b.cfg.imageSize / sectSize)) = b.read.1
  rw [hd, List.take_left]

def oneSectorBoot : Boot :=
  let file := some (stored (List.replicate 512 0))
  ⟨⟨1, 512⟩, ⟨file, file⟩, .image, .noOpen, List.replicate 4 0⟩

def otherBoot : Boot := { oneSectorBoot with cfg := ⟨2, 512⟩ }

def syncAct : Act := .sync (.noOpen, .noOpen)

def saverAct : Act := .saver (.wrote 512 512, .wrote 512 512)

end SprdVendor.NvItem
