import SprdVendor.NvItem.Buf

namespace SprdVendor.NvItem
open Lib

/-- The value of `sizeof(SYNC_REQ)`: every token takes as many bytes as the longest one, the body. -/
def reqSize : Nat := 20

def syncReqHead : Nat := 0
def syncReqBody : Nat := 1
def syncReqTail : Nat := 2

def packetType (t : List UInt8) : Nat := word t 0
def reqIdx (t : List UInt8) : Nat := word t 4
def tokPartId (t : List UInt8) : Nat := word t 8
def bodyStart (t : List UInt8) : Nat := word t 12
def bodyNum (t : List UInt8) : Nat := word t 16

def tokenBytes (type idx partId start num : Nat) : List UInt8 :=
  toLe 4 type ++ toLe 4 idx ++ toLe 4 partId ++ toLe 4 start ++ toLe 4 num

inductive SyncState where
  | head
  | body
  | data
deriving DecidableEq

/-- The static variables of `nvitem_sync.c`; no `id` stands for `(uint32)-1`. -/
structure Sync where
  state : SyncState
  busy : Bool
  reqFrame : Nat
  reqBuf : List UInt8
  ofst : Nat
  id : Option Nat
  start : Nat
  len : Nat
deriving DecidableEq

def Sync.init (s : Sync) : Sync := ⟨.head, false, 0, s.reqBuf, 0, none, 0, 0⟩

structure Nv where
  ctl : List Part
  sync : Sync
  idxGrp : Nat
  idxSub : Nat
deriving DecidableEq

def Nv.keys (nv : Nv) : List (Nat × Nat) := nv.ctl.map Part.key

inductive Ev where
  | mark (id start num : Nat)
  | copy (id start : Nat) (data : List UInt8)
  | commit (id : Nat)
  | fail
  | rsp (b : Nat)
deriving DecidableEq

/-- In `__getToken` the token buffer is an array of pointers, so the offset into it is scaled. -/
def getToken [Target] (s : Sync) (buf : List UInt8) : Bool × Sync × List UInt8 :=
  if reqSize - s.ofst > buf.length then
    if buf.length ≠ 0 then (false, s, buf)
    else (false, { s with
      reqBuf := patch s.reqBuf (Target.ptrSize * s.ofst) buf, ofst := s.ofst + buf.length }, [])
  else if reqSize - s.ofst = 0 then (true, { s with ofst := 0 }, buf)
  else (true, { s with
    reqBuf := patch s.reqBuf (Target.ptrSize * s.ofst) (buf.take (reqSize - s.ofst)), ofst := 0 },
    buf.drop (reqSize - s.ofst))

inductive SyncRet where
  | cont
  | next
  | done
  | fail
deriving DecidableEq

def syncGetHead [Target] (nv : Nv) (buf : List UInt8) : SyncRet × Nv × List UInt8 :=
  match getToken nv.sync buf with
  | (false, s, buf) => (.cont, { nv with sync := s }, buf)
  | (true, s, buf) =>
    if packetType s.reqBuf ≠ syncReqHead then (.fail, { nv with sync := s }, buf)
    else
      let id := getCtlId nv.ctl (tokPartId s.reqBuf)
      let s := { s with reqFrame := reqIdx s.reqBuf, id := id }
      (if id.isNone then .fail else .next, { nv with sync := s }, buf)

/-- There is no result when `_markDirtyInfo` leaves the dirty table. -/
def syncGetBody [Target] (nv : Nv) (buf : List UInt8) :
    Option (SyncRet × Nv × List UInt8 × List Ev) :=
  match getToken nv.sync buf with
  | (false, s, buf) => some (.cont, { nv with sync := s }, buf, [])
  | (true, s, buf) =>
    if packetType s.reqBuf = syncReqBody then
      if u32 (s.reqFrame + 1) ≠ reqIdx s.reqBuf then some (.fail, { nv with sync := s }, buf, [])
      else
        let start := bodyStart s.reqBuf
        let num := bodyNum s.reqBuf
        (onPart nv.ctl s.id fun p => p.markDirtyInfo start num).map fun ctl =>
          (.next, { nv with
            ctl := ctl
            sync := { s with
              reqFrame := u32 (s.reqFrame + 1)
              start := u32 (start * sectSize)
              len := u32 (num * sectSize) } }, buf, [.mark (s.id.getD 0) start num])
    else if packetType s.reqBuf = syncReqTail then
      if u32 (s.reqFrame + 1) ≠ reqIdx s.reqBuf then some (.fail, { nv with sync := s }, buf, [])
      else some (.done, { nv with sync := { s with reqFrame := u32 (s.reqFrame + 1) } }, buf, [])
    else some (.fail, { nv with sync := s }, buf, [])

def copies (ctl : List Part) (id : Option Nat) (start : Nat) (d : List UInt8) : List Ev :=
  match id.bind (ctl[·]?) with
  | none => []
  | some p =>
    if d.length ≠ 0 ∧ p.fromChannel.chkNVBufEcc p.bytes then [.copy (id.getD 0) start d] else []

/-- There is no result when `writeData` leaves the buffer of the partition. -/
def syncGetData (nv : Nv) (buf : List UInt8) : Option (SyncRet × Nv × List UInt8 × List Ev) :=
  let s := nv.sync
  if s.len ≤ buf.length then
    (onPart nv.ctl s.id fun p => p.writeData s.start (buf.take s.len)).map fun ctl =>
      (.next, { nv with ctl := ctl, sync := { s with start := u32 (s.start + s.len), len := 0 } },
        buf.drop s.len, copies nv.ctl s.id s.start (buf.take s.len))
  else
    (onPart nv.ctl s.id fun p => p.writeData s.start buf).map fun ctl =>
      (.cont, { nv with
        ctl := ctl
        sync := { s with start := u32 (s.start + buf.length), len := s.len - buf.length } },
        [], copies nv.ctl s.id s.start buf)

def syncFailReset (nv : Nv) : Option Nv :=
  if nv.sync.state = .head then some { nv with sync := nv.sync.init }
  else (onPart nv.ctl nv.sync.id fun p => some p.restoreData).map fun ctl =>
    { nv with ctl := ctl, sync := nv.sync.init }

/-- How one turn of the loop of `syncAnalyzer` ends: the loop goes on, it is left, or a tail has
been read and `_syncReset(SYNC_SUC_RESET)` comes next. -/
inductive Iter where
  | next (nv : Nv) (buf : List UInt8) (evs : List Ev)
  | brk (nv : Nv) (evs : List Ev)
  | done (nv : Nv)
deriving DecidableEq

def Nv.setState (nv : Nv) (st : SyncState) : Nv := { nv with sync := { nv.sync with state := st } }

def failBreak (nv : Nv) : Option Iter := (syncFailReset nv).map fun nv => .brk nv [.fail, .rsp 0]

def iter [Target] (nv : Nv) (buf : List UInt8) : Option Iter :=
  match nv.sync.state with
  | .head =>
    match syncGetHead nv buf with
    | (.fail, nv, _) => failBreak nv
    | (.next, nv, buf) => some (.next (nv.setState .body) buf [])
    | (_, nv, _) => some (.brk nv [.rsp 1])
  | .body =>
    match syncGetBody nv buf with
    | none => none
    | some (.fail, nv, _, _) => failBreak nv
    | some (.next, nv, buf, evs) => some (.next (nv.setState .data) buf evs)
    | some (.cont, nv, _, _) => some (.brk nv [.rsp 1])
    | some (.done, nv, _, _) => some (.done nv)
  | .data =>
    match syncGetData nv buf with
    | none => none
    | some (.next, nv, buf, evs) => some (.next (nv.setState .body) buf evs)
    | some (_, nv, _, evs) => some (.brk nv (evs ++ [.rsp 1]))

end SprdVendor.NvItem
