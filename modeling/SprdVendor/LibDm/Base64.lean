import SprdVendor.Lib.Bytes

namespace SprdVendor.LibDm
open Lib

def encodeTable : List UInt8 :=
  ("ABCDEFGHIJKLMNOPQRSTUVWXYZ" ++ "abcdefghijklmnopqrstuvwxyz" ++ "0123456789+/" ++
    "=").toList.map fun c => UInt8.ofNat c.toNat

def maxColumns : Nat := 45

/-- A write behind the allocated buffer or the buffer of the caller, a read outside the data, a loop
without end. -/
inductive EncodeFault where
  | target | creddata | source | endless
deriving DecidableEq, Repr

/-- The variables of `mmidm_base64Encode`; `source` is the distance of `pbSourceData` from `pbData`,
and `pbTarget` has advanced by `copySize`. -/
structure Encoder where
  target : List UInt8
  copySize : Nat
  targetSize : Nat
  source : Nat
  dataProcessed : Nat
  offset : Nat
  iSave : Nat
  saveBytes : Option (List UInt8)
deriving DecidableEq

def Encoder.put (s : Encoder) (bytes : List UInt8) : Except EncodeFault Encoder :=
  if s.copySize + bytes.length ≤ s.target.length then
    .ok { s with
      target := patch s.target s.copySize bytes
      copySize := s.copySize + bytes.length
      targetSize := s.targetSize - bytes.length }
  else .error .target

def Encoder.hasSaved (s : Encoder) : Bool :=
  match s.saveBytes with
  | some (n :: _) => n != 0
  | _ => false

def Encoder.takeSaved (s : Encoder) : Except EncodeFault (UInt8 × Encoder) :=
  match s.saveBytes with
  | none => .error .source
  | some saved =>
    match saved[s.iSave]? with
    | none => .error .source
    | some byt =>
      .ok (byt, { s with
        iSave := s.iSave + 1
        saveBytes := some (saved.set 0 (saved.getD 0 0 - 1)) })

def Encoder.nextByte (data : List UInt8) (s : Encoder) : Except EncodeFault (UInt8 × Encoder) :=
  if s.hasSaved then s.takeSaved
  else
    match data[s.source]? with
    | none => .error .source
    | some byt => .ok (byt, { s with source := s.source + 1, dataProcessed := s.dataProcessed - 1 })

def Encoder.count (s : Encoder) : Encoder := { s with offset := s.offset + 1 }

def quad (i0 i1 i2 i3 : Nat) : List UInt8 := [i0, i1, i2, i3].map fun i => encodeTable.getD i 0

def lineFull (offset : Nat) : Bool := 0 < offset && offset % maxColumns == 0

def lineBreak (offset : Nat) : List UInt8 := if lineFull offset then [13, 10] else []

def encodeGroup (data : List UInt8) (s : Encoder) : Except EncodeFault Encoder := do
  let (byt, s) ← s.nextByte data
  let i0 := byt.toNat >>> 2
  let i1 := (byt.toNat &&& 0x03) <<< 4
  let s := s.count
  if 0 < s.dataProcessed then do
    let (byt, s) ← s.nextByte data
    let i1 := i1 + byt.toNat >>> 4
    let i2 := (byt.toNat &&& 0x0F) <<< 2
    let s := s.count
    if 0 < s.dataProcessed then do
      let (byt, s) ← s.nextByte data
      let i2 := i2 + (byt.toNat &&& 0xC0) >>> 6
      let i3 := byt.toNat &&& 0x3F
      s.count.put (quad i0 i1 i2 i3)
    else s.put (quad i0 i1 i2 64)
  else s.put (quad i0 i1 64 64)

def encodeLoop (data : List UInt8) (bLast : Nat) : Nat → Encoder → Except EncodeFault Encoder
  | 0, _ => .error .endless
  | fuel + 1, s =>
    if 4 ≤ s.targetSize ∧
        ((3 ≤ s.dataProcessed ∧ bLast = 0) ∨ (0 < s.dataProcessed ∧ bLast = 1)) then
      if lineFull s.offset ∧ s.targetSize < 6 then .ok s
      else do
        let s ← s.put (lineBreak s.offset)
        let s ← encodeGroup data s
        encodeLoop data bLast fuel s
    else .ok s

/-- The last saved bytes when there are no data. The second byte is taken even when only one was
saved. -/
def encodeSaved (s : Encoder) : Except EncodeFault Encoder := do
  let s ← s.put (lineBreak s.offset)
  let (byt, s) ← s.takeSaved
  let i0 := byt.toNat >>> 2
  let i1 := (byt.toNat &&& 0x03) <<< 4
  let (byt, s) ← s.count.takeSaved
  let i1 := i1 + byt.toNat >>> 4
  let i2 := (byt.toNat &&& 0x0F) <<< 2
  s.put (quad i0 i1 i2 0)

def saveRest (data : Option (List UInt8)) (s : Encoder) : Except EncodeFault Encoder :=
  match s.saveBytes with
  | none => .ok s
  | some saved =>
    let rest := ((data.getD []).drop s.source).take s.dataProcessed
    if rest.length = s.dataProcessed ∧ rest.length + 1 ≤ saved.length then
      .ok { s with
        saveBytes := some (patch saved 0 (UInt8.ofNat s.dataProcessed :: rest))
        source := s.source + s.dataProcessed
        dataProcessed := 0 }
    else .error .source

def shiftRest (data : List UInt8) (s : Encoder) : List UInt8 :=
  patch data 0 ((data.drop s.source).take s.dataProcessed)

def base64Encode (target : List UInt8) (targetSize : Nat) (data : Option (List UInt8))
    (dataLength offset bLast : Nat) (saveBytes : Option (List UInt8)) :
    Except EncodeFault (Encoder × Option (List UInt8)) := do
  let s : Encoder := ⟨target, 0, targetSize, 0, dataLength, offset, 1, saveBytes⟩
  let s ←
    match data with
    | none => if bLast ≠ 0 ∧ s.hasSaved then encodeSaved s else .ok s
    | some data => encodeLoop data bLast (targetSize / 4 + 1) s
  let s ← if bLast = 0 ∧ s.dataProcessed ≤ 2 then saveRest data s else .ok s
  .ok (s, data.map (shiftRest · s))

def writeCred (creddata : List UInt8) (i : Nat) (bytes : List UInt8) :
    Except EncodeFault (List UInt8) :=
  if i + bytes.length ≤ creddata.length then .ok (patch creddata i bytes) else .error .creddata

def digestSize : Nat := 80

/-- `mmidm_calc_b64_cred`: the buffer of the caller afterwards; `unsigned long` has 32 bits. -/
def calcB64Cred (malloc : Nat → Option (List UInt8)) (creddata : List UInt8) (length : Nat) :
    Except EncodeFault (List UInt8) :=
  if length = 0 then writeCred creddata 0 [0]
  else
    match malloc ((length * 2 + 4) % 2 ^ 32) with
    | none => .ok creddata
    | some outputdata => do
      let (s, data) ← base64Encode outputdata digestSize (some creddata) length 0 1
        (some [0, 0, 0, 0])
      if s.copySize < s.target.length then do
        let outputdata := s.target.set s.copySize 0
        let creddata ← writeCred (data.getD []) 0 (outputdata.take s.copySize)
        writeCred creddata s.copySize [0]
      else .error .target

def bJnk : UInt8 := 0o177

def bPad : UInt8 := 0o100

def decodeTable : List UInt8 :=
  List.replicate 43 bJnk ++ [0o76, bJnk, bJnk, bJnk, 0o77] ++
  [0o64, 0o65, 0o66, 0o67, 0o70, 0o71, 0o72, 0o73, 0o74, 0o75] ++
  [bJnk, bJnk, bJnk, bPad, bJnk, bJnk, bJnk] ++
  [0o00, 0o01, 0o02, 0o03, 0o04, 0o05, 0o06, 0o07, 0o10, 0o11, 0o12, 0o13, 0o14, 0o15, 0o16,
    0o17, 0o20, 0o21, 0o22, 0o23, 0o24, 0o25, 0o26, 0o27, 0o30, 0o31] ++
  List.replicate 6 bJnk ++
  [0o32, 0o33, 0o34, 0o35, 0o36, 0o37, 0o40, 0o41, 0o42, 0o43, 0o44, 0o45, 0o46, 0o47, 0o50,
    0o51, 0o52, 0o53, 0o54, 0o55, 0o56, 0o57, 0o60, 0o61, 0o62, 0o63] ++
  List.replicate 133 bJnk

def base64BufLen : Nat := 128

def num : Nat := base64BufLen / 3 * 4 - 4

/-- The variables of `DM_Base64_decode`; `tempDst` is an index of `dst`. -/
structure Decoder where
  e : Nat
  dst : List UInt8
  tempDst : Nat
  cntr : Nat
  dest : List UInt8
  destl : Nat
  rt : Nat
deriving DecidableEq

def Decoder.install (s : Decoder) (c : UInt8) : Decoder :=
  { s with dst := s.dst.set s.tempDst c }

def Decoder.complete (s : Decoder) (c : UInt8) : Decoder :=
  { s with dst := s.dst.set s.tempDst (s.dst.getD s.tempDst 0 ||| c), tempDst := s.tempDst + 1 }

def Decoder.flush (s : Decoder) : Option Decoder :=
  if s.destl < s.tempDst then none
  else some { s with
    destl := s.destl - s.tempDst
    dest := patch s.dest s.rt (s.dst.take s.tempDst)
    rt := s.rt + s.tempDst
    dst := List.replicate base64BufLen 0
    tempDst := 0 }

def Decoder.flushRest (s : Decoder) : Option Decoder :=
  if s.tempDst = 0 then some s else s.flush

def Decoder.char (s : Decoder) (c : UInt8) : Option Decoder :=
  match s.e with
  | 0 => some { s.install (c <<< 2) with e := 1 }
  | 1 => some { (s.complete (c >>> 4)).install (c <<< 4) with e := 2 }
  | 2 => some { (s.complete (c >>> 2)).install (c <<< 6) with e := 3 }
  | 3 =>
    let s := { s.complete c with e := 0, cntr := s.cntr + 4 }
    if s.cntr = num then s.flush.map fun s => { s with cntr := 0 } else some s
  | e => some { s with e := e + 1 }

def decodeLoop : List UInt8 → Decoder → Option Decoder
  | [], s => some s
  | ch :: src, s =>
    let c := decodeTable.getD ch.toNat bJnk
    if c = bJnk then decodeLoop src s
    else if c = bPad then
      match s.e with
      -- the rest is read and ignored, up to its first valid character
      | 3 => { s with e := 4 }.flushRest
      | 2 => if src.head? = some 61 then decodeLoop src { s with e := 3 } else none
      | _ => none
    else do
      let s ← s.char c
      decodeLoop src s

def Decoder.finish (s : Decoder) : Option (Nat × List UInt8) := do
  let s ← s.flushRest
  if s.destl < 1 then none else some (s.rt, patch s.dest s.rt [0])

/-- `DM_Base64_decode`: what it returns unless that is -1, and the destination. -/
def base64Decode (src dest : List UInt8) (destl : Nat) : Option (Nat × List UInt8) :=
  decodeLoop src ⟨0, List.replicate base64BufLen 0, 0, 0, dest, destl, 0⟩ >>= Decoder.finish

end SprdVendor.LibDm
