import SprdVendor.Jpeg.Bitstream

namespace SprdVendor.Jpeg
open Lib
open SprdVendor.Lib.Procedure (request halt haltIf look update times untilNone)

def mSof0 : UInt8 := 0xc0
def mSof1 : UInt8 := 0xc1
def mSof2 : UInt8 := 0xc2
def mDht : UInt8 := 0xc4
def mSoi : UInt8 := 0xd8
def mEoi : UInt8 := 0xd9
def mSos : UInt8 := 0xda
def mDqt : UInt8 := 0xdb
def mDri : UInt8 := 0xdd
def mApp0 : UInt8 := 0xe0

/-- SOF3, 5 to 7, 9 to 11 and 13 to 15, JPG, DAC, RST0 to RST7 and TEM. -/
def unexpected : List UInt8 :=
  [0xc3, 0xc5, 0xc6, 0xc7, 0xc8, 0xc9, 0xca, 0xcb, 0xcd, 0xce, 0xcf, 0xcc,
    0xd0, 0xd1, 0xd2, 0xd3, 0xd4, 0xd5, 0xd6, 0xd7, 0x01]

inductive Arr where
  | compInfo | tblMap | compIdMap | quantTbl | quantPtr | huffTbl | bits | huffval
  deriving DecidableEq

/-- How a run ends early: `JPEG_FAILED`, a store outside its array or a read through a null
pointer, behind which C leaves the run undefined, or a loop that was cut short. -/
inductive Stop where
  | failed
  | outside (arr : Arr) (i : Nat)
  | nullTable
  | noFuel
  deriving DecidableEq

inductive YuvFormat where
  | yuv420 | yuv411 | yuv444 | yuv422 | yuv400 | yuv422R | yuv411R
  deriving DecidableEq

inductive Quality where
  | low | middleLow | middle | middleHigh | high
  deriving DecidableEq

structure ComponentInfo where
  componentId : UInt8 := 0
  componentIndex : UInt8 := 0
  hSampFactor : UInt8 := 0
  vSampFactor : UInt8 := 0
  mcuWidth : Nat := 0
  mcuHeight : Nat := 0
  deriving DecidableEq

structure TblMap where
  dcHuffTblId : UInt8 := 0
  acHuffTblId : UInt8 := 0
  quantTblId : UInt8 := 0
  deriving DecidableEq

structure HuffTbl where
  bits : Fin 17 → UInt8 := fun _ => 0
  huffval : Fin 257 → UInt8 := fun _ => 0

structure HuffTbls where
  dc : Fin 4 → HuffTbl := fun _ => {}
  ac : Fin 4 → HuffTbl := fun _ => {}

structure DecInput where
  progressiveMode : Bool
  inputWidth : Nat
  inputHeight : Nat
  inputMcuInfo : YuvFormat
  quantLevel : Quality
  deriving DecidableEq

/-- What the parser records, as `JPEG_FWParseHead` clears it. The Huffman tables are null pointers
until `g_huff_tbl_malloced`. -/
structure Header where
  input : DecInput
  numComponents : UInt8 := 0
  compInfo : List ComponentInfo := []
  tblMap : Fin 3 → TblMap := fun _ => {}
  compsInScan : UInt8 := 0
  compIdMap : Fin 3 → UInt8 := fun _ => 0
  ss : UInt8 := 0
  se : UInt8 := 0
  ah : UInt8 := 0
  al : UInt8 := 0
  inputScanNumber : UInt8 := 0
  nextRestartNum : Nat := 0
  restartInterval : Nat := 0x3ffff
  restartToGo : Nat := 0x3ffff
  usingDefaultHuffTab : Bool := true
  usingDefaultQuantTab : Bool := true
  quantTbl : Fin 3 → Option (Fin 64 → UInt8) := fun _ => none
  huffTbls : Option HuffTbls := none

abbrev Parser (α : Type) : Type := Procedure Request Answer Stop Header α

def getChar : Parser UInt8 := do
  let c : Option UInt8 ← (request Request.getChar : Parser (Answer .getChar))
  match c with
  | some c => pure c
  | none => halt .failed

def getShortWord : Parser Nat := do
  let value0 ← getChar
  let value1 ← getChar
  pure (value0.toNat * 256 + value1.toNat)

def extraMemAlloc (size : Nat) : Parser Unit :=
  (request (Request.extraMemAlloc size) : Parser (Answer (.extraMemAlloc size)))

def handle (marker : UInt8) : Parser Unit :=
  (request (Request.handle marker) : Parser (Answer (.handle marker)))

def inside (arr : Arr) (n i : Nat) : Parser (Fin n) :=
  if h : i < n then pure ⟨i, h⟩ else halt (.outside arr i)

def skipToFF : Nat → Parser Unit
  | 0 => halt .noFuel
  | n + 1 => do
    let c ← getChar
    if c = 0xFF then pure () else skipToFF n

def skipFFs : Nat → Parser UInt8
  | 0 => halt .noFuel
  | n + 1 => do
    let c ← getChar
    if c = 0xFF then skipFFs n else pure c

def getNextMarkerFrom (fuel : Nat) : Nat → Parser UInt8
  | 0 => halt .noFuel
  | n + 1 => do
    skipToFF fuel
    let c ← skipFFs fuel
    -- a stuffed FF 00 is no marker
    if c = 0 then getNextMarkerFrom fuel n else pure c

def getNextMarker (fuel : Nat) : Parser UInt8 := getNextMarkerFrom fuel fuel

def storeCompInfo (ci : Nat) (f : ComponentInfo → ComponentInfo) : Parser Unit := do
  let s ← look
  let k ← inside .compInfo s.compInfo.length ci
  update fun s => { s with compInfo := s.compInfo.modify k f }

def storeTblMap (i : Nat) (f : TblMap → TblMap) : Parser Unit := do
  let k ← inside .tblMap 3 i
  update fun s => { s with tblMap := Function.update s.tblMap k (f (s.tblMap k)) }

def ComponentInfo.identify (ci : Nat) (c : UInt8) (p : ComponentInfo) : ComponentInfo :=
  { p with componentIndex := ci.toUInt8, componentId := c }

def ComponentInfo.sample (ci : Nat) (r : UInt8) (p : ComponentInfo) : ComponentInfo :=
  { p with
    hSampFactor := (r >>> 4) &&& 0x0F
    vSampFactor := r &&& 0x0F
    mcuWidth := if ci = 0 then ((r >>> 4) &&& 0x0F).toNat else 1
    mcuHeight := if ci = 0 then (r &&& 0x0F).toNat else 1 }

def TblMap.setQuant (q : UInt8) (t : TblMap) : TblMap := { t with quantTblId := q }

def TblMap.setHuff (c : UInt8) (t : TblMap) : TblMap :=
  { t with dcHuffTblId := (c >>> 4) &&& 0x0F, acHuffTblId := c &&& 0x0F }

/-- One component of the frame header. The tests of the signed `yuv_id` for less than 0 and more
than 2 are one test of the unsigned byte. -/
def getSofComponent (ci : Nat) : Parser Unit := do
  let c ← getChar
  storeCompInfo ci (.identify ci c)
  haltIf .failed (c - 1 > 2)
  let r ← getChar
  storeCompInfo ci (.sample ci r)
  let q ← getChar
  haltIf .failed (q > 2)
  storeTblMap (c - 1).toNat (.setQuant q)

/-- The sampling byte of a component. Behind the last one lies work memory that was cleared and is
not handed out yet. -/
def sampling (s : Header) (i : Nat) : UInt8 :=
  let p := s.compInfo.getD i {}
  (p.hSampFactor <<< 4) ||| p.vSampFactor

def samplingFormat (c : UInt8) : Option YuvFormat :=
  if c = 0x11 then some .yuv444
  else if c = 0x21 then some .yuv422
  else if c = 0x41 then some .yuv411
  else if c = 0x14 then some .yuv411R
  else if c = 0x22 then some .yuv420
  else if c = 0x12 then some .yuv422R
  else none

def setMcuInfo (f : YuvFormat) : Parser Unit :=
  update fun s => { s with input := { s.input with inputMcuInfo := f } }

def checkSampling (componentNum : UInt8) : Parser Unit := do
  let s ← look
  if componentNum = 1 then setMcuInfo .yuv400
  else match samplingFormat (sampling s 0) with
    | none => halt .failed
    | some f => do
      setMcuInfo f
      haltIf .failed (sampling s 1 ≠ 0x11)
      haltIf .failed (componentNum > 2 ∧ sampling s 2 ≠ 0x11)

def getFrameHead (isProgressive : Bool) : Parser UInt8 := do
  update fun s => { s with input := { s.input with progressiveMode := isProgressive } }
  let length ← getShortWord
  haltIf .failed (length < 8)
  let c ← getChar
  haltIf .failed (c ≠ 8)
  let height ← getShortWord
  let width ← getShortWord
  update fun s => { s with input := { s.input with inputHeight := height, inputWidth := width } }
  let componentNum ← getChar
  haltIf .failed (length ≠ componentNum.toNat * 3 + 8)
  pure componentNum

def getSof (isProgressive : Bool) : Parser Unit := do
  let componentNum ← getFrameHead isProgressive
  extraMemAlloc (componentNum.toNat * 16)
  update fun s => { s with
    numComponents := componentNum
    compInfo := List.replicate componentNum.toNat {} }
  times getSofComponent 0 componentNum.toNat
  checkSampling componentNum

/-- One component of the scan header. An identifier the frame header does not declare leaves
`comp_id_map` as it is. -/
def getSosComponent (i : Nat) : Parser Unit := do
  let cc ← getChar
  let c ← getChar
  haltIf .failed (cc.toNat ≠ i + 1)
  storeTblMap i (.setHuff c)
  let s ← look
  if (s.compInfo.take s.numComponents.toNat).any (fun p => p.componentId == cc) then do
    let k ← inside .compIdMap 3 i
    update fun s => { s with compIdMap := Function.update s.compIdMap k cc }
  else pure ()

def getScanHead : Parser UInt8 := do
  let length ← getShortWord
  haltIf .failed (length < 3)
  let n ← getChar
  haltIf .failed (length - 3 ≠ n.toNat * 2 + 3)
  pure n

def getScanParams : Parser Unit := do
  let c ← getChar
  let cc ← getChar
  update fun s => { s with ss := c, se := cc }
  let a ← getChar
  update fun s => { s with
    ah := (a >>> 4) &&& 15
    al := a &&& 15
    nextRestartNum := 0
    inputScanNumber := s.inputScanNumber + 1 }

def getSos : Parser Unit := do
  let n ← getScanHead
  update fun s => { s with compsInScan := n }
  times getSosComponent 0 n.toNat
  getScanParams

def skipChar (_ : Nat) : Parser Unit := do
  let _ ← getChar

def skipVariable : Parser Unit := do
  let length ← getShortWord
  haltIf .failed (length < 2)
  times skipChar 0 (length - 2)

def getDri : Parser Unit := do
  let length ← getShortWord
  haltIf .failed (length ≠ 4)
  let restartInterval ← getShortWord
  update fun s => { s with
    restartInterval := restartInterval
    restartToGo := restartInterval
    nextRestartNum := 0 }

/-- A segment shorter than a JFIF one is reported as read, and none of it is. -/
def getApp0 : Parser Unit := do
  let length ← getShortWord
  haltIf .failed (length < 2)
  if length - 2 ≥ 14 then do
    times skipChar 0 14
    times skipChar 0 (length - 2 - 14)
  else pure ()

inductive HuffClass where
  | dc | ac
  deriving DecidableEq

def lumDcBitsDefault : List UInt8 := [0, 0, 1, 5, 1, 1, 1, 1, 1, 1, 0, 0, 0, 0, 0, 0, 0]

def lumDcHuffvalueDefault : List UInt8 := [0, 1, 2, 3, 4, 5, 6, 7, 8, 9, 10, 11]

def lumAcBitsDefault : List UInt8 := [0, 0, 2, 1, 3, 3, 2, 4, 3, 5, 5, 4, 4, 0, 0, 1, 0x7d]

def lumAcHuffvalueDefault : List UInt8 := [
  0x01, 0x02, 0x03, 0x00, 0x04, 0x11, 0x05, 0x12, 0x21, 0x31, 0x41, 0x06, 0x13, 0x51, 0x61, 0x07,
  0x22, 0x71, 0x14, 0x32, 0x81, 0x91, 0xa1, 0x08, 0x23, 0x42, 0xb1, 0xc1, 0x15, 0x52, 0xd1, 0xf0,
  0x24, 0x33, 0x62, 0x72, 0x82, 0x09, 0x0a, 0x16, 0x17, 0x18, 0x19, 0x1a, 0x25, 0x26, 0x27, 0x28,
  0x29, 0x2a, 0x34, 0x35, 0x36, 0x37, 0x38, 0x39, 0x3a, 0x43, 0x44, 0x45, 0x46, 0x47, 0x48, 0x49,
  0x4a, 0x53, 0x54, 0x55, 0x56, 0x57, 0x58, 0x59, 0x5a, 0x63, 0x64, 0x65, 0x66, 0x67, 0x68, 0x69,
  0x6a, 0x73, 0x74, 0x75, 0x76, 0x77, 0x78, 0x79, 0x7a, 0x83, 0x84, 0x85, 0x86, 0x87, 0x88, 0x89,
  0x8a, 0x92, 0x93, 0x94, 0x95, 0x96, 0x97, 0x98, 0x99, 0x9a, 0xa2, 0xa3, 0xa4, 0xa5, 0xa6, 0xa7,
  0xa8, 0xa9, 0xaa, 0xb2, 0xb3, 0xb4, 0xb5, 0xb6, 0xb7, 0xb8, 0xb9, 0xba, 0xc2, 0xc3, 0xc4, 0xc5,
  0xc6, 0xc7, 0xc8, 0xc9, 0xca, 0xd2, 0xd3, 0xd4, 0xd5, 0xd6, 0xd7, 0xd8, 0xd9, 0xda, 0xe1, 0xe2,
  0xe3, 0xe4, 0xe5, 0xe6, 0xe7, 0xe8, 0xe9, 0xea, 0xf1, 0xf2, 0xf3, 0xf4, 0xf5, 0xf6, 0xf7, 0xf8,
  0xf9, 0xfa]

def chrDcBitsDefault : List UInt8 := [0, 0, 3, 1, 1, 1, 1, 1, 1, 1, 1, 1, 0, 0, 0, 0, 0]

def chrDcHuffvalueDefault : List UInt8 := [0, 1, 2, 3, 4, 5, 6, 7, 8, 9, 10, 11]

def chrAcBitsDefault : List UInt8 := [0, 0, 2, 1, 2, 4, 4, 3, 4, 7, 5, 4, 4, 0, 1, 2, 0x77]

def chrAcHuffvalueDefault : List UInt8 := [
  0x00, 0x01, 0x02, 0x03, 0x11, 0x04, 0x05, 0x21, 0x31, 0x06, 0x12, 0x41, 0x51, 0x07, 0x61, 0x71,
  0x13, 0x22, 0x32, 0x81, 0x08, 0x14, 0x42, 0x91, 0xa1, 0xb1, 0xc1, 0x09, 0x23, 0x33, 0x52, 0xf0,
  0x15, 0x62, 0x72, 0xd1, 0x0a, 0x16, 0x24, 0x34, 0xe1, 0x25, 0xf1, 0x17, 0x18, 0x19, 0x1a, 0x26,
  0x27, 0x28, 0x29, 0x2a, 0x35, 0x36, 0x37, 0x38, 0x39, 0x3a, 0x43, 0x44, 0x45, 0x46, 0x47, 0x48,
  0x49, 0x4a, 0x53, 0x54, 0x55, 0x56, 0x57, 0x58, 0x59, 0x5a, 0x63, 0x64, 0x65, 0x66, 0x67, 0x68,
  0x69, 0x6a, 0x73, 0x74, 0x75, 0x76, 0x77, 0x78, 0x79, 0x7a, 0x82, 0x83, 0x84, 0x85, 0x86, 0x87,
  0x88, 0x89, 0x8a, 0x92, 0x93, 0x94, 0x95, 0x96, 0x97, 0x98, 0x99, 0x9a, 0xa2, 0xa3, 0xa4, 0xa5,
  0xa6, 0xa7, 0xa8, 0xa9, 0xaa, 0xb2, 0xb3, 0xb4, 0xb5, 0xb6, 0xb7, 0xb8, 0xb9, 0xba, 0xc2, 0xc3,
  0xc4, 0xc5, 0xc6, 0xc7, 0xc8, 0xc9, 0xca, 0xd2, 0xd3, 0xd4, 0xd5, 0xd6, 0xd7, 0xd8, 0xd9, 0xda,
  0xe2, 0xe3, 0xe4, 0xe5, 0xe6, 0xe7, 0xe8, 0xe9, 0xea, 0xf2, 0xf3, 0xf4, 0xf5, 0xf6, 0xf7, 0xf8,
  0xf9, 0xfa]

def defaultBits : HuffClass → Nat → List UInt8
  | .dc, 0 => lumDcBitsDefault
  | .dc, _ => chrDcBitsDefault
  | .ac, 0 => lumAcBitsDefault
  | .ac, _ => chrAcBitsDefault

/-- The comparison runs past the twelve entries of the DC tables when more symbols are read; the
number of symbols then differs, so that what lies there does not matter. -/
def defaultHuffvalue : HuffClass → Nat → List UInt8
  | .dc, 0 => lumDcHuffvalueDefault
  | .dc, _ => chrDcHuffvalueDefault
  | .ac, 0 => lumAcHuffvalueDefault
  | .ac, _ => chrAcHuffvalueDefault

def HuffTbls.get (t : HuffTbls) : HuffClass → Fin 4 → HuffTbl
  | .dc => t.dc
  | .ac => t.ac

def HuffTbls.modify (t : HuffTbls) (i : Fin 4) (f : HuffTbl → HuffTbl) : HuffClass → HuffTbls
  | .dc => { t with dc := Function.update t.dc i (f (t.dc i)) }
  | .ac => { t with ac := Function.update t.ac i (f (t.ac i)) }

def storeHuffTbl (cls : HuffClass) (i : Fin 4) (f : HuffTbl → HuffTbl) : Parser Unit :=
  update fun s => { s with huffTbls := s.huffTbls.map fun t => t.modify i f cls }

def storeBits (cls : HuffClass) (i : Fin 4) (j : Nat) (c : UInt8) : Parser Unit := do
  let k ← inside .bits 17 j
  storeHuffTbl cls i fun t => { t with bits := Function.update t.bits k c }

def storeHuffval (cls : HuffClass) (i : Fin 4) (j : Nat) (c : UInt8) : Parser Unit := do
  let k ← inside .huffval 257 j
  storeHuffTbl cls i fun t => { t with huffval := Function.update t.huffval k c }

def compareDefault (c d : UInt8) : Parser Unit :=
  update fun s => { s with usingDefaultHuffTab := s.usingDefaultHuffTab && c == d }

def getBits (cls : HuffClass) (i : Fin 4) (j : Nat) : Parser Unit := do
  let c ← getChar
  storeBits cls i j c
  compareDefault c ((defaultBits cls i).getD j 0)

def getHuffval (cls : HuffClass) (i : Fin 4) (j : Nat) : Parser Unit := do
  let c ← getChar
  storeHuffval cls i j c
  compareDefault c ((defaultHuffvalue cls i).getD j 0)

def huffCount (s : Header) (cls : HuffClass) (i : Fin 4) : Nat :=
  match s.huffTbls with
  | none => 0
  | some t => ((List.finRange 17).map fun j => ((t.get cls i).bits j).toNat).sum

def getHuffTblBody (cls : HuffClass) (index length : Nat) : Parser (Unit × Nat) := do
  let i ← inside .huffTbl 4 index
  storeBits cls i 0 0
  times (getBits cls i) 1 16
  let s ← look
  haltIf .failed (huffCount s cls i > 256)
  times (getHuffval cls i) 0 (huffCount s cls i)
  haltIf .failed (length < 1 + 16 + huffCount s cls i)
  pure ((), length - (1 + 16 + huffCount s cls i))

def getOneHuffTbl (_ : Unit) (length : Nat) : Parser (Unit × Nat) := do
  let c ← getChar
  let index := c &&& 0x13
  if index &&& 0x10 ≠ 0 then getHuffTblBody .ac (index - 0x10).toNat length
  else getHuffTblBody .dc index.toNat length

def mallocHuffTbl (_ : Nat) : Parser Unit := do
  extraMemAlloc 17
  extraMemAlloc 257
  extraMemAlloc 17
  extraMemAlloc 257

def mallocHuffTbls : Parser Unit := do
  let s ← look
  match s.huffTbls with
  | some _ => pure ()
  | none => do
    times mallocHuffTbl 0 4
    update fun s => { s with huffTbls := some {} }

def getHuffTbl : Parser Unit := do
  mallocHuffTbls
  let length ← getShortWord
  haltIf .failed (length < 2)
  untilNone .noFuel getOneHuffTbl (length - 2) () (length - 2)

/-- The 64 entries a store can go through; the source's table has 16 more. -/
def zigzagOrder : List Nat := [
  0, 1, 8, 16, 9, 2, 3, 10, 17, 24, 32, 25, 18, 11, 4, 5,
  12, 19, 26, 33, 40, 48, 41, 34, 27, 20, 13, 6, 7, 14, 21, 28,
  35, 42, 49, 56, 57, 50, 43, 36, 29, 22, 15, 23, 30, 37, 44, 51,
  58, 59, 52, 45, 38, 31, 39, 46, 53, 60, 61, 54, 47, 55, 62, 63]

def storeQuant (n : Fin 3) (j : Nat) (c : UInt8) : Parser Unit := do
  let k ← inside .quantPtr 64 (zigzagOrder.getD j 63)
  update fun s => { s with
    quantTbl := Function.update s.quantTbl n ((s.quantTbl n).map fun t => Function.update t k c) }

def getQuant8 (n : Fin 3) (j : Nat) : Parser Unit := do
  let c ← getChar
  storeQuant n j c

def getQuant16 (n : Fin 3) (j : Nat) : Parser Unit := do
  let c ← getShortWord
  storeQuant n j c.toUInt8

def getQuantEntries (prec : UInt8) (n : Fin 3) : Parser Unit :=
  if prec = 0 then times (getQuant8 n) 0 64 else times (getQuant16 n) 0 64

def getOneQuantTbl (hasTwoChromaQuantTbl : Bool) (length : Nat) : Parser (Bool × Nat) := do
  let b ← getChar
  let prec := b >>> 4
  let n := b &&& 0x0F
  haltIf .failed (n > 2)
  extraMemAlloc 64
  let k ← inside .quantTbl 3 n.toNat
  update fun s => { s with quantTbl := Function.update s.quantTbl k (some fun _ => 0) }
  getQuantEntries prec k
  haltIf .failed (length < 64 + 1 + 64 * prec.toNat)
  pure (hasTwoChromaQuantTbl || decide (n > 1), length - (64 + 1 + 64 * prec.toNat))

/-- The comparison reads both chroma tables, whether or not table 1 was ever defined. -/
def compareChroma (s : Header) : Parser Unit :=
  match s.quantTbl 1, s.quantTbl 2 with
  | some u, some v => haltIf .failed (u ≠ v)
  | _, _ => halt .nullTable

def getQuantTbl : Parser Unit := do
  update fun s => { s with usingDefaultQuantTab := false }
  let length ← getShortWord
  haltIf .failed (length < 2)
  let hasTwoChromaQuantTbl ← untilNone .noFuel getOneQuantTbl (length - 2) false (length - 2)
  let s ← look
  if hasTwoChromaQuantTbl then compareChroma s else pure ()

def segment (c : UInt8) : Parser Unit :=
  if c = mSof0 ∨ c = mSof1 then getSof false
  else if c = mSof2 then getSof true
  else if c = mSos then getSos
  else if c = mDht then getHuffTbl
  else if c = mDqt then getQuantTbl
  else if c = mApp0 then getApp0
  else if c = mDri then getDri
  else skipVariable

def processTables (fuel : Nat) : Nat → Parser UInt8
  | 0 => halt .noFuel
  | n + 1 => do
    let c ← getNextMarker fuel
    if c = mSoi ∨ c = mEoi ∨ c = mSos then pure c
    else if c ∈ unexpected then halt .failed
    else do
      handle c
      segment c
      processTables fuel n

def findSoi (fuel : Nat) : Nat → Parser Unit
  | 0 => halt .noFuel
  | n + 1 => do
    let c ← getNextMarker fuel
    if c = mEoi then halt .failed
    else if c = mSoi then pure ()
    else findSoi fuel n

def parseHead (fuel : Nat) : Parser Unit := do
  findSoi fuel fuel
  let c ← processTables fuel fuel
  if c = mSos then do
    handle c
    segment c
  else halt .failed

def resFormat : Nat → Option YuvFormat
  | 0 => some .yuv420
  | 1 => some .yuv411
  | 2 => some .yuv444
  | 3 => some .yuv422
  | 4 => some .yuv400
  | _ => none

def resQuality : Nat → Option Quality
  | 0 => some .low
  | 1 => some .middleLow
  | 2 => some .middle
  | 3 => some .middleHigh
  | 4 => some .high
  | _ => none

def parseHeadRes : Parser Unit := do
  let h ← getShortWord
  let w ← getShortWord
  update fun s => { s with
    input := { s.input with inputHeight := h, inputWidth := w }
    numComponents := 3 }
  let format ← getShortWord
  match resFormat format with
  | none => halt .failed
  | some f => do
    update fun s => { s with
      input := { s.input with inputMcuInfo := f }
      numComponents := if format = 4 then 1 else s.numComponents }
    let quantLevel ← getShortWord
    match resQuality quantLevel with
    | none => halt .failed
    | some q => update fun s => { s with input := { s.input with quantLevel := q } }

/-- How the caller hands over a stream: whole, in a buffer with something behind it in memory, or
through a callback that delivers pieces of at most the 3072 bytes it is asked for. -/
inductive Delivery where
  | whole (bytes : List UInt8) (behind : Nat → UInt8)
  | pieces (ps : List (List UInt8)) (h : ∀ p ∈ ps, p ≠ [] ∧ p.length ≤ 3072)

namespace Delivery

def bytes : Delivery → List UInt8
  | whole bs _ => bs
  | pieces ps _ => ps.flatten

/-- The work memory is cleared, so zeroes follow a short first piece. -/
def behind : Delivery → Nat → UInt8
  | whole _ f => f
  | pieces _ _ => fun _ => 0

def initBitream (size : Nat) : Delivery → Option Device
  | whole bs _ => some ⟨⟨bs, [], by simp⟩, 0, size, []⟩
  | pieces ps h =>
    if 3072 ≤ size then
      some ⟨Bitstream.refill ⟨[], ps, fun p hp => (h p hp).1⟩, 3072, size, []⟩
    else none

end Delivery

/-- `is_res_jpg_file` reads four bytes, however many there are. -/
def isResJpgFile (b : Bitstream) (behind : Nat → UInt8) : Bool :=
  (List.range 4).map (fun i => b.buffer.getD i (behind (i - b.buffer.length))) ==
    [0x53, 0x4a, 0x50, 0x47]

def runRes (s : Header) (d : Device) : Option (Outcome Stop Header Unit × Device) :=
  match d.bitstream.skipNByte 4 with
  | none => some (.stop .failed s, d)
  | some b => (parseHeadRes s).run Device.answer { d with bitstream := b }

/-- `JPEG_FWParseHead` on a work memory of `size` bytes; no result where it leaves that memory. -/
def jpegFwParseHead (fuel size : Nat) (input : DecInput) (x : Delivery) :
    Option (Outcome Stop Header Unit × Device) :=
  (x.initBitream size).bind fun d =>
    if isResJpgFile d.bitstream x.behind then runRes { input := input } d
    else (parseHead fuel { input := input }).run Device.answer d

end SprdVendor.Jpeg
