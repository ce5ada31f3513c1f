import SprdVendor.NvItem.Common

namespace SprdVendor.NvItem
open Lib List Option

def nvHeadMagic : Nat := 0x4e56

def nvVersion : Nat := 101

structure Disk where
  image : Option (List UInt8)
  imageBak : Option (List UInt8)
deriving DecidableEq

inductive Name where
  | image
  | imageBak
deriving DecidableEq

def Name.other : Name → Name
  | .image => .imageBak
  | .imageBak => .image

def Disk.get (d : Disk) : Name → Option (List UInt8)
  | .image => d.image
  | .imageBak => d.imageBak

def Disk.set (d : Disk) (f : Option (List UInt8)) : Name → Disk
  | .image => { d with image := f }
  | .imageBak => { d with imageBak := f }

/-- What becomes of writing a file: it cannot be opened, or so many bytes of the header and of
the image get there. -/
inductive WriteRes where
  | noOpen
  | wrote (head body : Nat)
deriving DecidableEq

/-- The file was opened with `O_TRUNC`, so only what is written now is in it. -/
def writeFile (w : WriteRes) (header buf : List UInt8) (old : Option (List UInt8)) :
    Option (List UInt8) :=
  match w with
  | .noOpen => old
  | .wrote n m => some (header.take n ++ buf.take m)

/-- A file that cannot be opened is not counted as a failure. -/
def WriteRes.ret (w : WriteRes) (buf : List UInt8) : Bool :=
  match w with
  | .noOpen => true
  | .wrote n m => decide (sectSize ≤ n) && decide (buf.length ≤ m)

def nvHeader (buf : List UInt8) : List UInt8 :=
  toLe 4 nvHeadMagic ++ toLe 4 buf.length ++ toLe 4 (calcChecksum buf) ++ toLe 4 nvVersion ++
    List.replicate (sectSize - 16) 0

def ramDiskWrite (w w' : WriteRes) (d : Disk) (buf : List UInt8) : Disk × Bool :=
  let header := nvHeader buf
  (⟨writeFile w' header buf d.image, writeFile w header buf d.imageBak⟩, w.ret buf && w'.ret buf)

structure Copy where
  header : List UInt8
  ret1 : Nat
  buf : List UInt8
  ret2 : Nat
deriving DecidableEq

def readCopy (size : Nat) (f : List UInt8) : Copy :=
  let head := f.take sectSize
  let body := (f.drop sectSize).take size
  ⟨patch (List.replicate sectSize 0) 0 head, head.length,
    patch (List.replicate size 0xff) 0 body, body.length⟩

def Copy.valid (size : Nat) (c : Copy) : Bool :=
  c.ret1 == sectSize && c.ret2 == size && chkNVEcc c.buf size (word c.header 8 % 2 ^ 16)

/-- The second look of `ramDisk_Read`. When the file cannot be opened, its header is not checked,
and `ret2` is the one of the first file. -/
def secondCopy (size : Nat) (first second : Option (List UInt8)) : Copy :=
  match second with
  | some f => readCopy size f
  | none => { readCopy size [] with
      ret1 := sectSize, ret2 := ((first.map (readCopy size)).map Copy.ret2).getD 0 }

/-- The order of the files comes from `rand()`. The answer is 1 in all cases; `repair` says what
becomes of writing the second copy over the first. -/
def ramDiskRead (firstName : Name) (repair : WriteRes) (size : Nat) (d : Disk) :
    List UInt8 × Disk :=
  let first := d.get firstName
  match (first.map (readCopy size)).filter (Copy.valid size) with
  | some c => (c.buf, d)
  | none =>
    let c := secondCopy size first (d.get firstName.other)
    if c.valid size then (c.buf, d.set (writeFile repair c.header c.buf first) firstName)
    else (c.buf, d)

def stored (buf : List UInt8) : List UInt8 := nvHeader buf ++ buf

@[simp] theorem length_nvHeader (buf : List UInt8) : (nvHeader buf).length = sectSize := by
  simp only [nvHeader, length_append, length_toLe, length_replicate, sectSize]

theorem length_stored (buf : List UInt8) : (stored buf).length = sectSize + buf.length := by
  rw [stored, length_append, length_nvHeader]

theorem word_nvHeader (buf : List UInt8) : word (nvHeader buf) 8 = calcChecksum buf := by
  have hlt : calcChecksum buf < 256 ^ 4 :=
    lt_of_lt_of_le (calcChecksum_lt buf) (by decide)
  have hd : (nvHeader buf).drop 8 = toLe 4 (calcChecksum buf) ++
      (toLe 4 nvVersion ++ List.replicate (sectSize - 16) 0) := by
    rw [nvHeader, append_assoc, append_assoc,
      drop_left' (by rw [length_append, length_toLe, length_toLe])]
  rw [word, hd, take_left' (length_toLe _ _), ofLe_toLe hlt]

theorem readCopy_stored (buf : List UInt8) :
    readCopy buf.length (stored buf) = ⟨nvHeader buf, sectSize, buf, buf.length⟩ := by
  have hh := length_nvHeader buf
  rw [readCopy, stored, take_left' hh, drop_left' hh, take_length, patch_zero, patch_zero, hh]
  simp

theorem valid_stored (buf : List UInt8) :
    (readCopy buf.length (stored buf)).valid buf.length = true := by
  rw [readCopy_stored, Copy.valid, word_nvHeader, Nat.mod_eq_of_lt (calcChecksum_lt buf), chkNVEcc,
    take_length]
  simp

theorem not_valid_of_length_lt (h : f.length < sectSize + size) :
    (readCopy size f).valid size = false := by
  rw [Bool.eq_false_iff]
  intro hv
  simp only [Copy.valid, readCopy, Bool.and_eq_true, beq_iff_eq, length_take, length_drop] at hv
  omega

theorem length_readCopy_buf (size : Nat) (f : List UInt8) :
    (readCopy size f).buf.length = size := by
  have hl : 0 + ((f.drop sectSize).take size).length ≤ (List.replicate size (0xff : UInt8)).length := by
    rw [length_replicate, length_take]
    omega
  exact (length_patch _ _ hl).trans length_replicate

theorem length_ramDiskRead (name : Name) (w : WriteRes) (size : Nat) (d : Disk) :
    (ramDiskRead name w size d).1.length = size := by
  have hs (first second : Option (List UInt8)) : (secondCopy size first second).buf.length = size := by
    unfold secondCopy
    split <;> exact length_readCopy_buf size _
  unfold ramDiskRead
  dsimp only
  split
  · rename_i c hc
    obtain ⟨hc, -⟩ := filter_eq_some_iff.1 hc
    obtain ⟨f, -, rfl⟩ := map_eq_some_iff.1 hc
    exact length_readCopy_buf size f
  · split <;> exact hs _ _

/-- A crash leaves the first `n` bytes of what was being written. -/
def cutAt (n : Nat) : WriteRes := .wrote (min n sectSize) (n - sectSize)

theorem writeFile_cutAt (buf : List UInt8) (n : Nat) (old : Option (List UInt8)) :
    writeFile (cutAt n) (nvHeader buf) buf old = some ((stored buf).take n) := by
  rw [cutAt, writeFile, stored, take_append, length_nvHeader]
  congr 2
  by_cases hn : n ≤ sectSize
  · rw [min_eq_left hn]
  · have hh := length_nvHeader buf
    rw [Nat.min_eq_right (by omega), take_of_length_le (by omega), take_of_length_le (by omega)]

def wholeFile (buf : List UInt8) : WriteRes := cutAt (sectSize + buf.length)

theorem writeFile_wholeFile (buf : List UInt8) (old : Option (List UInt8)) :
    writeFile (wholeFile buf) (nvHeader buf) buf old = some (stored buf) := by
  rw [wholeFile, writeFile_cutAt, ← length_stored, take_length]

theorem ramDiskRead_first (name : Name) (hf : d.get name = some f)
    (hv : (readCopy size f).valid size = true) :
    ramDiskRead name w size d = ((readCopy size f).buf, d) := by
  rw [ramDiskRead, hf, map_some, filter_some, if_pos hv]

theorem ramDiskRead_second (name : Name)
    (hf : ∀ f, d.get name = some f → (readCopy size f).valid size = false)
    (hg : d.get name.other = some g) (hv : (readCopy size g).valid size = true) :
    ramDiskRead name w size d = ((readCopy size g).buf,
      d.set (writeFile w (readCopy size g).header (readCopy size g).buf (d.get name)) name) := by
  have hn : ((d.get name).map (readCopy size)).filter (Copy.valid size) = none := by
    cases hd : d.get name with
    | none => rfl
    | some f => rw [map_some, filter_some, hf f hd, if_neg nofun]
  rw [ramDiskRead, hn, hg]
  rw [secondCopy, if_pos hv]

end SprdVendor.NvItem
