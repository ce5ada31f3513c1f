import SprdVendor.Download.Image
import SprdVendor.Lib.Text
import SprdVendor.Lib.Tokens

namespace SprdVendor.Download
open Lib List Option

abbrev Path := List Char
abbrev Files := Path → Option (List UInt8)

/-- An entry of `download_image_info`; its paths are allocated by `strdup`. -/
structure ImageEntry where
  imagePath : Path
  imagePathBak : Path
  imageSize : Nat
  address : Nat
deriving DecidableEq

/-- `%x`; the number goes into an `unsigned int`. -/
def scanHex (s : List Char) : Option (Nat × List Char) :=
  if scanEnd 16 s = s then none else some (strtoul 64 16 s % 2 ^ 32, scanEnd 16 s)

/-- What `sscanf` stores for `%s %s %x %x`. -/
structure Fields where
  originPath : Option Path := none
  bakPath : Option Path := none
  size : Option Nat := none
  address : Option Nat := none

def sscanf (text : List Char) : Fields :=
  match token isSpace text with
  | none => {}
  | some (originPath, text) => match token isSpace text with
    | none => { originPath }
    | some (bakPath, text) => match scanHex text with
      | none => { originPath, bakPath }
      | some (size, text) => ⟨originPath, bakPath, size, (scanHex text).map Prod.fst⟩

/-- The variables of the loop over the lines; a path that no line has stored yet is not known, and
`size` and `address` are those of the entry the next line fills. -/
structure InfoScan where
  table : List ImageEntry := []
  originPath : Option Path := none
  bakPath : Option Path := none
  size : Nat := 0
  address : Nat := 0
  uartDev : Option Path := none
  delay : Option Nat := none

def InfoScan.record (s : InfoScan) (e : ImageEntry) : InfoScan :=
  let s := { s with originPath := e.imagePath, bakPath := e.imagePathBak }
  if e.address = 0 ∨ e.imageSize = 0 then
    { s with
      size := e.imageSize, address := e.address, uartDev := e.imagePath
      delay := if e.imageSize = 0 then s.delay else e.imageSize }
  else { s with table := s.table ++ [e], size := 0, address := 0 }

/-- A line as `fgets` gives it; a path of 100 characters or more does not fit into its array. -/
def infoLine (s : InfoScan) (line : List Char) : Option InfoScan :=
  let line := line.takeWhile (· ≠ '\x00')
  -- an empty string has no last character, and the byte before the array is cleared
  if line = [] then none
  else
    let text := line.dropLast
    if text.head? = some '#' ∨ text = [] then some s
    else
      let f := sscanf text
      if f.originPath = none then some s
      else if f.originPath.any (100 ≤ ·.length) ∨ f.bakPath.any (100 ≤ ·.length) then none
      else do
        let originPath ← f.originPath
        let bakPath ← f.bakPath.or s.bakPath
        s.record ⟨originPath, bakPath, f.size.getD s.size, f.address.getD s.address⟩

def maxItem : Nat := 17

def infoLoop : List (List Char) → InfoScan → Option InfoScan
  | [], s => some s
  | line :: lines, s => (infoLine s line).bind fun s =>
    if maxItem ≤ s.table.length then some s else infoLoop lines s

/-- The bytes that hold the checksum have to be in the buffer. -/
def chkEcc (buf : List UInt8) : Option Bool :=
  if buf.length < 4 then none
  else
    let crcOri := 256 * (buf.getD (buf.length - 3) 0).toNat + (buf.getD (buf.length - 4) 0).toNat
    some (bootChecksum (buf.take (buf.length - 4)) = crcOri)

/-- `malloc` does not give a buffer for a negative `int`. -/
def chkImg (files : Files) (path : Path) (size : Nat) : Option Bool :=
  if 2 ^ 31 ≤ size then none
  else match files path with
    | none => some false
    | some data => if data.length < size then some false else chkEcc (data.take size)

/-- `strcpy` into an allocation that just holds its string. -/
def strcpy (dst src : Path) : Option Path := if src.length ≤ dst.length then some src else none

def checkEntry (files : Files) (e : ImageEntry) : Option ImageEntry :=
  if e.imagePath = e.imagePathBak then some e
  else (chkImg files e.imagePath e.imageSize).bind fun ok =>
    if ok then some e
    else (chkImg files e.imagePathBak e.imageSize).bind fun okBak =>
      if okBak then (strcpy e.imagePath e.imagePathBak).map ({ e with imagePath := · }) else some e

def getModemImagesInfo (files : Files) (file : List Char) : Option (List ImageEntry) :=
  (infoLoop (cutLines '\n' 511 [] file) {}).bind fun s => s.table.mapM (checkEntry files)

/-- The image of a line. -/
def listed (text : List Char) : Option ImageEntry :=
  if text.head? = some '#' then none
  else match sscanf text with
    | ⟨some originPath, some bakPath, some size, some address⟩ =>
      if address = 0 ∨ size = 0 then none else some ⟨originPath, bakPath, size, address⟩
    | _ => none

/-- Two short paths, a size and an address. -/
def WellFormed (text : List Char) : Prop :=
  ∃ originPath bakPath size address, sscanf text = ⟨some originPath, some bakPath, some size,
    some address⟩ ∧ originPath.length < 100 ∧ bakPath.length < 100

/-- A comment or a well-formed line, as long as `fgets` reads it at once. -/
structure InfoLine (text : List Char) : Prop where
  newline : '\n' ∉ text
  nul : '\x00' ∉ text
  short : text.length < 511
  form : text.head? = some '#' ∨ WellFormed text

def checksumRight (files : Files) (path : Path) (size : Nat) : Bool :=
  (files path).any fun data => size ≤ data.length ∧
    bootChecksum (data.take (size - 4)) = ofLe ((data.drop (size - 4)).take 2)

def chosen (files : Files) (e : ImageEntry) : ImageEntry :=
  if checksumRight files e.imagePath e.imageSize ∨ ¬ checksumRight files e.imagePathBak e.imageSize
  then e else { e with imagePath := e.imagePathBak }

/-- A checked image has room for its checksum, and a backup path that is taken fits. -/
def Fits (files : Files) (e : ImageEntry) : Prop :=
  e.imagePath ≠ e.imagePathBak → 4 ≤ e.imageSize ∧ e.imageSize < 2 ^ 31 ∧
    (chosen files e ≠ e → e.imagePathBak.length ≤ e.imagePath.length)

theorem InfoScan.record_table (s : InfoScan) (e : ImageEntry) :
    (s.record e).table = s.table ++ if e.address = 0 ∨ e.imageSize = 0 then [] else [e] := by
  rw [record]
  split
  · exact (append_nil _).symm
  · rfl

theorem infoLine_table (h : InfoLine text) (s : InfoScan) :
    ∃ t, infoLine s (text ++ ['\n']) = some t ∧ t.table = s.table ++ (listed text).toList := by
  have hline : (text ++ ['\n']).takeWhile (· ≠ '\x00') = text ++ ['\n'] := by
    apply takeWhile_eq_self_iff.mpr
    intro c hc
    obtain hc | hc := mem_append.mp hc
    · exact decide_eq_true fun he => h.nul (he ▸ hc)
    · rw [mem_singleton.mp hc]
      rfl
  rw [infoLine, hline, if_neg (by simp), dropLast_concat, listed]
  by_cases hcomment : text.head? = some '#'
  · rw [if_pos (.inl hcomment), if_pos hcomment]
    exact ⟨s, rfl, (append_nil _).symm⟩
  obtain ⟨originPath, bakPath, size, address, hf, ho, hb⟩ := h.form.resolve_left hcomment
  have hne : text ≠ [] := by
    rintro rfl
    cases hf
  rw [if_neg (not_or.mpr ⟨hcomment, hne⟩), if_neg hcomment, hf]
  refine ⟨s.record ⟨originPath, bakPath, size, address⟩, ?_, ?_⟩
  · dsimp only
    rw [if_neg nofun, if_neg (by simpa using ⟨ho, hb⟩)]
    rfl
  · rw [InfoScan.record_table]
    dsimp only
    split <;> rfl

theorem infoLoop_table {texts : List (List Char)} (h : ∀ text ∈ texts, InfoLine text)
    (hs : s.table.length < maxItem) :
    ∃ t, infoLoop (texts.map (· ++ ['\n'])) s = some t ∧
      t.table = (s.table ++ texts.filterMap listed).take maxItem := by
  induction texts generalizing s with
  | nil =>
    refine ⟨s, rfl, ?_⟩
    rw [filterMap_nil, append_nil, take_of_length_le hs.le]
  | cons text texts ih =>
    obtain ⟨t, ht, htable⟩ := infoLine_table (h text mem_cons_self) s
    have hsplit : s.table ++ (text :: texts).filterMap listed =
        t.table ++ texts.filterMap listed := by
      rw [htable, append_assoc, filterMap_cons]
      cases listed text <;> rfl
    rw [map_cons, infoLoop, ht, bind_some, hsplit]
    split
    · have hlen : t.table.length = maxItem := by
        have : (listed text).toList.length ≤ 1 := by cases listed text <;> simp
        rw [htable, length_append] at *
        omega
      exact ⟨t, rfl, (take_left' hlen).symm⟩
    · exact ih (fun l hl => h l (mem_cons_of_mem _ hl)) (by omega)

theorem chkImg_eq (files : Files) (path : Path) (h4 : 4 ≤ size) (hsize : size < 2 ^ 31) :
    chkImg files path size = some (checksumRight files path size) := by
  rw [chkImg, if_neg (by omega), checksumRight]
  cases files path with
  | none => rfl
  | some data =>
    dsimp only
    split
    · simp [not_le.mpr ‹data.length < size›]
    have hlen : (data.take size).length = size := length_take_of_le (by omega)
    have hfirst : size - 4 < data.length := by omega
    have hsecond : size - 4 + 1 < data.length := by omega
    have hstored : ofLe ((data.drop (size - 4)).take 2) =
        256 * data[size - 4 + 1].toNat + data[size - 4].toNat := by
      rw [drop_eq_getElem_cons hfirst, drop_eq_getElem_cons hsecond]
      simp only [take_succ_cons, take_zero, ofLe]
      omega
    have hget : ∀ i (hi : i < data.length), i < size → (data.take size).getD i 0 = data[i] := by
      intro i hi hlt
      rw [getD_eq_getElem?_getD, getElem?_take_of_lt hlt, getElem?_eq_getElem hi, getD_some]
    rw [chkEcc, hlen, if_neg (by omega), show size - 3 = size - 4 + 1 by omega,
      hget _ hsecond (by omega), hget _ hfirst (by omega), take_take,
      min_eq_left (by omega), any_some, hstored]
    simp [show size ≤ data.length by omega]

theorem checkEntry_eq (h : Fits files e) : checkEntry files e = some (chosen files e) := by
  rw [checkEntry]
  split
  · rename_i heq
    rw [chosen, ← heq, if_pos (em _)]
  rename_i hne
  obtain ⟨h4, hsize, hfits⟩ := h hne
  rw [chosen] at hfits ⊢
  rw [chkImg_eq files _ h4 hsize, chkImg_eq files _ h4 hsize, bind_some]
  cases horig : checksumRight files e.imagePath e.imageSize with
  | true => rw [if_pos rfl, if_pos (.inl rfl)]
  | false =>
    rw [if_neg nofun, bind_some]
    cases hbak : checksumRight files e.imagePathBak e.imageSize with
    | false => rw [if_neg nofun, if_pos (.inr nofun)]
    | true =>
      rw [horig, hbak, if_neg (by simp)] at hfits
      have hle : e.imagePathBak.length ≤ e.imagePath.length :=
        hfits fun he => hne (congrArg ImageEntry.imagePath he).symm
      rw [if_pos rfl, strcpy, if_pos hle, if_neg (by simp)]
      rfl

theorem mapM_checkEntry {l : List ImageEntry} (h : ∀ e ∈ l, Fits files e) :
    l.mapM (checkEntry files) = some (l.map (chosen files)) := by
  induction l with
  | nil => rfl
  | cons e l ih =>
    rw [mapM_cons, checkEntry_eq (h e mem_cons_self), ih fun e he => h e (mem_cons_of_mem _ he)]
    rfl

/-- The one file is an image of no bytes and its checksum. -/
def oneImage (path : Path) : Files := fun p => if p = path then some [255, 255, 0, 0] else none

def imageLine : List Char := ['/', 'a', 'b', ' ', '/', 'c', ' ', '4', ' ', '1']

end SprdVendor.Download
