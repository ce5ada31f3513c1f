import SprdVendor.Lib.Bytes

namespace SprdVendor.EngMode
open Lib List

def maxDiagTransmitFileLen : Nat := 8192

/-- A request with `file_cmd` 2; `more` tells whether its `status` is 1. -/
structure WriteReq where
  fileName : Nat
  data : List UInt8
  more : Bool

/-- What the calls for one request return. -/
structure WriteEnv where
  opened : Bool
  seeked : Bool
  writeSize : Int

/-- The files and `s_cur_filepos`. -/
structure FileOper where
  files : Nat → List UInt8
  curFilepos : Int

def writeAt (file : List UInt8) (pos : Nat) (data : List UInt8) : List UInt8 :=
  patch (file ++ replicate (pos - file.length) 0) pos data

/-- The state behind a write request and whether it is answered with success. After a failed `lseek`
the file is written from its start. -/
def FileOper.write (s : FileOper) (r : WriteReq) (e : WriteEnv) : FileOper × Bool :=
  if e.opened then
    let seeked := e.seeked ∧ 0 ≤ s.curFilepos
    let file := writeAt (s.files r.fileName) (if seeked then s.curFilepos.toNat else 0)
      (r.data.take e.writeSize.toNat)
    (⟨fun name => if name = r.fileName ∧ 0 ≤ e.writeSize then file else s.files name,
        if r.more then s.curFilepos + e.writeSize else 0⟩,
      seeked ∧ 0 ≤ e.writeSize)
  else (s, false)

def FileOper.writes (s : FileOper) (rs : List (WriteReq × WriteEnv)) : FileOper :=
  rs.foldl (fun s r => (s.write r.1 r.2).1) s

/-- A chunk that is written completely. -/
def whole (name : Nat) (more : Bool) (data : List UInt8) : WriteReq × WriteEnv :=
  (⟨name, data, more⟩, ⟨true, true, data.length⟩)

def upload (name : Nat) (chunks : List (List UInt8)) (last : List UInt8) :
    List (WriteReq × WriteEnv) :=
  chunks.map (whole name true) ++ [whole name false last]

theorem writeAt_writeAt (file d e : List UInt8) :
    writeAt (writeAt file 0 d) d.length e = writeAt file 0 (d ++ e) := by
  have hzero (d : List UInt8) : writeAt file 0 d = d ++ file.drop d.length := by
    rw [writeAt, Nat.zero_sub, replicate_zero, append_nil, patch_zero]
  rw [hzero, hzero, writeAt, length_append, Nat.sub_eq_zero_of_le (Nat.le_add_right _ _),
    replicate_zero, append_nil, patch, take_left, ← drop_drop, drop_left, drop_drop, length_append]

namespace FileOper

/-- A whole chunk that is written behind the bytes `d`. -/
theorem write_whole (files : Nat → List UInt8) (name : Nat) (d data : List UInt8) (more : Bool) :
    (write ⟨Function.update files name (writeAt (files name) 0 d), d.length⟩
        (whole name more data).1 (whole name more data).2).1 =
      ⟨Function.update files name (writeAt (files name) 0 (d ++ data)),
        if more then (d ++ data).length else 0⟩ := by
  simp only [write, whole, Int.natCast_nonneg, and_true, if_true, Int.toNat_natCast, take_length,
    Function.update_self, writeAt_writeAt, length_append, Nat.cast_add]
  congr 1
  funext name'
  rw [Function.update_apply, Function.update_apply]
  split <;> rfl

theorem writes_chunks {s : FileOper} (hpos : s.curFilepos = 0) (name : Nat)
    (chunks : List (List UInt8)) :
    s.writes (chunks.map (whole name true)) =
      ⟨Function.update s.files name (writeAt (s.files name) 0 chunks.flatten),
        chunks.flatten.length⟩ := by
  induction chunks using reverseRecOn with
  | nil =>
    have hfile : writeAt (s.files name) 0 [] = s.files name := by
      rw [writeAt, patch_nil, Nat.zero_sub, replicate_zero, append_nil]
    rw [flatten_nil, hfile, Function.update_eq_self]
    exact congrArg (mk s.files) hpos
  | append_singleton chunks data ih =>
    rw [writes] at ih ⊢
    rw [map_append, foldl_append, ih, map_singleton, foldl_cons, foldl_nil, write_whole,
      flatten_append, flatten_singleton]
    rfl

end FileOper

/-- What the reads find: the file at the time of each, and how much it returns at most, or `none`
for a read that fails. -/
structure ReadEnv where
  files : Nat → List UInt8
  takes : Nat → Option Nat

/-- The `status`, `data_len` and `data` of a frame; `more` stands for the status 1. -/
structure DataFrame where
  more : Bool
  dataLen : Int
  data : List UInt8

def DataFrame.stated (f : DataFrame) : List UInt8 := f.data.take f.dataLen.toNat

/-- The frames sent from the `i`-th read on, `none` while the loop still runs. The sizes are those
of files below 2 GiB, so that their sum is an `int`. -/
def readLoop (fileSize : Int) (e : ReadEnv) :
    Nat → Nat → Nat → Int → List UInt8 → Option (List DataFrame)
  | 0, _, _, _, _ => none
  | fuel + 1, i, pos, total, buf =>
    let got := (e.takes i).map fun k => ((e.files i).drop pos).take (min k maxDiagTransmitFileLen)
    let readSize : Int := got.elim (-1) fun d => d.length
    let buf := patch buf 0 (got.getD [])
    let frame := ⟨total + readSize != fileSize, readSize, buf⟩
    if total + readSize = fileSize then some [frame]
    else (readLoop fileSize e fuel (i + 1) (pos + readSize.toNat) (total + readSize) buf).map
      (frame :: ·)

inductive ReadAnswer where
  | frames (frames : List DataFrame)
  | user (rsp : List UInt8)

/-- A request with `file_cmd` 1. The frame with the status of an error stays in `diag_frame`: what
the caller sends is `rsp`, which nobody has written. -/
def readFile (fileSize : Nat) (opened : Bool) (e : ReadEnv) (fuel : Nat) : Option ReadAnswer :=
  if fileSize = 0 ∨ opened = false then some (.user (replicate 512 0))
  else (readLoop fileSize e fuel 0 0 0 (replicate maxDiagTransmitFileLen 0)).map .frames

/-- The file is the same at every read, and no read fails. -/
def ReadEnv.Steady (file : List UInt8) (e : ReadEnv) : Prop :=
  ∀ i, e.files i = file ∧ ∃ k, e.takes i = some (k + 1)

theorem readLoop_read (size total : Int) (fuel : Nat) (buf : List UInt8)
    (hk : e.takes i = some k)
    (hd : ((e.files i).drop pos).take (min k maxDiagTransmitFileLen) = d) :
    readLoop size e (fuel + 1) i pos total buf =
      if total + d.length = size then some [⟨total + d.length != size, d.length, patch buf 0 d⟩]
      else (readLoop size e fuel (i + 1) (pos + d.length) (total + d.length) (patch buf 0 d)).map
        (⟨total + d.length != size, d.length, patch buf 0 d⟩ :: ·) := by
  rw [readLoop, hk, ← hd]
  rfl

theorem readLoop_steady (he : e.Steady file) (hpos : pos < file.length)
    (hfuel : file.length ≤ pos + fuel) (i : Nat) (buf : List UInt8) :
    ∃ init last, readLoop file.length e fuel i pos pos buf = some (init ++ [last]) ∧
      ((init ++ [last]).map DataFrame.stated).flatten = file.drop pos ∧
      (∀ f ∈ init, f.more = true) ∧ last.more = false := by
  induction fuel generalizing pos i buf with
  | zero => omega
  | succ fuel ih =>
    obtain ⟨hfile, k, hk⟩ := he i
    obtain ⟨d, hd⟩ : ∃ d, (file.drop pos).take (min (k + 1) maxDiagTransmitFileLen) = d := ⟨_, rfl⟩
    rw [readLoop_read _ _ _ _ hk (by rw [hfile, hd])]
    have hlen : 0 < d.length ∧ pos + d.length ≤ file.length := by
      have hmax : maxDiagTransmitFileLen = 8192 := rfl
      rw [← hd, length_take, length_drop]
      omega
    have hstated (more : Bool) :
        DataFrame.stated ⟨more, d.length, patch buf 0 d⟩ = d := by
      rw [DataFrame.stated, Int.toNat_natCast, patch_zero, take_left]
    have hrest : file.drop pos = d ++ file.drop (pos + d.length) := by
      obtain ⟨t, ht⟩ := hd ▸ List.take_prefix (min (k + 1) maxDiagTransmitFileLen) (file.drop pos)
      rw [← drop_drop, ← ht, drop_left]
    by_cases hend : pos + d.length = file.length
    · rw [if_pos (by omega)]
      refine ⟨[], _, rfl, ?_, fun f hf => absurd hf not_mem_nil, ?_⟩
      · rw [nil_append, map_singleton, flatten_singleton, hstated, hrest, hend, drop_length,
          append_nil]
      · exact bne_eq_false_iff_eq.2 (by omega)
    · rw [if_neg (by omega)]
      obtain ⟨init, last, hloop, hdata, hmore, hlast⟩ :=
        ih (by omega : pos + d.length < file.length) (by omega) (i + 1) (patch buf 0 d)
      rw [← Nat.cast_add, hloop]
      refine ⟨_ :: init, last, rfl, ?_, forall_mem_cons.2 ⟨?_, hmore⟩, hlast⟩
      · rw [cons_append, map_cons, flatten_cons, hdata, hstated, ← hrest]
      · exact bne_iff_ne.2 (by omega)

theorem readLoop_none (he : ∀ j ≥ i, e.files j = file ∧ ∃ k, e.takes j = some k)
    (hpos : file.length ≤ pos) (ht : total ≠ size) (fuel : Nat) (buf : List UInt8) :
    readLoop size e fuel i pos total buf = none := by
  induction fuel generalizing i buf with
  | zero => rfl
  | succ fuel ih =>
    obtain ⟨hfile, k, hk⟩ := he i le_rfl
    rw [readLoop_read _ _ _ _ hk (by rw [hfile, drop_eq_nil_of_le hpos, take_nil]), length_nil,
      Nat.cast_zero, Int.add_zero, if_neg ht]
    exact congrArg _ (ih (fun j hj => he j (by omega)) _)

end SprdVendor.EngMode
