import SprdVendor.NvItem.WriteBack

namespace SprdVendor.NvItem
open Lib

/-- What becomes of a file in `ramDisk_Write`, with a `close` or `fsync` that fails: of the bytes
written only the first ones may then have reached the file. -/
structure FileOps where
  write : WriteRes
  kept : Option Nat

def FileOps.file (f : FileOps) (buf : List UInt8) (old : Option (List UInt8)) :
    Option (List UInt8) :=
  let file := writeFile f.write (nvHeader buf) buf old
  match f.write, f.kept with
  | .wrote _ _, some n => file.map (List.take n)
  | _, _ => file

/-- The function `ramDisk_Write`, which looks at no result of `close` or `fsync`. -/
def ramDiskWriteClose (f f' : FileOps) (d : Disk) (buf : List UInt8) : Disk × Bool :=
  (⟨f'.file buf d.image, f.file buf d.imageBak⟩, f.write.ret buf && f'.write.ret buf)

theorem ramDiskWriteClose_eq (w w' : WriteRes) (d : Disk) (buf : List UInt8) :
    ramDiskWriteClose ⟨w, none⟩ ⟨w', none⟩ d buf = ramDiskWrite w w' d buf := by
  cases w <;> cases w' <;> rfl

/-- The file is opened, or it need not be, and closing it loses nothing. -/
def FileOps.Harmless (f : FileOps) (buf : List UInt8) (old : Option (List UInt8)) : Prop :=
  if f.write = .noOpen then old = some (stored buf)
  else ∀ n ∈ f.kept, sectSize + buf.length ≤ n
deriving Decidable

theorem FileOps.file_iff {f : FileOps} (h : f.write.ret buf = true)
    (old : Option (List UInt8)) : f.file buf old = some (stored buf) ↔ f.Harmless buf old := by
  obtain ⟨w, kept⟩ := f
  cases w with
  | noOpen => rfl
  | wrote n m =>
    have hfull : WriteRes.Full (.wrote n m) buf := ⟨nofun, h⟩
    have hw := writeFile_full hfull old
    have hlen := length_stored buf
    rw [Harmless, if_neg nofun, ← hlen]
    cases kept with
    | none => exact iff_of_true hw nofun
    | some k =>
      change (writeFile (.wrote n m) (nvHeader buf) buf old).map (List.take k) = _ ↔ _
      rw [hw, Option.map_some, Option.some.injEq]
      constructor
      · intro ht n hn
        cases hn
        rw [← ht]
        exact List.length_take_le _ _
      · intro hk
        exact List.take_of_length_le (hk k rfl)

/-- A success of `ramDisk_Write` tells that both files hold the image exactly when no file that has
to be written stays closed, and none loses bytes when it is closed. -/
theorem write_success_iff (f f' : FileOps) (d : Disk) (buf : List UInt8)
    (h : (ramDiskWriteClose f f' d buf).2 = true) :
    (ramDiskWriteClose f f' d buf).1.Holds buf ↔
      f.Harmless buf d.imageBak ∧ f'.Harmless buf d.image := by
  obtain ⟨hw, hw'⟩ := Bool.and_eq_true_iff.1 h
  rw [← FileOps.file_iff hw, ← FileOps.file_iff hw']
  exact ⟨fun hh => ⟨hh.imageBak, hh.image⟩, fun hh => ⟨hh.2, hh.1⟩⟩

theorem write_both_files :
    (ramDiskWriteClose ⟨.wrote 512 1, none⟩ ⟨.wrote 512 1, none⟩ ⟨none, none⟩ [7]).1.Holds [7] :=
  (write_success_iff _ _ _ _ (by decide)).2 (by decide)

/-- An image file that cannot be opened keeps its old bytes, and `ramDisk_Write` succeeds. -/
theorem unopened_file_succeeds :
    (ramDiskWriteClose ⟨.wrote 512 1, none⟩ ⟨.noOpen, none⟩ ⟨none, none⟩ [7]).2 = true ∧
      (ramDiskWriteClose ⟨.wrote 512 1, none⟩ ⟨.noOpen, none⟩ ⟨none, none⟩ [7]).1.image = none := by
  decide

end SprdVendor.NvItem
