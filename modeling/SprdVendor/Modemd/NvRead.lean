import SprdVendor.Lib.Bytes

namespace SprdVendor.Modemd
open Lib List

def ramnvSectSize : Nat := 512

def nvMagic : Nat := 0x4e56

def maxnvSize : Nat := 0x100000

def chkSum : Nat → List UInt8 → Nat
  | acc, [] => acc
  | acc, [a] => (acc + a.toNat) % 2 ^ 32
  | acc, a :: b :: rest => chkSum ((acc + (a.toNat + 256 * b.toNat)) % 2 ^ 32) rest

def calcChecksum (dat : List UInt8) : Nat :=
  let chk := chkSum 0 dat
  let chk := chk / 65536 + chk % 65536
  65535 - (chk + chk / 65536) % 65536

/-- What reading one copy leaves behind: its header, the buffer with its data if one was allocated,
and whether the copy counts as good. -/
structure NvCopy where
  header : List UInt8
  buf : Option (List UInt8)
  ok : Bool

/-- One of the two reading blocks; there is no result where it returns 0. `size` is a signed number:
for a negative one the allocation fails. -/
def readCopy (part : List UInt8) : Option NvCopy :=
  let header := part.take ramnvSectSize
  if header.length ≠ ramnvSectSize then some ⟨header, none, false⟩
  else
    let size := word header 4
    if size > maxnvSize then none
    else
      let data := (part.drop ramnvSectSize).take size
      if data.length ≠ size then
        some ⟨header, some (data ++ List.replicate (size - data.length) 0), false⟩
      else
        some ⟨header, some data, word header 0 = nvMagic ∧ calcChecksum data = word header 8⟩

structure NvOutcome where
  result : Nat
  org : List UInt8
  bak : List UInt8
  out : List UInt8
  deriving DecidableEq

/-- `read_nv_partition`, where every file can be opened and written. There is no outcome where it
frees a pointer that was never set. -/
def readNvPartition (org bak out : List UInt8) : Option NvOutcome :=
  match readCopy org with
  | none => some ⟨0, org, bak, out⟩
  | some o =>
    o.buf.bind fun buf =>
      match readCopy bak with
      | none => some ⟨0, org, bak, out⟩
      | some b =>
        b.buf.bind fun bakBuf =>
          match o.ok, b.ok with
          | false, false =>
            let header := List.replicate ramnvSectSize 0
            let buf := List.replicate buf.length 0
            some ⟨0, patch org 0 (header ++ buf), patch bak 0 (header ++ buf), patch out 0 buf⟩
          | true, false => some ⟨1, org, patch bak 0 (o.header ++ buf), patch out 0 buf⟩
          | false, true => some ⟨1, patch org 0 (b.header ++ bakBuf), bak, patch out 0 bakBuf⟩
          | true, true => some ⟨1, org, bak, patch out 0 buf⟩

structure ValidNv (part img : List UInt8) : Prop where
  sect : ramnvSectSize ≤ part.length
  magic : word part 0 = nvMagic
  len : word part 4 = img.length
  le : img.length ≤ maxnvSize
  data : (part.drop ramnvSectSize).take img.length = img
  checksum : word part 8 = calcChecksum img

/-- A partition from which reading does not leave early: its header is complete and declares at most
1 MB. -/
structure ReadableNv (part : List UInt8) : Prop where
  sect : ramnvSectSize ≤ part.length
  le : word part 4 ≤ maxnvSize

theorem ValidNv.unique (h : ValidNv part img) (h' : ValidNv part img') : img = img' := by
  rw [← h.data, ← h'.data, ← h.len, ← h'.len]

theorem word_take (h : i + 4 ≤ n) (l : List UInt8) : word (l.take n) i = word l i := by
  simp only [word, drop_take, take_take]
  congr 2
  omega

theorem length_header {part : List UInt8} (h : ramnvSectSize ≤ part.length) :
    (part.take ramnvSectSize).length = ramnvSectSize := by
  rw [length_take]
  omega

theorem ReadableNv.readCopy (h : ReadableNv part) :
    ∃ buf ok, Modemd.readCopy part = some ⟨part.take ramnvSectSize, some buf, ok⟩ ∧
      (ok = true → ValidNv part buf) ∧ (ok = false → ∀ img, ¬ ValidNv part img) := by
  have hlen : (part.take ramnvSectSize).length = ramnvSectSize := length_header h.sect
  have h₀ : word (part.take ramnvSectSize) 0 = word part 0 := word_take (by decide) part
  have h₄ : word (part.take ramnvSectSize) 4 = word part 4 := word_take (by decide) part
  have h₈ : word (part.take ramnvSectSize) 8 = word part 8 := word_take (by decide) part
  simp only [Modemd.readCopy, hlen, h₀, h₄, h₈, ne_eq, not_true_eq_false, if_false,
    if_neg (not_lt.2 h.le)]
  split
  case isTrue hshort =>
    refine ⟨_, _, rfl, fun hok => absurd hok Bool.false_ne_true, fun _ img himg => hshort ?_⟩
    rw [himg.len, himg.data]
  case isFalse hfull =>
    have hfull := not_not.1 hfull
    refine ⟨_, _, rfl, fun hok => ?_, fun hok img himg => ?_⟩
    · obtain ⟨hmagic, hsum⟩ := of_decide_eq_true hok
      exact ⟨h.sect, hmagic, hfull.symm, hfull.trans_le h.le, by rw [hfull], hsum.symm⟩
    · apply of_decide_eq_false hok
      rw [himg.len, himg.data]
      exact ⟨himg.magic, himg.checksum.symm⟩

theorem ValidNv.copy (h : ValidNv part img) (other : List UInt8) :
    ValidNv (patch other 0 (part.take ramnvSectSize ++ img)) img := by
  have hlen := length_header h.sect
  have hword {i : Nat} (hi : i + 4 ≤ ramnvSectSize) :
      word (patch other 0 (part.take ramnvSectSize ++ img)) i = word part i := by
    rw [patch_zero, append_assoc, word_append _ _ (by omega), word_take hi]
  refine ⟨?_, ?_, ?_, h.le, ?_, ?_⟩
  · rw [patch_zero, length_append, length_append, hlen]
    omega
  · rw [hword (by decide), h.magic]
  · rw [hword (by decide), h.len]
  · rw [patch_zero, append_assoc, drop_left' hlen, take_left]
  · rw [hword (by decide), h.checksum]

def nvPartition (len : Nat) (img : List UInt8) : List UInt8 :=
  toLe 4 nvMagic ++ toLe 4 len ++ toLe 4 (calcChecksum img) ++ List.replicate 500 0 ++ img

end SprdVendor.Modemd
