import SprdVendor.LibDm.Base64

namespace SprdVendor.LibDm
open Lib List

def quad1 (a : UInt8) : List UInt8 := quad (a.toNat >>> 2) ((a.toNat &&& 0x03) <<< 4) 64 64

def quad2 (a b : UInt8) : List UInt8 :=
  quad (a.toNat >>> 2) ((a.toNat &&& 0x03) <<< 4 + b.toNat >>> 4) ((b.toNat &&& 0x0F) <<< 2) 64

def quad3 (a b c : UInt8) : List UInt8 :=
  quad (a.toNat >>> 2) ((a.toNat &&& 0x03) <<< 4 + b.toNat >>> 4)
    ((b.toNat &&& 0x0F) <<< 2 + (c.toNat &&& 0xC0) >>> 6) (c.toNat &&& 0x3F)

def fullText (k : Nat) : List UInt8 → List UInt8
  | [] => []
  | [a] => lineBreak k ++ quad1 a
  | [a, b] => lineBreak k ++ quad2 a b
  | a :: b :: c :: l => lineBreak k ++ (quad3 a b c ++ fullText (k + 3) l)

/-- As much of the text as fits into a target of a given size: a group is written whole. -/
def credText (size k : Nat) : List UInt8 → List UInt8
  | [] => []
  | [a] => if size < (lineBreak k).length + 4 then [] else lineBreak k ++ quad1 a
  | [a, b] => if size < (lineBreak k).length + 4 then [] else lineBreak k ++ quad2 a b
  | a :: b :: c :: l =>
    if size < (lineBreak k).length + 4 then []
    else lineBreak k ++
      (quad3 a b c ++ credText (size - (lineBreak k).length - 4) (k + 3) l)

@[simp] theorem length_quad : (quad i0 i1 i2 i3).length = 4 := rfl

theorem length_lineBreak (k : Nat) :
    (lineBreak k).length = if 0 < k ∧ k % 45 = 0 then 2 else 0 := by
  rw [lineBreak, lineFull, maxColumns]
  by_cases h : 0 < k ∧ k % 45 = 0
  · rw [if_pos h, if_pos (by simpa using h)]
    rfl
  · rw [if_neg h, if_neg (by simpa using h)]
    rfl

theorem length_fullText (k : Nat) (hk : k % 3 = 0) (l : List UInt8) :
    (fullText k l).length =
      4 * ((l.length + 2) / 3) + 2 * ((k + l.length - 1) / 45 - (k - 1) / 45) := by
  induction k, l using fullText.induct with
  | case1 k => simp [fullText]
  | case2 k a =>
    simp only [fullText, quad1, length_append, length_quad, length_lineBreak, length_cons,
      length_nil]
    split <;> omega
  | case3 k a b =>
    simp only [fullText, quad2, length_append, length_quad, length_lineBreak, length_cons,
      length_nil]
    split <;> omega
  | case4 k a b c l ih =>
    simp only [fullText, quad3, length_append, length_quad, length_lineBreak, length_cons,
      ih (by omega)]
    split <;> omega

theorem credText_begins (size k : Nat) (l : List UInt8) : credText size k l <+: fullText k l := by
  induction size, k, l using credText.induct with
  | case1 => exact prefix_rfl
  | case2 size k a h => simp [credText, h]
  | case3 size k a h => simp [credText, fullText, h]
  | case4 size k a b h => simp [credText, h]
  | case5 size k a b h => simp [credText, fullText, h]
  | case6 size k a b c l h => simp [credText, h]
  | case7 size k a b c l h ih =>
    simpa only [credText, fullText, if_neg h, prefix_append_right_inj] using ih

theorem credText_eq (h : (fullText k l).length ≤ size) : credText size k l = fullText k l := by
  induction size, k, l using credText.induct with
  | case1 => rfl
  | case2 size k a hs => simp [fullText, quad1] at h; omega
  | case3 size k a hs => simp [credText, fullText, hs]
  | case4 size k a b hs => simp [fullText, quad2] at h; omega
  | case5 size k a b hs => simp [credText, fullText, hs]
  | case6 size k a b c l hs => simp [fullText, quad3] at h; omega
  | case7 size k a b c l hs ih =>
    rw [credText, fullText, if_neg hs, ih]
    simp only [fullText, quad3, length_append, length_quad] at h
    omega

section Encode

variable {data target : List UInt8}

def unsaved (target : List UInt8) (copySize targetSize source offset n : Nat) : Encoder :=
  ⟨target, copySize, targetSize, source, n, offset, 1, some [0, 0, 0, 0]⟩

theorem put_unsaved (h : p + bytes.length ≤ target.length) :
    (unsaved target p z k o n).put bytes =
      .ok (unsaved (patch target p bytes) (p + bytes.length) (z - bytes.length) k o n) :=
  if_pos h

theorem nextByte_unsaved (h : data[k]? = some a) :
    (unsaved target p z k o n).nextByte data = .ok (a, unsaved target p z (k + 1) o (n - 1)) := by
  have hsaved : (unsaved target p z k o n).hasSaved = false := rfl
  rw [Encoder.nextByte, hsaved]
  simp only [unsaved, h]
  rfl

theorem count_unsaved : (unsaved target p z k o n).count = unsaved target p z k (o + 1) n := rfl

theorem dataProcessed_unsaved : (unsaved target p z k o n).dataProcessed = n := rfl

theorem encodeGroup_one (ha : data[k]? = some a) (hroom : p + 4 ≤ target.length) :
    encodeGroup data (unsaved target p z k o 1) =
      .ok (unsaved (patch target p (quad1 a)) (p + 4) (z - 4) (k + 1) (o + 1) 0) := by
  rw [encodeGroup, nextByte_unsaved ha]
  simp only [bind, Except.bind, count_unsaved, dataProcessed_unsaved, sub_self, lt_irrefl,
    if_false]
  exact put_unsaved hroom

theorem encodeGroup_two (ha : data[k]? = some a) (hb : data[k + 1]? = some b)
    (hroom : p + 4 ≤ target.length) :
    encodeGroup data (unsaved target p z k o 2) =
      .ok (unsaved (patch target p (quad2 a b)) (p + 4) (z - 4) (k + 2) (o + 2) 0) := by
  rw [encodeGroup, nextByte_unsaved ha]
  simp only [bind, Except.bind, count_unsaved, dataProcessed_unsaved, nextByte_unsaved hb,
    Nat.reduceSub, Nat.one_pos, Nat.lt_irrefl, if_true, if_false]
  exact put_unsaved hroom

theorem encodeGroup_three (ha : data[k]? = some a) (hb : data[k + 1]? = some b)
    (hc : data[k + 2]? = some c) (hroom : p + 4 ≤ target.length) :
    encodeGroup data (unsaved target p z k o (n + 3)) =
      .ok (unsaved (patch target p (quad3 a b c)) (p + 4) (z - 4) (k + 3) (o + 3) n) := by
  rw [encodeGroup, nextByte_unsaved ha]
  simp only [bind, Except.bind, count_unsaved, dataProcessed_unsaved, nextByte_unsaved hb,
    nextByte_unsaved hc, Nat.add_sub_cancel, Nat.reduceSubDiff, Nat.succ_pos, if_true]
  exact put_unsaved hroom

theorem encodeLoop_stop (h : n = 0 ∨ z < (lineBreak k).length + 4) :
    encodeLoop data 1 (fuel + 1) (unsaved target p z k k n) = .ok (unsaved target p z k k n) := by
  rw [encodeLoop]
  split
  case isFalse => rfl
  case isTrue hgo =>
    obtain ⟨hfour, hn⟩ := hgo
    simp only [unsaved] at hfour hn
    rcases h with rfl | h
    · omega
    apply if_pos
    rw [lineBreak] at h
    split at h
    case isTrue hfull => exact ⟨hfull, h⟩
    case isFalse => exact absurd h (not_lt.2 hfour)

theorem encodeLoop_step (hn : 0 < n) (h : ¬ z < (lineBreak k).length + 4)
    (hroom : p + (lineBreak k).length ≤ target.length) :
    encodeLoop data 1 (fuel + 1) (unsaved target p z k k n) =
      encodeGroup data (unsaved (patch target p (lineBreak k)) (p + (lineBreak k).length)
        (z - (lineBreak k).length) k k n) >>= encodeLoop data 1 fuel := by
  have hbreak : ¬ (lineFull k = true ∧ z < 6) := by
    rintro ⟨hfull, hsix⟩
    rw [lineBreak, if_pos hfull] at h
    exact h hsix
  rw [encodeLoop, if_pos ⟨by exact Nat.le_trans (Nat.le_add_left 4 _) (Nat.not_lt.1 h),
    .inr ⟨hn, rfl⟩⟩, if_neg (by exact hbreak)]
  exact congrArg (· >>= fun s => encodeGroup data s >>= encodeLoop data 1 fuel)
    (put_unsaved hroom)

theorem encodeLoop_group (hn : 0 < n) (h : ¬ z < (lineBreak k).length + 4) (hq : q.length = 4)
    (hgroup : ∀ T p z, p + 4 ≤ T.length → encodeGroup data (unsaved T p z k k n) =
      .ok (unsaved (patch T p q) (p + 4) (z - 4) m m n'))
    (hroom : p + (lineBreak k ++ q).length ≤ target.length) (fuel : Nat) :
    encodeLoop data 1 (fuel + 1) (unsaved target p z k k n) =
      encodeLoop data 1 fuel (unsaved (patch target p (lineBreak k ++ q))
        (p + (lineBreak k ++ q).length) (z - (lineBreak k).length - 4) m m n') := by
  rw [length_append, hq, ← add_assoc] at hroom
  have hbreak : p + (lineBreak k).length ≤ target.length := by omega
  have hlen := length_patch target (lineBreak k) hbreak
  rw [encodeLoop_step hn h hbreak, hgroup _ _ _ (by omega), patch_patch _ _ _ hbreak,
    length_append, hq, ← add_assoc]
  rfl

theorem encodeLoop_full (htext : credText z k l = [])
    (hend : l.length = 0 ∨ z < (lineBreak k).length + 4) :
    ∃ z' m n, encodeLoop data 1 (fuel + 1) (unsaved target p z k k l.length) =
      .ok (unsaved (patch target p (credText z k l)) (p + (credText z k l).length) z' m m n) := by
  rw [htext, patch_nil]
  exact ⟨z, k, l.length, encodeLoop_stop hend⟩

theorem getElem?_of_prefix_drop (hl : l <+: data.drop k) (i : Nat)
    (hi : i < l.length) : data[k + i]? = some l[i] := by
  obtain ⟨rest, hrest⟩ := hl
  rw [← getElem?_drop, ← hrest, getElem?_append_left hi, getElem?_eq_getElem hi]

theorem encodeLoop_eq (hl : l <+: data.drop k) (hfuel : z < 4 * fuel + 4)
    (hroom : p + (credText z k l).length ≤ target.length) :
    ∃ z' m n, encodeLoop data 1 (fuel + 1) (unsaved target p z k k l.length) =
      .ok (unsaved (patch target p (credText z k l)) (p + (credText z k l).length) z' m m n) := by
  have hat := getElem?_of_prefix_drop hl
  induction z, k, l using credText.induct generalizing fuel target p with
  | case1 z k => exact encodeLoop_full rfl (.inl rfl)
  | case2 z k a h => exact encodeLoop_full (by rw [credText, if_pos h]) (.inr h)
  | case4 z k a b h => exact encodeLoop_full (by rw [credText, if_pos h]) (.inr h)
  | case6 z k a b c l h => exact encodeLoop_full (by rw [credText, if_pos h]) (.inr h)
  | case3 z k a h =>
    obtain ⟨fuel, rfl⟩ : ∃ f, fuel = f + 1 := ⟨fuel - 1, by omega⟩
    rw [credText, if_neg h] at hroom ⊢
    have hturn := encodeLoop_group one_pos h length_quad
      (fun T p z hp => encodeGroup_one (hat 0 (by simp)) hp) hroom (fuel + 1)
    exact ⟨_, _, 0, hturn.trans (encodeLoop_stop (.inl rfl))⟩
  | case5 z k a b h =>
    obtain ⟨fuel, rfl⟩ : ∃ f, fuel = f + 1 := ⟨fuel - 1, by omega⟩
    rw [credText, if_neg h] at hroom ⊢
    have hturn := encodeLoop_group two_pos h length_quad
      (fun T p z hp => encodeGroup_two (hat 0 (by simp)) (hat 1 (by simp)) hp) hroom (fuel + 1)
    exact ⟨_, _, 0, hturn.trans (encodeLoop_stop (.inl rfl))⟩
  | case7 z k a b c l h ih =>
    obtain ⟨fuel, rfl⟩ : ∃ f, fuel = f + 1 := ⟨fuel - 1, by omega⟩
    rw [credText, if_neg h, ← append_assoc, length_append, ← add_assoc] at hroom ⊢
    have hgroup : p + (lineBreak k ++ quad3 a b c).length ≤ target.length := by omega
    have hrest : l <+: data.drop (k + 3) := by
      rw [← drop_drop]
      exact hl.drop 3
    have hturn := encodeLoop_group (Nat.succ_pos (l.length + 2)) h length_quad
      (fun T p z hp => encodeGroup_three (hat 0 (by simp)) (hat 1 (by simp)) (hat 2 (by simp)) hp)
      hgroup (fuel + 1)
    have hpatched := length_patch _ _ hgroup
    obtain ⟨z', m, n, hloop⟩ := @ih (patch target p (lineBreak k ++ quad3 a b c)) fuel
      (p + (lineBreak k ++ quad3 a b c).length) hrest (by omega) (by omega)
      (getElem?_of_prefix_drop hrest)
    rw [patch_patch _ _ _ hgroup] at hloop
    exact ⟨z', m, n, hturn.trans hloop⟩

theorem credText_fits (size : Nat) (hn : 0 < l.length) :
    (credText size 0 l).length + 1 < l.length * 2 + 4 := by
  have hle := (credText_begins size 0 l).length_le
  have hlen := length_fullText 0 rfl l
  omega

theorem length_shiftRest (data : List UInt8) (s : Encoder) :
    (shiftRest data s).length = data.length := by
  apply length_patch
  rw [length_take, length_drop]
  omega

variable {malloc : Nat → Option (List UInt8)} {creddata : List UInt8}

theorem base64Encode_eq (hdata : n ≤ data.length)
    (hroom : (credText digestSize 0 (data.take n)).length ≤ target.length) :
    ∃ s : Encoder, s.target = patch target 0 (credText digestSize 0 (data.take n)) ∧
      s.copySize = (credText digestSize 0 (data.take n)).length ∧
      base64Encode target digestSize (some data) n 0 1 (some [0, 0, 0, 0]) =
        .ok (s, some (shiftRest data s)) := by
  have htake : (data.take n).length = n := length_take_of_le hdata
  have hprefix : data.take n <+: data.drop 0 := take_prefix n data
  rw [← zero_add (List.length _)] at hroom
  obtain ⟨z', m, n', hloop⟩ := encodeLoop_eq hprefix (by decide : digestSize < 4 * 20 + 4) hroom
  rw [htake, zero_add] at hloop
  generalize credText digestSize 0 (data.take n) = text at *
  refine ⟨unsaved (patch target 0 text) text.length z' m m n', rfl, rfl, ?_⟩
  exact congrArg (· >>= fun s => .ok (s, some (shiftRest data s))) hloop

theorem calcB64Cred_eq (hmalloc : ∀ size, ∃ buf, malloc size = some buf ∧ buf.length = size)
    (hdata : n ≤ creddata.length) (hn : 0 < n) (hlong : n * 2 + 4 < 2 ^ 32) :
    ∃ moved, moved.length = creddata.length ∧
      calcB64Cred malloc creddata n =
        writeCred moved 0 (credText digestSize 0 (creddata.take n)) >>= fun cred =>
          writeCred cred (credText digestSize 0 (creddata.take n)).length [0] := by
  obtain ⟨out, hout, hsize⟩ := hmalloc (n * 2 + 4)
  have htake : (creddata.take n).length = n := length_take_of_le hdata
  have hfits : (credText digestSize 0 (creddata.take n)).length + 1 < out.length := by
    have hfits := credText_fits digestSize (hn.trans_eq htake.symm)
    rwa [htake, ← hsize] at hfits
  obtain ⟨s, htarget, hcopy, hencode⟩ := base64Encode_eq hdata (by omega : _ ≤ out.length)
  generalize credText digestSize 0 (creddata.take n) = text at *
  have hpatched : s.target.length = out.length := by
    rw [htarget]
    exact length_patch _ _ (by omega)
  have hcopied : (s.target.set s.copySize 0).take s.copySize = text := by
    rw [hcopy, take_set_of_le le_rfl, htarget, patch_zero, take_left]
  refine ⟨_, length_shiftRest creddata s, ?_⟩
  rw [calcB64Cred, if_neg hn.ne', Nat.mod_eq_of_lt hlong, hout]
  simp only [hencode, bind, Except.bind, Option.getD_some]
  rw [if_pos (by omega), hcopied, hcopy]

theorem writeCred_ne_target : writeCred creddata i bytes ≠ .error .target := by
  rw [writeCred]
  split
  · intro h
    cases h
  · intro h
    cases h

end Encode

end SprdVendor.LibDm
