import SprdVendor.NvItem.Buf

namespace SprdVendor.NvItem
open Lib List Option

variable {p p' : Part}

def tableSectors : Nat := 32 * dirtyTableMaxSize

theorem markWords_isSome_iff [Target] (hb : bits < 32) :
    (markWords ws bits scts).isSome ↔ ws ≠ [] ∧ bits + scts ≤ 32 * ws.length := by
  induction ws generalizing bits scts with
  | nil => simp [markWords]
  | cons w ws ih =>
    rw [markWords, length_cons]
    split
    · rename_i hs
      rw [isSome_map, ih (by omega)]
      have hw : ws ≠ [] ↔ 0 < ws.length := length_pos_iff.symm
      rw [hw]
      constructor
      · rintro ⟨-, h⟩
        exact ⟨cons_ne_nil _ _, by omega⟩
      · rintro ⟨-, h⟩
        exact ⟨by omega, by omega⟩
    · rename_i hs
      simp only [isSome_some, true_iff]
      exact ⟨cons_ne_nil _ _, by omega⟩

theorem DirtyTable.markDirtyInfo_eq_none_iff [Target] (t : DirtyTable) (start scts : Nat) :
    t.markDirtyInfo start scts = none ↔
      markWords (t.words.drop (start / 32)) (start % 32) scts = none := by
  unfold DirtyTable.markDirtyInfo
  split
  · rename_i h
    exact ⟨fun _ => h, fun _ => rfl⟩
  · rename_i ws h
    exact ⟨nofun, fun hn => nomatch h.symm.trans hn⟩

theorem DirtyTable.markDirtyInfo_isSome_iff [Target] (t : DirtyTable) (start scts : Nat) :
    (t.markDirtyInfo start scts).isSome ↔
      start < tableSectors ∧ start + scts ≤ tableSectors := by
  have hw : (t.markDirtyInfo start scts).isSome ↔
      (markWords (t.words.drop (start / 32)) (start % 32) scts).isSome := by
    rw [isSome_iff_ne_none, isSome_iff_ne_none, ne_eq, ne_eq, t.markDirtyInfo_eq_none_iff]
  rw [hw, markWords_isSome_iff (Nat.mod_lt _ (by decide)), ← length_pos_iff,
    length_drop, t.length_words, tableSectors, dirtyTableMaxSize]
  omega

theorem DirtyTable.hasDirty_iff (t : DirtyTable) : t.hasDirty ↔ ∃ w ∈ t.words, w ≠ 0 := by
  simp [DirtyTable.hasDirty]

@[simp] theorem DirtyTable.hasDirty_clean : DirtyTable.clean.hasDirty = false := by
  decide

/-- The library's lemma is about `0#32`, which `rw` does not find in a goal about the numeral. -/
theorem or_eq_zero_iff (a b : BitVec 32) : a ||| b = 0 ↔ a = 0 ∧ b = 0 :=
  BitVec.or_eq_zero_iff

theorem any_zipWith_or (ws vs : List (BitVec 32)) (h : ws.length = vs.length) :
    (List.zipWith (· ||| ·) ws vs).any (· != 0) = (ws.any (· != 0) || vs.any (· != 0)) := by
  induction ws generalizing vs with
  | nil =>
    cases vs with
    | nil => rfl
    | cons => cases h
  | cons w ws ih =>
    cases vs with
    | nil => cases h
    | cons v vs =>
      have hb : ((w ||| v) != 0) = ((w != 0) || (v != 0)) := by
        rw [Bool.eq_iff_iff, Bool.or_eq_true, bne_iff_ne, bne_iff_ne, bne_iff_ne, ne_eq,
          or_eq_zero_iff, not_and_or]
      rw [zipWith_cons_cons, any_cons, any_cons, any_cons, ih vs (Nat.succ.inj h), hb]
      cases w != 0 <;> cases v != 0 <;> cases ws.any (· != 0) <;> rfl

@[simp] theorem DirtyTable.hasDirty_union (t t' : DirtyTable) :
    (t.union t').hasDirty = (t.hasDirty || t'.hasDirty) :=
  any_zipWith_or _ _ (t.length_words.trans t'.length_words.symm)

theorem shrMask_shl_getLsbD [Target] (hs : 0 < scts) (i : Nat) :
    (shrMask (32 - scts) <<< bits).getLsbD i = decide (i < 32 ∧ bits ≤ i ∧ i < bits + scts) := by
  rw [shrMask, if_pos (by omega), Bool.eq_iff_iff]
  simp only [BitVec.getLsbD_shiftLeft, BitVec.getLsbD_ushiftRight, BitVec.getLsbD_allOnes,
    Bool.and_eq_true, Bool.not_eq_true', decide_eq_true_eq, decide_eq_false_iff_not]
  omega

def bitAt (ws : List (BitVec 32)) (s : Nat) : Bool := (ws[s / 32]?.getD 0).getLsbD (s % 32)

theorem bitAt_cons (hs : 32 ≤ s) : bitAt (w :: ws) s = bitAt ws (s - 32) := by
  have hd : s / 32 = (s - 32) / 32 + 1 := by omega
  have hm : s % 32 = (s - 32) % 32 := by omega
  rw [bitAt, bitAt, hd, hm, getElem?_cons_succ]

theorem bitAt_head (hs : s < 32) : bitAt (w :: ws) s = w.getLsbD s := by
  rw [bitAt, Nat.div_eq_of_lt hs, Nat.mod_eq_of_lt hs]
  rfl

theorem bitAt_markWords [Target] (h : markWords ws bits scts = some vs) (hb : bits < 32)
    (hs : 0 < scts) (s : Nat) :
    bitAt vs s = (bitAt ws s || decide (bits ≤ s ∧ s < bits + scts)) := by
  induction ws generalizing bits scts vs s with
  | nil => cases h
  | cons w ws ih =>
    rw [markWords] at h
    split at h
    · obtain ⟨us, hu, rfl⟩ := map_eq_some_iff.1 h
      rcases Nat.lt_or_ge s 32 with hlt | hge
      · have hm : BitVec.allOnes 32 = shrMask (32 - 32) := by simp [shrMask]
        have hi : (s < 32 ∧ bits ≤ s ∧ s < bits + 32) ↔ bits ≤ s ∧ s < bits + scts := by omega
        rw [bitAt_head hlt, bitAt_head hlt, BitVec.getLsbD_or, hm, shrMask_shl_getLsbD (by decide),
          decide_eq_decide.2 hi]
      · have hi : (0 ≤ s - 32 ∧ s - 32 < 0 + (scts - (32 - bits))) ↔
            bits ≤ s ∧ s < bits + scts := by omega
        rw [bitAt_cons hge, bitAt_cons hge, ih hu (by decide) (by omega), decide_eq_decide.2 hi]
    · cases h
      rcases Nat.lt_or_ge s 32 with hlt | hge
      · rw [bitAt_head hlt, bitAt_head hlt, BitVec.getLsbD_or, shrMask_shl_getLsbD hs]
        simp only [hlt, true_and]
      · rw [bitAt_cons hge, bitAt_cons hge, decide_eq_false (by omega), Bool.or_false]

def DirtyTable.isDirty (t : DirtyTable) (sector : Nat) : Bool := bitAt t.words sector

theorem DirtyTable.hasDirty_of_isDirty {t : DirtyTable} (h : t.isDirty s) : t.hasDirty := by
  rw [DirtyTable.hasDirty_iff]
  rw [DirtyTable.isDirty, bitAt] at h
  cases hw : t.words[s / 32]? with
  | none => simp [hw] at h
  | some w =>
    refine ⟨w, mem_of_getElem? hw, ?_⟩
    rintro rfl
    simp [hw] at h

theorem DirtyTable.isDirty_markDirtyInfo [Target] {t t' : DirtyTable}
    (h : t.markDirtyInfo start scts = some t') (hs : 0 < scts) (s : Nat) :
    t'.isDirty s = (t.isDirty s || decide (start ≤ s ∧ s < start + scts)) := by
  have hst := ((t.markDirtyInfo_isSome_iff start scts).1 (by rw [h]; rfl)).1
  rw [tableSectors, dirtyTableMaxSize] at hst
  unfold DirtyTable.markDirtyInfo at h
  split at h
  · cases h
  rename_i ws hw
  cases h
  have hl : (t.words.take (start / 32)).length = start / 32 := by
    rw [length_take, t.length_words, dirtyTableMaxSize]
    omega
  rw [DirtyTable.isDirty, DirtyTable.isDirty, bitAt]
  rcases Nat.lt_or_ge (s / 32) (start / 32) with hlt | hge
  · rw [getElem?_append_left (by omega), getElem?_take_of_lt hlt, decide_eq_false (by omega),
      Bool.or_false]
    rfl
  · -- The word of `s` is one that the loop is given, at the sector counted from its first word.
    have hq : (s - 32 * (start / 32)) / 32 = s / 32 - start / 32 := by omega
    have hm : (s - 32 * (start / 32)) % 32 = s % 32 := by omega
    have hi : (start % 32 ≤ s - 32 * (start / 32) ∧
        s - 32 * (start / 32) < start % 32 + scts) ↔ start ≤ s ∧ s < start + scts := by omega
    have hb := bitAt_markWords hw (Nat.mod_lt _ (by decide)) hs (s - 32 * (start / 32))
    rw [decide_eq_decide.2 hi, bitAt, bitAt, hq, hm, getElem?_drop, Nat.add_sub_cancel' hge] at hb
    rw [getElem?_append_right (by omega), hl]
    exact hb

theorem DirtyTable.markDirtyInfo_hasDirty [Target] {t t' : DirtyTable}
    (h : t.markDirtyInfo start scts = some t') (hs : 0 < scts) : t'.hasDirty := by
  refine DirtyTable.hasDirty_of_isDirty (s := start) ?_
  rw [DirtyTable.isDirty_markDirtyInfo h hs, Bool.or_eq_true, decide_eq_true_eq]
  exact .inr ⟨Nat.le_refl _, by omega⟩

/-- The amounts by which `_markDirtyInfo` shifts a word, in its order. -/
def markShifts : List (BitVec 32) → (bits scts : Nat) → List Nat
  | [], _, _ => []
  | _ :: ws, bits, scts =>
    if 32 - bits < scts then bits :: markShifts ws 0 (scts - (32 - bits)) else [32 - scts, bits]

theorem lt_of_mem_markShifts (hb : bits < 32) (hs : 0 < scts)
    (hn : n ∈ markShifts ws bits scts) : n < 32 := by
  induction ws generalizing bits scts with
  | nil => cases hn
  | cons w ws ih =>
    rw [markShifts] at hn
    split at hn
    · rcases mem_cons.1 hn with rfl | hn
      · exact hb
      · exact ih (by decide) (by omega) hn
    · simp only [mem_cons, not_mem_nil, or_false] at hn
      omega

def DirtyTable.markShifts (t : DirtyTable) (start scts : Nat) : List Nat :=
  NvItem.markShifts (t.words.drop (start / 32)) (start % 32) scts

theorem markWords_mono [Target] (h : markWords ws bits scts = some vs) (hw : ∃ w ∈ ws, w ≠ 0) :
    ∃ w ∈ vs, w ≠ 0 := by
  have hor {a b : BitVec 32} (ha : a ≠ 0) : a ||| b ≠ 0 :=
    fun hz => ha ((or_eq_zero_iff a b).1 hz).1
  induction ws generalizing bits scts vs with
  | nil => cases h
  | cons v ws ih =>
    rw [markWords] at h
    obtain ⟨w, hm, hn⟩ := hw
    split at h
    · obtain ⟨us, hu, rfl⟩ := map_eq_some_iff.1 h
      rcases mem_cons.1 hm with rfl | hm
      · exact ⟨_, mem_cons_self, hor hn⟩
      · obtain ⟨w', hm', hn'⟩ := ih hu ⟨w, hm, hn⟩
        exact ⟨w', mem_cons_of_mem _ hm', hn'⟩
    cases h
    rcases mem_cons.1 hm with rfl | hm
    · exact ⟨_, mem_cons_self, hor hn⟩
    · exact ⟨w, mem_cons_of_mem _ hm, hn⟩

theorem DirtyTable.markDirtyInfo_mono [Target] {t t' : DirtyTable}
    (h : t.markDirtyInfo start scts = some t') (ht : t.hasDirty) : t'.hasDirty := by
  unfold DirtyTable.markDirtyInfo at h
  split at h
  · cases h
  rename_i ws hw
  cases h
  rw [DirtyTable.hasDirty_iff] at ht ⊢
  obtain ⟨w, hm, hn⟩ := ht
  rw [← take_append_drop (start / 32) t.words] at hm
  rcases mem_append.1 hm with hm | hm
  · exact ⟨w, mem_append_left _ hm, hn⟩
  · obtain ⟨w', hm', hn'⟩ := markWords_mono hw ⟨w, hm, hn⟩
    exact ⟨w', mem_append_right _ hm', hn'⟩

structure BufCtrl.Sound (c : BufCtrl) (n : Nat) : Prop where
  len : n ≤ c.diskbuf.length
  ecc : c.chkNVBufEcc n = true

theorem BufCtrl.chkNVBufEcc_iff (c : BufCtrl) :
    c.chkNVBufEcc n = true ↔ calcChecksum (c.image n) = c.checksum :=
  beq_iff_eq

theorem BufCtrl.length_image {c : BufCtrl} (h : c.Sound n) : (c.image n).length = n := by
  rw [BufCtrl.image, length_take, min_eq_left h.len]

theorem BufCtrl.copyFrom_image {c src : BufCtrl} (hs : src.Sound n) (t : DirtyTable) :
    (c.copyFrom src n t).image n = src.image n := by
  have hl := BufCtrl.length_image hs
  change (patch c.diskbuf 0 (src.image n)).take n = src.image n
  rw [patch_zero, take_append_of_le_length (le_of_eq hl.symm),
    take_of_length_le (le_of_eq hl)]

theorem BufCtrl.copyFrom_sound {c src : BufCtrl} (hc : c.Sound n) (hs : src.Sound n)
    (t : DirtyTable) : (c.copyFrom src n t).Sound n where
  len := by
    simp only [BufCtrl.copyFrom]
    rw [length_patch _ _ (by rw [BufCtrl.length_image hs, zero_add]; exact hc.len)]
    exact hc.len
  ecc := (BufCtrl.chkNVBufEcc_iff _).2 rfl

structure Part.Sound (p : Part) : Prop where
  fromChannel : p.fromChannel.Sound p.bytes
  backup : p.backup.Sound p.bytes
  toDisk : p.toDisk.Sound p.bytes

def Part.fromImage (p : Part) : List UInt8 := p.fromChannel.image p.bytes
def Part.backupImage (p : Part) : List UInt8 := p.backup.image p.bytes
def Part.toDiskImage (p : Part) : List UInt8 := p.toDisk.image p.bytes

theorem Part.bytes_of_key {p q : Part} (h : p.key = q.key) : p.bytes = q.bytes :=
  congrArg (fun k => sectSize * k.2) h

def NvConfig.Fits (c : NvConfig × List UInt8) : Prop :=
  c.1.imageSize % sectSize = 0 ∧ c.1.imageSize ≤ c.2.length
deriving Decidable

theorem initPart_sound (h : NvConfig.Fits c) : (initPart c.1 c.2).Sound := by
  have hb : (initPart c.1 c.2).bytes = c.1.imageSize :=
    Nat.mul_div_cancel' (Nat.dvd_of_mod_eq_zero h.1)
  have hs : (initPart c.1 c.2).fromChannel.Sound (initPart c.1 c.2).bytes := by
    rw [hb]
    exact ⟨h.2, (BufCtrl.chkNVBufEcc_iff _).2 rfl⟩
  exact ⟨hs, hs, hs⟩

theorem Part.markDirtyInfo_spec [Target] (h : p.markDirtyInfo start scts = some p') :
    ∃ t, p.fromChannel.dirty.markDirtyInfo start scts = some t ∧
      p' = { p with fromChannel := { p.fromChannel with dirty := t } } := by
  obtain ⟨t, ht, hp⟩ := map_eq_some_iff.1 h
  exact ⟨t, ht, hp.symm⟩

theorem Part.Sound.setDirty (hp : p.Sound) (t : DirtyTable) :
    Part.Sound { p with fromChannel := { p.fromChannel with dirty := t } } :=
  ⟨⟨hp.fromChannel.len, hp.fromChannel.ecc⟩, hp.backup, hp.toDisk⟩

theorem Part.Sound.writeData (hp : p.Sound) (h : start + d.length ≤ p.bytes) :
    ∃ c, p.writeData start d = some { p with fromChannel := c } ∧
      c.Sound p.bytes ∧ c.image p.bytes = patch p.fromImage start d ∧
      c.dirty = p.fromChannel.dirty := by
  by_cases hd : d.length = 0
  · refine ⟨p.fromChannel, by rw [Part.writeData, if_neg (fun h => h hd)], hp.fromChannel, ?_, rfl⟩
    rw [eq_nil_of_length_eq_zero hd, patch_nil]
    rfl
  have hlen := hp.fromChannel.len
  let buf := patch p.fromChannel.diskbuf start d
  refine ⟨⟨buf, p.fromChannel.dirty, calcChecksum (buf.take p.bytes)⟩, ?_,
    ⟨?_, (BufCtrl.chkNVBufEcc_iff _).2 rfl⟩, take_patch _ _ h, rfl⟩
  · rw [Part.writeData, if_pos hd, if_pos hp.fromChannel.ecc, if_pos (by omega)]
  · change p.bytes ≤ buf.length
    rw [length_patch _ _ (by omega)]
    exact hlen

theorem Part.Sound.of_writeData (hp : p.Sound) (h : p.writeData start d = some p') :
    p'.Sound ∧ p'.fromChannel.dirty = p.fromChannel.dirty ∧ p'.backup = p.backup ∧
      p'.toDisk = p.toDisk ∧ p'.key = p.key := by
  unfold Part.writeData at h
  by_cases hd : d.length ≠ 0
  · rw [if_pos hd, if_pos hp.fromChannel.ecc] at h
    split at h
    · rename_i hl
      cases h
      have hlen : p.bytes ≤ (patch p.fromChannel.diskbuf start d).length := by
        rw [length_patch _ _ hl]
        exact hp.fromChannel.len
      exact ⟨⟨⟨hlen, (BufCtrl.chkNVBufEcc_iff _).2 rfl⟩, hp.backup, hp.toDisk⟩, rfl, rfl, rfl, rfl⟩
    · cases h
  · rw [if_neg hd] at h
    cases h
    exact ⟨hp, rfl, rfl, rfl, rfl⟩

theorem Part.Sound.commit (hp : p.Sound) :
    ∃ c, p.commit = { p with backup := c } ∧ c.Sound p.bytes ∧ c.image p.bytes = p.fromImage ∧
      c.dirty = p.backup.dirty.union p.fromChannel.dirty :=
  ⟨_, if_pos hp.fromChannel.ecc, BufCtrl.copyFrom_sound hp.backup hp.fromChannel _,
    BufCtrl.copyFrom_image hp.fromChannel _, rfl⟩

theorem Part.Sound.restoreData (hp : p.Sound) :
    ∃ c, p.restoreData = { p with fromChannel := c } ∧ c.Sound p.bytes ∧
      c.image p.bytes = p.backupImage ∧ c.dirty = p.backup.dirty :=
  ⟨_, if_pos hp.backup.ecc, BufCtrl.copyFrom_sound hp.fromChannel hp.backup _,
    BufCtrl.copyFrom_image hp.backup _, rfl⟩

theorem Part.Sound.getData (hp : p.Sound) :
    ∃ c, p.getData = { p with toDisk := c, backup := { p.backup with dirty := .clean } } ∧
      c.Sound p.bytes ∧ c.image p.bytes = p.backupImage ∧
      c.dirty = p.toDisk.dirty.union p.backup.dirty :=
  ⟨_, if_pos hp.backup.ecc, BufCtrl.copyFrom_sound hp.toDisk hp.backup _,
    BufCtrl.copyFrom_image hp.backup _, rfl⟩

structure Part.Kept (p p' : Part) : Prop where
  key : p'.key = p.key
  sound : p'.Sound
  fromChannel : p'.fromChannel = p.fromChannel
  backupImage : p'.backupImage = p.backupImage

theorem Part.Kept.fromImage (h : p.Kept p') : p'.fromImage = p.fromImage := by
  rw [Part.fromImage, Part.fromImage, h.fromChannel, Part.bytes_of_key h.key]

theorem Part.Kept.trans {p q r : Part} (h : p.Kept q) (h' : q.Kept r) : p.Kept r :=
  ⟨h'.key.trans h.key, h'.sound, h'.fromChannel.trans h.fromChannel,
    h'.backupImage.trans h.backupImage⟩

theorem Part.Sound.kept (hp : p.Sound) : p.Kept p := ⟨rfl, hp, rfl, rfl⟩

theorem Part.Sound.kept_getData (hp : p.Sound) : p.Kept p.getData := by
  obtain ⟨c, hc, hs, -, -⟩ := hp.getData
  rw [hc]
  exact ⟨rfl, ⟨hp.fromChannel, ⟨hp.backup.len, hp.backup.ecc⟩, hs⟩, rfl, rfl⟩

theorem Part.Sound.kept_written (hp : p.Sound) (ok : Bool) : p.Kept (p.written ok) := by
  cases ok with
  | false => exact hp.kept
  | true => exact ⟨rfl, ⟨hp.fromChannel, hp.backup, ⟨hp.toDisk.len, hp.toDisk.ecc⟩⟩, rfl, rfl⟩

theorem Part.Sound.kept_save (hp : p.Sound) (ok : Bool) : p.Kept (p.save ok) := by
  have hg := hp.kept_getData
  unfold Part.save
  split
  · split
    · exact hg.trans (hg.sound.kept_written ok)
    · exact hg
  · exact hp.kept

theorem onPart_some (hi : ctl[i]? = some p) (hf : f p = some p') :
    onPart ctl (some i) f = some (ctl.set i p') := by
  rw [onPart, bind_some, hi, bind_some, hf, map_some]

theorem onPart_eq_some (h : onPart ctl k f = some ctl') :
    ∃ i p p', k = some i ∧ ctl[i]? = some p ∧ f p = some p' ∧ ctl' = ctl.set i p' := by
  obtain ⟨i, hi, h⟩ := bind_eq_some_iff.1 h
  obtain ⟨p, hp, h⟩ := bind_eq_some_iff.1 h
  obtain ⟨p', hf, h⟩ := map_eq_some_iff.1 h
  exact ⟨i, p, p', hi, hp, hf, h.symm⟩

theorem getElem?_set_some {l : List α} (hi : l[i]? = some a) (hj : (l.set i b)[j]? = some c) :
    (i = j ∧ c = b) ∨ (i ≠ j ∧ l[j]? = some c) := by
  by_cases hij : i = j
  · subst hij
    have hl := (List.getElem?_eq_some_iff.1 hi).1
    rw [getElem?_set_self hl] at hj
    exact .inl ⟨rfl, (Option.some.inj hj).symm⟩
  · rw [getElem?_set_ne hij] at hj
    exact .inr ⟨hij, hj⟩

theorem onPart_getElem {ctl ctl' : List Part} (h : onPart ctl k f = some ctl')
    (hj : ctl'[j]? = some q') :
    ∃ q, ctl[j]? = some q ∧ (q' = q ∨ k = some j ∧ f q = some q') := by
  obtain ⟨i, p, p', rfl, hp, hf, rfl⟩ := onPart_eq_some h
  rcases getElem?_set_some hp hj with ⟨rfl, rfl⟩ | ⟨-, hj⟩
  · exact ⟨p, hp, .inr ⟨rfl, hf⟩⟩
  · exact ⟨q', hj, .inl rfl⟩

theorem getCtlId_lt (h : getCtlId ctl k = some i) : i < ctl.length := by
  obtain ⟨hi, -⟩ := findIdx?_eq_some_iff_getElem.1 h
  exact hi

theorem getCtlId_congr (h : ctl.map Part.key = ctl'.map Part.key) :
    getCtlId ctl = getCtlId ctl' := by
  have he (l : List Part) (k : Nat) :
      getCtlId l k = (l.map Part.key).findIdx? fun q => q.1 == k := by
    rw [findIdx?_map]
    rfl
  funext k
  rw [he, he, h]

theorem map_key_set {ctl : List Part} (hi : ctl[i]? = some p) (hk : p'.key = p.key) :
    (ctl.set i p').map Part.key = ctl.map Part.key := by
  obtain ⟨hl, hp⟩ := List.getElem?_eq_some_iff.1 hi
  rw [map_set, hk, ← hp, ← getElem_map Part.key (h := by rwa [length_map]),
    set_getElem_self]

theorem onPart_map_key (h : onPart ctl k f = some ctl')
    (hf : ∀ p p', f p = some p' → p'.key = p.key) : ctl'.map Part.key = ctl.map Part.key := by
  obtain ⟨i, p, p', -, hp, hfp, rfl⟩ := onPart_eq_some h
  exact map_key_set hp (hf p p' hfp)

theorem Part.markDirtyInfo_key [Target] (h : p.markDirtyInfo start scts = some p') :
    p'.key = p.key := by
  obtain ⟨t, -, rfl⟩ := Part.markDirtyInfo_spec h
  rfl

theorem Part.writeData_key (h : p.writeData start d = some p') :
    p'.key = p.key := by
  unfold Part.writeData at h
  split at h
  · split at h
    · split at h
      · cases h
        rfl
      · cases h
    · cases h
      rfl
  · cases h
    rfl

theorem Part.commit_key (p : Part) : p.commit.key = p.key := by
  unfold Part.commit
  split <;> rfl

theorem Part.commit_fromChannel (p : Part) : p.commit.fromChannel = p.fromChannel := by
  unfold Part.commit
  split <;> rfl

theorem Part.restoreData_key (p : Part) : p.restoreData.key = p.key := by
  unfold Part.restoreData
  split <;> rfl

theorem Part.save_key (p : Part) (ok : Bool) : (p.save ok).key = p.key := by
  have hg : p.getData.key = p.key := by
    unfold Part.getData
    split <;> rfl
  unfold Part.save
  split
  · split
    · cases ok <;> exact hg
    · exact hg
  · rfl

def RangeFits (keys : List (Nat × Nat)) (g : Nat × Nat × Nat) : Prop :=
  ∃ k, keys[g.1]? = some k ∧ g.2.1 + g.2.2 ≤ k.2 ∧ g.2.1 < tableSectors ∧
    g.2.1 + g.2.2 ≤ tableSectors

instance (keys : List (Nat × Nat)) (g : Nat × Nat × Nat) : Decidable (RangeFits keys g) :=
  inferInstanceAs (Decidable (∃ k, k ∈ keys[g.1]? ∧ _))

end SprdVendor.NvItem
