import SprdVendor.NvItem.Checked

namespace SprdVendor.NvItem
open Lib List

structure Disk.Holds (d : Disk) (img : List UInt8) : Prop where
  image : d.image = some (stored img)
  imageBak : d.imageBak = some (stored img)

instance (d : Disk) (img : List UInt8) : Decidable (d.Holds img) :=
  decidable_of_iff (d.image = some (stored img) ∧ d.imageBak = some (stored img))
    ⟨fun h => ⟨h.1, h.2⟩, fun h => ⟨h.image, h.imageBak⟩⟩

def WriteRes.Full (w : WriteRes) (buf : List UInt8) : Prop := w ≠ .noOpen ∧ w.ret buf = true
deriving Decidable

theorem writeFile_full (h : WriteRes.Full w buf) (old : Option (List UInt8)) :
    writeFile w (nvHeader buf) buf old = some (stored buf) := by
  cases w with
  | noOpen => exact (h.1 rfl).elim
  | wrote n m =>
    have hr := h.2
    simp only [WriteRes.ret, Bool.and_eq_true, decide_eq_true_eq] at hr
    rw [writeFile, take_of_length_le (by rw [length_nvHeader]; exact hr.1), take_of_length_le hr.2]
    rfl

theorem ramDiskWrite_full (h : WriteRes.Full w buf) (h' : WriteRes.Full w' buf) (d : Disk) :
    (ramDiskWrite w w' d buf).1.Holds buf ∧ (ramDiskWrite w w' d buf).2 = true := by
  refine ⟨⟨writeFile_full h' d.image, writeFile_full h d.imageBak⟩, ?_⟩
  change (w.ret buf && w'.ret buf) = true
  rw [h.2, h'.2, Bool.and_self]

def Saver.writing : Saver → Option Nat
  | .save (.write i) => some i
  | _ => none

def Sys.WriteOk (s : Sys) : Act → Prop
  | .saver w => ∀ i ∈ s.saver.writing, ∀ p ∈ s.nv.ctl[i]?,
      w.1.Full p.toDiskImage ∧ w.2.Full p.toDiskImage
  | _ => True

instance (s : Sys) : (a : Act) → Decidable (s.WriteOk a)
  | .saver w => inferInstanceAs (Decidable (∀ i ∈ s.saver.writing, ∀ p ∈ s.nv.ctl[i]?,
      w.1.Full p.toDiskImage ∧ w.2.Full p.toDiskImage))
  | .read _ _ | .sync _ | .wake => inferInstanceAs (Decidable True)

/-- A committed image is on disk, or about to be written there, or its backup is dirty. -/
def Sys.Due (s : Sys) (i : Nat) (p : Part) : Prop :=
  p.backup.dirty.hasDirty = true ∨
    if s.saver.writing = some i then p.toDiskImage = p.backupImage
    else (s.disk i).Holds p.backupImage

structure Sys.Safe (s : Sys) : Prop where
  marked : s.nv.Marked
  pc : ∀ p, s.pc ≠ .save p
  due : Each s.Due s.nv.ctl

variable {s s' : Sys}

theorem Sys.due_of_writing (hs : s.saver.writing = some i) :
    s.Due i p ↔ p.backup.dirty.hasDirty = true ∨ p.toDiskImage = p.backupImage := by
  rw [Sys.Due, if_pos hs]

theorem Sys.due_of_not_writing (hs : s.saver.writing ≠ some i) :
    s.Due i p ↔ p.backup.dirty.hasDirty = true ∨ (s.disk i).Holds p.backupImage := by
  rw [Sys.Due, if_neg hs]

theorem Sys.Due.of_same (h : s.Due i p) (hs : s'.saver.writing = some i ↔ s.saver.writing = some i)
    (hd : s'.disk i = s.disk i) (ht : p'.toDiskImage = p.toDiskImage)
    (hb : p'.backupImage = p.backupImage ∨ p'.backup.dirty.hasDirty = true)
    (hm : p.backup.dirty.hasDirty = true → p'.backup.dirty.hasDirty = true) : s'.Due i p' := by
  rcases hb with hb | hb
  · rcases h with h | h
    · exact .inl (hm h)
    · right
      simp only [hs, hd, ht, hb]
      exact h
  · exact .inl hb

theorem image_of_key {p p' : Part} {c c' : BufCtrl} (hk : p'.key = p.key) (hc : c' = c) :
    c'.image p'.bytes = c.image p.bytes := by
  rw [hc, Part.bytes_of_key hk]

theorem Sys.Due.step (he : s.Effect a s') (ho : s.WriteOk a) (hm : s.nv.Marked)
    (h : Each s.Due s.nv.ctl) : Each s'.Due s'.nv.ctl := by
  cases he with
  | front hp hm' hf hs =>
    intro i p' hi
    obtain ⟨p, hpi, hk, hb, ht⟩ := hf.part i p' hi
    refine (h i p hpi).of_same (by rw [hs.saver]) (by rw [hs.disk]) (image_of_key hk ht)
      (.inl (image_of_key hk hb)) ?_
    rw [hb]
    exact id
  | commit i p hp hm' hi hc hs =>
    have hsame (j : Nat) (q : Part) (hj : s.nv.ctl[j]? = some q) : s'.Due j q :=
      (h j q hj).of_same (by rw [hs.saver]) (by rw [hs.disk]) rfl (.inl rfl) id
    rw [hc]
    obtain ⟨-, hk, ht, hb, hd⟩ := (hm.parts i p hi).commit
    refine Each.set (fun j q _ hj => hsame j q hj) hi ?_
    exact (h i p hi).of_same (by rw [hs.saver]) (by rw [hs.disk]) (image_of_key hk ht) hb hd
  | signal hp =>
    intro i p hi
    refine (h i p hi).of_same ?_ rfl rfl (.inl rfl) id
    change (if s.saver = .waiting then Saver.save (.check 0) else s.saver).writing = some i ↔ _
    split
    · rename_i hw
      rw [hw]
      exact ⟨nofun, nofun⟩
    · exact Iff.rfl
  | wait hs =>
    intro i p hi
    refine (h i p hi).of_same ?_ rfl rfl (.inl rfl) id
    rw [hs]
    exact ⟨nofun, nofun⟩
  | saved k hs hk =>
    intro i p hi
    refine (h i p hi).of_same ?_ rfl rfl (.inl rfl) id
    rw [hs]
    exact ⟨nofun, nofun⟩
  | wake hs =>
    intro i p hi
    refine (h i p hi).of_same ?_ rfl rfl (.inl rfl) id
    rw [hs]
    exact ⟨nofun, nofun⟩
  | save p p' r hs hd hn =>
    cases hd with
    | ended => cases hn
    | get k q hk =>
      cases hn
      refine Each.set ?_ hk ?_
      · intro j p hkj hj
        refine (h j p hj).of_same ?_ rfl rfl (.inl rfl) id
        rw [hs]
        exact ⟨fun h => (hkj (Option.some.inj h)).elim, nofun⟩
      · obtain ⟨c, hc, -, hi, -⟩ := (hm.parts k q hk).sound.getData
        rw [hc]
        exact (Sys.due_of_writing rfl).2 (.inr hi)
    | getNone k hk =>
      cases hn
      intro i p hi
      refine (h i p hi).of_same ?_ rfl rfl (.inl rfl) id
      rw [hs]
      refine ⟨?_, nofun⟩
      intro hki
      cases Option.some.inj hki
      exact nomatch hk.symm.trans hi
    | write k q hk =>
      cases hn
      obtain ⟨hw₁, hw₂⟩ := ho k (by rw [hs]; rfl) q hk
      obtain ⟨hh, hr⟩ := ramDiskWrite_full hw₁ hw₂ (s.disk k)
      refine Each.set ?_ hk ?_
      · intro j p hkj hj
        refine (h j p hj).of_same ?_ (Function.update_of_ne (Ne.symm hkj) _ _) rfl (.inl rfl) id
        rw [hs]
        exact ⟨nofun, fun h => (hkj (Option.some.inj h)).elim⟩
      rw [hr]
      have hw : s.saver.writing = some k := by
        rw [hs]
        rfl
      rcases (Sys.due_of_writing hw).1 (h k q hk) with hq | hq
      · exact .inl hq
      right
      change (Function.update s.disk k _ k).Holds q.backupImage
      rw [Function.update_self, ← hq]
      exact hh
    | writeNone k hk =>
      cases hn
      intro i p hi
      refine (h i p hi).of_same ?_ rfl rfl (.inl rfl) id
      rw [hs]
      refine ⟨nofun, ?_⟩
      intro hki
      cases Option.some.inj hki
      exact nomatch hk.symm.trans hi
    | _ =>
      cases hn
      intro i p hi
      refine (h i p hi).of_same ?_ rfl rfl (.inl rfl) id
      rw [hs]
      exact ⟨nofun, nofun⟩

theorem Sys.Safe.step [Target] (h : s.Safe) (hst : s.step false a = some s') (ho : s.WriteOk a) :
    s'.Safe := by
  have hm := Sys.step_moves hst
  have he := hm.effect h.marked h.pc
  exact ⟨he.marked h.marked, hm.pc_ne_save h.pc, Sys.Due.step he ho h.marked h.due⟩

structure Boot.Whole (b : Boot) : Prop where
  sectors : b.cfg.imageSize % sectSize = 0
  files : ∃ img, img.length = b.cfg.imageSize ∧ b.disk.Holds img

theorem Boot.Whole.read {b : Boot} (h : b.Whole) : b.read.2 = b.disk ∧ b.disk.Holds b.read.1 := by
  obtain ⟨img, hl, hd⟩ := h.files
  have hget : b.disk.get b.firstName = some (stored img) := by
    cases b.firstName with
    | image => exact hd.image
    | imageBak => exact hd.imageBak
  have hr : b.read = (img, b.disk) := by
    rw [Boot.read, ← hl, ramDiskRead_first _ hget (valid_stored img), readCopy_stored]
  rw [hr]
  exact ⟨rfl, hd⟩

theorem start_safe [Target] {boots : List Boot} (hb : ∀ b ∈ boots, b.Whole) :
    (Sys.start boots).Safe := by
  refine ⟨start_marked fun b hm => Boot.tailNeutral_of_sectors (hb b hm).sectors, nofun, ?_⟩
  intro i p hi
  obtain ⟨b, hbi, rfl⟩ := start_getElem.1 hi
  have hw := hb b (mem_of_getElem? hbi)
  obtain ⟨hd, hh⟩ := hw.read
  rw [Sys.due_of_not_writing (by exact nofun), b.backupImage_initPart hw.sectors]
  right
  change ((boots[i]?.map fun b : Boot => b.read.2).getD ⟨none, none⟩).Holds b.read.1
  rw [hbi, Option.map_some, Option.getD_some, hd]
  exact hh

def Sys.DirtyAt (s : Sys) (i : Nat) : Prop := ∃ p ∈ s.nv.ctl[i]?, p.backup.dirty.hasDirty = true

def Pass.Ahead (i : Nat) : Pass → Prop
  | .check k | .get k => k ≤ i
  | .write k => k < i

def Pass.Past (i : Nat) : Pass → Prop
  | .check k | .get k | .write k => i < k

def Saver.Quiet (t : Saver) : Prop := ∀ p, t ≠ .save p

inductive Sys.Pending (n i : Nat) (s : Sys) : Prop where
  | ahead (hn : s.passes = n) (hd : s.DirtyAt i)
      (hs : s.saver.Quiet ∨ ∃ p, s.saver = .save p ∧ p.Ahead i)
  | writing (hn : s.passes = n) (hi : i < s.nv.ctl.length) (hs : s.saver = .save (.write i))
  | past (hn : s.passes = n) (hw : i ∈ s.wrote) (hs : ∃ p, s.saver = .save p ∧ p.Past i)
  | done (hn : s.passes = n + 1) (hw : i ∈ s.wrote)
  | later (hn : n < s.passes) (hs : ∃ p, s.saver = .save p)
  | ended (hn : n + 1 < s.passes)

theorem Sys.DirtyAt.fronts (h : s.DirtyAt i) (hf : Fronts s.nv.ctl s'.nv.ctl) : s'.DirtyAt i := by
  obtain ⟨p, hp, hd⟩ := h
  have hl : i < s'.nv.ctl.length := by
    rw [hf.length]
    exact (List.getElem?_eq_some_iff.1 hp).1
  have hi := getElem?_eq_getElem hl
  obtain ⟨q, hq, -, hb, -⟩ := hf.part i _ hi
  cases hp.symm.trans hq
  exact ⟨_, hi, by rw [hb]; exact hd⟩

theorem Sys.DirtyAt.set {ctl : List Part} (h : ∃ p ∈ ctl[i]?, p.backup.dirty.hasDirty = true)
    (hk : ctl[k]? = some q)
    (hq : k = i → q.backup.dirty.hasDirty = true → q'.backup.dirty.hasDirty = true) :
    ∃ p ∈ (ctl.set k q')[i]?, p.backup.dirty.hasDirty = true := by
  obtain ⟨p, hp, hd⟩ := h
  by_cases hki : k = i
  · subst hki
    cases hk.symm.trans hp
    have hl := (List.getElem?_eq_some_iff.1 hk).1
    exact ⟨q', getElem?_set_self hl, hq rfl hd⟩
  · exact ⟨p, (getElem?_set_ne hki).trans hp, hd⟩

theorem Sys.Pending.same (h : s.Pending n i) (hs : s.SaverSame s')
    (hl : s'.nv.ctl.length = s.nv.ctl.length) (hd : s.DirtyAt i → s'.DirtyAt i) :
    s'.Pending n i := by
  cases h with
  | ahead hn hdi hsa => exact .ahead (hs.passes.trans hn) (hd hdi) (by rw [hs.saver]; exact hsa)
  | writing hn hi hsa =>
    exact .writing (hs.passes.trans hn) (by rw [hl]; exact hi) (hs.saver.trans hsa)
  | past hn hw hsa =>
    exact .past (hs.passes.trans hn) (by rw [hs.wrote]; exact hw) (by rw [hs.saver]; exact hsa)
  | done hn hw => exact .done (hs.passes.trans hn) (by rw [hs.wrote]; exact hw)
  | later hn hsa => exact .later (by rw [hs.passes]; exact hn) (by rw [hs.saver]; exact hsa)
  | ended hn => exact .ended (by rw [hs.passes]; exact hn)

theorem Sys.Pending.begin (h : s.Pending n i) (hs : s.saver = .waiting) (pc : Pc) :
    Sys.Pending n i { s with pc := pc, saver := .save (.check 0), wrote := [] } := by
  cases h with
  | ahead hn hd => exact .ahead hn hd (.inr ⟨_, rfl, Nat.zero_le i⟩)
  | writing _ _ hsa => exact nomatch hs.symm.trans hsa
  | past _ _ hsa =>
    obtain ⟨p, hp, -⟩ := hsa
    exact nomatch hs.symm.trans hp
  | done hn => exact .later (by rw [hn]; exact Nat.lt_succ_self n) ⟨_, rfl⟩
  | later hn => exact .later hn ⟨_, rfl⟩
  | ended hn => exact .ended hn

theorem Pass.Does.ahead {ctl : List Part} (hd : Pass.Does w ctl disk p r)
    (hn : r.next = some p') (ha : p.Ahead i)
    (hi : ∃ q ∈ ctl[i]?, q.backup.dirty.hasDirty = true) :
    p' = .write i ∨ (p'.Ahead i ∧ ∃ q ∈ r.ctl[i]?, q.backup.dirty.hasDirty = true) := by
  have hlt {k : Nat} (hk : ctl[k]? = none) : k ≠ i := by
    rintro rfl
    obtain ⟨q, hq, -⟩ := hi
    exact nomatch hk.symm.trans hq
  cases hd with
  | ended => cases hn
  | clean k q hk hc =>
    cases hn
    refine .inr ⟨Nat.succ_le_of_lt (Nat.lt_of_le_of_ne ha ?_), hi⟩
    rintro rfl
    obtain ⟨q', hq', hd⟩ := hi
    cases hk.symm.trans hq'
    exact nomatch hc.symm.trans hd
  | get k q hk =>
    cases hn
    by_cases hki : k = i
    · exact .inl (by rw [hki])
    · refine .inr ⟨lt_of_le_of_ne ha hki, Sys.DirtyAt.set hi hk ?_⟩
      exact fun h => (hki h).elim
  | getNone k hk =>
    cases hn
    exact .inr ⟨lt_of_le_of_ne ha (hlt hk), hi⟩
  | write k q hk =>
    cases hn
    refine .inr ⟨ha, Sys.DirtyAt.set hi hk ?_⟩
    exact fun h => (ne_of_lt ha h).elim
  | _ =>
    cases hn
    exact .inr ⟨ha, hi⟩

theorem Pass.Does.past (hd : Pass.Does w ctl disk p r) (hn : r.next = some p')
    (hp : p.Past i) : p'.Past i := by
  cases hd with
  | ended => cases hn
  | dirty => cases hn; exact hp
  | get => cases hn; exact hp
  | getNone => cases hn; exact hp
  | _ => cases hn; exact Nat.lt_succ_of_lt hp

theorem Pass.Does.length (hd : Pass.Does w ctl disk p r) : r.ctl.length = ctl.length := by
  cases hd with
  | get => exact length_set
  | write => exact length_set
  | _ => rfl

theorem Sys.Pending.step (he : s.Effect a s') (hm : s.nv.Marked) (h : s.Pending n i) :
    s'.Pending n i := by
  cases he with
  | front hp hm' hf hs => exact h.same hs hf.length fun hd => hd.fronts hf
  | commit k p hp hm' hk hc hs =>
    refine h.same hs (by rw [hc]; exact length_set) fun hd => ?_
    rw [Sys.DirtyAt, hc]
    exact Sys.DirtyAt.set hd hk fun _ => (hm.parts k p hk).commit.2.2.2.2
  | signal hp =>
    by_cases hw : s.saver = .waiting
    · have hb := h.begin hw .finish
      rw [Sys.signal, if_pos hw, if_pos hw]
      exact hb
    · rw [Sys.signal, if_neg hw, if_neg hw]
      exact h.same ⟨rfl, rfl, rfl, rfl⟩ rfl id
  | wait hs =>
    cases h with
    | ahead hn hd => exact .ahead hn hd (.inl nofun)
    | writing _ _ hsa => exact nomatch hs.symm.trans hsa
    | past _ _ hsa =>
      obtain ⟨p, hp, -⟩ := hsa
      exact nomatch hs.symm.trans hp
    | done hn hw => exact .done hn hw
    | later _ hsa =>
      obtain ⟨p, hp⟩ := hsa
      exact nomatch hs.symm.trans hp
    | ended hn => exact .ended hn
  | wake hs => exact h.begin hs s.pc
  | saved k hs hk =>
    cases h with
    | ahead hn hd hsa =>
      rcases hsa with hq | ⟨p, hp, ha⟩
      · exact (hq _ hs).elim
      cases hs.symm.trans hp
      obtain ⟨q, hq, -⟩ := hd
      have hl := (List.getElem?_eq_some_iff.1 hq).1
      have hk' := getElem?_eq_none_iff.1 hk
      exact absurd (Nat.le_trans hk' ha) (Nat.not_le_of_lt hl)
    | writing _ _ hsa => exact nomatch hs.symm.trans hsa
    | past hn hw => exact .done (congrArg (· + 1) hn) hw
    | done hn => exact .ended (by rw [hn]; exact Nat.lt_succ_self _)
    | later hn => exact .ended (Nat.succ_lt_succ hn)
    | ended hn => exact .ended (Nat.lt_succ_of_lt hn)
  | save p p' r hs hd hn =>
    cases h with
    | ahead hpn hdi hsa =>
      rcases hsa with hq | ⟨q, hq, ha⟩
      · exact (hq _ hs).elim
      cases hs.symm.trans hq
      rcases hd.ahead hn ha hdi with rfl | ⟨ha', hd'⟩
      · obtain ⟨q, hq, -⟩ := hdi
        refine .writing hpn ?_ rfl
        rw [hd.length]
        exact (List.getElem?_eq_some_iff.1 hq).1
      · exact .ahead hpn hd' (.inr ⟨p', rfl, ha'⟩)
    | writing hpn hi hsa =>
      cases hs.symm.trans hsa
      cases hd with
      | write k q hk =>
        cases hn
        exact .past hpn (mem_append_right _ (mem_singleton_self i))
          ⟨_, rfl, Nat.lt_succ_self i⟩
      | writeNone k hk => exact absurd hi (Nat.not_lt_of_le (List.getElem?_eq_none_iff.1 hk))
    | past hpn hw hsa =>
      obtain ⟨q, hq, hpast⟩ := hsa
      cases hs.symm.trans hq
      exact .past hpn (mem_append_left _ hw) ⟨p', rfl, hd.past hn hpast⟩
    | done hpn hw => exact .done hpn (mem_append_left _ hw)
    | later hpn => exact .later hpn ⟨p', rfl⟩
    | ended hpn => exact .ended hpn

/-- When both files held the loaded image at the start, every `ramDisk_Write` wrote both completely
and no save pass is running, the next pass writes a partition whose files do not hold its committed
image. -/
theorem next_pass_writes [Target] (boots : List Boot) (acts acts' : List Act) (s s' : Sys)
    (i : Nat) (p : Part) (hb : ∀ b ∈ boots, b.Whole)
    (h : Run (Guarded Sys.WriteOk (Sys.step false)) (Sys.start boots) acts s)
    (hq : s.saver.Quiet) (hi : s.nv.ctl[i]? = some p) (hd : ¬(s.disk i).Holds p.backupImage)
    (h' : Run (Next (Sys.step false)) s acts' s') (hn : s'.passes = s.passes + 1)
    (hq' : s'.saver.Quiet) : i ∈ s'.wrote := by
  have hs : s.Safe := h.invariant (I := fun _ s => s.Safe) (start_safe hb)
    fun _ _ _ _ hs hst => hs.step hst.1 hst.2
  have hw : s.saver.writing ≠ some i := by
    intro hw
    unfold Saver.writing at hw
    split at hw
    · exact hq _ ‹_›
    · cases hw
  have hdirty := ((Sys.due_of_not_writing hw).1 (hs.due i p hi)).resolve_right hd
  have hinv : s'.nv.Marked ∧ (∀ p, s'.pc ≠ .save p) ∧ s'.Pending s.passes i := by
    refine h'.invariant (I := fun _ t => t.nv.Marked ∧ (∀ p, t.pc ≠ .save p) ∧
      t.Pending s.passes i) ⟨hs.marked, hs.pc, .ahead rfl ⟨p, hi, hdirty⟩ (.inl hq)⟩ ?_
    rintro _ a t u ⟨hm, hpc, hp⟩ hst
    have hmv := Sys.step_moves hst
    have he := hmv.effect hm hpc
    exact ⟨he.marked hm, hmv.pc_ne_save hpc, hp.step he hm⟩
  cases hinv.2.2 with
  | done _ hw => exact hw
  | later _ hsa =>
    obtain ⟨q, hq⟩ := hsa
    exact (hq' q hq).elim
  | _ => omega

theorem oneSectorBoot_whole : oneSectorBoot.Whole :=
  ⟨by decide, List.replicate 512 0, by decide +kernel, rfl, rfl⟩

theorem next_pass_writes_filled_sector : ∃ s s',
    Run (Guarded Sys.WriteOk (@Sys.step arm32 false)) (@Sys.start arm32 [oneSectorBoot])
      (saverAct :: .read (packetBytes 1 0 (fillSector 7)) (fun _ => 0) ::
        List.replicate 4 syncAct) s ∧
    Run (Next (@Sys.step arm32 false)) s (syncAct :: List.replicate 4 saverAct) s' ∧
    0 ∈ s'.wrote := by
  obtain ⟨s, hr, hw, hp, he⟩ : ∃ s,
      Run (Guarded Sys.WriteOk (@Sys.step arm32 false)) (@Sys.start arm32 [oneSectorBoot])
        (saverAct :: .read (packetBytes 1 0 (fillSector 7)) (fun _ => 0) ::
          List.replicate 4 syncAct) s ∧ s.saver = .waiting ∧
      (∃ p ∈ s.nv.ctl[0]?, ¬(s.disk 0).Holds p.backupImage) ∧
      (exec (@Sys.step arm32 false) s (syncAct :: List.replicate 4 saverAct)).any
        (fun s' => decide (s'.passes = s.passes + 1 ∧ s'.saver = .idle)) = true :=
    exists_guarded_of_exec (by decide +kernel)
  obtain ⟨p, hp, hd⟩ := hp
  obtain ⟨s', hr', hn, hi⟩ := exists_run_of_exec he
  refine ⟨s, s', hr, hr', @next_pass_writes arm32 [oneSectorBoot] _ _ s s' 0 p ?_ hr ?_ hp hd hr'
    hn ?_⟩
  · intro b hb
    cases mem_singleton.1 hb
    exact oneSectorBoot_whole
  · rw [hw]
    exact nofun
  · rw [hi]
    exact nofun

/-- After a failed `ramDisk_Write` only the dirty bits of the buffer to disk remain, and no pass
looks at them: the commit of another partition starts one that does not write. -/
theorem failed_write_is_forgotten : ∃ s s',
    Run (Next (@Sys.step arm32 false)) (@Sys.start arm32 [oneSectorBoot, otherBoot])
      (saverAct :: .read (packetBytes 1 0 (fillSector 7)) (fun _ => 0) ::
        List.replicate 6 syncAct ++ [saverAct, saverAct, .saver (.wrote 0 0, .wrote 0 0), saverAct,
          saverAct, saverAct]) s ∧
    s.saver = .waiting ∧ (∃ p ∈ s.nv.ctl[0]?, ¬(s.disk 0).Holds p.backupImage) ∧
    Run (Next (@Sys.step arm32 false)) s
      (.read (packetBytes 2 0 (tokenBytes syncReqHead 1 2 0 0 ++ tokenBytes syncReqTail 2 2 0 0))
        (fun _ => 0) :: List.replicate 4 syncAct ++ List.replicate 3 saverAct) s' ∧
    s'.passes = s.passes + 1 ∧ s'.saver = .idle ∧ 0 ∉ s'.wrote := by
  obtain ⟨s, hr, hw, hd, he⟩ : ∃ s,
      Run (Next (@Sys.step arm32 false)) (@Sys.start arm32 [oneSectorBoot, otherBoot])
        (saverAct :: .read (packetBytes 1 0 (fillSector 7)) (fun _ => 0) ::
          List.replicate 6 syncAct ++ [saverAct, saverAct, .saver (.wrote 0 0, .wrote 0 0),
            saverAct, saverAct, saverAct]) s ∧
      s.saver = .waiting ∧ (∃ p ∈ s.nv.ctl[0]?, ¬(s.disk 0).Holds p.backupImage) ∧
      (exec (@Sys.step arm32 false) s (.read (packetBytes 2 0 (tokenBytes syncReqHead 1 2 0 0 ++
          tokenBytes syncReqTail 2 2 0 0)) (fun _ => 0) :: List.replicate 4 syncAct ++
          List.replicate 3 saverAct)).any
        (fun s' => decide (s'.passes = s.passes + 1 ∧ s'.saver = .idle ∧ 0 ∉ s'.wrote)) = true :=
    exists_run_of_exec (by decide +kernel)
  obtain ⟨s', hr', hp⟩ := exists_run_of_exec he
  exact ⟨s, s', hr, hw, hd, hr', hp⟩

end SprdVendor.NvItem
