import SprdVendor.NvItem.Committed
import SprdVendor.NvItem.WriteBack

namespace SprdVendor.NvItem
open Lib List Option

def Runs [Target] (boots : List Boot) (acts : List Act) (s : Sys) : Prop :=
  Run (Guarded (fun s a => s.ReadOk (bootKeys boots) a ∧ s.WriteOk a) (Sys.step false))
    (Sys.start boots) acts s

/-- The requests received completely since the start. -/
def received (boots : List Boot) (s : Sys) : List Request :=
  (Reader.packets (ctlIds (bootKeys boots)) s.seen).log

def Once [Target] (boots : List Boot) (acts : List Act) (i : Nat) (img : List UInt8) : Prop :=
  ∃ as t, as <+: acts ∧ Runs boots as t ∧ img = imageAfter (loaded boots i) (received boots t) i

/-- No partition has unsaved sectors, and none is being written. -/
def Sys.Saved (s : Sys) : Prop :=
  s.saver.writing = none ∧ ∀ p ∈ s.nv.ctl, p.backup.dirty.hasDirty = false
deriving Decidable

/-- Runs one after the other, each cut off when all is saved and started again on its files, and the
requests they received. -/
inductive Sessions [Target] (boots : List Boot) : List Request → List Boot → Prop where
  | nil : Sessions boots [] boots
  | snoc {s : Sys} (h : Sessions boots log boots₁) (hs : Runs boots₁ acts s) (hr : s.Saved)
      (hb : ∀ i b', boots₂[i]? = some b' → b'.disk = s.disk i ∧
        ∃ b, boots₁[i]? = some b ∧ b.cfg = b'.cfg) :
      Sessions boots (log ++ received boots₁ s) boots₂

variable {s s' : Sys} {i : Nat} {b b' : Boot}

theorem Sys.Agrees.store {keys : List (Nat × Nat)} (h : s.Agrees imgs keys) :
    Store imgs keys (Reader.packets (ctlIds keys) s.seen) s.nv.ctl := by
  unfold Sys.Agrees at h
  cases hp : s.pc with
  | poll =>
    rw [hp] at h
    rw [Sys.seen, hp]
    exact h.store
  | parse buf =>
    rw [hp] at h
    obtain ⟨r, hpar, ht, -⟩ := h
    rw [hpar.seen hp]
    exact ht.store
  | crashed =>
    rw [hp] at h
    exact h.elim
  | _ =>
    rw [hp] at h
    rw [Sys.seen, hp]
    exact h.1

theorem Sys.Effect.files (he : s.Effect a s') (ho : s.WriteOk a) (hm : s.nv.Marked) :
    Each (fun i p' => ∃ p, s.nv.ctl[i]? = some p ∧
      (p'.toDiskImage = p.toDiskImage ∨ p'.toDiskImage = p'.backupImage) ∧
      (s'.disk i = s.disk i ∨ (s'.disk i).Holds p.toDiskImage)) s'.nv.ctl := by
  cases he with
  | front hp hm' hf hs =>
    intro i p' hi
    obtain ⟨p, hpi, hk, -, ht⟩ := hf.part i p' hi
    exact ⟨p, hpi, .inl (image_of_key hk ht), .inl (congrFun hs.disk i)⟩
  | commit i p hp hm' hi hc hs =>
    rw [hc]
    obtain ⟨-, hk, ht, -⟩ := (hm.parts i p hi).commit
    exact Each.set (fun j q _ hj => ⟨q, hj, .inl rfl, .inl (congrFun hs.disk j)⟩) hi
      ⟨p, hi, .inl (image_of_key hk ht), .inl (congrFun hs.disk i)⟩
  | save p p' r hs hd hn =>
    cases hd with
    | get k q hk =>
      obtain ⟨c, hc, -, himg, -⟩ := (hm.parts k q hk).sound.getData
      refine Each.set (fun j q _ hj => ⟨q, hj, .inl rfl, .inl rfl⟩) hk ⟨q, hk, .inr ?_, .inl rfl⟩
      rw [hc]
      exact himg
    | write k q hk =>
      obtain ⟨hw₁, hw₂⟩ := ho k (by rw [hs]; rfl) q hk
      obtain ⟨hh, hr⟩ := ramDiskWrite_full hw₁ hw₂ (s.disk k)
      refine Each.set ?_ hk ⟨q, hk, .inl (by rw [hr]; rfl), .inr ?_⟩
      · exact fun j q hkj hj => ⟨q, hj, .inl rfl, .inl (Function.update_of_ne (Ne.symm hkj) _ _)⟩
      · change (Function.update s.disk k _ k).Holds q.toDiskImage
        rw [Function.update_self]
        exact hh
    | _ => exact fun i p hi => ⟨p, hi, .inl rfl, .inl rfl⟩
  | _ => exact fun i p hi => ⟨p, hi, .inl rfl, .inl rfl⟩

theorem Once.snoc [Target] (h : Once boots acts i img) (a : Act) :
    Once boots (acts ++ [a]) i img := by
  obtain ⟨as, t, hp, ht⟩ := h
  exact ⟨as, t, hp.trans ( List.prefix_append acts [a]), ht⟩

section boots

variable [Target] {boots : List Boot} (hb : ∀ b ∈ boots, b.Whole)
include hb

theorem Runs.safe (h : Runs boots acts s) : s.Safe :=
  h.invariant (I := fun _ s => s.Safe) (start_safe hb) fun _ _ _ _ hs hst => hs.step hst.1 hst.2.2

theorem Runs.store (h : Runs boots acts s) : Store (loaded boots) (bootKeys boots)
    (Reader.packets (ctlIds (bootKeys boots)) s.seen) s.nv.ctl :=
  (Sys.agrees_of_run (fun b hm => (hb b hm).sectors)
    (h.mono fun _ _ _ hst => ⟨hst.1, hst.2.1⟩)).store

theorem Runs.once (h : Runs boots acts s) (hi : s.nv.ctl[i]? = some p) :
    Once boots acts i p.backupImage :=
  ⟨acts, s, prefix_rfl, h, ((h.store hb).parts i p hi).backup⟩

theorem Runs.read (h : Runs boots acts s) (hr : s.Saved) (hi : boots[i]? = some b)
    (hcfg : b.cfg = b'.cfg) (hd : b'.disk = s.disk i) :
    b'.Whole ∧ b'.read.1 = imageAfter b.read.1 (received boots s) i := by
  have hsect := (hb b (mem_of_getElem? hi)).sectors
  have hkey : (bootKeys boots)[i]? = some (b.cfg.partId, b.cfg.imageSize / sectSize) := by
    rw [bootKeys, getElem?_map, hi, map_some]
  obtain ⟨p, hp, hk, ht⟩ := (h.store hb).getElem hkey
  have hholds : b'.disk.Holds p.backupImage := by
    have hdue := (Sys.due_of_not_writing (by simp [hr.1])).1 ((h.safe hb).due i p hp)
    rw [hd]
    exact hdue.resolve_left (by simp [hr.2 p (mem_of_getElem? hp)])
  have hlen : p.backupImage.length = b'.cfg.imageSize := by
    rw [Part.backupImage, BufCtrl.length_image ht.sound.backup, Part.bytes, (Prod.mk.inj hk).2,
      Nat.mul_div_cancel' (Nat.dvd_of_mod_eq_zero hsect), hcfg]
  have hwhole : b'.Whole := ⟨hcfg ▸ hsect, p.backupImage, hlen, hholds⟩
  have hread : stored b'.read.1 = stored p.backupImage :=
    some.inj (hwhole.read.2.image.symm.trans hholds.image)
  refine ⟨hwhole, (append_inj_right hread ?_).trans ?_⟩
  · rw [length_nvHeader, length_nvHeader]
  · rw [ht.backup, loaded, hi]
    rfl

/-- At every moment the files of each partition hold its image of an earlier moment, with the
requests applied that were complete then. -/
theorem files_hold_earlier_image (h : Runs boots acts s) (hi : s.nv.ctl[i]? = some p) :
    ∃ img, Once boots acts i img ∧ (s.disk i).Holds img := by
  refine ((h.invariant (I := fun acts s => Runs boots acts s ∧ Each (fun i p =>
    Once boots acts i p.toDiskImage ∧ ∃ img, Once boots acts i img ∧ (s.disk i).Holds img)
      s.nv.ctl) ⟨.nil, ?_⟩ ?_).2 i p hi).2
  · intro i p hi
    have ho := Runs.once hb .nil hi
    have hd := (start_safe hb).due i p hi
    obtain ⟨b, -, rfl⟩ := start_getElem.1 hi
    exact ⟨ho, _, ho, hd.resolve_left fun hd => by cases hd.symm.trans DirtyTable.hasDirty_clean⟩
  · rintro acts a t u ⟨hr, he⟩ hst
    have hu : Runs boots (acts ++ [a]) u := hr.snoc hst
    have hsafe := hr.safe hb
    refine ⟨hu, fun i p' hi => ?_⟩
    obtain ⟨p, hp, ht, hd⟩ :=
      ((Sys.step_moves hst.1).effect hsafe.marked hsafe.pc).files hst.2.2 hsafe.marked i p' hi
    obtain ⟨hto, img, himg, hh⟩ := he i p hp
    constructor
    · rcases ht with ht | ht
      · rw [ht]
        exact hto.snoc a
      · rw [ht]
        exact hu.once hb hi
    · rcases hd with hd | hd
      · rw [hd]
        exact ⟨img, himg.snoc a, hh⟩
      · exact ⟨_, hto.snoc a, hd⟩

/-- Over any number of restarts, each partition loads its first image with exactly the requests
applied that were received completely. -/
theorem restarts_keep_requests (h : Sessions boots log boots') (hi : boots'[i]? = some b') :
    b'.Whole ∧ b'.read.1 = imageAfter (loaded boots i) log i := by
  induction h generalizing i b' with
  | nil =>
    rw [loaded, hi]
    exact ⟨hb b' (mem_of_getElem? hi), rfl⟩
  | @snoc _ boots₁ _ _ _ h hs hr hb₂ ih =>
    obtain ⟨hd, b, hbi, hcfg⟩ := hb₂ i b' hi
    have hall (c : Boot) (hm : c ∈ boots₁) : c.Whole := by
      obtain ⟨j, hj⟩ := getElem?_of_mem hm
      exact (ih hj).1
    obtain ⟨hw, hread⟩ := hs.read hall hr hbi hcfg hd
    refine ⟨hw, hread.trans ?_⟩
    rw [(ih hbi).2, imageAfter, imageAfter, imageAfter, foldl_append]

end boots

def fillActs : List Act :=
  .read (packetBytes 1 0 (fillSector 7)) (fun _ => 0) :: List.replicate 6 syncAct

theorem unsaved_sector_holds_earlier_image : ∃ s, @Runs arm32 [oneSectorBoot] fillActs s ∧
    ∃ img, @Once arm32 [oneSectorBoot] fillActs 0 img ∧ (s.disk 0).Holds img := by
  let _ := arm32
  refine exists_guarded_imp (P := fun s => s.nv.ctl[0]?.isSome = true) ?_ (by decide +kernel)
  intro s hr hs
  obtain ⟨p, hp⟩ := isSome_iff_exists.1 hs
  exact files_hold_earlier_image (by simpa using oneSectorBoot_whole) hr hp

theorem restart_keeps_filled_sector : ∃ s, @Runs arm32 [oneSectorBoot]
    (saverAct :: fillActs ++ List.replicate 5 saverAct) s ∧
    ({ oneSectorBoot with disk := s.disk 0 } : Boot).read.1 =
      imageAfter (loaded [oneSectorBoot] 0) (received [oneSectorBoot] s) 0 := by
  let _ := arm32
  refine exists_guarded_imp (P := Sys.Saved) ?_ (by decide +kernel)
  intro s hr hs
  have h : Sessions _ _ [{ oneSectorBoot with disk := s.disk 0 }] := Sessions.nil.snoc hr hs ?_
  · exact (restarts_keep_requests (by simpa using oneSectorBoot_whole) h rfl).2
  · intro i b' hi
    cases i with
    | zero =>
      cases hi
      exact ⟨rfl, oneSectorBoot, rfl, rfl⟩
    | succ i => simp at hi

end SprdVendor.NvItem
