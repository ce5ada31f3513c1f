import SprdVendor.SlogModem.Writers

namespace SprdVendor.SlogModem
open Lib List Option

/-- A call of `MediaStorage::trim` while a request is served: the state before it, and the current
media before and after it. -/
inductive TrimCall (s : StorageManager) :
    StorAct → StorageManager → MediaStorage → MediaStorage → Prop where
  | early {c : CpStorage} {id : Nat} (prepared : s.prepare i e = some (t, true))
      (cp : t.cps[i]? = some c) (file : c.curFile = some id) (stopped : c.shallStop = true)
      (media : t.media t.curType = some m) (quota : m.OverQuota)
      (trimmed : m.trim e.early.unlink e.early.renamed (m.size - m.limit) = some (m', dec)) :
      TrimCall s (.write i len e) t m m'
  | late {c : CpStorage} {id : Nat} (prepared : s.prepare i e = some (p, true))
      (cp : p.cps[i]? = some c) (file : c.curFile = some id)
      (room : p.makeRoom i c e.early = some (q, true))
      (written : q.writeFile id len e.kernel = some (w, size, n)) (more : 0 < n)
      (changed : w.changeFile i id size e = some t) (media : t.media t.curType = some m)
      (quota : m.OverQuota)
      (trimmed : m.trim e.late.unlink e.late.renamed (m.size - m.limit) = some (m', dec)) :
      TrimCall s (.write i len e) t m m'
  | full {c : CpStorage} {id : Nat} (prepared : s.prepare i e = some (p, true))
      (cp : p.cps[i]? = some c) (file : c.curFile = some id)
      (room : p.makeRoom i c e.early = some (q, true))
      (written : q.writeFile id len e.kernel = some (t, size, -2))
      (media : t.media t.curType = some m) (overwrite : m.overwrite = true)
      (trimmed : m.trim e.late.unlink e.late.renamed m.fileLimit = some (m', dec)) :
      TrimCall s (.write i len e) t m m'

def StorAct.file : StorAct → Option Nat
  | .fileWrite id _ _ => some id
  | .fileCopy id _ => some id
  | .fileDiscard id => some id
  | .fileClose id => some id
  | .fileRemove id => some id
  | _ => none

def StorAct.released : StorAct → Option Nat
  | .fileClose id => some id
  | .fileRemove id => some id
  | _ => none

structure OpenFiles where
  stor : StorageManager
  held : List Nat
deriving DecidableEq, Repr

namespace OpenFiles

def step (x : OpenFiles) : StorAct → Option OpenFiles
  | .createFile cp fname t e =>
    x.stor.cps[cp]?.bind fun c => (x.stor.createFile c.name fname t e).map fun r =>
      ⟨r.1, r.2.toList ++ x.held⟩
  | a =>
    if ∀ id ∈ a.file, id ∈ x.held then
      (x.stor.step a).map fun s => ⟨s, x.held.filter fun id => a.released ≠ some id⟩
    else none

/-- The media is trimmed only while no consumer holds a file of it open, and no two handles have
the same name. -/
def TrimOk (x : OpenFiles) (a : StorAct) : Prop :=
  (∀ t m m', TrimCall x.stor a t m m' → ∀ id ∈ x.held, m.has id = false) ∧
    ∀ name cb, a = .createStorage name cb → name ∉ x.stor.cps.map CpStorage.name

end OpenFiles

namespace TrimCall

variable {s t : StorageManager} {m m' : MediaStorage} {H : Nat → Prop}

theorem writing (h : TrimCall s a t m m') (hw : s.Writing H) : t.Writing H := by
  cases h with
  | early prepared => exact hw.prepare prepared
  | late prepared cp file room written more changed =>
    have hq := StorageManager.writing_roomy.makeRoom (hw.prepare prepared) room
    have hid := StorageManager.SameFile.makeRoom ⟨_, cp, file⟩ room
    obtain ⟨c, hc, hf⟩ := hid.of_cps (StorageManager.onMedia_frame written).2
    exact (hq.writeFile written).changeFile hc hf changed
  | full prepared cp file room written =>
    exact (StorageManager.writing_roomy.makeRoom (hw.prepare prepared) room).writeFile written

theorem media (h : TrimCall s a t m m') : t.media t.curType = some m := by
  cases h with
  | early _ _ _ _ media => exact media
  | late _ _ _ _ _ _ _ media => exact media
  | full _ _ _ _ _ media => exact media

theorem moves (h : TrimCall s a t m m') : m.Moves R Q m' := by
  cases h with
  | early _ _ _ _ _ _ trimmed => exact MediaStorage.trim_moves trimmed
  | late _ _ _ _ _ _ _ _ _ trimmed => exact MediaStorage.trim_moves trimmed
  | full _ _ _ _ _ _ _ trimmed => exact MediaStorage.trim_moves trimmed

theorem keeps_log_files {id : Nat} (h : TrimCall s a t m m') (hw : s.Writing H)
    (hid : t.Writes name id) :
    m.has id = true ∧ m'.has id = true := by
  have hl := ((h.writing hw).owned.media t.curType m h.media).logs rfl name id hid
  have hm : m.Moves (fun _ _ _ => False) (fun _ _ => True) m' := h.moves
  exact ⟨hl.has, (hm.logs name id trivial hl).has⟩

end TrimCall

namespace StorageManager

variable {s s' : StorageManager} {H : Nat → Prop}

theorem Writing.of_limits (h : Writing H s) (hc : s'.cps = s.cps) (ht : s'.curType = s.curType)
    (hn : s'.nextId = s.nextId)
    (hd : s'.dataPart.logDirs = s.dataPart.logDirs ∧ s'.dataPart.curSet = s.dataPart.curSet)
    (hs : s'.sdCard.logDirs = s.sdCard.logDirs ∧ s'.sdCard.curSet = s.sdCard.curSet) :
    Writing H s' := by
  have ho := h.owned
  have hmoves {m m' : MediaStorage} {cur : Prop} (hm : m.Owned s.nextId s.Writes cur)
      (he : m'.logDirs = m.logDirs ∧ m'.curSet = m.curSet) : m'.Owned s.nextId s.Writes cur :=
    hm.moves (R := fun _ _ _ => False) (Q := s.Writes) (.of_dirs he.1 he.2)
      (fun name id hid => ⟨ho.lt name id hid, hid⟩) (fun _ _ _ hr => hr.elim) (le_refl _)
  refine h.of_cps hc ⟨?_, ht ▸ ho.cur, hn ▸ ho.lt, hn ▸ ho.held, ho.apart⟩
  intro t m hm
  rw [ht, hn]
  cases t with
  | none => cases hm
  | internal =>
    cases hm
    exact hmoves (ho.media .internal _ rfl) hd
  | sdCard =>
    cases hm
    exact hmoves (ho.media .sdCard _ rfl) hs

theorem Writing.step (h : Writing H s) (hr : s.step a = some s') (hf : ∀ id ∈ a.file, H id)
    (hn : ∀ name cb, a = .createStorage name cb → name ∉ s.cps.map CpStorage.name) :
    Writing H s' := by
  cases a with
  | write cp len e =>
    obtain ⟨⟨s₁, n⟩, hw, rfl⟩ := map_eq_some_iff.mp hr
    exact h.write hw
  | createFile cp fname lt e =>
    obtain ⟨c, -, hr⟩ := bind_eq_some_iff.mp hr
    obtain ⟨⟨s₁, f⟩, hc, rfl⟩ := map_eq_some_iff.mp hr
    exact (h.createFile hc).mono fun _ hid => .inl hid
  | fileWrite id len k =>
    obtain ⟨⟨s₁, n⟩, hw, rfl⟩ := map_eq_some_iff.mp hr
    exact h.onFile (LogFile.write_call len k).same hw
  | fileCopy id src =>
    obtain ⟨⟨s₁, n⟩, hw, rfl⟩ := map_eq_some_iff.mp hr
    exact h.onFile (LogFile.copy_call src).same hw
  | fileDiscard id =>
    obtain ⟨⟨s₁, n⟩, hw, rfl⟩ := map_eq_some_iff.mp hr
    exact h.onFile LogFile.discard_call.same hw
  | fileClose id =>
    obtain ⟨⟨s₁, n⟩, hw, rfl⟩ := map_eq_some_iff.mp hr
    exact h.onFile LogFile.close_call.same hw
  | fileRemove id =>
    obtain ⟨⟨s₁, n⟩, hw, rfl⟩ := map_eq_some_iff.mp hr
    refine h.onMediaSame hw fun m m' _ hg => ?_
    refine MediaStorage.onDir_moves (fun d d' c b set _ hd => ?_) hg
    cases hd
    have hm := CpDirectory.remove_moves (R := fun _ => False) id d
    refine ⟨hm.name, hm.has, fun id' hq hlog => hm.logs id' ?_ hlog⟩
    rintro rfl
    exact h.owned.apart d.name id' hq (hf id' rfl)
  | createStorage name cb =>
    cases hr
    refine ⟨?_, (h.owned.anti ?_).of_eq (media_congr rfl rfl) rfl (le_refl _)⟩
    · dsimp only
      rw [map_append, nodup_append]
      refine ⟨h.names, nodup_singleton _, ?_⟩
      rintro a ha b hb rfl
      obtain rfl : a = name := mem_singleton.mp hb
      exact hn a cb rfl ha
    rintro nm id ⟨c, hc, hcn, hcf⟩
    obtain hc | hc := mem_append.mp hc
    · exact ⟨c, hc, hcn, hcf⟩
    · rw [mem_singleton.mp hc] at hcf
      cases hcf
  | deleteStorage cp =>
    obtain ⟨c, -, rfl⟩ := map_eq_some_iff.mp hr
    refine ⟨h.names.sublist ((eraseIdx_sublist s.cps cp).map _),
      ((owned_closing.closeCurFile h.owned c).anti ?_).of_eq (media_congr rfl rfl) rfl (le_refl _)⟩
    rintro nm id ⟨c', hc', hid⟩
    exact ⟨c', (eraseIdx_sublist s.cps cp).subset hc', hid⟩
  | clear =>
    cases hr
    refine ⟨?_, .idle (stopAllCps_idle s) (h.owned.stopAllCps.held) ?_⟩
    · show (s.stopAllCps.cps.map CpStorage.name).Nodup
      rw [stopAllCps_names]
      exact h.names
    intro t m hm
    refine ⟨fun _ _ => False, False, .idle ?_ fun _ _ hid => hid⟩
    rintro set nm id ⟨set', hset, -⟩
    cases t with
    | none => cases hm
    | _ =>
      cases hm
      cases hset
  | _ =>
    cases hr
    exact h.of_limits rfl rfl rfl ⟨rfl, rfl⟩ ⟨rfl, rfl⟩

theorem init_writing (h : StorageManager.init listing sd = some s) : s.Writing fun _ => False := by
  have hnew (n : Nat) : MediaStorage.new.Owned n (fun _ _ => False) True := by
    refine .idle ?_ fun _ _ hid => hid
    rintro set nm id ⟨set', hset, -⟩
    cases hset
  have hidle {s : StorageManager} (hc : s.cps = []) (name : Name) (id : Nat) :
      ¬ s.Writes name id := by
    rintro ⟨c, hcm, -⟩
    rw [hc] at hcm
    cases hcm
  have hempty {s : StorageManager} (hc : s.cps = [])
      (ho : s.Owned (fun _ => False) fun _ _ => False) : s.Writing fun _ => False :=
    ⟨by rw [hc]; exact .nil, ho.anti fun name id hid => hidle hc name id hid⟩
  obtain ⟨⟨d, n⟩, hd, h⟩ := bind_eq_some_iff.mp h
  have hdata : d.Owned n (fun _ _ => False) True := (hnew 0).init hd fun _ _ hid => hid
  cases sd with
  | none =>
    cases h
    exact hempty rfl ((owned_idle_iff fun _ _ hid => hid).mpr
      ⟨fun _ hid => hid.elim, hdata, hnew n⟩)
  | some l =>
    obtain ⟨⟨c, k⟩, hc, rfl⟩ := map_eq_some_iff.mp h
    have hcard : c.Owned k (fun _ _ => False) True := (hnew n).init hc fun _ _ hid => hid
    exact hempty rfl ((owned_idle_iff fun _ _ hid => hid).mpr ⟨fun _ hid => hid.elim,
      hdata.mono (MediaStorage.init_le hc) fun _ _ hid => hid, hcard⟩)

end StorageManager

instance (m : MediaStorage) : Decidable m.OverQuota := inferInstanceAs (Decidable (_ ∧ _ ∧ _))

namespace StorageManager

variable {s : StorageManager}

/-- The trimming behind a log write: the state before it, and the media before and after it. -/
def lateTrim (s : StorageManager) : StorAct → Option (StorageManager × MediaStorage × MediaStorage)
  | .write i len e => (s.prepare i e).bind fun p => p.1.cps[i]?.bind fun c =>
    c.curFile.bind fun id => (p.1.makeRoom i c e.early).bind fun q =>
      (q.1.writeFile id len e.kernel).bind fun w => (w.1.changeFile i id w.2.1 e).bind fun t =>
        (t.media t.curType).bind fun m =>
          if p.2 ∧ q.2 ∧ 0 < w.2.2 ∧ m.OverQuota then
            (m.trim e.late.unlink e.late.renamed (m.size - m.limit)).map fun r => (t, m, r.1)
          else none
  | _ => none

theorem trimCall_of_lateTrim (h : s.lateTrim a = some (t, m, m')) : TrimCall s a t m m' := by
  cases a with
  | write i len e =>
    obtain ⟨⟨p, b⟩, hp, h⟩ := bind_eq_some_iff.mp h
    obtain ⟨c, hc, h⟩ := bind_eq_some_iff.mp h
    obtain ⟨id, hf, h⟩ := bind_eq_some_iff.mp h
    obtain ⟨⟨q, room⟩, hm, h⟩ := bind_eq_some_iff.mp h
    obtain ⟨⟨w, size, n⟩, hw, h⟩ := bind_eq_some_iff.mp h
    obtain ⟨t, hch, h⟩ := bind_eq_some_iff.mp h
    obtain ⟨m, hmt, hr⟩ := bind_eq_some_iff.mp h
    split at hr
    · rename_i hok
      obtain ⟨rfl, rfl, hn, hover⟩ := hok
      obtain ⟨⟨m₁, dec⟩, ht, he⟩ := map_eq_some_iff.mp hr
      cases he
      exact .late hp hc hf hm hw hn hch hmt hover ht
    · cases hr
  | _ => cases h

/-- A log write deletes the file by trimming. -/
def trimsAway (id : Nat) (s : StorageManager) (a : StorAct) : Bool :=
  (s.lateTrim a).any fun r => r.2.1.has id && !r.2.2.has id

theorem trimCall_of_trimsAway {id : Nat} (h : s.trimsAway id a = true) :
    ∃ t m m', TrimCall s a t m m' ∧ m.has id = true ∧ m'.has id = false := by
  obtain ⟨⟨t, m, m'⟩, ht, h⟩ := (any_eq_true _ _).mp h
  rw [Bool.and_eq_true, Bool.not_eq_true'] at h
  exact ⟨t, m, m', trimCall_of_lateTrim ht, h⟩

end StorageManager

namespace OpenFiles

variable {x y : OpenFiles}

theorem writing_step (hw : x.stor.Writing (· ∈ x.held))
    (hn : ∀ name cb, a = .createStorage name cb → name ∉ x.stor.cps.map CpStorage.name)
    (h : x.step a = some y) : y.stor.Writing (· ∈ y.held) := by
  rw [step.eq_def] at h
  split at h
  · obtain ⟨c, hc, h⟩ := bind_eq_some_iff.mp h
    obtain ⟨⟨s, f⟩, hr, rfl⟩ := map_eq_some_iff.mp h
    refine (hw.createFile hr).mono fun id hid => ?_
    obtain hid | hid := mem_append.mp hid
    · exact .inr (mem_toList.mp hid)
    · exact .inl hid
  split at h
  · rename_i hf
    obtain ⟨s, hs, rfl⟩ := map_eq_some_iff.mp h
    exact (hw.step hs hf hn).mono fun id hid => (mem_filter.mp hid).1
  · cases h

/-- Log writes come only while no consumer holds a file open. -/
def QuietWrite (x : OpenFiles) : StorAct → Prop
  | .write _ _ _ => x.held = []
  | .createStorage name _ => name ∉ x.stor.cps.map CpStorage.name
  | _ => True

instance (x : OpenFiles) (a : StorAct) : Decidable (x.QuietWrite a) :=
  match a with
  | .write .. => inferInstanceAs (Decidable (x.held = []))
  | .createStorage name _ => inferInstanceAs (Decidable (name ∉ x.stor.cps.map CpStorage.name))
  | .createFile .. | .fileWrite .. | .fileCopy .. | .fileDiscard .. | .fileClose ..
  | .fileRemove .. | .deleteStorage .. | .clear | .setFileSizeLimit .. | .setDataPartLimit ..
  | .setSdLimit .. | .setOverwrite .. => isTrue trivial

theorem QuietWrite.trimOk (h : x.QuietWrite a) : x.TrimOk a := by
  refine ⟨?_, ?_⟩
  · intro t m m' ht id hid
    have hnil : x.held = [] := by cases ht <;> exact h
    rw [hnil] at hid
    cases hid
  · rintro name cb rfl
    exact h

def dumpRun : List StorAct :=
  [.createStorage ['m', 'd'] true, .createStorage ['w', 'c', 'n'] false, .setDataPartLimit 6,
    StorageManager.plainWrite 4 true,
    .createFile 1 ['w', '.', 'd', 'm', 'p'] .dump
      ⟨⟨false, some [], some ⟨2015, 5, 14, 12, 0, 0⟩, true⟩, true, true⟩,
    .fileWrite 2 4 ⟨[], false⟩]

end OpenFiles

end SprdVendor.SlogModem
