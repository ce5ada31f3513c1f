import SprdVendor.SlogModem.MediaInv

namespace SprdVendor.SlogModem
open Lib List Option

namespace MediaStorage

def fileSize (id : Nat) (m : MediaStorage) : Nat :=
  match m.logDirs.find? fun s => s.has id with
  | none => 0
  | some s => match s.cpDirs.find? fun d => d.has id with
    | none => 0
    | some d => match d.logFiles.find? fun f => f.id = id with
      | none => 0
      | some f => f.size

def InCurSet (id : Nat) (m : MediaStorage) : Prop :=
  (m.logDirs.find? fun s => s.has id).any (fun s => m.curSet = some s.id) = true

def CpDirEmpty (name : Name) (m : MediaStorage) : Prop :=
  ∀ s ∈ m.logDirs, m.curSet = some s.id → ∀ d ∈ s.cpDirs, d.name = name → d.size = 0

inductive Removal (id : Nat) (m : MediaStorage) : MediaStorage → Prop where
  | mk {pre post : List CpSetDirectory} {s : CpSetDirectory} {dirPre dirPost : List CpDirectory}
      {d : CpDirectory} (sets : m.logDirs = pre ++ s :: post)
      (dirs : s.cpDirs = dirPre ++ d :: dirPost)
      (found : m.logDirs.find? (fun s => s.has id) = some s)
      (size : (d.fileRemoved id).1.size = d.size - m.fileSize id) :
      Removal id m { m with logDirs := pre ++
        { s with cpDirs := dirPre ++ (d.fileRemoved id).1 :: dirPost } :: post }

end MediaStorage

namespace CpDirectory

variable {d : CpDirectory} {id : Nat}

theorem fileRemoved_quiet (id : Nat) (d : CpDirectory) :
    (d.fileRemoved id).2 = .none ∧ (d.fileRemoved id).1.name = d.name := by
  rw [fileRemoved]
  split <;> exact ⟨rfl, rfl⟩

theorem fileRemoved_size (h : d.logFiles.find? (fun f => f.id = id) = some f) :
    (d.fileRemoved id).1.size = d.size - f.size := by
  rw [fileRemoved, takeOut, h]
  rfl

theorem find_of_has (h : d.has id = true) :
    ∃ f, d.logFiles.find? (fun f => f.id = id) = some f := by
  apply isSome_iff_exists.mp
  rw [find?_isSome]
  exact any_eq_true.mp h

end CpDirectory

namespace MediaStorage

variable {m m' : MediaStorage} {id : Nat}

theorem fileRemoved_removal (h : m.fileRemoved id = some (m', u)) : Removal id m m' := by
  obtain ⟨pre, s, post, s', c, hl, hs, hpre, ho, rfl⟩ := onDir_spec h
  obtain ⟨⟨l, c', b'⟩, hd, he⟩ := map_eq_some_iff.mp ho
  cases he
  obtain ⟨dirPre, d, dirPost, d', hdl, hdh, hdpre, hg, rfl⟩ := onFirst_eq_some hd
  obtain ⟨hq, -⟩ := CpDirectory.fileRemoved_quiet id d
  obtain ⟨f, hf⟩ := CpDirectory.find_of_has hdh
  have hset : m.logDirs.find? (fun s => s.has id) = some s := by
    rw [find?_eq_some_iff_append]
    exact ⟨hs, pre, post, hl, fun x hx => by rw [hpre x hx]; rfl⟩
  have hdir : s.cpDirs.find? (fun d => d.has id) = some d := by
    rw [find?_eq_some_iff_append]
    exact ⟨hdh, dirPre, dirPost, hdl, fun x hx => by rw [hdpre x hx]; rfl⟩
  have hz : (d.fileRemoved id).1.size = d.size - m.fileSize id := by
    rw [fileSize, hset]
    dsimp only
    rw [hdir]
    dsimp only
    rw [hf, CpDirectory.fileRemoved_size hf]
  obtain ⟨rfl, hc⟩ := Prod.mk.inj (Option.some.inj hg)
  obtain ⟨rfl, -⟩ := Prod.mk.inj hc
  rw [hq]
  exact .mk hl hdl hset hz

theorem Removal.ids (h : Removal id m m') :
    m'.logDirs.map CpSetDirectory.id = m.logDirs.map CpSetDirectory.id := by
  cases h with
  | mk sets dirs found size => simp [sets]

theorem Removal.good (h : Removal id m m') (hm : Good n m) (hz : m.fileSize id = 0) :
    Good n m' := by
  refine hm.sub ?_ (by rw [h.ids])
  cases h with
  | mk sets dirs found size =>
    rename_i pre post s dirPre dirPost d
    have he := hm.exact
    rw [Exact, sets] at he
    have hs := he.all s (mem_append_cons_self)
    rw [CpSetDirectory.Exact, dirs] at hs
    have hd := hs.all d (mem_append_cons_self)
    have hset := hs.replace (CpDirectory.fileRemoved_exact id hd)
    rw [size, hz, Nat.sub_zero, Nat.sub_add_cancel hs.le] at hset
    have hs' : { s with cpDirs := dirPre ++ (d.fileRemoved id).1 :: dirPost }.Exact := hset
    have hr := he.replace hs'
    rwa [Nat.sub_add_cancel he.le] at hr

theorem Removal.goodButCur (h : Removal id m m') (hm : Good n m) (hc : m.InCurSet id) :
    GoodButCur n m' := by
  have hids := h.ids
  cases h with
  | mk sets dirs found size =>
    rename_i pre post s dirPre dirPost d
    rw [InCurSet, found] at hc
    have hc : m.curSet = some s.id := of_decide_eq_true hc
    refine ⟨?_, ?_, ?_, ?_⟩
    · have ht := hm.exact.total
      rw [sets] at ht
      simp only [map_append, map_cons] at ht ⊢
      exact ht
    · intro t ht
      have hall := hm.exact.all
      rw [sets] at hall
      obtain ht | ht := mem_append.mp ht
      · exact .inr (hall t (mem_append_left _ ht))
      obtain rfl | ht := mem_cons.mp ht
      · exact .inl hc
      · exact .inr (hall t (mem_append_right _ (mem_cons_of_mem _ ht)))
    · rw [hids]
      exact hm.nodup
    · rw [hids]
      exact hm.lt

theorem Removal.cpDirEmpty (h : Removal id m m') (he : m.CpDirEmpty name) :
    m'.CpDirEmpty name := by
  cases h with
  | mk sets dirs found size =>
    rename_i pre post s dirPre dirPost d
    rw [CpDirEmpty, sets] at he
    intro t ht hc x hx hn
    obtain ht | ht := mem_append.mp ht
    · exact he t (mem_append_left _ ht) hc x hx hn
    obtain rfl | ht := mem_cons.mp ht
    · have hs := he s (mem_append_cons_self) hc
      rw [dirs] at hs
      obtain hx | hx := mem_append.mp hx
      · exact hs x (mem_append_left _ hx) hn
      obtain rfl | hx := mem_cons.mp hx
      · rw [(CpDirectory.fileRemoved_quiet id d).2] at hn
        rw [size, hs d (mem_append_cons_self) hn, Nat.zero_sub]
      · exact hs x (mem_append_right _ (mem_cons_of_mem _ hx)) hn
    · exact he t (mem_append_right _ (mem_cons_of_mem _ ht)) hc x hx hn

end MediaStorage

/-- A removal that the recorded sizes survive: everything is gone, or the working directory that
the file was in, or the file and its directory have no recorded size. -/
def MediaStorage.RemovalFits (id : Nat) (name : Name) (e : RecreateEnv) (m : MediaStorage) : Prop :=
  e.topDir = false ∨ (e.curSetDir = false ∧ m.InCurSet id) ∨
    (m.fileSize id = 0 ∧ (e.curSetDir = false ∨ e.cpDir = true ∨ m.CpDirEmpty name))

instance (id : Nat) (name : Name) (e : RecreateEnv) (m : MediaStorage) :
    Decidable (m.RemovalFits id name e) :=
  inferInstanceAs (Decidable (e.topDir = false ∨ (e.curSetDir = false ∧
    (m.logDirs.find? fun s => s.has id).any (fun s => m.curSet = some s.id) = true) ∨
    (m.fileSize id = 0 ∧ (e.curSetDir = false ∨ e.cpDir = true ∨
      ∀ s ∈ m.logDirs, m.curSet = some s.id → ∀ d ∈ s.cpDirs, d.name = name → d.size = 0))))

namespace StorageManager

def Exact (s : StorageManager) : Prop := ∀ t m, s.media t = some m → m.Exact

def Good (s : StorageManager) : Prop := ∀ t m, s.media t = some m → m.Good s.nextId

/-- Whenever a handle finds its log file missing, the recorded sizes survive the removal. -/
def RemovalOk (s : StorageManager) : StorAct → Prop
  | .write cp _ e => ∀ c ∈ s.cps[cp]?, ∀ id ∈ c.curFile, (s.checkMediaChange e.media).2 = false →
      e.found = false → ∀ m ∈ s.media (s.mediaOf id), m.RemovalFits id c.name e.recreate
  | _ => True

instance (s : StorageManager) (a : StorAct) : Decidable (s.RemovalOk a) :=
  match a with
  | .write cp _ e => inferInstanceAs (Decidable (∀ c ∈ s.cps[cp]?, ∀ id ∈ c.curFile,
      (s.checkMediaChange e.media).2 = false → e.found = false →
        ∀ m ∈ s.media (s.mediaOf id), m.RemovalFits id c.name e.recreate))
  | .createFile .. | .fileWrite .. | .fileCopy .. | .fileDiscard .. | .fileClose ..
  | .fileRemove .. | .createStorage .. | .deleteStorage .. | .clear | .setFileSizeLimit ..
  | .setDataPartLimit .. | .setSdLimit .. | .setOverwrite .. => isTrue trivial

instance : DecidablePred Exact := fun s =>
  decidable_of_iff (s.dataPart.Exact ∧ s.sdCard.Exact)
    ⟨fun h t _ hm => match t, hm with
      | .internal, hm => Option.some.inj hm ▸ h.1
      | .sdCard, hm => Option.some.inj hm ▸ h.2,
    fun h => ⟨h .internal _ rfl, h .sdCard _ rfl⟩⟩

variable {s s' : StorageManager} {t : MediaType} {id : Nat}

theorem changeFile_told (n : Nat) (renamed : Nat → Bool) (now : Option FileTime) (opened : Bool) :
    Told CpDirectory.size CpDirectory.Exact (CpDirectory.nextLogFile n renamed now opened) := by
  intro d d' c b hd h
  obtain ⟨d₁, hcl, he⟩ := map_eq_some_iff.mp h
  cases he
  obtain ⟨h₁, hz₁⟩ := CpDirectory.closeLogFile_exact hd hcl
  obtain ⟨h₂, hz₂⟩ := CpDirectory.createLogFile_exact n now opened
    (CpDirectory.rotate_exact renamed h₁)
  exact ⟨h₂, hz₂.trans hz₁, trivial⟩

theorem good_inv : MediaInv MediaStorage.Good where
  mono := .mono
  init := MediaStorage.init_good
  createCpSet := fun now mkdir h => h.createCpSet now mkdir
  onFile := fun hg h ho => h.onDir (CpDirectory.onFile_told _ hg.told) ho
  newLogFile := fun h ho => (h.onCurSet
    (fun set _ _ => CpSetDirectory.newLogFile_same _ _ _ set) ho).mono (Nat.le_succ _)
  createFile := fun h ho => (h.onCurSet
    (fun set _ _ => CpSetDirectory.createFile_same _ _ _ _ _ _ set) ho).mono (Nat.le_succ _)
  nextLogFile := fun h ho => (h.onDir (changeFile_told _ _ _ _) ho).mono (Nat.le_succ _)
  clear := fun _ => MediaStorage.clear_good _ _
  limits := fun _ _ _ h => h.of_dirs rfl rfl

theorem goodButCur_closable (n : Nat) : Closable (MediaStorage.GoodButCur n) := by
  intro id m m' u h ho
  exact h.onDir (CpDirectory.onFile_told id (LogFile.told_of_size LogFile.size_close))
    (CpDirectory.onFile_quiet id LogFile.quiet_of_size) ho

theorem checkDirs_good (ho : ∀ t' m, t' ≠ t → s.media t' = some m → m.Good s.nextId)
    (hd : ∀ m, s.media t = some m → e.topDir = false ∨
      (e.curSetDir = false ∧ m.GoodButCur s.nextId) ∨
      (m.Good s.nextId ∧ (e.curSetDir = false ∨ e.cpDir = true ∨ m.CpDirEmpty name)))
    (hr : s.checkDirs t e = some (s', b)) :
    s'.Good ∧ ∀ m, s'.media t = some m →
      m.curSet = none ∨ e.cpDir = true ∨ m.CpDirEmpty name := by
  have hstop (t' : MediaType) (m : MediaStorage) (ht : t' ≠ t)
      (hm : s.stopAllCps.media t' = some m) : m.Good s.nextId :=
    (stopAllCps_closes (good_inv.closable s.nextId) fun k hk => ho t' k ht hk).1 m hm
  have hn : s.stopAllCps.nextId = s.nextId :=
    (stopAllCps_closes (t := .none) (good_inv.closable s.nextId) nofun).2
  rw [checkDirs] at hr
  split at hr
  · refine ⟨?_, ?_⟩
    · rw [Good, onMedia_nextId hr, hn]
      refine onMedia_all hr hstop ?_
      intro m m' _ hg
      cases hg
      exact MediaStorage.clear_good _ m
    intro k hk
    obtain ⟨m, m', -, hg, hm', -, -⟩ := onMedia_spec hr
    cases hg
    cases hm'.symm.trans hk
    exact .inl rfl
  rename_i htop
  split at hr
  · refine ⟨?_, ?_⟩
    · rw [Good, onMedia_nextId hr, hn]
      refine onMedia_all hr hstop ?_
      intro m m' hm hg
      obtain ⟨m₁, hdrop, he⟩ := map_eq_some_iff.mp hg
      cases he
      refine MediaStorage.GoodButCur.dropCurSet ?_ hdrop
      refine (stopAllCps_closes (goodButCur_closable s.nextId) ?_).1 m hm
      intro k hk
      obtain h | h | h := hd k hk
      · exact absurd h htop
      · exact h.2
      · exact h.1.butCur
    · intro k hk
      obtain ⟨m, m', -, hg, hm', -, -⟩ := onMedia_spec hr
      obtain ⟨m₁, hdrop, he⟩ := map_eq_some_iff.mp hg
      cases he
      cases hm'.symm.trans hk
      obtain ⟨c, -, hdrop⟩ := bind_eq_some_iff.mp hdrop
      obtain ⟨set, -, rfl⟩ := map_eq_some_iff.mp hdrop
      exact .inl rfl
  · rename_i hset
    have hkeep {m : MediaStorage} (hm : s.media t = some m) :
        m.Good s.nextId ∧ (e.cpDir = true ∨ m.CpDirEmpty name) := by
      obtain h | h | h := hd m hm
      · exact absurd h htop
      · exact absurd h.1 hset
      · exact ⟨h.1, h.2.resolve_left hset⟩
    refine ⟨?_, ?_⟩
    · rw [Good, onMedia_nextId hr]
      refine onMedia_all hr ho ?_
      intro m m' hm hg
      obtain ⟨c, -, he⟩ := map_eq_some_iff.mp hg
      cases he
      exact (hkeep hm).1
    intro k hk
    obtain ⟨m, m', hm, hg, hm', -, -⟩ := onMedia_spec hr
    obtain ⟨c, -, he⟩ := map_eq_some_iff.mp hg
    cases he
    cases hm'.symm.trans hk
    exact .inr (hkeep hm).2

theorem recreateLogFile_good (ho : ∀ t' m, t' ≠ t → s.media t' = some m → m.Good s.nextId)
    (hd : ∀ m, s.media t = some m → e.topDir = false ∨
      (e.curSetDir = false ∧ m.GoodButCur s.nextId) ∨
      (m.Good s.nextId ∧ (e.curSetDir = false ∨ e.cpDir = true ∨ m.CpDirEmpty name)))
    (hr : s.recreateLogFile t name e = some (s', f)) : s'.Good := by
  obtain ⟨⟨s₁, b⟩, hc, hr⟩ := bind_eq_some_iff.mp hr
  obtain ⟨h₁, hcp⟩ := checkDirs_good ho hd hc
  split at hr
  · cases hr
    exact h₁
  obtain ⟨m, hm, hr⟩ := bind_eq_some_iff.mp hr
  split at hr
  · obtain ⟨⟨s₂, f'⟩, hf, he⟩ := map_eq_some_iff.mp hr
    cases he
    exact good_inv.createCpFile h₁ hf
  rename_i hcur
  refine good_inv.inCurSet h₁ hr fun k k' hk hgood hcs => ?_
  cases hm.symm.trans hk
  refine (hgood.onCurSet (fun set hsc hset => ?_) hcs).mono (Nat.le_succ _)
  apply CpSetDirectory.recreateLogFile_same
  refine ((hcp m hm).resolve_left hcur).imp_right fun hemp => ?_
  rw [CpSetDirectory.cpDirSize]
  split
  · rename_i d hfind
    have hname := find?_some (p := fun d : CpDirectory => decide (d.name = name)) hfind
    exact hemp set hset hsc d (mem_of_find?_eq_some hfind) (of_decide_eq_true hname)
  · rfl

theorem removed_good (h : s.Good)
    (hf : ∀ m ∈ s.media (s.mediaOf id), m.RemovalFits id name e)
    (hr : s.onMedia (s.mediaOf id) (MediaStorage.fileRemoved id) = some (s', u)) :
    (∀ t' m, t' ≠ s.mediaOf id → s'.media t' = some m → m.Good s'.nextId) ∧
    ∀ m, s'.media (s.mediaOf id) = some m → e.topDir = false ∨
      (e.curSetDir = false ∧ m.GoodButCur s'.nextId) ∨
      (m.Good s'.nextId ∧ (e.curSetDir = false ∨ e.cpDir = true ∨ m.CpDirEmpty name)) := by
  obtain ⟨m, m', hm, hg, hm', hother, hn⟩ := onMedia_spec hr
  have hrem := MediaStorage.fileRemoved_removal hg
  have hgood := h _ m hm
  rw [hn]
  refine ⟨?_, ?_⟩
  · intro t' k ht hk
    rw [hother t' ht] at hk
    exact h t' k hk
  intro k hk
  cases hm'.symm.trans hk
  obtain htop | ⟨hset, hcur⟩ | ⟨hz, hcp⟩ := hf m hm
  · exact .inl htop
  · exact .inr (.inl ⟨hset, hrem.goodButCur hgood hcur⟩)
  · exact .inr (.inr ⟨hrem.good hgood hz, hcp.imp_right (Or.imp_right hrem.cpDirEmpty)⟩)

theorem Good.replaceFile (h : s.Good)
    (hf : ∀ m ∈ s.media (s.mediaOf id), m.RemovalFits id name e.recreate)
    (hr : s.replaceFile i id name e = some (s', b)) : s'.Good := by
  obtain ⟨⟨s₁, u⟩, hm, hr⟩ := bind_eq_some_iff.mp hr
  obtain ⟨⟨s₂, f⟩, hc, hr⟩ := bind_eq_some_iff.mp hr
  obtain ⟨hother, hd⟩ := removed_good h hf hm
  have h₂ := recreateLogFile_good hother hd hc
  cases f with
  | none =>
    cases hr
    exact good_inv.onCp h₂ i _
  | some f =>
    obtain ⟨s₃, hl, he⟩ := map_eq_some_iff.mp hr
    cases he
    exact good_inv.kept.newLog (good_inv.onCp h₂ i _) hl

theorem Good.prepare (h : s.Good) (hok : s.RemovalOk (.write i len e))
    (hr : s.prepare i e = some (s', b)) : s'.Good := by
  have h₁ := good_inv.checkMediaChange h e.media
  rw [StorageManager.prepare] at hr
  cases hch : (s.checkMediaChange e.media).2 with
  | true =>
    rw [hch] at hr
    obtain ⟨c, hc, hr⟩ := bind_eq_some_iff.mp hr
    rw [if_pos rfl] at hc hr
    rw [stopCp_curFile hc] at hr
    exact good_inv.openFile (good_inv.stopCp h₁ i) hr
  | false =>
    rw [hch, checkMediaChange_unchanged hch] at hr
    obtain ⟨c, hc, hr⟩ := bind_eq_some_iff.mp hr
    rw [if_neg Bool.false_ne_true] at hc hr
    cases hcur : c.curFile with
    | none =>
      rw [hcur] at hr
      exact good_inv.openFile h hr
    | some id =>
      rw [hcur] at hr
      dsimp only at hr
      split at hr
      · split at hr
        · cases hr
        · cases hr
          exact h
      · rename_i hfound
        exact h.replaceFile (hok c hc id hcur hch ((Bool.not_eq_true _).mp hfound)) hr

theorem good_roomy : Roomy Good where
  toKept := good_inv.kept
  checkQuota := fun h hq => All.onMedia h hq fun _ _ _ hm hc => hm.checkQuota hc
  processDiskFull := fun h hq => All.onMedia h hq fun _ _ _ hm hc => hm.processDiskFull hc

theorem Good.write (h : s.Good) (hok : s.RemovalOk (.write i len e))
    (hr : s.write i len e = some (s', n)) : s'.Good :=
  good_roomy.write (fun _ _ hp => h.prepare hok hp)
    (fun _ _ _ _ hw _ hc => good_inv.changeFile hw hc) hr

theorem Good.step (h : s.Good) (hok : s.RemovalOk a) (hr : s.step a = some s') : s'.Good := by
  refine good_inv.step h hr ?_ ?_
  · rintro i len e n rfl hw
    exact h.write hok hw
  · rintro id rfl hw
    exact All.onMedia h hw fun _ _ _ hm hgm => hm.onDir (CpDirectory.remove_told id) hgm

/-- Along every run in which removals by others are of that kind, each recorded size is the sum of
the sizes below it. -/
theorem recorded_sizes_are_exact (h : StorageManager.init listing sd = some s)
    (hr : Run (Guarded RemovalOk StorageManager.step) s acts s') : s'.Exact := by
  have hg : s'.Good := by
    refine hr.invariant (I := fun _ s => s.Good) (good_inv.inited MediaStorage.new_good h) ?_
    intro as a t u ht hstep
    exact ht.step hstep.2 hstep.1
  intro t m hm
  exact (hg t m hm).exact

def plainWrite (len : Nat) (found : Bool) : StorAct :=
  .write 0 len
    { media := ⟨false, some [], some ⟨2015, 5, 14, 12, 0, 0⟩, true⟩
      request := ⟨true, some ⟨2015, 5, 14, 12, 0, 1⟩, true⟩
      found := found
      recreate := ⟨true, true, true, true, none, true, ⟨true, some ⟨2015, 5, 14, 12, 0, 2⟩, true⟩⟩
      callback := ⟨none, ⟨⟨false, none, none, true⟩, true, true⟩, ⟨[], false⟩, none⟩
      early := ⟨fun _ => true, fun _ => true⟩
      kernel := ⟨[], false⟩
      renamed := fun _ => true
      nextNow := some ⟨2015, 5, 14, 12, 0, 3⟩
      nextOpened := true
      late := ⟨fun _ => true, fun _ => true⟩ }

def emptyStorage : StorageManager :=
  ⟨.none, { MediaStorage.new with inited := true }, .new, [], 0⟩

theorem recorded_sizes_after_writes : ∃ s s', StorageManager.init (some []) none = some s ∧
    Run (Guarded RemovalOk StorageManager.step) s
      [.createStorage ['m', 'd'] true, plainWrite 0 true, plainWrite 4 false, plainWrite 4 true] s' ∧
    s'.Exact := by
  have he : (exec (fun s a => if RemovalOk s a then StorageManager.step s a else none) emptyStorage
      [.createStorage ['m', 'd'] true, plainWrite 0 true, plainWrite 4 false,
        plainWrite 4 true]).isSome := by
    decide +kernel
  obtain ⟨s', he⟩ := isSome_iff_exists.1 he
  have hi : StorageManager.init (some []) none = some emptyStorage := rfl
  have hr := guarded_of_exec he
  exact ⟨emptyStorage, s', hi, hr, recorded_sizes_are_exact hi hr⟩

/-- A log of four bytes is deleted by others and written again: set and media count it twice. -/
theorem removed_file_stays_counted : ∃ s s', StorageManager.init (some []) none = some s ∧
    Run (Next StorageManager.step) s
      [.createStorage ['m', 'd'] true, plainWrite 4 true, plainWrite 4 false] s' ∧
    ¬ s'.Exact ∧ s'.dataPart.size = 8 ∧ s'.dataPart.logDirs.map CpSetDirectory.size = [8] ∧
    s'.dataPart.logDirs.map (fun s => s.cpDirs.map CpDirectory.size) = [[4]] := by
  refine ⟨emptyStorage, ?_⟩
  simp only [exists_and_left]
  exact ⟨rfl, exists_run_of_exec (by decide +kernel)⟩

end StorageManager

end SprdVendor.SlogModem
