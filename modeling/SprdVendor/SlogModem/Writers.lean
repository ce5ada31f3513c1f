import SprdVendor.SlogModem.CurLogs

namespace SprdVendor.SlogModem
open Lib List Option

namespace StorageManager

variable {s s' : StorageManager} {t : MediaType} {id : Nat}
variable {H : Nat → Prop} {P Q : Name → Nat → Prop} {R : Nat → Name → Nat → Prop}

def Writes (s : StorageManager) (name : Name) (id : Nat) : Prop :=
  ∃ c ∈ s.cps, c.name = name ∧ c.curFile = some id

structure Owned (H : Nat → Prop) (P : Name → Nat → Prop) (s : StorageManager) : Prop where
  media : ∀ t m, s.media t = some m → m.Owned s.nextId P (t = s.curType)
  cur : ∀ name id, P name id → s.curType ≠ .none
  lt : ∀ name id, P name id → id < s.nextId
  held : ∀ id, H id → id < s.nextId
  apart : ∀ name id, P name id → ¬ H id

theorem Owned.anti (h : Owned H P s) (hP : ∀ name id, Q name id → P name id) : Owned H Q s :=
  ⟨fun t m hm => (h.media t m hm).mono (le_refl _) hP,
    fun name id hid => h.cur name id (hP name id hid),
    fun name id hid => h.lt name id (hP name id hid), h.held,
    fun name id hid => h.apart name id (hP name id hid)⟩

theorem Owned.hold (h : Owned H P s)
    (hK : ∀ id, K id → H id ∨ (id < s.nextId ∧ ∀ name, ¬ P name id)) : Owned K P s := by
  refine ⟨h.media, h.cur, h.lt, ?_, ?_⟩
  · intro id hid
    exact (hK id hid).elim (h.held id) And.left
  · intro name id hid hk
    exact (hK id hk).elim (h.apart name id hid) fun hn => hn.2 name hid

theorem Owned.of_eq (h : Owned H P s) (hm : s'.media = s.media) (hc : s'.curType = s.curType)
    (hn : s.nextId ≤ s'.nextId) : Owned H P s' := by
  refine ⟨?_, ?_, ?_, ?_, h.apart⟩
  · intro t m ht
    rw [hm] at ht
    rw [hc]
    exact (h.media t m ht).mono hn fun _ _ hid => hid
  · rw [hc]
    exact h.cur
  · exact fun name id hid => lt_of_lt_of_le (h.lt name id hid) hn
  · exact fun id hid => lt_of_lt_of_le (h.held id hid) hn

theorem Owned.onMedia (h : Owned H P s) (ho : s.onMedia t g = some (s', b))
    (hg : ∀ m m', s.media t = some m → g m = some (m', b) → m.Moves R Q m')
    (hQ : ∀ name id, P name id → Q name id)
    (hR : ∀ set name id, R set name id → s.nextId ≤ id ∧ id < k) (hk : s.nextId ≤ k) :
    Owned H P { s' with nextId := k } := by
  obtain ⟨m, m', hm, hgm, hm', hother, -⟩ := onMedia_spec ho
  obtain ⟨hc, -⟩ := onMedia_frame ho
  have hmedia : ({ s' with nextId := k } : StorageManager).media = s'.media := media_congr rfl rfl
  refine ⟨?_, ?_, ?_, ?_, h.apart⟩
  · intro t' m₁ ht
    rw [hmedia] at ht
    rw [hc]
    by_cases htt : t' = t
    · subst htt
      cases hm'.symm.trans ht
      exact (h.media t' m hm).moves (hg m m' hm hgm)
        (fun name id hid => ⟨h.lt name id hid, hQ name id hid⟩) hR hk
    · rw [hother t' htt] at ht
      exact (h.media t' m₁ ht).mono hk fun _ _ hid => hid
  · dsimp only
    rw [hc]
    exact h.cur
  · exact fun name id hid => lt_of_lt_of_le (h.lt name id hid) hk
  · exact fun id hid => lt_of_lt_of_le (h.held id hid) hk

theorem Owned.onMediaSame (h : Owned H P s) (ho : s.onMedia t g = some (s', b))
    (hg : ∀ m m', s.media t = some m → g m = some (m', b) → m.Moves (fun _ _ _ => False) P m') :
    Owned H P s' := by
  have h' : Owned H P { s' with nextId := s.nextId } :=
    h.onMedia ho hg (fun _ _ hid => hid) (fun _ _ _ hr => hr.elim) (le_refl _)
  rwa [← onMedia_nextId ho] at h'

theorem Owned.onFile (h : Owned H P s)
    (hg : CpDirectory.SameId g) (ho : s.onFile id g = some (s', b)) : Owned H P s' :=
  h.onMediaSame ho fun _ _ _ hgm =>
    MediaStorage.onDir_moves (fun _ _ _ _ _ _ hd => CpDirectory.onFile_moves hg hd) hgm

theorem closing_frame (s : StorageManager) :
    Closing fun s' => s'.curType = s.curType ∧ s'.cps = s.cps := by
  rintro id t t' u ⟨hc, hcps⟩ ho
  exact ⟨(onMedia_frame ho).1.trans hc, (onMedia_frame ho).2.trans hcps⟩

theorem owned_closing : Closing (Owned H P) :=
  fun _ _ _ _ h ho => h.onFile LogFile.close_call.same ho

theorem closeCurFile_frame (s : StorageManager) (c : CpStorage) :
    (s.closeCurFile c).curType = s.curType ∧ (s.closeCurFile c).cps = s.cps :=
  (closing_frame s).closeCurFile ⟨rfl, rfl⟩ c

theorem foldl_frame (cs : List CpStorage) (s : StorageManager) :
    (cs.foldl closeCurFile s).curType = s.curType ∧ (cs.foldl closeCurFile s).cps = s.cps :=
  (closing_frame s).foldl ⟨rfl, rfl⟩ cs

theorem Owned.stopAllCps (h : Owned H P s) : Owned H P s.stopAllCps :=
  (owned_closing.foldl h s.cps).of_eq (media_congr rfl rfl) rfl (le_refl _)

theorem stopAllCps_curType (s : StorageManager) : s.stopAllCps.curType = s.curType :=
  (foldl_frame s.cps s).1

theorem stopAllCps_cps (s : StorageManager) :
    s.stopAllCps.cps = s.cps.map fun c => { c with curFile := none } := by
  show (s.cps.foldl closeCurFile s).cps.map _ = _
  rw [(foldl_frame s.cps s).2]

theorem stopAllCps_names (s : StorageManager) :
    s.stopAllCps.cps.map CpStorage.name = s.cps.map CpStorage.name := by
  rw [stopAllCps_cps, List.map_map]
  rfl

theorem stopAllCps_idle (s : StorageManager) (name : Name) (id : Nat) :
    ¬ s.stopAllCps.Writes name id := by
  rintro ⟨c, hc, -, hcur⟩
  rw [stopAllCps_cps] at hc
  obtain ⟨c', -, rfl⟩ := mem_map.mp hc
  cases hcur

/-- Each log writer has a name of its own, and its log file is the current log of its CP. -/
structure Writing (H : Nat → Prop) (s : StorageManager) : Prop where
  names : (s.cps.map CpStorage.name).Nodup
  owned : s.Owned H s.Writes

theorem Writing.of_cps (h : Writing H s) (hc : s'.cps = s.cps) (ho : s'.Owned H s.Writes) :
    Writing H s' := by
  refine ⟨by rw [hc]; exact h.names, ho.anti ?_⟩
  rintro name id ⟨c, hcm, hid⟩
  rw [hc] at hcm
  exact ⟨c, hcm, hid⟩

theorem Writing.onMediaSame (h : Writing H s)
    (ho : s.onMedia t g = some (s', b))
    (hg : ∀ m m', s.media t = some m → g m = some (m', b) →
      m.Moves (fun _ _ _ => False) s.Writes m') : Writing H s' :=
  h.of_cps (onMedia_frame ho).2 (h.owned.onMediaSame ho hg)

theorem Writing.onFile (h : Writing H s)
    (hg : CpDirectory.SameId g) (ho : s.onFile id g = some (s', b)) : Writing H s' :=
  h.of_cps (onMedia_frame ho).2 (h.owned.onFile hg ho)

theorem Writing.onCp (h : Writing H s) (i : Nat)
    (hn : ∀ c, (g c).name = c.name) (hf : ∀ c, (g c).curFile = c.curFile) :
    Writing H (s.onCp i g) := by
  have hmap {β : Type} (k : CpStorage → β) (hk : ∀ c, k (g c) = k c) :
      (s.cps.modify i g).map k = s.cps.map k := by
    apply ext_getElem?
    intro j
    rw [getElem?_map, getElem?_map, getElem?_modify]
    cases s.cps[j]? with
    | none => rfl
    | some c =>
      show some (k (if i = j then g c else c)) = some (k c)
      split
      · rw [hk]
      · rfl
  refine ⟨?_, ?_⟩
  · show ((s.cps.modify i g).map CpStorage.name).Nodup
    rw [hmap CpStorage.name hn]
    exact h.names
  refine (h.owned.anti ?_).of_eq (media_congr rfl rfl) rfl (le_refl _)
  rintro name id ⟨c, hc, hcn, hcf⟩
  have hm : (c.name, c.curFile) ∈ (s.cps.modify i g).map fun c => (c.name, c.curFile) :=
    mem_map_of_mem hc
  rw [hmap _ fun c => by rw [hn, hf]] at hm
  obtain ⟨c', hc', he⟩ := mem_map.mp hm
  obtain ⟨hn', hf'⟩ := Prod.mk.inj he
  exact ⟨c', hc', hn'.trans hcn, hf'.trans hcf⟩

theorem writes_setCurFile (hn : (s.cps.map CpStorage.name).Nodup)
    (hi : (s.cps.map CpStorage.name)[i]? = some name)
    (h : (s.setCurFile i f).Writes nm id) :
    (nm ≠ name ∧ s.Writes nm id) ∨ (nm = name ∧ f = some id) := by
  obtain ⟨c, hc, rfl, hcf⟩ := h
  obtain ⟨j, hj⟩ := mem_iff_getElem?.mp hc
  rw [setCurFile, StorageManager.onCp, getElem?_modify] at hj
  obtain ⟨c₀, hc₀, he⟩ := map_eq_some_iff.mp hj
  by_cases hij : i = j
  · subst hij
    rw [if_pos rfl] at he
    subst he
    rw [getElem?_map, hc₀] at hi
    exact .inr ⟨Option.some.inj hi, hcf⟩
  rw [if_neg hij] at he
  subst he
  refine .inl ⟨?_, c₀, mem_of_getElem? hc₀, rfl, hcf⟩
  rintro rfl
  have hj' : (s.cps.map CpStorage.name)[j]? = some c₀.name := by rw [getElem?_map, hc₀]; rfl
  obtain ⟨hlt, -⟩ := List.getElem?_eq_some_iff.mp hi
  exact hij ((getElem?_inj hlt hn).mp (hi.trans hj'.symm))

theorem setCurFile_names (i : Nat) (f : Option Nat) (s : StorageManager) :
    (s.setCurFile i f).cps.map CpStorage.name = s.cps.map CpStorage.name := by
  apply ext_getElem?
  intro j
  show ((s.cps.modify i _).map CpStorage.name)[j]? = _
  rw [getElem?_map, getElem?_map, getElem?_modify]
  cases s.cps[j]? with
  | none => rfl
  | some c =>
    split <;> rfl

theorem Owned.idle (hP : ∀ name id, ¬ P name id) (hh : ∀ id, H id → id < s.nextId)
    (hm : ∀ t m, s.media t = some m → ∃ Q cur, m.Owned s.nextId Q cur) : Owned H P s := by
  refine ⟨?_, fun name id hid => absurd hid (hP name id),
    fun name id hid => absurd hid (hP name id), hh, fun name id hid => absurd hid (hP name id)⟩
  intro t m ht
  obtain ⟨Q, cur, ho⟩ := hm t m ht
  exact .idle ho.fresh hP

theorem Owned.onMediaIdle (h : Owned H P s)
    (hQ : ∀ name id, ¬ Q name id) (ho : s.onMedia t g = some (s', b))
    (hg : ∀ m m' set name id, g m = some (m', b) → m'.Place set name id → m.Place set name id)
    (hk : s.nextId ≤ k) : Owned H Q { s' with nextId := k } := by
  obtain ⟨m, m', hm, hgm, hm', hother, -⟩ := onMedia_spec ho
  refine .idle hQ (fun id hid => lt_of_lt_of_le (h.held id hid) hk) ?_
  intro t' m₁ hm₁
  have hm₂ : s'.media t' = some m₁ := by cases t' <;> exact hm₁
  refine ⟨Q, True, .idle ?_ hQ⟩
  intro set name id hp
  by_cases ht : t' = t
  · subst ht
    cases hm'.symm.trans hm₂
    exact lt_of_lt_of_le
      ((h.media t' m hm).fresh set name id (hg m m' set name id hgm hp)) hk
  · rw [hother t' ht] at hm₂
    exact lt_of_lt_of_le ((h.media t' m₁ hm₂).fresh set name id hp) hk

theorem owned_idle_iff (hP : ∀ name id, ¬ P name id) :
    Owned H P s ↔ (∀ id, H id → id < s.nextId) ∧ s.dataPart.Owned s.nextId P True ∧
      s.sdCard.Owned s.nextId P True := by
  constructor
  · intro h
    exact ⟨h.held, .idle (h.media .internal _ rfl).fresh hP, .idle (h.media .sdCard _ rfl).fresh hP⟩
  rintro ⟨hh, hd, hc⟩
  refine .idle hP hh ?_
  intro t m hm
  cases t with
  | none => cases hm
  | internal =>
    cases hm
    exact ⟨P, True, hd⟩
  | sdCard =>
    cases hm
    exact ⟨P, True, hc⟩

theorem Owned.initSdCard (h : Owned H P s) (hP : ∀ name id, ¬ P name id)
    (hi : s.initSdCard e = some s') : Owned H P s' := by
  rw [StorageManager.initSdCard] at hi
  split at hi
  · cases hi
    exact h
  obtain ⟨⟨m, k⟩, hm, rfl⟩ := map_eq_some_iff.mp hi
  obtain ⟨hh, hd, hc⟩ := (owned_idle_iff hP).mp h
  have hle : s.nextId ≤ k := MediaStorage.init_le hm
  exact (owned_idle_iff hP).mpr ⟨fun id hid => lt_of_lt_of_le (hh id hid) hle,
    hd.mono hle fun _ _ hid => hid, hc.init hm hP⟩

theorem Owned.changeTo (h : Owned H P s) (hP : ∀ name id, ¬ P name id) (t : MediaType)
    (e : MediaEnv) : Owned H P (s.changeTo t e) := by
  obtain ⟨hh, hd, hc⟩ := (owned_idle_iff hP).mp h
  have hh' (id : Nat) (hid : H id) : id < s.nextId + 1 := Nat.lt_succ_of_lt (hh id hid)
  have hmono {m : MediaStorage} (hm : m.Owned s.nextId P True) : m.Owned (s.nextId + 1) P True :=
    hm.mono (Nat.le_succ _) fun _ _ hid => hid
  have hset {m : MediaStorage} (hm : m.Owned s.nextId P True) :
      (m.createCpSet s.nextId e.now e.mkdir).Owned (s.nextId + 1) P True :=
    .idle (fun set name id hp =>
      (hmono hm).fresh set name id (MediaStorage.createCpSet_place hp)) hP
  cases t with
  | none => exact h
  | internal => exact (owned_idle_iff hP).mpr ⟨hh', hset hd, hmono hc⟩
  | sdCard => exact (owned_idle_iff hP).mpr ⟨hh', hmono hd, hset hc⟩

theorem changeTo_cps (t : MediaType) (e : MediaEnv) (s : StorageManager) :
    (s.changeTo t e).cps = s.cps := by
  cases t <;> rfl

theorem initSdCard_cps (h : s.initSdCard e = some s') : s'.cps = s.cps := by
  rw [initSdCard] at h
  split at h
  · cases h
    rfl
  · obtain ⟨r, -, rfl⟩ := map_eq_some_iff.mp h
    rfl

theorem Writing.stopFor (h : Writing H s) (ht : s.curType = t ∨ s.curType = .none) :
    Writing H (if s.curType = t then s.stopAllCps else s) ∧
      ∀ name id, ¬ (if s.curType = t then s.stopAllCps else s).Writes name id := by
  split
  · refine ⟨⟨by rw [stopAllCps_names]; exact h.names, ?_⟩, stopAllCps_idle s⟩
    exact h.owned.stopAllCps.anti fun name id hid => absurd hid (stopAllCps_idle s name id)
  · rename_i hc
    exact ⟨h, fun name id hid => h.owned.cur name id hid (ht.resolve_left hc)⟩

theorem Writing.checkMediaChange (h : Writing H s) (e : MediaEnv) :
    Writing H (s.checkMediaChange e).1 := by
  rw [StorageManager.checkMediaChange]
  split
  · split
    · exact h
    rename_i hne
    have ht : s.curType = .internal ∨ s.curType = .none := by
      cases hc : s.curType with
      | none => exact .inr rfl
      | internal => exact .inl rfl
      | sdCard => exact absurd hc hne
    obtain ⟨hw, hidle⟩ := h.stopFor ht
    dsimp only
    split
    · exact hw
    · rename_i s₁ hi
      exact hw.of_cps ((changeTo_cps _ e s₁).trans (initSdCard_cps hi))
        ((hw.owned.initSdCard hidle hi).changeTo hidle .sdCard e)
  · split
    · exact h
    rename_i hne
    have ht : s.curType = .sdCard ∨ s.curType = .none := by
      cases hc : s.curType with
      | none => exact .inr rfl
      | internal => exact absurd hc hne
      | sdCard => exact .inl rfl
    obtain ⟨hw, hidle⟩ := h.stopFor ht
    exact hw.of_cps (changeTo_cps _ e _) (hw.owned.changeTo hidle .internal e)

theorem inCurSet_frame (h : s.inCurSet t g = some (s', b)) :
    s'.curType = s.curType ∧ s'.cps = s.cps ∧ s'.nextId = s.nextId + 1 := by
  obtain ⟨⟨s₁, b'⟩, ho, he⟩ := map_eq_some_iff.mp h
  cases he
  exact ⟨(onMedia_frame ho).1, (onMedia_frame ho).2, rfl⟩

theorem Owned.inCurSet (h : Owned H P s) (ho : s.inCurSet t g = some (s', b))
    (hg : ∀ n set, CpSetDirectory.Moves (fun _ id => id = n) P set (g n set).1) : Owned H P s' := by
  obtain ⟨⟨s₁, b'⟩, hm, he⟩ := map_eq_some_iff.mp ho
  cases he
  refine h.onMedia (R := fun _ _ id => id = s.nextId) hm ?_ (fun _ _ hid => hid) ?_ (Nat.le_succ _)
  · exact fun m m' _ hgm => MediaStorage.onCurSet_moves (fun set _ => hg s.nextId set) hgm
  · rintro set name id rfl
    exact ⟨Nat.le_refl _, Nat.lt_succ_self _⟩

theorem createFile_id {set : CpSetDirectory}
    (h : (set.createFile n name fname lt mkdir opened).2 = some f) : f = n := by
  rw [CpSetDirectory.createFile, CpSetDirectory.inCpDir] at h
  split at h
  · rename_i hr
    obtain ⟨-, d, -, d', -, -, -, hgd, -⟩ := onFirst_eq_some hr
    have hd := (congrArg Prod.snd (Option.some.inj hgd)).trans h
    rw [CpDirectory.createFile] at hd
    split at hd
    · exact (Option.some.inj hd).symm
    · cases hd
  · cases h

theorem inCurSet_createFile (h : s.inCurSet t (fun n =>
      CpSetDirectory.createFile n name fname lt mkdir opened) = some (s', some f)) :
    f = s.nextId := by
  obtain ⟨⟨s₁, b'⟩, hm, he⟩ := map_eq_some_iff.mp h
  cases he
  obtain ⟨m, m', -, hgm, -⟩ := onMedia_spec hm
  obtain ⟨pre, set, post, -, -, -, hb, -⟩ := MediaStorage.onCurSet_spec hgm
  exact createFile_id hb.symm

theorem Writing.createFile (h : Writing H s)
    (hr : s.createFile name fname lt e = some (s', f)) :
    Writing (fun id => H id ∨ f = some id) s' := by
  have hw := h.checkMediaChange e.media
  rw [StorageManager.createFile] at hr
  generalize (s.checkMediaChange e.media).1 = s₁ at hw hr
  split at hr
  · cases hr
    exact ⟨hw.names, hw.owned.hold fun id hid => hid.imp_right fun hf => by cases hf⟩
  obtain ⟨-, hcps, hn⟩ := inCurSet_frame hr
  have hw' := hw.of_cps hcps (hw.owned.inCurSet hr fun n set =>
    CpSetDirectory.createFile_moves n name fname lt e.mkdir e.opened set)
  refine ⟨hw'.names, hw'.owned.hold fun id hid => hid.imp_right fun hid => ?_⟩
  subst hid
  obtain rfl := inCurSet_createFile hr
  refine ⟨by rw [hn]; exact Nat.lt_succ_self _, ?_⟩
  rintro nm ⟨c, hc, hcw⟩
  rw [hcps] at hc
  exact lt_irrefl _ (hw.owned.lt nm s₁.nextId ⟨c, hc, hcw⟩)

theorem Owned.adds (h : Owned H P s)
    (hname : ∀ id, ¬ P name id) (ho : s.onMedia s.curType g = some (s', b))
    (hg : ∀ m m', s.media s.curType = some m → g m = some (m', b) →
      m.Moves (fun set nm id => m.curSet = some set ∧ nm = name ∧ id = s.nextId)
        (fun nm _ => nm ≠ name) m' ∧ m'.Logs name s.nextId) :
    Owned H (fun nm id => P nm id ∨ nm = name ∧ id = s.nextId)
      { s' with nextId := s.nextId + 1 } := by
  obtain ⟨m, m', hm, hgm, hm', hother, -⟩ := onMedia_spec ho
  obtain ⟨hmoves, hlogs⟩ := hg m m' hm hgm
  have hcur : s'.curType = s.curType := (onMedia_frame ho).1
  have hne : s.curType ≠ .none := by
    intro hc
    rw [hc] at hm
    cases hm
  have h₁ : Owned H P { s' with nextId := s.nextId + 1 } := by
    refine h.onMedia (R := fun set nm id => m.curSet = some set ∧ nm = name ∧ id = s.nextId)
      (Q := fun nm _ => nm ≠ name) ho ?_ ?_ ?_ (Nat.le_succ _)
    · intro m₁ m₁' hm₁ hgm₁
      cases hm.symm.trans hm₁
      exact (hg m m₁' hm hgm₁).1
    · rintro nm id hid rfl
      exact hname id hid
    · rintro set nm id ⟨-, -, rfl⟩
      exact ⟨Nat.le_refl _, Nat.lt_succ_self _⟩
  refine ⟨?_, ?_, ?_, h₁.held, ?_⟩
  · intro t m₁ hm₁
    have hm₂ : s'.media t = some m₁ := by cases t <;> exact hm₁
    refine (h₁.media t m₁ hm₁).add ?_ ?_
    · intro set nm hp
      by_cases ht : t = s.curType
      · subst ht
        cases hm'.symm.trans hm₂
        obtain hp | ⟨hset, rfl, -⟩ := hmoves.place set nm _ hp
        · exact absurd ((h.media s.curType m hm).fresh set nm _ hp) (lt_irrefl _)
        · exact ⟨hcur.symm, hmoves.cur.trans hset, rfl⟩
      · rw [hother t ht] at hm₂
        exact absurd ((h.media t m₁ hm₂).fresh set nm _ hp) (lt_irrefl _)
    · intro ht
      have ht : t = s.curType := ht.trans hcur
      subst ht
      cases hm'.symm.trans hm₂
      exact hlogs
  · rintro nm id (hid | -)
    · exact h₁.cur nm id hid
    · exact hcur ▸ hne
  · rintro nm id (hid | ⟨-, rfl⟩)
    · exact h₁.lt nm id hid
    · exact Nat.lt_succ_self _
  · rintro nm id (hid | ⟨-, rfl⟩)
    · exact h₁.apart nm id hid
    · exact fun hh => lt_irrefl _ (h.held _ hh)

theorem Owned.opens {g : Nat → CpSetDirectory → CpSetDirectory × β} (h : Owned H P s)
    (hname : ∀ id, ¬ P name id)
    (hg : ∀ n set, CpSetDirectory.Opens name n set (g n set).1)
    (ho : s.inCurSet t g = some (s', b)) : Owned H P s' := by
  refine h.inCurSet ho fun n set => (hg n set).mono (fun _ _ hr => hr.2) ?_
  rintro nm id hid rfl
  exact hname id hid

theorem Owned.opensFile {g : Nat → CpSetDirectory → CpSetDirectory × β} (h : Owned H P s)
    (hname : ∀ id, ¬ P name id)
    (hg : ∀ n set, CpSetDirectory.Opens name n set (g n set).1)
    (hl : ∀ n set, (g n set).2 = b → f = n ∧ CpSetDirectory.Logs (g n set).1 name n)
    (ho : s.inCurSet s.curType g = some (s', b)) :
    Owned H (fun nm id => P nm id ∨ nm = name ∧ id = f) s' := by
  obtain ⟨⟨s₁, b'⟩, hm, he⟩ := map_eq_some_iff.mp ho
  cases he
  have hf : f = s.nextId := by
    obtain ⟨m, m', -, hgm, -⟩ := onMedia_spec hm
    obtain ⟨pre, set, post, -, -, -, hb, -⟩ := MediaStorage.onCurSet_spec hgm
    exact (hl s.nextId set hb.symm).1
  subst hf
  refine h.adds hname hm fun m m' _ hgm => ⟨?_, ?_⟩
  · exact MediaStorage.onCurSet_moves (fun set hset => (hg s.nextId set).mono
      (fun _ _ hr => ⟨hset, hr⟩) fun _ _ hq => hq) hgm
  · exact MediaStorage.onCurSet_logs (fun set => (hg s.nextId set).id)
      (fun set hb => (hl s.nextId set hb).2) hgm

theorem Writing.mono (h : Writing H s) (hK : ∀ id, K id → H id) : Writing K s :=
  ⟨h.names, h.owned.hold fun id hid => .inl (hK id hid)⟩

theorem Owned.setCurFile (h : Owned H P s) (i : Nat) (f : Option Nat) :
    Owned H P (s.setCurFile i f) :=
  h.of_eq (media_congr rfl rfl) rfl (le_refl _)

structure WritingBut (H : Nat → Prop) (name : Name) (s : StorageManager) : Prop where
  names : (s.cps.map CpStorage.name).Nodup
  owned : s.Owned H fun nm id => nm ≠ name ∧ s.Writes nm id

theorem Writing.but (h : Writing H s) (name : Name) : WritingBut H name s :=
  ⟨h.names, h.owned.anti fun _ _ hid => hid.2⟩

theorem WritingBut.setNone (h : WritingBut H name s)
    (hi : (s.cps.map CpStorage.name)[i]? = some name) : Writing H (s.setCurFile i none) := by
  refine ⟨by rw [setCurFile_names]; exact h.names, (h.owned.setCurFile i none).anti ?_⟩
  intro nm id hid
  obtain hid | ⟨-, hf⟩ := writes_setCurFile h.names hi hid
  · exact hid
  · cases hf

theorem WritingBut.setSome (h : WritingBut H name s)
    (hi : (s.cps.map CpStorage.name)[i]? = some name)
    (ho : s.Owned H fun nm id => (nm ≠ name ∧ s.Writes nm id) ∨ nm = name ∧ id = f) :
    Writing H (s.setCurFile i (some f)) := by
  refine ⟨by rw [setCurFile_names]; exact h.names, (ho.setCurFile i (some f)).anti ?_⟩
  intro nm id hid
  obtain hid | ⟨rfl, hf⟩ := writes_setCurFile h.names hi hid
  · exact .inl hid
  · exact .inr ⟨rfl, (Option.some.inj hf).symm⟩

theorem writing_kept : Kept (Writing H) where
  onFile := fun h hg ho => h.onFile hg.same ho
  flag := fun i _ h => h.onCp i (fun _ => rfl) fun _ => rfl
  createFile := fun h hc => (h.createFile hc).mono fun _ hid => .inl hid

theorem writes_congr (hc : s'.cps = s.cps) : s'.Writes = s.Writes := by
  funext name id
  rw [Writes, Writes, hc]

theorem Writing.requested (h : Writing H s) (hi : (s.cps.map CpStorage.name)[i]? = some name)
    (hc : s.requestFile name e = some (s', some f)) : Writing H (s'.setCurFile i (some f)) := by
  rw [StorageManager.requestFile] at hc
  split at hc
  · cases hc
  obtain ⟨-, hcps, -⟩ := inCurSet_frame hc
  have hname (id : Nat) : ¬ (name ≠ name ∧ s.Writes name id) := fun hid => hid.1 rfl
  have ho := (h.but name).owned.opensFile hname
    (fun n set => CpSetDirectory.newLogFile_opens n name e set)
    (fun n set hf => CpSetDirectory.newLogFile_logs hf) hc
  have hb : WritingBut H name s' := by
    refine ⟨by rw [hcps]; exact h.names, ?_⟩
    rw [writes_congr hcps]
    exact ho.anti fun _ _ hid => .inl hid
  rw [← writes_congr hcps] at ho
  rw [← hcps] at hi
  exact hb.setSome hi ho

theorem Writing.openFile (h : Writing H s) (hi : (s.cps.map CpStorage.name)[i]? = some name)
    (hr : s.openFile i name e = some (s', b)) (hidle : ∀ id, ¬ s.Writes name id) :
    Writing H s' := by
  obtain ⟨⟨s₁, f⟩, hc, hr⟩ := bind_eq_some_iff.mp hr
  cases f with
  | none =>
    cases hr
    rw [StorageManager.requestFile] at hc
    split at hc
    · cases hc
      exact h
    · exact h.of_cps (inCurSet_frame hc).2.1 (h.owned.opens hidle
        (fun n set => CpSetDirectory.newLogFile_opens n name e.request set) hc)
  | some f =>
    obtain ⟨s₂, hl, he⟩ := map_eq_some_iff.mp hr
    cases he
    exact writing_kept.newLog (h.requested hi hc) hl

theorem Owned.mediaOf (h : Owned H P s) (hid : P name id) : s.mediaOf id = s.curType := by
  have hcur := h.cur name id hid
  rw [StorageManager.mediaOf]
  split
  · rename_i hd
    obtain ⟨set, nm, hp⟩ := MediaStorage.has_iff.mp hd
    exact ((h.media .internal _ rfl).only name id hid set nm hp).1
  rename_i hd
  split
  · rename_i hc
    obtain ⟨set, nm, hp⟩ := MediaStorage.has_iff.mp hc
    exact ((h.media .sdCard _ rfl).only name id hid set nm hp).1
  rename_i hc
  cases ht : s.curType with
  | none => exact absurd ht hcur
  | internal => exact absurd ((h.media .internal _ rfl).logs ht.symm name id hid).has hd
  | sdCard => exact absurd ((h.media .sdCard _ rfl).logs ht.symm name id hid).has hc

theorem Owned.name_eq (h : Owned H P s) (hid : P name id) (hid' : P nm id) : nm = name := by
  have hcur := h.cur name id hid
  obtain ⟨m, hm⟩ : ∃ m, s.media s.curType = some m := by
    cases ht : s.curType with
    | none => exact absurd ht hcur
    | _ => exact ⟨_, rfl⟩
  have ho := h.media s.curType m hm
  obtain ⟨set, -, hp⟩ := (ho.logs rfl nm id hid').place
  exact (ho.only name id hid set nm hp).2.2

theorem Writing.fileRemoved (h : Writing H s) (hid : s.Writes name id)
    (hr : s.onMedia (s.mediaOf id) (MediaStorage.fileRemoved id) = some (s', u)) :
    WritingBut H name s' := by
  have hcps := (onMedia_frame hr).2
  refine ⟨by rw [hcps]; exact h.names, ?_⟩
  rw [writes_congr hcps]
  refine (h.but name).owned.onMediaSame hr fun m m' _ hg => ?_
  refine MediaStorage.onDir_moves (fun d d' c b set _ hd => ?_) hg
  cases hd
  have hm := CpDirectory.fileRemoved_moves (R := fun _ => False) id d
  refine ⟨hm.name, hm.has, fun id' hq hlog => hm.logs id' ?_ hlog⟩
  rintro rfl
  exact hq.1 (h.owned.name_eq hid hq.2)

theorem WritingBut.checkDirs (h : WritingBut H name s)
    (hr : s.checkDirs s.curType e = some (s', b)) :
    WritingBut H name s' ∧ s'.curType = s.curType ∧
      s'.cps.map CpStorage.name = s.cps.map CpStorage.name := by
  have hstop (t : MediaType) (g : MediaStorage → Option (MediaStorage × Bool))
      (hg : ∀ m m' set nm id, g m = some (m', b) → m'.Place set nm id → m.Place set nm id)
      (hr : s.stopAllCps.onMedia t g = some (s', b)) :
      WritingBut H name s' ∧ s'.curType = s.curType ∧
        s'.cps.map CpStorage.name = s.cps.map CpStorage.name := by
    obtain ⟨hc, hcps⟩ := onMedia_frame hr
    have hn : s'.cps.map CpStorage.name = s.cps.map CpStorage.name := by
      rw [hcps, stopAllCps_names]
    refine ⟨⟨by rw [hn]; exact h.names, ?_⟩, hc.trans (stopAllCps_curType s), hn⟩
    rw [writes_congr hcps]
    have ho := h.owned.stopAllCps.onMediaIdle (fun nm id hid => stopAllCps_idle s nm id hid) hr hg
      (le_refl _)
    rw [← onMedia_nextId hr] at ho
    exact ho.anti fun _ _ hid => hid.2
  rw [StorageManager.checkDirs] at hr
  split at hr
  · refine hstop _ _ ?_ hr
    intro m m' set nm id hg hp
    cases hg
    obtain ⟨set', hs, -⟩ := hp
    cases hs
  split at hr
  · refine hstop _ _ ?_ hr
    intro m m' set nm id hg hp
    obtain ⟨m₁, hd, he⟩ := map_eq_some_iff.mp hg
    cases he
    exact MediaStorage.dropCurSet_place hd hp
  obtain ⟨hc, hcps⟩ := onMedia_frame hr
  refine ⟨⟨by rw [hcps]; exact h.names, ?_⟩, hc, by rw [hcps]⟩
  rw [writes_congr hcps]
  refine h.owned.onMediaSame hr fun m m' _ hg => ?_
  obtain ⟨c, -, he⟩ := map_eq_some_iff.mp hg
  cases he
  exact .of_dirs rfl rfl

structure Replaced (H : Nat → Prop) (name : Name) (f : Option Nat) (s s' : StorageManager) :
    Prop where
  but : WritingBut H name s'
  names : s'.cps.map CpStorage.name = s.cps.map CpStorage.name
  file : ∀ id₀, f = some id₀ →
    s'.Owned H fun nm id => (nm ≠ name ∧ s'.Writes nm id) ∨ nm = name ∧ id = id₀

theorem WritingBut.inCurSet {g : Nat → CpSetDirectory → CpSetDirectory × β}
    (h : WritingBut H name s)
    (hg : ∀ n set, CpSetDirectory.Opens name n set (g n set).1)
    (hl : ∀ id₀, f = some id₀ → ∀ n set, (g n set).2 = b →
      id₀ = n ∧ CpSetDirectory.Logs (g n set).1 name n)
    (ho : s.inCurSet s.curType g = some (s', b)) : Replaced H name f s s' := by
  obtain ⟨-, hcps, -⟩ := inCurSet_frame ho
  have hname (id : Nat) : ¬ (name ≠ name ∧ s.Writes name id) := fun hid => hid.1 rfl
  refine ⟨⟨by rw [hcps]; exact h.names, ?_⟩, by rw [hcps], ?_⟩
  · rw [writes_congr hcps]
    exact h.owned.opens hname hg ho
  · intro id₀ hf
    rw [writes_congr hcps]
    exact h.owned.opensFile hname hg (hl id₀ hf) ho

theorem WritingBut.createCpFile (h : WritingBut H name s) (hm : s.media s.curType = some m)
    (hset : m.curSet = none) (hr : s.createCpFile s.curType name e = some (s', f)) :
    Replaced H name f s s' := by
  obtain ⟨⟨s₁, u⟩, ho, hr⟩ := bind_eq_some_iff.mp hr
  obtain ⟨hc, hcps⟩ := onMedia_frame ho
  have hidle (nm : Name) (id : Nat) : ¬ (nm ≠ name ∧ s.Writes nm id) := by
    intro hid
    obtain ⟨set, hcs, -⟩ := ((h.owned.media s.curType m hm).logs rfl nm id hid).place
    rw [hset] at hcs
    cases hcs
  have h₁ : WritingBut H name { s₁ with nextId := s.nextId + 1 } := by
    refine ⟨by dsimp only; rw [hcps]; exact h.names, ?_⟩
    rw [show ({ s₁ with nextId := s.nextId + 1 } : StorageManager).Writes = s.Writes from
      writes_congr hcps]
    refine h.owned.onMediaIdle hidle ho ?_ (Nat.le_succ _)
    intro m m' set nm id hg hp
    cases hg
    exact MediaStorage.createCpSet_place hp
  have hn : ({ s₁ with nextId := s.nextId + 1 } : StorageManager).cps.map CpStorage.name =
      s.cps.map CpStorage.name := by
    rw [hcps]
  rw [← hc] at hr
  obtain ⟨k, -, hr⟩ := bind_eq_some_iff.mp hr
  split at hr
  · cases hr
    refine ⟨h₁, hn, ?_⟩
    intro id₀ hf
    cases hf
  have h₂ : Replaced H name f { s₁ with nextId := s.nextId + 1 } s' := by
    refine h₁.inCurSet (fun n set => CpSetDirectory.newLogFile_opens n name e.file set) ?_ hr
    intro id₀ hf n set hb
    exact CpSetDirectory.newLogFile_logs (hb.trans hf)
  exact ⟨h₂.but, h₂.names.trans hn, h₂.file⟩

theorem WritingBut.recreateLogFile (h : WritingBut H name s)
    (hr : s.recreateLogFile s.curType name e = some (s', r)) :
    Replaced H name (r.map Prod.fst) s s' := by
  obtain ⟨⟨s₁, b⟩, hc, hr⟩ := bind_eq_some_iff.mp hr
  obtain ⟨h₁, hcur, hn⟩ := h.checkDirs hc
  rw [← hcur] at hr
  split at hr
  · cases hr
    refine ⟨h₁, hn, ?_⟩
    intro id₀ hf
    cases hf
  obtain ⟨m, hm, hr⟩ := bind_eq_some_iff.mp hr
  split at hr
  · rename_i hset
    obtain ⟨⟨s₂, f⟩, hf, he⟩ := map_eq_some_iff.mp hr
    cases he
    have h₂ := h₁.createCpFile hm hset hf
    refine ⟨h₂.but, h₂.names.trans hn, ?_⟩
    intro id₀ hid
    rw [Option.map_map] at hid
    obtain ⟨f', rfl, he⟩ := map_eq_some_iff.mp hid
    exact h₂.file id₀ (congrArg some he)
  · have h₂ : Replaced H name (r.map Prod.fst) s₁ s' := by
      refine h₁.inCurSet
        (fun n set => CpSetDirectory.recreateLogFile_opens n name e.cpDir e.file set) ?_ hr
      intro id₀ hid n set hb
      obtain ⟨⟨f, nd⟩, rfl, he⟩ := map_eq_some_iff.mp hid
      cases he
      exact CpSetDirectory.recreateLogFile_logs hb
    exact ⟨h₂.but, h₂.names.trans hn, h₂.file⟩

theorem Writing.replaced (h : Writing H s) (hi : (s.cps.map CpStorage.name)[i]? = some name)
    (hid : s.Writes name id)
    (hm : s.onMedia (s.mediaOf id) (MediaStorage.fileRemoved id) = some (s₁, u))
    (hc : s₁.recreateLogFile (s.mediaOf id) name e = some (s', f)) :
    Writing H (s'.setCurFile i (f.map Prod.fst)) := by
  obtain ⟨hcur, hcps⟩ := onMedia_frame hm
  have h₁ := h.fileRemoved hid hm
  rw [h.owned.mediaOf hid, ← hcur] at hc
  have h₂ := h₁.recreateLogFile hc
  rw [← hcps, ← h₂.names] at hi
  cases f with
  | none => exact h₂.but.setNone hi
  | some f => exact h₂.but.setSome hi (h₂.file f.1 rfl)

theorem Writing.replaceFile (h : Writing H s) (hi : (s.cps.map CpStorage.name)[i]? = some name)
    (hid : s.Writes name id) (hr : s.replaceFile i id name e = some (s', b)) : Writing H s' := by
  obtain ⟨⟨s₁, u⟩, hm, hr⟩ := bind_eq_some_iff.mp hr
  obtain ⟨⟨s₂, f⟩, hc, hr⟩ := bind_eq_some_iff.mp hr
  have h₂ := h.replaced hi hid hm hc
  cases f with
  | none =>
    cases hr
    exact h₂
  | some f =>
    obtain ⟨s₃, hl, he⟩ := map_eq_some_iff.mp hr
    cases he
    exact writing_kept.newLog h₂ hl

theorem writes_of_getElem? {i : Nat} (hc : s.cps[i]? = some c)
    (hf : c.curFile = some id) : s.Writes c.name id :=
  ⟨c, mem_of_getElem? hc, rfl, hf⟩

theorem names_getElem? {i : Nat} (hc : s.cps[i]? = some c) :
    (s.cps.map CpStorage.name)[i]? = some c.name := by
  rw [getElem?_map, hc]
  rfl

theorem Writing.stopCp (h : Writing H s) (i : Nat) : Writing H (s.stopCp i) := by
  rw [StorageManager.stopCp]
  split
  · rename_i c hc
    have h₁ : Writing H (s.closeCurFile c) :=
      h.of_cps (closeCurFile_frame s c).2 (owned_closing.closeCurFile h.owned c)
    refine (h₁.but c.name).setNone ?_
    rw [(closeCurFile_frame s c).2]
    exact names_getElem? hc
  · exact h

theorem Writing.not_writes {i : Nat} (h : Writing H s)
    (hc : s.cps[i]? = some c) (hf : c.curFile = none) (id : Nat) : ¬ s.Writes c.name id := by
  rintro ⟨c', hc', hn, hf'⟩
  obtain ⟨j, hj⟩ := mem_iff_getElem?.mp hc'
  have hi := names_getElem? hc
  obtain ⟨hlt, -⟩ := List.getElem?_eq_some_iff.mp hi
  have hij := (getElem?_inj hlt h.names).mp
    (hi.trans ((names_getElem? hj).trans (congrArg some hn)).symm)
  subst hij
  cases hc.symm.trans hj
  rw [hf] at hf'
  cases hf'

theorem Writing.prepare (h : Writing H s) (hr : s.prepare i e = some (s', b)) : Writing H s' := by
  have h₁ := h.checkMediaChange e.media
  rw [StorageManager.prepare] at hr
  generalize s.checkMediaChange e.media = r at h₁ hr
  have h₂ : Writing H (if r.2 then r.1.stopCp i else r.1) := by
    split
    · exact h₁.stopCp i
    · exact h₁
  generalize (if r.2 then r.1.stopCp i else r.1) = s₁ at h₂ hr
  obtain ⟨c, hc, hr⟩ := bind_eq_some_iff.mp hr
  split at hr
  · rename_i hf
    exact h₂.openFile (names_getElem? hc) hr (h₂.not_writes hc hf)
  rename_i id hf
  split at hr
  · split at hr
    · cases hr
    · cases hr
      exact h₂
  · exact h₂.replaceFile (names_getElem? hc) (writes_of_getElem? hc hf) hr

/-- A log file that is too large is closed and its successor is the new current log. -/
theorem nextLogFile_spec {d d' : CpDirectory} (h : (d.closeLogFile.map fun d =>
      let r := (d.rotate renamed).createLogFile n now opened
      (r.1, SizeCall.none, r.2)) = some (d', c, f)) :
    d'.name = d.name ∧ (∀ id, d'.has id = true ↔ d.has id = true ∨ f = some id) ∧
      ∀ id, f = some id → id = n ∧ d'.Logs n := by
  obtain ⟨d₁, hcl, he⟩ := map_eq_some_iff.mp h
  cases he
  obtain ⟨hname, hids⟩ := CpDirectory.closeLogFile_ids hcl
  refine ⟨(CpDirectory.createLogFile_moves n now opened _).name.trans hname, ?_,
    fun id hid => CpDirectory.createLogFile_logs hid⟩
  intro id
  rw [CpDirectory.has_iff, CpDirectory.has_iff (d := d), ← hids,
    ← CpDirectory.rotate_ids renamed d₁]
  cases now with
  | none => exact ⟨.inl, fun h => h.elim (fun h => h) fun h => by cases h⟩
  | some lt =>
    cases opened with
    | false => exact ⟨.inl, fun h => h.elim (fun h => h) fun h => by cases h⟩
    | true =>
      show id ∈ ((d₁.rotate renamed).logFiles ++ [_]).map LogFile.id ↔ _ ∨ some n = some id
      rw [map_append, mem_append, map_singleton, mem_singleton, some_inj, eq_comm (a := n)]
      rfl

theorem Writing.changeFile {c : CpStorage} (h : Writing H s) (hc : s.cps[i]? = some c)
    (hid : c.curFile = some id) (hr : s.changeFile i id size e = some s') : Writing H s' := by
  obtain ⟨ms, -, hr⟩ := bind_eq_some_iff.mp hr
  split at hr
  · obtain ⟨⟨s₁, f⟩, hd, hr⟩ := bind_eq_some_iff.mp hr
    obtain ⟨f, rfl, rfl⟩ := map_eq_some_iff.mp hr
    have hw := writes_of_getElem? hc hid
    rw [StorageManager.onDir, h.owned.mediaOf hw] at hd
    have hcps := (onMedia_frame hd).2
    have hplace {m : MediaStorage} (hm : s.media s.curType = some m) {set : Nat} {nm : Name}
        (hp : m.Place set nm id) : m.curSet = some set ∧ nm = c.name :=
      ((h.owned.media s.curType m hm).only c.name id hw set nm hp).2
    have hf : f = s.nextId := by
      obtain ⟨m, m', -, hg, -⟩ := onMedia_spec hd
      obtain ⟨pre, set, post, set', c', -, -, -, ho, -⟩ := MediaStorage.onDir_spec hg
      obtain ⟨⟨l, c₁, b⟩, hl, he⟩ := map_eq_some_iff.mp ho
      cases he
      obtain ⟨-, d, -, d', -, -, -, hgd, -⟩ := onFirst_eq_some hl
      exact ((nextLogFile_spec hgd).2.2 f rfl).1
    subst hf
    have ho : Owned H (fun nm id => (nm ≠ c.name ∧ s.Writes nm id) ∨ nm = c.name ∧ id = s.nextId)
        { s₁ with nextId := s.nextId + 1 } := by
      refine (h.but c.name).owned.adds (fun id hid => hid.1 rfl) hd fun m m' hm hg => ⟨?_, ?_⟩
      · refine MediaStorage.onDir_moves (fun d d' c' b set hp hgd => ?_) hg
        obtain ⟨hset, hn⟩ := hplace hm hp
        obtain ⟨hname, hhas, hlog⟩ := nextLogFile_spec hgd
        refine ⟨hname, fun id hid => ?_, fun id hq => absurd hn hq⟩
        exact ((hhas id).mp hid).imp_right fun he => ⟨hset, hn, (hlog id he).1⟩
      refine MediaStorage.onDir_logs (fun d d' c' set hp hgd => ?_) hg
      obtain ⟨hset, hn⟩ := hplace hm hp
      obtain ⟨hname, -, hlog⟩ := nextLogFile_spec hgd
      exact ⟨hset, hname.trans hn, (hlog _ rfl).2⟩
    have hwr : ({ s₁ with nextId := s.nextId + 1 } : StorageManager).Writes = s.Writes :=
      writes_congr hcps
    have hb : WritingBut H c.name { s₁ with nextId := s.nextId + 1 } := by
      refine ⟨by dsimp only; rw [hcps]; exact h.names, ?_⟩
      rw [hwr]
      exact ho.anti fun _ _ hid => .inl hid
    rw [← hwr] at ho
    refine hb.setSome ?_ ho
    rw [hcps]
    exact names_getElem? hc
  · cases hr
    exact h

theorem writing_roomy : Roomy (Writing H) where
  toKept := writing_kept
  checkQuota := fun h ho => h.onMediaSame ho fun _ _ _ hg => MediaStorage.checkQuota_moves hg
  processDiskFull := fun h ho =>
    h.onMediaSame ho fun _ _ _ hg => MediaStorage.processDiskFull_moves hg

def writeFile (id len : Nat) (k : Kernel) (s : StorageManager) :
    Option (StorageManager × Nat × Int) :=
  s.onFile id fun f => (f.write len k).map fun w => (w.1, w.2.1, w.1.size, w.2.2)

theorem Writing.writeFile (h : Writing H s) (hr : s.writeFile id len k = some (s', r)) :
    Writing H s' :=
  h.onFile ((LogFile.write_call len k).map fun f n => (f.size, n)).same hr

theorem Writing.write (h : Writing H s) (hr : s.write i len e = some (s', n)) : Writing H s' := by
  refine writing_roomy.write (fun _ _ hp => h.prepare hp) ?_ hr
  rintro w id size t hw ⟨c, hc, hf⟩ hch
  exact hw.changeFile hc hf hch

end StorageManager

end SprdVendor.SlogModem
