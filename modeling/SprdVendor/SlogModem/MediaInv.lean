import SprdVendor.SlogModem.Exact
import SprdVendor.SlogModem.Storage

namespace SprdVendor.SlogModem
open Lib Option

def CpDirectory.SameId (g : LogFile → Option (LogFile × SizeCall × β)) : Prop :=
  ∀ f f' c b, g f = some (f', c, b) → f'.id = f.id

structure FileCall (g : LogFile → Option (LogFile × SizeCall × β)) : Prop where
  told : Told LogFile.size (fun _ => True) g
  same : CpDirectory.SameId g

namespace LogFile

theorem close_call : FileCall fun f => some (f.close, .none, ()) := by
  refine ⟨told_of_size size_close, ?_⟩
  intro f f' c b h
  cases h
  rw [LogFile.close]
  split <;> rfl

theorem flush_call : FileCall fun f => some (f.flush, .none, ()) := by
  refine ⟨told_of_size size_flush, ?_⟩
  intro f f' c b h
  cases h
  rw [LogFile.flush]
  split <;> rfl

theorem write_call (len : Nat) (k : Kernel) : FileCall fun f : LogFile => f.write len k := by
  refine ⟨write_told len k, ?_⟩
  intro f f' c n h
  dsimp only [LogFile.write] at h
  split at h
  · cases h
    rfl
  split at h
  · cases h
    rfl
  split at h
  · obtain ⟨r, -, he⟩ := map_eq_some_iff.mp h
    split at he
    · cases he
      rfl
    split at he <;> cases he <;> rfl
  · obtain ⟨r, -, he⟩ := map_eq_some_iff.mp h
    split at he <;> cases he <;> rfl

theorem copy_call (src : Option (List (Int × Int))) : FileCall fun f : LogFile => f.copy src := by
  refine ⟨copy_told src, ?_⟩
  intro f f' c n h
  dsimp only at h
  unfold LogFile.copy at h
  split at h
  · cases h
    rfl
  cases src with
  | none =>
    cases h
    rfl
  | some calls =>
    obtain ⟨r, -, he⟩ := map_eq_some_iff.mp h
    cases he
    rfl

theorem discard_call : FileCall fun f : LogFile => some f.discard := by
  refine ⟨discard_told, ?_⟩
  intro f f' c n h
  have h := Option.some.inj h
  rw [LogFile.discard] at h
  split at h <;> cases h <;> rfl

end LogFile

theorem FileCall.map {g : LogFile → Option (LogFile × SizeCall × β)} (hg : FileCall g)
    (k : LogFile → β → γ) :
    FileCall fun f => (g f).map fun w => (w.1, w.2.1, k w.1 w.2.2) := by
  refine ⟨?_, ?_⟩
  · intro f f' c b _ hf
    obtain ⟨⟨f₁, c₁, b₁⟩, hfw, he⟩ := map_eq_some_iff.mp hf
    cases he
    exact hg.told f f₁ c₁ b₁ trivial hfw
  intro f f' c b hf
  obtain ⟨⟨f₁, c₁, b₁⟩, hfw, he⟩ := map_eq_some_iff.mp hf
  cases he
  exact hg.same f f₁ c₁ b₁ hfw

def CpDirectory.nextLogFile (n : Nat) (renamed : Nat → Bool) (now : Option FileTime)
    (opened : Bool) (d : CpDirectory) : Option (CpDirectory × SizeCall × Option Nat) :=
  d.closeLogFile.map fun d =>
    let r := (d.rotate renamed).createLogFile n now opened
    (r.1, .none, r.2)

structure MediaInv (I : Nat → MediaStorage → Prop) : Prop where
  mono : ∀ {n k m}, I n m → n ≤ k → I k m
  init : ∀ {n k m m' l}, I n m → m.init n l = some (m', k) → I k m'
  createCpSet : ∀ {n m} now mkdir, I n m → I (n + 1) (m.createCpSet n now mkdir)
  onFile : ∀ {n m m' id} {β : Type} {g : LogFile → Option (LogFile × SizeCall × β)} {b},
    FileCall g → I n m → m.onDir id (CpDirectory.onFile id g) = some (m', b) → I n m'
  newLogFile : ∀ {n m m' name e f}, I n m →
    m.onCurSet (CpSetDirectory.newLogFile n name e) = some (m', f) → I (n + 1) m'
  createFile : ∀ {n m m' name fname t mkdir opened f}, I n m →
    m.onCurSet (CpSetDirectory.createFile n name fname t mkdir opened) = some (m', f) →
    I (n + 1) m'
  nextLogFile : ∀ {n m m' id renamed now opened f}, I n m →
    m.onDir id (CpDirectory.nextLogFile n renamed now opened) = some (m', f) → I (n + 1) m'
  clear : ∀ {n m}, I n m → I n m.clear
  limits : ∀ {n m} limit fileLimit overwrite, I n m →
    I n { m with limit := limit, fileLimit := fileLimit, overwrite := overwrite }

namespace StorageManager

variable {s s' : StorageManager} {t : MediaType} {id : Nat} {I : Nat → MediaStorage → Prop}

theorem media_congr (hd : s'.dataPart = s.dataPart) (hc : s'.sdCard = s.sdCard) :
    s'.media = s.media := by
  funext t
  cases t with
  | none => rfl
  | internal => exact congrArg some hd
  | sdCard => exact congrArg some hc

theorem onMedia_spec (h : s.onMedia t g = some (s', b)) :
    ∃ m m', s.media t = some m ∧ g m = some (m', b) ∧ s'.media t = some m' ∧
      (∀ t', t' ≠ t → s'.media t' = s.media t') ∧ s'.nextId = s.nextId := by
  cases t with
  | none => cases h
  | internal =>
    obtain ⟨⟨m', b'⟩, hg, he⟩ := map_eq_some_iff.mp h
    cases he
    refine ⟨s.dataPart, m', rfl, hg, rfl, ?_, rfl⟩
    intro t' ht
    cases t' <;> first | rfl | exact absurd rfl ht
  | sdCard =>
    obtain ⟨⟨m', b'⟩, hg, he⟩ := map_eq_some_iff.mp h
    cases he
    refine ⟨s.sdCard, m', rfl, hg, rfl, ?_, rfl⟩
    intro t' ht
    cases t' <;> first | rfl | exact absurd rfl ht

theorem onMedia_all {P : MediaStorage → Prop} (ho : s.onMedia t g = some (s', b))
    (hother : ∀ t' m, t' ≠ t → s.media t' = some m → P m)
    (hg : ∀ m m', s.media t = some m → g m = some (m', b) → P m') :
    ∀ t' m, s'.media t' = some m → P m := by
  obtain ⟨m, m', hm, hgm, hm', hsame, -⟩ := onMedia_spec ho
  intro t' k hk
  by_cases ht : t' = t
  · subst ht
    cases hm'.symm.trans hk
    exact hg m m' hm hgm
  · rw [hsame t' ht] at hk
    exact hother t' k ht hk

theorem onMedia_nextId (ho : s.onMedia t g = some (s', b)) : s'.nextId = s.nextId := by
  obtain ⟨m, m', -, -, -, -, hn⟩ := onMedia_spec ho
  exact hn

def All (I : Nat → MediaStorage → Prop) (s : StorageManager) : Prop :=
  ∀ t m, s.media t = some m → I s.nextId m

theorem all_iff : s.All I ↔ I s.nextId s.dataPart ∧ I s.nextId s.sdCard := by
  constructor
  · intro h
    exact ⟨h .internal s.dataPart rfl, h .sdCard s.sdCard rfl⟩
  rintro ⟨hd, hc⟩ t m hm
  cases t with
  | none => cases hm
  | internal =>
    cases hm
    exact hd
  | sdCard =>
    cases hm
    exact hc

theorem All.onMedia (h : s.All I) (ho : s.onMedia t g = some (s', b))
    (hg : ∀ m m', s.media t = some m → I s.nextId m → g m = some (m', b) → I s.nextId m') :
    s'.All I := by
  rw [All, onMedia_nextId ho]
  exact onMedia_all ho (fun t' m _ hm => h t' m hm) fun m m' hm hgm => hg m m' hm (h t m hm) hgm

def Closable (P : MediaStorage → Prop) : Prop :=
  ∀ id m m' u, P m →
    m.onDir id (CpDirectory.onFile id fun f => some (f.close, .none, ())) = some (m', u) → P m'

def Closing (J : StorageManager → Prop) : Prop :=
  ∀ id s s' u, J s → s.onFile id (fun f => some (f.close, .none, ())) = some (s', u) → J s'

theorem Closing.closeFile (hJ : Closing J) (h : J s) (id : Nat) : J (s.closeFile id) := by
  rw [StorageManager.closeFile]
  split
  · rename_i ho
    exact hJ id s _ _ h ho
  · exact h

theorem Closing.closeCurFile (hJ : Closing J) (h : J s) (c : CpStorage) :
    J (s.closeCurFile c) := by
  rw [StorageManager.closeCurFile]
  split
  · exact hJ.closeFile h _
  · exact h

theorem Closing.foldl (hJ : Closing J) (h : J s) (cs : List CpStorage) :
    J (cs.foldl StorageManager.closeCurFile s) := by
  induction cs generalizing s with
  | nil => exact h
  | cons c cs ih => exact ih (hJ.closeCurFile h c)

theorem Closable.closing (hP : Closable P) (t : MediaType) (n : Nat) :
    Closing fun s => (∀ m, s.media t = some m → P m) ∧ s.nextId = n := by
  rintro id s s' u ⟨h, hn⟩ ho
  obtain ⟨m, m', hm, hgm, hm', hother, hn'⟩ := onMedia_spec ho
  refine ⟨?_, hn'.trans hn⟩
  intro k hk
  by_cases ht : t = s.mediaOf id
  · subst ht
    cases hm'.symm.trans hk
    exact hP id m m' u (h m hm) hgm
  · rw [hother t ht] at hk
    exact h k hk

theorem stopAllCps_closes (hP : Closable P) (h : ∀ m, s.media t = some m → P m) :
    (∀ m, s.stopAllCps.media t = some m → P m) ∧ s.stopAllCps.nextId = s.nextId := by
  obtain ⟨h₁, hn⟩ := (hP.closing t s.nextId).foldl ⟨h, rfl⟩ s.cps
  refine ⟨?_, hn⟩
  intro m hm
  apply h₁ m
  cases t <;> exact hm

structure Kept (J : StorageManager → Prop) : Prop where
  onFile : ∀ {s s' id} {β : Type} {g : LogFile → Option (LogFile × SizeCall × β)} {b},
    J s → FileCall g → s.onFile id g = some (s', b) → J s'
  flag : ∀ {s} i stop, J s → J (s.onCp i fun c => { c with shallStop := stop })
  createFile : ∀ {s s' name fname t e f}, J s → s.createFile name fname t e = some (s', f) → J s'

namespace Kept

theorem closing (hJ : Kept J) : Closing J :=
  fun _ _ _ _ h ho => hJ.onFile h LogFile.close_call ho

theorem saveVersion (hJ : Kept J) (h : J s) (hr : s.saveVersion name e = some s') : J s' := by
  rw [StorageManager.saveVersion] at hr
  split at hr
  · cases hr
    exact h
  obtain ⟨⟨s₁, f⟩, hc, hr⟩ := bind_eq_some_iff.mp hr
  have h₁ := hJ.createFile h hc
  cases f with
  | none =>
    cases hr
    exact h₁
  | some id =>
    obtain ⟨⟨s₂, n⟩, hw, rfl⟩ := map_eq_some_iff.mp hr
    exact hJ.closing.closeFile (hJ.onFile h₁ (LogFile.write_call _ _) hw) id

theorem saveTimestamp (hJ : Kept J) (h : J s) (hr : s.saveTimestamp f e = some s') : J s' := by
  rw [StorageManager.saveTimestamp] at hr
  split at hr
  · cases hr
    exact h
  · obtain ⟨id, -, hr⟩ := bind_eq_some_iff.mp hr
    obtain ⟨⟨s₁, n⟩, hw, rfl⟩ := map_eq_some_iff.mp hr
    exact hJ.onFile h (LogFile.write_call _ _) hw

theorem newLog (hJ : Kept J) (h : J s) (hr : s.newLog i newDir e = some s') : J s' := by
  obtain ⟨c, -, hr⟩ := bind_eq_some_iff.mp hr
  obtain ⟨s₁, hv, hr⟩ := bind_eq_some_iff.mp hr
  obtain ⟨c', -, hr⟩ := bind_eq_some_iff.mp hr
  have h₁ : J s₁ := by
    split at hv
    · exact hJ.saveVersion h hv
    · cases hv
      exact h
  exact hJ.saveTimestamp h₁ hr

theorem stopIfFull (hJ : Kept J) (h : J s) (hr : s.stopIfFull i room = some s') : J s' := by
  rw [StorageManager.stopIfFull] at hr
  split at hr
  · cases hr
    exact h
  obtain ⟨c, -, hr⟩ := bind_eq_some_iff.mp hr
  obtain ⟨id, -, hr⟩ := bind_eq_some_iff.mp hr
  obtain ⟨⟨s₁, u⟩, ho, rfl⟩ := map_eq_some_iff.mp hr
  exact hJ.onFile (hJ.flag i true h) LogFile.flush_call ho

end Kept

theorem onMedia_frame (h : s.onMedia t g = some (s', b)) :
    s'.curType = s.curType ∧ s'.cps = s.cps := by
  cases t with
  | none => cases h
  | _ =>
    obtain ⟨r, -, he⟩ := map_eq_some_iff.mp h
    cases he
    exact ⟨rfl, rfl⟩

def SameFile (i id : Nat) (s : StorageManager) : Prop :=
  ∃ c, s.cps[i]? = some c ∧ c.curFile = some id

theorem SameFile.of_cps (h : SameFile i id s) (hc : s'.cps = s.cps) : SameFile i id s' := by
  rw [SameFile, hc]
  exact h

theorem SameFile.makeRoom (h : SameFile i id s) (hr : s.makeRoom i c e = some (s', b)) :
    SameFile i id s' := by
  rw [StorageManager.makeRoom] at hr
  split at hr
  · obtain ⟨⟨s₁, room⟩, hq, he⟩ := map_eq_some_iff.mp hr
    cases he
    have h₁ := h.of_cps (onMedia_frame hq).2
    split
    · obtain ⟨c₁, hc₁, hf⟩ := h₁
      refine ⟨{ c₁ with shallStop := false }, ?_, hf⟩
      rw [onCp, List.getElem?_modify_eq, hc₁]
      rfl
    · exact h₁
  · cases hr
    exact h

structure Roomy (J : StorageManager → Prop) : Prop extends Kept J where
  checkQuota : ∀ {s s' unlink renamed b}, J s →
    s.onMedia s.curType (MediaStorage.checkQuota unlink renamed) = some (s', b) → J s'
  processDiskFull : ∀ {s s' unlink renamed b}, J s →
    s.onMedia s.curType (MediaStorage.processDiskFull unlink renamed) = some (s', b) → J s'

namespace Roomy

theorem makeRoom (hJ : Roomy J) (h : J s) (hr : s.makeRoom i c e = some (s', b)) : J s' := by
  rw [StorageManager.makeRoom] at hr
  split at hr
  · obtain ⟨⟨s₁, room⟩, hq, he⟩ := map_eq_some_iff.mp hr
    cases he
    have h₁ := hJ.checkQuota h hq
    split
    · exact hJ.flag i false h₁
    · exact h₁
  · cases hr
    exact h

theorem afterWrite (hJ : Roomy J) (h : J s) (hchange : ∀ t, s.changeFile i id size e = some t → J t)
    (hr : s.afterWrite i id size n e = some s') : J s' := by
  rw [StorageManager.afterWrite] at hr
  split at hr
  · obtain ⟨s₁, hc, hr⟩ := bind_eq_some_iff.mp hr
    obtain ⟨⟨s₂, room⟩, hq, hr⟩ := bind_eq_some_iff.mp hr
    exact hJ.stopIfFull (hJ.checkQuota (hchange s₁ hc) hq) hr
  split at hr
  · obtain ⟨⟨s₂, room⟩, hq, hr⟩ := bind_eq_some_iff.mp hr
    exact hJ.stopIfFull (hJ.processDiskFull h hq) hr
  · cases hr
    exact h

theorem writeCurFile (hJ : Roomy J) (h : J s)
    (hchange : ∀ w id size t, J w → w.SameFile i id → w.changeFile i id size e = some t → J t)
    (hr : s.writeCurFile i len e = some (s', n)) : J s' := by
  obtain ⟨c, hc, hr⟩ := bind_eq_some_iff.mp hr
  obtain ⟨id, hf, hr⟩ := bind_eq_some_iff.mp hr
  obtain ⟨⟨s₁, room⟩, hm, hr⟩ := bind_eq_some_iff.mp hr
  have h₁ := hJ.makeRoom h hm
  split at hr
  · cases hr
    exact h₁
  obtain ⟨⟨s₂, size, n'⟩, hw, hr⟩ := bind_eq_some_iff.mp hr
  obtain ⟨s₃, ha, he⟩ := map_eq_some_iff.mp hr
  cases he
  have hcall := (LogFile.write_call len e.kernel).map fun f n => (f.size, n)
  have h₂ : J s₂ := hJ.onFile h₁ hcall hw
  have hid : SameFile i id s₂ := (SameFile.makeRoom ⟨c, hc, hf⟩ hm).of_cps (onMedia_frame hw).2
  exact hJ.afterWrite h₂ (fun t ht => hchange s₂ id size t h₂ hid ht) ha

theorem write (hJ : Roomy J) (hprepare : ∀ p b, s.prepare i e = some (p, b) → J p)
    (hchange : ∀ w id size t, J w → w.SameFile i id → w.changeFile i id size e = some t → J t)
    (hr : s.write i len e = some (s', n)) : J s' := by
  obtain ⟨⟨s₁, b⟩, hp, hr⟩ := bind_eq_some_iff.mp hr
  have h₁ := hprepare s₁ b hp
  cases b with
  | false =>
    cases hr
    exact h₁
  | true => exact hJ.writeCurFile h₁ hchange hr

end Roomy

theorem stopCp_curFile (hc : (s.stopCp i).cps[i]? = some c) : c.curFile = none := by
  rw [StorageManager.stopCp] at hc
  split at hc
  · rw [setCurFile, StorageManager.onCp, List.getElem?_modify_eq] at hc
    obtain ⟨c', -, rfl⟩ := map_eq_some_iff.mp hc
    rfl
  · rename_i hn
    rw [hn] at hc
    cases hc

theorem checkMediaChange_unchanged (h : (s.checkMediaChange e).2 = false) :
    (s.checkMediaChange e).1 = s := by
  rw [StorageManager.checkMediaChange] at h ⊢
  split at h
  · rename_i hsd
    rw [if_pos hsd]
    split at h
    · rename_i ht
      rw [if_pos ht]
    · dsimp only at h
      split at h <;> cases h
  · rename_i hsd
    rw [if_neg hsd]
    split at h
    · rename_i ht
      rw [if_pos ht]
    · cases h

end StorageManager

namespace MediaInv

open StorageManager

variable {s s' : StorageManager} {t : MediaType} {I : Nat → MediaStorage → Prop}

theorem of_eq (hI : MediaInv I) (h : s.All I) (hm : s'.media = s.media)
    (hn : s.nextId ≤ s'.nextId) : s'.All I := by
  intro t m ht
  rw [hm] at ht
  exact hI.mono (h t m ht) hn

theorem onCp (hI : MediaInv I) (h : s.All I) (i : Nat) (g : CpStorage → CpStorage) :
    (s.onCp i g).All I :=
  hI.of_eq h (media_congr rfl rfl) (le_refl _)

theorem onFiles {β : Type} {b : β} {g : LogFile → Option (LogFile × SizeCall × β)} {id : Nat}
    (hI : MediaInv I) (h : s.All I) (hg : FileCall g) (ho : s.onFile id g = some (s', b)) : s'.All I :=
  h.onMedia ho fun _ _ _ hm hgm => hI.onFile hg hm hgm

theorem closable (hI : MediaInv I) (n : Nat) : Closable (I n) :=
  fun _ _ _ _ h ho => hI.onFile LogFile.close_call h ho

theorem closing (hI : MediaInv I) : Closing (All I) :=
  fun _ _ _ _ h ho => hI.onFiles h LogFile.close_call ho

theorem stopAllCps (hI : MediaInv I) (h : s.All I) : s.stopAllCps.All I :=
  hI.of_eq (hI.closing.foldl h s.cps) (media_congr rfl rfl) (le_refl _)

theorem stopCp (hI : MediaInv I) (h : s.All I) (i : Nat) : (s.stopCp i).All I := by
  rw [StorageManager.stopCp]
  split
  · exact hI.onCp (hI.closing.closeCurFile h _) i _
  · exact h

theorem initSdCard (hI : MediaInv I) (h : s.All I) (hi : s.initSdCard e = some s') :
    s'.All I := by
  rw [StorageManager.initSdCard] at hi
  split at hi
  · cases hi
    exact h
  · obtain ⟨⟨m, k⟩, hm, rfl⟩ := map_eq_some_iff.mp hi
    obtain ⟨hd, hc⟩ := all_iff.mp h
    exact all_iff.mpr ⟨hI.mono hd (MediaStorage.init_le hm), hI.init hc hm⟩

theorem changeTo (hI : MediaInv I) (h : s.All I) (t : MediaType) (e : MediaEnv) :
    (s.changeTo t e).All I := by
  obtain ⟨hd, hc⟩ := all_iff.mp h
  cases t with
  | none => exact h
  | internal =>
    exact all_iff.mpr ⟨hI.createCpSet e.now e.mkdir hd, hI.mono hc (Nat.le_succ _)⟩
  | sdCard =>
    exact all_iff.mpr ⟨hI.mono hd (Nat.le_succ _), hI.createCpSet e.now e.mkdir hc⟩

theorem checkMediaChange (hI : MediaInv I) (h : s.All I) (e : MediaEnv) :
    (s.checkMediaChange e).1.All I := by
  have hstop (t : MediaType) : (if s.curType = t then s.stopAllCps else s).All I := by
    split
    · exact hI.stopAllCps h
    · exact h
  rw [StorageManager.checkMediaChange]
  split
  · split
    · exact h
    dsimp only
    split
    · exact hstop .internal
    · rename_i hi
      exact hI.changeTo (hI.initSdCard (hstop .internal) hi) .sdCard e
  · split
    · exact h
    · exact hI.changeTo (hstop .sdCard) .internal e

theorem inCurSet (hI : MediaInv I) (h : s.All I) (ho : s.inCurSet t g = some (s', b))
    (hg : ∀ m m', s.media t = some m → I s.nextId m → m.onCurSet (g s.nextId) = some (m', b) →
      I (s.nextId + 1) m') : s'.All I := by
  obtain ⟨⟨s₁, b'⟩, hm, he⟩ := map_eq_some_iff.mp ho
  cases he
  intro t' m' hm'
  refine onMedia_all hm (fun t' m _ hm => hI.mono (h t' m hm) (Nat.le_succ _))
    (fun m m' hmt hcs => hg m m' hmt (h t m hmt) hcs) t' m' ?_
  cases t' <;> exact hm'

theorem requestFile (hI : MediaInv I) (h : s.All I)
    (hr : s.requestFile name e = some (s', f)) : s'.All I := by
  rw [StorageManager.requestFile] at hr
  split at hr
  · cases hr
    exact h
  · exact hI.inCurSet h hr fun _ _ _ hm hcs => hI.newLogFile hm hcs

theorem createFiles (hI : MediaInv I) (h : s.All I)
    (hr : s.createFile name fname lt e = some (s', f)) : s'.All I := by
  have h₁ := hI.checkMediaChange h e.media
  rw [StorageManager.createFile] at hr
  split at hr
  · cases hr
    exact h₁
  · exact hI.inCurSet h₁ hr fun _ _ _ hm hcs => hI.createFile hm hcs

theorem kept (hI : MediaInv I) : Kept (All I) where
  onFile := hI.onFiles
  flag := fun i _ h => hI.onCp h i _
  createFile := hI.createFiles

theorem openFile (hI : MediaInv I) (h : s.All I) (hr : s.openFile i name e = some (s', b)) :
    s'.All I := by
  obtain ⟨⟨s₁, f⟩, hc, hr⟩ := bind_eq_some_iff.mp hr
  have h₁ := hI.requestFile h hc
  cases f with
  | none =>
    cases hr
    exact h₁
  | some f =>
    obtain ⟨s₂, hl, he⟩ := map_eq_some_iff.mp hr
    cases he
    exact hI.kept.newLog (hI.onCp h₁ i _) hl

theorem createCpFile (hI : MediaInv I) (h : s.All I)
    (hr : s.createCpFile t name e = some (s', f)) : s'.All I := by
  obtain ⟨⟨s₁, u⟩, hm, hr⟩ := bind_eq_some_iff.mp hr
  have h₁ : ({ s₁ with nextId := s.nextId + 1 } : StorageManager).All I := by
    intro t' k hk
    refine onMedia_all hm (fun t' m _ hm => hI.mono (h t' m hm) (Nat.le_succ _)) ?_ t' k ?_
    · intro m m' hmt hg
      cases hg
      exact hI.createCpSet e.setNow e.mkdirSet (h t m hmt)
    · cases t' <;> exact hk
  obtain ⟨k, -, hr⟩ := bind_eq_some_iff.mp hr
  split at hr
  · cases hr
    exact h₁
  · exact hI.inCurSet h₁ hr fun _ _ _ hm hcs => hI.newLogFile hm hcs

theorem changeFile {id : Nat} (hI : MediaInv I) (h : s.All I)
    (hr : s.changeFile i id size e = some s') : s'.All I := by
  obtain ⟨ms, -, hr⟩ := bind_eq_some_iff.mp hr
  split at hr
  · obtain ⟨⟨s₁, f⟩, hd, hr⟩ := bind_eq_some_iff.mp hr
    obtain ⟨id', -, rfl⟩ := map_eq_some_iff.mp hr
    have h₁ : ({ s₁ with nextId := s.nextId + 1 } : StorageManager).All I := by
      intro t' m' hm'
      refine onMedia_all hd (fun t' m _ hm => hI.mono (h t' m hm) (Nat.le_succ _)) ?_ t' m' ?_
      · exact fun m m' hmt hg => hI.nextLogFile (h _ m hmt) hg
      · cases t' <;> exact hm'
    exact hI.onCp h₁ i _
  · cases hr
    exact h

theorem step (hI : MediaInv I) (h : s.All I) (hr : s.step a = some s')
    (hwrite : ∀ i len e n, a = .write i len e → s.write i len e = some (s', n) → s'.All I)
    (hremove : ∀ id, a = .fileRemove id → s.onDir id (fun d =>
      let r := d.remove id
      some (r.1, r.2, ())) = some (s', ()) → s'.All I) : s'.All I := by
  obtain ⟨hd, hc⟩ := all_iff.mp h
  cases a with
  | write cp len e =>
    obtain ⟨⟨s₁, n⟩, hw, rfl⟩ := map_eq_some_iff.mp hr
    exact hwrite cp len e n rfl hw
  | createFile cp fname lt e =>
    obtain ⟨c, -, hr⟩ := bind_eq_some_iff.mp hr
    obtain ⟨⟨s₁, f⟩, hc, rfl⟩ := map_eq_some_iff.mp hr
    exact hI.createFiles h hc
  | fileWrite id len k =>
    obtain ⟨⟨s₁, n⟩, hw, rfl⟩ := map_eq_some_iff.mp hr
    exact hI.onFiles h (LogFile.write_call len k) hw
  | fileCopy id src =>
    obtain ⟨⟨s₁, n⟩, hw, rfl⟩ := map_eq_some_iff.mp hr
    exact hI.onFiles h (LogFile.copy_call src) hw
  | fileDiscard id =>
    obtain ⟨⟨s₁, n⟩, hw, rfl⟩ := map_eq_some_iff.mp hr
    exact hI.onFiles h LogFile.discard_call hw
  | fileClose id =>
    obtain ⟨⟨s₁, n⟩, hw, rfl⟩ := map_eq_some_iff.mp hr
    exact hI.onFiles h LogFile.close_call hw
  | fileRemove id =>
    obtain ⟨⟨s₁, u⟩, hw, rfl⟩ := map_eq_some_iff.mp hr
    exact hremove id rfl hw
  | createStorage name cb =>
    cases hr
    exact hI.of_eq h (media_congr rfl rfl) (le_refl _)
  | deleteStorage cp =>
    obtain ⟨c, -, rfl⟩ := map_eq_some_iff.mp hr
    exact hI.of_eq (hI.closing.closeCurFile h c) (media_congr rfl rfl) (le_refl _)
  | clear =>
    cases hr
    obtain ⟨hd, hc⟩ := all_iff.mp (hI.stopAllCps h)
    exact all_iff.mpr ⟨hI.clear hd, hI.clear hc⟩
  | setFileSizeLimit sz =>
    cases hr
    exact all_iff.mpr ⟨hI.limits _ sz _ hd, hI.limits _ sz _ hc⟩
  | setDataPartLimit sz =>
    cases hr
    exact all_iff.mpr ⟨hI.limits sz _ _ hd, hc⟩
  | setSdLimit sz =>
    cases hr
    exact all_iff.mpr ⟨hd, hI.limits sz _ _ hc⟩
  | setOverwrite ow =>
    cases hr
    exact all_iff.mpr ⟨hI.limits _ _ ow hd, hI.limits _ _ ow hc⟩

theorem inited (hI : MediaInv I) (hnew : ∀ n, I n .new)
    (h : StorageManager.init listing sd = some s) : s.All I := by
  obtain ⟨⟨d, n⟩, hd, h⟩ := bind_eq_some_iff.mp h
  have hdata := hI.init (hnew 0) hd
  cases sd with
  | none =>
    cases h
    exact all_iff.mpr ⟨hdata, hnew n⟩
  | some l =>
    obtain ⟨⟨c, k⟩, hc, rfl⟩ := map_eq_some_iff.mp h
    exact all_iff.mpr ⟨hI.mono hdata (MediaStorage.init_le hc), hI.init (hnew n) hc⟩

end MediaInv

end SprdVendor.SlogModem
