import SprdVendor.Lib.Greedy
import SprdVendor.SlogModem.Media

namespace SprdVendor.SlogModem
open Lib List

/-- A loop over files, directories or sets frees what is taken greedily from all the files of its
elements, and nothing else changes. -/
structure Frees (files : List LogFile) (sz : Nat) (left : List LogFile) (dec : Nat) : Prop where
  left : left = greedyRest LogFile.size sz files
  dec : dec = greedySum LogFile.size sz files

theorem trimFiles_frees (keep : LogFile → Bool) (sz : Nat) (l : List LogFile) :
    Frees (l.filter fun f => !keep f) sz
      ((trimFiles keep (fun _ => true) sz l).1.filter fun f => !keep f)
      (trimFiles keep (fun _ => true) sz l).2 ∧
    (trimFiles keep (fun _ => true) sz l).1.filter keep = l.filter keep := by
  induction l generalizing sz with
  | nil => exact ⟨⟨rfl, rfl⟩, rfl⟩
  | cons f l ih =>
    rw [trimFiles]
    cases hk : keep f with
    | true =>
      obtain ⟨⟨hl, hd⟩, hkeep⟩ := ih sz
      simp only [hk, if_true, filter_cons, Bool.not_true, Bool.false_eq_true, if_false]
      exact ⟨⟨hl, hd⟩, by rw [hkeep]⟩
    | false =>
      simp only [hk, Bool.false_eq_true, if_false, filter_cons, Bool.not_false, if_true,
        Bool.true_eq_false]
      by_cases hle : sz ≤ f.size
      · rw [if_pos hle]
        exact ⟨⟨(greedyRest_cons_le hle _).symm, (greedySum_cons_le hle _).symm⟩, rfl⟩
      rw [if_neg hle]
      obtain ⟨⟨hl, hd⟩, hkeep⟩ := ih (sz - f.size)
      refine ⟨⟨?_, ?_⟩, hkeep⟩
      · rw [greedyRest_cons_lt hle]
        exact hl
      · rw [greedySum_cons_lt hle, ← hd]

section TrimEach

variable {p e : α → Bool} {t : Nat → α → α × Nat} {F : α → List LogFile} {k : α → List κ}

theorem trimEach_frees
    (ht : ∀ sz a, p a = false → 0 < sz →
      Frees (F a) sz (F (t sz a).1) (t sz a).2 ∧ k (t sz a).1 = k a)
    (hskip : ∀ a, p a = true → F a = [])
    (hempty : ∀ sz a, p a = false → e (t sz a).1 = true →
      F (t sz a).1 = [] ∧ k (t sz a).1 = [])
    (hsz : 0 < sz) (l : List α) :
    Frees (l.flatMap F) sz ((trimEach p t e sz l).1.flatMap F)
      (trimEach p t e sz l).2.1 ∧
    (trimEach p t e sz l).2.2 = sz - (trimEach p t e sz l).2.1 ∧
    (trimEach p t e sz l).1.flatMap k = l.flatMap k := by
  induction l generalizing sz with
  | nil => exact ⟨⟨rfl, rfl⟩, rfl, rfl⟩
  | cons a l ih =>
    rw [trimEach]
    cases hs : p a with
    | true =>
      obtain ⟨⟨hl, hd⟩, hz, hk⟩ := ih hsz
      simp only [if_true, flatMap_cons, hskip a hs, nil_append]
      exact ⟨⟨hl, hd⟩, hz, by rw [hk]⟩
    | false =>
      obtain ⟨⟨hl, hd⟩, hk⟩ := ht sz a hs hsz
      have hone : (if e (t sz a).1 then [] else [(t sz a).1]).flatMap F =
          F (t sz a).1 ∧
          (if e (t sz a).1 then [] else [(t sz a).1]).flatMap k = k (t sz a).1 := by
        split
        · rename_i he
          obtain ⟨h₁, h₂⟩ := hempty sz a hs he
          rw [h₁, h₂]
          exact ⟨rfl, rfl⟩
        · exact ⟨append_nil _, append_nil _⟩
      simp only [Bool.false_eq_true, if_false, flatMap_cons]
      by_cases hle : sz ≤ (t sz a).2
      · rw [if_pos hle]
        rw [hd] at hle
        refine ⟨⟨?_, ?_⟩, ?_, ?_⟩
        · rw [greedyRest_append hsz, if_pos hle, flatMap_append, hone.1, hl]
        · rw [greedySum_append hsz, if_pos hle, hd]
        · dsimp only
          omega
        · rw [flatMap_append, hone.2, hk]
      · rw [if_neg hle]
        obtain ⟨⟨hl', hd'⟩, hz', hk'⟩ := @ih (sz - (t sz a).2) (by omega)
        have hn := (le_greedySum_or_rest_nil LogFile.size sz (F a)).resolve_left (hd ▸ hle)
        refine ⟨⟨?_, ?_⟩, ?_, ?_⟩
        · rw [greedyRest_append hsz, ← hd, if_neg hle, flatMap_append, hone.1, hl, hn, hl']
          rfl
        · rw [greedySum_append hsz, ← hd, if_neg hle, hd']
        · dsimp only
          omega
        · rw [flatMap_append, hone.2, hk, hk']

end TrimEach

namespace CpDirectory

def free (d : CpDirectory) : List LogFile := d.logFiles.filter fun f => !d.keeps f

def kept (d : CpDirectory) : List Nat := (d.logFiles.filter d.keeps).map LogFile.id

theorem trim_frees (sz : Nat) (d : CpDirectory) :
    Frees d.logFiles sz (d.trim (fun _ => true) sz).1.logFiles (d.trim (fun _ => true) sz).2 := by
  have h := (trimFiles_frees (fun _ => false) sz d.logFiles).1
  simp only [Bool.not_false, filter_true] at h
  exact h

theorem keeps_changeNameNum (d : CpDirectory) (f : LogFile) (num : Nat) (r : Bool) :
    d.keeps (f.changeNameNum num r) = d.keeps f := by
  rw [LogFile.changeNameNum]
  split
  · rfl
  · split <;> rfl

theorem id_changeNameNum (f : LogFile) (num : Nat) (r : Bool) :
    (f.changeNameNum num r).id = f.id := by
  rw [LogFile.changeNameNum]
  split
  · rfl
  · split <;> rfl

theorem renameStartLog_free (renamed : Nat → Bool) (d : CpDirectory) :
    (d.renameStartLog renamed).free = d.free ∧ (d.renameStartLog renamed).kept = d.kept := by
  rw [renameStartLog]
  split
  · exact ⟨rfl, rfl⟩
  split
  · exact ⟨rfl, rfl⟩
  rename_i start hstart _ num _
  have hkeeps (f : LogFile) : d.keeps
      (if f.id = start then f.changeNameNum num (renamed f.id) else f) = d.keeps f := by
    split
    · exact keeps_changeNameNum d f num _
    · rfl
  refine ⟨?_, ?_⟩
  · show (d.logFiles.map _).filter (fun f => !d.keeps f) = d.logFiles.filter fun f => !d.keeps f
    rw [filter_map]
    simp only [Function.comp_def, hkeeps]
    refine (map_congr_left fun f hf => ?_).trans (map_id _)
    rw [if_neg, id]
    rintro rfl
    have hk : d.keeps f = true := decide_eq_true (.inl hstart)
    rw [mem_filter, hk] at hf
    exact absurd hf.2 Bool.false_ne_true
  · show ((d.logFiles.map _).filter d.keeps).map LogFile.id =
      (d.logFiles.filter d.keeps).map LogFile.id
    rw [filter_map, map_map]
    simp only [Function.comp_def, hkeeps]
    congr 1
    funext f
    split
    · exact id_changeNameNum f num _
    · rfl

theorem trimWorkingDir_frees (renamed : Nat → Bool) (sz : Nat) (d : CpDirectory) :
    Frees d.free sz (d.trimWorkingDir (fun _ => true) renamed sz).1.free
      (d.trimWorkingDir (fun _ => true) renamed sz).2 ∧
    (d.trimWorkingDir (fun _ => true) renamed sz).1.kept = d.kept := by
  obtain ⟨hf, hk⟩ := trimFiles_frees d.keeps sz d.logFiles
  rw [trimWorkingDir]
  rw [(renameStartLog_free renamed _).1, (renameStartLog_free renamed _).2]
  exact ⟨hf, congrArg (List.map LogFile.id) hk⟩

theorem empty_free {d : CpDirectory} (h : d.empty = true) :
    d.logFiles = [] ∧ d.free = [] ∧ d.kept = [] := by
  have hl := isEmpty_iff.mp h
  rw [free, kept, hl]
  exact ⟨rfl, rfl, rfl⟩

end CpDirectory

namespace CpSetDirectory

def files (s : CpSetDirectory) : List LogFile := s.cpDirs.flatMap CpDirectory.logFiles

def free (s : CpSetDirectory) : List LogFile := s.cpDirs.flatMap CpDirectory.free

def kept (s : CpSetDirectory) : List Nat := s.cpDirs.flatMap CpDirectory.kept

theorem trim_frees (hsz : 0 < sz) (s : CpSetDirectory) :
    Frees s.files sz (s.trim (fun _ => true) sz).1.files (s.trim (fun _ => true) sz).2 :=
  (trimEach_frees (k := fun _ => ([] : List Nat))
    (fun sz d _ _ => ⟨CpDirectory.trim_frees sz d, rfl⟩) (fun _ h => absurd h Bool.false_ne_true)
    (fun _ _ _ he => ⟨(CpDirectory.empty_free he).1, rfl⟩) hsz s.cpDirs).1

theorem trimWorkingDir_frees (renamed : Nat → Bool) (hsz : 0 < sz) (s : CpSetDirectory) :
    Frees s.free sz (s.trimWorkingDir (fun _ => true) renamed sz).1.free
      (s.trimWorkingDir (fun _ => true) renamed sz).2 ∧
    (s.trimWorkingDir (fun _ => true) renamed sz).1.kept = s.kept := by
  obtain ⟨hf, -, hk⟩ := trimEach_frees
    (fun sz d _ _ => CpDirectory.trimWorkingDir_frees renamed sz d)
    (fun _ h => absurd h Bool.false_ne_true)
    (fun _ _ _ he => (CpDirectory.empty_free he).2) hsz s.cpDirs
  exact ⟨hf, hk⟩

theorem empty_files {s : CpSetDirectory} (h : s.empty = true) : s.files = [] := by
  rw [files, isEmpty_iff.mp h]
  rfl

end CpSetDirectory

namespace MediaStorage

def others (m : MediaStorage) : List LogFile :=
  m.logDirs.flatMap fun s => if m.curSet = some s.id then [] else s.files

def free (m : MediaStorage) : List LogFile :=
  m.logDirs.flatMap fun s => if m.curSet = some s.id then s.free else []

def kept (m : MediaStorage) : List Nat :=
  m.logDirs.flatMap fun s => if m.curSet = some s.id then s.kept else []

variable {m : MediaStorage} {c : CpSetDirectory} {pre post : List CpSetDirectory}

structure OneCurrent (cur : Option Nat) (pre : List CpSetDirectory) (c : CpSetDirectory)
    (post : List CpSetDirectory) : Prop where
  here : cur = some c.id
  before : ∀ s ∈ pre, cur ≠ some s.id
  after : ∀ s ∈ post, cur ≠ some s.id

theorem OneCurrent.flatMap (h : OneCurrent cur pre c post) (g : CpSetDirectory → List β) :
    (pre ++ c :: post).flatMap (fun s => if cur = some s.id then g s else []) = g c := by
  have hnil {l : List CpSetDirectory} (hl : ∀ s ∈ l, cur ≠ some s.id) :
      l.flatMap (fun s => if cur = some s.id then g s else []) = [] := by
    rw [flatMap_eq_nil_iff]
    intro s hs
    rw [if_neg (hl s hs)]
  rw [flatMap_append, flatMap_cons, hnil h.before, hnil h.after, if_pos h.here,
    nil_append, append_nil]

theorem flatMap_singleton (cur : Option Nat) (l : List CpSetDirectory) :
    l.flatMap (fun s => if cur = some s.id then [s] else []) =
      l.filter fun s => cur = some s.id := by
  induction l with
  | nil => rfl
  | cons s l ih =>
    rw [flatMap_cons, filter_cons, ih]
    split
    · rename_i h
      rw [if_pos (decide_eq_true h)]
      rfl
    · rename_i h
      rw [if_neg (by rwa [decide_eq_true_eq])]
      rfl

theorem exists_oneCurrent (hn : (m.logDirs.map CpSetDirectory.id).Nodup)
    (hc : ∃ s ∈ m.logDirs, m.curSet = some s.id) :
    ∃ pre c post, m.logDirs = pre ++ c :: post ∧ OneCurrent m.curSet pre c post := by
  obtain ⟨c, hmem, hc⟩ := hc
  obtain ⟨pre, post, hl⟩ := append_of_mem hmem
  rw [hl, map_append, map_cons, nodup_middle, nodup_cons, mem_append, not_or] at hn
  have hne {l : List CpSetDirectory} (hl : c.id ∉ l.map CpSetDirectory.id) :
      ∀ s ∈ l, m.curSet ≠ some s.id := by
    intro s hs he
    rw [hc] at he
    apply hl
    rw [Option.some.inj he]
    exact mem_map_of_mem hs
  exact ⟨pre, c, post, hl, hc, hne hn.1.1, hne hn.1.2⟩

theorem trimOthers_frees (hsz : 0 < sz) (cur : Option Nat) (l : List CpSetDirectory) :
    let r := trimEach (fun s => cur = some s.id) (CpSetDirectory.trim fun _ => true)
      CpSetDirectory.empty sz l
    Frees (l.flatMap fun s => if cur = some s.id then [] else s.files) sz
      (r.1.flatMap fun s => if cur = some s.id then [] else s.files) r.2.1 ∧
    r.2.2 = sz - r.2.1 ∧
    (r.1.filter fun s => cur = some s.id) = l.filter fun s => cur = some s.id := by
  have h := trimEach_frees (p := fun s => cur = some s.id) (e := CpSetDirectory.empty)
    (t := CpSetDirectory.trim fun _ => true)
    (F := fun s => if cur = some s.id then [] else s.files)
    (k := fun s => if cur = some s.id then [s] else []) ?_ ?_ ?_ hsz l
  · rw [flatMap_singleton, flatMap_singleton] at h
    exact h
  · intro sz s hs hsz
    have hs : cur ≠ some s.id := of_decide_eq_false hs
    have hs' : cur ≠ some (s.trim (fun _ => true) sz).1.id := hs
    rw [if_neg hs, if_neg hs', if_neg hs, if_neg hs']
    exact ⟨CpSetDirectory.trim_frees hsz s, rfl⟩
  · intro s hs
    exact if_pos (of_decide_eq_true hs)
  intro sz s hs he
  have hs' : cur ≠ some (s.trim (fun _ => true) sz).1.id := of_decide_eq_false hs
  rw [if_neg hs', if_neg hs']
  exact ⟨CpSetDirectory.empty_files he, rfl⟩

theorem oneCurrent_of_filter (h : (l.filter fun s => cur = some s.id) = [c]) :
    ∃ pre post, l = pre ++ c :: post ∧ OneCurrent cur pre c post := by
  obtain ⟨pre, post, hl, hpre, hc, hpost⟩ := filter_eq_cons_iff.mp h
  refine ⟨pre, post, hl, of_decide_eq_true hc, ?_, ?_⟩
  · intro s hs he
    exact hpre s hs (decide_eq_true he)
  · intro s hs he
    rw [filter_eq_nil_iff] at hpost
    exact hpost s hs (decide_eq_true he)

theorem OneCurrent.filter (h : OneCurrent cur pre c post) :
    ((pre ++ c :: post).filter fun s => cur = some s.id) = [c] := by
  rw [← flatMap_singleton, h.flatMap]

theorem OneCurrent.others (h : OneCurrent cur pre c post) (hid : c'.id = c.id) :
    ((pre ++ c' :: post).flatMap fun s => if cur = some s.id then [] else s.files) =
      (pre ++ c :: post).flatMap fun s => if cur = some s.id then [] else s.files := by
  rw [flatMap_append, flatMap_cons, flatMap_append, flatMap_cons, hid, if_pos h.here, if_pos h.here]

theorem OneCurrent.replace (h : OneCurrent cur pre c post) (hid : c'.id = c.id) :
    OneCurrent cur pre c' post :=
  ⟨h.here.trans (by rw [hid]), h.before, h.after⟩

theorem onCurSet_oneCurrent (g : CpSetDirectory → CpSetDirectory × β)
    (hl : m.logDirs = pre ++ c :: post) (h : OneCurrent m.curSet pre c post) :
    m.onCurSet g = some ({ m with logDirs := pre ++ (g c).1 :: post }, (g c).2) := by
  have hpre : ∀ s ∈ pre, decide (s.id = c.id) = false := by
    intro s hs
    apply decide_eq_false
    intro he
    exact h.before s hs (by rw [he]; exact h.here)
  rw [onCurSet, h.here, Option.bind_some, hl,
    onFirst_append (p := fun s : CpSetDirectory => decide (s.id = c.id)) _ (decide_eq_true rfl)
      hpre]
  rfl

/-- Trimming a media frees what is taken greedily from the files of the other sets, in order, and
then from the files of the current set that may be removed. -/
theorem trim_spec (renamed : Nat → Bool) (hsz : 0 < sz)
    (hn : (m.logDirs.map CpSetDirectory.id).Nodup)
    (hc : ∃ s ∈ m.logDirs, m.curSet = some s.id) :
    ∃ m', m.trim (fun _ => true) renamed sz =
        some (m', greedySum LogFile.size sz (m.others ++ m.free)) ∧
      m'.others ++ m'.free = greedyRest LogFile.size sz (m.others ++ m.free) ∧
      (m'.others = [] ∨ m'.free = m.free) ∧ m'.kept = m.kept := by
  obtain ⟨pre, c, post, hl, hone⟩ := exists_oneCurrent hn hc
  obtain ⟨⟨hleft, hdec⟩, hrest, hcur⟩ := trimOthers_frees hsz m.curSet m.logDirs
  rw [hl, hone.filter, ← hl] at hcur
  have hfree : m.free = c.free := by rw [free, hl, hone.flatMap]
  have hkept : m.kept = c.kept := by rw [kept, hl, hone.flatMap]
  rw [MediaStorage.trim]
  generalize trimEach (fun s => decide (m.curSet = some s.id)) (CpSetDirectory.trim fun _ => true)
    CpSetDirectory.empty sz m.logDirs = r at hleft hdec hrest hcur ⊢
  obtain ⟨l, dec, left⟩ := r
  dsimp only at hleft hdec hrest hcur ⊢
  obtain ⟨pre', post', rfl, hone'⟩ := oneCurrent_of_filter hcur
  have hdec : dec = greedySum LogFile.size sz m.others := hdec
  by_cases hzero : left = 0
  · have hle : sz ≤ greedySum LogFile.size sz m.others := by omega
    rw [if_pos hzero, greedySum_append hsz, if_pos hle, greedyRest_append hsz, if_pos hle, hdec]
    refine ⟨_, rfl, ?_, .inr ?_, ?_⟩
    · rw [hfree]
      exact congrArg₂ (· ++ ·) hleft (hone'.flatMap _)
    · rw [hfree]
      exact hone'.flatMap _
    · rw [hkept]
      exact hone'.flatMap _
  · have hlt : ¬ sz ≤ greedySum LogFile.size sz m.others := by omega
    have hnil := (le_greedySum_or_rest_nil LogFile.size sz m.others).resolve_left hlt
    obtain ⟨⟨hleft₂, hdec₂⟩, hkept₂⟩ :=
      CpSetDirectory.trimWorkingDir_frees renamed (pos_of_ne_zero hzero) c
    rw [if_neg hzero, onCurSet_oneCurrent (m := { m with
      logDirs := pre' ++ c :: post', size := m.size - dec }) _ rfl hone', greedySum_append hsz,
      if_neg hlt, greedyRest_append hsz, if_neg hlt, ← hdec, ← hrest, hfree, ← hdec₂, ← hleft₂,
      hkept, ← hkept₂]
    have hone₂ : OneCurrent m.curSet pre' (c.trimWorkingDir (fun _ => true) renamed left).1 post' :=
      hone'.replace rfl
    have ho : ((pre' ++ (c.trimWorkingDir (fun _ => true) renamed left).1 :: post').flatMap
        fun s => if m.curSet = some s.id then [] else s.files) = [] := by
      refine (hone'.others ?_).trans (hleft.trans hnil)
      rfl
    refine ⟨_, rfl, ?_, .inl ho, hone₂.flatMap _⟩
    exact congrArg₂ (· ++ ·) ho (hone₂.flatMap _)

/-- What trimming a media removes when every file can be unlinked. -/
theorem trim_removes (m : MediaStorage) (renamed : Nat → Bool) (sz : Nat) (hsz : 0 < sz)
    (hn : (m.logDirs.map CpSetDirectory.id).Nodup)
    (hc : ∃ s ∈ m.logDirs, m.curSet = some s.id) :
    ∃ m' removed left,
      m.trim (fun _ => true) renamed sz = some (m', (removed.map LogFile.size).sum) ∧
      m.others ++ m.free = removed ++ left ∧ m'.others ++ m'.free = left ∧
      (sz ≤ (removed.map LogFile.size).sum ∨ left = []) ∧
      (removed.dropLast.map LogFile.size).sum < sz ∧
      (m'.others = [] ∨ m'.free = m.free) ∧ m'.kept = m.kept := by
  obtain ⟨m', htrim, hleft, hold, hkept⟩ := trim_spec renamed hsz hn hc
  exact ⟨m', greedy LogFile.size sz (m.others ++ m.free), _, htrim,
    (greedy_append_rest LogFile.size sz _).symm, hleft, le_greedySum_or_rest_nil LogFile.size sz _,
    sum_dropLast_greedy_lt hsz _, hold, hkept⟩

def twoRuns : MediaStorage :=
  let file (id : Nat) (t : LogType) (size : Nat) : LogFile :=
    ⟨id, ['0', '-', 'm', 'd'], t, .zero, size, false, 0⟩
  ⟨true, 0, 0, true,
    [⟨0, ['a'], [⟨['m', 'd'], 8, none, none, [file 1 .log 3, file 2 .log 5]⟩], 8⟩,
      ⟨3, ['b'], [⟨['m', 'd'], 14, some 4, some 7,
        [file 4 .log 4, file 5 .dump 7, file 6 .version 1, file 7 .log 2]⟩], 14⟩],
    some 3, 22⟩

theorem trim_removes_dump : ∃ m' removed left,
    twoRuns.trim (fun _ => true) (fun _ => true) 10 =
      some (m', (removed.map LogFile.size).sum) ∧
    twoRuns.others ++ twoRuns.free = removed ++ left ∧ m'.others ++ m'.free = left ∧
    (10 ≤ (removed.map LogFile.size).sum ∨ left = []) ∧
    (removed.dropLast.map LogFile.size).sum < 10 ∧
    (m'.others = [] ∨ m'.free = twoRuns.free) ∧ m'.kept = twoRuns.kept :=
  trim_removes twoRuns (fun _ => true) 10 (by decide) (by decide) (by decide)

example : (twoRuns.trim (fun _ => true) (fun _ => true) 10).map
    (fun r => (r.1.logDirs.map fun s => s.files.map LogFile.id, r.1.size, r.2)) =
    some ([[4, 6, 7]], 7, 15) := by
  decide +kernel

end MediaStorage

end SprdVendor.SlogModem
