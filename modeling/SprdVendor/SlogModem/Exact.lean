import SprdVendor.Lib.Totals
import SprdVendor.SlogModem.Media

namespace SprdVendor.SlogModem
open Lib List Option

variable {id : Nat}

def CpDirectory.Exact (d : CpDirectory) : Prop :=
  Adds LogFile.size (fun _ => True) d.size d.logFiles

def CpSetDirectory.Exact (s : CpSetDirectory) : Prop :=
  Adds CpDirectory.size CpDirectory.Exact s.size s.cpDirs

def MediaStorage.Exact (m : MediaStorage) : Prop :=
  Adds CpSetDirectory.size CpSetDirectory.Exact m.size m.logDirs

instance : DecidablePred CpDirectory.Exact := fun d =>
  inferInstanceAs (Decidable (Adds LogFile.size (fun _ => True) d.size d.logFiles))

instance : DecidablePred CpSetDirectory.Exact := fun s =>
  inferInstanceAs (Decidable (Adds CpDirectory.size CpDirectory.Exact s.size s.cpDirs))

instance : DecidablePred MediaStorage.Exact := fun m =>
  inferInstanceAs (Decidable (Adds CpSetDirectory.size CpSetDirectory.Exact m.size m.logDirs))

def SizeCall.Fits : SizeCall → Nat → Prop
  | .decSize len, size => len ≤ size
  | _, _ => True

theorem SizeCall.apply_whole {c : SizeCall} (h : c.Fits part) (hle : part ≤ whole) :
    c.apply whole = whole - part + c.apply part ∧ c.Fits whole := by
  cases c with
  | decSize len =>
    have h : len ≤ part := h
    simp only [apply, Fits]
    omega
  | _ =>
    simp only [apply]
    exact ⟨by omega, trivial⟩

def Told (w : α → Nat) (ok : α → Prop) (g : α → Option (α × SizeCall × β)) : Prop :=
  ∀ a a' c b, ok a → g a = some (a', c, b) → ok a' ∧ w a' = c.apply (w a) ∧ c.Fits (w a)

theorem Told.onFirst (hg : Told w ok g)
    (h : Adds w ok size l) (ho : Lib.onFirst p g l = some (l', c, b)) :
    Adds w ok (c.apply size) l' ∧ c.Fits size := by
  obtain ⟨a, a', ha, hga, hle, hadds⟩ := h.onFirst ho fun a a' ha h => (hg a a' c b ha h).1
  obtain ⟨-, hw, hfits⟩ := hg a a' c b ha hga
  obtain ⟨he, hf⟩ := SizeCall.apply_whole hfits hle
  rw [he, ← hw]
  exact ⟨hadds, hf⟩

def Quiet (g : α → Option (α × SizeCall × β)) : Prop :=
  ∀ a a' c b, g a = some (a', c, b) → c = .none

theorem Quiet.onFirst (hg : Quiet g) (ho : Lib.onFirst p g l = some (l', c, b)) : c = .none := by
  obtain ⟨pre, a, post, a', -, -, -, ha, -⟩ := onFirst_eq_some ho
  exact hg a a' c b ha

theorem LogFile.write_told (len : Nat) (k : Kernel) :
    Told LogFile.size (fun _ => True) fun f => f.write len k := by
  intro f f' c n _ h
  dsimp only at h
  rw [LogFile.write] at h
  split at h
  · cases h
    exact ⟨trivial, rfl, trivial⟩
  split at h
  · cases h
    exact ⟨trivial, rfl, trivial⟩
  split at h
  · obtain ⟨r, -, he⟩ := map_eq_some_iff.mp h
    split at he
    · cases he
      exact ⟨trivial, rfl, trivial⟩
    · split at he <;> cases he <;> exact ⟨trivial, rfl, trivial⟩
  · obtain ⟨r, -, he⟩ := map_eq_some_iff.mp h
    split at he <;> cases he <;> exact ⟨trivial, rfl, trivial⟩

theorem LogFile.copy_told (src : Option (List (Int × Int))) :
    Told LogFile.size (fun _ => True) fun f => f.copy src := by
  intro f f' c n _ h
  dsimp only at h
  unfold LogFile.copy at h
  split at h
  · cases h
    exact ⟨trivial, rfl, trivial⟩
  cases src with
  | none =>
    cases h
    exact ⟨trivial, rfl, trivial⟩
  | some calls =>
    obtain ⟨r, -, he⟩ := map_eq_some_iff.mp h
    cases he
    exact ⟨trivial, rfl, trivial⟩

theorem LogFile.discard_told : Told LogFile.size (fun _ => True) fun f => some f.discard := by
  intro f f' c n _ h
  have h := Option.some.inj h
  rw [LogFile.discard] at h
  split at h
  · cases h
    exact ⟨trivial, (Nat.sub_self f.size).symm, Nat.le_refl f.size⟩
  · cases h
    exact ⟨trivial, rfl, trivial⟩

theorem LogFile.size_close (f : LogFile) : f.close.size = f.size := by
  rw [LogFile.close]
  split <;> rfl

theorem LogFile.size_flush (f : LogFile) : f.flush.size = f.size := by
  rw [LogFile.flush]
  split <;> rfl

theorem LogFile.told_of_size {g : LogFile → LogFile} (hg : ∀ f, (g f).size = f.size) :
    Told LogFile.size (fun _ => True) fun f => some (g f, .none, b) := by
  intro f f' c b' _ h
  cases h
  exact ⟨trivial, hg f, trivial⟩

theorem LogFile.quiet_of_size {g : LogFile → LogFile} :
    Quiet fun f => some (g f, SizeCall.none, b) := by
  intro f f' c b' h
  cases h
  rfl

theorem LogFile.size_rotate (f : LogFile) (r : Bool) : (f.rotate r).size = f.size := by
  rw [LogFile.rotate]
  split
  · rfl
  · split <;> rfl

theorem LogFile.size_changeNameNum (f : LogFile) (num : Nat) (r : Bool) :
    (f.changeNameNum num r).size = f.size := by
  rw [LogFile.changeNameNum]
  split
  · rfl
  · split <;> rfl

theorem Exact.map_size {d : CpDirectory} (h : d.Exact)
    (hg : ∀ f, (g f).size = f.size) (d' : CpDirectory) (hs : d'.size = d.size)
    (hl : d'.logFiles = d.logFiles.map g) : d'.Exact := by
  refine ⟨?_, fun _ _ => trivial⟩
  rw [hs, hl, h.total, List.map_map]
  congr 2
  funext f
  exact (hg f).symm

theorem insertByTime_perm (f : LogFile) (l : List LogFile) : (f :: l).Perm (insertByTime f l) := by
  induction l with
  | nil => exact .refl _
  | cons p l ih =>
    rw [insertByTime]
    split
    · exact .refl _
    · exact (List.Perm.swap p f l).trans (ih.cons p)

theorem insertAscending_perm (l : List LogFile) (f : LogFile) :
    (f :: l).Perm (insertAscending l f) := by
  rw [insertAscending]
  split
  · exact (perm_append_singleton f l).symm
  · exact .refl _
  · exact insertByTime_perm f l

theorem trimFiles_sum (keep : LogFile → Bool) (unlink : Nat → Bool) (sz : Nat)
    (l : List LogFile) :
    ((trimFiles keep unlink sz l).1.map LogFile.size).sum + (trimFiles keep unlink sz l).2 =
      (l.map LogFile.size).sum := by
  induction l generalizing sz with
  | nil => rfl
  | cons f l ih =>
    rw [trimFiles]
    split
    · have h := ih sz
      simp only [map_cons, sum_cons]
      omega
    split
    · rfl
    split
    · simp only [map_cons, sum_cons]
      omega
    · have h := ih (sz - f.size)
      simp only [map_cons, sum_cons]
      omega

namespace CpDirectory

variable {d d' : CpDirectory}

theorem new_exact (name : Name) : (new name).Exact := .nil

theorem statFiles_exact (n : Nat) (es : List Entry) (h : d.Exact) : (statFiles n d es).Exact := by
  induction es generalizing n d with
  | nil => exact h
  | cons e es ih =>
    apply ih
    have hs := (h.snoc (a := ⟨n, e.baseName, e.type, e.time, e.size, false, 0⟩) trivial).perm
      (perm_append_singleton _ _)
    exact hs.perm (insertAscending_perm _ _)

theorem onFile_told (id : Nat) (hg : Told LogFile.size (fun _ => True) g) :
    Told CpDirectory.size CpDirectory.Exact (onFile id g) := by
  intro d d' c b hd h
  obtain ⟨⟨l, c', b'⟩, ho, he⟩ := map_eq_some_iff.mp h
  cases he
  obtain ⟨hadds, hfits⟩ := hg.onFirst hd ho
  exact ⟨hadds, rfl, hfits⟩

theorem onFile_quiet (id : Nat) (hg : Quiet g) : Quiet (onFile id g) := by
  intro d d' c b h
  obtain ⟨⟨l, c', b'⟩, ho, he⟩ := map_eq_some_iff.mp h
  cases he
  exact hg.onFirst ho

theorem createLogFile_exact (id : Nat) (now : Option FileTime) (opened : Bool) (h : d.Exact) :
    (d.createLogFile id now opened).1.Exact ∧ (d.createLogFile id now opened).1.size = d.size := by
  cases now with
  | none => exact ⟨h, rfl⟩
  | some lt =>
    cases opened with
    | false => exact ⟨h, rfl⟩
    | true => exact ⟨h.snoc (a := LogFile.created id _ .log lt) trivial, rfl⟩

theorem createFile_exact (id : Nat) (fname : Name) (t : LogType) (opened : Bool) (h : d.Exact) :
    (d.createFile id fname t opened).1.Exact ∧ (d.createFile id fname t opened).1.size = d.size := by
  cases opened with
  | false => exact ⟨h, rfl⟩
  | true => exact ⟨h.snoc (a := LogFile.created id fname t .zero) trivial, rfl⟩

theorem closeLogFile_exact (h : d.Exact) (hc : d.closeLogFile = some d') :
    d'.Exact ∧ d'.size = d.size := by
  obtain ⟨id, -, hc⟩ := bind_eq_some_iff.mp hc
  obtain ⟨⟨d₁, c, u⟩, ho, rfl⟩ := map_eq_some_iff.mp hc
  obtain ⟨he, hs, -⟩ := onFile_told id (LogFile.told_of_size LogFile.size_close) d d₁ c u h ho
  rw [onFile_quiet id LogFile.quiet_of_size d d₁ c u ho] at hs
  exact ⟨he, hs⟩

theorem rotate_exact (renamed : Nat → Bool) (h : d.Exact) : (d.rotate renamed).Exact := by
  refine Exact.map_size h (g := fun f => if f.type = .log then f.rotate (renamed f.id) else f)
    ?_ _ rfl rfl
  intro f
  split
  · exact LogFile.size_rotate f _
  · rfl

theorem renameStartLog_exact (renamed : Nat → Bool) (h : d.Exact) :
    (d.renameStartLog renamed).Exact ∧ (d.renameStartLog renamed).size = d.size := by
  rw [renameStartLog]
  split
  · exact ⟨h, rfl⟩
  split
  · exact ⟨h, rfl⟩
  rename_i start _ _ num _
  refine ⟨Exact.map_size h (g := fun f =>
    if f.id = start then f.changeNameNum num (renamed f.id) else f) ?_ _ rfl rfl, rfl⟩
  intro f
  split
  · exact LogFile.size_changeNameNum f _ _
  · rfl

theorem trimmed_exact (keep : LogFile → Bool) (unlink : Nat → Bool) (sz : Nat) (h : d.Exact) :
    let r := trimFiles keep unlink sz d.logFiles
    ({ d with logFiles := r.1, size := d.size - r.2 } : CpDirectory).Exact ∧
      d.size - r.2 + r.2 = d.size := by
  have hs := trimFiles_sum keep unlink sz d.logFiles
  have ht := h.total
  exact ⟨⟨by dsimp only; omega, fun _ _ => trivial⟩, by omega⟩

theorem trim_exact (unlink : Nat → Bool) (sz : Nat) (h : d.Exact) :
    (d.trim unlink sz).1.Exact ∧ (d.trim unlink sz).1.size + (d.trim unlink sz).2 = d.size :=
  trimmed_exact _ unlink sz h

theorem trimWorkingDir_exact (unlink renamed : Nat → Bool) (sz : Nat) (h : d.Exact) :
    (d.trimWorkingDir unlink renamed sz).1.Exact ∧
      (d.trimWorkingDir unlink renamed sz).1.size + (d.trimWorkingDir unlink renamed sz).2 =
        d.size := by
  obtain ⟨he, hs⟩ := trimmed_exact d.keeps unlink sz h
  obtain ⟨hr, hz⟩ := renameStartLog_exact renamed he
  exact ⟨hr, by rw [trimWorkingDir, hz]; exact hs⟩

theorem empty_size (h : d.Exact) (he : d.empty = true) : d.size = 0 := by
  rw [h.total, isEmpty_iff.mp he]
  rfl

theorem takeOut_exact (h : d.Exact) (ht : d.takeOut id = some (f, rest)) :
    Adds LogFile.size (fun _ => True) (d.size - f.size) rest ∧ f.size ≤ d.size := by
  obtain ⟨f', hf, he⟩ := map_eq_some_iff.mp ht
  cases he
  obtain ⟨hadds, -, hle⟩ := h.eraseP hf
  exact ⟨hadds, hle⟩

theorem remove_told (id : Nat) :
    Told CpDirectory.size CpDirectory.Exact fun d => some ((d.remove id).1, (d.remove id).2, b) := by
  intro d d' c b' hd h
  cases h
  rw [remove]
  split
  · exact ⟨hd, rfl, trivial⟩
  · rename_i f rest ht
    obtain ⟨hadds, hle⟩ := takeOut_exact hd ht
    exact ⟨hadds, rfl, hle⟩

theorem fileRemoved_exact (id : Nat) (h : d.Exact) : (d.fileRemoved id).1.Exact := by
  rw [fileRemoved]
  split
  · exact h
  · rename_i f rest ht
    exact (takeOut_exact h ht).1

end CpDirectory

section TrimEach

variable {w : α → Nat} {ok : α → Prop} {empty : α → Bool} {t : Nat → α → α × Nat}

theorem trimEach_sum (skip : α → Bool)
    (ht : ∀ sz a, ok a → ok (t sz a).1 ∧ w (t sz a).1 + (t sz a).2 = w a)
    (he : ∀ a, ok a → empty a = true → w a = 0) (sz : Nat) (l : List α) (hl : ∀ a ∈ l, ok a) :
    (∀ a ∈ (trimEach skip t empty sz l).1, ok a) ∧
      ((trimEach skip t empty sz l).1.map w).sum + (trimEach skip t empty sz l).2.1 =
        (l.map w).sum := by
  induction l generalizing sz with
  | nil => exact ⟨nofun, rfl⟩
  | cons a l ih =>
    have hall : ∀ b ∈ l, ok b := fun b hb => hl b (mem_cons_of_mem _ hb)
    obtain ⟨hok, hw⟩ := ht sz a (hl a mem_cons_self)
    have hleft : ∀ b ∈ (if empty (t sz a).1 then [] else [(t sz a).1]), ok b := by
      split
      · exact nofun
      · intro b hb
        rwa [mem_singleton.mp hb]
    have hsum : ((if empty (t sz a).1 then [] else [(t sz a).1]).map w).sum = w (t sz a).1 := by
      split
      · rename_i hemp
        exact (he _ hok hemp).symm
      · rfl
    rw [trimEach]
    split
    · obtain ⟨h₁, h₂⟩ := ih sz hall
      refine ⟨forall_mem_cons.mpr ⟨hl a mem_cons_self, h₁⟩, ?_⟩
      simp only [map_cons, sum_cons]
      omega
    dsimp only
    split
    · refine ⟨forall_mem_append.mpr ⟨hleft, hall⟩, ?_⟩
      simp only [map_append, sum_append, map_cons, sum_cons, hsum]
      omega
    obtain ⟨h₁, h₂⟩ := ih (sz - (t sz a).2) hall
    refine ⟨forall_mem_append.mpr ⟨hleft, h₁⟩, ?_⟩
    simp only [map_append, sum_append, map_cons, sum_cons, hsum]
    omega

theorem trimEach_sublist (hk : ∀ sz a, k (t sz a).1 = k a) (sz : Nat) (l : List α) :
    ((trimEach skip t empty sz l).1.map k).Sublist (l.map k) := by
  induction l generalizing sz with
  | nil => exact .slnil
  | cons a l ih =>
    have hleft : ((if empty (t sz a).1 then [] else [(t sz a).1]).map k).Sublist [k a] := by
      split
      · exact nil_sublist _
      · rw [map_singleton, hk]
    rw [trimEach]
    split
    · exact (ih sz).cons_cons (k a)
    dsimp only
    split
    · rw [map_append]
      exact hleft.append (.refl _)
    · rw [map_append]
      exact hleft.append (ih _)

end TrimEach

namespace CpSetDirectory

variable {s s' : CpSetDirectory}

theorem statDirs_spec (n : Nat) (l : SetListing) (h : s.Exact) :
    (statDirs n s l).1.Exact ∧ (statDirs n s l).1.id = s.id ∧ n ≤ (statDirs n s l).2 := by
  induction l generalizing n s with
  | nil => exact ⟨h, rfl, le_refl n⟩
  | cons e l ih =>
    obtain ⟨name, es⟩ := e
    cases es with
    | none => exact ih n h
    | some es =>
      have hd := CpDirectory.statFiles_exact n es (CpDirectory.new_exact name)
      obtain ⟨h₁, h₂, h₃⟩ := ih (s := { s with
        cpDirs := s.cpDirs ++ [CpDirectory.stat n name es]
        size := s.size + (CpDirectory.stat n name es).size }) (n + es.length) (h.snoc hd)
      exact ⟨h₁, h₂, by rw [statDirs]; omega⟩

theorem onDir_told (id : Nat) (hg : Told CpDirectory.size CpDirectory.Exact g) :
    Told CpSetDirectory.size CpSetDirectory.Exact (onDir id g) := by
  intro s s' c b hs h
  obtain ⟨⟨l, c', b'⟩, ho, he⟩ := map_eq_some_iff.mp h
  cases he
  obtain ⟨hadds, hfits⟩ := hg.onFirst hs ho
  exact ⟨hadds, rfl, hfits⟩

theorem onDir_quiet (id : Nat) (hg : Quiet g) : Quiet (onDir id g) := by
  intro s s' c b h
  obtain ⟨⟨l, c', b'⟩, ho, he⟩ := map_eq_some_iff.mp h
  cases he
  exact hg.onFirst ho

theorem onDir_id (h : s.onDir id g = some (s', c, b)) : s'.id = s.id := by
  obtain ⟨⟨l, c', b'⟩, -, he⟩ := map_eq_some_iff.mp h
  cases he
  rfl

structure Same (s s' : CpSetDirectory) : Prop where
  exact : s.Exact → s'.Exact
  size : s'.size = s.size
  id : s'.id = s.id

theorem Same.refl (s : CpSetDirectory) : Same s s := ⟨fun h => h, rfl, rfl⟩

theorem Same.trans (h : Same s t) (h' : Same t u) : Same s u :=
  ⟨fun hs => h'.exact (h.exact hs), h'.size.trans h.size, h'.id.trans h.id⟩

theorem createCpDir_same (name : Name) (mkdir : Bool) (s : CpSetDirectory) :
    Same s (s.createCpDir name mkdir) := by
  rw [createCpDir]
  split
  · exact .refl s
  split
  · exact ⟨fun h => h.snoc (CpDirectory.new_exact name), rfl, rfl⟩
  · exact .refl s

theorem inCpDir_same (name : Name)
    (hg : ∀ d, d.Exact → (g d).1.Exact ∧ (g d).1.size = d.size) (s : CpSetDirectory) :
    Same s (s.inCpDir name g).1 := by
  rw [inCpDir]
  split
  · rename_i r hr
    refine ⟨fun hs => ?_, rfl, rfl⟩
    have hfst {d d' : CpDirectory} (he : some (g d) = some (d', r.2)) : (g d).1 = d' :=
      congrArg Prod.fst (Option.some.inj he)
    obtain ⟨d, d', hd, he, hle, hadds⟩ := hs.onFirst hr
      fun d d' hd he => hfst he ▸ (hg d hd).1
    rw [← hfst he, (hg d hd).2, Nat.sub_add_cancel hle] at hadds
    exact hadds
  · exact .refl s

theorem newLogFile_same (id : Nat) (name : Name) (e : OpenEnv) (s : CpSetDirectory) :
    Same s (s.newLogFile id name e).1 :=
  (createCpDir_same name e.mkdir s).trans (inCpDir_same name
    (fun _ hd => CpDirectory.createLogFile_exact id e.now e.opened hd) _)

theorem createFile_same (id : Nat) (name fname : Name) (t : LogType) (mkdir opened : Bool)
    (s : CpSetDirectory) : Same s (s.createFile id name fname t mkdir opened).1 :=
  (createCpDir_same name mkdir s).trans (inCpDir_same name
    (fun _ hd => CpDirectory.createFile_exact id fname t opened hd) _)

def cpDirSize (name : Name) (s : CpSetDirectory) : Nat :=
  match s.getCpDir name with
  | some d => d.size
  | none => 0

theorem findCpDir_same (name : Name) (cpDir : Bool) (s : CpSetDirectory)
    (h : cpDir = true ∨ s.cpDirSize name = 0) : Same s (s.findCpDir name cpDir).1 := by
  rw [findCpDir]
  split
  · exact .refl s
  rename_i d hd
  split
  · exact .refl s
  rename_i hc
  have hz : d.size = 0 := by
    have hz := h.resolve_left hc
    rwa [cpDirSize, hd] at hz
  refine ⟨fun hs => (hs.eraseP hd).1, ?_, rfl⟩
  rw [dropCpDir, hz]
  rfl

theorem recreateLogFile_same (id : Nat) (name : Name) (cpDir : Bool) (e : OpenEnv)
    (s : CpSetDirectory) (h : cpDir = true ∨ s.cpDirSize name = 0) :
    Same s (s.recreateLogFile id name cpDir e).1 :=
  (findCpDir_same name cpDir s h).trans (newLogFile_same id name e _)

theorem trimmed_exact
    (ht : ∀ sz d, d.Exact → (t sz d).1.Exact ∧ (t sz d).1.size + (t sz d).2 = d.size)
    (sz : Nat) (h : s.Exact) :
    let r := trimEach (fun _ => false) t CpDirectory.empty sz s.cpDirs
    ({ s with cpDirs := r.1, size := s.size - r.2.1 } : CpSetDirectory).Exact ∧
      s.size - r.2.1 + r.2.1 = s.size := by
  obtain ⟨hall, hsum⟩ := trimEach_sum (fun _ => false) ht
    (fun d hd he => CpDirectory.empty_size hd he) sz s.cpDirs h.all
  have htot := h.total
  exact ⟨⟨by dsimp only; omega, hall⟩, by omega⟩

theorem trim_exact (unlink : Nat → Bool) (sz : Nat) (h : s.Exact) :
    (s.trim unlink sz).1.Exact ∧ (s.trim unlink sz).1.size + (s.trim unlink sz).2 = s.size :=
  trimmed_exact (fun sz _ hd => CpDirectory.trim_exact unlink sz hd) sz h

theorem trimWorkingDir_exact (unlink renamed : Nat → Bool) (sz : Nat) (h : s.Exact) :
    (s.trimWorkingDir unlink renamed sz).1.Exact ∧
      (s.trimWorkingDir unlink renamed sz).1.size + (s.trimWorkingDir unlink renamed sz).2 =
        s.size :=
  trimmed_exact (fun sz _ hd => CpDirectory.trimWorkingDir_exact unlink renamed sz hd) sz h

theorem empty_size (h : s.Exact) (he : s.empty = true) : s.size = 0 := by
  rw [h.total, isEmpty_iff.mp he]
  rfl

end CpSetDirectory

theorem insertSetAscending_perm (s : CpSetDirectory) (l : List CpSetDirectory) :
    (s :: l).Perm (insertSetAscending s l) := by
  induction l with
  | nil => exact .refl _
  | cons p l ih =>
    rw [insertSetAscending]
    split
    · exact .refl _
    · exact (List.Perm.swap p s l).trans (ih.cons p)

structure MediaStorage.Good (n : Nat) (m : MediaStorage) : Prop where
  exact : m.Exact
  nodup : (m.logDirs.map CpSetDirectory.id).Nodup
  lt : ∀ i ∈ m.logDirs.map CpSetDirectory.id, i < n

namespace MediaStorage

variable {m m' : MediaStorage}

theorem Good.mono (h : Good n m) (hn : n ≤ k) : Good k m :=
  ⟨h.exact, h.nodup, fun i hi => lt_of_lt_of_le (h.lt i hi) hn⟩

theorem Good.sub (h : Good n m) (he : m'.Exact)
    (hs : (m'.logDirs.map CpSetDirectory.id).Sublist (m.logDirs.map CpSetDirectory.id)) :
    Good n m' :=
  ⟨he, h.nodup.sublist hs, fun i hi => h.lt i (hs.subset hi)⟩

theorem Good.of_dirs (h : Good n m) (hl : m'.logDirs = m.logDirs) (hz : m'.size = m.size) :
    Good n m' := by
  refine h.sub ?_ (by rw [hl])
  rw [MediaStorage.Exact, hl, hz]
  exact h.exact

theorem Good.insert (h : Good n m) (hs : s.Exact) (hid : s.id = n)
    (hp : (s :: m.logDirs).Perm m'.logDirs) (hz : m'.size = m.size + s.size) (hk : n < k) :
    Good k m' := by
  have hids := hp.map CpSetDirectory.id
  have hn : n ∉ m.logDirs.map CpSetDirectory.id := fun hm => lt_irrefl n (h.lt n hm)
  refine ⟨?_, ?_, ?_⟩
  · have ha := (h.exact.snoc hs).perm ((perm_append_singleton s m.logDirs).trans hp)
    rwa [← hz] at ha
  · rw [← hids.nodup_iff, map_cons, nodup_cons, hid]
    exact ⟨hn, h.nodup⟩
  intro i hi
  have hi := hids.mem_iff.mpr hi
  rw [map_cons, mem_cons, hid] at hi
  obtain rfl | hi := hi
  · exact hk
  · exact lt_trans (h.lt i hi) hk

theorem new_good (n : Nat) : Good n new := ⟨.nil, .nil, nofun⟩

theorem statSets_le (n : Nat) (l : Listing) (m : MediaStorage) : n ≤ (statSets n m l).2 := by
  induction l generalizing n m with
  | nil => exact le_refl n
  | cons e l ih =>
    obtain ⟨path, ds⟩ := e
    cases ds with
    | none => exact ih n m
    | some ds =>
      obtain ⟨-, -, hle⟩ := CpSetDirectory.statDirs_spec (s := ⟨n, path, [], 0⟩) (n + 1) ds .nil
      exact Nat.le_trans (Nat.le_of_succ_le hle) (ih _ _)

theorem init_le (h : m.init n l = some (m', k)) : n ≤ k := by
  obtain ⟨l, -, he⟩ := map_eq_some_iff.mp h
  cases he
  exact statSets_le n l m

theorem statSets_good (n : Nat) (l : Listing) (h : Good n m) :
    Good (statSets n m l).2 (statSets n m l).1 := by
  induction l generalizing n m with
  | nil => exact h
  | cons e l ih =>
    obtain ⟨path, ds⟩ := e
    cases ds with
    | none => exact ih n h
    | some ds =>
      obtain ⟨he, hid, hle⟩ := CpSetDirectory.statDirs_spec (s := ⟨n, path, [], 0⟩) (n + 1) ds .nil
      exact ih _ (h.insert he hid (insertSetAscending_perm _ _) rfl (Nat.lt_of_succ_le hle))

theorem init_good (h : Good n m) (hi : m.init n l = some (m', k)) : Good k m' := by
  obtain ⟨l, -, he⟩ := map_eq_some_iff.mp hi
  cases he
  have hg := statSets_good n l h
  exact ⟨hg.exact, hg.nodup, hg.lt⟩

theorem onDir_spec {g : CpDirectory → Option (CpDirectory × SizeCall × β)}
    (h : m.onDir id g = some (m', b)) :
    ∃ pre s post s' c, m.logDirs = pre ++ s :: post ∧ s.has id = true ∧
      (∀ x ∈ pre, x.has id = false) ∧ s.onDir id g = some (s', c, b) ∧
      m' = { m with logDirs := pre ++ s' :: post, size := c.apply m.size } := by
  obtain ⟨⟨l, c, b'⟩, ho, he⟩ := map_eq_some_iff.mp h
  cases he
  obtain ⟨pre, s, post, s', hl, hs, hpre, hg, rfl⟩ := onFirst_eq_some ho
  exact ⟨pre, s, post, s', c, hl, hs, hpre, hg, rfl⟩

theorem onDir_ids {g : CpDirectory → Option (CpDirectory × SizeCall × β)}
    (h : m.onDir id g = some (m', b)) :
    m'.logDirs.map CpSetDirectory.id = m.logDirs.map CpSetDirectory.id := by
  obtain ⟨pre, s, post, s', c, hl, -, -, hs, rfl⟩ := onDir_spec h
  simp [hl, CpSetDirectory.onDir_id hs]

theorem Good.onDir (h : Good n m) (hg : Told CpDirectory.size CpDirectory.Exact g)
    (ho : m.onDir id g = some (m', b)) : Good n m' := by
  refine h.sub ?_ (by rw [onDir_ids ho])
  obtain ⟨⟨l, c, b'⟩, hl, he⟩ := map_eq_some_iff.mp ho
  cases he
  exact ((CpSetDirectory.onDir_told id hg).onFirst h.exact hl).1

theorem onCurSet_spec (h : m.onCurSet g = some (m', b)) :
    ∃ pre s post, m.logDirs = pre ++ s :: post ∧ m.curSet = some s.id ∧
      (∀ x ∈ pre, x.id ≠ s.id) ∧ b = (g s).2 ∧
      m' = { m with logDirs := pre ++ (g s).1 :: post } := by
  obtain ⟨c, hc, h⟩ := bind_eq_some_iff.mp h
  obtain ⟨⟨l, b'⟩, ho, he⟩ := map_eq_some_iff.mp h
  cases he
  obtain ⟨pre, s, post, s', hl, hs, hpre, hg, rfl⟩ := onFirst_eq_some ho
  obtain rfl := of_decide_eq_true hs
  obtain ⟨rfl, rfl⟩ := Prod.mk.inj (Option.some.inj hg)
  exact ⟨pre, s, post, hl, hc, fun x hx => of_decide_eq_false (hpre x hx), rfl, rfl⟩

theorem Good.onCurSet {g : CpSetDirectory → CpSetDirectory × β} (h : Good n m)
    (hg : ∀ s, m.curSet = some s.id → s ∈ m.logDirs → CpSetDirectory.Same s (g s).1)
    (ho : m.onCurSet g = some (m', b)) : Good n m' := by
  obtain ⟨pre, s, post, hl, hc, -, -, rfl⟩ := onCurSet_spec ho
  have hmem : s ∈ m.logDirs := by
    rw [hl]
    exact mem_append_cons_self
  have hs := hg s hc hmem
  refine h.sub ?_ ?_
  · have he := h.exact
    rw [Exact, hl] at he
    have hle := he.le
    have hr := he.replace (hs.exact (h.exact.all s hmem))
    rwa [hs.size, Nat.sub_add_cancel hle] at hr
  · simp only [hl, map_append, map_cons, hs.id]
    exact .refl _

theorem Good.createCpSet (h : Good n m) (now : Option FileTime) (mkdir : Bool) :
    Good (n + 1) (m.createCpSet n now mkdir) := by
  cases now with
  | none => exact h.mono (Nat.le_succ n)
  | some lt =>
    cases mkdir with
    | false => exact h.mono (Nat.le_succ n)
    | true =>
      exact h.insert (s := ⟨n, lt.text '-', [], 0⟩) .nil rfl
        (perm_append_singleton _ _).symm rfl (Nat.lt_succ_self n)

theorem Good.trimOthers (h : Good n m) (unlink : Nat → Bool) (skip : CpSetDirectory → Bool)
    (sz : Nat) :
    let r := trimEach skip (CpSetDirectory.trim unlink) CpSetDirectory.empty sz m.logDirs
    Good n { m with logDirs := r.1, size := m.size - r.2.1 } := by
  obtain ⟨hall, hsum⟩ := trimEach_sum (t := CpSetDirectory.trim unlink) skip
    (fun sz _ hs => CpSetDirectory.trim_exact unlink sz hs)
    (fun s hs he => CpSetDirectory.empty_size hs he) sz m.logDirs h.exact.all
  have htot := h.exact.total
  refine h.sub ⟨by dsimp only; omega, hall⟩ ?_
  exact trimEach_sublist (fun _ _ => rfl) sz m.logDirs

theorem Good.trim (h : Good n m) (ht : m.trim unlink renamed sz = some (m', dec)) : Good n m' := by
  have ho := h.trimOthers unlink (fun s => m.curSet = some s.id) sz
  rw [MediaStorage.trim] at ht
  split at ht
  · cases ht
    exact ho
  obtain ⟨⟨m₁, d⟩, hc, he⟩ := map_eq_some_iff.mp ht
  cases he
  obtain ⟨pre, s, post, hl, -, -, rfl, rfl⟩ := onCurSet_spec hc
  have he := ho.exact
  rw [Exact, hl] at he
  have hs := he.all s (mem_append_cons_self)
  obtain ⟨hx, hz⟩ := CpSetDirectory.trimWorkingDir_exact unlink renamed
    (trimEach (fun s => m.curSet = some s.id) (CpSetDirectory.trim unlink)
      CpSetDirectory.empty sz m.logDirs).2.2 hs
  refine ho.sub ?_ ?_
  · have hr := he.replace hx
    have hle := he.le
    dsimp only at hr hle ⊢
    rw [Exact]
    convert hr using 1
    dsimp only
    omega
  · dsimp only at hl ⊢
    rw [hl, map_append, map_append]
    exact .refl _

theorem Good.checkQuota (h : Good n m)
    (hq : m.checkQuota unlink renamed = some (m', b)) : Good n m' := by
  rw [MediaStorage.checkQuota] at hq
  split at hq
  · cases hq
    exact h
  split at hq
  · cases hq
    exact h
  · obtain ⟨⟨m₁, d⟩, ht, he⟩ := map_eq_some_iff.mp hq
    cases he
    exact h.trim ht

theorem Good.processDiskFull (h : Good n m)
    (hq : m.processDiskFull unlink renamed = some (m', b)) : Good n m' := by
  rw [MediaStorage.processDiskFull] at hq
  split at hq
  · cases hq
    exact h
  · obtain ⟨⟨m₁, d⟩, ht, he⟩ := map_eq_some_iff.mp hq
    cases he
    exact h.trim ht

theorem clear_good (n : Nat) (m : MediaStorage) : Good n m.clear := ⟨.nil, .nil, nofun⟩

structure GoodButCur (n : Nat) (m : MediaStorage) : Prop where
  total : m.size = (m.logDirs.map CpSetDirectory.size).sum
  others : ∀ s ∈ m.logDirs, m.curSet = some s.id ∨ s.Exact
  nodup : (m.logDirs.map CpSetDirectory.id).Nodup
  lt : ∀ i ∈ m.logDirs.map CpSetDirectory.id, i < n

theorem GoodButCur.dropCurSet (h : GoodButCur n m) (hd : m.dropCurSet = some m') : Good n m' := by
  obtain ⟨c, hc, hd⟩ := bind_eq_some_iff.mp hd
  obtain ⟨s, hs, rfl⟩ := map_eq_some_iff.mp hd
  obtain ⟨hp, pre, post, hl, hpre⟩ := find?_eq_some_iff_append.mp hs
  obtain rfl := of_decide_eq_true hp
  have he : (m.logDirs.eraseP fun t => decide (t.id = s.id)) = pre ++ post := by
    rw [hl, eraseP_append_right _ (fun t ht => by simpa using hpre t ht),
      eraseP_cons_of_pos (p := fun t : CpSetDirectory => decide (t.id = s.id)) hp]
  have hn := h.nodup
  rw [hl, map_append, map_cons, nodup_middle, nodup_cons, ← map_append] at hn
  have hmem : ∀ t ∈ pre ++ post, t ∈ m.logDirs := by
    intro t ht
    rw [hl, perm_middle.mem_iff]
    exact mem_cons_of_mem s ht
  refine ⟨⟨?_, ?_⟩, ?_, ?_⟩
  · have ht := h.total
    rw [hl, map_append, map_cons, sum_append, sum_cons] at ht
    dsimp only
    rw [he, map_append, sum_append]
    omega
  · dsimp only
    rw [he]
    intro t ht
    apply (h.others t (hmem t ht)).resolve_left
    intro htc
    rw [hc] at htc
    apply hn.1
    rw [Option.some.inj htc]
    exact mem_map_of_mem ht
  · dsimp only
    rw [he]
    exact hn.2
  rw [he]
  intro i hi
  obtain ⟨t, ht, rfl⟩ := mem_map.mp hi
  exact h.lt t.id (mem_map_of_mem (hmem t ht))

theorem Good.butCur (h : Good n m) : GoodButCur n m :=
  ⟨h.exact.total, fun s hs => .inr (h.exact.all s hs), h.nodup, h.lt⟩

theorem GoodButCur.onDir {g : CpDirectory → Option (CpDirectory × SizeCall × β)}
    (h : GoodButCur n m) (hg : Told CpDirectory.size CpDirectory.Exact g) (hq : Quiet g)
    (ho : m.onDir id g = some (m', b)) : GoodButCur n m' := by
  have hids := onDir_ids ho
  obtain ⟨pre, s, post, s', c, hl, -, -, hs, rfl⟩ := onDir_spec ho
  obtain rfl := CpSetDirectory.onDir_quiet id hq s s' c b hs
  have hid := CpSetDirectory.onDir_id hs
  have hz : s'.size = s.size := by
    obtain ⟨⟨l, c', b'⟩, ho, he⟩ := map_eq_some_iff.mp hs
    cases he
    rfl
  refine ⟨?_, ?_, ?_, ?_⟩
  · have ht := h.total
    rw [hl] at ht
    simp only [map_append, map_cons, hz] at ht ⊢
    exact ht
  · intro t ht
    obtain ht | ht := mem_append.mp ht
    · exact h.others t (by rw [hl]; exact mem_append_left _ ht)
    obtain rfl | ht := mem_cons.mp ht
    · rw [hid]
      refine (h.others s (by rw [hl]; exact mem_append_cons_self)).imp
        (fun hc => hc) fun he => ?_
      exact (CpSetDirectory.onDir_told id hg s t .none b he hs).1
    · exact h.others t (by
        rw [hl]
        exact mem_append_right _ (mem_cons_of_mem _ ht))
  · rw [hids]
    exact h.nodup
  · rw [hids]
    exact h.lt

end MediaStorage

end SprdVendor.SlogModem
