import SprdVendor.SlogModem.Sizes
import SprdVendor.SlogModem.Trim

namespace SprdVendor.SlogModem
open Lib List Option

theorem trimFiles_sublist (keep : LogFile → Bool) (unlink : Nat → Bool) (sz : Nat)
    (l : List LogFile) : (trimFiles keep unlink sz l).1.Sublist l := by
  induction l generalizing sz with
  | nil => exact .slnil
  | cons f l ih =>
    rw [trimFiles]
    split
    · exact (ih sz).cons_cons f
    split
    · exact .refl _
    split
    · exact sublist_cons_self f l
    · exact (ih _).cons f

theorem mem_trimFiles (hk : keep f = true) (hf : f ∈ l)
    (unlink : Nat → Bool) (sz : Nat) : f ∈ (trimFiles keep unlink sz l).1 := by
  induction l generalizing sz with
  | nil => cases hf
  | cons g l ih =>
    have htail (hg : keep g ≠ true) : f ∈ l := by
      obtain rfl | hf := mem_cons.mp hf
      · exact absurd hk hg
      · exact hf
    rw [trimFiles]
    split
    · obtain rfl | hf := mem_cons.mp hf
      · exact mem_cons_self
      · exact mem_cons_of_mem g (ih hf sz)
    rename_i hg
    split
    · exact hf
    split
    · exact htail hg
    · exact ih (htail hg) _

section TrimEach

variable (skip : α → Bool) (t : Nat → α → α × Nat) (empty : α → Bool)

variable {skip t empty} in
theorem mem_of_mem_trimEach (sz : Nat) (l : List α) (h : a' ∈ (trimEach skip t empty sz l).1) :
    ∃ a ∈ l, a' = a ∨ (skip a = false ∧ ∃ k, a' = (t k a).1) := by
  induction l generalizing sz with
  | nil => cases h
  | cons a l ih =>
    have htail {k : Nat} (h : a' ∈ (trimEach skip t empty k l).1) :
        ∃ b ∈ a :: l, a' = b ∨ (skip b = false ∧ ∃ k, a' = (t k b).1) := by
      obtain ⟨b, hb, h⟩ := ih k h
      exact ⟨b, mem_cons_of_mem a hb, h⟩
    have hhead (hs : ¬ skip a = true)
        (h : a' ∈ (if empty (t sz a).1 then [] else [(t sz a).1])) :
        ∃ b ∈ a :: l, a' = b ∨ (skip b = false ∧ ∃ k, a' = (t k b).1) := by
      split at h
      · cases h
      · exact ⟨a, mem_cons_self, .inr ⟨(Bool.not_eq_true _).mp hs, sz,
          mem_singleton.mp h⟩⟩
    rw [trimEach] at h
    split at h
    · obtain rfl | h := mem_cons.mp h
      · exact ⟨a', mem_cons_self, .inl rfl⟩
      · exact htail h
    rename_i hs
    dsimp only at h
    split at h
    · obtain h | h := mem_append.mp h
      · exact hhead hs h
      · exact ⟨a', mem_cons_of_mem a h, .inl rfl⟩
    · obtain h | h := mem_append.mp h
      · exact hhead hs h
      · exact htail h

theorem mem_trimEach (sz : Nat) (h : a ∈ l) :
    a ∈ (trimEach skip t empty sz l).1 ∨ (skip a = false ∧
      ∃ k, empty (t k a).1 = true ∨ (t k a).1 ∈ (trimEach skip t empty sz l).1) := by
  induction l generalizing sz with
  | nil => cases h
  | cons b l ih =>
    rw [trimEach]
    split
    · obtain rfl | h := mem_cons.mp h
      · exact .inl mem_cons_self
      · obtain h | ⟨hs, k, h⟩ := ih sz h
        · exact .inl (mem_cons_of_mem b h)
        · exact .inr ⟨hs, k, h.imp_right (mem_cons_of_mem b)⟩
    rename_i hs
    have hhead (l' : List α) : empty (t sz b).1 = true ∨
        (t sz b).1 ∈ (if empty (t sz b).1 then [] else [(t sz b).1]) ++ l' := by
      cases empty (t sz b).1 with
      | true => exact .inl rfl
      | false => exact .inr mem_cons_self
    dsimp only
    split
    · obtain rfl | h := mem_cons.mp h
      · exact .inr ⟨(Bool.not_eq_true _).mp hs, sz, hhead l⟩
      · exact .inl (mem_append_right _ h)
    obtain rfl | h := mem_cons.mp h
    · exact .inr ⟨(Bool.not_eq_true _).mp hs, sz, hhead _⟩
    · obtain h | ⟨hs, k, h⟩ := ih _ h
      · exact .inl (mem_append_right _ h)
      · exact .inr ⟨hs, k, h.imp_right (mem_append_right _)⟩

end TrimEach

namespace CpDirectory

structure Logs (d : CpDirectory) (id : Nat) : Prop where
  cur : d.curLog = some id
  has : d.has id = true

structure Moves (R Q : Nat → Prop) (d d' : CpDirectory) : Prop where
  name : d'.name = d.name
  has : ∀ id, d'.has id = true → d.has id = true ∨ R id
  logs : ∀ id, Q id → d.Logs id → d'.Logs id

variable {d d' : CpDirectory} {R Q : Nat → Prop} {id : Nat}

theorem has_iff : d.has id = true ↔ id ∈ d.logFiles.map LogFile.id := by
  rw [has, List.any_eq_true, List.mem_map]
  simp

theorem Moves.trans (h : Moves R Q d d₁) (h' : Moves R Q d₁ d') : Moves R Q d d' :=
  ⟨h'.name.trans h.name,
    fun id hid => (h'.has id hid).elim (h.has id) .inr,
    fun id hq hl => h'.logs id hq (h.logs id hq hl)⟩

theorem Moves.of_ids (hname : d'.name = d.name) (hcur : d'.curLog = d.curLog)
    (hids : d'.logFiles.map LogFile.id = d.logFiles.map LogFile.id) : Moves R Q d d' := by
  have hhas (id : Nat) : d'.has id = true ↔ d.has id = true := by rw [has_iff, has_iff, hids]
  exact ⟨hname, fun id hid => .inl ((hhas id).mp hid),
    fun id _ hl => ⟨hcur.trans hl.cur, (hhas id).mpr hl.has⟩⟩

theorem Moves.of_sublist (hname : d'.name = d.name) (hs : d'.logFiles.Sublist d.logFiles)
    (hl : ∀ id, Q id → d.Logs id → d'.Logs id) : Moves R Q d d' := by
  refine ⟨hname, fun id hid => .inl ?_, hl⟩
  rw [has_iff] at hid ⊢
  exact (hs.map LogFile.id).subset hid

theorem has_snoc (f : LogFile) (hl : d'.logFiles = d.logFiles ++ [f]) :
    d'.has id = true ↔ d.has id = true ∨ id = f.id := by
  rw [has_iff, has_iff, hl, map_append, mem_append, map_singleton, mem_singleton]

theorem Moves.of_snoc (hname : d'.name = d.name) (hf : d'.logFiles = d.logFiles ++ [f])
    (hr : R f.id) (hcur : ∀ id, Q id → d'.curLog = d.curLog) : Moves R Q d d' := by
  refine ⟨hname, fun id hid => ?_, fun id hq hl => ?_⟩
  · obtain h | rfl := (has_snoc f hf).mp hid
    · exact .inl h
    · exact .inr hr
  · exact ⟨(hcur id hq).trans hl.cur, (has_snoc f hf).mpr (.inl hl.has)⟩

theorem onFile_ids (hg : SameId g) (h : d.onFile id g = some (d', c, b)) :
    d'.logFiles.map LogFile.id = d.logFiles.map LogFile.id := by
  obtain ⟨⟨l, c', b'⟩, ho, he⟩ := map_eq_some_iff.mp h
  cases he
  obtain ⟨pre, f, post, f', hl, -, -, hf, rfl⟩ := onFirst_eq_some ho
  rw [hl, map_append, map_append, map_cons, map_cons, hg f f' c b hf]

theorem onFile_moves (hg : SameId g) (h : d.onFile id g = some (d', c, b)) : Moves R Q d d' := by
  have hids := onFile_ids hg h
  obtain ⟨⟨l, c', b'⟩, -, he⟩ := map_eq_some_iff.mp h
  cases he
  exact .of_ids rfl rfl hids

theorem createLogFile_moves (n : Nat) (now : Option FileTime) (opened : Bool) (d : CpDirectory) :
    Moves (· = n) (fun _ => False) d (d.createLogFile n now opened).1 := by
  cases now with
  | none => exact .of_ids rfl rfl rfl
  | some lt =>
    cases opened with
    | false => exact .of_ids rfl rfl rfl
    | true => exact .of_snoc rfl rfl rfl fun _ hq => hq.elim

theorem createLogFile_logs (h : (d.createLogFile n now opened).2 = some f) :
    f = n ∧ (d.createLogFile n now opened).1.Logs n := by
  cases now with
  | none => cases h
  | some lt =>
    cases opened with
    | false => cases h
    | true =>
      cases h
      refine ⟨rfl, rfl, has_iff.mpr ?_⟩
      show n ∈ (d.logFiles ++ [_]).map LogFile.id
      rw [map_append]
      exact mem_append_right _ mem_cons_self

theorem createFile_moves (n : Nat) (fname : Name) (t : LogType) (opened : Bool)
    (d : CpDirectory) : Moves (· = n) Q d (d.createFile n fname t opened).1 := by
  rw [createFile]
  split
  · exact .of_snoc rfl rfl rfl fun _ _ => rfl
  · exact .of_ids rfl rfl rfl

theorem id_rotate (f : LogFile) (r : Bool) : (f.rotate r).id = f.id := by
  rw [LogFile.rotate]
  split
  · rfl
  split <;> rfl

theorem rotate_ids (renamed : Nat → Bool) (d : CpDirectory) :
    (d.rotate renamed).logFiles.map LogFile.id = d.logFiles.map LogFile.id := by
  rw [rotate, List.map_map]
  apply map_congr_left
  intro f _
  show LogFile.id (if f.type = .log then f.rotate (renamed f.id) else f) = f.id
  split
  · exact id_rotate f _
  · rfl

theorem closeLogFile_ids (h : d.closeLogFile = some d') :
    d'.name = d.name ∧ d'.logFiles.map LogFile.id = d.logFiles.map LogFile.id := by
  obtain ⟨id, -, h⟩ := bind_eq_some_iff.mp h
  obtain ⟨⟨d₁, c, u⟩, hc, rfl⟩ := map_eq_some_iff.mp h
  have h₁ : Moves (fun _ => False) (fun _ => False) d d₁ := onFile_moves LogFile.close_call.same hc
  have hids := onFile_ids LogFile.close_call.same hc
  exact ⟨h₁.name, hids⟩

theorem takeOut_has (h : d.takeOut id₀ = some (f, rest)) (hl : d'.logFiles = rest)
    (hne : id ≠ id₀) (hid : d.has id = true) : d'.has id = true := by
  obtain ⟨f', -, he⟩ := map_eq_some_iff.mp h
  cases he
  obtain ⟨g, hg, rfl⟩ := mem_map.mp (has_iff.mp hid)
  rw [has_iff, hl]
  refine mem_map.mpr ⟨g, ?_, rfl⟩
  rw [mem_eraseP_of_neg]
  · exact hg
  · exact fun he => hne (of_decide_eq_true he)

theorem takeOut_moves (ht : d.takeOut id₀ = some (f, rest)) (hname : d'.name = d.name)
    (hcur : d'.curLog = d.curLog) (hl : d'.logFiles = rest) : Moves R (· ≠ id₀) d d' := by
  have hsub : d'.logFiles.Sublist d.logFiles := by
    obtain ⟨f', -, he⟩ := map_eq_some_iff.mp ht
    cases he
    exact hl ▸ eraseP_sublist
  refine .of_sublist hname hsub fun id hne hlog => ?_
  exact ⟨hcur.trans hlog.cur, takeOut_has ht hl hne hlog.has⟩

theorem remove_moves (id₀ : Nat) (d : CpDirectory) : Moves R (· ≠ id₀) d (d.remove id₀).1 := by
  rw [remove]
  split
  · exact .of_ids rfl rfl rfl
  · rename_i ht
    exact takeOut_moves ht rfl rfl rfl

theorem fileRemoved_moves (id₀ : Nat) (d : CpDirectory) :
    Moves R (· ≠ id₀) d (d.fileRemoved id₀).1 := by
  rw [fileRemoved]
  split
  · exact .of_ids rfl rfl rfl
  · rename_i ht
    exact takeOut_moves ht rfl rfl rfl

theorem trim_moves (unlink : Nat → Bool) (sz : Nat) (d : CpDirectory) :
    Moves R (fun _ => False) d (d.trim unlink sz).1 :=
  .of_sublist rfl (trimFiles_sublist _ _ _ _) fun _ hq => hq.elim

theorem renameStartLog_fixed (d : CpDirectory) (renamed : Nat → Bool) :
    (d.renameStartLog renamed).name = d.name ∧
      (d.renameStartLog renamed).startLog = d.startLog ∧
      (d.renameStartLog renamed).curLog = d.curLog ∧
      (d.renameStartLog renamed).logFiles.map LogFile.id = d.logFiles.map LogFile.id := by
  rw [renameStartLog]
  split
  · exact ⟨rfl, rfl, rfl, rfl⟩
  split
  · exact ⟨rfl, rfl, rfl, rfl⟩
  refine ⟨rfl, rfl, rfl, ?_⟩
  rw [List.map_map]
  apply List.map_congr_left
  intro f _
  rw [Function.comp_apply]
  split
  · exact id_changeNameNum f _ _
  · rfl

theorem renameStartLog_moves (renamed : Nat → Bool) (d : CpDirectory) :
    Moves R Q d (d.renameStartLog renamed) := by
  obtain ⟨hname, -, hcur, hids⟩ := renameStartLog_fixed d renamed
  exact .of_ids hname hcur hids

theorem trimWorkingDir_moves (unlink renamed : Nat → Bool) (sz : Nat) (d : CpDirectory) :
    Moves R Q d (d.trimWorkingDir unlink renamed sz).1 := by
  let d₁ := { d with
    logFiles := (trimFiles d.keeps unlink sz d.logFiles).1
    size := d.size - (trimFiles d.keeps unlink sz d.logFiles).2 }
  have h₁ : Moves R Q d d₁ := .of_sublist rfl (trimFiles_sublist _ _ _ _) ?_
  · exact h₁.trans (renameStartLog_moves renamed d₁)
  intro id _ hl
  refine ⟨hl.cur, ?_⟩
  obtain ⟨f, hf, rfl⟩ := mem_map.mp (has_iff.mp hl.has)
  have hk : d.keeps f = true := decide_eq_true (.inr (.inl hl.cur))
  exact has_iff.mpr (mem_map_of_mem (mem_trimFiles hk hf unlink sz))

theorem statFiles_has (n : Nat) (es : List Entry) (h : ∀ id, d.has id = true → id < n) :
    ∀ id, (statFiles n d es).has id = true → id < n + es.length := by
  induction es generalizing n d with
  | nil => exact h
  | cons e es ih =>
    intro id hid
    have hlt := ih (n + 1) (fun id hid => ?_) id hid
    · rw [length_cons]
      omega
    rw [has_iff, ((insertAscending_perm _ _).map LogFile.id).symm.mem_iff, map_cons,
      mem_cons] at hid
    obtain rfl | hid := hid
    · exact Nat.lt_succ_self _
    · exact Nat.lt_succ_of_lt (h id (has_iff.mpr hid))

end CpDirectory

namespace CpSetDirectory

def Place (s : CpSetDirectory) (name : Name) (id : Nat) : Prop :=
  ∃ d ∈ s.cpDirs, d.name = name ∧ d.has id = true

def Logs (s : CpSetDirectory) (name : Name) (id : Nat) : Prop :=
  ∃ d ∈ s.cpDirs, d.name = name ∧ d.Logs id

structure Moves (R Q : Name → Nat → Prop) (s s' : CpSetDirectory) : Prop where
  id : s'.id = s.id
  place : ∀ name id, s'.Place name id → s.Place name id ∨ R name id
  logs : ∀ name id, Q name id → s.Logs name id → s'.Logs name id

variable {s s' : CpSetDirectory} {R Q : Name → Nat → Prop}

theorem Logs.place {id : Nat} (h : s.Logs name id) : s.Place name id := by
  obtain ⟨d, hd, hn, hl⟩ := h
  exact ⟨d, hd, hn, hl.has⟩

theorem has_iff {id : Nat} : s.has id = true ↔ ∃ name, s.Place name id := by
  rw [has, List.any_eq_true]
  constructor
  · rintro ⟨d, hd, hid⟩
    exact ⟨d.name, d, hd, rfl, hid⟩
  · rintro ⟨name, d, hd, -, hid⟩
    exact ⟨d, hd, hid⟩

theorem Moves.refl (s : CpSetDirectory) : Moves R Q s s :=
  ⟨rfl, fun _ _ h => .inl h, fun _ _ _ h => h⟩

theorem Moves.trans (h : Moves R Q s s₁) (h' : Moves R Q s₁ s') : Moves R Q s s' :=
  ⟨h'.id.trans h.id,
    fun name id hp => (h'.place name id hp).elim (h.place name id) .inr,
    fun name id hq hl => h'.logs name id hq (h.logs name id hq hl)⟩

theorem Moves.mono (h : Moves R Q s s') (hR : ∀ name id, R name id → R' name id)
    (hQ : ∀ name id, Q' name id → Q name id) : Moves R' Q' s s' :=
  ⟨h.id, fun name id hp => (h.place name id hp).imp_right (hR name id),
    fun name id hq => h.logs name id (hQ name id hq)⟩

theorem Moves.dir (hid : s'.id = s.id) (hl : s.cpDirs = pre ++ d :: post)
    (hl' : s'.cpDirs = pre ++ d' :: post) (h : d.Moves (R d.name) (Q d.name) d') :
    Moves R Q s s' := by
  have hd : d ∈ s.cpDirs := hl ▸ mem_append_cons_self
  have hd' : d' ∈ s'.cpDirs := hl' ▸ mem_append_cons_self
  refine ⟨hid, ?_, ?_⟩
  · rintro name id ⟨x, hx, rfl, hhas⟩
    rw [hl'] at hx
    obtain hx | rfl := mem_replace d hx
    · exact .inl ⟨x, hl ▸ hx, rfl, hhas⟩
    · rw [h.name]
      exact (h.has id hhas).imp_left fun hh => ⟨d, hd, rfl, hh⟩
  rintro name id hq ⟨x, hx, rfl, hlog⟩
  rw [hl] at hx
  obtain hx | rfl := mem_replace d' hx
  · exact ⟨x, hl' ▸ hx, rfl, hlog⟩
  · exact ⟨d', hd', h.name, h.logs id hq hlog⟩

theorem onDir_moves (hg : ∀ d d' c b, d ∈ s.cpDirs → d.has id₀ = true → g d = some (d', c, b) →
      d.Moves (R d.name) (Q d.name) d') (h : s.onDir id₀ g = some (s', c, b)) : Moves R Q s s' := by
  obtain ⟨⟨l, c', b'⟩, ho, he⟩ := map_eq_some_iff.mp h
  cases he
  obtain ⟨pre, d, post, d', hl, hd, -, hgd, rfl⟩ := onFirst_eq_some ho
  exact .dir rfl hl rfl (hg d d' c b (hl ▸ mem_append_cons_self) hd hgd)

theorem createCpDir_moves (name : Name) (mkdir : Bool) (s : CpSetDirectory) :
    Moves R Q s (s.createCpDir name mkdir) := by
  rw [createCpDir]
  split
  · exact .refl s
  split
  · refine ⟨rfl, ?_, ?_⟩
    · rintro nm id ⟨d, hd, hn, hhas⟩
      obtain hd | hd := mem_append.mp hd
      · exact .inl ⟨d, hd, hn, hhas⟩
      · rw [mem_singleton.mp hd] at hhas
        cases hhas
    · rintro nm id - ⟨d, hd, hlog⟩
      exact ⟨d, mem_append_left _ hd, hlog⟩
  · exact .refl s

theorem inCpDir_moves
    (hg : ∀ d, CpDirectory.Moves (R name) (Q name) d (g d).1) (s : CpSetDirectory) :
    Moves R Q s (s.inCpDir name g).1 := by
  rw [inCpDir]
  split
  · rename_i r hr
    obtain ⟨pre, d, post, d', hl, hn, -, hgd, hl'⟩ := onFirst_eq_some hr
    obtain rfl := of_decide_eq_true hn
    refine .dir rfl hl hl' ?_
    rw [← show (g d).1 = d' from congrArg Prod.fst (Option.some.inj hgd)]
    exact hg d
  · exact .refl s

theorem inCpDir_logs (hg : ∀ d, (g d).2 = some f → f = n ∧ (g d).1.name = d.name ∧ (g d).1.Logs n)
    (h : (s.inCpDir name g).2 = some f) : f = n ∧ (s.inCpDir name g).1.Logs name n := by
  rw [inCpDir] at h ⊢
  split at h
  · rename_i r hr
    obtain ⟨pre, d, post, d', -, hn, -, hgd, hl'⟩ := onFirst_eq_some hr
    obtain ⟨hd, hf⟩ := Prod.mk.inj (Option.some.inj hgd)
    obtain ⟨he, hname, hlog⟩ := hg d (hf.trans h)
    rw [hd] at hname hlog
    refine ⟨he, d', ?_, hname.trans (of_decide_eq_true hn), hlog⟩
    rw [hl']
    exact mem_append_cons_self
  · cases h

abbrev Opens (name : Name) (n : Nat) (s s' : CpSetDirectory) : Prop :=
  Moves (fun nm id => nm = name ∧ id = n) (fun nm _ => nm ≠ name) s s'

theorem newLogFile_opens (n : Nat) (name : Name) (e : OpenEnv) (s : CpSetDirectory) :
    Opens name n s (s.newLogFile n name e).1 := by
  refine (createCpDir_moves name e.mkdir s).trans (inCpDir_moves (fun d => ?_) _)
  have h := CpDirectory.createLogFile_moves n e.now e.opened d
  exact ⟨h.name, fun id hid => (h.has id hid).imp_right fun he => ⟨rfl, he⟩,
    fun id hne => absurd rfl hne⟩

theorem newLogFile_logs (h : (s.newLogFile n name e).2 = some f) :
    f = n ∧ (s.newLogFile n name e).1.Logs name n := by
  refine inCpDir_logs (fun d hf => ?_) h
  obtain ⟨he, hlog⟩ := CpDirectory.createLogFile_logs hf
  exact ⟨he, (CpDirectory.createLogFile_moves n e.now e.opened d).name, hlog⟩

theorem createFile_moves (n : Nat) (name fname : Name) (t : LogType) (mkdir opened : Bool)
    (s : CpSetDirectory) :
    Moves (fun _ id => id = n) Q s (s.createFile n name fname t mkdir opened).1 :=
  (createCpDir_moves name mkdir s).trans
    (inCpDir_moves (fun d => CpDirectory.createFile_moves n fname t opened d) _)

theorem findCpDir_opens (n : Nat) (name : Name) (cpDir : Bool) (s : CpSetDirectory) :
    Opens name n s (s.findCpDir name cpDir).1 := by
  rw [findCpDir]
  split
  · exact .refl s
  split
  · exact .refl s
  refine ⟨rfl, ?_, ?_⟩
  · rintro nm id ⟨d, hd, h⟩
    exact .inl ⟨d, mem_of_mem_eraseP hd, h⟩
  rintro nm id hne ⟨d, hd, hn, hlog⟩
  refine ⟨d, ?_, hn, hlog⟩
  rw [dropCpDir, mem_eraseP_of_neg]
  · exact hd
  · rw [hn]
    exact fun he => hne (of_decide_eq_true he)

theorem recreateLogFile_opens (n : Nat) (name : Name) (cpDir : Bool) (e : OpenEnv)
    (s : CpSetDirectory) : Opens name n s (s.recreateLogFile n name cpDir e).1 :=
  (findCpDir_opens n name cpDir s).trans (newLogFile_opens n name e _)

theorem recreateLogFile_logs (h : (s.recreateLogFile n name cpDir e).2 = some (f, b)) :
    f = n ∧ (s.recreateLogFile n name cpDir e).1.Logs name n := by
  obtain ⟨f', hf, he⟩ := map_eq_some_iff.mp h
  cases he
  exact newLogFile_logs hf

theorem trim_moves (unlink : Nat → Bool) (sz : Nat) (s : CpSetDirectory) :
    Moves R (fun _ _ => False) s (s.trim unlink sz).1 := by
  refine ⟨rfl, ?_, fun _ _ hq => hq.elim⟩
  rintro name id ⟨d', hd', rfl, hhas⟩
  obtain ⟨d, hd, rfl | ⟨-, k, rfl⟩⟩ := mem_of_mem_trimEach sz s.cpDirs hd'
  · exact .inl ⟨_, hd, rfl, hhas⟩
  · have h := CpDirectory.trim_moves (R := R d.name) unlink k d
    refine (h.has id hhas).imp (fun hh => ⟨d, hd, h.name.symm, hh⟩) fun hr => ?_
    rwa [h.name]

theorem trimWorkingDir_moves (unlink renamed : Nat → Bool) (sz : Nat) (s : CpSetDirectory) :
    Moves R Q s (s.trimWorkingDir unlink renamed sz).1 := by
  have h (k : Nat) (d : CpDirectory) :=
    CpDirectory.trimWorkingDir_moves (R := R d.name) (Q := fun _ => True) unlink renamed k d
  refine ⟨rfl, ?_, ?_⟩
  · rintro name id ⟨d', hd', rfl, hhas⟩
    obtain ⟨d, hd, rfl | ⟨-, k, rfl⟩⟩ := mem_of_mem_trimEach sz s.cpDirs hd'
    · exact .inl ⟨_, hd, rfl, hhas⟩
    · refine ((h k d).has id hhas).imp (fun hh => ⟨d, hd, (h k d).name.symm, hh⟩) fun hr => ?_
      rwa [(h k d).name]
  rintro name id - ⟨d, hd, hn, hlog⟩
  obtain hd' | ⟨-, k, hd'⟩ := mem_trimEach (fun _ => false)
    (CpDirectory.trimWorkingDir unlink renamed) CpDirectory.empty sz hd
  · exact ⟨d, hd', hn, hlog⟩
  have hlog' := (h k d).logs id trivial hlog
  obtain he | hd' := hd'
  · have hhas := hlog'.has
    rw [CpDirectory.has, isEmpty_iff.mp he] at hhas
    cases hhas
  · exact ⟨_, hd', (h k d).name.trans hn, hlog'⟩

theorem statDirs_place (n : Nat) (l : SetListing) (h : ∀ name id, s.Place name id → id < n) :
    ∀ name id, (statDirs n s l).1.Place name id → id < (statDirs n s l).2 := by
  induction l generalizing n s with
  | nil => exact h
  | cons e l ih =>
    obtain ⟨nm, es⟩ := e
    cases es with
    | none => exact ih n h
    | some es =>
      refine ih (n + es.length) ?_
      rintro name id ⟨d, hd, hn, hhas⟩
      obtain hd | hd := mem_append.mp hd
      · exact Nat.lt_add_right _ (h name id ⟨d, hd, hn, hhas⟩)
      · rw [mem_singleton.mp hd] at hhas
        exact CpDirectory.statFiles_has n es (fun id hid => by cases hid) id hhas

end CpSetDirectory

namespace MediaStorage

def Place (m : MediaStorage) (set : Nat) (name : Name) (id : Nat) : Prop :=
  ∃ s ∈ m.logDirs, s.id = set ∧ s.Place name id

def Logs (m : MediaStorage) (name : Name) (id : Nat) : Prop :=
  ∃ s ∈ m.logDirs, m.curSet = some s.id ∧ s.Logs name id

structure Moves (R : Nat → Name → Nat → Prop) (Q : Name → Nat → Prop) (m m' : MediaStorage) :
    Prop where
  cur : m'.curSet = m.curSet
  place : ∀ set name id, m'.Place set name id → m.Place set name id ∨ R set name id
  logs : ∀ name id, Q name id → m.Logs name id → m'.Logs name id

variable {m m' : MediaStorage} {R : Nat → Name → Nat → Prop} {Q : Name → Nat → Prop} {id : Nat}

theorem has_iff : m.has id = true ↔ ∃ set name, m.Place set name id := by
  rw [has, List.any_eq_true]
  constructor
  · rintro ⟨s, hs, hid⟩
    obtain ⟨name, hp⟩ := CpSetDirectory.has_iff.mp hid
    exact ⟨s.id, name, s, hs, rfl, hp⟩
  · rintro ⟨set, name, s, hs, -, hp⟩
    exact ⟨s, hs, CpSetDirectory.has_iff.mpr ⟨name, hp⟩⟩

theorem Logs.place (h : m.Logs name id) : ∃ set, m.curSet = some set ∧ m.Place set name id := by
  obtain ⟨s, hs, hc, hl⟩ := h
  exact ⟨s.id, hc, s, hs, rfl, hl.place⟩

theorem Logs.has (h : m.Logs name id) : m.has id = true := by
  obtain ⟨set, -, hp⟩ := h.place
  exact has_iff.mpr ⟨set, name, hp⟩

theorem Moves.of_dirs (hl : m'.logDirs = m.logDirs) (hc : m'.curSet = m.curSet) :
    Moves R Q m m' := by
  refine ⟨hc, ?_, ?_⟩
  · rintro set name id ⟨s, hs, h⟩
    exact .inl ⟨s, hl ▸ hs, h⟩
  · rintro name id - ⟨s, hs, hcs, h⟩
    exact ⟨s, hl ▸ hs, hc.trans hcs, h⟩

theorem Moves.trans (h : Moves R Q m m₁) (h' : Moves R Q m₁ m') : Moves R Q m m' :=
  ⟨h'.cur.trans h.cur,
    fun set name id hp => (h'.place set name id hp).elim (h.place set name id) .inr,
    fun name id hq hl => h'.logs name id hq (h.logs name id hq hl)⟩

theorem Moves.set (hc : m'.curSet = m.curSet)
    (hl : m.logDirs = pre ++ s :: post) (hl' : m'.logDirs = pre ++ s' :: post)
    (h : s.Moves (R s.id) Q s') : Moves R Q m m' := by
  have hs : s ∈ m.logDirs := hl ▸ mem_append_cons_self
  have hs' : s' ∈ m'.logDirs := hl' ▸ mem_append_cons_self
  refine ⟨hc, ?_, ?_⟩
  · rintro set name id ⟨x, hx, rfl, hp⟩
    rw [hl'] at hx
    obtain hx | rfl := mem_replace s hx
    · exact .inl ⟨x, hl ▸ hx, rfl, hp⟩
    · rw [h.id]
      exact (h.place name id hp).imp_left fun hp => ⟨s, hs, rfl, hp⟩
  rintro name id hq ⟨x, hx, hcx, hlog⟩
  rw [hl] at hx
  obtain hx | rfl := mem_replace s' hx
  · exact ⟨x, hl' ▸ hx, hc.trans hcx, hlog⟩
  · exact ⟨s', hs', by rw [hc, hcx, h.id], h.logs name id hq hlog⟩

theorem onDir_moves (hg : ∀ d d' c b set, m.Place set d.name id₀ → g d = some (d', c, b) →
      d.Moves (R set d.name) (Q d.name) d')
    (h : m.onDir id₀ g = some (m', b)) : Moves R Q m m' := by
  obtain ⟨pre, s, post, s', c, hl, -, -, hs, rfl⟩ := onDir_spec h
  refine .set rfl hl rfl (CpSetDirectory.onDir_moves (fun d d' c b hd hhas hgd => ?_) hs)
  exact hg d d' c b s.id ⟨s, hl ▸ mem_append_cons_self, rfl, d, hd, rfl, hhas⟩ hgd

theorem onDir_logs (hg : ∀ d d' c set, m.Place set d.name id₀ → g d = some (d', c, b) →
      m.curSet = some set ∧ d'.name = name ∧ d'.Logs n)
    (h : m.onDir id₀ g = some (m', b)) : m'.Logs name n := by
  obtain ⟨pre, s, post, s', c, hl, -, -, hs, rfl⟩ := onDir_spec h
  have hid := CpSetDirectory.onDir_id hs
  obtain ⟨⟨l, c', b'⟩, ho, he⟩ := map_eq_some_iff.mp hs
  cases he
  obtain ⟨dirPre, d, dirPost, d', hdl, hd, -, hgd, rfl⟩ := onFirst_eq_some ho
  have hs : s ∈ m.logDirs := hl ▸ mem_append_cons_self
  have hdm : d ∈ s.cpDirs := hdl ▸ mem_append_cons_self
  obtain ⟨hc, hn, hlog⟩ := hg d d' c s.id ⟨s, hs, rfl, d, hdm, rfl, hd⟩ hgd
  exact ⟨_, mem_append_cons_self, hc, d', mem_append_cons_self, hn, hlog⟩

theorem onCurSet_moves {g : CpSetDirectory → CpSetDirectory × β}
    (hg : ∀ s : CpSetDirectory, m.curSet = some s.id → s.Moves (R s.id) Q (g s).1)
    (h : m.onCurSet g = some (m', b)) : Moves R Q m m' := by
  obtain ⟨pre, s, post, hl, hc, -, -, rfl⟩ := onCurSet_spec h
  exact .set rfl hl rfl (hg s hc)

theorem onCurSet_logs {g : CpSetDirectory → CpSetDirectory × β}
    (hid : ∀ s, (g s).1.id = s.id) (hg : ∀ s, (g s).2 = b → (g s).1.Logs name n)
    (h : m.onCurSet g = some (m', b)) : m'.Logs name n := by
  obtain ⟨pre, s, post, hl, hc, -, rfl, rfl⟩ := onCurSet_spec h
  exact ⟨(g s).1, mem_append_cons_self, hc.trans (by rw [hid s]), hg s rfl⟩

theorem trim_moves {unlink renamed : Nat → Bool}
    (h : m.trim unlink renamed sz = some (m', dec)) : Moves R Q m m' := by
  rw [trim] at h
  generalize hr : trimEach (fun s => m.curSet = some s.id) (CpSetDirectory.trim unlink)
    CpSetDirectory.empty sz m.logDirs = r at h
  have ho : Moves R Q m { m with logDirs := r.1, size := m.size - r.2.1 } := by
    refine ⟨rfl, ?_, ?_⟩
    · rintro set name id ⟨s', hs', rfl, hp⟩
      rw [← hr] at hs'
      obtain ⟨s, hs, rfl | ⟨-, k, rfl⟩⟩ := mem_of_mem_trimEach sz m.logDirs hs'
      · exact .inl ⟨_, hs, rfl, hp⟩
      · have ht := CpSetDirectory.trim_moves (R := R s.id) unlink k s
        exact (ht.place name id hp).imp_left fun hp => ⟨s, hs, rfl, hp⟩
    rintro name id - ⟨s, hs, hc, hlog⟩
    refine ⟨s, ?_, hc, hlog⟩
    rw [← hr]
    obtain hs' | ⟨hskip, -⟩ := mem_trimEach (fun s => decide (m.curSet = some s.id))
      (CpSetDirectory.trim unlink) CpSetDirectory.empty sz hs
    · exact hs'
    · exact absurd hc (of_decide_eq_false hskip)
  split at h
  · cases h
    exact ho
  obtain ⟨⟨m₁, d⟩, hc, he⟩ := map_eq_some_iff.mp h
  cases he
  refine ho.trans ((onCurSet_moves (fun s _ => ?_) hc).trans (.of_dirs rfl rfl))
  exact CpSetDirectory.trimWorkingDir_moves unlink renamed _ s

def OverQuota (m : MediaStorage) : Prop := m.limit ≠ 0 ∧ m.limit < m.size ∧ m.overwrite = true

theorem checkQuota_cases (h : m.checkQuota unlink renamed = some (m', b)) :
    m' = m ∨ (m.OverQuota ∧ ∃ dec, m.trim unlink renamed (m.size - m.limit) = some (m', dec)) := by
  rw [checkQuota] at h
  split at h
  · cases h
    exact .inl rfl
  rename_i hq
  rw [not_or, not_le] at hq
  split at h
  · cases h
    exact .inl rfl
  rename_i ho
  obtain ⟨⟨m₁, dec⟩, ht, he⟩ := map_eq_some_iff.mp h
  cases he
  exact .inr ⟨⟨hq.1, hq.2, (Bool.not_eq_false _).mp ho⟩, dec, ht⟩

theorem processDiskFull_cases (h : m.processDiskFull unlink renamed = some (m', b)) :
    m' = m ∨ (m.overwrite = true ∧ ∃ dec, m.trim unlink renamed m.fileLimit = some (m', dec)) := by
  rw [processDiskFull] at h
  split at h
  · cases h
    exact .inl rfl
  rename_i ho
  obtain ⟨⟨m₁, dec⟩, ht, he⟩ := map_eq_some_iff.mp h
  cases he
  exact .inr ⟨(Bool.not_eq_false _).mp ho, dec, ht⟩

theorem checkQuota_moves (h : m.checkQuota unlink renamed = some (m', b)) : Moves R Q m m' := by
  obtain rfl | ⟨-, dec, ht⟩ := checkQuota_cases h
  · exact .of_dirs rfl rfl
  · exact trim_moves ht

theorem processDiskFull_moves
    (h : m.processDiskFull unlink renamed = some (m', b)) : Moves R Q m m' := by
  obtain rfl | ⟨-, dec, ht⟩ := processDiskFull_cases h
  · exact .of_dirs rfl rfl
  · exact trim_moves ht

/-- The files `P` of the log writers: on the current media they are the current logs of their CPs,
and they are nowhere else. -/
structure Owned (n : Nat) (P : Name → Nat → Prop) (cur : Prop) (m : MediaStorage) : Prop where
  fresh : ∀ set name id, m.Place set name id → id < n
  only : ∀ name id, P name id → ∀ set nm, m.Place set nm id →
    cur ∧ m.curSet = some set ∧ nm = name
  logs : cur → ∀ name id, P name id → m.Logs name id

variable {P : Name → Nat → Prop} {cur : Prop}

theorem Owned.mono (h : Owned n P cur m) (hn : n ≤ k)
    (hP : ∀ name id, P' name id → P name id) : Owned k P' cur m :=
  ⟨fun set name id hp => lt_of_lt_of_le (h.fresh set name id hp) hn,
    fun name id hp => h.only name id (hP name id hp),
    fun hc name id hp => h.logs hc name id (hP name id hp)⟩

theorem Owned.moves (h : Owned n P cur m) (hm : Moves R Q m m')
    (hP : ∀ name id, P name id → id < n ∧ Q name id)
    (hR : ∀ set name id, R set name id → n ≤ id ∧ id < k) (hn : n ≤ k) : Owned k P cur m' := by
  refine ⟨?_, ?_, ?_⟩
  · intro set name id hp
    obtain hp | hr := hm.place set name id hp
    · exact lt_of_lt_of_le (h.fresh set name id hp) hn
    · exact (hR set name id hr).2
  · intro name id hid set nm hp
    rw [hm.cur]
    obtain hp | hr := hm.place set nm id hp
    · exact h.only name id hid set nm hp
    · exact absurd (hP name id hid).1 (not_lt.mpr (hR set nm id hr).1)
  · intro hc name id hid
    exact hm.logs name id (hP name id hid).2 (h.logs hc name id hid)

theorem Owned.add (h : Owned (n + 1) P cur m)
    (honly : ∀ set nm, m.Place set nm n → cur ∧ m.curSet = some set ∧ nm = name)
    (hl : cur → m.Logs name n) :
    Owned (n + 1) (fun nm id => P nm id ∨ nm = name ∧ id = n) cur m := by
  refine ⟨h.fresh, ?_, ?_⟩
  · rintro nm id (hid | ⟨rfl, rfl⟩) set nm' hp
    · exact h.only nm id hid set nm' hp
    · exact honly set nm' hp
  · rintro hc nm id (hid | ⟨rfl, rfl⟩)
    · exact h.logs hc nm id hid
    · exact hl hc

theorem statSets_fresh (n : Nat) (l : Listing) (h : ∀ set name id, m.Place set name id → id < n) :
    ∀ set name id, (statSets n m l).1.Place set name id → id < (statSets n m l).2 := by
  induction l generalizing n m with
  | nil => exact h
  | cons e l ih =>
    obtain ⟨path, ds⟩ := e
    cases ds with
    | none => exact ih n h
    | some ds =>
      refine ih _ ?_
      rintro set name id ⟨s, hs, hid, hp⟩
      obtain ⟨-, -, hle⟩ := CpSetDirectory.statDirs_spec (s := ⟨n, path, [], 0⟩) (n + 1) ds .nil
      obtain rfl | hs := mem_cons.mp ((insertSetAscending_perm _ _).mem_iff.mpr hs)
      · refine CpSetDirectory.statDirs_place (n + 1) ds ?_ name id hp
        rintro name id ⟨d, hd, -⟩
        cases hd
      · have hlt := h set name id ⟨s, hs, hid, hp⟩
        omega

theorem Owned.idle (h : ∀ set name id, m.Place set name id → id < n)
    (hP : ∀ name id, ¬ P name id) : Owned n P cur m :=
  ⟨h, fun name id hid => absurd hid (hP name id), fun _ name id hid => absurd hid (hP name id)⟩

theorem Owned.init (h : Owned n P₀ cur₀ m) (hi : m.init n l = some (m', k))
    (hP : ∀ name id, ¬ P name id) : Owned k P cur m' := by
  obtain ⟨l, -, he⟩ := map_eq_some_iff.mp hi
  cases he
  exact .idle (statSets_fresh n l h.fresh) hP

theorem createCpSet_place {set : Nat} (h : (m.createCpSet n now mkdir).Place set name id) :
    m.Place set name id := by
  cases now with
  | none => exact h
  | some lt =>
    cases mkdir with
    | false => exact h
    | true =>
      obtain ⟨s, hs, hid, d, hd, hp⟩ := h
      obtain hs | hs := mem_append.mp hs
      · exact ⟨s, hs, hid, d, hd, hp⟩
      · rw [mem_singleton.mp hs] at hd
        cases hd

theorem dropCurSet_place {set : Nat} (hd : m.dropCurSet = some m') (h : m'.Place set name id) :
    m.Place set name id := by
  obtain ⟨c, -, hd⟩ := bind_eq_some_iff.mp hd
  obtain ⟨s, -, rfl⟩ := map_eq_some_iff.mp hd
  obtain ⟨s, hs, h⟩ := h
  exact ⟨s, mem_of_mem_eraseP hs, h⟩

end MediaStorage

end SprdVendor.SlogModem
