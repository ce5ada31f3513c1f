import SprdVendor.Lib.Run
import SprdVendor.Lib.Text
import SprdVendor.SlogModem.CurLogs
import SprdVendor.SlogModem.ParseNumber

namespace SprdVendor.SlogModem
open Lib List Option

def Headed (n : Nat) (name : Name) : Prop := ∃ rest, name = Nat.toDigits 10 n ++ '-' :: rest

def renumbered (g : Nat → Nat) (name : Name) : Name :=
  match parseLogFileNum name with
  | none => name
  | some (num, len) => Nat.toDigits 10 (g num) ++ name.drop len

theorem parseLogFileNum_headed (hn : n < 2 ^ 32) (rest : Name) :
    parseLogFileNum (Nat.toDigits 10 n ++ '-' :: rest) =
      some (n, (Nat.toDigits 10 n).length) := by
  have hds : ∀ c ∈ Nat.toDigits 10 n, c.isDigit = true := by
    intro c hc
    obtain ⟨d, hd, rfl⟩ := exists_digit_of_mem_toDigits (by decide) hc
    exact (isDigit_digitChar d hd).1
  have hval : ofDigits 10 (Nat.toDigits 10 n) = n := ofDigits_toDigits (by decide) (by decide)
  have hfixed : parseFixed (Nat.toDigits 10 n) 0 = some n := by
    rw [(parseFixed_iff hds).2 (.inl (by rwa [hval])), hval, fits32, if_pos hn]
  have hne : Nat.toDigits 10 n ≠ [] := ne_nil_of_length_pos Nat.length_toDigits_pos
  rw [parseLogFileNum, parseNumber_eq hds hne rfl, hfixed, map_some, bind_some, if_pos]
  rw [getElem?_append_right le_rfl, Nat.sub_self]
  rfl

theorem Headed.parse (h : Headed n name) (hn : n < 2 ^ 32) :
    (parseLogFileNum name).map Prod.fst = some n := by
  obtain ⟨rest, rfl⟩ := h
  rw [parseLogFileNum_headed hn, map_some]

theorem Headed.renumbered (h : Headed n name) (hn : n < 2 ^ 32) (g : Nat → Nat) :
    Headed (g n) (renumbered g name) := by
  obtain ⟨rest, rfl⟩ := h
  refine ⟨rest, ?_⟩
  rw [SlogModem.renumbered, parseLogFileNum_headed hn]
  exact congrArg _ drop_left

theorem baseName_rotate (f : LogFile) :
    (f.rotate true).baseName = renumbered (fun n => (n + 1) % 2 ^ 32) f.baseName := by
  rw [LogFile.rotate, renumbered]
  cases parseLogFileNum f.baseName with
  | _ => rfl

theorem baseName_changeNameNum (f : LogFile) (hf : Headed n f.baseName) (hn : n < 2 ^ 32)
    (num : Nat) : (f.changeNameNum num true).baseName = renumbered (fun _ => num) f.baseName := by
  obtain ⟨rest, hf⟩ := hf
  rw [LogFile.changeNameNum, renumbered, hf, parseLogFileNum_headed hn]
  by_cases heq : num = n
  · simp [heq, hf]
  · simp [heq, LogFile.renumber, hf]

def countdown : Nat → List Nat
  | 0 => []
  | n + 1 => n :: countdown n

theorem countdown_succ (n : Nat) : countdown (n + 1) = (countdown n).map (· + 1) ++ [0] := by
  induction n with
  | zero => rfl
  | succ n ih => exact congrArg ((n + 1) :: ·) ih

theorem lt_of_mem_countdown (h : i ∈ countdown n) : i < n := by
  induction n with
  | zero => cases h
  | succ n ih =>
    obtain rfl | h := mem_cons.1 h
    · exact Nat.lt_succ_self i
    · exact (ih h).trans (Nat.lt_succ_self n)

theorem forall₂_countdown_suffix (h : List.Forall₂ R u (countdown n)) (ht : t <:+ u) :
    ∃ j ≤ n, List.Forall₂ R t (countdown j) := by
  induction u generalizing n with
  | nil =>
    rw [suffix_nil.1 ht]
    exact ⟨0, Nat.zero_le n, .nil⟩
  | cons a u ih =>
    cases n with
    | zero => cases h
    | succ n =>
      obtain rfl | ht := suffix_cons_iff.1 ht
      · exact ⟨n + 1, le_rfl, h⟩
      · obtain ⟨j, hj, hnum⟩ := ih (forall₂_cons.1 h).2 ht
        exact ⟨j, by omega, hnum⟩

theorem forall₂_imp_mem (h : List.Forall₂ R l m)
    (himp : ∀ a, ∀ b ∈ m, R a b → S a b) : List.Forall₂ S l m := by
  induction h with
  | nil => exact .nil
  | cons hab _ ih =>
    exact .cons (himp _ _ mem_cons_self hab)
      (ih fun a b hb => himp a b (mem_cons_of_mem _ hb))

inductive LogOp where
  | create (id : Nat) (lt : FileTime)
  | createFile (id : Nat) (fname : Name) (t : LogType)
  | write (id len : Nat) (k : Kernel)
  | rotate (id : Nat) (lt : FileTime)
  | trimWorkingDir (sz : Nat)
  | renameStartLog
  | recreate (id : Nat) (lt : FileTime)

namespace CpDirectory

variable {d d' : CpDirectory} {id : Nat}

def logs (d : CpDirectory) : List (Nat × Name) :=
  (d.logFiles.filter (·.type = .log)).map fun f => (f.id, f.baseName)

def newLog (id : Nat) (lt : FileTime) (d : CpDirectory) : Option CpDirectory :=
  if d.has id then none else some (d.createLogFile id (some lt) true).1

/-- One operation, where `rename`, `unlink` and `open` succeed. The log is rotated and created again
when it is full, and created again when it has been removed. -/
def next (d : CpDirectory) : LogOp → Option CpDirectory
  | .create id lt => d.newLog id lt
  | .createFile id fname t =>
    if d.has id ∨ t = .log then none else some (d.createFile id fname t true).1
  | .write id len k => (d.onFile id fun f => f.write len k).map Prod.fst
  | .rotate id lt => d.closeLogFile.bind fun d => (d.rotate fun _ => true).newLog id lt
  | .trimWorkingDir sz => some (d.trimWorkingDir (fun _ => true) (fun _ => true) sz).1
  | .renameStartLog => some (d.renameStartLog fun _ => true)
  | .recreate id lt => d.curLog.bind fun cur =>
    (d.onFile cur fun f => some (f.close, .none, ())).bind fun r =>
      (r.1.fileRemoved cur).1.newLog id lt

def IdsNodup (d : CpDirectory) : Prop := (d.logFiles.map LogFile.id).Nodup

theorem IdsNodup.logs (h : d.IdsNodup) : (d.logs.map Prod.fst).Nodup := by
  rw [CpDirectory.logs, List.map_map]
  exact h.sublist (filter_sublist.map _)

theorem newLog_spec (h : d.newLog id lt = some d') (hids : d.IdsNodup) :
    ∃ name, Headed 0 name ∧ d'.logs = d.logs ++ [(id, name)] ∧ d'.IdsNodup ∧
      d'.startLog = (if d.logs = [] then some id else d.startLog) ∧ d'.curLog = some id := by
  rw [newLog] at h
  split at h
  · cases h
  case isFalse hfresh =>
    cases h
    refine ⟨['0'] ++ '-' :: (d.name ++ '-' :: lt.text '_' ++ ['.', 'l', 'o', 'g']).take 61,
      ⟨_, rfl⟩, ?_, ?_, ?_, rfl⟩
    · simp only [CpDirectory.logs, createLogFile, if_true, filter_append, map_append]
      rfl
    · have hnew : id ∉ d.logFiles.map LogFile.id := fun hmem => hfresh (has_iff.2 hmem)
      simp only [IdsNodup, createLogFile, if_true, map_append]
      exact hids.append (nodup_singleton id) (disjoint_singleton.2 hnew)
    · have hnum : d.getFileTypeNum .log = 0 ↔ d.logs = [] := by
        rw [getFileTypeNum, CpDirectory.logs, map_eq_nil_iff, length_eq_zero_iff]
      simp [createLogFile, hnum]

def SameName (g : LogFile → Option (LogFile × SizeCall × β)) : Prop :=
  ∀ f f' c b, g f = some (f', c, b) → f'.id = f.id ∧ f'.type = f.type ∧ f'.baseName = f.baseName

theorem onFile_logs (hg : SameName g) (h : d.onFile id g = some (d', c, b)) :
    d'.logs = d.logs ∧ (d.IdsNodup → d'.IdsNodup) ∧ d'.startLog = d.startLog ∧
      d'.curLog = d.curLog := by
  obtain ⟨⟨l, c', b'⟩, ho, he⟩ := map_eq_some_iff.mp h
  cases he
  obtain ⟨pre, f, post, f', hl, -, -, hf, rfl⟩ := onFirst_eq_some ho
  obtain ⟨hid, htype, hname⟩ := hg f f' _ _ hf
  refine ⟨?_, ?_, rfl, rfl⟩
  · simp only [CpDirectory.logs, hl, filter_append, filter_cons, htype, map_append]
    split
    · simp [hid, hname]
    · rfl
  · intro hids
    simpa only [IdsNodup, hl, map_append, map_cons, hid] using hids

theorem sameName_close : SameName fun f => some (f.close, .none, ()) := by
  intro f f' c b h
  cases h
  rw [LogFile.close]
  split
  · exact ⟨rfl, rfl, rfl⟩
  · exact ⟨rfl, rfl, rfl⟩

theorem sameName_write (len : Nat) (k : Kernel) : SameName fun f => f.write len k := by
  intro f f' c b h
  dsimp only at h
  rw [LogFile.write] at h
  split at h
  · cases h
    exact ⟨rfl, rfl, rfl⟩
  split at h
  · cases h
    exact ⟨rfl, rfl, rfl⟩
  split at h
  · obtain ⟨n, -, h⟩ := map_eq_some_iff.1 h
    split at h
    · cases h
      exact ⟨rfl, rfl, rfl⟩
    split at h
    · cases h
      exact ⟨rfl, rfl, rfl⟩
    · cases h
      exact ⟨rfl, rfl, rfl⟩
  · obtain ⟨n, -, h⟩ := map_eq_some_iff.1 h
    split at h
    · cases h
      exact ⟨rfl, rfl, rfl⟩
    · cases h
      exact ⟨rfl, rfl, rfl⟩

theorem closeLogFile_logs (h : d.closeLogFile = some d') :
    d'.logs = d.logs ∧ (d.IdsNodup → d'.IdsNodup) ∧ d'.startLog = d.startLog := by
  obtain ⟨cur, -, h⟩ := bind_eq_some_iff.mp h
  obtain ⟨⟨d₁, c, u⟩, hc, rfl⟩ := map_eq_some_iff.mp h
  obtain ⟨hlogs, hids, hstart, -⟩ := onFile_logs sameName_close hc
  exact ⟨hlogs, hids, hstart⟩

theorem type_rotate (f : LogFile) (r : Bool) : (f.rotate r).type = f.type := by
  rw [LogFile.rotate]
  split
  · rfl
  split
  · rfl
  · rfl

theorem logs_map
    (hd : d'.logFiles = d.logFiles.map g) (hg : ∀ f, (g f).id = f.id ∧ (g f).type = f.type)
    (hh : ∀ f ∈ d.logFiles, f.type = .log → (f.id, (g f).baseName) = h (f.id, f.baseName)) :
    d'.logs = d.logs.map h := by
  have htype : ((fun f : LogFile => decide (f.type = .log)) ∘ g) = fun f => decide (f.type = .log) :=
    funext fun f => by rw [Function.comp_apply, (hg f).2]
  rw [CpDirectory.logs, CpDirectory.logs, hd, List.filter_map, htype, List.map_map, List.map_map]
  apply List.map_congr_left
  intro f hf
  obtain ⟨hmem, hlog⟩ := List.mem_filter.1 hf
  rw [Function.comp_apply, Function.comp_apply, (hg f).1]
  exact hh f hmem (of_decide_eq_true hlog)

theorem rotate_logs (d : CpDirectory) : (d.rotate fun _ => true).logs =
    d.logs.map fun e => (e.1, renumbered (fun n => (n + 1) % 2 ^ 32) e.2) := by
  apply logs_map rfl
  · intro f
    split
    · exact ⟨id_rotate f true, type_rotate f true⟩
    · exact ⟨rfl, rfl⟩
  · intro f _ hf
    rw [if_pos hf, baseName_rotate]

theorem eraseP_eq_filter {l : List LogFile} (h : (l.map LogFile.id).Nodup) (id : Nat) :
    (l.eraseP fun f => f.id = id) = l.filter (·.id ≠ id) := by
  induction l with
  | nil => rfl
  | cons f l ih =>
    rw [map_cons, nodup_cons] at h
    by_cases hf : f.id = id
    · rw [eraseP_cons_of_pos (by simpa using hf), filter_cons_of_neg (by simpa using hf)]
      symm
      apply filter_eq_self.2
      intro g hg
      have hne : g.id ≠ id := fun he => h.1 (hf.trans he.symm ▸ mem_map_of_mem hg)
      simpa using hne
    · rw [eraseP_cons_of_neg (by simpa using hf), filter_cons_of_pos (by simpa using hf), ih h.2]

theorem fileRemoved_logs (hids : d.IdsNodup) (hcur : cur ∈ d.logs.map Prod.fst) :
    (d.fileRemoved cur).1.logs = d.logs.filter (·.1 ≠ cur) ∧ (d.fileRemoved cur).1.IdsNodup ∧
      (d.fileRemoved cur).1.startLog = if d.startLog = some cur then none else d.startLog := by
  have hmem : cur ∈ d.logFiles.map LogFile.id := by
    rw [CpDirectory.logs, List.map_map] at hcur
    exact (filter_sublist.map _).subset hcur
  obtain ⟨f, hf, rfl⟩ := mem_map.1 hmem
  obtain ⟨g, hg⟩ : ∃ g, d.logFiles.find? (fun g => g.id = f.id) = some g := by
    rw [← isSome_iff_exists, find?_isSome]
    exact ⟨f, hf, by simp⟩
  have htake : d.takeOut f.id = some (g, d.logFiles.eraseP fun g => g.id = f.id) := by
    rw [takeOut, hg, map_some]
  have herase := eraseP_eq_filter hids f.id
  refine ⟨?_, ?_, ?_⟩
  · rw [fileRemoved, htake]
    dsimp only [CpDirectory.logs]
    rw [herase, List.filter_map, List.filter_filter, List.filter_filter]
    congr 2
    funext g
    exact Bool.and_comm _ _
  · rw [fileRemoved, htake]
    exact hids.sublist (eraseP_sublist.map _)
  · rw [fileRemoved, htake]

theorem trimFiles_split (keep : LogFile → Bool) (sz : Nat) (l : List LogFile) :
    ∃ pre post, l = pre ++ post ∧
      (trimFiles keep (fun _ => true) sz l).1 = pre.filter keep ++ post := by
  induction l generalizing sz with
  | nil => exact ⟨[], [], rfl, rfl⟩
  | cons f l ih =>
    rw [trimFiles]
    by_cases hk : keep f = true
    · obtain ⟨pre, post, hl, hr⟩ := ih sz
      refine ⟨f :: pre, post, by rw [hl, cons_append], ?_⟩
      rw [if_pos hk, filter_cons_of_pos hk]
      exact congrArg (f :: ·) hr
    rw [if_neg hk, if_neg (by decide)]
    by_cases hle : sz ≤ f.size
    · refine ⟨[f], l, rfl, ?_⟩
      rw [if_pos hle, filter_cons_of_neg hk]
      rfl
    obtain ⟨pre, post, hl, hr⟩ := ih (sz - f.size)
    refine ⟨f :: pre, post, by rw [hl, cons_append], ?_⟩
    rw [if_neg hle, filter_cons_of_neg hk]
    exact hr

/-- The logs are numbered from `n - 1` down to 0; the first one is the start log and the last one the
current log. -/
structure Numbered (d : CpDirectory) (n : Nat) : Prop where
  ids : d.IdsNodup
  numbers : List.Forall₂ (fun e i => Headed i e.2) d.logs (countdown n)
  start : d.startLog = d.logs.head?.map Prod.fst
  cur : d.curLog = d.logs.getLast?.map Prod.fst

theorem Numbered.new (name : Name) : (CpDirectory.new name).Numbered 0 :=
  ⟨nodup_nil, .nil, rfl, rfl⟩

theorem Numbered.length (h : d.Numbered n) : d.logs.length = n := by
  have hlen (n : Nat) : (countdown n).length = n := by
    induction n with
    | zero => rfl
    | succ n ih => exact congrArg (· + 1) ih
  rw [h.numbers.length_eq, hlen]

theorem newLog_numbered (hids : d.IdsNodup)
    (hnum : List.Forall₂ (fun e i => Headed (i + 1) e.2) d.logs (countdown n))
    (hstart : d.startLog = d.logs.head?.map Prod.fst) (h : d.newLog id lt = some d') :
    d'.Numbered (n + 1) := by
  obtain ⟨name, hname, hlogs, hids', hstart', hcur⟩ := newLog_spec h hids
  refine ⟨hids', ?_, ?_, ?_⟩
  · rw [hlogs, countdown_succ]
    apply rel_append
    · exact forall₂_map_right_iff.2 hnum
    · exact .cons hname .nil
  · rw [hstart', hlogs, hstart]
    cases d.logs with
    | _ => rfl
  · rw [hcur, hlogs, getLast?_concat]
    rfl

theorem Numbered.create (hlogs : d.logs = []) (h : d.Numbered n)
    (hnew : d.newLog id lt = some d') : d'.Numbered 1 := by
  apply newLog_numbered h.ids _ h.start hnew
  rw [hlogs]
  exact .nil

theorem Numbered.rotate (h : d.Numbered n) (hn : n < 2 ^ 32)
    (hnext : d.next (.rotate id lt) = some d') : d'.Numbered (n + 1) := by
  obtain ⟨d₁, hclose, hnew⟩ := bind_eq_some_iff.1 hnext
  obtain ⟨hlogs, hids, hstart⟩ := closeLogFile_logs hclose
  have hids' : (d₁.rotate fun _ => true).IdsNodup := by
    rw [IdsNodup, rotate_ids]
    exact hids h.ids
  apply newLog_numbered hids' _ _ hnew
  · rw [rotate_logs, hlogs, forall₂_map_left_iff]
    apply forall₂_imp_mem h.numbers
    intro e i hi he
    have hi := lt_of_mem_countdown hi
    have hnew := he.renumbered (by omega) fun n => (n + 1) % 2 ^ 32
    rwa [Nat.mod_eq_of_lt (by omega)] at hnew
  · rw [rotate_logs, hlogs, List.head?_map, Option.map_map]
    exact hstart.trans h.start

theorem Numbered.recreate (h : d.Numbered n) (hnext : d.next (.recreate id lt) = some d') :
    d'.Numbered n := by
  obtain ⟨cur, hcur, hnext⟩ := bind_eq_some_iff.1 hnext
  have hlast := h.cur
  rw [hcur] at hlast
  have hlogs : d.logs ≠ [] := by
    intro hlogs
    rw [hlogs] at hlast
    cases hlast
  obtain ⟨⟨d₁, c, u⟩, hclose, hnew⟩ := bind_eq_some_iff.1 hnext
  obtain ⟨hlogs₁, hids₁, hstart₁, -⟩ := onFile_logs sameName_close hclose
  obtain ⟨init, last, hsplit⟩ : ∃ init last, d.logs = init ++ [last] :=
    ⟨_, _, (dropLast_append_getLast hlogs).symm⟩
  have hlast : last.1 = cur := by
    rw [hsplit, getLast?_concat] at hlast
    exact (Option.some.inj hlast).symm
  have hnodup := h.ids.logs
  rw [hsplit, map_append, nodup_append] at hnodup
  have hne : ∀ e ∈ init, e.1 ≠ cur := fun e he heq =>
    hnodup.2.2 e.1 (mem_map_of_mem he) cur (by simp [hlast]) heq
  obtain ⟨hlogs₂, hids₂, hstart₂⟩ := @fileRemoved_logs d₁ cur (hids₁ h.ids) (by
    rw [hlogs₁, hsplit]
    simp [hlast])
  have hinit : (d₁.fileRemoved cur).1.logs = init := by
    have hkeep : init.filter (·.1 ≠ cur) = init :=
      filter_eq_self.2 fun e he => decide_eq_true (hne e he)
    rw [hlogs₂, hlogs₁, hsplit, filter_append, hkeep,
      filter_cons_of_neg (by simpa using hlast), filter_nil, append_nil]
  obtain ⟨m, rfl⟩ : ∃ m, n = m + 1 := by
    have hlen := h.length
    rw [hsplit, length_append] at hlen
    exact ⟨init.length, hlen.symm⟩
  have hnum : List.Forall₂ (fun e i => Headed (i + 1) e.2) init (countdown m) := by
    have hnum := h.numbers
    rw [hsplit, countdown_succ] at hnum
    have hlen : ((countdown m).map (· + 1)).length = init.length := by
      have hlen := hnum.length_eq
      rw [length_append, length_append] at hlen
      exact (Nat.succ.inj hlen).symm
    have htake := forall₂_take_append _ _ _ hnum
    rwa [hlen, take_left, forall₂_map_right_iff] at htake
  apply newLog_numbered hids₂ (hinit ▸ hnum) _ hnew
  rw [hstart₂, hstart₁, h.start, hinit, hsplit]
  cases init with
  | nil =>
    rw [nil_append, head?_cons, map_some, hlast]
    exact if_pos rfl
  | cons e init =>
    have he : e.1 ≠ cur := hne e mem_cons_self
    rw [cons_append, head?_cons, head?_cons, map_some]
    exact if_neg fun heq => he (Option.some.inj heq)

theorem startLogNum_eq (d : CpDirectory) (start : Nat) :
    d.startLogNum start = (d.logs.find? (·.1 ≠ start)).bind fun e =>
      (parseLogFileNum e.2).map fun r => (r.1 + 1) % 2 ^ 32 := by
  rw [startLogNum, CpDirectory.logs, find?_map, find?_filter, bind_map]
  congr 2
  funext f
  simp only [Function.comp_apply, Bool.decide_and, Bool.decide_eq_true, Bool.and_comm]

theorem changeNameNum_same (f : LogFile) (num : Nat) (r : Bool) :
    (f.changeNameNum num r).id = f.id ∧ (f.changeNameNum num r).type = f.type := by
  rw [LogFile.changeNameNum]
  split
  · exact ⟨rfl, rfl⟩
  split
  · exact ⟨rfl, rfl⟩
  · exact ⟨rfl, rfl⟩

theorem renameStartLog_logs (hstart : d.startLog = some start) (hnum : d.startLogNum start = some num)
    (hread : ∀ e ∈ d.logs, e.1 = start → ∃ n < 2 ^ 32, Headed n e.2) :
    (d.renameStartLog fun _ => true).logs = d.logs.map fun e =>
      if e.1 = start then (e.1, renumbered (fun _ => num) e.2) else e := by
  have hfiles : (d.renameStartLog fun _ => true).logFiles = d.logFiles.map fun f =>
      if f.id = start then f.changeNameNum num true else f := by
    simp only [renameStartLog, hstart, hnum]
  apply logs_map hfiles
  · intro f
    split
    · exact changeNameNum_same f num true
    · exact ⟨rfl, rfl⟩
  intro f hmem hf
  by_cases hid : f.id = start
  · have hlog : (f.id, f.baseName) ∈ d.logs :=
      mem_map.2 ⟨f, mem_filter.2 ⟨hmem, decide_eq_true hf⟩, rfl⟩
    obtain ⟨n, hn, hname⟩ := hread _ hlog hid
    rw [if_pos hid, if_pos hid, baseName_changeNameNum f hname hn]
  · rw [if_neg hid, if_neg hid]

structure Loose (d : CpDirectory) (s : Nat × Name) (t : List (Nat × Name)) (n : Nat) : Prop where
  ids : d.IdsNodup
  logs : d.logs = s :: t
  read : ∃ k < 2 ^ 32, Headed k s.2 ∧ (t = [] → k = 0)
  numbers : List.Forall₂ (fun e i => Headed i e.2) t (countdown n)
  start : d.startLog = some s.1
  cur : d.curLog = d.logs.getLast?.map Prod.fst

theorem Loose.rename_only (h : d.Loose s [] n) : (d.renameStartLog fun _ => true).Numbered 1 := by
  obtain ⟨hids, hlogs, ⟨k, -, hs, hzero⟩, -, hstart, hcur⟩ := h
  have hnone : d.startLogNum s.1 = none := by
    rw [startLogNum_eq, hlogs, find?_cons_of_neg (by simp)]
    rfl
  have hsame : d.renameStartLog (fun _ => true) = d := by
    simp only [renameStartLog, hstart, hnone]
  rw [hzero rfl] at hs
  rw [hsame]
  refine ⟨hids, ?_, ?_, hcur⟩
  · rw [hlogs]
    exact .cons hs .nil
  · rw [hlogs]
    exact hstart

theorem Loose.rename_before (h : d.Loose s (e :: t) (n + 1)) (hn : n + 1 < 2 ^ 32) :
    (d.renameStartLog fun _ => true).Numbered (n + 2) := by
  obtain ⟨hids, hlogs, ⟨k, hk, hs, -⟩, hnum, hstart, hcur⟩ := h
  obtain ⟨-, hstart', hcur', hids'⟩ := renameStartLog_fixed d fun _ => true
  have hother : ∀ e' ∈ e :: t, e'.1 ≠ s.1 := by
    have hnodup := hids.logs
    rw [hlogs, map_cons, nodup_cons] at hnodup
    exact fun e' he' heq => hnodup.1 (heq ▸ mem_map_of_mem he')
  have hfirst : d.startLogNum s.1 = some (n + 1) := by
    have hfind : d.logs.find? (·.1 ≠ s.1) = some e := by
      rw [hlogs, find?_cons_of_neg (by simp), find?_cons_of_pos]
      exact decide_eq_true (hother e mem_cons_self)
    obtain ⟨rest, hrest⟩ := (forall₂_cons.1 hnum).1
    rw [startLogNum_eq, hfind, bind_some, hrest, parseLogFileNum_headed (by omega),
      Option.map_some, Nat.mod_eq_of_lt hn]
  have hread : ∀ e' ∈ d.logs, e'.1 = s.1 → ∃ n < 2 ^ 32, Headed n e'.2 := by
    intro e' he' heq
    rw [hlogs] at he'
    obtain rfl | he' := mem_cons.1 he'
    · exact ⟨k, hk, hs⟩
    · exact absurd heq (hother e' he')
  have hlogs' : (d.renameStartLog fun _ => true).logs =
      (s.1, renumbered (fun _ => n + 1) s.2) :: e :: t := by
    rw [renameStartLog_logs hstart hfirst hread, hlogs, map_cons, if_pos rfl]
    congr 1
    rw [List.map_congr_left fun e' he' => if_neg (hother e' he'), List.map_id']
  refine ⟨?_, ?_, ?_, ?_⟩
  · rw [IdsNodup, hids']
    exact hids
  · rw [hlogs']
    exact .cons (hs.renumbered hk fun _ => n + 1) hnum
  · rw [hstart', hstart, hlogs']
    rfl
  · rw [hcur', hcur, hlogs, hlogs', getLast?_cons_cons, getLast?_cons_cons]

theorem Loose.rename (h : d.Loose s t n) (hn : n < 2 ^ 32) :
    (d.renameStartLog fun _ => true).Numbered (n + 1) := by
  have hnum := h.numbers
  cases t with
  | nil =>
    cases n with
    | zero => exact h.rename_only
    | succ n => cases hnum
  | cons e t =>
    cases n with
    | zero => cases hnum
    | succ n => exact h.rename_before hn

theorem Numbered.loose (h : d.Numbered (n + 1)) (hn : n < 2 ^ 32) : ∃ s t, d.Loose s t n := by
  obtain ⟨hids, hnum, hstart, hcur⟩ := h
  cases hlogs : d.logs with
  | nil =>
    rw [hlogs] at hnum
    cases hnum
  | cons s t =>
    rw [hlogs] at hnum hstart
    obtain ⟨hs, hnum⟩ := forall₂_cons.1 hnum
    refine ⟨s, t, hids, hlogs, ⟨n, hn, hs, ?_⟩, hnum, hstart, hcur⟩
    rintro rfl
    cases n with
    | zero => rfl
    | succ n => cases hnum

theorem Numbered.renameStartLog (h : d.Numbered n) (hn : n ≤ 2 ^ 32) :
    (d.renameStartLog fun _ => true).Numbered n := by
  cases n with
  | zero =>
    have hlogs : d.logs = [] := forall₂_nil_right_iff.1 h.numbers
    have hstart : d.startLog = none := by rw [h.start, hlogs]; rfl
    have hsame : d.renameStartLog (fun _ => true) = d := by
      simp only [CpDirectory.renameStartLog, hstart]
    rwa [hsame]
  | succ n =>
    obtain ⟨s, t, hloose⟩ := h.loose (by omega)
    exact hloose.rename (by omega)

/-- In a list of distinct keys whose last key is kept, the trimming leaves an end of the list. -/
theorem trimmed_suffix {pre post : List (Nat × Name)} (hnodup : ((pre ++ post).map Prod.fst).Nodup)
    (hcur : ∀ e ∈ (pre ++ post).getLast?, e.1 = cur) :
    pre.filter (·.1 = cur) ++ post <:+ pre ++ post ∧
      (pre ++ post ≠ [] → pre.filter (·.1 = cur) ++ post ≠ []) := by
  have hnone {l : List (Nat × Name)} {last : Nat × Name} (hlast : last.1 = cur)
      (hnodup : ((l ++ [last]).map Prod.fst).Nodup) : l.filter (·.1 = cur) = [] := by
    rw [map_append, nodup_append] at hnodup
    apply filter_eq_nil_iff.2
    intro e he heq
    exact hnodup.2.2 e.1 (mem_map_of_mem he) last.1 (by simp)
      ((of_decide_eq_true heq).trans hlast.symm)
  obtain rfl | ⟨post, last, rfl⟩ := eq_nil_or_concat post
  · rw [append_nil] at *
    obtain rfl | ⟨pre, last, rfl⟩ := eq_nil_or_concat pre
    · exact ⟨suffix_rfl, id⟩
    rw [concat_eq_append] at *
    rw [getLast?_concat] at hcur
    have hlast := hcur last rfl
    rw [filter_append, hnone hlast hnodup, filter_cons_of_pos (by simpa using hlast),
      filter_nil, append_nil]
    exact ⟨suffix_append pre [last], fun _ => by simp⟩
  · rw [concat_eq_append] at *
    rw [← append_assoc, getLast?_concat] at hcur
    have hsub : (pre ++ [last]).Sublist (pre ++ (post ++ [last])) :=
      (sublist_append_right post [last]).append_left pre
    rw [hnone (hcur last rfl) (hnodup.sublist (hsub.map _)), nil_append]
    exact ⟨suffix_append _ _, fun _ => by simp⟩

def trimmed (sz : Nat) (d : CpDirectory) : CpDirectory :=
  { d with
    logFiles := (trimFiles d.keeps (fun _ => true) sz d.logFiles).1
    size := d.size - (trimFiles d.keeps (fun _ => true) sz d.logFiles).2 }

theorem trimmed_logs (sz : Nat) (d : CpDirectory) :
    ∃ pre post, d.logs = pre ++ post ∧ (d.trimmed sz).logs =
      pre.filter (fun e => d.startLog = some e.1 ∨ d.curLog = some e.1) ++ post := by
  obtain ⟨pre, post, hl, hr⟩ := trimFiles_split d.keeps sz d.logFiles
  refine ⟨(pre.filter (·.type = .log)).map fun f => (f.id, f.baseName),
    (post.filter (·.type = .log)).map fun f => (f.id, f.baseName), ?_, ?_⟩
  · rw [CpDirectory.logs, hl, List.filter_append, List.map_append]
  rw [CpDirectory.logs, trimmed]
  rw [hr, List.filter_append, List.map_append, List.filter_map, List.filter_filter,
    List.filter_filter]
  congr 2
  apply List.filter_congr
  intro f _
  by_cases hf : f.type = .log
  · simp [keeps, hf]
  · simp [hf]

theorem Loose.trimmed (h : d.Loose s u n) (sz : Nat) :
    ∃ t, (d.trimmed sz).logs = s :: t ∧ t <:+ u ∧ (u ≠ [] → t ≠ []) := by
  obtain ⟨hids, hlogs, -, -, hstart, hcur⟩ := h
  obtain ⟨pre, post, hsplit, htrim⟩ := trimmed_logs sz d
  obtain ⟨last, hlast⟩ : ∃ last, d.logs.getLast? = some last := by
    rw [hlogs, getLast?_cons]
    exact ⟨_, rfl⟩
  rw [hlast, map_some] at hcur
  have hnodup := hids.logs
  rw [hlogs] at hsplit hlast hnodup
  cases pre with
  | nil =>
    rw [filter_nil, nil_append, ← hsplit.trans (nil_append post)] at htrim
    exact ⟨u, htrim, suffix_rfl, fun hu => hu⟩
  | cons s' pre =>
    rw [cons_append, cons.injEq] at hsplit
    obtain ⟨rfl, rfl⟩ := hsplit
    rw [map_cons, nodup_cons] at hnodup
    have hother : ∀ e ∈ pre, e.1 ≠ s.1 := fun e he heq =>
      hnodup.1 (heq ▸ mem_map_of_mem (mem_append_left post he))
    have hkept : pre.filter (fun e => d.startLog = some e.1 ∨ d.curLog = some e.1) =
        pre.filter (·.1 = last.1) := by
      apply filter_congr
      intro e he
      rw [hstart, hcur]
      simp only [Option.some.injEq, (hother e he).symm, false_or, eq_comm]
    have htail : ∀ e ∈ (pre ++ post).getLast?, e.1 = last.1 := by
      intro e he
      rw [getLast?_cons, he] at hlast
      exact congrArg Prod.fst (Option.some.inj hlast)
    rw [filter_cons_of_pos (by simp [hstart]), hkept, cons_append] at htrim
    exact ⟨_, htrim, trimmed_suffix hnodup.2 htail⟩

theorem Numbered.trimmed_loose (h : d.Numbered (n + 1)) (hn : n < 2 ^ 32) (sz : Nat) :
    ∃ s t, ∃ j ≤ n, (d.trimmed sz).Loose s t j := by
  obtain ⟨s, u, hloose⟩ := h.loose hn
  obtain ⟨t, htlogs, hsuffix, hne⟩ := hloose.trimmed sz
  obtain ⟨hids, hlogs, ⟨k, hk, hs, hzero⟩, hnum, hstart, hcur⟩ := hloose
  obtain ⟨j, hj, hnum'⟩ := forall₂_countdown_suffix hnum hsuffix
  have hids' : (d.trimmed sz).IdsNodup :=
    hids.sublist ((trimFiles_sublist _ _ _ _).map _)
  have hlast : (s :: t).getLast? = (s :: u).getLast? := by
    by_cases hu : u = []
    · rw [hu, suffix_nil] at hsuffix
      rw [hu, hsuffix]
    · obtain ⟨x, rfl⟩ := hsuffix
      rw [getLast?_cons, getLast?_cons, getLast?_append_of_ne_nil _ (hne hu)]
  refine ⟨s, t, j, hj, hids', htlogs, ⟨k, hk, hs, ?_⟩, hnum', hstart, ?_⟩
  · intro ht
    exact hzero (by_contra fun hu => hne hu ht)
  · rw [htlogs, hlast, ← hlogs]
    exact hcur

theorem Numbered.trimWorkingDir (h : d.Numbered n) (hn : n ≤ 2 ^ 32) (sz : Nat) :
    ∃ m ≤ n, (0 < n → 0 < m) ∧
      (d.trimWorkingDir (fun _ => true) (fun _ => true) sz).1.Numbered m := by
  have hcall : (d.trimWorkingDir (fun _ => true) (fun _ => true) sz).1 =
      (d.trimmed sz).renameStartLog fun _ => true := rfl
  rw [hcall]
  cases n with
  | zero =>
    have hlogs : d.logs = [] := forall₂_nil_right_iff.1 h.numbers
    obtain ⟨pre, post, hsplit, htrim⟩ := trimmed_logs sz d
    obtain ⟨rfl, rfl⟩ := append_eq_nil_iff.1 (hsplit.symm.trans hlogs)
    have hnumbered : (d.trimmed sz).Numbered 0 := by
      refine ⟨h.ids.sublist ((trimFiles_sublist _ _ _ _).map _), ?_, ?_, ?_⟩
      · rw [htrim]
        exact .nil
      · rw [htrim]
        exact h.start.trans (by rw [hlogs]; rfl)
      · rw [htrim]
        exact h.cur.trans (by rw [hlogs]; rfl)
    exact ⟨0, le_rfl, id, hnumbered.renameStartLog (by decide)⟩
  | succ n =>
    obtain ⟨s, t, j, hj, hloose⟩ := h.trimmed_loose (by omega) sz
    exact ⟨j + 1, by omega, fun _ => by omega, hloose.rename (by omega)⟩

theorem Numbered.createFile (h : d.Numbered n) (hfresh : d.has id = false) (ht : t ≠ .log)
    (fname : Name) : (d.createFile id fname t true).1.Numbered n := by
  have hlogs : (d.createFile id fname t true).1.logs = d.logs := by
    simp only [CpDirectory.logs, CpDirectory.createFile, if_true, filter_append, map_append]
    have hother : (LogFile.created id fname t .zero).type ≠ .log := ht
    rw [filter_cons_of_neg (by simpa using hother)]
    exact append_nil _
  have hnew : id ∉ d.logFiles.map LogFile.id := fun hmem => by
    rw [has_iff.2 hmem] at hfresh
    cases hfresh
  have hids : (d.createFile id fname t true).1.IdsNodup := by
    simp only [IdsNodup, CpDirectory.createFile, if_true, map_append]
    exact h.ids.append (nodup_singleton id) (disjoint_singleton.2 hnew)
  refine ⟨hids, ?_, ?_, ?_⟩
  · rw [hlogs]
    exact h.numbers
  · rw [hlogs]
    exact h.start
  · rw [hlogs]
    exact h.cur

theorem Numbered.write (h : d.Numbered n) (hnext : d.next (.write id len k) = some d') :
    d'.Numbered n := by
  obtain ⟨⟨d₁, c, b⟩, hwrite, rfl⟩ := map_eq_some_iff.1 hnext
  obtain ⟨hlogs, hids, hstart, hcur⟩ := onFile_logs (sameName_write len k) hwrite
  refine ⟨hids h.ids, ?_, ?_, ?_⟩
  · rw [hlogs]
    exact h.numbers
  · rw [hlogs, hstart]
    exact h.start
  · rw [hlogs, hcur]
    exact h.cur

end CpDirectory

namespace LogOp

def isRotate : LogOp → Bool
  | .rotate _ _ => true
  | _ => false

def isCreate : LogOp → Bool
  | .create _ _ => true
  | _ => false

def Fits (d : CpDirectory) : LogOp → Prop
  | .create _ _ => d.logs = []
  | _ => True

instance (d : CpDirectory) (op : LogOp) : Decidable (op.Fits d) :=
  match op with
  | .create _ _ => inferInstanceAs (Decidable (d.logs = []))
  | .createFile _ _ _ => isTrue trivial
  | .write _ _ _ => isTrue trivial
  | .rotate _ _ => isTrue trivial
  | .trimWorkingDir _ => isTrue trivial
  | .renameStartLog => isTrue trivial
  | .recreate _ _ => isTrue trivial

end LogOp

theorem CpDirectory.Numbered.next {op : LogOp} (h : d.Numbered n)
    (hn : n ≤ 2 ^ 32) (hrot : op.isRotate = true → n < 2 ^ 32) (hfits : op.Fits d)
    (hnext : d.next op = some d') :
    ∃ m, m ≤ (if op.isRotate then n + 1 else max n 1) ∧ (0 < n ∨ op.isCreate = true → 0 < m) ∧
      d'.Numbered m := by
  have hleft := le_max_left n 1
  cases op with
  | create id lt =>
    exact ⟨1, le_max_right n 1, fun _ => one_pos, Numbered.create hfits h hnext⟩
  | createFile id fname t =>
    simp only [CpDirectory.next] at hnext
    split at hnext
    · cases hnext
    case isFalse hnot =>
      cases hnext
      rw [not_or, Bool.not_eq_true] at hnot
      exact ⟨n, hleft, fun hp => hp.resolve_right Bool.false_ne_true,
        h.createFile hnot.1 hnot.2 fname⟩
  | write id len k =>
    exact ⟨n, hleft, fun hp => hp.resolve_right Bool.false_ne_true, h.write hnext⟩
  | rotate id lt =>
    exact ⟨n + 1, le_rfl, fun _ => Nat.succ_pos n, h.rotate (hrot rfl) hnext⟩
  | trimWorkingDir sz =>
    obtain ⟨m, hm, hpos, hnumbered⟩ := h.trimWorkingDir hn sz
    cases hnext
    exact ⟨m, hm.trans hleft, fun hp => hpos (hp.resolve_right Bool.false_ne_true), hnumbered⟩
  | renameStartLog =>
    cases hnext
    exact ⟨n, hleft, fun hp => hp.resolve_right Bool.false_ne_true, h.renameStartLog hn⟩
  | recreate id lt =>
    exact ⟨n, hleft, fun hp => hp.resolve_right Bool.false_ne_true, h.recreate hnext⟩

theorem numbered_of_run {ops : List LogOp}
    (hrun : Run (Guarded (fun d op => op.Fits d) CpDirectory.next) (.new name) ops d)
    (hrot : ops.countP LogOp.isRotate < 2 ^ 32) :
    ∃ n ≤ ops.countP LogOp.isRotate + 1, (ops.any LogOp.isCreate = true → 0 < n) ∧
      d.Numbered n := by
  revert hrot
  apply hrun.invariant (I := fun ops d => ops.countP LogOp.isRotate < 2 ^ 32 →
    ∃ n ≤ ops.countP LogOp.isRotate + 1, (ops.any LogOp.isCreate = true → 0 < n) ∧ d.Numbered n)
  · intro _
    exact ⟨0, Nat.zero_le _, fun h => absurd h Bool.false_ne_true, .new name⟩
  rintro ops op d d' ih ⟨hnext, hfits⟩ hrot
  rw [countP_append, countP_singleton] at hrot ⊢
  obtain ⟨n, hn, hpos, hnumbered⟩ := ih (by omega)
  have hbound : op.isRotate = true → n < 2 ^ 32 := by
    intro hop
    rw [if_pos hop] at hrot
    omega
  obtain ⟨m, hm, hmpos, hnumbered'⟩ := hnumbered.next (by omega) hbound hfits hnext
  refine ⟨m, ?_, ?_, hnumbered'⟩
  · split at hm
    case isTrue hop =>
      rw [if_pos hop]
      omega
    case isFalse hop =>
      rw [if_neg hop]
      omega
  · intro hany
    rw [any_append, Bool.or_eq_true, any_cons, any_nil, Bool.or_false] at hany
    exact hmpos (hany.imp_left hpos)

/-- When a log is created only in a directory without logs, the numbers in the names of the logs are
`k, …, 1, 0`, and the last log is the current one. -/
theorem log_numbers_contiguous (name : Name) (ops : List LogOp) (d : CpDirectory)
    (hrun : Run (Guarded (fun d op => op.Fits d) CpDirectory.next) (.new name) ops d)
    (hrot : ops.countP LogOp.isRotate < 2 ^ 32) (hcreate : ops.any LogOp.isCreate = true) :
    ∃ k, d.logs.map (fun e => (parseLogFileNum e.2).map Prod.fst) = (countdown (k + 1)).map some ∧
      d.logs.getLast?.map Prod.fst = d.curLog ∧ d.curLog ≠ none := by
  obtain ⟨n, hn, hpos, hnumbered⟩ := numbered_of_run hrun hrot
  obtain ⟨k, rfl⟩ : ∃ k, n = k + 1 := ⟨n - 1, by have := hpos hcreate; omega⟩
  refine ⟨k, ?_, hnumbered.cur.symm, ?_⟩
  · have hread : List.Forall₂ (fun e i => (parseLogFileNum e.2).map Prod.fst = some i) d.logs
        (countdown (k + 1)) := by
      apply forall₂_imp_mem hnumbered.numbers
      intro e i hi he
      have hi := lt_of_mem_countdown hi
      exact he.parse (by omega)
    rwa [← forall₂_eq_eq_eq, forall₂_map_left_iff, forall₂_map_right_iff]
  · have hne : d.logs ≠ [] := by
      intro hlogs
      have hlen := hnumbered.length
      rw [hlogs] at hlen
      cases hlen
    rw [hnumbered.cur, getLast?_eq_some_getLast hne]
    exact some_ne_none _

/-- Three logs, of which trimming removes the middle one, and then the current one is removed. -/
theorem trimmed_logs_contiguous :
    ∃ d k, Run (Guarded (fun d op => op.Fits d) CpDirectory.next) (.new ['w'])
        [.create 1 .zero, .rotate 2 .zero, .rotate 3 .zero, .trimWorkingDir 5, .recreate 4 .zero] d ∧
      d.logs.map (fun e => (parseLogFileNum e.2).map Prod.fst) = (countdown (k + 1)).map some ∧
      d.logs.length = 2 := by
  obtain ⟨d, hrun, hlen⟩ :
      ∃ d, Run (Guarded (fun d op => op.Fits d) CpDirectory.next) (.new ['w'])
        [.create 1 .zero, .rotate 2 .zero, .rotate 3 .zero, .trimWorkingDir 5,
          .recreate 4 .zero] d ∧ d.logs.length = 2 :=
    exists_guarded_of_exec (by decide +kernel)
  obtain ⟨k, hk, -⟩ := log_numbers_contiguous ['w'] _ d hrun (by decide) (by decide)
  exact ⟨d, k, hrun, hk, hlen⟩

/-- A log that is created while there is a current log: the number 0 is there twice. -/
theorem second_log_repeats_zero :
    ∃ d, Run (Next CpDirectory.next) (.new ['w']) [.create 1 .zero, .create 2 .zero] d ∧
      d.logs.map (fun e => (parseLogFileNum e.2).map Prod.fst) = [some 0, some 0] :=
  exists_run_of_exec (by decide +kernel)

end SprdVendor.SlogModem
