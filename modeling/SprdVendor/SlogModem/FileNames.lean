import SprdVendor.Lib.Insertion
import SprdVendor.Lib.Text
import SprdVendor.SlogModem.Exact

namespace SprdVendor.SlogModem
open List hiding next
open Lib

def parseFixed : Name → Nat → Option Nat
  | [], num => some num
  | c :: s, num =>
    if c.isDigit then
      if 2 ^ 32 - 1 ≤ num then none
      else parseFixed s ((num * 10 + (c.toNat - '0'.toNat)) % 2 ^ 32)
    else none

def parseTimeString (name : Name) : Option FileTime :=
  if name.length < 19 then none
  else
    (parseFixed (name.take 4) 0).bind fun year =>
    (parseFixed ((name.drop 5).take 2) 0).bind fun month =>
    (parseFixed ((name.drop 8).take 2) 0).bind fun mday =>
    (parseFixed ((name.drop 11).take 2) 0).bind fun hour =>
    (parseFixed ((name.drop 14).take 2) 0).bind fun min =>
    (parseFixed ((name.drop 17).take 2) 0).map fun sec => ⟨year, month, mday, hour, min, sec⟩

def fourDigits (s : Name) : Bool := 4 ≤ s.length ∧ (s.take 4).all Char.isDigit

def extractFileTime : Name → Option FileTime
  | [] => none
  | c :: s =>
    if fourDigits (c :: s) then
      if (c :: s).length < 19 then none
      else (parseTimeString (c :: s)).or (extractFileTime s)
    else extractFileTime s

def parseDumpFileTime : Name → Option FileTime
  | [] => none
  | c :: s =>
    -- the first underscore that four digits follow decides
    if c = '_' ∧ 4 ≤ s.length ∧ (parseFixed (s.take 4) 0).isSome then
      if s.length < 19 then none else parseTimeString (s.take 19)
    else parseDumpFileTime s

def dated (t : LogType) : Option FileTime → LogType × FileTime
  | none => (.unknown, .zero)
  | some time => (t, time)

def startsWith (pre : Name) (t : LogType) (name : Name) (other : LogType × FileTime) :
    LogType × FileTime :=
  if pre <+: name then dated t (parseTimeString (name.drop pre.length)) else other

def getType (name : Name) : LogType × FileTime :=
  match parseNumber name with
  | some (_, len) =>
    if name[len]? = some '-' then dated .log (extractFileTime (name.drop (len + 1)))
    else (.unknown, .zero)
  | none =>
    if ['.', 'v', 'e', 'r', 's', 'i', 'o', 'n'] <:+ name then (.version, .zero)
    else if ['.', 'd', 'm', 'p'] <:+ name then dated .dump (parseDumpFileTime name)
    else
      startsWith ['m', 'i', 'n', 'i', '_', 'd', 'u', 'm', 'p', '_'] .miniDump name <|
      startsWith ['s', 'b', 'l', 'o', 'c', 'k', '_'] .sipc name <|
      startsWith ['s', 'b', 'u', 'f', '_'] .sipc name <|
      startsWith ['s', 'm', 's', 'g', '_'] .sipc name (.unknown, .zero)

/-! ### The order of the list -/

/-- What `readdir` and `stat` tell of one entry; `regular` is false also when `stat` fails. -/
structure Dirent where
  name : Name
  regular : Bool
  size : Nat
deriving DecidableEq, Repr

def Dirent.listed (e : Dirent) : Bool :=
  e.name ≠ ['.'] ∧ e.name ≠ ['.', '.'] ∧ e.regular = true

def Dirent.entry (e : Dirent) : Entry := ⟨e.name, (getType e.name).1, (getType e.name).2, e.size⟩

/-- The directory object of a CP behind `stat`, for the order in which `readdir` gives the files. -/
def CpDirectory.scan (n : Nat) (name : Name) (es : List Dirent) : CpDirectory :=
  .stat n name ((es.filter Dirent.listed).map Dirent.entry)

def LogFile.entry (f : LogFile) : Entry := ⟨f.baseName, f.type, f.time, f.size⟩

def FileTime.fields (t : FileTime) : List Nat := [t.year, t.month, t.mday, t.hour, t.min, t.sec]

theorem compare_iff {a b : Nat} :
    (if a < b then true else if a > b then false else next) = true ↔
      a < b ∨ a = b ∧ next = true := by
  split
  case isTrue h => exact iff_of_true rfl (.inl h)
  case isFalse h =>
    split
    case isTrue h' => exact iff_of_false Bool.false_ne_true (by omega)
    case isFalse h' =>
      have heq : a = b := by omega
      simp [heq]

theorem FileTime.lt_iff (s t : FileTime) : s.lt t = true ↔ s.fields < t.fields := by
  simp only [FileTime.lt, compare_iff, FileTime.fields, cons_lt_cons_iff, decide_eq_true_iff,
    not_lt_nil, and_false, or_false]

theorem FileTime.eq_of_fields (h : fields s = fields t) : s = t := by
  cases s
  cases t
  simpa [fields] using h

def LogType.rank : LogType → Nat
  | .unknown => 0
  | .version => 2
  | _ => 1

theorem LogType.rank_eq_zero {t : LogType} (h : t.rank = 0) : t = .unknown := by
  cases t <;> first | rfl | cases h

theorem LogType.rank_eq_two {t : LogType} (h : t.rank = 2) : t = .version := by
  cases t <;> first | rfl | cases h

theorem LogType.rank_le_two (t : LogType) : t.rank ≤ 2 := by
  cases t <;> decide

theorem LogType.rank_of_timed {t : LogType} (h : t ≠ .unknown ∧ t ≠ .version) : t.rank = 1 := by
  cases t with
  | unknown => exact absurd rfl h.1
  | version => exact absurd rfl h.2
  | log | sipc | dump | miniDump | ringbuf | sleeplog => rfl

def Before (f g : LogFile) : Prop :=
  f.type.rank < g.type.rank ∨
    f.type.rank = g.type.rank ∧ (f.type.rank = 1 → f.time.fields ≤ g.time.fields)

theorem Before.rank (h : Before f g) : f.type.rank ≤ g.type.rank := by
  rcases h with h | h
  · exact h.le
  · exact h.1.le

theorem Before.trans (h : Before f g) (h' : Before g k) : Before f k := by
  rcases h with h | ⟨heq, htime⟩
  · exact .inl (h.trans_le h'.rank)
  · rcases h' with h' | ⟨heq', htime'⟩
    · exact .inl (heq ▸ h')
    · exact .inr ⟨heq.trans heq', fun hone => (htime hone).trans (htime' (heq ▸ hone))⟩

instance : IsTrans LogFile Before := ⟨fun _ _ _ => Before.trans⟩

theorem insertByTime_eq (f : LogFile) (l : List LogFile) :
    insertByTime f l = l.orderedInsert
      (fun f p => p.type = .version ∨ p.type ≠ .unknown ∧ f.time.lt p.time = true) f := by
  induction l with
  | nil => rfl
  | cons p l ih => rw [insertByTime, orderedInsert_cons, ih]

theorem insertByTime_before (hf : f.type.rank = 1) (h : l.Pairwise Before) :
    (insertByTime f l).Pairwise Before := by
  rw [insertByTime_eq]
  refine pairwise_orderedInsert ?_ ?_ h
  · rintro p - (hv | ⟨hu, hlt⟩)
    · exact .inl (by rw [hf, hv]; decide)
    have hle : f.time.fields ≤ p.time.fields := ((FileTime.lt_iff _ _).mp hlt).le
    have hp : 1 ≤ p.type.rank := Nat.one_le_iff_ne_zero.mpr fun h => hu (LogType.rank_eq_zero h)
    rcases hp.eq_or_lt with hp | hp
    · exact .inr ⟨hf.trans hp, fun _ => hle⟩
    · exact .inl (hf ▸ hp)
  · rintro p - hpass
    obtain ⟨hv, hlate⟩ := not_or.mp hpass
    have hp : p.type.rank ≤ 1 := by
      have hle := p.type.rank_le_two
      have hne : p.type.rank ≠ 2 := fun h => hv (LogType.rank_eq_two h)
      omega
    rcases hp.eq_or_lt with hp | hp
    · have hu : p.type ≠ .unknown := by
        intro hu
        rw [hu] at hp
        cases hp
      refine .inr ⟨hp.trans hf.symm, fun _ => ?_⟩
      exact not_lt.mp fun hlt => hlate ⟨hu, (FileTime.lt_iff _ _).mpr hlt⟩
    · exact .inl (hf ▸ hp)

theorem insertAscending_before (f : LogFile) (h : l.Pairwise Before) :
    (insertAscending l f).Pairwise Before := by
  rw [insertAscending]
  split
  case h_1 hv =>
    refine pairwise_append.mpr ⟨h, pairwise_singleton _ _, ?_⟩
    intro g _ k hk
    rw [mem_singleton.mp hk, Before, hv]
    have hle := g.type.rank_le_two
    rcases hle.eq_or_lt with heq | hlt
    · exact .inr ⟨heq, fun hone => by omega⟩
    · exact .inl hlt
  case h_2 hu =>
    refine pairwise_cons.mpr ⟨?_, h⟩
    intro g _
    rw [Before, hu]
    rcases eq_zero_or_pos g.type.rank with heq | hlt
    · exact .inr ⟨heq.symm, fun hone => absurd hone (by decide)⟩
    · exact .inl hlt
  case h_3 hv hu => exact insertByTime_before (LogType.rank_of_timed ⟨hu, hv⟩) h

theorem statFiles_spec (n : Nat) (d : CpDirectory) (es : List Entry)
    (h : d.logFiles.Pairwise Before) :
    (CpDirectory.statFiles n d es).logFiles.Pairwise Before ∧
      ((CpDirectory.statFiles n d es).logFiles.map LogFile.entry).Perm
        (es ++ d.logFiles.map LogFile.entry) := by
  induction es generalizing n d with
  | nil => exact ⟨h, .refl _⟩
  | cons e es ih =>
    obtain ⟨hbefore, hperm⟩ := ih (n + 1) { d with
      logFiles := insertAscending d.logFiles ⟨n, e.baseName, e.type, e.time, e.size, false, 0⟩,
      size := d.size + e.size } (insertAscending_before _ h)
    refine ⟨hbefore, hperm.trans ?_⟩
    have hnew := (insertAscending_perm d.logFiles
      ⟨n, e.baseName, e.type, e.time, e.size, false, 0⟩).symm.map LogFile.entry
    exact (hnew.append_left es).trans perm_middle

theorem scan_before (n : Nat) (name : Name) (es : List Dirent) :
    (CpDirectory.scan n name es).logFiles.Pairwise Before :=
  (statFiles_spec n (.new name) _ .nil).1

theorem scan_perm (n : Nat) (name : Name) (es : List Dirent) :
    ((CpDirectory.scan n name es).logFiles.map LogFile.entry).Perm
      ((es.filter Dirent.listed).map Dirent.entry) := by
  have hperm := (statFiles_spec n (.new name) ((es.filter Dirent.listed).map Dirent.entry) .nil).2
  exact hperm.trans (.of_eq (append_nil _))

theorem scan_getType (h : f ∈ (CpDirectory.scan n name es).logFiles) :
    (f.type, f.time) = getType f.baseName := by
  have hmem := (scan_perm n name es).mem_iff.mp (mem_map_of_mem h)
  obtain ⟨e, -, he⟩ := mem_map.mp hmem
  obtain ⟨hname, htype, htime, -⟩ := Entry.mk.inj he
  rw [← htype, ← htime, ← hname]

/-- Behind their order, files fall into those of unknown type, those with a time and the version
files. -/
theorem exists_classes {l : List LogFile} (h : l.Pairwise Before) :
    ∃ u t v, l = u ++ t ++ v ∧ (∀ f ∈ u, f.type = .unknown) ∧
      (∀ f ∈ t, f.type ≠ .unknown ∧ f.type ≠ .version) ∧
      t.Pairwise (fun f g => g.time.lt f.time = false) ∧ ∀ f ∈ v, f.type = .version := by
  have hrank : l.Pairwise fun f g => f.type.rank ≤ g.type.rank := h.imp Before.rank
  obtain ⟨u, w, rfl, hu, hw⟩ := exists_split_of_rank 0 hrank fun _ _ => Nat.zero_le _
  have hrank' := (pairwise_append.mp hrank).2.1
  obtain ⟨t, v, rfl, ht, hv⟩ := exists_split_of_rank 1 hrank' hw
  refine ⟨u, t, v, (append_assoc u t v).symm, ?_, ?_, ?_, ?_⟩
  · exact fun f hf => LogType.rank_eq_zero (hu f hf)
  · intro f hf
    have hone := ht f hf
    constructor
    · intro he
      rw [he] at hone
      cases hone
    · intro he
      rw [he] at hone
      cases hone
  · have hbefore := (pairwise_append.mp (pairwise_append.mp h).2.1).1
    refine hbefore.imp_of_mem ?_
    intro f g hf hg hfg
    have hle : f.time.fields ≤ g.time.fields := by
      rcases hfg with hlt | ⟨-, htime⟩
      · rw [ht f hf, ht g hg] at hlt
        exact absurd hlt (lt_irrefl 1)
      · exact htime (ht f hf)
    rw [Bool.eq_false_iff, Ne, FileTime.lt_iff]
    exact not_lt.mpr hle
  · exact fun f hf => LogType.rank_eq_two (le_antisymm f.type.rank_le_two (hv f hf))

theorem index_lt_iff {l : List LogFile} {i j : Nat} (h : l.Pairwise Before)
    (hi : l[i]? = some f) (hj : l[j]? = some g) (hf : f.type.rank = 1) (hg : g.type.rank = 1) (hne : f.time ≠ g.time) :
    i < j ↔ f.time.fields < g.time.fields := by
  have hle {i j : Nat} {f g : LogFile} (hi : l[i]? = some f) (hj : l[j]? = some g)
      (hf : f.type.rank = 1) (hg : g.type.rank = 1) (hij : i < j) :
      f.time.fields ≤ g.time.fields := by
    obtain ⟨hil, rfl⟩ := List.getElem?_eq_some_iff.mp hi
    obtain ⟨hjl, rfl⟩ := List.getElem?_eq_some_iff.mp hj
    rcases pairwise_iff_getElem.mp h i j hil hjl hij with hlt | ⟨-, htime⟩
    · rw [hf, hg] at hlt
      exact absurd hlt (lt_irrefl 1)
    · exact htime hf
  have hfields : f.time.fields ≠ g.time.fields := fun he => hne (FileTime.eq_of_fields he)
  constructor
  · intro hij
    exact lt_of_le_of_ne (hle hi hj hf hg hij) hfields
  intro hlt
  by_contra hij
  rcases (not_lt.mp hij).eq_or_lt with rfl | hji
  · cases hi.symm.trans hj
    exact hne rfl
  · exact absurd (hle hj hi hg hf hji) (not_le.mpr hlt)

inductive FileKind where
  | log
  | dump
  | dumpMem
  | miniDump
  | smsg
  | sbuf
  | sblock
  | sleepLog
  | ringBuf
deriving DecidableEq, Repr

def FileKind.affixes (cp : Name) : FileKind → Name × Name
  | .log => ('0' :: '-' :: cp ++ ['-'], ['.', 'l', 'o', 'g'])
  | .dump => (cp ++ ['_', 'm', 'e', 'm', 'o', 'r', 'y', '_'], ['.', 'd', 'm', 'p'])
  | .dumpMem => (cp ++ ['_', 'm', 'e', 'm', 'o', 'r', 'y', '_'], ['.', 'm', 'e', 'm'])
  | .miniDump => (['m', 'i', 'n', 'i', '_', 'd', 'u', 'm', 'p', '_'], ['.', 'b', 'i', 'n'])
  | .smsg => (['s', 'm', 's', 'g', '_'], ['.', 'l', 'o', 'g'])
  | .sbuf => (['s', 'b', 'u', 'f', '_'], ['.', 'l', 'o', 'g'])
  | .sblock => (['s', 'b', 'l', 'o', 'c', 'k', '_'], ['.', 'l', 'o', 'g'])
  | .sleepLog => (cp ++ ['_', 's', 'l', 'e', 'e', 'p', 'l', 'o', 'g', '_'], ['.', 'l', 'o', 'g'])
  | .ringBuf => (cp ++ ['_', 'r', 'i', 'n', 'g', 'b', 'u', 'f', '_'], ['.', 'l', 'o', 'g'])

def FileKind.fileName (cp : Name) (t : FileTime) (kind : FileKind) : Name :=
  (kind.affixes cp).1 ++ t.text '_' ++ (kind.affixes cp).2

def FileKind.logType : FileKind → LogType
  | .log => .log
  | .dump => .dump
  | .dumpMem => .dump
  | .miniDump => .miniDump
  | .smsg => .sipc
  | .sbuf => .sipc
  | .sblock => .sipc
  | .sleepLog => .ringbuf
  | .ringBuf => .ringbuf

def FileKind.create (id : Nat) (t : FileTime) (d : CpDirectory) (kind : FileKind) :
    CpDirectory × Option Nat :=
  match kind with
  | .log => d.createLogFile id (some t) true
  | _ => d.createFile id (kind.fileName d.name t) kind.logType true

def modemNames : List Name :=
  [['c', 'p', '_', 'w', 'c', 'n'], ['c', 'p', '_', 'w', 'c', 'd', 'm', 'a'],
    ['c', 'p', '_', '3', 'm', 'o', 'd', 'e'], ['c', 'p', '_', '4', 'm', 'o', 'd', 'e'],
    ['c', 'p', '_', '5', 'm', 'o', 'd', 'e'],
    ['c', 'p', '_', 't', 'd', '-', 's', 'c', 'd', 'm', 'a']]

structure FileTime.Fits (t : FileTime) : Prop where
  year : t.year < 10000
  month : t.month < 100
  mday : t.mday < 100
  hour : t.hour < 100
  min : t.min < 100
  sec : t.sec < 100

def FileKind.Known (kind : FileKind) : Prop :=
  kind ≠ .dumpMem ∧ kind ≠ .sleepLog ∧ kind ≠ .ringBuf

theorem pad_one (h : n < 10) : FileTime.pad 1 n = [n.digitChar] := by
  rw [FileTime.pad, Nat.toDigits_of_lt_base h]
  rfl

theorem pad_succ (w n : Nat) :
    FileTime.pad (w + 2) n = FileTime.pad (w + 1) (n / 10) ++ [(n % 10).digitChar] := by
  rw [FileTime.pad, FileTime.pad, Nat.toDigits_eq_if (by decide)]
  split
  case isTrue h =>
    rw [Nat.div_eq_of_lt h, Nat.mod_eq_of_lt h]
    have hzero : Nat.toDigits 10 0 = ['0'] := rfl
    rw [hzero, length_singleton, length_singleton, ← replicate_succ']
    rfl
  case isFalse h =>
    have hlen (k : Nat) : w + 2 - (k + 1) = w + 1 - k := by omega
    rw [length_append, length_singleton, hlen, append_assoc]

theorem pad_two (h : n < 100) :
    FileTime.pad 2 n = [(n / 10).digitChar, (n % 10).digitChar] := by
  rw [pad_succ, pad_one (by omega)]
  rfl

theorem pad_four (h : n < 10000) :
    FileTime.pad 4 n = [(n / 1000).digitChar, (n / 100 % 10).digitChar, (n / 10 % 10).digitChar,
      (n % 10).digitChar] := by
  have hhundred : n / 10 / 10 = n / 100 := Nat.div_div_eq_div_mul n 10 10
  have hthousand : n / 100 / 10 = n / 1000 := Nat.div_div_eq_div_mul n 100 10
  rw [pad_succ, pad_succ, pad_succ, hhundred, hthousand, pad_one (by omega)]
  rfl

theorem isDigit_digitChar : ∀ d < 10, (Nat.digitChar d).isDigit = true ∧
    (Nat.digitChar d).toNat - '0'.toNat = d := by
  decide

theorem parseFixed_cons (hd : d < 10) (hnum : num < 1000) (s : Name) :
    parseFixed (d.digitChar :: s) num = parseFixed s (10 * num + d) := by
  obtain ⟨hdigit, hval⟩ := isDigit_digitChar d hd
  rw [parseFixed, if_pos hdigit, if_neg (by omega), hval, Nat.mod_eq_of_lt (by omega), Nat.mul_comm]

theorem parseFixed_two (h : n < 100) :
    parseFixed [(n / 10).digitChar, (n % 10).digitChar] 0 = some n := by
  rw [parseFixed_cons (by omega) (by omega), parseFixed_cons (by omega) (by omega), parseFixed]
  congr 1
  omega

theorem parseFixed_four (h : n < 10000) :
    parseFixed [(n / 1000).digitChar, (n / 100 % 10).digitChar, (n / 10 % 10).digitChar,
      (n % 10).digitChar] 0 = some n := by
  rw [parseFixed_cons (by omega) (by omega), parseFixed_cons (by omega) (by omega),
    parseFixed_cons (by omega) (by omega), parseFixed_cons (by omega) (by omega), parseFixed]
  congr 1
  omega

theorem text_eq (h : FileTime.Fits t) (sep : Char) :
    t.text sep =
      [(t.year / 1000).digitChar, (t.year / 100 % 10).digitChar, (t.year / 10 % 10).digitChar,
        (t.year % 10).digitChar, '-', (t.month / 10).digitChar, (t.month % 10).digitChar, '-',
        (t.mday / 10).digitChar, (t.mday % 10).digitChar, sep, (t.hour / 10).digitChar,
        (t.hour % 10).digitChar, '-', (t.min / 10).digitChar, (t.min % 10).digitChar, '-',
        (t.sec / 10).digitChar, (t.sec % 10).digitChar] := by
  rw [FileTime.text, pad_four h.year, pad_two h.month, pad_two h.mday, pad_two h.hour,
    pad_two h.min, pad_two h.sec]
  rfl

theorem parseTimeString_text (h : FileTime.Fits t) (sep : Char) (s : Name) :
    parseTimeString (t.text sep ++ s) = some t := by
  have hlen : ¬ (t.text sep ++ s).length < 19 := by
    rw [text_eq h, length_append]
    exact Nat.not_lt.mpr (Nat.le_add_right 19 s.length)
  rw [parseTimeString, if_neg hlen, text_eq h]
  change ((parseFixed [_, _, _, _] 0).bind fun year => (parseFixed [_, _] 0).bind fun month =>
    (parseFixed [_, _] 0).bind fun mday => (parseFixed [_, _] 0).bind fun hour =>
    (parseFixed [_, _] 0).bind fun min => (parseFixed [_, _] 0).map fun sec =>
      FileTime.mk year month mday hour min sec) = _
  rw [parseFixed_four h.year, parseFixed_two h.month, parseFixed_two h.mday, parseFixed_two h.hour,
    parseFixed_two h.min, parseFixed_two h.sec]
  rfl

theorem fourDigits_text (h : FileTime.Fits t) (sep : Char) (s : Name) :
    fourDigits (t.text sep ++ s) = true := by
  have hyear := h.year
  have hdigit (d : Nat) (hd : d < 10) : d.digitChar.isDigit = true := (isDigit_digitChar d hd).1
  rw [text_eq h, fourDigits, decide_eq_true_iff]
  refine ⟨?_, ?_⟩
  · rw [length_append]
    exact Nat.le_add_right_of_le (by decide : 4 ≤ 19)
  change ([_, _, _, _] : Name).all Char.isDigit = true
  simp [hdigit _ (show t.year / 1000 < 10 by omega), hdigit _ (show t.year / 100 % 10 < 10 by omega), hdigit _ (show t.year / 10 % 10 < 10 by omega), hdigit _ (show t.year % 10 < 10 by omega)]

theorem extractFileTime_text (h : FileTime.Fits t) (s : Name) :
    extractFileTime (t.text '_' ++ s) = some t := by
  have hfour := fourDigits_text h '_' s
  have hparse := parseTimeString_text h '_' s
  have hlen : ¬ (t.text '_' ++ s).length < 19 := by
    rw [text_eq h, length_append]
    exact Nat.not_lt.mpr (Nat.le_add_right 19 s.length)
  revert hfour hparse hlen
  cases t.text '_' ++ s with
  | nil => exact fun hfour => absurd hfour (by decide)
  | cons c s =>
    intro hfour hparse hlen
    rw [extractFileTime, if_pos hfour, if_neg hlen, hparse]
    rfl

theorem parseDumpFileTime_text (h : FileTime.Fits t) (s : Name) :
    parseDumpFileTime ('_' :: (t.text '_' ++ s)) = some t := by
  have hlen : (t.text '_' ++ s).length = 19 + s.length := by
    rw [text_eq h, length_append]
    rfl
  have htake : (t.text '_' ++ s).take 19 = t.text '_' ++ [] := by
    rw [text_eq h]
    rfl
  have hyear : (parseFixed ((t.text '_' ++ s).take 4) 0).isSome = true := by
    rw [text_eq h]
    change (parseFixed [_, _, _, _] 0).isSome = true
    rw [parseFixed_four h.year]
    rfl
  rw [parseDumpFileTime, if_pos ⟨rfl, by omega, hyear⟩, if_neg (by omega), htake,
    parseTimeString_text h]

theorem extractFileTime_modem (h : cp ∈ modemNames) (s : Name) :
    extractFileTime (cp ++ '-' :: s) = extractFileTime s := by
  simp only [modemNames, mem_cons, not_mem_nil, or_false] at h
  rcases h with rfl | rfl | rfl | rfl | rfl | rfl <;>
    simp [extractFileTime, fourDigits]

theorem parseDumpFileTime_modem (h : cp ∈ modemNames) (s : Name) :
    parseDumpFileTime (cp ++ ['_', 'm', 'e', 'm', 'o', 'r', 'y'] ++ s) = parseDumpFileTime s := by
  simp only [modemNames, mem_cons, not_mem_nil, or_false] at h
  rcases h with rfl | rfl | rfl | rfl | rfl | rfl <;>
    simp [parseDumpFileTime, parseFixed]

theorem not_suffix_append (hlen : e'.length ≤ e.length) (h : ¬ e' <:+ e) (s : Name) :
    ¬ e <:+ s ++ e' :=
  fun he => h (suffix_of_suffix_length_le (suffix_append s e') he hlen)

theorem not_version (hlen : e.length = 4) (h : e ≠ ['s', 'i', 'o', 'n']) (s : Name) :
    ¬ ['.', 'v', 'e', 'r', 's', 'i', 'o', 'n'] <:+ s ++ e := by
  refine not_suffix_append (by rw [hlen]; decide) ?_ s
  intro hsuf
  exact h ((suffix_iff_eq_drop.mp hsuf).trans (by rw [hlen]; rfl))

theorem startsWith_text (ht : FileTime.Fits t) (pre e : Name) (type : LogType)
    (other : LogType × FileTime) :
    startsWith pre type (pre ++ t.text '_' ++ e) other = (type, t) := by
  rw [startsWith, append_assoc, if_pos (prefix_append pre _), drop_left, parseTimeString_text ht]
  rfl

theorem startsWith_of_ne (h : ¬ pre <+: name) (type : LogType) (other : LogType × FileTime) :
    startsWith pre type name other = other :=
  if_neg h

theorem getType_of_ending (hnumber : parseNumber (s ++ e) = none)
    (hlen : e.length = 4) (he : e ≠ ['s', 'i', 'o', 'n']) :
    getType (s ++ e) =
      if e = ['.', 'd', 'm', 'p'] then dated .dump (parseDumpFileTime (s ++ e)) else
        startsWith ['m', 'i', 'n', 'i', '_', 'd', 'u', 'm', 'p', '_'] .miniDump (s ++ e) <|
        startsWith ['s', 'b', 'l', 'o', 'c', 'k', '_'] .sipc (s ++ e) <|
        startsWith ['s', 'b', 'u', 'f', '_'] .sipc (s ++ e) <|
        startsWith ['s', 'm', 's', 'g', '_'] .sipc (s ++ e) (.unknown, .zero) := by
  rw [getType, hnumber]
  rw [if_neg (not_version hlen he s)]
  by_cases hdmp : e = ['.', 'd', 'm', 'p']
  · rw [if_pos hdmp, if_pos]
    rw [hdmp]
    exact suffix_append _ _
  · rw [if_neg hdmp, if_neg]
    refine not_suffix_append hlen.le ?_ s
    exact fun hsuf => hdmp (hsuf.eq_of_length hlen)

theorem exists_cons_of_modem (h : cp ∈ modemNames) : ∃ s, cp = 'c' :: s := by
  simp only [modemNames, mem_cons, not_mem_nil, or_false] at h
  rcases h with rfl | rfl | rfl | rfl | rfl | rfl <;> exact ⟨_, rfl⟩

theorem getType_log (h : cp ∈ modemNames) (ht : FileTime.Fits t) :
    getType (FileKind.fileName cp t .log) = (.log, t) := by
  have hname : FileKind.fileName cp t .log =
      '0' :: '-' :: (cp ++ '-' :: (t.text '_' ++ ['.', 'l', 'o', 'g'])) := by
    simp [FileKind.fileName, FileKind.affixes]
  have hnumber (s : Name) : parseNumber ('0' :: '-' :: s) = some (0, 1) := rfl
  rw [hname, getType, hnumber]
  change dated .log (extractFileTime (cp ++ '-' :: (t.text '_' ++ ['.', 'l', 'o', 'g']))) = _
  rw [extractFileTime_modem h, extractFileTime_text ht]
  rfl

theorem getType_dump (h : cp ∈ modemNames) (ht : FileTime.Fits t) :
    getType (FileKind.fileName cp t .dump) = (.dump, t) := by
  have hname : FileKind.fileName cp t .dump =
      cp ++ ['_', 'm', 'e', 'm', 'o', 'r', 'y'] ++ '_' :: (t.text '_' ++ ['.', 'd', 'm', 'p']) := by
    simp [FileKind.fileName, FileKind.affixes]
  have hnumber : parseNumber (FileKind.fileName cp t .dump) = none := by
    obtain ⟨s, rfl⟩ := exists_cons_of_modem h
    rfl
  have hdmp : (FileKind.affixes cp .dump).2 = ['.', 'd', 'm', 'p'] := rfl
  have hending := getType_of_ending hnumber rfl (show ['.', 'd', 'm', 'p'] ≠ _ by decide)
  rw [if_pos hdmp] at hending
  refine hending.trans ?_
  change dated .dump (parseDumpFileTime (FileKind.fileName cp t .dump)) = _
  rw [hname, parseDumpFileTime_modem h, parseDumpFileTime_text ht]
  rfl

theorem getType_other (h : cp ∈ modemNames) (hkind : ¬ FileKind.Known kind) (t : FileTime) :
    getType (kind.fileName cp t) = (.unknown, .zero) := by
  obtain ⟨s, rfl⟩ := exists_cons_of_modem h
  have hother (s e : Name) (hlen : e.length = 4) (he : e ≠ ['s', 'i', 'o', 'n'])
      (hdmp : e ≠ ['.', 'd', 'm', 'p']) : getType ('c' :: s ++ e) = (.unknown, .zero) := by
    have hne (c : Char) (pre : Name) (hc : c ≠ 'c') : ¬ c :: pre <+: 'c' :: s ++ e :=
      fun hpre => hc (cons_prefix_cons.mp hpre).1
    rw [getType_of_ending rfl hlen he, if_neg hdmp, startsWith_of_ne (hne _ _ (by decide)),
      startsWith_of_ne (hne _ _ (by decide)), startsWith_of_ne (hne _ _ (by decide)),
      startsWith_of_ne (hne _ _ (by decide))]
  cases kind with
  | dumpMem => exact hother _ ['.', 'm', 'e', 'm'] rfl (by decide) (by decide)
  | sleepLog => exact hother _ ['.', 'l', 'o', 'g'] rfl (by decide) (by decide)
  | ringBuf => exact hother _ ['.', 'l', 'o', 'g'] rfl (by decide) (by decide)
  | log | dump | miniDump | smsg | sbuf | sblock =>
    exact absurd ⟨by decide, by decide, by decide⟩ hkind

theorem getType_known (h : cp ∈ modemNames) (ht : FileTime.Fits t) (hkind : FileKind.Known kind) :
    getType (kind.fileName cp t) = (kind.logType, t) := by
  have hne {pre s : Name} (e : Name) (hpre : ¬ pre <+: s ∧ ¬ s <+: pre) :
      ¬ pre <+: s ++ t.text '_' ++ e := by
    intro hp
    have hs : s <+: s ++ t.text '_' ++ e := by
      rw [append_assoc]
      exact prefix_append _ _
    exact (List.prefix_or_prefix_of_prefix hp hs).elim hpre.1 hpre.2
  cases kind with
  | log => exact getType_log h ht
  | dump => exact getType_dump h ht
  | miniDump =>
    dsimp only [FileKind.fileName, FileKind.affixes, FileKind.logType]
    rw [getType_of_ending rfl rfl (by decide), if_neg (by decide), startsWith_text ht]
  | sblock =>
    dsimp only [FileKind.fileName, FileKind.affixes, FileKind.logType]
    rw [getType_of_ending rfl rfl (by decide), if_neg (by decide),
      startsWith_of_ne (hne _ (by decide)), startsWith_text ht]
  | sbuf =>
    dsimp only [FileKind.fileName, FileKind.affixes, FileKind.logType]
    rw [getType_of_ending rfl rfl (by decide), if_neg (by decide),
      startsWith_of_ne (hne _ (by decide)), startsWith_of_ne (hne _ (by decide)),
      startsWith_text ht]
  | smsg =>
    dsimp only [FileKind.fileName, FileKind.affixes, FileKind.logType]
    rw [getType_of_ending rfl rfl (by decide), if_neg (by decide),
      startsWith_of_ne (hne _ (by decide)), startsWith_of_ne (hne _ (by decide)),
      startsWith_of_ne (hne _ (by decide)), startsWith_text ht]
  | dumpMem => exact absurd rfl hkind.1
  | sleepLog => exact absurd rfl hkind.2.1
  | ringBuf => exact absurd rfl hkind.2.2

theorem take_logName (h : cp ∈ modemNames) (ht : FileTime.Fits t) :
    ('0' :: '-' :: cp ++ '-' :: t.text '_' ++ ['.', 'l', 'o', 'g']).take 63 =
      FileKind.fileName cp t .log := by
  have hcp : cp.length ≤ 11 := by
    simp only [modemNames, mem_cons, not_mem_nil, or_false] at h
    rcases h with rfl | rfl | rfl | rfl | rfl | rfl <;> decide
  have htext : (t.text '_').length = 19 := by
    rw [text_eq ht]
    rfl
  rw [take_of_length_le]
  · simp [FileKind.fileName, FileKind.affixes]
  · simp only [length_append, length_cons, length_nil, htext]
    omega

theorem create_spec (id : Nat) (kind : FileKind) (h : d.name ∈ modemNames) (ht : FileTime.Fits t) :
    ∃ time, (kind.create id t d).1.logFiles =
      d.logFiles ++ [LogFile.created id (kind.fileName d.name t) kind.logType time] := by
  cases kind with
  | log =>
    refine ⟨t, ?_⟩
    rw [FileKind.create, ← take_logName h ht]
    rfl
  | dump | dumpMem | miniDump | smsg | sbuf | sblock | sleepLog | ringBuf => exact ⟨.zero, rfl⟩

theorem names_read_back (id : Nat) (kind : FileKind) (h : d.name ∈ modemNames)
    (ht : FileTime.Fits t) :
    ∃ f, (kind.create id t d).1.logFiles = d.logFiles ++ [f] ∧
      (getType f.baseName = (f.type, t) ↔ kind.Known) := by
  obtain ⟨time, hfile⟩ := create_spec id kind h ht
  refine ⟨_, hfile, ?_⟩
  change getType (kind.fileName d.name t) = (kind.logType, t) ↔ kind.Known
  constructor
  · intro hread
    by_contra hkind
    rw [getType_other h hkind] at hread
    have htype : LogType.unknown = kind.logType := congrArg Prod.fst hread
    cases kind <;> cases htype
  · exact getType_known h ht

/-- A log of one CP. -/
theorem wcn_names_read_back :
    ∃ f, (FileKind.create 0 ⟨2015, 5, 14, 23, 59, 7⟩ (.new ['c', 'p', '_', 'w', 'c', 'n'])
        .log).1.logFiles = [] ++ [f] ∧
      (getType f.baseName = (f.type, ⟨2015, 5, 14, 23, 59, 7⟩) ↔ FileKind.log.Known) :=
  names_read_back 0 .log (.head _) ⟨by decide, by decide, by decide, by decide, by decide, by decide⟩

/-- A sleep log and a ring buffer file are created with a type and a time that are not found in
their names. -/
theorem sleep_log_unknown :
    getType (FileKind.fileName ['c', 'p', '_', 'w', 'c', 'n'] ⟨2015, 5, 14, 23, 59, 7⟩ .sleepLog) =
        (.unknown, .zero) ∧
      getType (FileKind.fileName ['c', 'p', '_', 'w', 'c', 'n'] ⟨2015, 5, 14, 23, 59, 7⟩ .ringBuf) =
        (.unknown, .zero) ∧
      FileKind.logType .sleepLog = .ringbuf ∧ FileKind.logType .ringBuf = .ringbuf := by
  decide

end SprdVendor.SlogModem
