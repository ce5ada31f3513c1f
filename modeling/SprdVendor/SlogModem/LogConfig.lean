import SprdVendor.Lib.Text
import SprdVendor.Lib.Tokens
import SprdVendor.SlogModem.FileNames

namespace SprdVendor.SlogModem
open Lib List

/-- The modems; the value `CT_UNKNOWN` is `none` in an `Option CpType`. -/
inductive CpType
  | wcdma | td | threeMode | fourMode | fiveMode | wcn
deriving DecidableEq, Repr

def isBlank (c : Char) : Bool := c = ' ' ∨ c = '\t' ∨ c = '\r' ∨ c = '\n'

def streamWord : Name := ['s', 't', 'r', 'e', 'a', 'm']
def minidumpWord : Name := ['m', 'i', 'n', 'i', 'd', 'u', 'm', 'p']
def sdLogSizeWord : Name := ['s', 'd', '_', 'l', 'o', 'g', '_', 's', 'i', 'z', 'e']
def logFileSizeWord : Name := ['l', 'o', 'g', '_', 'f', 'i', 'l', 'e', '_', 's', 'i', 'z', 'e']
def dataLogSizeWord : Name := ['d', 'a', 't', 'a', '_', 'l', 'o', 'g', '_', 's', 'i', 'z', 'e']
def logOverwriteWord : Name := ['l', 'o', 'g', '_', 'o', 'v', 'e', 'r', 'w', 'r', 'i', 't', 'e']
def enableWord : Name := ['e', 'n', 'a', 'b', 'l', 'e']
def disableWord : Name := ['d', 'i', 's', 'a', 'b', 'l', 'e']
def onWord : Name := ['o', 'n']
def offWord : Name := ['o', 'f', 'f']

/-! ### A line of either file -/

/-- The line is a C string, so that its end is the terminating NUL. -/
def LogConfig.getToken (buf : List Char) : Option (Name × List Char) := token isBlank buf

/-- `errno` is `ERANGE` once `strtoul` has met a number that `unsigned long` cannot hold; nothing
sets it back. -/
def setErange (w : Nat) (buf : List Char) (erange : Bool) : Bool :=
  erange || decide (2 ^ w ≤ (scanNumber 0 buf).2)

structure Stream (modemType : Name → Option CpType) where
  modemName : Name
  type : CpType
  enable : Bool
  size : Nat
  level : BitVec 32
  known : modemType modemName = some type
deriving DecidableEq

def streamNumber (w : Nat) (buf : List Char) (erange : Bool) : Option (Nat × List Char) × Bool :=
  match LogConfig.getToken buf with
  | none => (none, erange)
  | some (t, rest) =>
    let n := strtoul w 0 (t ++ rest)
    let endp := scanEnd 0 (t ++ rest)
    let erange := setErange w (t ++ rest) erange
    if (n = 2 ^ w - 1 ∧ erange = true) ∨ endp.head?.any (!isBlank ·) then (none, erange)
    else (some (n, endp), erange)

/-- `parse_stream_line` of both classes up to the point where the entry is made. There is no result
for an invalid line and no entry for an unknown CP. -/
def parseStream (modemType : Name → Option CpType) (w : Nat) (buf : List Char) (erange : Bool) :
    Option (Option (Stream modemType)) × Bool :=
  match LogConfig.getToken buf with
  | none => (none, erange)
  | some (name, buf) =>
    match h : modemType name with
    | none => (some none, erange)
    | some type =>
      match LogConfig.getToken buf with
      | none => (none, erange)
      | some (state, buf) =>
        match streamNumber w buf erange with
        | (none, erange) => (none, erange)
        | (some (size, buf), erange) =>
          match streamNumber w buf erange with
          | (none, erange) => (none, erange)
          | (some (level, _), erange) =>
            (some (some ⟨name, type, state = onWord, size, .ofNat 32 level, h⟩), erange)

/-! ### The configuration of the logs -/

namespace LogConfig

def getModemType (name : Name) : Option CpType :=
  (modemNames.zip [.wcn, .wcdma, .threeMode, .fourMode, .fiveMode, .td]).lookup name

abbrev ConfigEntry := Stream getModemType

def setEntry (e : ConfigEntry) : List ConfigEntry → List ConfigEntry
  | [] => [e]
  | x :: l => if x.type = e.type then e :: l else x :: setEntry e l

theorem mem_types_setEntry
    (h : t ∈ (setEntry e l).map Stream.type) : t = e.type ∨ t ∈ l.map Stream.type := by
  induction l with
  | nil => exact .inl (mem_singleton.1 h)
  | cons x l ih =>
    rw [setEntry] at h
    split at h
    case isTrue hx =>
      rw [map_cons, mem_cons] at h
      obtain h | h := h
      · exact .inl h
      · exact .inr (mem_cons_of_mem _ h)
    case isFalse hx =>
      rw [map_cons, mem_cons] at h
      obtain h | h := h
      · exact .inr (h ▸ mem_cons_self)
      · exact (ih h).imp_right (mem_cons_of_mem _)

theorem nodup_setEntry (e : ConfigEntry) (h : (l.map Stream.type).Nodup) :
    ((setEntry e l).map Stream.type).Nodup := by
  induction l with
  | nil => exact nodup_singleton _
  | cons x l ih =>
    obtain ⟨hx, hl⟩ := nodup_cons.1 h
    rw [setEntry]
    split
    case isTrue heq => exact nodup_cons.2 ⟨heq ▸ hx, hl⟩
    case isFalse hne =>
      refine nodup_cons.2 ⟨fun hmem => ?_, ih hl⟩
      obtain hmem | hmem := mem_types_setEntry hmem
      · exact hne hmem
      · exact hx hmem

end LogConfig

structure LogConfig where
  dirty : Bool
  config : List LogConfig.ConfigEntry
  enableMd : Bool
  logFileSize : Nat
  dataSize : Nat
  sdSize : Nat
  overwriteOldLog : Bool
  distinct : (config.map Stream.type).Nodup
deriving DecidableEq

namespace LogConfig

def fresh : LogConfig := ⟨false, [], false, 5, 25, 250, true, List.nodup_nil⟩

def parseEnableDisable (buf : List Char) : Option Bool :=
  (getToken buf).map fun t => decide (t.1 = enableWord)

def parseNumber (w : Nat) (buf : List Char) (erange : Bool) : Option Nat × Bool :=
  let n := strtoul w 0 buf
  let erange := setErange w buf erange
  if (n = 2 ^ w - 1 ∧ erange = true) ∨ (scanEnd 0 buf).head?.any isSpace = false then
    (none, erange)
  else (some n, erange)

def parseStreamLine (w : Nat) (buf : List Char) (c : LogConfig) (erange : Bool) :
    Option LogConfig × Bool :=
  match parseStream getModemType w buf erange with
  | (none, erange) => (none, erange)
  | (some none, erange) => (some c, erange)
  | (some (some e), erange) =>
    (some { c with config := setEntry e c.config, distinct := nodup_setEntry e c.distinct }, erange)

def flagLine (buf : List Char) (set : Bool → LogConfig) (erange : Bool) :
    Option LogConfig × Bool :=
  ((parseEnableDisable buf).map set, erange)

def sizeLine (w : Nat) (buf : List Char) (set : Nat → LogConfig) (erange : Bool) :
    Option LogConfig × Bool :=
  ((parseNumber w buf erange).1.map set, (parseNumber w buf erange).2)

def parseKeyword (w : Nat) (t : Name) (buf : List Char) (c : LogConfig) (erange : Bool) :
    Option LogConfig × Bool :=
  if t = streamWord then c.parseStreamLine w buf erange
  else if t = minidumpWord then flagLine buf (fun en => { c with enableMd := en }) erange
  else if t = sdLogSizeWord then sizeLine w buf (fun n => { c with sdSize := n }) erange
  else if t = logFileSizeWord then sizeLine w buf (fun n => { c with logFileSize := n }) erange
  else if t = dataLogSizeWord then sizeLine w buf (fun n => { c with dataSize := n }) erange
  else if t = logOverwriteWord then flagLine buf (fun en => { c with overwriteOldLog := en }) erange
  else (none, erange)

/-- There is no result for an invalid line. -/
def parseLine (w : Nat) (buf : List Char) (c : LogConfig) (erange : Bool) :
    Option LogConfig × Bool :=
  match getToken buf with
  | none => (some c, erange)
  | some (t, _) =>
    if t.head? = some '#' then (some c, erange)
    -- the cursor moves on from the start of the line, not from the start of the token
    else c.parseKeyword w t (buf.drop t.length) erange

def readLine (w : Nat) (s : LogConfig × Bool) (line : List Char) : LogConfig × Bool :=
  let r := parseLine w (line.takeWhile (· ≠ '\x00')) s.1 s.2
  (r.1.getD s.1, r.2)

/-- `fgets` gets a buffer of 1024 bytes. -/
def readConfig (w : Nat) (file : List Char) (c : LogConfig) (erange : Bool) : LogConfig × Bool :=
  (cutLines '\n' 1023 [] file).foldl (readLine w) (c, erange)

def flagWord (en : Bool) : Name := if en then enableWord else disableWord

def printUnsigned (n : Nat) : Name := Nat.toDigits 10 (n % 2 ^ 32)

def streamText (e : ConfigEntry) : List Char :=
  streamWord ++ '\t' :: (e.modemName ++ '\t' :: ((if e.enable then onWord else offWord) ++
    '\t' :: (printUnsigned e.size ++ '\t' :: (printUnsigned e.level.toNat ++ ['\n']))))

def columnsText : List Char :=
  ['#', 'T', 'y', 'p', 'e', '\t', 'N', 'a', 'm', 'e', '\t', 'S', 't', 'a', 't', 'e', '\t',
    'S', 'i', 'z', 'e', '\t', 'L', 'e', 'v', 'e', 'l']

def settingLines (c : LogConfig) : List (List Char) :=
  [minidumpWord ++ ' ' :: (flagWord c.enableMd ++ ['\n']),
    logFileSizeWord ++ ' ' :: (printUnsigned c.logFileSize ++ ['\n']),
    dataLogSizeWord ++ ' ' :: (printUnsigned c.dataSize ++ ['\n']),
    sdLogSizeWord ++ ' ' :: (printUnsigned c.sdSize ++ ['\n']),
    logOverwriteWord ++ ' ' :: (flagWord c.overwriteOldLog ++ ['\n']),
    ['\n'],
    columnsText ++ ['\n']]

def saveLines (c : LogConfig) : List (List Char) := c.settingLines ++ c.config.map streamText

def save (c : LogConfig) : List Char × LogConfig :=
  (c.saveLines.flatten, { c with dirty := false })

end LogConfig

/-! ### The configuration of `slog.conf` -/

structure SLogConfig where
  config : List (CpType × Bool)
  totalEnable : Bool
deriving DecidableEq, Repr

namespace SLogConfig

def getModemType (name : Name) : Option CpType :=
  [(['c', 'p', '_', 'w', 'c', 'n'], .wcn), (['c', 'p', '_', 'w', 'c', 'd', 'm', 'a'], .wcdma),
    (['c', 'p', '_', 't', 'd', '-', 'l', 't', 'e'], .fiveMode),
    (['c', 'p', '_', 't', 'd', 'd', '-', 'l', 't', 'e'], .threeMode),
    (['c', 'p', '_', 'f', 'd', 'd', '-', 'l', 't', 'e'], .fourMode),
    (['c', 'p', '_', 't', 'd', '-', 's', 'c', 'd', 'm', 'a'], CpType.td)].lookup name

def parseStreamLine (w : Nat) (buf : List Char) (c : SLogConfig) (erange : Bool) :
    Option SLogConfig × Bool :=
  match parseStream getModemType w buf erange with
  | (none, erange) => (none, erange)
  | (some none, erange) => (some c, erange)
  | (some (some e), erange) =>
    (some { c with config := c.config ++ [(e.type, e.enable)] }, erange)

/-- A line with an unknown keyword is no error in this file. -/
def parseLine (w : Nat) (buf : List Char) (c : SLogConfig) (erange : Bool) :
    Option SLogConfig × Bool :=
  match LogConfig.getToken buf with
  | none => (some c, erange)
  | some (t, _) =>
    if t.head? = some '#' then (some c, erange)
    else if t = streamWord then c.parseStreamLine w (buf.drop t.length) erange
    else if t = enableWord then (some { c with totalEnable := true }, erange)
    else (some c, erange)

end SLogConfig

/-! ### Numbers in a line -/

theorem isSpace_of_isBlank (h : isBlank c = true) : isSpace c = true := by
  simp only [isBlank, decide_eq_true_iff] at h
  obtain rfl | rfl | rfl | rfl := h <;> decide

theorem digitVal_of_isBlank (h : isBlank c = true) : digitVal c = 36 := by
  simp only [isBlank, decide_eq_true_iff] at h
  obtain rfl | rfl | rfl | rfl := h <;> decide

namespace LogConfig

theorem printUnsigned_of_lt (h : n < 2 ^ 32) : printUnsigned n = Nat.toDigits 10 n := by
  rw [printUnsigned, Nat.mod_eq_of_lt h]

theorem isDigit_of_mem_printUnsigned (h : c ∈ printUnsigned n) : digitVal c < 10 :=
  digitVal_lt_of_mem_toDigits (by decide) (by decide) h

theorem isBlank_printUnsigned (h : c ∈ printUnsigned n) : isBlank c = false := by
  have hlt := isDigit_of_mem_printUnsigned h
  cases hb : isBlank c with
  | false => rfl
  | true =>
    rw [digitVal_of_isBlank hb] at hlt
    exact absurd hlt (by decide)

theorem printUnsigned_ne_nil : printUnsigned n ≠ [] := Nat.toDigits_ne_nil

variable {w : Nat}

theorem two_pow_le (hw : 32 ≤ w) (hn : n < 2 ^ 32) : n < 2 ^ w :=
  hn.trans_le (Nat.pow_le_pow_right (by decide) hw)

theorem setErange_of_scan (hw : 32 ≤ w) (hn : n < 2 ^ 32)
    (h : scanNumber 0 buf = (false, n)) : setErange w buf false = false := by
  rw [setErange, h, Bool.false_or]
  exact decide_eq_false (not_le.2 (two_pow_le hw hn))

theorem parseNumber_print (hw : 32 ≤ w) (hn : n < 2 ^ 32) :
    parseNumber w (' ' :: (printUnsigned n ++ ['\n'])) false = (some n, false) := by
  have hend : ∀ c ∈ ['\n'].head?, digitVal c = 36 := by
    rintro c ⟨⟩
    decide
  have hscan : scanNumber 0 (' ' :: (printUnsigned n ++ ['\n'])) = (false, n) := by
    rw [scanNumber_space (by decide), printUnsigned_of_lt hn, scanNumber_dec n hend]
  have hstop : scanEnd 0 (' ' :: (printUnsigned n ++ ['\n'])) = ['\n'] := by
    have hdec : scanEnd 0 (printUnsigned n ++ ['\n']) = ['\n'] := by
      rw [printUnsigned_of_lt hn, scanEnd_dec n hend]
    rw [scanEnd_space (by decide), hdec]
    rw [hdec]
    intro h
    exact printUnsigned_ne_nil (self_eq_append_left.1 h)
  have hspace : ['\n'].head?.any isSpace = true := rfl
  simp only [parseNumber, setErange_of_scan hw hn hscan, hstop,
    strtoul_of_scan hscan (two_pow_le hw hn), hspace, Bool.false_eq_true, Bool.true_eq_false,
    and_false, or_false, if_false]

theorem streamNumber_print (hw : 32 ≤ w) (hn : n < 2 ^ 32) (hc : isBlank c = true) (s : List Char) :
    streamNumber w ('\t' :: (printUnsigned n ++ c :: s)) false = (some (n, c :: s), false) := by
  have hend : ∀ d ∈ (c :: s).head?, digitVal d = 36 := by
    rintro d ⟨⟩
    exact digitVal_of_isBlank hc
  have htoken :
      getToken ('\t' :: (printUnsigned n ++ c :: s)) = some (printUnsigned n, c :: s) := by
    rw [getToken, token_cons_blank (by decide)]
    apply token_word printUnsigned_ne_nil (fun d => isBlank_printUnsigned)
    rintro d ⟨⟩
    exact hc
  have hscan : scanNumber 0 (printUnsigned n ++ c :: s) = (false, n) := by
    rw [printUnsigned_of_lt hn, scanNumber_dec n hend]
  have hstop : scanEnd 0 (printUnsigned n ++ c :: s) = c :: s := by
    rw [printUnsigned_of_lt hn, scanEnd_dec n hend]
  have hblank : (c :: s).head?.any (!isBlank ·) = false := by
    simp [hc]
  simp only [streamNumber, htoken, setErange_of_scan hw hn hscan, hstop,
    strtoul_of_scan hscan (two_pow_le hw hn), hblank, Bool.false_eq_true, and_false, or_false,
    if_false]

/-! ### The file that was saved -/

theorem mem_modemNames_of_known (h : getModemType name = some t) : name ∈ modemNames := by
  obtain ⟨l, l', hzip, -⟩ := lookup_eq_some_iff.1 h
  have hmem : (name, t) ∈ modemNames.zip [.wcn, .wcdma, .threeMode, .fourMode, .fiveMode, .td] := by
    rw [hzip]
    exact mem_append_right l mem_cons_self
  exact (of_mem_zip hmem).1

def isPlain (c : Char) : Bool := !isBlank c && c ≠ '\x00'

theorem isBlank_of_plain {t : Name} (h : t.all isPlain = true) : ∀ c ∈ t, isBlank c = false := by
  intro c hc
  have hplain := all_eq_true.1 h c hc
  rw [isPlain, Bool.and_eq_true] at hplain
  simpa using hplain.1

theorem getToken_plain (hne : t ≠ []) (h : t.all isPlain = true) (hc : isBlank c = true)
    (s : List Char) : getToken (t ++ c :: s) = some (t, c :: s) := by
  apply token_word hne (isBlank_of_plain h)
  rintro d ⟨⟩
  exact hc

theorem modemNames_plain (h : name ∈ modemNames) :
    name ≠ [] ∧ name.all isPlain = true ∧ name.length ≤ 11 := by
  simp only [modemNames, mem_cons, not_mem_nil, or_false] at h
  rcases h with rfl | rfl | rfl | rfl | rfl | rfl <;> exact ⟨by decide, by decide, by decide⟩

theorem getToken_tab (s : List Char) : getToken ('\t' :: s) = getToken s :=
  token_cons_blank (by decide)

theorem parseStream_print (hw : 32 ≤ w) (e : ConfigEntry) (hsize : e.size < 2 ^ 32) :
    parseStream getModemType w ((streamText e).drop streamWord.length) false =
      (some (some e), false) := by
  obtain ⟨name, type, enable, size, level, known⟩ := e
  have hname : ∀ s : List Char,
      getToken ('\t' :: (name ++ '\t' :: s)) = some (name, '\t' :: s) := by
    intro s
    obtain ⟨hne, hplain, -⟩ := modemNames_plain (mem_modemNames_of_known known)
    rw [getToken_tab, getToken_plain hne hplain (by decide)]
  have hstate : ∀ s : List Char,
      getToken ('\t' :: ((if enable then onWord else offWord) ++ '\t' :: s)) =
        some (if enable then onWord else offWord, '\t' :: s) := by
    intro s
    rw [getToken_tab]
    cases enable with
    | _ => exact getToken_plain (by decide) (by decide) (by decide) s
  have hon : decide ((if enable = true then onWord else offWord) = onWord) = enable := by
    cases enable <;> decide
  rw [streamText, drop_left]
  simp only [parseStream, hname, hstate, streamNumber_print (c := '\t') hw hsize (by decide),
    streamNumber_print (c := '\n') hw level.isLt (by decide)]
  split
  case h_1 h =>
    rw [known] at h
    cases h
  case h_2 t h =>
    obtain rfl : type = t := Option.some.inj (known.symm.trans h)
    simp only [hon, BitVec.ofNat_toNat, BitVec.setWidth_eq]

def isText (c : Char) : Bool := c ≠ '\n' ∧ c ≠ '\x00'

def Written (line : List Char) : Prop :=
  ∃ body, line = body ++ ['\n'] ∧ body.all isText = true ∧ body.length < 1023

theorem isText_of_isPlain {t : Name} (h : t.all isPlain = true) : t.all isText = true := by
  rw [all_eq_true] at h ⊢
  intro c hc
  have hplain := h c hc
  simp only [isPlain, isBlank, Bool.and_eq_true, Bool.not_eq_true', decide_eq_false_iff_not,
    not_or, decide_eq_true_iff] at hplain
  simp only [isText, decide_eq_true_iff]
  exact ⟨hplain.1.2.2.2, hplain.2⟩

theorem isPlain_printUnsigned (n : Nat) : (printUnsigned n).all isPlain = true := by
  rw [all_eq_true]
  intro c hc
  have hne : c ≠ '\x00' := by
    rintro rfl
    exact absurd (isDigit_of_mem_printUnsigned hc) (by decide)
  rw [isPlain, isBlank_printUnsigned hc, decide_eq_true hne]
  rfl

theorem length_printUnsigned_le (n : Nat) : (printUnsigned n).length ≤ 10 := by
  apply Nat.toDigits_length 10 (n % 2 ^ 32) 10 (by decide)
  exact (Nat.mod_lt n (by decide)).trans (by decide)

theorem written_size (h : t.all isPlain = true) (hlen : t.length ≤ 13) (n : Nat) :
    Written (t ++ ' ' :: (printUnsigned n ++ ['\n'])) := by
  have hdigits := length_printUnsigned_le n
  refine ⟨t ++ ' ' :: printUnsigned n, by rw [append_assoc, cons_append], ?_, ?_⟩
  · rw [all_append, all_cons, isText_of_isPlain h, isText_of_isPlain (isPlain_printUnsigned n)]
    rfl
  · rw [length_append, length_cons]
    omega

theorem written_flag (h : t.all isPlain = true) (hlen : t.length ≤ 13) (en : Bool) :
    Written (t ++ ' ' :: (flagWord en ++ ['\n'])) := by
  have hflag : (flagWord en).all isText = true ∧ (flagWord en).length ≤ 7 := by
    cases en <;> decide
  refine ⟨t ++ ' ' :: flagWord en, by rw [append_assoc, cons_append], ?_, ?_⟩
  · rw [all_append, all_cons, isText_of_isPlain h, hflag.1]
    rfl
  · rw [length_append, length_cons]
    omega

theorem written_stream (e : ConfigEntry) : Written (streamText e) := by
  obtain ⟨-, hname, hlen⟩ := modemNames_plain (mem_modemNames_of_known e.known)
  have hstate : (if e.enable = true then onWord else offWord).all isText = true ∧
      (if e.enable = true then onWord else offWord).length ≤ 3 := by
    cases e.enable <;> decide
  have hstream : streamWord.all isText = true ∧ streamWord.length = 6 := by decide
  have hsize := length_printUnsigned_le e.size
  have hlevel := length_printUnsigned_le e.level.toNat
  have htab : isText '\t' = true := by decide
  refine ⟨streamWord ++ '\t' :: (e.modemName ++ '\t' :: ((if e.enable then onWord else offWord) ++
    '\t' :: (printUnsigned e.size ++ '\t' :: printUnsigned e.level.toNat))), ?_, ?_, ?_⟩
  · simp [streamText]
  · simp [isText_of_isPlain hname, hstate.1, hstream.1, htab, isText_of_isPlain (isPlain_printUnsigned _)]
  · simp only [length_append, length_cons]
    omega

theorem saveLines_written (c : LogConfig) : ∀ l ∈ c.saveLines, Written l := by
  intro l hl
  rw [saveLines, mem_append] at hl
  obtain hl | hl := hl
  · simp only [settingLines, mem_cons, not_mem_nil, or_false] at hl
    obtain rfl | rfl | rfl | rfl | rfl | rfl | rfl := hl
    · exact written_flag (by decide) (by decide) c.enableMd
    · exact written_size (by decide) (by decide) c.logFileSize
    · exact written_size (by decide) (by decide) c.dataSize
    · exact written_size (by decide) (by decide) c.sdSize
    · exact written_flag (by decide) (by decide) c.overwriteOldLog
    · exact ⟨[], rfl, rfl, by decide⟩
    · exact ⟨columnsText, rfl, by decide, by decide⟩
  · obtain ⟨e, -, rfl⟩ := mem_map.1 hl
    exact written_stream e

theorem readLine_written (hl : Written line) (h : parseLine w line c false = (some c', false)) :
    readLine w (c, false) line = (c', false) := by
  obtain ⟨body, rfl, hbody, -⟩ := hl
  have hall : ∀ d ∈ body ++ ['\n'], decide (d ≠ '\x00') = true := by
    intro d hd
    obtain hd | hd := mem_append.1 hd
    · have htext := all_eq_true.1 hbody d hd
      simp only [isText, decide_eq_true_iff] at htext
      exact decide_eq_true htext.2
    · rw [mem_singleton.1 hd]
      decide
  rw [readLine, takeWhile_eq_self_iff.2 hall]
  rw [h]
  rfl

theorem readConfig_lines {ls : List (List Char)} (h : ∀ l ∈ ls, Written l) (c : LogConfig)
    (erange : Bool) :
    readConfig w ls.flatten c erange = ls.foldl (readLine w) (c, erange) := by
  rw [readConfig, cutLines_flatten]
  intro l hl
  obtain ⟨body, rfl, hbody, hlen⟩ := h l hl
  refine ⟨body, rfl, ?_, hlen⟩
  intro hmem
  have htext := all_eq_true.1 hbody _ hmem
  exact absurd htext (by decide)

theorem setEntry_new (h : e.type ∉ l.map Stream.type) : setEntry e l = l ++ [e] := by
  induction l with
  | nil => rfl
  | cons x l ih =>
    rw [map_cons, mem_cons, not_or] at h
    rw [setEntry, if_neg (Ne.symm h.1), ih h.2, cons_append]

theorem readLine_streams (hw : 32 ≤ w) (hsize : ∀ e ∈ es, e.size < 2 ^ 32)
    (c : LogConfig) (h : ((c.config ++ es).map Stream.type).Nodup) :
    (es.map streamText).foldl (readLine w) (c, false) =
      ({ c with config := c.config ++ es, distinct := h }, false) := by
  induction es generalizing c with
  | nil =>
    obtain ⟨dirty, config, _, _, _, _, _, _⟩ := c
    simp
  | cons e es ih =>
    have hnew : e.type ∉ c.config.map Stream.type := by
      rw [map_append, map_cons] at h
      intro hmem
      exact disjoint_of_nodup_append h hmem mem_cons_self
    have hparse : parseLine w (streamText e) c false =
        (some { c with
          config := setEntry e c.config, distinct := nodup_setEntry e c.distinct }, false) := by
      have htoken : getToken (streamText e) = some (streamWord, (streamText e).drop 6) :=
        getToken_plain (by decide) (by decide) (by decide) _
      have hstream := parseStream_print hw e (hsize e mem_cons_self)
      rw [parseLine, htoken]
      dsimp only
      rw [if_neg (by decide), parseKeyword, if_pos rfl, parseStreamLine, hstream]
    rw [map_cons, foldl_cons, readLine_written (written_stream e) hparse]
    have hassoc : setEntry e c.config ++ es = c.config ++ e :: es := by
      rw [setEntry_new hnew, append_assoc, singleton_append]
    rw [ih (fun e he => hsize e (mem_cons_of_mem _ he)) _ (by rw [hassoc]; exact h)]
    simp only [hassoc]

theorem readLine_size {f : LogConfig → Nat → LogConfig} (hw : 32 ≤ w) (hn : n < 2 ^ 32)
    (ht : t.all isPlain = true) (hlen : t.length ≤ 13)
    (hset : ∀ c s, parseLine w (t ++ ' ' :: s) c false = sizeLine w (' ' :: s) (f c) false)
    (c : LogConfig) :
    readLine w (c, false) (t ++ ' ' :: (printUnsigned n ++ ['\n'])) = (f c n, false) := by
  apply readLine_written (written_size ht hlen n)
  rw [hset, sizeLine, parseNumber_print hw hn]
  rfl

theorem readLine_flag {f : LogConfig → Bool → LogConfig} (en : Bool)
    (ht : t.all isPlain = true) (hlen : t.length ≤ 13)
    (hset : ∀ c s, parseLine w (t ++ ' ' :: s) c false = flagLine (' ' :: s) (f c) false)
    (c : LogConfig) :
    readLine w (c, false) (t ++ ' ' :: (flagWord en ++ ['\n'])) = (f c en, false) := by
  have hflag : parseEnableDisable (' ' :: (flagWord en ++ ['\n'])) = some en := by
    cases en <;> decide
  apply readLine_written (written_flag ht hlen en)
  rw [hset, flagLine, hflag]
  rfl

theorem readLine_settings (hw : 32 ≤ w) (c : LogConfig)
    (hsizes : c.logFileSize < 2 ^ 32 ∧ c.dataSize < 2 ^ 32 ∧ c.sdSize < 2 ^ 32) (c₀ : LogConfig) :
    c.settingLines.foldl (readLine w) (c₀, false) =
      ({ c with dirty := c₀.dirty, config := c₀.config, distinct := c₀.distinct }, false) := by
  obtain ⟨hfile, hdata, hsd⟩ := hsizes
  have hmd := readLine_flag (w := w) (f := fun c en => { c with enableMd := en }) c.enableMd
    (t := minidumpWord) (by decide) (by decide) fun c s => by
      rw [parseLine, getToken_plain (by decide) (by decide) (by decide)]
      rfl
  have hfile := readLine_size (f := fun c n => { c with logFileSize := n }) hw hfile
    (t := logFileSizeWord) (by decide) (by decide) fun c s => by
      rw [parseLine, getToken_plain (by decide) (by decide) (by decide)]
      rfl
  have hdata := readLine_size (f := fun c n => { c with dataSize := n }) hw hdata
    (t := dataLogSizeWord) (by decide) (by decide) fun c s => by
      rw [parseLine, getToken_plain (by decide) (by decide) (by decide)]
      rfl
  have hsd := readLine_size (f := fun c n => { c with sdSize := n }) hw hsd
    (t := sdLogSizeWord) (by decide) (by decide) fun c s => by
      rw [parseLine, getToken_plain (by decide) (by decide) (by decide)]
      rfl
  have hover := readLine_flag (w := w) (f := fun c en => { c with overwriteOldLog := en })
    c.overwriteOldLog (t := logOverwriteWord) (by decide) (by decide) fun c s => by
      rw [parseLine, getToken_plain (by decide) (by decide) (by decide)]
      rfl
  have hempty : ∀ c : LogConfig, readLine w (c, false) ['\n'] = (c, false) := fun c => rfl
  have hcolumns : ∀ c : LogConfig, readLine w (c, false) (columnsText ++ ['\n']) = (c, false) :=
    fun c => rfl
  simp [settingLines, hmd, hfile, hdata, hsd, hover, hempty, hcolumns]

/-- The file that `save` writes gives the configuration back, its streams in their order. -/
theorem read_saved_config (hw : 32 ≤ w) (c : LogConfig)
    (hsizes : c.logFileSize < 2 ^ 32 ∧ c.dataSize < 2 ^ 32 ∧ c.sdSize < 2 ^ 32)
    (hstreams : ∀ e ∈ c.config, e.size < 2 ^ 32) :
    readConfig w c.save.1 fresh false = (c.save.2, false) := by
  rw [save]
  rw [readConfig_lines c.saveLines_written, saveLines, foldl_append, readLine_settings hw c hsizes]
  exact readLine_streams hw hstreams
    { c with dirty := false, config := [], distinct := nodup_nil } c.distinct

def twoStreams : LogConfig where
  dirty := true
  config :=
    [⟨['c', 'p', '_', '5', 'm', 'o', 'd', 'e'], .fiveMode, true, 4294967295, -1, rfl⟩,
      ⟨['c', 'p', '_', 'w', 'c', 'n'], .wcn, false, 0, 5, rfl⟩]
  enableMd := true
  logFileSize := 10
  dataSize := 0
  sdSize := 1024
  overwriteOldLog := false
  distinct := by decide

theorem read_saved_two_streams :
    readConfig 32 twoStreams.save.1 fresh false = ({ twoStreams with dirty := false }, false) :=
  read_saved_config le_rfl twoStreams (by decide) (by decide)

end LogConfig

end SprdVendor.SlogModem
