import SprdVendor.SlogModem.LogConfig

namespace SprdVendor.SlogModem
open Lib List Option

/-! ### A keyword with blanks in front of it

The cursor is moved on by the length of the keyword from the start of the line. Blanks in front of
the keyword push the end of the keyword behind the cursor, so that it is read again in place of the
argument. -/

def isLetter (c : Char) : Bool := 10 ≤ digitVal c ∧ isSpace c = false ∧ c ≠ '-' ∧ c ≠ '+'

theorem parseStream_unknown
    (h : (LogConfig.getToken buf).any (fun name => (modemType name.1).isNone) = true)
    (erange : Bool) : parseStream modemType w buf erange = (some none, erange) := by
  rw [parseStream]
  cases htoken : LogConfig.getToken buf with
  | none =>
    rw [htoken] at h
    cases h
  | some name =>
    rw [htoken, any_some, isNone_iff_eq_none] at h
    dsimp only
    split
    case h_1 => rfl
    case h_2 type hknown =>
      rw [h] at hknown
      cases hknown

section

variable {pre t rest : List Char} {w : Nat} (hpre : ∀ c ∈ pre, isBlank c = true) (hne : pre ≠ [])
  (ht : t ≠ []) (hword : ∀ c ∈ t, isBlank c = false) (hrest : ∀ c ∈ rest.head?, isBlank c = true)

include hpre hne ht hword hrest in
theorem LogConfig.getToken_pushed :
    ∃ j < t.length, LogConfig.getToken ((pre ++ (t ++ rest)).drop t.length) =
      some (t.drop j, rest) := by
  refine ⟨t.length - pre.length, ?_, token_drop hpre hne ht hword hrest⟩
  have := length_pos_iff.2 hne
  have := length_pos_iff.2 ht
  omega

include hpre hne ht hword hrest in
theorem LogConfig.parseEnableDisable_pushed (henable : ∀ j < t.length, t.drop j ≠ enableWord) :
    LogConfig.parseEnableDisable ((pre ++ (t ++ rest)).drop t.length) = some false := by
  obtain ⟨j, hj, htoken⟩ := LogConfig.getToken_pushed hpre hne ht hword hrest
  rw [LogConfig.parseEnableDisable, htoken, map_some, decide_eq_false (henable j hj)]

include hpre hne ht hword hrest in
theorem parseStream_pushed (modemType : Name → Option CpType)
    (hunknown : ∀ j < t.length, modemType (t.drop j) = none) (erange : Bool) :
    parseStream modemType w ((pre ++ (t ++ rest)).drop t.length) erange = (some none, erange) := by
  obtain ⟨j, hj, htoken⟩ := LogConfig.getToken_pushed hpre hne ht hword hrest
  apply parseStream_unknown
  rw [htoken, any_some, hunknown j hj]
  rfl

include hpre hne ht in
/-- The end of the keyword is no number. Where it stands at the cursor the line is rejected, where
blanks stand there the number is zero. -/
theorem LogConfig.parseNumber_pushed (hw : 32 ≤ w) (hletter : t.all isLetter = true)
    (erange : Bool) :
    (LogConfig.parseNumber w ((pre ++ (t ++ rest)).drop t.length) erange).1 =
      if pre.length ≤ t.length then none else some 0 := by
  have hpos := length_pos_iff.2 hne
  have hpos' := length_pos_iff.2 ht
  obtain ⟨c, u, hu⟩ : ∃ c u, t.drop (t.length - pre.length) = c :: u := by
    apply exists_cons_of_ne_nil
    intro h
    have := congrArg List.length h
    rw [length_drop, length_nil] at this
    omega
  have hbuf : (pre ++ (t ++ rest)).drop t.length = pre.drop t.length ++ c :: (u ++ rest) := by
    rw [drop_append, drop_append_of_le_length (by omega), hu, cons_append]
  have hc : isLetter c = true := by
    apply all_eq_true.1 hletter c
    apply mem_of_mem_drop
    rw [hu]
    exact mem_cons_self
  simp only [isLetter, decide_eq_true_iff] at hc
  obtain ⟨hscan, hend⟩ := scan_letter hc.1 hc.2.1 hc.2.2
    (fun d hd => isSpace_of_isBlank (hpre d (mem_of_mem_drop hd))) (u ++ rest)
  have hlt : 1 < 2 ^ w := Nat.one_lt_two_pow (by omega)
  have hmax : ¬ 0 = 2 ^ w - 1 := by omega
  rw [hbuf, LogConfig.parseNumber, strtoul_of_scan hscan (by omega), hend]
  by_cases hlen : pre.length ≤ t.length
  · rw [drop_eq_nil_of_le hlen, if_pos hlen, nil_append, if_pos (.inr hc.2.1)]
  obtain ⟨d, v, hv⟩ : ∃ d v, pre.drop t.length = d :: v := by
    apply exists_cons_of_ne_nil
    intro h
    exact hlen (drop_eq_nil_iff.1 h)
  have hd : isSpace d = true := by
    apply isSpace_of_isBlank (hpre d _)
    apply mem_of_mem_drop
    rw [hv]
    exact mem_cons_self
  rw [hv, if_neg hlen, if_neg]
  rintro (h | h)
  · exact hmax h.1
  · simp only [cons_append, head?_cons, any_some, hd] at h
    cases h

end

namespace LogConfig

/-- What a line does to the configuration when `n` blanks stand in front of its keyword, whatever
follows the keyword. -/
def pushed (t : Name) (n : Nat) (c : LogConfig) : Option LogConfig :=
  if t = streamWord then some c
  else if t = minidumpWord then some { c with enableMd := false }
  else if t = sdLogSizeWord then if n ≤ t.length then none else some { c with sdSize := 0 }
  else if t = logFileSizeWord then if n ≤ t.length then none else some { c with logFileSize := 0 }
  else if t = dataLogSizeWord then if n ≤ t.length then none else some { c with dataSize := 0 }
  else if t = logOverwriteWord then some { c with overwriteOldLog := false }
  else none

theorem flagLine_fst (h : parseEnableDisable buf = some false) :
    (flagLine buf f erange).1 = some (f false) := by
  rw [flagLine, h]
  rfl

theorem sizeLine_fst [Decidable p] (h : (parseNumber w buf erange).1 = if p then none else some 0) :
    (sizeLine w buf f erange).1 = if p then none else some (f 0) := by
  rw [sizeLine, h]
  split <;> rfl

theorem parseStreamLine_fst (h : parseStream getModemType w buf erange = (some none, erange)) :
    (parseStreamLine w buf c erange).1 = some c := by
  rw [parseStreamLine, h]

theorem parseKeyword_eq_pushed
    (hstream : t = streamWord → parseStream getModemType w buf erange = (some none, erange))
    (hflag : t = minidumpWord ∨ t = logOverwriteWord → parseEnableDisable buf = some false)
    (hsize : t = sdLogSizeWord ∨ t = logFileSizeWord ∨ t = dataLogSizeWord →
      (parseNumber w buf erange).1 = if n ≤ t.length then none else some 0) (c : LogConfig) :
    (parseKeyword w t buf c erange).1 = pushed t n c := by
  by_cases h₁ : t = streamWord
  · rw [parseKeyword, if_pos h₁, pushed, if_pos h₁, parseStreamLine_fst (hstream h₁)]
  rw [parseKeyword, if_neg h₁, pushed, if_neg h₁]
  by_cases h₂ : t = minidumpWord
  · rw [if_pos h₂, if_pos h₂, flagLine_fst (hflag (.inl h₂))]
  rw [if_neg h₂, if_neg h₂]
  by_cases h₃ : t = sdLogSizeWord
  · rw [if_pos h₃, if_pos h₃, sizeLine_fst (hsize (.inl h₃))]
  rw [if_neg h₃, if_neg h₃]
  by_cases h₄ : t = logFileSizeWord
  · rw [if_pos h₄, if_pos h₄, sizeLine_fst (hsize (.inr (.inl h₄)))]
  rw [if_neg h₄, if_neg h₄]
  by_cases h₅ : t = dataLogSizeWord
  · rw [if_pos h₅, if_pos h₅, sizeLine_fst (hsize (.inr (.inr h₅)))]
  rw [if_neg h₅, if_neg h₅]
  by_cases h₆ : t = logOverwriteWord
  · rw [if_pos h₆, if_pos h₆, flagLine_fst (hflag (.inr h₆))]
  rw [if_neg h₆, if_neg h₆]

theorem parseKeyword_pushed (hw : 32 ≤ w) (hpre : ∀ c ∈ pre, isBlank c = true) (hne : pre ≠ [])
    (ht : t ≠ []) (hword : ∀ c ∈ t, isBlank c = false) (hrest : ∀ c ∈ rest.head?, isBlank c = true)
    (c : LogConfig) (erange : Bool) :
    (parseKeyword w t ((pre ++ (t ++ rest)).drop t.length) c erange).1 =
      pushed t pre.length c := by
  apply parseKeyword_eq_pushed
  · rintro rfl
    exact parseStream_pushed hpre hne ht hword hrest getModemType (by decide) erange
  · intro h
    apply parseEnableDisable_pushed hpre hne ht hword hrest
    obtain rfl | rfl := h <;> decide
  · intro h
    apply parseNumber_pushed hpre hne ht hw
    obtain rfl | rfl | rfl := h <;> decide

/-- The keyword `t` of a line takes no argument, or the argument in `rest` is one that the line is
taken to have anyway when `p` stands in front of it. -/
structure Unmoved (w : Nat) (erange : Bool) (p line : List Char) (t : Name) (rest : List Char) :
    Prop where
  stream : t = streamWord →
    line.takeWhile isBlank ≠ [] ∨
      (getToken rest).any (fun name => (getModemType name.1).isNone) = true
  flag : t = minidumpWord ∨ t = logOverwriteWord →
    line.takeWhile isBlank ≠ [] ∨ parseEnableDisable rest = some false
  size : t = sdLogSizeWord ∨ t = logFileSizeWord ∨ t = dataLogSizeWord →
    let n := (line.takeWhile isBlank).length
    if n = 0 then (parseNumber w rest erange).1 = if p.length ≤ t.length then none else some 0
    else p.length + n ≤ t.length ∨ t.length < n

theorem pushed_eq (h : t = sdLogSizeWord ∨ t = logFileSizeWord ∨ t = dataLogSizeWord →
    (m ≤ t.length ↔ n ≤ t.length)) (c : LogConfig) : pushed t m c = pushed t n c := by
  unfold pushed
  by_cases ht : t = sdLogSizeWord ∨ t = logFileSizeWord ∨ t = dataLogSizeWord
  · simp only [h ht]
  · simp only [not_or] at ht
    simp only [if_neg ht.1, if_neg ht.2.1, if_neg ht.2.2]

theorem parseLine_blanks (hw : 32 ≤ w) (hp : ∀ c ∈ p, isBlank c = true)
    (h : p = [] ∨ ∀ t rest, getToken line = some (t, rest) → Unmoved w erange p line t rest)
    (c : LogConfig) :
    (parseLine w (p ++ line) c erange).1 = (parseLine w line c erange).1 := by
  by_cases hne : p = []
  · rw [hne, nil_append]
  have htoken : getToken (p ++ line) = getToken line := token_blanks hp
  rw [parseLine, parseLine, htoken]
  cases hsome : getToken line with
  | none => rfl
  | some r =>
    obtain ⟨t, rest⟩ := r
    obtain ⟨hline, ht, hword, hrest⟩ := eq_of_token hsome
    have hmoved := h.resolve_left hne t rest hsome
    dsimp only
    split
    case isTrue => rfl
    case isFalse =>
      by_cases hq : line.takeWhile isBlank = []
      · rw [hq, nil_append] at hline
        rw [hline, parseKeyword_pushed hw hp hne ht hword hrest, drop_left]
        symm
        apply parseKeyword_eq_pushed
        · intro hstream
          exact parseStream_unknown ((hmoved.stream hstream).resolve_left (not_not.2 hq)) erange
        · intro hflag
          exact (hmoved.flag hflag).resolve_left (not_not.2 hq)
        · intro hsize
          have hnum := hmoved.size hsize
          rwa [hq, if_pos length_nil] at hnum
      · have hblank : ∀ c ∈ line.takeWhile isBlank, isBlank c = true :=
          fun c hc => mem_takeWhile_imp hc
        have hall : ∀ c ∈ p ++ line.takeWhile isBlank, isBlank c = true := by
          intro c hc
          obtain hc | hc := mem_append.1 hc
          · exact hp c hc
          · exact hblank c hc
        have hright := parseKeyword_pushed hw hblank hq ht hword hrest c erange
        have hleft := parseKeyword_pushed hw hall (append_ne_nil_of_left_ne_nil hne _) ht hword
          hrest c erange
        rw [append_assoc, ← hline] at hleft
        rw [← hline] at hright
        rw [hleft, hright, length_append]
        apply pushed_eq
        intro hsize
        have hnum := hmoved.size hsize
        rw [if_neg (length_pos_iff.2 hq).ne'] at hnum
        omega

end LogConfig

namespace SLogConfig

/-- In `slog.conf` only the streams have arguments. -/
def Unmoved (line : List Char) (t : Name) (rest : List Char) : Prop :=
  t = streamWord → line.takeWhile isBlank ≠ [] ∨
    (LogConfig.getToken rest).any (fun name => (getModemType name.1).isNone) = true

theorem parseStreamLine_fst (h : parseStream getModemType w buf erange = (some none, erange)) :
    (parseStreamLine w buf c erange).1 = some c := by
  rw [parseStreamLine, h]

theorem parseLine_blanks (hp : ∀ c ∈ p, isBlank c = true)
    (h : p = [] ∨ ∀ t rest, LogConfig.getToken line = some (t, rest) → Unmoved line t rest)
    (c : SLogConfig) :
    (parseLine w (p ++ line) c erange).1 = (parseLine w line c erange).1 := by
  by_cases hne : p = []
  · rw [hne, nil_append]
  have htoken : LogConfig.getToken (p ++ line) = LogConfig.getToken line := token_blanks hp
  rw [parseLine, parseLine, htoken]
  cases hsome : LogConfig.getToken line with
  | none => rfl
  | some r =>
    obtain ⟨t, rest⟩ := r
    obtain ⟨hline, ht, hword, hrest⟩ := eq_of_token hsome
    have hmoved := h.resolve_left hne t rest hsome
    dsimp only
    split
    case isTrue => rfl
    case isFalse =>
      by_cases hstream : t = streamWord
      case neg => rw [if_neg hstream, if_neg hstream]
      case pos =>
        have hunknown : ∀ j < t.length, getModemType (t.drop j) = none := by
          rw [hstream]
          decide
        have hall : ∀ c ∈ p ++ line.takeWhile isBlank, isBlank c = true := by
          intro c hc
          obtain hc | hc := mem_append.1 hc
          · exact hp c hc
          · exact mem_takeWhile_imp hc
        have hleft := parseStream_pushed (w := w) hall
          (append_ne_nil_of_left_ne_nil hne _) ht hword hrest getModemType hunknown erange
        rw [append_assoc, ← hline] at hleft
        rw [if_pos hstream, if_pos hstream, parseStreamLine_fst hleft]
        symm
        apply parseStreamLine_fst
        by_cases hq : line.takeWhile isBlank = []
        · rw [hq, nil_append] at hline
          rw [hline, drop_left]
          exact parseStream_unknown ((hmoved hstream).resolve_left (not_not.2 hq)) erange
        · have hright := parseStream_pushed (w := w) (fun c hc => mem_takeWhile_imp hc) hq ht
            hword hrest getModemType hunknown erange
          rwa [← hline] at hright

end SLogConfig

end SprdVendor.SlogModem
