import SprdVendor.SlogModem.ProcessReq

namespace SprdVendor.SlogModem
open Lib List

/-! ### What the words of a line ask for -/

def plainSpec (done : Request) (ws : List Name) : Request :=
  if ws = [] then done else .respond .invalParam

def slogctlSpec : List Name → Request
  | [] => .respond .unknownReq
  | w :: _ =>
    if w = ['c', 'l', 'e', 'a', 'r'] then .clear
    else if w = ['r', 'e', 'l', 'o', 'a', 'd'] then .reload
    else .respond .unknownReq

def numberSpec (done : Nat → Request) : List Name → Request
  | [] => .respond .invalParam
  | w :: ws =>
    match parseFixed w 0 with
    | none => .respond .invalParam
    | some n => plainSpec (done n) ws

def saveSpec (done : CpType → Request) : List Name → Request
  | [] => .respond .invalParam
  | w :: ws =>
    match getCpType w with
    | none => .respond .invalParam
    | some cpt => plainSpec (done cpt) ws

def notifySpec (en : Bool) : List Name → Request
  | [] => .respond .invalParam
  | w :: ws =>
    match getCpType w with
    | none => .respond .invalParam
    | some cpt =>
      match ws with
      | [] => .respond .invalParam
      | event :: ws =>
        if event ≠ ['D', 'U', 'M', 'P'] then .respond .invalParam
        else plainSpec (.setDumpNotify cpt en) ws

def modemSet : List CpType → List Name → Option (List CpType)
  | ms, [] => some ms
  | ms, w :: ws =>
    if 5 ≤ ms.length then none
    else
      match getCpType w with
      | none => none
      | some cpt => if cpt ∈ ms then none else modemSet (ms ++ [cpt]) ws

def modemsSpec (done : List CpType → Request) (ws : List Name) : Request :=
  match modemSet [] ws with
  | none => .respond .invalParam
  | some [] => .respond .invalParam
  | some (cpt :: ms) => done (cpt :: ms)

def Command.spec : Command → List Name → Request
  | .slogctl => slogctlSpec
  | .enableMd => plainSpec .enableMd
  | .miniDump => plainSpec .miniDump
  | .subscribe => notifySpec true
  | .enableLog => modemsSpec .enableLog
  | .disableMd => plainSpec .disableMd
  | .disableLog => modemsSpec .disableLog
  | .unsubscribe => notifySpec false
  | .saveRingbuf => saveSpec .saveRingbuf
  | .saveSleepLog => saveSpec .saveSleepLog
  | .getSdMaxSize => plainSpec .getSdSize
  | .setSdMaxSize => numberSpec .setSdSize
  | .getLogOverwrite => plainSpec .getLogOverwrite
  | .getLogFileSize => plainSpec .getLogFileSize
  | .setLogFileSize => numberSpec .setLogFileSize
  | .getDataMaxSize => plainSpec .getDataPartSize
  | .setDataMaxSize => numberSpec .setDataPartSize
  | .enableLogOverwrite => plainSpec (.setLogOverwrite true)
  | .disableLogOverwrite => plainSpec (.setLogOverwrite false)

def requestOfWords : List Name → Request
  | [] => .ignore
  | w :: ws =>
    match commands.lookup w with
    | none => .respond .unknownReq
    | some c => c.spec ws

/-! ### Requests that look at the line only -/

theorem getToken_none (h : getToken req len = none) : words isBlank (req.take len) = [] := by
  rw [getToken, Option.map_eq_none_iff] at h
  exact words_eq_nil_iff.2 (token_eq_none_iff.1 h)

theorem getToken_some (h : getToken req len = some (t, off)) :
    token isBlank (req.take len) = some (t, (req.drop off).take (len - off)) := by
  rw [getToken, Option.map_eq_some_iff] at h
  obtain ⟨⟨t', rest⟩, htoken, heq⟩ := h
  obtain ⟨rfl, rfl⟩ := Prod.mk.inj heq
  rw [htoken, ← drop_take]
  obtain ⟨pre, hpre⟩ : ∃ pre, req.take len = pre ++ rest :=
    ⟨_, (eq_of_token htoken).1.trans (append_assoc _ t' rest).symm⟩
  rw [hpre, length_append, Nat.add_sub_cancel, drop_left]

theorem words_of_getToken (h : getToken req len = some (t, off)) :
    words isBlank (req.take len) = t :: words isBlank ((req.drop off).take (len - off)) :=
  words_of_token (getToken_some h)

theorem procPlain_words (done : Request) (req : List Char) (len : Nat) :
    procPlain done req len = plainSpec done (words isBlank (req.take len)) := by
  rw [procPlain, plainSpec]
  cases h : getToken req len with
  | none => rw [getToken_none h]; rfl
  | some r => rw [words_of_getToken h]; rfl

theorem extra_words (done : Request) (req : List Char) (len : Nat) :
    (if len ≠ 0 ∧ (getToken req len).isSome then .respond .invalParam else done) =
      plainSpec done (words isBlank (req.take len)) := by
  rw [← procPlain_words, procPlain]
  by_cases h : len = 0
  · have hnone : getToken req 0 = none := rfl
    rw [h, hnone]
    rfl
  · simp [h]

theorem procSlogctl_words (req : List Char) (len : Nat) :
    procSlogctl req len = slogctlSpec (words isBlank (req.take len)) := by
  rw [procSlogctl]
  cases h : getToken req len with
  | none => rw [getToken_none h]; rfl
  | some r => rw [words_of_getToken h]; rfl

theorem procNumber_words (done : Nat → Request) (req : List Char) (len : Nat) :
    procNumber done req len = numberSpec done (words isBlank (req.take len)) := by
  rw [procNumber]
  cases h : getToken req len with
  | none => rw [getToken_none h]; rfl
  | some r =>
    rw [words_of_getToken h, numberSpec]
    dsimp only
    cases parseFixed r.1 0 with
    | none => rfl
    | some n => exact extra_words (done n) (req.drop r.2) (len - r.2)

theorem procSave_words (done : CpType → Request) (req : List Char) (len : Nat) :
    procSave done req len = saveSpec done (words isBlank (req.take len)) := by
  rw [procSave]
  cases h : getToken req len with
  | none => rw [getToken_none h]; rfl
  | some r =>
    rw [words_of_getToken h, saveSpec]
    dsimp only
    cases getCpType r.1 with
    | none => rfl
    | some cpt => exact procPlain_words (done cpt) (req.drop r.2) (len - r.2)

theorem procNotify_words (en : Bool) (req : List Char) (len : Nat) :
    procNotify en req len = notifySpec en (words isBlank (req.take len)) := by
  rw [procNotify]
  cases h : getToken req len with
  | none => rw [getToken_none h]; rfl
  | some r =>
    rw [words_of_getToken h, notifySpec]
    dsimp only
    cases getCpType r.1 with
    | none => rfl
    | some cpt =>
      cases h' : getToken (req.drop r.2) (len - r.2) with
      | none => rw [getToken_none h']
      | some r' =>
        rw [words_of_getToken h']
        dsimp only
        split
        · rfl
        · exact extra_words (.setDumpNotify cpt en) _ _

/-! ### Requests with modems -/

def EndsInWord (l : List Char) : Prop := ∀ c ∈ l.getLast?, isBlank c = false

theorem EndsInWord.of_append (h : EndsInWord (pre ++ l)) : EndsInWord l := by
  intro c hc
  apply h c
  rw [getLast?_append, hc]
  rfl

theorem EndsInWord.eq_nil (h : EndsInWord l) (hl : words isBlank l = []) : l = [] := by
  by_contra hne
  have hlast := h (l.getLast hne) (getLast?_eq_some_getLast hne)
  rw [words_eq_nil_iff.1 hl _ (getLast_mem hne)] at hlast
  cases hlast

theorem getCpType_ne_nul (h : getCpType t = some cpt) : '\x00' ∉ t := by
  obtain ⟨l, l', htable, -⟩ := lookup_eq_some_iff.1 h
  have hmem : (t, cpt) ∈ l ++ (t, cpt) :: l' := mem_append_right l mem_cons_self
  rw [← htable] at hmem
  simp only [mem_cons, not_mem_nil, or_false, Prod.mk.injEq] at hmem
  obtain ⟨rfl, -⟩ | ⟨rfl, -⟩ | ⟨rfl, -⟩ | ⟨rfl, -⟩ | ⟨rfl, -⟩ | ⟨rfl, -⟩ := hmem <;> decide

variable {e : Char} {m r r' t : List Char} {w : Nat}

theorem take_line (hw : r.length ≤ w) (s : List Char) :
    (r ++ s).take w = r ++ s.take (w - r.length) := by
  rw [take_append, take_of_length_le hw]

theorem getToken_window (hr : token isBlank r = some (t, r')) (hw : r.length ≤ w)
    (he : r' ≠ [] ∨ w = r.length ∨ e = '\n') :
    getToken (r ++ e :: m) w = some (t, r.length - r'.length) := by
  obtain ⟨hline, ht, hword, hrest⟩ := eq_of_token hr
  have hhead : ∀ c ∈ (r' ++ (e :: m).take (w - r.length)).head?, isBlank c = true := by
    intro c hc
    cases r' with
    | cons d u => exact hrest c hc
    | nil =>
      obtain he | rfl | rfl := he
      · exact absurd rfl he
      · rw [Nat.sub_self] at hc
        cases hc
      cases hk : w - r.length with
      | zero =>
        rw [hk] at hc
        cases hc
      | succ k =>
        rw [hk] at hc
        cases hc
        decide
  have htoken : token isBlank (r ++ (e :: m).take (w - r.length)) =
      some (t, r' ++ (e :: m).take (w - r.length)) := by
    have hassoc : r ++ (e :: m).take (w - r.length) =
        r.takeWhile isBlank ++ (t ++ (r' ++ (e :: m).take (w - r.length))) := by
      rw [← append_assoc t, ← append_assoc, ← hline]
    rw [hassoc, token_blanks fun c hc => mem_takeWhile_imp hc, token_word ht hword hhead]
  rw [getToken, take_line hw, htoken, Option.map_some, length_append, length_append,
    Nat.add_sub_add_right]

theorem getToken_window_nul (hr : token isBlank r = some (t, [])) (hw : r.length < w) :
    ∃ t' off, getToken (r ++ '\x00' :: m) w = some (t', off) ∧ '\x00' ∈ t' := by
  obtain ⟨hline, ht, hword, -⟩ := eq_of_token hr
  obtain ⟨k, hk⟩ : ∃ k, w - r.length = k + 1 := ⟨w - r.length - 1, by omega⟩
  rw [append_nil] at hline
  have htoken : token isBlank (r ++ '\x00' :: m.take k) =
      some (t ++ ('\x00' :: m.take k).takeWhile (!isBlank ·),
        ('\x00' :: m.take k).dropWhile (!isBlank ·)) := by
    rw [hline, append_assoc, token_blanks fun c hc => mem_takeWhile_imp hc, token_append ht hword]
  have hmem : '\x00' ∈ ('\x00' :: m.take k).takeWhile (!isBlank ·) := by
    rw [takeWhile_cons_of_pos (by decide)]
    exact mem_cons_self
  rw [getToken, take_line hw.le, hk, take_succ_cons, htoken]
  exact ⟨_, _, rfl, mem_append_right t hmem⟩

theorem modemLoop_end (len fuel : Nat) (req : List Char) (ms : List CpType) :
    modemLoop len fuel req 0 ms = some ms := by
  cases fuel with
  | zero => rfl
  | succ fuel => rw [modemLoop, if_pos rfl]

theorem drop_token (hr : token isBlank r = some (t, r')) (s : List Char) :
    (r ++ s).drop (r.length - r'.length) = r' ++ s ∧ r.length - (r.length - r'.length) = r'.length ∧
      r'.length < r.length := by
  obtain ⟨hline, ht, -⟩ := eq_of_token hr
  have hlen := congrArg List.length hline
  have hpos := length_pos_iff.2 ht
  rw [length_append, length_append] at hlen
  refine ⟨?_, by omega, by omega⟩
  have hoff : r.length - r'.length = (r.takeWhile isBlank ++ t).length := by
    rw [length_append]
    omega
  have hassoc : r ++ s = (r.takeWhile isBlank ++ t) ++ (r' ++ s) := by
    rw [append_assoc, ← append_assoc t, ← append_assoc, ← hline]
  rw [hoff, hassoc, drop_left]

theorem modemLoop_words (ms : List CpType) (he : e = '\n' ∨ e = '\x00')
    (hfuel : r.length ≤ fuel) (hw : r.length ≤ w) :
    (modemSet ms (words isBlank r) = none → modemLoop w fuel (r ++ e :: m) r.length ms = none) ∧
    ∀ l, modemSet ms (words isBlank r) = some l → EndsInWord r →
      (w = r.length ∧ (words isBlank r).length ≤ 1 ∨ e = '\n') →
      modemLoop w fuel (r ++ e :: m) r.length ms = some l := by
  induction fuel generalizing r ms with
  | zero =>
    obtain rfl := length_eq_zero_iff.1 (Nat.le_zero.1 hfuel)
    exact ⟨fun h => h, fun l h _ _ => h⟩
  | succ fuel ih =>
    by_cases hne : r = []
    · rw [hne]
      exact ⟨fun h => h, fun l h _ _ => h⟩
    have hpos : ¬ r.length = 0 := fun h => hne (length_eq_zero_iff.1 h)
    rw [modemLoop, if_neg hpos]
    cases hr : token isBlank r with
    | none =>
      have hnil := words_eq_nil_iff.2 (token_eq_none_iff.1 hr)
      rw [hnil]
      exact ⟨nofun, fun l _ hend _ => absurd (hend.eq_nil hnil) hne⟩
    | some p =>
      obtain ⟨t, r'⟩ := p
      obtain ⟨hdrop, hleft, hlt⟩ := drop_token hr (e :: m)
      rw [words_of_token hr]
      by_cases hlast : r' ≠ [] ∨ w = r.length ∨ e = '\n'
      case neg =>
        -- the last word is glued to the NUL behind it
        simp only [not_or, not_not] at hlast
        obtain ⟨rfl, hlen, hnl⟩ := hlast
        obtain rfl := he.resolve_left hnl
        obtain ⟨t', off, hget, hnul⟩ := getToken_window_nul (m := m) hr (hw.lt_of_ne' hlen)
        rw [hget]
        refine ⟨fun _ => ?_, fun l _ _ hcond => ?_⟩
        · dsimp only
          split
          · rfl
          · cases hcpt : getCpType t' with
            | none => rfl
            | some cpt => exact absurd hnul (getCpType_ne_nul hcpt)
        · obtain h | h := hcond
          · exact absurd h.1 hlen
          · exact absurd h hnl
      · rw [getToken_window hr hw hlast]
        dsimp only
        rw [hdrop, hleft, modemSet]
        split
        · exact ⟨fun _ => rfl, nofun⟩
        cases getCpType t with
        | none => exact ⟨fun _ => rfl, nofun⟩
        | some cpt =>
          dsimp only
          split
          · exact ⟨fun _ => rfl, nofun⟩
          by_cases hr' : r' = []
          · rw [hr', length_nil, modemLoop_end]
            exact ⟨fun h => h, fun l h _ _ => h⟩
          have hfuel' : r'.length ≤ fuel := by omega
          have hw' : r'.length ≤ w := by omega
          refine ⟨(ih (ms ++ [cpt]) hfuel' hw').1, fun l h hend hcond => ?_⟩
          have hend' : EndsInWord r' := by
            rw [(eq_of_token hr).1, ← append_assoc] at hend
            exact hend.of_append
          apply (ih (ms ++ [cpt]) hfuel' hw').2 l h hend'
          obtain ⟨-, hone⟩ | hnl := hcond
          · rw [length_cons] at hone
            have hnil : words isBlank r' = [] := length_eq_zero_iff.1 (by omega)
            exact absurd (hend'.eq_nil hnil) hr'
          · exact .inr hnl

theorem procModems_words (done : List CpType → Request) (he : e = '\n' ∨ e = '\x00')
    (h : words isBlank r ≠ [] → (modemSet [] (words isBlank r)).isSome = true →
      EndsInWord r ∧ ((words isBlank r).length ≤ 1 ∨ e = '\n')) :
    procModems done (r ++ e :: m) r.length = modemsSpec done (words isBlank r) := by
  have hloop := modemLoop_words (m := m) [] he (le_refl r.length) (le_refl r.length)
  rw [procModems, modemsSpec, parseModemSet]
  cases hset : modemSet [] (words isBlank r) with
  | none => rw [hloop.1 hset]
  | some l =>
    by_cases hnil : words isBlank r = []
    · -- without a word the loop ends in its first round
      have hempty : modemLoop r.length r.length (r ++ e :: m) r.length [] = some [] := by
        cases hlen : r.length with
        | zero => rfl
        | succ k =>
          have hnone : getToken (r ++ e :: m) (k + 1) = none := by
            rw [getToken, ← hlen, take_left, token_eq_none_iff.2 (words_eq_nil_iff.1 hnil)]
            rfl
          rw [modemLoop, if_neg (Nat.succ_ne_zero k), hnone]
      rw [hnil] at hset
      cases hset
      rw [hempty]
    · rw [hset] at h
      obtain ⟨hend, hone⟩ := h hnil rfl
      have hl := hloop.2 l hset hend (hone.imp_left fun hone => ⟨rfl, hone⟩)
      cases l with
      | _ => simp only [hl]

theorem procMd_words (done : Request) (h : words isBlank r = [] → r = []) :
    procMd done (r ++ e :: m) r.length = plainSpec done (words isBlank r) := by
  rw [procMd, take_left, plainSpec]
  cases r with
  | nil => rfl
  | cons c r =>
    have hne : words isBlank (c :: r) ≠ [] := fun hnil => cons_ne_nil c r (h hnil)
    have hc : decide (c ≠ ' ' ∨ c ≠ '\t') = true := by
      rw [decide_eq_true_iff]
      by_contra hboth
      simp only [not_or, not_not] at hboth
      exact absurd (hboth.1.symm.trans hboth.2) (by decide)
    rw [if_neg hne, any_cons, hc, Bool.true_or, if_pos rfl]

/-! ### Lines -/

/-- The line has no blanks behind its last word where these are not skipped, and it ends in a
newline where the end of the line is not seen. -/
structure ExactLine (l : List Char) (e : Char) : Prop where
  md : ∀ w c, words isBlank l = [w] → commands.lookup w = some c →
    c = .enableMd ∨ c = .disableMd ∨ c = .miniDump → EndsInWord l
  modems : ∀ w ws c, words isBlank l = w :: ws → commands.lookup w = some c →
    c = .enableLog ∨ c = .disableLog → ws ≠ [] → (modemSet [] ws).isSome = true →
    EndsInWord l ∧ (ws.length ≤ 1 ∨ e = '\n')

theorem EndsInWord.exactLine (h : EndsInWord l) : ExactLine l '\n' :=
  ⟨fun _ _ _ _ _ => h, fun _ _ _ _ _ _ _ _ => ⟨h, .inr rfl⟩⟩

theorem parseReq_words (he : e = '\n' ∨ e = '\x00') (h : ExactLine l e) (m : List Char) :
    parseReq (l ++ e :: m) l.length = requestOfWords (words isBlank l) := by
  rw [parseReq]
  cases hl : token isBlank l with
  | none =>
    have hnone : getToken (l ++ e :: m) l.length = none := by
      rw [getToken, take_left, hl]
      rfl
    rw [hnone, words_eq_nil_iff.2 (token_eq_none_iff.1 hl)]
    rfl
  | some p =>
    obtain ⟨t, r⟩ := p
    obtain ⟨hdrop, hleft, -⟩ := drop_token hl (e :: m)
    have hwords := words_of_token hl
    rw [getToken_window hl le_rfl (.inr (.inl rfl)), hwords, requestOfWords]
    dsimp only
    rw [hdrop, hleft]
    have hend : EndsInWord l → EndsInWord r := by
      intro hend
      rw [(eq_of_token hl).1, ← append_assoc] at hend
      exact hend.of_append
    have htake : (r ++ e :: m).take r.length = r := take_left
    cases hc : commands.lookup t with
    | none => rfl
    | some c =>
      have hmd : c = .enableMd ∨ c = .disableMd ∨ c = .miniDump →
          words isBlank r = [] → r = [] := by
        intro hcmd hnil
        rw [hnil] at hwords
        exact (hend (h.md t c hwords hc hcmd)).eq_nil hnil
      have hmodems : c = .enableLog ∨ c = .disableLog → words isBlank r ≠ [] →
          (modemSet [] (words isBlank r)).isSome = true →
          EndsInWord r ∧ ((words isBlank r).length ≤ 1 ∨ e = '\n') := by
        intro hcmd hne hset
        obtain ⟨hl, hone⟩ := h.modems t (words isBlank r) c hwords hc hcmd hne hset
        exact ⟨hend hl, hone⟩
      have hslogctl := procSlogctl_words (r ++ e :: m) r.length
      have hplain := fun done => procPlain_words done (r ++ e :: m) r.length
      have hnumber := fun done => procNumber_words done (r ++ e :: m) r.length
      have hsave := fun done => procSave_words done (r ++ e :: m) r.length
      have hnotify := fun en => procNotify_words en (r ++ e :: m) r.length
      simp only [htake] at hslogctl hplain hnumber hsave hnotify
      cases c with
      | slogctl => exact hslogctl
      | enableMd => exact procMd_words _ (hmd (.inl rfl))
      | disableMd => exact procMd_words _ (hmd (.inr (.inl rfl)))
      | miniDump => exact procMd_words _ (hmd (.inr (.inr rfl)))
      | enableLog => exact procModems_words _ he (hmodems (.inl rfl))
      | disableLog => exact procModems_words _ he (hmodems (.inr rfl))
      | subscribe => exact hnotify true
      | unsubscribe => exact hnotify false
      | saveRingbuf => exact hsave .saveRingbuf
      | saveSleepLog => exact hsave .saveSleepLog
      | setSdMaxSize => exact hnumber .setSdSize
      | setLogFileSize => exact hnumber .setLogFileSize
      | setDataMaxSize => exact hnumber .setDataPartSize
      | getSdMaxSize | getLogOverwrite | getLogFileSize | getDataMaxSize | enableLogOverwrite
      | disableLogOverwrite => exact hplain _

def recorder : ControllerOps (List Request) where
  clearLog s := (0, s ++ [.clear])
  reloadSlogConf s := (0, s ++ [.reload])
  enableLog ms s := (0, s ++ [.enableLog ms])
  disableLog ms s := (0, s ++ [.disableLog ms])
  enableMd s := (0, s ++ [.enableMd])
  disableMd s := (0, s ++ [.disableMd])
  miniDump s := (0, s ++ [.miniDump])
  getLogFileSize _ := 5
  setLogFileSize n s := s ++ [.setLogFileSize n]
  getDataPartSize _ := 25
  setDataPartSize n s := s ++ [.setDataPartSize n]
  getSdSize _ := 250
  setSdSize n s := s ++ [.setSdSize n]
  getLogOverwrite _ := true
  setLogOverwrite en s := s ++ [.setLogOverwrite en]
  getCp _ _ := true
  saveSleepLog cpt s := (1, s ++ [.saveSleepLog cpt])
  saveRingbuf cpt s := (1, s ++ [.saveRingbuf cpt])

def newClient : ClientConn (List Request) := ⟨[], [], fun _ => false, .unknown, .idle, none, true⟩

def enableLogWord : Name := ['E', 'N', 'A', 'B', 'L', 'E', '_', 'L', 'O', 'G']
def enableMdWord : Name := ['E', 'N', 'A', 'B', 'L', 'E', '_', 'M', 'D']

def twoModems : List Char := enableLogWord ++ [' ', 'T', 'D', ' ', 'W', 'C', 'N']
def spacedModems : List Char :=
  enableLogWord ++ ['\t', ' ', 'T', 'D', ' ', '\t', ' ', 'W', 'C', 'N']

end SprdVendor.SlogModem
