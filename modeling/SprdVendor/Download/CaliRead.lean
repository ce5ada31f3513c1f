import SprdVendor.Download.CaliFile

namespace SprdVendor.Download
open Lib List Option

variable {mem : List UInt8} {m : Cali} {l : Line}

structure Token (tok : List Char) : Prop where
  ne_nil : tok ≠ []
  length : tok.length ≤ 127
  plain : ∀ c ∈ tok, findType c ≠ .separator ∧ findType c ≠ .stop

namespace Scan

def idle (cmd : Cmd) : Scan := ⟨[], .empty, true, cmd⟩

theorem foldlM_token {tok : List Char} (hlen : s.tmp.length + tok.length ≤ 127)
    (hplain : ∀ c ∈ tok, findType c ≠ .separator) :
    ∃ b, tok.foldlM step s = some ⟨s.tmp ++ tok, b, s.flag, s.cmd⟩ ∧
      (tok ≠ [] ∨ s.bufType ≠ .empty → b ≠ .empty) := by
  induction tok generalizing s with
  | nil =>
    refine ⟨s.bufType, ?_, ?_⟩
    · rw [append_nil]
      rfl
    · rintro (h | h)
      · exact absurd rfl h
      · exact h
  | cons c tok ih =>
    rw [length_cons] at hlen
    have hc := hplain c mem_cons_self
    have hstep : ∃ b, s.step c = some ⟨s.tmp ++ [c], b, s.flag, s.cmd⟩ ∧ b ≠ .empty := by
      refine ⟨_, (if_neg hc).trans (if_pos (by omega)), ?_⟩
      split
      · split <;> decide
      · split <;> decide
      · decide
    obtain ⟨b, hb, hne⟩ := hstep
    obtain ⟨b', hb', hne'⟩ := @ih ⟨s.tmp ++ [c], b, s.flag, s.cmd⟩
      (by rw [length_append, length_singleton]; omega)
      (fun d hd => hplain d (mem_cons_of_mem c hd))
    refine ⟨b', ?_, fun _ => hne' (.inr hne)⟩
    have htmp : s.tmp ++ c :: tok = s.tmp ++ [c] ++ tok := append_cons _ _ _
    rw [foldlM_cons, hb, htmp]
    exact hb'

theorem flush_token {cmd : Cmd} {tok : List Char} (h : Token tok) (hroom : cmd.par.length < 256) :
    (tok.foldlM step (idle cmd)).bind flush =
      some (idle ⟨cmd.itm, cmd.par ++ [strtol 32 0 tok]⟩) := by
  obtain ⟨b, hb, hne⟩ := @foldlM_token (idle cmd) tok (by simpa [idle] using h.length)
    (fun c hc => (h.plain c hc).1)
  have hb' : b ≠ .empty := hne (.inl h.ne_nil)
  have hflag : ¬ (b = .word ∧ (idle cmd).flag = false) := by
    rintro ⟨-, hf⟩
    cases hf
  rw [hb, bind_some, flush, if_neg hb', if_neg hflag]
  exact if_pos hroom

theorem flush_commaSep {cmd : Cmd} {toks : List (List Char)} (hne : toks ≠ [])
    (htoks : ∀ tok ∈ toks, Token tok) (hroom : cmd.par.length + toks.length ≤ 256) :
    ((commaSep toks).foldlM step (idle cmd)).bind flush =
      some (idle ⟨cmd.itm, cmd.par ++ toks.map (strtol 32 0)⟩) := by
  induction toks generalizing cmd with
  | nil => exact absurd rfl hne
  | cons v vs ih =>
    rw [length_cons] at hroom
    have hv := @flush_token cmd v (htoks v mem_cons_self) (by omega)
    cases vs with
    | nil => exact hv
    | cons w ws =>
      have ih := @ih ⟨cmd.itm, cmd.par ++ [strtol 32 0 v]⟩ (cons_ne_nil w ws)
        (fun tok htok => htoks tok (mem_cons_of_mem v htok))
        (by rw [length_append, length_singleton]; omega)
      obtain ⟨s, hs, hflush⟩ := bind_eq_some_iff.1 hv
      have hcomma : s.step ',' = some (idle ⟨cmd.itm, cmd.par ++ [strtol 32 0 v]⟩) := hflush
      have hblank (cmd : Cmd) : (idle cmd).step ' ' = some (idle cmd) := rfl
      rw [commaSep, foldlM_append, hs]
      simp only [bind_eq_bind, bind_some, foldlM_cons, hcomma, hblank]
      rw [ih, map_cons, ← append_cons]
      · rfl
      · simp

end Scan

theorem findType_digitChar (h : d < 16) :
    findType d.digitChar = .letter ∨ findType d.digitChar = .digit := by
  have hall : ∀ d : Fin 16, findType (Nat.digitChar d) = .letter ∨
      findType (Nat.digitChar d) = .digit := by decide
  exact hall ⟨d, h⟩

theorem toDigits_plain (hb : 1 < b) (hb' : b ≤ 16) (h : c ∈ Nat.toDigits b n) :
    findType c ≠ .separator ∧ findType c ≠ .stop := by
  obtain ⟨d, hd, rfl⟩ := exists_digit_of_mem_toDigits hb h
  rcases findType_digitChar (hd.trans_le hb') with h | h
  · rw [h]
    decide
  · rw [h]
    decide

def Fmt.width : Fmt → Nat → Nat
  | .dec, size => if size = 1 then 3 else if size = 2 then 5 else 11
  | .hex, size => 2 * size + 2

/-- What a printed element is read back as: `strtol` cuts a hexadecimal word down to the greatest
`long`. -/
def Fmt.readBack (fmt : Fmt) (size v : Nat) : Nat :=
  if fmt = .hex ∧ size = 4 then min v (2 ^ 31 - 1) else v

def IntSize (size : Nat) : Prop := size = 1 ∨ size = 2 ∨ size = 4

theorem length_print_le (fmt : Fmt) (hsize : IntSize size) (hv : v < 256 ^ size) :
    (fmt.print size v).length ≤ fmt.width size := by
  have hdec (k n : Nat) (hn : n < 10 ^ (k + 1)) : (Nat.toDigits 10 n).length ≤ k + 1 :=
    (Nat.length_toDigits_le_iff (by decide) (Nat.succ_pos k)).2 hn
  cases fmt with
  | dec =>
    rw [Fmt.print]
    rcases hsize with rfl | rfl | rfl
    · rw [if_neg (by omega)]
      exact hdec 2 v (by omega)
    · rw [if_neg (by omega)]
      exact hdec 4 v (by omega)
    · split
      · exact Nat.succ_le_succ (hdec 9 _ (by omega))
      · exact (hdec 9 v (by omega)).trans (by decide)
  | hex =>
    have hpos : 0 < 2 * size := by
      rcases hsize with rfl | rfl | rfl <;> decide
    have hhex : (Nat.toDigits 16 v).length ≤ 2 * size :=
      (Nat.length_toDigits_le_iff (by decide) hpos).2 (by rwa [Nat.pow_mul])
    exact Nat.add_le_add_right hhex 2

theorem print_token (fmt : Fmt) (hsize : IntSize size) (hv : v < 256 ^ size) :
    Token (fmt.print size v) := by
  have hwidth : fmt.width size ≤ 127 := by
    rcases hsize with rfl | rfl | rfl <;> cases fmt <;> decide
  apply Token.mk _ ((length_print_le fmt hsize hv).trans hwidth)
  · intro c hc
    cases fmt with
    | dec =>
      rw [Fmt.print] at hc
      split at hc
      · rcases mem_cons.1 hc with rfl | hc
        · decide
        · exact toDigits_plain (by decide) (by decide) hc
      · exact toDigits_plain (by decide) (by decide) hc
    | hex =>
      rcases mem_cons.1 hc with rfl | hc
      · decide
      · rcases mem_cons.1 hc with rfl | hc
        · decide
        · exact toDigits_plain (by decide) (by decide) hc
  · cases fmt with
    | dec =>
      rw [Fmt.print]
      split
      · exact cons_ne_nil _ _
      · exact Nat.toDigits_ne_nil
    | hex => exact cons_ne_nil _ _

theorem strtol_print (fmt : Fmt) (hsize : IntSize size) (hv : v < 256 ^ size) :
    (strtol 32 0 (fmt.print size v) % 256 ^ size).toNat = fmt.readBack size v := by
  cases fmt with
  | dec =>
    have hback : Fmt.readBack .dec size v = v := if_neg (by simp)
    rw [hback, Fmt.print]
    split
    case isTrue h =>
      obtain ⟨rfl, hbig⟩ := h
      have hscan := scanNumber_neg (2 ^ 32 - v) (s := []) (by simp)
      rw [append_nil] at hscan
      rw [strtol_of_scan_neg hscan (by omega)]
      omega
    case isFalse h =>
      have hscan := scanNumber_dec v (s := []) (by simp)
      rw [append_nil] at hscan
      rw [strtol_of_scan hscan]
      rcases hsize with rfl | rfl | rfl <;> omega
  | hex =>
    have hscan : scanNumber 0 ('0' :: 'x' :: (Nat.toDigits 16 v ++ [])) = (false, v) :=
      scanNumber_hex (.inl rfl) v (by simp)
    rw [append_nil] at hscan
    rw [Fmt.print, strtol_of_scan hscan, Fmt.readBack]
    rcases hsize with rfl | rfl | rfl
    · rw [if_neg (by simp)]
      omega
    · rw [if_neg (by simp)]
      omega
    · rw [if_pos ⟨rfl, rfl⟩]
      omega

theorem element_lt (m : Cali) (i : Nat) :
    m.element data i < 256 ^ m.place.size :=
  (ofLe_lt _).trans_le (Nat.pow_le_pow_right (by decide) (length_take_le _ _))

theorem Cali.intSize (m : Cali) : IntSize m.place.size := by
  unfold IntSize
  cases m with
  | gmChannel i => exact .inl rfl
  | dpdCaliTable i => exact .inr (.inr rfl)
  | _ => decide

def Cali.storedBytes (data : List UInt8) (m : Cali) (fmt : Fmt) (num : Nat) : List UInt8 :=
  (m.elements data num).flatMap fun v => toLe m.place.size (fmt.readBack m.place.size v)

theorem parBytes_print (data : List UInt8) (m : Cali) (fmt : Fmt) (num : Nat) :
    parBytes m.place.size (((m.elements data num).map (fmt.print m.place.size)).map (strtol 32 0)) =
      m.storedBytes data fmt num := by
  rw [parBytes, List.map_map, List.flatMap_map, Cali.storedBytes]
  apply flatMap_congr
  intro v hv
  obtain ⟨i, -, rfl⟩ := mem_map.1 hv
  rw [Function.comp_apply, strtol_print fmt m.intSize (element_lt m i)]

theorem length_storedBytes (data : List UInt8) (m : Cali) (fmt : Fmt) (num : Nat) :
    (m.storedBytes data fmt num).length = num * m.place.size := by
  simp [Cali.storedBytes, Cali.elements, length_flatMap, Function.comp_def]

theorem storedBytes_eq (hin : m.place.offset + num * m.place.size ≤ data.length)
    (hback : ∀ v ∈ m.elements data num, fmt.readBack m.place.size v = v) :
    m.storedBytes data fmt num = (data.drop m.place.offset).take (num * m.place.size) := by
  induction num with
  | zero => simp [Cali.storedBytes, Cali.elements]
  | succ num ih =>
    rw [Nat.succ_mul] at hin
    have hsplit : m.elements data (num + 1) = m.elements data num ++ [m.element data num] := by
      rw [Cali.elements, Cali.elements, range_succ, map_append]
      rfl
    have ih := ih (by omega) fun v hv => hback v (hsplit ▸ mem_append_left _ hv)
    have hlast := hback (m.element data num) (hsplit ▸ mem_append_right _ mem_cons_self)
    have hlen : ((data.drop (m.place.offset + num * m.place.size)).take m.place.size).length =
        m.place.size := by
      rw [length_take, length_drop]
      omega
    have hword : toLe m.place.size (m.element data num) =
        (data.drop (m.place.offset + num * m.place.size)).take m.place.size := by
      have h := toLe_ofLe ((data.drop (m.place.offset + num * m.place.size)).take m.place.size)
      rwa [hlen] at h
    rw [Cali.storedBytes, hsplit, flatMap_append, ← Cali.storedBytes, ih, flatMap_cons,
      flatMap_nil, append_nil, hlast, hword, Nat.succ_mul, take_add, drop_drop]

def labelName (label : List Char) : Option (List Char) :=
  match label.foldlM Scan.step Scan.start with
  | none => none
  | some s => if s = Scan.idle ⟨s.cmd.itm, []⟩ then some s.cmd.itm else none

theorem labelName_eq_some (h : labelName label = some name) :
    label.foldlM Scan.step Scan.start = some (Scan.idle ⟨name, []⟩) := by
  rw [labelName] at h
  split at h
  · cases h
  case h_2 s hs =>
    split at h
    case isTrue hidle =>
      cases h
      rw [hs, ← hidle]
    · cases h

def inLine (c : Char) : Bool := c ≠ '\n' ∧ c ≠ '\r' ∧ c ≠ '\x00'

def Line.sound : Line → Bool
  | .text s => s.toList.all inLine ∧
      (s.toList.length < 5 ∨ ((getCmdPar s.toList).map fun cmd => caliTableMatch cmd.itm |>.isNone) =
        some true)
  | .field label m _ num => (label.toList.all fun c => findType c ≠ .stop) ∧
      5 ≤ label.toList.length ∧
      (((labelName label.toList).bind caliTableMatch).map fun row => (row.member, row.type)) =
        some (m, m.place.size) ∧
      0 < num ∧ num ≤ 256 ∧ m.place.offset + num * m.place.size ≤ caliSize

theorem caliLines_sound : ∀ l ∈ caliLines, l.sound = true := by
  decide +kernel

def Line.readInto (data : List UInt8) (l : Line) (mem : List UInt8) : List UInt8 :=
  match l with
  | .text _ => mem
  | .field _ m fmt num => patch mem m.place.offset (m.storedBytes data fmt num)

theorem commaSep_all {p : Char → Bool} {toks : List (List Char)} (hcomma : p ',' = true)
    (hblank : p ' ' = true) (htoks : ∀ tok ∈ toks, ∀ c ∈ tok, p c = true) :
    ∀ c ∈ commaSep toks, p c = true := by
  induction toks with
  | nil => simp [commaSep]
  | cons v vs ih =>
    have ih := ih fun tok htok => htoks tok (mem_cons_of_mem v htok)
    have hv := htoks v mem_cons_self
    cases vs with
    | nil => exact hv
    | cons w ws =>
      intro c hc
      rw [commaSep] at hc
      · rcases mem_append.1 hc with hc | hc
        · exact hv c hc
        rcases mem_cons.1 hc with rfl | hc
        · exact hcomma
        · rcases mem_cons.1 hc with rfl | hc
          · exact hblank
          · exact ih c hc
      · simp

theorem print_tokens (data : List UInt8) (m : Cali) (fmt : Fmt) (num : Nat) :
    ∀ tok ∈ (m.elements data num).map (fmt.print m.place.size), Token tok := by
  intro tok htok
  obtain ⟨v, hv, rfl⟩ := mem_map.1 htok
  obtain ⟨i, -, rfl⟩ := mem_map.1 hv
  exact print_token fmt m.intSize (element_lt m i)

theorem getCmdPar_field (hstop : ∀ c ∈ label, findType c ≠ .stop)
    (hname : labelName label = some name) (hne : toks ≠ [])
    (htoks : ∀ tok ∈ toks, Token tok) (hroom : toks.length ≤ 256) :
    getCmdPar (label ++ commaSep toks) = some ⟨name, toks.map (strtol 32 0)⟩ := by
  have hplain : ∀ c ∈ label ++ commaSep toks, decide (findType c ≠ .stop) = true := by
    intro c hc
    rcases mem_append.1 hc with hc | hc
    · exact decide_eq_true (hstop c hc)
    · apply commaSep_all (p := fun c => decide (findType c ≠ .stop)) (by decide) (by decide) _ c hc
      intro tok htok c hc
      exact decide_eq_true ((htoks tok htok).plain c hc).2
  rw [getCmdPar, takeWhile_eq_self_iff.2 hplain, foldlM_append, labelName_eq_some hname]
  simp only [bind_eq_bind, bind_some]
  rw [Scan.flush_commaSep hne htoks (by simpa using hroom)]
  rfl

theorem setLine_field (h : (Line.field label m fmt num).sound = true) (data : List UInt8)
    (hmem : mem.length = caliSize) :
    setLine ((Line.field label m fmt num).toText false data) mem =
      some ((Line.field label m fmt num).readInto data mem) := by
  simp only [Line.sound, decide_eq_true_eq] at h
  obtain ⟨hstop, -, hrow, hpos, hnum, hin⟩ := h
  obtain ⟨row, hrow, hmember⟩ := map_eq_some_iff.1 hrow
  obtain ⟨name, hname, hrow⟩ := bind_eq_some_iff.1 hrow
  obtain ⟨hm, htype⟩ := Prod.mk.inj hmember
  have hlen : ((m.elements data num).map (fmt.print m.place.size)).length = num := by
    rw [length_map, Cali.elements, length_map, length_range]
  have htext : (Line.field label m fmt num).toText false data =
      label.toList ++ commaSep ((m.elements data num).map (fmt.print m.place.size)) := by
    simp [Line.toText]
  have hne : (m.elements data num).map (fmt.print m.place.size) ≠ [] := by
    apply ne_nil_of_length_pos
    rwa [hlen]
  have hroom : ((m.elements data num).map (fmt.print m.place.size)).length ≤ 256 := by rwa [hlen]
  have hcmd := getCmdPar_field (fun c hc => of_decide_eq_true (all_eq_true.1 hstop c hc)) hname
    hne (print_tokens data m fmt num) hroom
  rw [setLine, htext, hcmd, bind_some]
  simp only [hrow, wifiNvmSetCmd, hm, htype, parBytes_print, length_storedBytes]
  exact if_pos (hmem ▸ hin)

theorem setLine_text (h : (Line.text s).sound = true) (hlong : 5 ≤ s.toList.length)
    (mem : List UInt8) : setLine s.toList mem = some mem := by
  simp only [Line.sound, decide_eq_true_eq] at h
  obtain ⟨-, hshort | hrow⟩ := h
  · omega
  · obtain ⟨cmd, hcmd, hnone⟩ := map_eq_some_iff.1 hrow
    rw [setLine, hcmd, bind_some, isNone_iff_eq_none.1 hnone]

theorem wifiNvmBufOperate_line (h : ∀ c ∈ line, inLine c = true)
    (mem : List UInt8) (acc rest : List Char) :
    wifiNvmBufOperate mem acc (line ++ '\n' :: rest) =
      (if 5 ≤ (acc ++ line).length then setLine (acc ++ line) mem else some mem).bind
        fun mem => wifiNvmBufOperate mem [] rest := by
  induction line generalizing acc with
  | nil =>
    rw [nil_append, append_nil, wifiNvmBufOperate, if_pos (.inl rfl)]
  | cons c line ih =>
    have hc : ¬ (c = '\n' ∨ c = '\r' ∨ c = '\x00') := by
      have := of_decide_eq_true (h c mem_cons_self)
      tauto
    have ih := ih (fun d hd => h d (mem_cons_of_mem c hd)) (acc ++ [c])
    rw [cons_append, wifiNvmBufOperate, if_neg hc, ih, ← append_cons]

theorem inLine_of_findType (h : findType c ≠ .stop) : inLine c = true := by
  apply decide_eq_true
  refine ⟨?_, ?_, ?_⟩
  · rintro rfl
    exact h (by decide)
  · rintro rfl
    exact h (by decide)
  · rintro rfl
    exact h (by decide)

theorem toText_inLine (h : l.sound = true) (data : List UInt8) :
    ∀ c ∈ l.toText false data, inLine c = true := by
  cases l with
  | text s =>
    simp only [Line.sound, decide_eq_true_eq] at h
    exact all_eq_true.1 h.1
  | field label m fmt num =>
    simp only [Line.sound, decide_eq_true_eq] at h
    intro c hc
    simp only [Line.toText, Bool.false_eq_true, false_and, if_false] at hc
    rcases mem_append.1 hc with hc | hc
    · exact inLine_of_findType (of_decide_eq_true (all_eq_true.1 h.1 c hc))
    · apply commaSep_all (p := inLine) (by decide) (by decide) _ c hc
      intro tok htok c hc
      exact inLine_of_findType ((print_tokens data m fmt num tok htok).plain c hc).2

theorem wifiNvmBufOperate_toText (h : l.sound = true)
    (data : List UInt8) (hmem : mem.length = caliSize) (rest : List Char) :
    wifiNvmBufOperate mem [] (l.toText false data ++ '\n' :: rest) =
      wifiNvmBufOperate (l.readInto data mem) [] rest := by
  rw [wifiNvmBufOperate_line (toText_inLine h data), nil_append]
  cases l with
  | text s =>
    split
    case isTrue hlong =>
      rw [Line.toText, setLine_text h hlong, bind_some]
      rfl
    · rfl
  | field label m fmt num =>
    have hlong : 5 ≤ ((Line.field label m fmt num).toText false data).length := by
      simp only [Line.sound, decide_eq_true_eq] at h
      rw [Line.toText, length_append]
      omega
    rw [if_pos hlong, setLine_field h data hmem, bind_some]

theorem length_readInto (h : l.sound = true) (data : List UInt8)
    (hmem : mem.length = caliSize) : (l.readInto data mem).length = caliSize := by
  cases l with
  | text s => exact hmem
  | field label m fmt num =>
    simp only [Line.sound, decide_eq_true_eq] at h
    rw [Line.readInto, length_patch _ _ (by rw [length_storedBytes]; omega), hmem]

theorem wifiNvmBufOperate_lines {ls : List Line}
    (h : ∀ l ∈ ls, l.sound = true) (data : List UInt8) (hmem : mem.length = caliSize) :
    wifiNvmBufOperate mem [] (ls.flatMap fun l => l.toText false data ++ ['\n']) =
      some (ls.foldl (fun mem l => l.readInto data mem) mem) := by
  induction ls generalizing mem with
  | nil => rfl
  | cons l ls ih =>
    have hl := h l mem_cons_self
    rw [flatMap_cons, append_assoc]
    exact (wifiNvmBufOperate_toText hl data hmem _).trans
      (ih (fun l' hl' => h l' (mem_cons_of_mem l hl')) (length_readInto hl data hmem))

def Line.room : Line → Nat
  | .text s => s.toList.length + 1
  | .field label m fmt num => label.toList.length + num * (fmt.width m.place.size + 2) + 1

theorem length_commaSep_le (h : ∀ tok ∈ toks, tok.length ≤ w) :
    (commaSep toks).length ≤ toks.length * (w + 2) := by
  induction toks with
  | nil => exact Nat.zero_le _
  | cons v vs ih =>
    have ih := ih fun tok htok => h tok (mem_cons_of_mem v htok)
    have hv := h v mem_cons_self
    rw [length_cons, Nat.succ_mul]
    cases vs with
    | nil =>
      rw [commaSep]
      omega
    | cons u us =>
      rw [commaSep, length_append, length_cons, length_cons]
      · omega
      · simp

theorem length_toText_le (l : Line) (data : List UInt8) :
    (l.toText false data ++ ['\n']).length ≤ l.room := by
  rw [length_append, length_singleton]
  cases l with
  | text s => exact le_rfl
  | field label m fmt num =>
    have htoks : ∀ tok ∈ (m.elements data num).map (fmt.print m.place.size),
        tok.length ≤ fmt.width m.place.size := by
      intro tok htok
      obtain ⟨v, hv, rfl⟩ := mem_map.1 htok
      obtain ⟨i, -, rfl⟩ := mem_map.1 hv
      exact length_print_le fmt m.intSize (element_lt m i)
    have hlen := length_commaSep_le htoks
    rw [length_map, Cali.elements, length_map, length_range] at hlen
    rw [Line.toText, length_append]
    exact Nat.succ_le_succ (Nat.add_le_add_left hlen _)

theorem caliText_fits (data : List UInt8) : (caliText false data).length + 1 ≤ caliMaxSize := by
  have hroom : (caliLines.map Line.room).sum + 1 ≤ caliMaxSize := by decide +kernel
  have hsum : (caliText false data).length ≤ (caliLines.map Line.room).sum := by
    rw [caliText, length_flatMap]
    exact sum_le_sum fun l _ => length_toText_le l data
  omega

theorem wifiNvmParse_caliText (data : List UInt8) (hold : old.length = caliSize) :
    wifiNvmParse (caliText false data) old =
      some (caliLines.foldl (fun mem l => l.readInto data mem) old) := by
  have hfits := caliText_fits data
  rw [wifiNvmParse, take_of_length_le (by omega), caliText]
  exact wifiNvmBufOperate_lines caliLines_sound data hold

/-- No word of the structure that is printed in hexadecimal has its highest bit set. -/
def HexWordsSmall (data : List UInt8) : Prop :=
  ∀ label m num, Line.field label m .hex num ∈ caliLines → m.place.size = 4 →
    ∀ v ∈ m.elements data num, v < 2 ^ 31

def Line.exact (data : List UInt8) : Line → Prop
  | .text _ => True
  | .field _ m fmt num =>
    m.storedBytes data fmt num = (data.drop m.place.offset).take (num * m.place.size)

def Line.Holds (i : Nat) : Line → Prop
  | .text _ => False
  | .field _ m _ num => m.place.offset ≤ i ∧ i < m.place.offset + num * m.place.size

theorem exact_of_small {data : List UInt8} (hdata : data.length = caliSize)
    (hsmall : HexWordsSmall data) : ∀ l ∈ caliLines, l.exact data := by
  intro l hl
  have hsound := caliLines_sound l hl
  cases l with
  | text s => trivial
  | field label m fmt num =>
    simp only [Line.sound, decide_eq_true_eq] at hsound
    apply storedBytes_eq (by omega)
    intro v hv
    rw [Fmt.readBack]
    split
    case isTrue hword =>
      obtain ⟨rfl, hsize⟩ := hword
      have hv := hsmall label m num hl hsize v hv
      omega
    · rfl

theorem getElem?_readInto (hsound : l.sound = true)
    (hexact : l.exact data) (hmem : mem.length = caliSize) (hdata : data.length = caliSize)
    (h : mem[i]? = data[i]? ∨ l.Holds i) : (l.readInto data mem)[i]? = data[i]? := by
  cases l with
  | text s => exact h.resolve_right id
  | field label m fmt num =>
    simp only [Line.sound, decide_eq_true_eq] at hsound
    have hin : m.place.offset + num * m.place.size ≤ caliSize := hsound.2.2.2.2.2
    have hlen := length_storedBytes data m fmt num
    have hoff : (mem.take m.place.offset).length = m.place.offset :=
      length_take_of_le (by omega)
    rw [Line.readInto, patch, append_assoc]
    by_cases hlow : i < m.place.offset
    · rw [getElem?_append_left (by omega), getElem?_take_of_lt hlow]
      exact h.resolve_right fun hh => absurd hh.1 (by omega)
    rw [getElem?_append_right (by omega), hoff]
    by_cases hhigh : i < m.place.offset + num * m.place.size
    · rw [getElem?_append_left (by omega), hexact, getElem?_take_of_lt (by omega), getElem?_drop]
      congr 1
      omega
    rw [getElem?_append_right (by omega), getElem?_drop, hlen]
    have hi : m.place.offset + num * m.place.size +
        (i - m.place.offset - num * m.place.size) = i := by omega
    rw [hi]
    exact h.resolve_right fun hh => absurd hh.2 (by omega)

theorem getElem?_foldl_readInto {ls : List Line}
    (hsound : ∀ l ∈ ls, l.sound = true) (hexact : ∀ l ∈ ls, l.exact data)
    (hmem : mem.length = caliSize) (hdata : data.length = caliSize)
    (h : mem[i]? = data[i]? ∨ ∃ l ∈ ls, l.Holds i) :
    (ls.foldl (fun mem l => l.readInto data mem) mem)[i]? = data[i]? := by
  induction ls generalizing mem with
  | nil => exact h.resolve_right (by simp)
  | cons l ls ih =>
    have hl := hsound l mem_cons_self
    have hread := getElem?_readInto hl (hexact l mem_cons_self) hmem hdata (i := i)
    apply ih (fun l' hl' => hsound l' (mem_cons_of_mem l hl'))
      (fun l' hl' => hexact l' (mem_cons_of_mem l hl')) (length_readInto hl data hmem)
    rcases h with h | ⟨l', hl', hh⟩
    · exact .inl (hread (.inl h))
    · rcases mem_cons.1 hl' with rfl | hl'
      · exact .inl (hread (.inr hh))
      · exact .inr ⟨l', hl', hh⟩

def Line.prints (m : Cali) : Line → Bool
  | .text _ => false
  | .field _ m' _ num => m' = m ∧ m.place.count ≤ num

theorem caliLines_prints (m : Cali) : caliLines.any (Line.prints m) = true := by
  cases m with
  | gmChannel i =>
    revert i
    decide +kernel
  | dpdCaliTable i =>
    revert i
    decide +kernel
  | _ => decide +kernel

theorem exists_holds (hlow : m.place.offset ≤ i)
    (hhigh : i < m.place.offset + m.place.count * m.place.size) : ∃ l ∈ caliLines, l.Holds i := by
  obtain ⟨l, hl, hprints⟩ := any_eq_true.1 (caliLines_prints m)
  refine ⟨l, hl, ?_⟩
  cases l with
  | text s => cases hprints
  | field label m' fmt num =>
    obtain ⟨rfl, hnum⟩ := of_decide_eq_true hprints
    exact ⟨hlow, hhigh.trans_le (Nat.add_le_add_left (Nat.mul_le_mul_right _ hnum) _)⟩

theorem elements_congr {mem data : List UInt8}
    (h : ∀ i, m.place.offset ≤ i → i < m.place.offset + m.place.count * m.place.size →
      mem[i]? = data[i]?) :
    m.elements mem m.place.count = m.elements data m.place.count := by
  rw [Cali.elements, Cali.elements]
  apply map_congr_left
  intro k hk
  have hk : (k + 1) * m.place.size ≤ m.place.count * m.place.size :=
    Nat.mul_le_mul_right _ (mem_range.1 hk)
  rw [Nat.succ_mul] at hk
  rw [Cali.element, Cali.element]
  congr 1
  apply ext_getElem?
  intro j
  by_cases hj : j < m.place.size
  · rw [getElem?_take_of_lt hj, getElem?_take_of_lt hj, getElem?_drop, getElem?_drop]
    apply h <;> omega
  · rw [getElem?_take_eq_none (by omega), getElem?_take_eq_none (by omega)]

theorem element_replicate_zero (m : Cali) (i n : Nat) : m.element (List.replicate n 0) i = 0 := by
  have hzero (k : Nat) : ofLe (List.replicate k 0) = 0 := by
    induction k with
    | zero => rfl
    | succ k ih => rw [replicate_succ, ofLe, ih]; rfl
  rw [Cali.element, drop_replicate, take_replicate, hzero]

theorem length_foldl_readInto {ls : List Line}
    (hsound : ∀ l ∈ ls, l.sound = true) (data : List UInt8) (hmem : mem.length = caliSize) :
    (ls.foldl (fun mem l => l.readInto data mem) mem).length = caliSize := by
  induction ls generalizing mem with
  | nil => exact hmem
  | cons l ls ih =>
    exact ih (fun l' hl' => hsound l' (mem_cons_of_mem l hl'))
      (length_readInto (hsound l mem_cons_self) data hmem)

theorem foldl_readInto_last (data : List UInt8) (hold : old.length = caliSize) :
    ∃ mem, mem.length = caliSize ∧ caliLines.foldl (fun mem l => l.readInto data mem) old =
      (Line.field "tpc_reserved = " .tpcReserved .hex 4).readInto data mem := by
  have hlast : caliLines.drop 99 = .field "tpc_reserved = " .tpcReserved .hex 4 ::
      List.replicate 31 (.text "") := rfl
  have hsound : ∀ l ∈ caliLines.take 99, l.sound = true :=
    fun l hl => caliLines_sound l (mem_of_mem_take hl)
  rw [← take_append_drop 99 caliLines, foldl_append, hlast]
  exact ⟨_, length_foldl_readInto hsound data hold, rfl⟩

theorem element_readInto_zero (label : String) (data : List UInt8)
    (hin : m.place.offset ≤ mem.length) (hpos : 0 < num) (hback : fmt.readBack m.place.size
      (m.element data 0) < 256 ^ m.place.size) :
    m.element ((Line.field label m fmt num).readInto data mem) 0 =
      fmt.readBack m.place.size (m.element data 0) := by
  obtain ⟨k, rfl⟩ := Nat.exists_eq_succ_of_ne_zero hpos.ne'
  have hdrop := drop_patch_add (i := 0) (k := m.place.offset) mem (m.storedBytes data fmt (k + 1))
    (by omega)
  have helems : m.elements data (k + 1) =
      m.element data 0 :: ((List.range k).map Nat.succ).map (m.element data) := by
    rw [Cali.elements, range_succ_eq_map, map_cons]
  rw [zero_add, patch_zero, Cali.storedBytes, helems, flatMap_cons, append_assoc] at hdrop
  rw [Cali.element, zero_mul, add_zero, Line.readInto, Cali.storedBytes, helems,
    flatMap_cons, hdrop, take_left' (length_toLe _ _), ofLe_toLe hback]

end SprdVendor.Download
