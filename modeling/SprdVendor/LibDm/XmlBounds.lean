import SprdVendor.LibDm.ParseXml

namespace SprdVendor.LibDm
open List hiding beq_eq_decide
open Lib Option

inductive Fault where
  | overread | overwrite | endless
deriving DecidableEq, Repr

/-- A character of a C string; behind the terminator nothing may be read. -/
def charAt (text : List Char) (i : Nat) : Except Fault Char :=
  if i ≤ text.length then .ok (text.getD i '\x00') else .error .overread

def writeContent (content bytes : List Char) : Except Fault (List Char) :=
  if bytes.length ≤ content.length then .ok (patch content 0 bytes) else .error .overwrite

def openLoop (xmlbuf tag : List Char) : Nat → Nat → Except Fault (Option Nat)
  | 0, _ => .error .endless
  | fuel + 1, pos =>
    if xmlbuf.length < pos then .error .overread
    else if xmlbuf.length = pos then .ok (some pos)
    else
      match strstrFrom xmlbuf pos tag with
      | none => .ok none
      | some p =>
        if p = 0 then openLoop xmlbuf tag fuel (p + tag.length)
        else do
          let c ← charAt xmlbuf (p - 1)
          if c = '<' then .ok (some p) else openLoop xmlbuf tag fuel (p + tag.length)

def seekGt (xmlbuf : List Char) : Nat → Nat → Except Fault Nat
  | 0, _ => .error .endless
  | fuel + 1, pos => do
    let c ← charAt xmlbuf pos
    if c = '>' then .ok (pos + 1) else seekGt xmlbuf fuel (pos + 1)

def isEndTag (xmlbuf : List Char) (scanner tagLen : Nat) : Except Fault Bool := do
  let slash ← charAt xmlbuf (scanner - 1)
  if slash ≠ '/' then .ok false
  else do
    let lt ← charAt xmlbuf (scanner - 2)
    if lt ≠ '<' then .ok false
    else do
      let gt ← charAt xmlbuf (scanner + tagLen)
      .ok (gt == '>')

/-- The copy of the content: `strncpy` takes a negative length as a huge one. -/
def copyContent (xmlbuf content : List Char) (lenHead : Nat) (copyLen : Int) :
    Except Fault (List Char) :=
  if copyLen < 0 then .error .overwrite
  else writeContent content ((xmlbuf.drop lenHead).take copyLen.toNat)

/-- `MMIDM_getNextXmlTagBuf` with every read and write checked. -/
def scanXmlTag (tagId : TagId) (bufSize : Nat) :
    Nat → List Char → List Char → Except Fault (List Char × Option (List Char))
  | 0, _, _ => .error .endless
  | fuel + 1, xmlbuf, content =>
    let tag := getTagStr tagId
    if xmlbuf.length < tag.length * 2 + 5 then .ok (content, none)
    else do
      let content ← writeContent content (List.replicate bufSize '\x00')
      match ← openLoop xmlbuf tag (xmlbuf.length + 1) 0 with
      | none => .ok (content, none)
      | some scanner =>
        if xmlbuf.length - scanner < tag.length then .ok (content, none)
        else do
          let lenHead ← seekGt xmlbuf (xmlbuf.length + 1) (scanner + tag.length)
          match strstrFrom xmlbuf lenHead tag with
          | none => .ok (content, none)
          | some scanner =>
            let lenEnd : Int := scanner - 3
            if 0 > lenEnd ∨ xmlbuf.length < lenEnd + 3 + tag.length then .ok (content, none)
            else do
              match ← isEndTag xmlbuf scanner tag.length with
              | true =>
                let copyLen := min (lenEnd - lenHead + 1) bufSize
                let content ← copyContent xmlbuf content lenHead copyLen
                .ok (content, some (xmlbuf.drop (scanner + tag.length + 1)))
              | false =>
                let r ← scanXmlTag tagId bufSize fuel (xmlbuf.drop scanner) content
                .ok (r.1, none)

variable {text tag content : List Char}

theorem charAt_eq (h : i ≤ text.length) : charAt text i = .ok (text.getD i '\x00') := if_pos h

theorem writeContent_eq (h : bytes.length ≤ content.length) :
    writeContent content bytes = .ok (patch content 0 bytes) := if_pos h

theorem strstrFrom_spec (h : strstrFrom text pos needle = some p) :
    pos ≤ p ∧ needle <+: text.drop p := by
  obtain ⟨i, hi, rfl⟩ := map_eq_some_iff.1 h
  have hat := (find_spec hi).1
  rw [drop_drop, add_comm] at hat
  exact ⟨Nat.le_add_left pos i, hat⟩

theorem strstrFrom_le (h : strstrFrom text pos needle = some p) (hne : needle ≠ []) :
    p + needle.length ≤ text.length := by
  have hlen := (strstrFrom_spec h).2.length_le
  have hpos := length_pos_iff.2 hne
  rw [length_drop] at hlen
  omega

theorem openLoop_eq (hne : tag ≠ []) (hpos : pos ≤ text.length) (hfuel : text.length < pos + fuel) :
    openLoop text tag fuel pos = .ok (findOpen text tag fuel pos) := by
  induction fuel generalizing pos with
  | zero => omega
  | succ fuel ih =>
    rw [openLoop, findOpen, if_neg (by omega)]
    by_cases hend : text.length = pos
    · rw [if_pos hend, if_pos hend.le]
    rw [if_neg hend, if_neg (by omega)]
    cases hfind : strstrFrom text pos tag with
    | none => rfl
    | some p =>
      have hle := strstrFrom_le hfind hne
      have hge := (strstrFrom_spec hfind).1
      have htag := length_pos_iff.2 hne
      have hrest := @ih (p + tag.length) (by omega) (by omega)
      have hread := charAt_eq (by omega : p - 1 ≤ text.length)
      simp only [hrest, hread, bind, Except.bind]
      by_cases hzero : p = 0
      · rw [if_pos hzero, if_neg (by omega)]
      · have hone : 1 ≤ p := by omega
        simp only [if_neg hzero, hone, true_and]
        exact (apply_ite Except.ok _ _ _).symm

theorem findOpen_spec (h : findOpen text tag fuel pos = some p)
    (hshort : p < text.length) : 1 ≤ p ∧ '<' :: tag <+: text.drop (p - 1) := by
  induction fuel generalizing pos with
  | zero => cases h
  | succ fuel ih =>
    rw [findOpen] at h
    split at h
    case isTrue hend =>
      cases h
      omega
    · cases hfind : strstrFrom text pos tag with
      | none => simp only [hfind] at h; cases h
      | some q =>
        simp only [hfind] at h
        split at h
        case isTrue hq =>
          cases h
          obtain ⟨hone, hlt⟩ := hq
          refine ⟨hone, ?_⟩
          have hbound : p - 1 < text.length := by omega
          rw [getD_eq_getElem _ _ hbound] at hlt
          rw [drop_eq_getElem_cons hbound, hlt, cons_prefix_cons, Nat.sub_add_cancel hone]
          exact ⟨rfl, (strstrFrom_spec hfind).2⟩
        · exact ih h

theorem seekGt_spec (hgt : '>' ∈ text.drop pos) (hfuel : text.length < pos + fuel) :
    ∃ lenHead, seekGt text fuel pos = .ok lenHead ∧
      strstrFrom text pos ['>'] = some (lenHead - 1) ∧ pos < lenHead ∧ lenHead ≤ text.length ∧
      text.getD (lenHead - 1) '\x00' = '>' := by
  induction fuel generalizing pos with
  | zero =>
    rw [drop_of_length_le (by omega)] at hgt
    cases hgt
  | succ fuel ih =>
    have hlt : pos < text.length := by
      by_contra hge
      rw [drop_of_length_le (by omega)] at hgt
      cases hgt
    have hgetD := getD_eq_getElem text '\x00' hlt
    rw [seekGt, charAt_eq hlt.le, hgetD]
    rw [drop_eq_getElem_cons hlt] at hgt
    simp only [bind, Except.bind]
    by_cases hc : text[pos] = '>'
    · refine ⟨pos + 1, if_pos hc, ?_, Nat.lt_succ_self pos, hlt, ?_⟩
      · rw [strstrFrom, find_of_prefix, map_some, Nat.zero_add, Nat.add_sub_cancel]
        rw [drop_eq_getElem_cons hlt, hc]
        exact cons_prefix_cons.2 ⟨rfl, nil_prefix⟩
      · rw [Nat.add_sub_cancel, hgetD, hc]
    have hrest : '>' ∈ text.drop (pos + 1) :=
      (mem_cons.1 hgt).resolve_left (Ne.symm hc)
    obtain ⟨lenHead, hseek, hfind, hpos, hle, hat⟩ := ih hrest (by omega)
    refine ⟨lenHead, (if_neg hc).trans hseek, ?_, by omega, hle, hat⟩
    rw [strstrFrom] at hfind ⊢
    obtain ⟨k, hk, hsum⟩ := map_eq_some_iff.1 hfind
    rw [drop_eq_getElem_cons hlt, find_cons_of_ne _ _ hc, hk]
    have hlast : k + 1 + pos = lenHead - 1 := by omega
    exact congrArg some hlast

theorem isEndTag_eq (hpos : 0 < scanner) (hle : scanner + n ≤ text.length) :
    isEndTag text scanner n = .ok (decide (text.getD (scanner - 1) '\x00' = '/' ∧
      text.getD (scanner - 2) '\x00' = '<' ∧ text.getD (scanner + n) '\x00' = '>')) := by
  rw [isEndTag, charAt_eq (by omega), charAt_eq (by omega), charAt_eq hle]
  generalize text.getD (scanner - 1) '\x00' = slash
  generalize text.getD (scanner - 2) '\x00' = lt
  generalize text.getD (scanner + n) '\x00' = gt
  by_cases hslash : slash = '/'
  · by_cases hlt : lt = '<'
    · simp only [bind, Except.bind, hslash, hlt, ne_eq, not_true, if_false, true_and, beq_eq_decide]
    · simp [bind, Except.bind, hslash, hlt]
  · simp [bind, Except.bind, hslash]

def Closed (tag text : List Char) : Prop :=
  ∀ pre post, text = pre ++ '<' :: (tag ++ post) → '>' ∈ post

theorem Closed.drop (h : Closed tag text) (n : Nat) : Closed tag (text.drop n) := by
  intro pre post hcut
  apply h (text.take n ++ pre) post
  rw [append_assoc, ← hcut, take_append_drop]

theorem Closed.ahead (h : Closed tag text) (hone : 1 ≤ p) (hat : '<' :: tag <+: text.drop (p - 1)) :
    '>' ∈ text.drop (p + tag.length) := by
  obtain ⟨post, hpost⟩ := hat
  have hcut : text = text.take (p - 1) ++ '<' :: (tag ++ post) := by
    rw [← cons_append, hpost, take_append_drop]
  have hrest : text.drop (p + tag.length) = post := by
    have hsum : p + tag.length = p - 1 + (tag.length + 1) := by omega
    rw [hsum, ← drop_drop, ← hpost]
    exact drop_left' rfl
  rw [hrest]
  exact h _ _ hcut

theorem lenHead_le (hgt : text.getD (lenHead - 1) '\x00' = '>')
    (hslash : text.getD (scanner - 1) '\x00' = '/') (hlt : text.getD (scanner - 2) '\x00' = '<')
    (hle : lenHead ≤ scanner) : lenHead + 2 ≤ scanner := by
  by_contra hover
  rcases (by omega : scanner = lenHead ∨ scanner = lenHead + 1) with rfl | rfl
  · rw [hgt] at hslash
    exact absurd hslash (by decide)
  · have hsub : lenHead + 1 - 2 = lenHead - 1 := by omega
    rw [hsub, hgt] at hlt
    exact absurd hlt (by decide)

theorem scanXmlTag_ok (hclosed : Closed (getTagStr tagId) text)
    (hroom : content.length = bufSize) (hfuel : text.length < fuel) :
    ∃ r, scanXmlTag tagId bufSize fuel text content = .ok r ∧
      getNextXmlTagBuf tagId bufSize fuel text content = some r ∧ r.1.length = bufSize := by
  induction fuel generalizing text content with
  | zero => omega
  | succ fuel ih =>
    have hne := getTagStr_ne_nil tagId
    have htag := length_pos_iff.2 hne
    have hzero : (List.replicate bufSize '\x00').length = bufSize := length_replicate
    have hclear : writeContent content (List.replicate bufSize '\x00') =
        .ok (List.replicate bufSize '\x00') := by
      rw [writeContent_eq (by omega), patch_zero, hzero, drop_of_length_le hroom.le, append_nil]
    rw [scanXmlTag, getNextXmlTagBuf, hclear, openLoop_eq hne (Nat.zero_le _) (by omega)]
    by_cases hshort : text.length < (getTagStr tagId).length * 2 + 5
    · exact ⟨(content, none), if_pos hshort, if_pos hshort, hroom⟩
    rw [if_neg hshort, if_neg hshort]
    simp only [bind, Except.bind]
    cases hopen : findOpen text (getTagStr tagId) (text.length + 1) 0 with
    | none => exact ⟨_, rfl, rfl, hzero⟩
    | some p =>
      by_cases hend : text.length - p < (getTagStr tagId).length
      · exact ⟨_, if_pos hend, if_pos hend, hzero⟩
      obtain ⟨hone, hat⟩ := findOpen_spec hopen (by omega)
      obtain ⟨lenHead, hseek, hfind, hpos, hle, hgt⟩ :=
        @seekGt_spec _ _ (text.length + 1) (hclosed.ahead hone hat) (by omega)
      have hhead : lenHead - 1 + 1 = lenHead := by omega
      simp only [if_neg hend, hseek, hfind, hhead]
      cases hnext : strstrFrom text lenHead (getTagStr tagId) with
      | none => exact ⟨_, rfl, rfl, hzero⟩
      | some scanner =>
        have hin := strstrFrom_le hnext hne
        have hbehind := (strstrFrom_spec hnext).1
        simp only [isEndTag_eq (by omega) hin]
        by_cases hthree : scanner < 3
        · exact ⟨_, if_pos (by omega), if_pos hthree, hzero⟩
        rw [if_neg (by omega), if_neg hthree]
        by_cases htest : text.getD (scanner - 1) '\x00' = '/' ∧
            text.getD (scanner - 2) '\x00' = '<' ∧
            text.getD (scanner + (getTagStr tagId).length) '\x00' = '>'
        · have hroom := lenHead_le hgt htest.1 htest.2.1 hbehind
          have hcopy : min ((scanner : Int) - 3 - lenHead + 1) bufSize =
              (min (scanner - 2 - lenHead) bufSize : Nat) := by omega
          have hfits : ((text.drop lenHead).take (min (scanner - 2 - lenHead) bufSize)).length ≤
              (List.replicate bufSize '\x00').length := by
            rw [length_take, hzero]
            omega
          rw [if_pos htest, decide_eq_true htest, hcopy, copyContent,
            if_neg (Int.not_lt.2 (Int.natCast_nonneg _)), Int.toNat_natCast, writeContent_eq hfits]
          refine ⟨_, rfl, rfl, ?_⟩
          rw [length_patch _ _ (by rwa [zero_add]), hzero]
        · obtain ⟨r, hscan, hnext, hlen⟩ := ih (hclosed.drop scanner) hzero (by
            rw [length_drop]
            omega)
          rw [if_neg htest, decide_eq_false htest, hscan, hnext]
          exact ⟨_, rfl, rfl, hlen⟩

/-- A document that ends with `>` has every tag closed, whatever else is wrong with it. -/
theorem closed_of_last (hgt : '>' ∉ tag) (text : List Char) : Closed tag (text ++ ['>']) := by
  intro pre post hcut
  have hlast := congrArg getLast? hcut
  rw [getLast?_concat, getLast?_append_cons, ← cons_append, getLast?_append] at hlast
  cases hpost : post.getLast? with
  | some c =>
    rw [hpost] at hlast
    cases hlast
    exact mem_of_getLast? hpost
  | none =>
    rw [hpost, none_or] at hlast
    rcases mem_cons.1 (mem_of_getLast? hlast.symm) with heq | hmem
    · exact absurd heq (by decide)
    · exact absurd hmem hgt

end SprdVendor.LibDm
