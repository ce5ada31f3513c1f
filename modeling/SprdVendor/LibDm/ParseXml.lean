import SprdVendor.Lib.Bytes
import SprdVendor.Lib.Find

namespace SprdVendor.LibDm
open List hiding head after map_map
open Lib Option

inductive TagId where
  | verDtd | verProto | sessionId | msgId | targetId | sourceId | locUriId | locNameId | credId
  | metaId | maxMsgId | maxObjId | dataId | syncHdrId | syncBodyId | alertId | replaceId
  | statusId | resultId | cmdId | cmdIdId | msgRefId | cmdRefId | targetRefId | sourceRefId
  | chalId | itemId | formatId | typeId | nextNonceId | resUriId | getId | syncMlId | execId
deriving DecidableEq, Repr

def TagId.name : TagId → String
  | .verDtd => "VerDTD"
  | .verProto => "VerProto"
  | .sessionId => "SessionID"
  | .msgId => "MsgID"
  | .targetId => "Target"
  | .sourceId => "Source"
  | .locUriId => "LocURI"
  | .locNameId => "LocName"
  | .credId => "Cred"
  | .metaId => "Meta"
  | .maxMsgId => "MaxMsgSize"
  | .maxObjId => "MaxObjSize"
  | .dataId => "Data"
  | .syncHdrId => "SyncHdr"
  | .syncBodyId => "SyncBody"
  | .alertId => "Alert"
  | .replaceId => "Replace"
  | .statusId => "Status"
  | .resultId => "Results"
  | .cmdId => "Cmd"
  | .cmdIdId => "CmdID"
  | .msgRefId => "MsgRef"
  | .cmdRefId => "CmdRef"
  | .targetRefId => "TargetRef"
  | .sourceRefId => "SourceRef"
  | .chalId => "Chal"
  | .itemId => "Item"
  | .formatId => "Format"
  | .typeId => "Type"
  | .nextNonceId => "NextNonce"
  | .resUriId => "RespURI"
  | .getId => "Get"
  | .syncMlId => "SyncML"
  | .execId => "Exec"

def getTagStr (id : TagId) : List Char := id.name.toList

structure TagInfo where
  tagId : TagId
  tagContent : List Char
  tagArr : List Char
  hasChildTag : Bool

def attributes (info : TagInfo) : List Char :=
  if info.tagArr = [] then [] else ' ' :: info.tagArr

def element (info : TagInfo) : List Char :=
  '<' :: getTagStr info.tagId ++ attributes info ++ '>' :: info.tagContent ++
    '<' :: '/' :: getTagStr info.tagId ++ ['>']

def createTag (info : TagInfo) (bufSize : Nat) : Option (List Char) :=
  let margin := if info.hasChildTag then 6 else 18
  if 2 * (getTagStr info.tagId).length + info.tagContent.length + info.tagArr.length + margin ≥
      bufSize then none
  else some (element info)

def strstrFrom (text : List Char) (pos : Nat) (needle : List Char) : Option Nat :=
  (find needle (text.drop pos)).map (· + pos)

/-- The first loop of `MMIDM_getNextXmlTagBuf`: where the tag stands behind a `<`. -/
def findOpen (xmlbuf tag : List Char) : Nat → Nat → Option Nat
  | 0, _ => none
  | fuel + 1, pos =>
    if xmlbuf.length ≤ pos then some pos
    else
      match strstrFrom xmlbuf pos tag with
      | none => none
      | some p =>
        if 1 ≤ p ∧ xmlbuf.getD (p - 1) '\x00' = '<' then some p
        else findOpen xmlbuf tag fuel (p + tag.length)

/-- `MMIDM_getNextXmlTagBuf`: the content buffer and what is returned. A search for `>` that leaves
the text has no result. -/
def getNextXmlTagBuf (tagId : TagId) (bufSize : Nat) :
    Nat → List Char → List Char → Option (List Char × Option (List Char))
  | 0, _, _ => none
  | fuel + 1, xmlbuf, content =>
    let tag := getTagStr tagId
    if xmlbuf.length < tag.length * 2 + 5 then some (content, none)
    else
      let content := List.replicate bufSize '\x00'
      match findOpen xmlbuf tag (xmlbuf.length + 1) 0 with
      | none => some (content, none)
      | some scanner =>
        if xmlbuf.length - scanner < tag.length then some (content, none)
        else
          match strstrFrom xmlbuf (scanner + tag.length) ['>'] with
          | none => none
          | some gt =>
            let lenHead := gt + 1
            match strstrFrom xmlbuf lenHead tag with
            | none => some (content, none)
            | some scanner =>
              if scanner < 3 then some (content, none)
              else if xmlbuf.getD (scanner - 1) '\x00' = '/' ∧
                  xmlbuf.getD (scanner - 2) '\x00' = '<' ∧
                  xmlbuf.getD (scanner + tag.length) '\x00' = '>' then
                let copyLen := min (scanner - 2 - lenHead) bufSize
                some (patch content 0 ((xmlbuf.drop lenHead).take copyLen),
                  some (xmlbuf.drop (scanner + tag.length + 1)))
              else
                -- the recursive call fills the content buffer, its result is dropped
                (getNextXmlTagBuf tagId bufSize fuel (xmlbuf.drop scanner) content).map
                  fun r => (r.1, none)

theorem getTagStr_ne_nil (id : TagId) : getTagStr id ≠ [] := by
  cases id <;> decide

theorem getTagStr_plain (id : TagId) :
    '<' ∉ getTagStr id ∧ '>' ∉ getTagStr id ∧ '/' ∉ getTagStr id ∧ ' ' ∉ getTagStr id := by
  cases id <;> decide

/-- An element whose attributes and content have no angle brackets. -/
structure Plain (info : TagInfo) : Prop where
  content : '<' ∉ info.tagContent ∧ '>' ∉ info.tagContent
  arr : '<' ∉ info.tagArr ∧ '>' ∉ info.tagArr

theorem strstrFrom_some (h : find needle (text.drop pos) = some i) :
    strstrFrom text pos needle = some (i + pos) := by
  rw [strstrFrom, h, map_some]

/-- The loop finds the first place of the tag behind a `<`: it jumps over places behind another
character, and a jump cannot reach over a `<`. -/
theorem findOpen_eq (hne : tag ≠ []) (hlt : '<' ∉ tag)
    (hfind : find ('<' :: tag) text = some q) (hpos : pos ≤ q + 1) (hfuel : q + 1 < pos + fuel) :
    findOpen text tag fuel pos = some (q + 1) := by
  obtain ⟨hat, hmin⟩ := find_spec hfind
  obtain ⟨rest, hrest⟩ := hat
  have hdrop : text.drop (q + 1) = tag ++ rest := by
    rw [← drop_drop, ← hrest]
    rfl
  have hq : text[q]? = some '<' := by
    have hzero : (text.drop q)[0]? = some '<' := by
      rw [← hrest]
      rfl
    rwa [getElem?_drop] at hzero
  have hlen : q + 1 < text.length := by
    have hdrop := congrArg List.length hdrop
    have := length_pos_iff.2 hne
    rw [length_drop, length_append] at hdrop
    omega
  induction fuel generalizing pos with
  | zero => omega
  | succ fuel ih =>
    have hocc : tag <+: (text.drop pos).drop (q + 1 - pos) := by
      rw [drop_drop, Nat.add_sub_cancel' hpos, hdrop]
      exact prefix_append tag rest
    obtain ⟨i, hi, hfind⟩ := find_le hocc
    have hplace := (find_spec hfind).1
    rw [drop_drop, add_comm] at hplace
    rw [findOpen, if_neg (by omega), strstrFrom_some hfind]
    by_cases hend : i + pos = q + 1
    · have hgetD : text.getD (i + pos - 1) '\x00' = '<' := by
        rw [hend, Nat.add_sub_cancel, getD_eq_getElem?_getD, hq, getD_some]
      exact (if_pos ⟨by omega, hgetD⟩).trans (congrArg some hend)
    have hnot : ¬ (1 ≤ i + pos ∧ text.getD (i + pos - 1) '\x00' = '<') := by
      rintro ⟨hone, hgetD⟩
      have hbound : i + pos - 1 < text.length := by omega
      apply hmin (i + pos - 1) (by omega)
      rw [getD_eq_getElem _ _ hbound] at hgetD
      rw [drop_eq_getElem_cons hbound, hgetD, cons_prefix_cons, Nat.sub_add_cancel hone]
      exact ⟨rfl, hplace⟩
    have hjump : i + pos + tag.length ≤ q + 1 := by
      by_contra hover
      obtain ⟨u, hu⟩ := hplace
      have hin : (tag ++ u)[q - (i + pos)]? = some '<' := by
        rw [hu, getElem?_drop, Nat.add_sub_cancel' (by omega), hq]
      rw [getElem?_append_left (by omega)] at hin
      exact hlt (mem_of_getElem? hin)
    have hpos := length_pos_iff.2 hne
    exact (if_neg hnot).trans (ih hjump (by omega))

def inside (info : TagInfo) : List Char :=
  getTagStr info.tagId ++ attributes info ++ '>' :: info.tagContent

def closing (info : TagInfo) : List Char := '/' :: getTagStr info.tagId ++ ['>']

theorem element_append (info : TagInfo) (text : List Char) :
    element info ++ text = '<' :: (inside info ++ '<' :: (closing info ++ text)) := by
  simp [element, inside, closing]

theorem length_element (info : TagInfo) :
    (element info).length = (inside info).length + (closing info).length + 2 := by
  have h := congrArg List.length (element_append info [])
  simp only [append_nil, length_cons, length_append] at h
  omega

theorem attributes_plain (h : Plain info) : '<' ∉ attributes info ∧ '>' ∉ attributes info := by
  rw [attributes]
  split
  · exact ⟨not_mem_nil, not_mem_nil⟩
  constructor
  · rw [mem_cons, not_or]
    exact ⟨by decide, h.arr.1⟩
  · rw [mem_cons, not_or]
    exact ⟨by decide, h.arr.2⟩

theorem inside_plain (h : Plain info) : '<' ∉ inside info := by
  have hname := (getTagStr_plain info.tagId).1
  have hattr := (attributes_plain h).1
  simp only [inside, mem_append, mem_cons, not_or]
  exact ⟨⟨hname, hattr⟩, by decide, h.content.1⟩

theorem closing_plain (info : TagInfo) : '<' ∉ closing info := by
  have hname := (getTagStr_plain info.tagId).1
  simp only [closing, cons_append, mem_append, mem_cons, not_mem_nil, not_or]
  exact ⟨by decide, hname, by decide, not_false⟩

theorem prefix_of_prefix_inside {id : TagId}
    (h : getTagStr id <+: inside info ++ text) : getTagStr id <+: getTagStr info.tagId := by
  obtain ⟨-, hgt, -, hblank⟩ := getTagStr_plain id
  rw [inside, attributes] at h
  split at h
  · rw [append_nil, append_assoc] at h
    exact prefix_of_prefix_append_cons hgt h
  · rw [append_assoc, append_assoc] at h
    exact prefix_of_prefix_append_cons hblank h

theorem not_prefix_closing (id : TagId) (info : TagInfo) (text : List Char) :
    ¬ getTagStr id <+: closing info ++ text := by
  obtain ⟨-, -, hslash, -⟩ := getTagStr_plain id
  intro h
  have hnil := prefix_of_prefix_append_cons (a := []) hslash h
  exact getTagStr_ne_nil id (prefix_nil.1 hnil)

theorem find_element {id : TagId} (hinfo : Plain info)
    (hbegin : ¬ getTagStr id <+: getTagStr info.tagId) (text : List Char) :
    find ('<' :: getTagStr id) (element info ++ text) =
      (find ('<' :: getTagStr id) text).map (· + (element info).length) := by
  have hinside : ¬ getTagStr id <+: inside info ++ '<' :: (closing info ++ text) :=
    fun h => hbegin (prefix_of_prefix_inside h)
  rw [element_append, find_cons_of_not_prefix _ hinside,
    find_append_of_not_mem _ _ (inside_plain hinfo),
    find_cons_of_not_prefix _ (not_prefix_closing id info text),
    find_append_of_not_mem _ _ (closing_plain info), map_map, map_map, map_map, length_element]
  congr 1
  funext i
  simp only [Function.comp_apply]
  omega

theorem find_elements {infos : List TagInfo} {id : TagId} (hinfos : ∀ info ∈ infos, Plain info)
    (hbegin : ∀ info ∈ infos, ¬ getTagStr id <+: getTagStr info.tagId) (text : List Char) :
    find ('<' :: getTagStr id) (infos.flatMap element ++ text) =
      (find ('<' :: getTagStr id) text).map (· + (infos.flatMap element).length) := by
  induction infos with
  | nil => exact map_id'.symm
  | cons info infos ih =>
    have ih := ih (fun i hi => hinfos i (mem_cons_of_mem _ hi))
      (fun i hi => hbegin i (mem_cons_of_mem _ hi))
    rw [flatMap_cons, append_assoc,
      find_element (hinfos info mem_cons_self) (hbegin info mem_cons_self), ih,
      map_map, length_append]
    congr 1
    funext i
    simp only [Function.comp_apply]
    omega

theorem find_end (hcontent : ¬ getTagStr info.tagId <:+: info.tagContent) (text : List Char) :
    find (getTagStr info.tagId) (info.tagContent ++ '<' :: (closing info ++ text)) =
      some (info.tagContent.length + 2) := by
  obtain ⟨hlt, -, hslash, -⟩ := getTagStr_plain info.tagId
  have hne := getTagStr_ne_nil info.tagId
  have hname : find (getTagStr info.tagId) (getTagStr info.tagId ++ ['>'] ++ text) = some 0 :=
    find_of_prefix (by rw [append_assoc]; exact prefix_append _ _)
  have hclosing : find (getTagStr info.tagId) (closing info ++ text) = some 1 := by
    have hnil : ¬ getTagStr info.tagId <:+: [] := fun h => hne (infix_nil.1 h)
    have hskip := find_append_cons (getTagStr info.tagId ++ ['>'] ++ text) hne hslash hnil
    rwa [hname] at hskip
  rw [find_append_cons _ hne hlt hcontent, hclosing, map_some]
  congr 1
  omega

theorem getNextXmlTagBuf_found
    (htext : text = head ++ (body ++ '<' :: '/' :: (getTagStr tagId ++ '>' :: after)))
    (hopen : findOpen text (getTagStr tagId) (text.length + 1) 0 = some p)
    (hgt : strstrFrom text (p + (getTagStr tagId).length) ['>'] = some q) (hq : q + 1 = head.length)
    (hp : 1 ≤ p ∧ p + (getTagStr tagId).length ≤ q)
    (hend : strstrFrom text head.length (getTagStr tagId) = some (body.length + 2 + head.length))
    (hfit : body.length ≤ bufSize) (fuel : Nat) (content : List Char) :
    getNextXmlTagBuf tagId bufSize (fuel + 1) text content =
      some (body ++ List.replicate (bufSize - body.length) '\x00', some after) := by
  generalize htag : getTagStr tagId = tag at *
  have hlen : text.length = head.length + body.length + tag.length + 3 + after.length := by
    rw [htext]
    simp only [length_append, length_cons]
    omega
  have hget (k : Nat) : text.getD (body.length + head.length + k) '\x00' =
      ('<' :: '/' :: (tag ++ '>' :: after)).getD k '\x00' := by
    have hle : (head ++ body).length ≤ body.length + head.length + k := by
      rw [length_append]
      omega
    rw [htext, ← append_assoc, getD_append_right _ _ _ _ hle, length_append]
    congr 1
    omega
  have hlast : text.getD (body.length + head.length + (tag.length + 2)) '\x00' = '>' := by
    rw [hget, getD_cons_succ, getD_cons_succ, getD_append_right _ _ _ _ le_rfl, Nat.sub_self]
    rfl
  have hafter : text.drop (body.length + head.length + (tag.length + 2) + 1) = after := by
    have hcut : text = (head ++ (body ++ '<' :: '/' :: (tag ++ ['>']))) ++ after := by
      rw [htext]
      simp
    rw [hcut, drop_left']
    simp only [length_append, length_cons, length_nil]
    omega
  have hcopy : patch (List.replicate bufSize '\x00') 0
      ((text.drop head.length).take (min body.length bufSize)) =
        body ++ List.replicate (bufSize - body.length) '\x00' := by
    rw [min_eq_left hfit, htext, drop_left, take_left, patch_zero, drop_replicate]
  -- the places behind the `<` of the end tag, counted from there
  have hslash : body.length + 2 + head.length - 1 = body.length + head.length + 1 := by omega
  have hlt : body.length + 2 + head.length - 2 = body.length + head.length + 0 := by omega
  have hclose : body.length + 2 + head.length + tag.length =
      body.length + head.length + (tag.length + 2) := by omega
  have hcopyLen : body.length + head.length + 0 - head.length = body.length := by omega
  have hlong : ¬ text.length < tag.length * 2 + 5 := by omega
  rw [getNextXmlTagBuf, htag, if_neg hlong]
  simp only [hopen]
  rw [if_neg (by omega)]
  simp only [hgt, hq, hend, hslash, hlt, hclose, hcopyLen, hcopy, hafter]
  rw [if_neg (by omega), if_pos ⟨hget 1, hget 0, hlast⟩]

theorem getNextXmlTagBuf_element {pre : List TagInfo} {info : TagInfo}
    (hpre : ∀ i ∈ pre, Plain i)
    (hbegin : ∀ i ∈ pre, ¬ getTagStr info.tagId <+: getTagStr i.tagId) (hinfo : Plain info)
    (hcontent : ¬ getTagStr info.tagId <:+: info.tagContent)
    (hfit : info.tagContent.length ≤ bufSize) (fuel : Nat) (content after : List Char) :
    getNextXmlTagBuf info.tagId bufSize (fuel + 1) (pre.flatMap element ++ (element info ++ after))
      content = some (info.tagContent ++ List.replicate (bufSize - info.tagContent.length) '\x00',
        some after) := by
  have hfind : find ('<' :: getTagStr info.tagId) (pre.flatMap element ++ (element info ++ after)) =
      some (pre.flatMap element).length := by
    have hfirst : '<' :: getTagStr info.tagId <+: element info ++ after := by
      rw [element_append, inside, append_assoc, append_assoc]
      exact cons_prefix_cons.2 ⟨rfl, prefix_append _ _⟩
    rw [find_elements hpre hbegin, find_of_prefix hfirst, map_some, zero_add]
  generalize pre.flatMap element = before at hfind
  generalize htext : before ++ (element info ++ after) = text at hfind
  -- the same text, cut at the places where the searches start
  have hcut₁ : text = (before ++ '<' :: getTagStr info.tagId) ++
      (attributes info ++ '>' :: (info.tagContent ++ '<' :: (closing info ++ after))) := by
    rw [← htext, element_append, inside]
    simp
  have hcut₂ : text = (before ++ '<' :: getTagStr info.tagId ++ attributes info ++ ['>']) ++
      (info.tagContent ++ '<' :: (closing info ++ after)) := by
    rw [hcut₁]
    simp
  have hlen := congrArg List.length hcut₁
  simp only [length_append, length_cons] at hlen
  have hgt : strstrFrom text (before.length + 1 + (getTagStr info.tagId).length) ['>'] =
      some ((attributes info).length + (before.length + 1 + (getTagStr info.tagId).length)) := by
    apply strstrFrom_some
    rw [hcut₁, drop_left' (by simp only [length_append, length_cons]; omega),
      find_append_of_not_mem _ _ (attributes_plain hinfo).2,
      find_of_prefix (cons_prefix_cons.2 ⟨rfl, nil_prefix⟩), map_some, zero_add]
  apply getNextXmlTagBuf_found _ _ hgt _ _ _ hfit
  · exact before ++ '<' :: getTagStr info.tagId ++ attributes info ++ ['>']
  · rw [hcut₂, closing]
    simp
  · exact findOpen_eq (getTagStr_ne_nil _) (getTagStr_plain _).1 hfind (by omega) (by omega)
  · simp only [length_append, length_cons, length_nil]
    omega
  · omega
  · apply strstrFrom_some
    rw [hcut₂, drop_left, find_end hcontent]

def Written (info : TagInfo) (text : List Char) : Prop :=
  ∃ bufSize, createTag info bufSize = some text

theorem Written.eq_element (h : Written info text) : text = element info := by
  obtain ⟨bufSize, h⟩ := h
  obtain ⟨-, h⟩ := ite_none_left_eq_some.1 h
  exact (Option.some.inj h).symm

theorem flatten_written
    (h : List.Forall₂ Written infos texts) : texts.flatten = infos.flatMap element := by
  induction h with
  | nil => rfl
  | cons hw _ ih => rw [flatten_cons, flatMap_cons, ih, hw.eq_element]

def cmdInfo : TagInfo := ⟨.cmdId, "Get".toList, [], false⟩

def cmdIdInfo : TagInfo := ⟨.cmdIdId, "1".toList, [], false⟩

def dataInfo : TagInfo := ⟨.dataId, "Data".toList, [], false⟩

end SprdVendor.LibDm
