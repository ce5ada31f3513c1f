import SprdVendor.LibCamera.ParseRect

namespace SprdVendor.LibCamera
open Lib List

structure Area where
  left : Int
  top : Int
  right : Int
  bottom : Int
  weight : Int
  range : ∀ v ∈ [left, top, right, bottom, weight], -1000 ≤ v ∧ v ≤ 1000

def decimal (v : Int) : List Char :=
  if v < 0 then '-' :: Nat.toDigits 10 v.natAbs else Nat.toDigits 10 v.natAbs

namespace Area

def numbers (a : Area) : List Int := [a.left, a.top, a.right, a.bottom, a.weight]

def text (a : Area) : List Char :=
  decimal a.left ++ ',' :: (decimal a.top ++ ',' :: (decimal a.right ++ ',' ::
    (decimal a.bottom ++ ',' :: decimal a.weight)))

end Area

def areasText : List Area → List Char
  | [] => []
  | [a] => '(' :: (a.text ++ [')'])
  | a :: b :: as => '(' :: (a.text ++ ')' :: ',' :: areasText (b :: as))

/-- The character that the texts have left at a position of the scratch buffer: that of the last one
that reaches there. -/
def stale (texts : List (List Char)) (p : Nat) : Option Char :=
  (texts.reverse.find? fun text => p < text.length).bind (·[p]?)

/-- Behind the text of an area no digit of an earlier, longer one is left. The first ten characters
are cleared behind every area. -/
def Undisturbed (areas : List Area) : Prop :=
  ∀ done a rest, areas = done ++ a :: rest → 10 ≤ a.text.length →
    ∀ c ∈ stale (done.map Area.text) a.text.length, ¬ digitVal c < 10

theorem decimal_plain (hc : c ∈ decimal v) : c = '-' ∨ digitVal c < 10 := by
  rw [decimal] at hc
  split at hc
  · rcases mem_cons.1 hc with rfl | hc
    · exact .inl rfl
    · exact .inr (digitVal_lt_of_mem_toDigits (by decide) (by decide) hc)
  · exact .inr (digitVal_lt_of_mem_toDigits (by decide) (by decide) hc)

theorem not_mem_decimal {c : Char} (h₁ : c ≠ '-') (h₂ : ¬ digitVal c < 10) : c ∉ decimal v :=
  fun hc => (decimal_plain hc).elim h₁ h₂

theorem length_decimal (h : -1000 ≤ v ∧ v ≤ 1000) : (decimal v).length ≤ 5 := by
  have hlen : (Nat.toDigits 10 v.natAbs).length ≤ 4 := Nat.toDigits_length 10 _ 4 (by omega) (by omega)
  rw [decimal]
  split
  · exact Nat.succ_le_succ hlen
  · omega

theorem strtol_decimal (h : -1000 ≤ v ∧ v ≤ 1000) (hs : ∀ c ∈ s.head?, digitVal c = 36) :
    strtol 32 0 (decimal v ++ s) = v := by
  rw [decimal]
  split
  · rw [cons_append, strtol_of_scan_neg (scanNumber_neg _ hs) (by omega)]
    omega
  · rw [strtol_of_scan (scanNumber_dec _ hs)]
    omega

namespace Area

variable (a : Area)

theorem text_plain (hc : c ∈ a.text) : c = ',' ∨ c = '-' ∨ digitVal c < 10 := by
  simp only [text, mem_append, mem_cons] at hc
  rcases hc with hc | rfl | hc | rfl | hc | rfl | hc | rfl | hc
  all_goals first | exact .inl rfl | exact .inr (decimal_plain hc)

theorem not_mem_text {c : Char} (h₀ : c ≠ ',') (h₁ : c ≠ '-') (h₂ : ¬ digitVal c < 10) :
    c ∉ a.text := by
  intro hc
  rcases a.text_plain hc with h | h | h
  · exact h₀ h
  · exact h₁ h
  · exact h₂ h

theorem nul_not_mem : nul ∉ a.text := a.not_mem_text (by decide) (by decide) (by decide)

theorem length_text : a.text.length ≤ 29 := by
  have h := a.range
  simp only [mem_cons, not_mem_nil, or_false, forall_eq_or_imp, forall_eq] at h
  have h₁ := length_decimal h.1
  have h₂ := length_decimal h.2.1
  have h₃ := length_decimal h.2.2.1
  have h₄ := length_decimal h.2.2.2.1
  have h₅ := length_decimal h.2.2.2.2
  simp only [text, length_append, length_cons]
  omega

theorem fields : Fields a.text (decimal a.left) (decimal a.top) (decimal a.right)
    (decimal a.bottom) (decimal a.weight) :=
  have h : ∀ {v : Int}, ',' ∉ decimal v := not_mem_decimal (by decide) (by decide)
  ⟨rfl, h, h, h, h⟩

end Area

def blank : List Char := List.replicate 40 nul

theorem field_blank (field : List Char) (hf : field.length ≤ 20) (hnul : nul ∉ field) :
    fieldScratch blank field = blank ∧ fieldValue blank field = strtol 32 0 field := by
  have hdrop : blank.drop field.length = List.replicate (40 - field.length) nul :=
    drop_replicate
  constructor
  · have hcut : (field ++ List.replicate (40 - field.length) nul).drop 20 = List.replicate 20 nul := by
      rw [drop_append, drop_eq_nil_of_le hf, nil_append, drop_replicate]
      congr 1
      omega
    rw [fieldScratch, hdrop, clear, hcut]
    rfl
  have hend : cString (List.replicate (40 - field.length) nul) = [] := by
    apply cString_eq_nil_of_head
    intro c hc
    exact eq_of_mem_replicate (mem_of_mem_head? hc)
  rw [fieldValue, hdrop, cString_append hnul, hend, append_nil]

def nextScratch (k text : List Char) : List Char := clear 10 (text ++ k.drop text.length)

theorem Area.readArea (a : Area) (hk : Scratch k)
    (hbehind : ∀ c ∈ (k.drop a.text.length).head?, c = nul ∨ digitVal c = 36) :
    readArea false k blank a.text = .ok (a.numbers, nextScratch k a.text, blank) := by
  have hrange := a.range
  simp only [mem_cons, not_mem_nil, or_false, forall_eq_or_imp, forall_eq] at hrange
  obtain ⟨hl, ht, hr, hb, hw⟩ := hrange
  have hlen := a.length_text
  have hvalue {v : Int} (h : -1000 ≤ v ∧ v ≤ 1000) :
      fieldScratch blank (decimal v) = blank ∧ fieldValue blank (decimal v) = v := by
    have hshort := length_decimal h
    obtain ⟨h₁, h₂⟩ := field_blank (decimal v) (by omega)
      (not_mem_decimal (by decide) (by decide))
    have hread := strtol_decimal (s := []) h (by simp)
    rw [append_nil] at hread
    exact ⟨h₁, h₂.trans hread⟩
  have hweight : strtol 32 0 (cString (decimal a.weight ++ k.drop a.text.length)) = a.weight := by
    rw [cString_append (not_mem_decimal (by decide) (by decide))]
    apply strtol_decimal hw
    intro c hc
    cases hd : k.drop a.text.length with
    | nil => simp [hd, cString] at hc
    | cons d rest =>
      rw [hd] at hc hbehind
      rcases hbehind d rfl with rfl | h36
      · simp [cString] at hc
      rw [cString, takeWhile_cons] at hc
      split at hc
      · cases hc
        exact h36
      · cases hc
  have hread := readArea_ok a.fields a.nul_not_mem (by omega) hk (m := blank) rfl false
    (hvalue hl).1 (hvalue ht).1 (hvalue hr).1
  rw [hread, (hvalue hl).2, (hvalue ht).2, (hvalue hr).2, (hvalue hb).2, (hvalue hb).1]
  simp only [Bool.false_eq_true, if_false, hweight]
  rfl

def scratchAfter (texts : List (List Char)) : List Char := texts.foldl nextScratch blank

theorem scratch_scratchAfter (h : ∀ text ∈ texts, text.length < 40) :
    Scratch (scratchAfter texts) := by
  induction texts using reverseRecOn with
  | nil => exact scratch_blank
  | append_singleton texts text ih =>
    rw [scratchAfter, foldl_append]
    have hk := ih fun t ht => h t (mem_append_left _ ht)
    exact (hk.copy (h text (mem_append_right _ mem_cons_self))).clear (by omega)

theorem stale_append (texts : List (List Char)) (text : List Char) (p : Nat) :
    stale (texts ++ [text]) p = if p < text.length then text[p]? else stale texts p := by
  rw [stale, reverse_append, reverse_singleton, singleton_append, find?_cons]
  split
  · simp_all
  · simp_all [stale]

theorem getElem?_scratchAfter (h : ∀ text ∈ texts, text.length < 40) (hp : p < 40) :
    (scratchAfter texts)[p]? = some (if p < 10 then nul else (stale texts p).getD nul) := by
  induction texts using reverseRecOn with
  | nil =>
    have hnone : stale [] p = none := rfl
    rw [scratchAfter, foldl_nil, blank, getElem?_replicate, if_pos hp, hnone]
    simp
  | append_singleton texts text ih =>
    have hk := ih fun t ht => h t (mem_append_left _ ht)
    have hscratch := scratch_scratchAfter fun t ht => h t (mem_append_left [text] ht)
    rw [scratchAfter, foldl_append]
    simp only [foldl_cons, foldl_nil]
    rw [← scratchAfter, nextScratch, clear]
    by_cases h10 : p < 10
    · rw [getElem?_append_left (by simpa using h10), getElem?_replicate, if_pos h10, if_pos h10]
    have hshift : 10 + (p - 10) = p := by omega
    rw [getElem?_append_right (by simpa using not_lt.1 h10), length_replicate,
      getElem?_drop, hshift, if_neg h10, stale_append]
    by_cases hlt : p < text.length
    · rw [getElem?_append_left hlt, if_pos hlt, getElem?_eq_getElem hlt]
      rfl
    · have hback : text.length + (p - text.length) = p := by omega
      rw [getElem?_append_right (by omega), getElem?_drop, hback, hk, if_neg h10, if_neg hlt]

theorem stale_mem (h : c ∈ stale texts p) : ∃ text ∈ texts, c ∈ text := by
  obtain ⟨text, hfind, hc⟩ := Option.bind_eq_some_iff.1 h
  exact ⟨text, mem_reverse.1 (mem_of_find?_eq_some hfind), mem_of_getElem? hc⟩

theorem nextPiece_area (a : Area) (rest : List Char) :
    nextPiece ('(' :: (a.text ++ ')' :: rest)) = some (a.text, rest) := by
  have hin : ∀ c ∈ a.text, decide (c ≠ ')') = true := by
    intro c hc
    apply decide_eq_true
    rintro rfl
    exact a.not_mem_text (by decide) (by decide) (by decide) hc
  have hopen : ('(' :: (a.text ++ ')' :: rest)).dropWhile (· ≠ '(') =
      '(' :: (a.text ++ ')' :: rest) := dropWhile_cons_of_neg (by decide)
  have hclose : (a.text ++ ')' :: rest).dropWhile (· ≠ ')') = ')' :: rest := by
    rw [dropWhile_append_of_pos hin, dropWhile_cons_of_neg (by decide)]
  rw [nextPiece, hopen]
  simp only [hclose]
  rw [takeWhile_append_of_pos hin, takeWhile_cons_of_neg (by decide), append_nil]

theorem parseLoop_congr (h : nextPiece a = nextPiece b) :
    parseLoop w n room k m a = parseLoop w n room k m b := by
  cases n with
  | zero => rfl
  | succ n => rw [parseLoop, parseLoop, h]

theorem length_texts_lt (areas : List Area) :
    ∀ text ∈ areas.map Area.text, text.length < 40 := by
  intro text htext
  obtain ⟨a, -, rfl⟩ := mem_map.1 htext
  have := a.length_text
  omega

theorem areasText_cons (a : Area) (as : List Area) :
    ∃ rest, areasText (a :: as) = '(' :: (a.text ++ ')' :: rest) ∧
      nextPiece rest = nextPiece (areasText as) := by
  cases as with
  | nil => exact ⟨[], rfl, rfl⟩
  | cons b as => exact ⟨',' :: areasText (b :: as), rfl, rfl⟩

theorem parseLoop_areas {areas : List Area} (hclean : Undisturbed areas) (rest done : List Area)
    (hareas : areas = done ++ rest) (hn : rest.length ≤ n) (hroom : 5 * rest.length ≤ room) :
    parseLoop false n room (scratchAfter (done.map Area.text)) blank (areasText rest) =
      .ok (rest.map Area.numbers) := by
  induction rest generalizing n room done with
  | nil =>
    cases n with
    | _ => rfl
  | cons a as ih =>
    rw [length_cons] at hn hroom
    obtain ⟨n, rfl⟩ := Nat.exists_eq_succ_of_ne_zero (by omega : n ≠ 0)
    obtain ⟨tail, htail, hnext⟩ := areasText_cons a as
    have hshort := length_texts_lt done
    have hk := scratch_scratchAfter hshort
    have hlen := a.length_text
    have hbehind : ∀ c ∈ ((scratchAfter (done.map Area.text)).drop a.text.length).head?,
        c = nul ∨ digitVal c = 36 := by
      intro c hc
      rw [head?_drop, getElem?_scratchAfter hshort (by omega)] at hc
      split at hc
      · cases hc
        exact .inl rfl
      case isFalse h10 =>
        cases hstale : stale (done.map Area.text) a.text.length with
        | none =>
          rw [hstale] at hc
          cases hc
          exact .inl rfl
        | some d =>
          rw [hstale] at hc
          cases hc
          obtain ⟨text, htext, hmem⟩ := stale_mem hstale
          obtain ⟨a', -, rfl⟩ := mem_map.1 htext
          have hno := hclean done a as hareas (by omega) _ hstale
          rcases a'.text_plain hmem with rfl | rfl | hdigit
          · exact .inr (by decide)
          · exact .inr (by decide)
          · exact absurd hdigit hno
    have hread := a.readArea hk hbehind
    have hnext' : scratchAfter ((done ++ [a]).map Area.text) =
        nextScratch (scratchAfter (done.map Area.text)) a.text := by
      simp [scratchAfter]
    have hrest : parseLoop false n (room - 5) (scratchAfter ((done ++ [a]).map Area.text)) blank
        (areasText as) = .ok (as.map Area.numbers) :=
      ih (done ++ [a]) (by simp [hareas]) (by omega) (by omega)
    have hfive : a.numbers.length = 5 := rfl
    have hfits : ¬ room < a.numbers.length := by omega
    rw [parseLoop, htail, nextPiece_area]
    simp only [hread, bind, Except.bind, if_neg hfits]
    rw [parseLoop_congr hnext, hfive, ← hnext', hrest]
    rfl

theorem parseRect_areas {areas : List Area} (hclean : Undisturbed areas) (hn : areas.length ≤ 5)
    (hsize : 5 * areas.length ≤ size) :
    parseRect size (some (areasText areas)) false = .ok (areas.map Area.numbers) :=
  parseLoop_areas hclean areas [] rfl hn hsize

theorem readArray_ok (h : i < arr.length) : ∃ v, readArray arr i = .ok v := by
  refine ⟨arr[i], ?_⟩
  rw [readArray, getElem?_eq_getElem h]

theorem chekLoop_ok (is : List Nat) (h : ∀ i ∈ is, i * 5 + 4 < arr.length) :
    ∃ r, chekLoop arr is = .ok r := by
  induction is with
  | nil => exact ⟨0, rfl⟩
  | cons i is ih =>
    have hi := h i mem_cons_self
    obtain ⟨r, hr⟩ := ih fun j hj => h j (mem_cons_of_mem i hj)
    obtain ⟨left, hleft⟩ := @readArray_ok (i * 5) arr (by omega)
    obtain ⟨top, htop⟩ := @readArray_ok (i * 5 + 1) arr (by omega)
    obtain ⟨right, hright⟩ := @readArray_ok (i * 5 + 2) arr (by omega)
    obtain ⟨bottom, hbottom⟩ := @readArray_ok (i * 5 + 3) arr (by omega)
    obtain ⟨weight, hweight⟩ := @readArray_ok (i * 5 + 4) arr hi
    simp only [chekLoop, bind, Except.bind, hleft, htop, hright, hbottom, hweight]
    split
    · exact ⟨1, rfl⟩
    · exact ⟨r, hr⟩

theorem copyLoop_ok (count n i : Nat) (h : n = 0 ∨ i + n < arr.length) :
    ∃ r, copyLoop arr count n i = .ok r := by
  induction n generalizing i with
  | zero => exact ⟨_, rfl⟩
  | succ n ih =>
    obtain ⟨r, hr⟩ := ih (i + 1) (by omega)
    obtain ⟨v, hv⟩ := @readArray_ok i arr (by omega)
    obtain ⟨next, hnext⟩ := @readArray_ok (i + 1) arr (by omega)
    simp only [copyLoop, bind, Except.bind, hv, hnext]
    split
    · exact ⟨_, rfl⟩
    · rw [hr]
      exact ⟨_, rfl⟩

theorem length_areaArray (areas : List (List Int)) (h : areas.flatten.length ≤ size) :
    (areaArray size areas).length = size := by
  rw [areaArray, length_append, length_replicate]
  omega

theorem length_flatten_of_forall {areas : List (List Int)} (h : ∀ area ∈ areas, area.length = n) :
    areas.flatten.length = areas.length * n := by
  induction areas with
  | nil => exact (zero_mul n).symm
  | cons area areas ih =>
    rw [forall_mem_cons] at h
    rw [flatten_cons, length_append, h.1, ih h.2, length_cons, Nat.succ_mul]
    omega

theorem chekFocusAreas_ok (h : parseRect 20 p false = .ok areas) (hn : areas.length ≤ 4)
    (maxNum : Int) : ∃ r, chekFocusAreas p maxNum = .ok r := by
  have hlen := length_flatten_of_forall (parseRect_excludeWeight h).2
  have hsize := @length_areaArray 20 areas (by omega)
  have hparse : parseRect (4 * kFocusZoneMax) p false = .ok areas := h
  simp only [chekFocusAreas, bind, Except.bind, hparse]
  split
  · exact ⟨1, rfl⟩
  apply chekLoop_ok
  intro i hi
  have hlt := mem_range.1 hi
  have hsize' : (areaArray (4 * kFocusZoneMax) areas).length = 20 := hsize
  omega

theorem getFocusAreas_ok (h : parseRect 20 p true = .ok areas) (hn : areas.length ≤ 4)
    (hfour : ∀ area ∈ areas, area.length = 4) (rect : PreviewRect) :
    ∃ r, getFocusAreas p rect = .ok r := by
  have hlen := length_flatten_of_forall hfour
  have hsize := @length_areaArray 20 areas (by omega)
  have hparse : parseRect (4 * kFocusZoneMax) p true = .ok areas := h
  simp only [getFocusAreas, bind, Except.bind, hparse]
  apply copyLoop_ok
  rw [areaRects, coordinateStructConvert, length_mapIdx, coordinateConvert, length_mapIdx]
  have hsize' : (areaArray (4 * kFocusZoneMax) areas).length = 20 := hsize
  omega

def wholeArea : Area := ⟨-1000, -1000, 1000, 1000, 1000, by decide⟩

def smallArea : Area := ⟨10, 10, 20, 20, 1, by decide⟩

end SprdVendor.LibCamera
