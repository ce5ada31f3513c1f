import SprdVendor.LibCamera.Parameters

namespace SprdVendor.LibCamera
open Lib List

variable {b k m text field rest : List Char}

theorem cString_append (h : nul ∉ text) (rest : List Char) :
    cString (text ++ rest) = text ++ cString rest := by
  apply takeWhile_append_of_pos
  intro c hc
  apply decide_eq_true
  rintro rfl
  exact h hc

theorem cString_eq_nil_of_head (h : ∀ c ∈ b.head?, c = nul) : cString b = [] := by
  cases b with
  | nil => rfl
  | cons c b => exact takeWhile_cons_of_neg (by simp [h c rfl])

theorem length_clear (h : n ≤ k.length) : (clear n k).length = k.length := by
  rw [clear, length_append, length_replicate, length_drop]
  omega

theorem length_strncpy (h : text.length ≤ k.length) :
    (text ++ k.drop text.length).length = k.length := by
  rw [length_append, length_drop]
  omega

theorem strncpy_ok (h : text.length ≤ k.length) :
    strncpy k text = .ok (text ++ k.drop text.length) := if_pos h

def fieldValue (m field : List Char) : Int := strtol 32 0 (cString (field ++ m.drop field.length))

def fieldScratch (m field : List Char) : List Char := clear 20 (field ++ m.drop field.length)

theorem readField_ok (hnul : nul ∉ field) (hcomma : ',' ∉ field) (hm : field.length ≤ m.length)
    (rest : List Char) : readField (field ++ ',' :: rest) m =
      .ok (fieldValue m field, rest, fieldScratch m field) := by
  have hstr : cString (field ++ ',' :: rest) = field ++ ',' :: cString rest := by
    rw [cString_append hnul]
    rfl
  have hfield : (field ++ ',' :: cString rest).takeWhile (· ≠ ',') = field := by
    rw [takeWhile_append_of_pos]
    · simp
    intro c hc
    apply decide_eq_true
    rintro rfl
    exact hcomma hc
  have hne : field ≠ field ++ ',' :: cString rest := by simp
  have hdrop : (field ++ ',' :: rest).drop (field.length + 1) = rest := by simp
  simp only [readField, hstr, hfield, if_neg hne, strncpy_ok hm, hdrop]
  rfl

structure Fields (text left top right bottom weight : List Char) : Prop where
  eq : text = left ++ ',' :: (top ++ ',' :: (right ++ ',' :: (bottom ++ ',' :: weight)))
  left_comma : ',' ∉ left
  top_comma : ',' ∉ top
  right_comma : ',' ∉ right
  bottom_comma : ',' ∉ bottom

theorem exists_field (h : n + 1 ≤ text.count ',') :
    ∃ field rest, text = field ++ ',' :: rest ∧ ',' ∉ field ∧ n ≤ rest.count ',' := by
  have hmem : ',' ∈ text := count_pos_iff.1 (by omega)
  obtain ⟨field, rest, rfl, hcomma⟩ := eq_append_cons_of_mem hmem
  refine ⟨field, rest, rfl, hcomma, ?_⟩
  rw [count_append, count_eq_zero.2 hcomma, count_cons_self] at h
  omega

theorem exists_fields (h : 4 ≤ text.count ',') :
    ∃ left top right bottom weight, Fields text left top right bottom weight := by
  obtain ⟨left, rest₁, rfl, hleft, h₁⟩ := exists_field h
  obtain ⟨top, rest₂, rfl, htop, h₂⟩ := exists_field h₁
  obtain ⟨right, rest₃, rfl, hright, h₃⟩ := exists_field h₂
  obtain ⟨bottom, weight, rfl, hbottom, -⟩ := exists_field h₃
  exact ⟨left, top, right, bottom, weight, rfl, hleft, htop, hright, hbottom⟩

structure Scratch (k : List Char) : Prop where
  length : k.length = 40
  last : k[39]? = some nul

theorem Scratch.copy (h : Scratch k) (ht : text.length < 40) :
    Scratch (text ++ k.drop text.length) := by
  have hlen := h.length
  refine ⟨(length_strncpy (by omega)).trans hlen, ?_⟩
  rw [getElem?_append_right (by omega), getElem?_drop, ← h.last]
  congr 1
  omega

theorem Scratch.clear (h : Scratch k) (hn : n < 40) : Scratch (clear n k) := by
  have hlen := h.length
  refine ⟨(length_clear (by omega)).trans hlen, ?_⟩
  rw [LibCamera.clear, getElem?_append_right (by simp; omega), getElem?_drop, ← h.last]
  congr 1
  simp
  omega

theorem Scratch.nul_mem (h : Scratch k) (hn : n < 40) : nul ∈ k.drop n := by
  apply mem_of_getElem? (i := 39 - n)
  rw [getElem?_drop, ← h.last]
  congr 1
  omega

theorem length_fieldScratch (field : List Char) (hm : m.length = 40) (hf : field.length ≤ 40) :
    (fieldScratch m field).length = 40 := by
  have hlen : (field ++ m.drop field.length).length = 40 := by
    rw [length_strncpy (by omega), hm]
  rw [fieldScratch, length_clear (by omega), hlen]

variable {left top right bottom weight : List Char}

theorem readArea_ok (h : Fields text left top right bottom weight) (hnul : nul ∉ text)
    (hlen : text.length < 40) (hk : Scratch k) (hm : m.length = 40) (excludeWeight : Bool)
    (h₁ : fieldScratch m left = m₁) (h₂ : fieldScratch m₁ top = m₂)
    (h₃ : fieldScratch m₂ right = m₃) :
    readArea excludeWeight k m text = .ok ([fieldValue m left, fieldValue m₁ top,
      fieldValue m₂ right, fieldValue m₃ bottom] ++
        (if excludeWeight then [] else [strtol 32 0 (cString (weight ++ k.drop text.length))]),
      clear 10 (text ++ k.drop text.length), clear 20 (fieldScratch m₃ bottom)) := by
  have hsplit : text ++ k.drop text.length = left ++ ',' :: (top ++ ',' :: (right ++ ',' ::
      (bottom ++ ',' :: (weight ++ k.drop text.length)))) := by
    rw [h.eq]
    simp
  have hlength := congrArg List.length h.eq
  simp only [length_append, length_cons] at hlength
  have hmem : nul ∉ left ∧ nul ∉ top ∧ nul ∉ right ∧ nul ∉ bottom := by
    rw [h.eq] at hnul
    simp only [mem_append, mem_cons, not_or] at hnul
    exact ⟨hnul.1, hnul.2.2.1, hnul.2.2.2.2.1, hnul.2.2.2.2.2.2.1⟩
  have hm₁ : m₁.length = 40 := h₁ ▸ length_fieldScratch left hm (by omega)
  have hm₂ : m₂.length = 40 := h₂ ▸ length_fieldScratch top hm₁ (by omega)
  have hm₃ : m₃.length = 40 := h₃ ▸ length_fieldScratch right hm₂ (by omega)
  have hweight : readWeight (weight ++ k.drop text.length) =
      .ok (strtol 32 0 (cString (weight ++ k.drop text.length))) :=
    if_pos (mem_append_right weight (hk.nul_mem hlen))
  have hcopy : strncpy k text = .ok (text ++ k.drop text.length) :=
    strncpy_ok (by rw [hk.length]; omega)
  rw [readArea, hcopy, hsplit]
  simp only [bind, Except.bind, readField_ok hmem.1 h.left_comma (m := m) (by omega), h₁,
    readField_ok hmem.2.1 h.top_comma (m := m₁) (by omega), h₂,
    readField_ok hmem.2.2.1 h.right_comma (m := m₂) (by omega), h₃,
    readField_ok hmem.2.2.2 h.bottom_comma (m := m₃) (by omega)]
  cases excludeWeight with
  | true => rfl
  | false =>
    simp only [Bool.false_eq_true, if_false, hweight]
    rfl

theorem readArea_excludeWeight (h : readArea false k m text = .ok (numbers, k', m')) :
    readArea true k m text = .ok (numbers.take 4, k', m') ∧ numbers.length = 5 := by
  simp only [readArea, bind, Except.bind] at h ⊢
  cases h₀ : strncpy k text with
  | error e => simp only [h₀] at h; cases h
  | ok k₀ =>
    simp only [h₀] at h ⊢
    cases h₁ : readField k₀ m with
    | error e => simp only [h₁] at h; cases h
    | ok r₁ =>
      simp only [h₁] at h ⊢
      cases h₂ : readField r₁.2.1 r₁.2.2 with
      | error e => simp only [h₂] at h; cases h
      | ok r₂ =>
        simp only [h₂] at h ⊢
        cases h₃ : readField r₂.2.1 r₂.2.2 with
        | error e => simp only [h₃] at h; cases h
        | ok r₃ =>
          simp only [h₃] at h ⊢
          cases h₄ : readField r₃.2.1 r₃.2.2 with
          | error e => simp only [h₄] at h; cases h
          | ok r₄ =>
            simp only [h₄] at h ⊢
            cases h₅ : readWeight r₄.2.1 with
            | error e => simp only [h₅] at h; cases h
            | ok w =>
              simp only [h₅] at h
              cases h
              exact ⟨rfl, rfl⟩

theorem parseLoop_excludeWeight {a : List Char} {n room room' : Nat} (hroom : room ≤ room')
    (h : parseLoop false n room k m a = .ok areas) :
    parseLoop true n room' k m a = .ok (areas.map (·.take 4)) ∧
      ∀ area ∈ areas, area.length = 5 := by
  induction n generalizing a room room' k m areas with
  | zero =>
    cases h
    exact ⟨rfl, fun area ha => absurd ha not_mem_nil⟩
  | succ n ih =>
    rw [parseLoop] at h ⊢
    cases hnext : nextPiece a with
    | none =>
      simp only [hnext] at h ⊢
      cases h
      exact ⟨rfl, fun area ha => absurd ha not_mem_nil⟩
    | some p =>
      simp only [hnext, bind, Except.bind] at h ⊢
      cases hread : readArea false k m p.1 with
      | error e => simp only [hread] at h; cases h
      | ok r =>
        obtain ⟨numbers, k', m'⟩ := r
        obtain ⟨hread', hlen⟩ := readArea_excludeWeight hread
        simp only [hread] at h
        split at h
        · cases h
        case isFalse hfits =>
          cases hrest : parseLoop false n (room - numbers.length) k' m' p.2 with
          | error e => simp only [hrest] at h; cases h
          | ok areas' =>
            simp only [hrest] at h
            cases h
            have htake : (numbers.take 4).length = 4 := by rw [length_take]; omega
            obtain ⟨ih₁, ih₂⟩ := @ih k' m' areas' p.2 _ (room' - 4) (by omega) hrest
            have hfits' : ¬ room' < (numbers.take 4).length := by omega
            simp only [hread', htake, if_neg (htake ▸ hfits'), ih₁]
            exact ⟨rfl, forall_mem_cons.2 ⟨hlen, ih₂⟩⟩

theorem parseRect_excludeWeight (h : parseRect size str false = .ok areas) :
    parseRect size str true = .ok (areas.map (·.take 4)) ∧ ∀ area ∈ areas, area.length = 5 := by
  cases str with
  | none =>
    cases h
    exact ⟨rfl, fun area ha => absurd ha not_mem_nil⟩
  | some a => exact parseLoop_excludeWeight le_rfl h

structure Piece (text : List Char) : Prop where
  length : text.length < 40
  commas : 4 ≤ text.count ','

instance (text : List Char) : Decidable (Piece text) :=
  decidable_of_iff (text.length < 40 ∧ 4 ≤ text.count ',')
    ⟨fun h => ⟨h.1, h.2⟩, fun h => ⟨h.1, h.2⟩⟩

def stride (excludeWeight : Bool) : Nat := if excludeWeight then 4 else 5

theorem Piece.readArea (h : Piece text) (hnul : nul ∉ text) (hk : Scratch k) (hm : m.length = 40)
    (excludeWeight : Bool) : ∃ numbers k' m', readArea excludeWeight k m text =
      .ok (numbers, k', m') ∧ numbers.length = stride excludeWeight ∧ Scratch k' ∧
        m'.length = 40 := by
  obtain ⟨left, top, right, bottom, weight, hf⟩ := exists_fields h.commas
  have hlen := h.length
  have hlength := congrArg List.length hf.eq
  simp only [length_append, length_cons] at hlength
  have hm₁ := length_fieldScratch left hm (by omega)
  have hm₂ := length_fieldScratch top hm₁ (by omega)
  have hm₃ := length_fieldScratch right hm₂ (by omega)
  have hm₄ := length_fieldScratch bottom hm₃ (by omega)
  refine ⟨_, _, _, readArea_ok hf hnul hlen hk hm excludeWeight rfl rfl rfl, ?_,
    (hk.copy hlen).clear (by omega), ?_⟩
  · cases excludeWeight <;> rfl
  · rw [length_clear (by omega), hm₄]

def pieces : Nat → List Char → List (List Char)
  | 0, _ => []
  | n + 1, a =>
    match nextPiece a with
    | none => []
    | some (text, a) => text :: pieces n a

theorem nextPiece_subset (h : nextPiece a = some (text, rest)) :
    (∀ c ∈ text, c ∈ a) ∧ ∀ c ∈ rest, c ∈ a := by
  rw [nextPiece] at h
  split at h
  · cases h
  case h_2 c₁ a₁ h₁ =>
    have hsub₁ : ∀ c ∈ a₁, c ∈ a :=
      fun c hc => (dropWhile_sublist _).mem (h₁ ▸ mem_cons_of_mem c₁ hc)
    split at h
    · cases h
    case h_2 c₂ a₂ h₂ =>
      cases h
      constructor
      · exact fun c hc => hsub₁ c ((takeWhile_sublist _).mem hc)
      · exact fun c hc => hsub₁ c ((dropWhile_sublist _).mem (h₂ ▸ mem_cons_of_mem c₂ hc))

theorem parseLoop_ok (hnul : nul ∉ a) (hpieces : ∀ text ∈ pieces n a, Piece text)
    (hroom : (pieces n a).length * stride excludeWeight ≤ room) (hk : Scratch k)
    (hm : m.length = 40) :
    ∃ areas, parseLoop excludeWeight n room k m a = .ok areas ∧
      areas.length = (pieces n a).length ∧ ∀ area ∈ areas, area.length = stride excludeWeight := by
  induction n generalizing a room k m with
  | zero => exact ⟨[], rfl, rfl, fun area ha => absurd ha not_mem_nil⟩
  | succ n ih =>
    rw [parseLoop]
    rw [pieces] at hpieces hroom ⊢
    cases hnext : nextPiece a with
    | none => exact ⟨[], rfl, rfl, fun area ha => absurd ha not_mem_nil⟩
    | some p =>
      obtain ⟨text, rest⟩ := p
      obtain ⟨htext, hrest⟩ := nextPiece_subset hnext
      simp only [hnext, mem_cons, forall_eq_or_imp, length_cons, Nat.succ_mul]
        at hpieces hroom ⊢
      obtain ⟨numbers, k', m', hread, hlen, hk', hm'⟩ :=
        hpieces.1.readArea (fun hc => hnul (htext _ hc)) hk hm excludeWeight
      obtain ⟨areas, hareas, hcount, hstride⟩ := @ih k' m' rest (room - numbers.length)
        (fun hc => hnul (hrest _ hc)) hpieces.2 (by omega) hk' hm'
      refine ⟨numbers :: areas, ?_, by rw [length_cons, hcount], ?_⟩
      · have hfits : ¬ room < numbers.length := by omega
        simp only [hread, bind, Except.bind, if_neg hfits, hareas]
        rfl
      · exact forall_mem_cons.2 ⟨hlen, hstride⟩

theorem scratch_blank : Scratch (List.replicate 40 nul) := ⟨rfl, rfl⟩

end SprdVendor.LibCamera
