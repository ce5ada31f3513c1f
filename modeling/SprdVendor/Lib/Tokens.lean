import Mathlib

namespace SprdVendor.Lib
open List

variable {α : Type u} {blank : α → Bool} {s w pre : List α}

def token [DecidableEq α] (blank : α → Bool) (s : List α) : Option (List α × List α) :=
  let t := s.dropWhile blank
  if t = [] then none else some (t.takeWhile (!blank ·), t.dropWhile (!blank ·))

theorem head_dropWhile (h : c ∈ (s.dropWhile p).head?) : p c = false := by
  have hnot := head?_dropWhile_not p s
  rw [h] at hnot
  simpa using hnot

variable [DecidableEq α]

theorem token_blanks (hpre : ∀ c ∈ pre, blank c = true) :
    token blank (pre ++ s) = token blank s := by
  rw [token, token, dropWhile_append_of_pos hpre]

theorem token_cons_blank (hc : blank c = true) : token blank (c :: s) = token blank s := by
  rw [token, token, dropWhile_cons_of_pos hc]

theorem token_append (hne : w ≠ []) (hw : ∀ c ∈ w, blank c = false) (s : List α) :
    token blank (w ++ s) = some (w ++ s.takeWhile (!blank ·), s.dropWhile (!blank ·)) := by
  obtain ⟨c, t, rfl⟩ := exists_cons_of_ne_nil hne
  have hc : ¬ blank c = true := by
    rw [hw c (.head t)]
    decide
  have hall : ∀ d ∈ c :: t, (!blank d) = true := by
    intro d hd
    rw [hw d hd]
    rfl
  have hskip : ((c :: t) ++ s).dropWhile blank = (c :: t) ++ s :=
    dropWhile_cons_of_neg hc
  have hne' : c :: t ++ s ≠ [] := cons_ne_nil c (t ++ s)
  rw [token, hskip, if_neg hne', takeWhile_append_of_pos hall, dropWhile_append_of_pos hall]

theorem token_word (hne : w ≠ []) (hw : ∀ c ∈ w, blank c = false)
    (hs : ∀ c ∈ s.head?, blank c = true) : token blank (w ++ s) = some (w, s) := by
  rw [token_append hne hw]
  cases s with
  | nil => rw [takeWhile_nil, append_nil, dropWhile_nil]
  | cons c s =>
    have hc : ¬ (!blank c) = true := by
      rw [hs c rfl]
      decide
    have htake : (c :: s).takeWhile (!blank ·) = [] := takeWhile_cons_of_neg hc
    have hdrop : (c :: s).dropWhile (!blank ·) = c :: s := dropWhile_cons_of_neg hc
    rw [htake, hdrop, append_nil]

theorem token_eq_none_iff : token blank s = none ↔ ∀ c ∈ s, blank c = true := by
  rw [← dropWhile_eq_nil_iff, token]
  split
  case isTrue h => exact iff_of_true rfl h
  case isFalse h => exact iff_of_false (by rintro ⟨⟩) h

theorem eq_of_token (h : token blank s = some (w, rest)) :
    s = s.takeWhile blank ++ (w ++ rest) ∧ w ≠ [] ∧ (∀ c ∈ w, blank c = false) ∧
      ∀ c ∈ rest.head?, blank c = true := by
  rw [token] at h
  split at h
  · cases h
  case isFalse hne =>
    cases h
    refine ⟨?_, ?_, ?_, ?_⟩
    · rw [takeWhile_append_dropWhile, takeWhile_append_dropWhile]
    · obtain ⟨c, t, ht⟩ := exists_cons_of_ne_nil hne
      have hc : blank c = false := head_dropWhile (p := blank) (s := s) (by rw [ht]; rfl)
      rw [ht, takeWhile_cons_of_pos (by rw [hc]; rfl)]
      exact cons_ne_nil _ _
    · intro c hc
      simpa using mem_takeWhile_imp hc
    · intro c hc
      simpa using head_dropWhile hc

/-- A word found after the length of the word is cut off a text with blanks in front of it: the
blanks have pushed the end of the word behind the cut. -/
theorem token_drop (hpre : ∀ c ∈ pre, blank c = true) (hne : pre ≠ []) (hw : w ≠ [])
    (hword : ∀ c ∈ w, blank c = false) (hs : ∀ c ∈ s.head?, blank c = true) :
    token blank ((pre ++ (w ++ s)).drop w.length) =
      some (w.drop (w.length - pre.length), s) := by
  have hlen := length_pos_iff.2 hne
  have hlen' := length_pos_iff.2 hw
  rw [drop_append, drop_append_of_le_length (by omega)]
  rw [token_blanks fun c hc => hpre c (mem_of_mem_drop hc)]
  apply token_word _ (fun c hc => hword c (mem_of_mem_drop hc)) hs
  intro h
  have := congrArg List.length h
  rw [length_drop, length_nil] at this
  omega

def words (blank : α → Bool) (s : List α) : List (List α) := (s.splitOnP blank).filter (· ≠ [])

theorem words_cons_blank (hc : blank c = true) : words blank (c :: s) = words blank s := by
  rw [words, words, splitOnP_cons_eq_if_modifyHead, if_pos hc, filter_cons_of_neg (by simp)]

theorem words_blanks (hpre : ∀ c ∈ pre, blank c = true) :
    words blank (pre ++ s) = words blank s := by
  induction pre with
  | nil => rfl
  | cons c pre ih =>
    rw [cons_append, words_cons_blank (hpre c mem_cons_self),
      ih fun d hd => hpre d (mem_cons_of_mem c hd)]

theorem words_word (hne : w ≠ []) (hw : ∀ c ∈ w, blank c = false)
    (hs : ∀ c ∈ s.head?, blank c = true) : words blank (w ++ s) = w :: words blank s := by
  cases s with
  | nil =>
    rw [words, append_nil, splitOnP_eq_singleton hw, filter_cons_of_pos (by simpa using hne)]
    rfl
  | cons c s =>
    rw [words, splitOnP_append_cons_of_forall_mem hw c (hs c rfl),
      filter_cons_of_pos (by simpa using hne), words_cons_blank (hs c rfl)]
    rfl

theorem words_of_token (h : token blank s = some (w, rest)) :
    words blank s = w :: words blank rest := by
  obtain ⟨hs, hne, hw, hrest⟩ := eq_of_token h
  rw [hs, words_blanks fun c hc => mem_takeWhile_imp hc, words_word hne hw hrest]

theorem words_eq_nil_iff : words blank s = [] ↔ ∀ c ∈ s, blank c = true := by
  rw [← token_eq_none_iff]
  cases h : token blank s with
  | none =>
    rw [← append_nil s, words_blanks (token_eq_none_iff.1 h)]
    exact iff_of_true rfl rfl
  | some r =>
    rw [words_of_token h]
    exact iff_of_false (cons_ne_nil _ _) (by rintro ⟨⟩)

/-- A text cut after each end of a line, and also where a line gets longer than `n`: what a loop
over `fgets` reads when `cur` has been read already. -/
def cutLines (eol : α) (n : Nat) (cur : List α) : List α → List (List α)
  | [] => if cur = [] then [] else [cur]
  | c :: s =>
    if c = eol ∨ cur.length + 1 = n then (cur ++ [c]) :: cutLines eol n [] s
    else cutLines eol n (cur ++ [c]) s

theorem cutLines_cons (hl : eol ∉ l) (hlen : cur.length + l.length < n) (s : List α) :
    cutLines eol n cur (l ++ eol :: s) = (cur ++ l ++ [eol]) :: cutLines eol n [] s := by
  induction l generalizing cur with
  | nil => rw [nil_append, cutLines, if_pos (.inl rfl), append_nil]
  | cons c l ih =>
    have hc : c ≠ eol := by
      rintro rfl
      exact hl mem_cons_self
    rw [length_cons] at hlen
    have hshort : ¬ cur.length + 1 = n := by omega
    rw [cons_append, cutLines, if_neg (not_or.2 ⟨hc, hshort⟩),
      ih (fun h => hl (mem_cons_of_mem c h)), append_assoc cur, singleton_append]
    rw [length_append, length_singleton]
    omega

theorem cutLines_flatten {ls : List (List α)}
    (h : ∀ l ∈ ls, ∃ body, l = body ++ [eol] ∧ eol ∉ body ∧ body.length < n) :
    cutLines eol n [] ls.flatten = ls := by
  induction ls with
  | nil => rfl
  | cons l ls ih =>
    obtain ⟨body, rfl, hbody, hlen⟩ := h l mem_cons_self
    rw [flatten_cons, append_assoc, singleton_append,
      cutLines_cons hbody (by rwa [length_nil, zero_add]), nil_append,
      ih fun l hl => h l (mem_cons_of_mem _ hl)]

end SprdVendor.Lib
