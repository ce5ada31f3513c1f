import Mathlib

namespace SprdVendor.Lib
open List Option

def modifyFirst (p : α → Bool) (f : α → α) : List α → List α
  | [] => []
  | a :: l => if p a then f a :: l else a :: modifyFirst p f l

section slots

variable {α : Type u} {κ : Type v} (key : α → Option κ)

/-- No two slots of a table have the same key; a free slot has none. -/
def Distinct (l : List α) : Prop := (l.filterMap key).Nodup

variable {key} {l : List α} {k : κ} {a b : α} {g : α → α}

theorem Distinct.of_cons (h : Distinct key (a :: l)) : Distinct key l := by
  rw [Distinct, filterMap_cons] at h
  split at h
  · exact h
  · exact h.of_cons

theorem Distinct.not_mem (h : Distinct key (a :: l)) (ha : key a = some k) :
    k ∉ l.filterMap key := by
  rw [Distinct, filterMap_cons_some ha] at h
  exact (nodup_cons.mp h).1

theorem mem_filterMap_map (hg : ∀ a, key (g a) = key a ∨ key (g a) = none)
    (h : k ∈ (l.map g).filterMap key) : k ∈ l.filterMap key := by
  obtain ⟨b, hb, hk⟩ := mem_filterMap.mp h
  obtain ⟨a, ha, rfl⟩ := mem_map.mp hb
  obtain he | he := hg a
  · exact mem_filterMap.mpr ⟨a, ha, he ▸ hk⟩
  · rw [he] at hk
    cases hk

theorem Distinct.map (h : Distinct key l) (hg : ∀ a, key (g a) = key a ∨ key (g a) = none) :
    Distinct key (l.map g) := by
  induction l with
  | nil => exact h
  | cons a l ih =>
    have hl := ih h.of_cons
    rw [Distinct, map_cons, filterMap_cons]
    split
    · exact hl
    rename_i k hk
    have ha : key a = some k := by
      obtain he | he := hg a
      · exact he ▸ hk
      · rw [he] at hk
        cases hk
    apply nodup_cons.mpr
    exact ⟨fun hm => h.not_mem ha (mem_filterMap_map hg hm), hl⟩

variable [DecidableEq κ]

def slot? (key : α → Option κ) (l : List α) (k : κ) : Option α := l.find? fun a => key a = some k

theorem slot?_key (h : slot? key l k = some a) : key a = some k := by
  have hd := find?_some h
  exact of_decide_eq_true hd

theorem slot?_mem (h : slot? key l k = some a) : a ∈ l := mem_of_find?_eq_some h

theorem slot?_eq_none (h : k ∉ l.filterMap key) : slot? key l k = none := by
  apply find?_eq_none.mpr
  intro a ha hk
  exact h (mem_filterMap.mpr ⟨a, ha, of_decide_eq_true hk⟩)

theorem slot?_cons_self (h : key a = some k) : slot? key (a :: l) k = some a :=
  find?_cons_of_pos (decide_eq_true h)

theorem slot?_cons_ne (h : key a ≠ some k) : slot? key (a :: l) k = slot? key l k :=
  find?_cons_of_neg fun hd => h (of_decide_eq_true hd)

theorem slot?_of_mem (h : Distinct key l) (ha : a ∈ l) (hk : key a = some k) :
    slot? key l k = some a := by
  induction l with
  | nil => cases ha
  | cons b l ih =>
    obtain rfl | ha := mem_cons.mp ha
    · exact slot?_cons_self hk
    · rw [slot?_cons_ne, ih h.of_cons ha]
      intro hb
      exact h.not_mem hb (mem_filterMap.mpr ⟨a, ha, hk⟩)

theorem slot?_map (h : Distinct key l) (hg : ∀ a, key (g a) = key a ∨ key (g a) = none) (k : κ) :
    slot? key (l.map g) k = (slot? key l k).bind fun a =>
      if key (g a) = some k then some (g a) else none := by
  induction l with
  | nil => rfl
  | cons a l ih =>
    rw [map_cons]
    by_cases ha : key a = some k
    · rw [slot?_cons_self ha, bind_some]
      by_cases hga : key (g a) = some k
      · rw [slot?_cons_self hga, if_pos hga]
      · rw [slot?_cons_ne hga, if_neg hga]
        exact slot?_eq_none fun hm => h.not_mem ha (mem_filterMap_map hg hm)
    have hga : key (g a) ≠ some k := by
      obtain he | he := hg a
      · rwa [he]
      · rw [he]
        exact (some_ne_none k).symm
    rw [slot?_cons_ne ha, slot?_cons_ne hga, ih h.of_cons]

theorem filter_filterMap (h : Distinct key l) (hw : ∀ a k, w a = some k → key a = some k) (k : κ) :
    (l.filterMap w).filter (· = k) = ((slot? key l k).bind w).toList := by
  induction l with
  | nil => rfl
  | cons a l ih =>
    have hl := ih h.of_cons
    by_cases ha : key a = some k
    · have hnone : slot? key l k = none := slot?_eq_none (h.not_mem ha)
      rw [slot?_cons_self ha, bind_some]
      rw [hnone] at hl
      cases hwa : w a with
      | none => rw [filterMap_cons_none hwa, hl]; rfl
      | some k' =>
        cases Option.some.inj ((hw a k' hwa).symm.trans ha)
        rw [filterMap_cons_some hwa, filter_cons, if_pos (decide_eq_true rfl), hl]
        rfl
    · rw [slot?_cons_ne ha, ← hl]
      cases hwa : w a with
      | none => rw [filterMap_cons_none hwa]
      | some k' =>
        rw [filterMap_cons_some hwa, filter_cons_of_neg]
        intro hk
        exact ha (of_decide_eq_true hk ▸ hw a k' hwa)

theorem modifyFirst_eq_map (f : α → α) (h : Distinct key l) (k : κ) :
    modifyFirst (fun a => key a = some k) f l = l.map fun a => if key a = some k then f a else a := by
  induction l with
  | nil => rfl
  | cons a l ih =>
    rw [modifyFirst, map_cons]
    by_cases ha : key a = some k
    · rw [if_pos (decide_eq_true ha), if_pos ha]
      -- No slot behind the first one has the key.
      congr 1
      refine (map_congr_left ?_).trans (map_id l) |>.symm
      intro b hb
      apply if_neg
      intro hk
      exact h.not_mem ha (mem_filterMap.mpr ⟨b, hb, hk⟩)
    · rw [if_neg (fun hd => ha (of_decide_eq_true hd)), if_neg ha, ih h.of_cons]

section free

variable {pre post : List α} (ha : key a = none)
include ha

theorem slot?_replace_free (hb : key b = none) (k : κ) :
    slot? key (pre ++ b :: post) k = slot? key (pre ++ a :: post) k := by
  have hfree : ∀ c : α, key c = none → slot? key (c :: post) k = slot? key post k := by
    intro c hc
    apply slot?_cons_ne
    rw [hc]
    exact (some_ne_none k).symm
  rw [slot?, slot?, find?_append, find?_append]
  exact congrArg _ ((hfree b hb).trans (hfree a ha).symm)

omit [DecidableEq κ] in
theorem filterMap_free : (pre ++ a :: post).filterMap key = (pre ++ post).filterMap key := by
  rw [filterMap_append, filterMap_cons_none ha, filterMap_append]

omit [DecidableEq κ] in
theorem Distinct.replace_free (hb : key b = none) (h : Distinct key (pre ++ a :: post)) :
    Distinct key (pre ++ b :: post) := by
  rw [Distinct, filterMap_free hb, ← filterMap_free ha]
  exact h

theorem slot?_store (hb : key b = some k) (hk : k ∉ (pre ++ a :: post).filterMap key) (k' : κ) :
    slot? key (pre ++ b :: post) k' =
      if k' = k then some b else slot? key (pre ++ a :: post) k' := by
  rw [filterMap_free ha, filterMap_append, mem_append, not_or] at hk
  have hpre : ∀ c, slot? key (pre ++ c :: post) k' =
      (slot? key pre k').or (slot? key (c :: post) k') := fun c => find?_append
  rw [hpre, hpre]
  by_cases he : k' = k
  · rw [if_pos he, he, slot?_eq_none hk.1, slot?_cons_self hb]
    rfl
  rw [if_neg he, slot?_cons_ne, slot?_cons_ne]
  · rw [ha]
    exact (some_ne_none k').symm
  · rw [hb]
    exact fun h => he (Option.some.inj h).symm

omit [DecidableEq κ] in
theorem Distinct.store (hb : key b = some k) (hk : k ∉ (pre ++ a :: post).filterMap key)
    (h : Distinct key (pre ++ a :: post)) : Distinct key (pre ++ b :: post) := by
  rw [filterMap_free ha] at hk
  rw [Distinct, filterMap_free ha] at h
  rw [Distinct, filterMap_append, filterMap_cons_some hb]
  rw [filterMap_append] at h hk
  exact (nodup_middle).mpr (nodup_cons.mpr ⟨hk, h⟩)

end free

end slots

theorem modifyFirst_cases (p : α → Bool) (f : α → α) (l : List α) :
    modifyFirst p f l = l ∨
      ∃ pre a post, l = pre ++ a :: post ∧ p a = true ∧ modifyFirst p f l = pre ++ f a :: post := by
  induction l with
  | nil => exact .inl rfl
  | cons a l ih =>
    rw [modifyFirst]
    by_cases ha : p a = true
    · rw [if_pos ha]
      exact .inr ⟨[], a, l, rfl, ha, rfl⟩
    rw [if_neg ha]
    obtain he | ⟨pre, b, post, hl, hb, he⟩ := ih
    · exact .inl (by rw [he])
    · refine .inr ⟨a :: pre, b, post, ?_, hb, ?_⟩
      · rw [hl]; rfl
      · rw [he]; rfl

end SprdVendor.Lib
