import Mathlib

namespace SprdVendor.Lib
open List

def onFirst (p : α → Bool) (g : α → Option (α × β)) : List α → Option (List α × β)
  | [] => none
  | a :: l =>
    if p a then (g a).map fun r => (r.1 :: l, r.2)
    else (onFirst p g l).map fun r => (a :: r.1, r.2)

theorem onFirst_eq_some (h : onFirst p g l = some (l', b)) :
    ∃ pre a post a', l = pre ++ a :: post ∧ p a = true ∧ (∀ x ∈ pre, p x = false) ∧
      g a = some (a', b) ∧ l' = pre ++ a' :: post := by
  induction l generalizing l' with
  | nil => cases h
  | cons a l ih =>
    rw [onFirst] at h
    cases hp : p a with
    | true =>
      rw [hp, if_pos rfl, Option.map_eq_some_iff] at h
      obtain ⟨⟨a', b'⟩, hg, he⟩ := h
      cases he
      exact ⟨[], a, l, a', rfl, hp, nofun, hg, rfl⟩
    | false =>
      rw [hp, if_neg Bool.false_ne_true, Option.map_eq_some_iff] at h
      obtain ⟨⟨l₁, b'⟩, hr, he⟩ := h
      cases he
      obtain ⟨pre, x, post, x', rfl, hx, hpre, hg, rfl⟩ := ih hr
      refine ⟨a :: pre, x, post, x', rfl, hx, ?_, hg, rfl⟩
      intro y hy
      obtain rfl | hy := mem_cons.mp hy
      · exact hp
      · exact hpre y hy

theorem mem_replace (a' : α) (h : x ∈ pre ++ a :: post) : x ∈ pre ++ a' :: post ∨ x = a := by
  obtain h | h := mem_append.mp h
  · exact .inl (mem_append_left _ h)
  obtain h | h := mem_cons.mp h
  · exact .inr h
  · exact .inl (mem_append_right _ (mem_cons_of_mem _ h))

theorem onFirst_append (g : α → Option (α × β)) (hp : p a = true)
    (hpre : ∀ x ∈ pre, p x = false) (post : List α) :
    onFirst p g (pre ++ a :: post) = (g a).map fun r => (pre ++ r.1 :: post, r.2) := by
  induction pre with
  | nil => rw [nil_append, onFirst, if_pos hp]; rfl
  | cons x pre ih =>
    have hx : p x ≠ true := by
      rw [hpre x mem_cons_self]
      exact Bool.false_ne_true
    rw [cons_append, onFirst, if_neg hx, ih fun y hy => hpre y (mem_cons_of_mem x hy),
      Option.map_map]
    rfl

end SprdVendor.Lib
