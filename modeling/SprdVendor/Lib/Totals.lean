import Mathlib
import SprdVendor.Lib.OnFirst

namespace SprdVendor.Lib
open List

/-- A recorded total is the sum over a list whose elements are all good. -/
structure Adds (w : α → Nat) (ok : α → Prop) (size : Nat) (l : List α) : Prop where
  total : size = (l.map w).sum
  all : ∀ a ∈ l, ok a

instance {w : α → Nat} {ok : α → Prop} [DecidablePred ok] (size : Nat) (l : List α) :
    Decidable (Adds w ok size l) :=
  decidable_of_iff (size = (l.map w).sum ∧ ∀ a ∈ l, ok a)
    ⟨fun h => ⟨h.1, h.2⟩, fun h => ⟨h.total, h.all⟩⟩

namespace Adds

variable {w : α → Nat} {ok : α → Prop} {size : Nat} {l : List α} {a a' : α}

theorem nil : Adds w ok 0 [] := ⟨rfl, nofun⟩

theorem snoc (h : Adds w ok size l) (ha : ok a) : Adds w ok (size + w a) (l ++ [a]) := by
  refine ⟨?_, ?_⟩
  · rw [h.total, map_append, sum_append, map_singleton, sum_singleton]
  intro b hb
  obtain hb | hb := mem_append.mp hb
  · exact h.all b hb
  · obtain rfl := mem_singleton.mp hb
    exact ha

theorem perm (h : Adds w ok size l) (hp : l.Perm l') : Adds w ok size l' := by
  refine ⟨?_, fun a ha => h.all a (hp.mem_iff.mpr ha)⟩
  rw [h.total]
  exact (hp.map w).sum_eq

theorem replace (h : Adds w ok size (pre ++ a :: post)) (ha : ok a') :
    Adds w ok (size - w a + w a') (pre ++ a' :: post) := by
  have ht := h.total
  simp only [map_append, map_cons, sum_append, sum_cons] at ht
  refine ⟨?_, ?_⟩
  · simp only [map_append, map_cons, sum_append, sum_cons]
    omega
  intro b hb
  obtain hb | hb := mem_append.mp hb
  · exact h.all b (mem_append_left _ hb)
  · obtain rfl | hb := mem_cons.mp hb
    · exact ha
    · exact h.all b (mem_append_right _ (mem_cons_of_mem _ hb))

theorem le (h : Adds w ok size (pre ++ a :: post)) : w a ≤ size := by
  have ht := h.total
  simp only [map_append, map_cons, sum_append, sum_cons] at ht
  omega

theorem onFirst (h : Adds w ok size l)
    (ho : Lib.onFirst p g l = some (l', b)) (hg : ∀ a a', ok a → g a = some (a', b) → ok a') :
    ∃ a a', ok a ∧ g a = some (a', b) ∧ w a ≤ size ∧ Adds w ok (size - w a + w a') l' := by
  obtain ⟨pre, a, post, a', rfl, -, -, ha, rfl⟩ := onFirst_eq_some ho
  have hok := h.all a (mem_append_cons_self)
  exact ⟨a, a', hok, ha, h.le, h.replace (hg a a' hok ha)⟩

theorem eraseP (h : Adds w ok size l) (hf : l.find? p = some a) :
    Adds w ok (size - w a) (l.eraseP p) ∧ ok a ∧ w a ≤ size := by
  obtain ⟨hp, pre, post, rfl, hpre⟩ := find?_eq_some_iff_append.mp hf
  refine ⟨⟨?_, ?_⟩, ?_, h.le⟩
  · have ht := h.total
    rw [eraseP_append_right _ (fun b hb => by simpa using hpre b hb), eraseP_cons_of_pos hp]
    simp only [map_append, map_cons, sum_append, sum_cons] at ht ⊢
    omega
  · intro b hb
    exact h.all b (mem_of_mem_eraseP hb)
  · exact h.all a (mem_append_cons_self)

end Adds

end SprdVendor.Lib
