import Mathlib

namespace SprdVendor.Lib
open List

variable {α : Type u} {r R : α → α → Prop} [DecidableRel r] {l : List α} {a : α}

/-- Insertion in front of the first element that stops it keeps an order, when what stops the new
element comes behind it and what lets it pass comes before. -/
theorem pairwise_orderedInsert [IsTrans α R] (hstop : ∀ b ∈ l, r a b → R a b)
    (hpass : ∀ b ∈ l, ¬ r a b → R b a) (h : l.Pairwise R) : (l.orderedInsert r a).Pairwise R := by
  induction l with
  | nil => exact pairwise_singleton _ _
  | cons b l ih =>
    obtain ⟨hb, hl⟩ := pairwise_cons.mp h
    rw [orderedInsert_cons]
    split
    case isTrue hab =>
      have hR : R a b := hstop b (.head l) hab
      refine pairwise_cons.mpr ⟨?_, h⟩
      intro c hc
      rcases mem_cons.mp hc with rfl | hc
      · exact hR
      · exact Trans.trans hR (hb c hc)
    case isFalse hab =>
      have htail := ih (fun c hc => hstop c (.tail b hc)) (fun c hc => hpass c (.tail b hc)) hl
      refine pairwise_cons.mpr ⟨?_, htail⟩
      intro c hc
      rcases (mem_orderedInsert r).mp hc with rfl | hc
      · exact hpass b (.head l) hab
      · exact hb c hc

theorem exists_split_of_rank {rank : α → Nat} (n : Nat) (h : l.Pairwise fun a b => rank a ≤ rank b)
    (hn : ∀ a ∈ l, n ≤ rank a) :
    ∃ s t, l = s ++ t ∧ (∀ a ∈ s, rank a = n) ∧ ∀ a ∈ t, n + 1 ≤ rank a := by
  induction l with
  | nil => exact ⟨[], [], rfl, by rintro a ⟨⟩, by rintro a ⟨⟩⟩
  | cons a l ih =>
    obtain ⟨ha, hl⟩ := pairwise_cons.mp h
    rcases (hn a (.head l)).eq_or_lt with heq | hlt
    · obtain ⟨s, t, rfl, hs, ht⟩ := ih hl fun b hb => hn b (.tail a hb)
      refine ⟨a :: s, t, rfl, ?_, ht⟩
      intro b hb
      rcases mem_cons.mp hb with rfl | hb
      · exact heq.symm
      · exact hs b hb
    refine ⟨[], a :: l, rfl, by rintro b ⟨⟩, ?_⟩
    intro b hb
    rcases mem_cons.mp hb with rfl | hb
    · exact hlt
    · exact le_trans hlt (ha b hb)

end SprdVendor.Lib
