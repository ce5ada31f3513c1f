import Mathlib

namespace SprdVendor.Lib
open List

variable {α : Type u} {p : α → Bool} {l : List α}

/-- The entries of a stream: what stands in front of each delimiter. -/
def entries (p : α → Bool) (l : List α) : List (List α) := (l.splitOnP p).dropLast

def remainder (p : α → Bool) (l : List α) : List α := (l.splitOnP p).getLastD []

theorem entries_of_none (h : ∀ x ∈ l, p x = false) : entries p l = [] := by
  rw [entries, splitOnP_eq_singleton h]
  rfl

theorem remainder_of_none (h : ∀ x ∈ l, p x = false) : remainder p l = l := by
  rw [remainder, splitOnP_eq_singleton h]
  rfl

section first

variable {sep : α} (h : ∀ x ∈ l, p x = false) (hsep : p sep = true)
include h hsep

theorem entries_first (as : List α) : entries p (l ++ sep :: as) = l :: entries p as := by
  rw [entries, splitOnP_append_cons_of_forall_mem h sep hsep as]
  exact dropLast_cons_of_ne_nil (splitOnP_ne_nil p as)

theorem remainder_first (as : List α) : remainder p (l ++ sep :: as) = remainder p as := by
  rw [remainder, splitOnP_append_cons_of_forall_mem h sep hsep as, getLastD_cons, remainder]
  cases hs : as.splitOnP p with
  | nil => exact absurd hs (splitOnP_ne_nil p as)
  | cons a bs => rw [getLastD_cons, getLastD_cons]

end first

theorem exists_first (p : α → Bool) (l : List α) :
    (∀ x ∈ l, p x = false) ∨
      ∃ xs sep as, l = xs ++ sep :: as ∧ p sep = true ∧ ∀ x ∈ xs, p x = false := by
  induction l with
  | nil => exact .inl (forall_mem_nil _)
  | cons a l ih =>
    by_cases ha : p a = true
    · exact .inr ⟨[], a, l, rfl, ha, forall_mem_nil _⟩
    have ha : p a = false := Bool.not_eq_true _ ▸ ha
    rcases ih with hnone | ⟨xs, sep, as, rfl, hsep, hxs⟩
    · exact .inl (forall_mem_cons.mpr ⟨ha, hnone⟩)
    · exact .inr ⟨a :: xs, sep, as, rfl, hsep, forall_mem_cons.mpr ⟨ha, hxs⟩⟩

theorem entries_induction {motive : List α → Prop}
    (none : ∀ l, (∀ x ∈ l, p x = false) → motive l)
    (first : ∀ xs sep as, (∀ x ∈ xs, p x = false) → p sep = true → motive as →
      motive (xs ++ sep :: as)) (l : List α) : motive l := by
  induction hn : l.length using Nat.strong_induction_on generalizing l with
  | _ n ih =>
    rcases exists_first p l with hnone | ⟨xs, sep, as, rfl, hsep, hxs⟩
    · exact none l hnone
    · refine first xs sep as hxs hsep (ih as.length ?_ as rfl)
      rw [← hn, length_append, length_cons]
      omega

theorem remainder_none (l : List α) : ∀ x ∈ remainder p l, p x = false := by
  induction l using entries_induction (p := p) with
  | none l hl => rwa [remainder_of_none hl]
  | first xs sep as hxs hsep ih => rwa [remainder_first hxs hsep]

theorem length_remainder_le (l : List α) : (remainder p l).length ≤ l.length := by
  induction l using entries_induction (p := p) with
  | none l hl => rw [remainder_of_none hl]
  | first xs sep as hxs hsep ih =>
    rw [remainder_first hxs hsep, length_append, length_cons]
    omega

theorem entries_append (l l' : List α) :
    entries p (l ++ l') = entries p l ++ entries p (remainder p l ++ l') := by
  induction l using entries_induction (p := p) with
  | none l hl => rw [entries_of_none hl, remainder_of_none hl, nil_append]
  | first xs sep as hxs hsep ih =>
    rw [append_assoc, cons_append, entries_first hxs hsep, entries_first hxs hsep,
      remainder_first hxs hsep, ih, cons_append]

theorem remainder_append (l l' : List α) :
    remainder p (l ++ l') = remainder p (remainder p l ++ l') := by
  induction l using entries_induction (p := p) with
  | none l hl => rw [remainder_of_none hl]
  | first xs sep as hxs hsep ih =>
    rw [append_assoc, cons_append, remainder_first hxs hsep, remainder_first hxs hsep, ih]

theorem entries_congr (h : ∀ x ∈ l, p x = q x) : entries p l = entries q l := by
  rw [entries, entries]
  congr 1
  induction l with
  | nil => rfl
  | cons a l ih =>
    obtain ⟨ha, hl⟩ := forall_mem_cons.mp h
    rw [splitOnP_cons_eq_if_modifyHead, splitOnP_cons_eq_if_modifyHead, ha, ih hl]

end SprdVendor.Lib
