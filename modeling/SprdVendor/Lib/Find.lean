import Mathlib

namespace SprdVendor.Lib
open List Option

variable {α : Type u} [DecidableEq α]

def find (needle : List α) : List α → Option Nat
  | [] => if needle = [] then some 0 else none
  | c :: cs => if needle <+: c :: cs then some 0 else (find needle cs).map (· + 1)

theorem find_of_prefix {needle text : List α} (h : needle <+: text) : find needle text = some 0 := by
  cases text with
  | nil => exact if_pos (prefix_nil.1 h)
  | cons c cs => exact if_pos h

theorem find_cons_of_ne (n cs : List α) (h : c ≠ x) :
    find (x :: n) (c :: cs) = (find (x :: n) cs).map (· + 1) := by
  apply if_neg
  rw [cons_prefix_cons]
  exact fun hp => h hp.1.symm

theorem find_cons_of_not_prefix (x : α) (h : ¬ n <+: cs) :
    find (x :: n) (x :: cs) = (find (x :: n) cs).map (· + 1) := by
  apply if_neg
  rw [cons_prefix_cons]
  exact fun hp => h hp.2

theorem find_append_of_not_mem (n b : List α) (h : x ∉ a) :
    find (x :: n) (a ++ b) = (find (x :: n) b).map (· + a.length) := by
  induction a with
  | nil => exact map_id'.symm
  | cons c a ih =>
    rw [mem_cons, not_or] at h
    rw [List.cons_append, find_cons_of_ne _ _ (Ne.symm h.1), ih h.2, Option.map_map]
    rfl

omit [DecidableEq α] in
theorem prefix_of_prefix_append_cons (hx : x ∉ n) (h : n <+: a ++ x :: b) : n <+: a := by
  have hax : a ++ [x] <+: a ++ x :: b := ⟨b, by simp⟩
  rcases prefix_or_prefix_of_prefix h hax with hn | hn
  · rcases prefix_concat_iff.1 hn with rfl | hn
    · exact absurd (mem_append_right a mem_cons_self) hx
    · exact hn
  · exact absurd (List.IsPrefix.mem (mem_append_right a mem_cons_self) hn) hx

theorem find_append_cons (b : List α) (hne : n ≠ []) (hx : x ∉ n)
    (ha : ¬ n <:+: a) : find n (a ++ x :: b) = (find n b).map (· + (a.length + 1)) := by
  induction a with
  | nil =>
    apply if_neg
    intro hp
    exact hne (prefix_nil.1 (prefix_of_prefix_append_cons hx hp))
  | cons c a ih =>
    have hnot : ¬ n <+: c :: (a ++ x :: b) :=
      fun hp => ha (prefix_of_prefix_append_cons (a := c :: a) hx hp).isInfix
    have ha' : ¬ n <:+: a := fun hi => ha (hi.trans (suffix_cons c a).isInfix)
    rw [List.cons_append, find, if_neg hnot, ih ha', Option.map_map]
    rfl

theorem find_le {n text : List α} (h : n <+: text.drop j) : ∃ i ≤ j, find n text = some i := by
  induction text generalizing j with
  | nil =>
    rw [drop_nil] at h
    exact ⟨0, Nat.zero_le j, find_of_prefix h⟩
  | cons c cs ih =>
    by_cases hp : n <+: c :: cs
    · exact ⟨0, Nat.zero_le j, if_pos hp⟩
    cases j with
    | zero => exact absurd h hp
    | succ j =>
      obtain ⟨i, hi, hfind⟩ := ih h
      exact ⟨i + 1, Nat.succ_le_succ hi, by rw [find, if_neg hp, hfind]; rfl⟩

theorem find_spec {n text : List α} (h : find n text = some i) :
    n <+: text.drop i ∧ ∀ j < i, ¬ n <+: text.drop j := by
  induction text generalizing i with
  | nil =>
    rw [find] at h
    split at h
    case isTrue hn =>
      cases h
      exact ⟨prefix_nil.2 hn, fun j hj => absurd hj (Nat.not_lt_zero j)⟩
    · cases h
  | cons c cs ih =>
    rw [find] at h
    split at h
    case isTrue hp =>
      cases h
      exact ⟨hp, fun j hj => absurd hj (Nat.not_lt_zero j)⟩
    case isFalse hp =>
      obtain ⟨k, hk, rfl⟩ := map_eq_some_iff.1 h
      obtain ⟨hat, hmin⟩ := ih hk
      refine ⟨hat, fun j hj => ?_⟩
      cases j with
      | zero => exact hp
      | succ j => exact hmin j (Nat.lt_of_succ_lt_succ hj)

end SprdVendor.Lib
