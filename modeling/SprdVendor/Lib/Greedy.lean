import Mathlib

namespace SprdVendor.Lib
open List

/-- The elements taken from the front of a list until their weights add up to `sz`. -/
def greedy (w : α → Nat) : Nat → List α → List α
  | _, [] => []
  | sz, a :: l => if sz ≤ w a then [a] else a :: greedy w (sz - w a) l

def greedySum (w : α → Nat) (sz : Nat) (l : List α) : Nat := ((greedy w sz l).map w).sum

def greedyRest (w : α → Nat) (sz : Nat) (l : List α) : List α := l.drop (greedy w sz l).length

variable {w : α → Nat} {a : α}

theorem greedy_cons_le (h : sz ≤ w a) (l : List α) : greedy w sz (a :: l) = [a] := by
  rw [greedy, if_pos h]

theorem greedy_cons_lt (h : ¬ sz ≤ w a) (l : List α) :
    greedy w sz (a :: l) = a :: greedy w (sz - w a) l := by
  rw [greedy, if_neg h]

theorem greedySum_cons_le (h : sz ≤ w a) (l : List α) : greedySum w sz (a :: l) = w a := by
  rw [greedySum, greedy_cons_le h]
  exact sum_singleton

theorem greedySum_cons_lt (h : ¬ sz ≤ w a) (l : List α) :
    greedySum w sz (a :: l) = w a + greedySum w (sz - w a) l := by
  rw [greedySum, greedy_cons_lt h, map_cons, sum_cons]
  rfl

theorem greedyRest_cons_le (h : sz ≤ w a) (l : List α) : greedyRest w sz (a :: l) = l := by
  rw [greedyRest, greedy_cons_le h]
  rfl

theorem greedyRest_cons_lt (h : ¬ sz ≤ w a) (l : List α) :
    greedyRest w sz (a :: l) = greedyRest w (sz - w a) l := by
  rw [greedyRest, greedy_cons_lt h]
  rfl

theorem greedy_append_rest (w : α → Nat) (sz : Nat) (l : List α) :
    greedy w sz l ++ greedyRest w sz l = l := by
  induction l generalizing sz with
  | nil => rfl
  | cons a l ih =>
    by_cases h : sz ≤ w a
    · rw [greedy_cons_le h, greedyRest_cons_le h]
      rfl
    · rw [greedy_cons_lt h, greedyRest_cons_lt h, cons_append, ih]

theorem le_greedySum_or_rest_nil (w : α → Nat) (sz : Nat) (l : List α) :
    sz ≤ greedySum w sz l ∨ greedyRest w sz l = [] := by
  induction l generalizing sz with
  | nil => exact .inr rfl
  | cons a l ih =>
    by_cases h : sz ≤ w a
    · rw [greedySum_cons_le h]
      exact .inl h
    · rw [greedySum_cons_lt h, greedyRest_cons_lt h]
      exact (ih (sz - w a)).imp_left (by omega)

theorem sum_dropLast_greedy_lt (h : 0 < sz) (l : List α) :
    ((greedy w sz l).dropLast.map w).sum < sz := by
  induction l generalizing sz with
  | nil => exact h
  | cons a l ih =>
    by_cases hle : sz ≤ w a
    · rw [greedy_cons_le hle]
      exact h
    have hi := @ih (sz - w a) (by omega)
    rw [greedy_cons_lt hle]
    cases hg : greedy w (sz - w a) l with
    | nil => exact h
    | cons b g =>
      rw [hg] at hi
      rw [dropLast_cons_cons, map_cons, sum_cons]
      omega

theorem greedy_append (hsz : 0 < sz) (l r : List α) :
    greedy w sz (l ++ r) = if sz ≤ greedySum w sz l then greedy w sz l
      else greedy w sz l ++ greedy w (sz - greedySum w sz l) r := by
  induction l generalizing sz with
  | nil =>
    have hn : ¬ sz ≤ greedySum w sz [] := not_le.mpr hsz
    rw [if_neg hn]
    rfl
  | cons a l ih =>
    rw [cons_append]
    by_cases h : sz ≤ w a
    · rw [greedySum_cons_le h, if_pos h, greedy_cons_le h, greedy_cons_le h]
    rw [greedySum_cons_lt h, greedy_cons_lt h, ih (by omega), greedy_cons_lt h]
    by_cases hs : sz - w a ≤ greedySum w (sz - w a) l
    · rw [if_pos hs, if_pos (by omega)]
    · rw [if_neg hs, if_neg (by omega), Nat.sub_sub, cons_append]

theorem greedySum_append (hsz : 0 < sz) (l r : List α) :
    greedySum w sz (l ++ r) = if sz ≤ greedySum w sz l then greedySum w sz l
      else greedySum w sz l + greedySum w (sz - greedySum w sz l) r := by
  rw [greedySum, greedy_append hsz]
  split
  · rfl
  · rw [map_append, sum_append]
    rfl

theorem greedyRest_append (hsz : 0 < sz) (l r : List α) :
    greedyRest w sz (l ++ r) = if sz ≤ greedySum w sz l then greedyRest w sz l ++ r
      else greedyRest w (sz - greedySum w sz l) r := by
  induction l generalizing sz with
  | nil =>
    have hn : ¬ sz ≤ greedySum w sz [] := not_le.mpr hsz
    rw [if_neg hn]
    rfl
  | cons a l ih =>
    rw [cons_append]
    by_cases h : sz ≤ w a
    · rw [greedySum_cons_le h, if_pos h, greedyRest_cons_le h, greedyRest_cons_le h]
    rw [greedySum_cons_lt h, greedyRest_cons_lt h, ih (by omega), greedyRest_cons_lt h]
    by_cases hs : sz - w a ≤ greedySum w (sz - w a) l
    · rw [if_pos hs, if_pos (by omega)]
    · rw [if_neg hs, if_neg (by omega), Nat.sub_sub]

end SprdVendor.Lib
