import Mathlib

namespace SprdVendor.Lib
open List

variable (b : Nat → Nat)

/-- The first code word of each length in the canonical code with `b l` words of length `l`. -/
def firstCode : Nat → Nat
  | 0 => 0
  | l + 1 => 2 * (firstCode l + b l)

def firstPlace (l : Nat) : Nat := ∑ j ∈ Finset.range l, b j

variable {b} {g : Nat → List α}

/-- What is left of a longer word, cut to a shorter length, is above all words of that length. -/
theorem firstCode_add_le (hlm : l < m) : firstCode b l + b l ≤ firstCode b m / 2 ^ (m - l) := by
  rw [Nat.le_div_iff_mul_le (Nat.two_pow_pos _)]
  induction m, Nat.succ_le_of_lt hlm using Nat.le_induction with
  | base =>
    rw [Nat.succ_sub (Nat.le_refl l), Nat.sub_self, firstCode]
    omega
  | succ m hm ih =>
    rw [Nat.succ_sub (Nat.le_of_lt hm), Nat.pow_succ, ← Nat.mul_assoc, firstCode]
    have := ih hm
    omega

/-- The words fit in their lengths when the sum of Kraft is at most one. -/
theorem firstCode_add_le_two_pow (hn : ∑ l ∈ Finset.range (n + 1), b l * 2 ^ (n - l) ≤ 2 ^ n)
    (hl : l ≤ n) : firstCode b l + b l ≤ 2 ^ l := by
  have hsum : (firstCode b l + b l) * 2 ^ (n - l) =
      ∑ j ∈ Finset.range (l + 1), b j * 2 ^ (n - j) := by
    induction l with
    | zero => simp [firstCode]
    | succ l ih =>
      rw [Finset.sum_range_succ, ← ih (by omega), firstCode, show n - l = n - (l + 1) + 1 by omega,
        pow_succ]
      ring
  have hpart : ∑ j ∈ Finset.range (l + 1), b j * 2 ^ (n - j) ≤ 2 ^ n :=
    (Finset.sum_le_sum_of_subset (Finset.range_mono (by omega))).trans hn
  have hpow : 2 ^ n = 2 ^ l * 2 ^ (n - l) := by rw [← Nat.pow_add, Nat.add_sub_cancel' hl]
  rw [← hsum, hpow] at hpart
  exact Nat.le_of_mul_le_mul_right hpart (Nat.two_pow_pos _)

theorem length_flatMap_range (hg : ∀ l, (g l).length = b l) (n : Nat) :
    ((List.range n).flatMap g).length = firstPlace b n := by
  induction n with
  | zero => rfl
  | succ n ih =>
    rw [range_succ, flatMap_append, length_append, ih, flatMap_singleton, hg,
      firstPlace, firstPlace, Finset.sum_range_succ]

theorem getElem?_flatMap_range (hg : ∀ l, (g l).length = b l) (hl : l < n) (hk : k < b l) :
    ((List.range n).flatMap g)[firstPlace b l + k]? = (g l)[k]? := by
  induction n with
  | zero => omega
  | succ n ih =>
    have hlen := length_flatMap_range hg n
    rw [range_succ, flatMap_append, flatMap_singleton]
    obtain hln | rfl := Nat.lt_succ_iff_lt_or_eq.mp hl
    · rw [getElem?_append_left, ih hln]
      have hle : firstPlace b (l + 1) ≤ firstPlace b n :=
        Finset.sum_le_sum_of_subset (Finset.range_mono hln)
      rw [firstPlace, Finset.sum_range_succ, ← firstPlace] at hle
      omega
    · rw [getElem?_append_right (by omega), hlen, Nat.add_sub_cancel_left]

theorem exists_of_getElem?_sizes
    (h : ((List.range n).flatMap fun l => List.replicate (b l) l)[p]? = some l) :
    l < n ∧ ∃ k < b l, p = firstPlace b l + k := by
  induction n with
  | zero => cases h
  | succ n ih =>
    have hlen := length_flatMap_range (g := fun l => List.replicate (b l) l)
      (fun _ => length_replicate) n
    rw [range_succ, flatMap_append, flatMap_singleton] at h
    by_cases hp : p < firstPlace b n
    · rw [getElem?_append_left (by omega)] at h
      obtain ⟨hl, hk⟩ := ih h
      exact ⟨by omega, hk⟩
    rw [getElem?_append_right (by omega), hlen, getElem?_replicate] at h
    split at h
    · rename_i hlt
      cases h
      exact ⟨Nat.lt_succ_self _, p - firstPlace b l, hlt, by omega⟩
    · cases h

end SprdVendor.Lib
