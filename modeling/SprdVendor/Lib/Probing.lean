import Mathlib

namespace SprdVendor.Lib

def tri (k : Nat) : Nat := k * (k + 1) / 2

theorem two_mul_tri (k : Nat) : 2 * tri k = k * (k + 1) :=
  Nat.mul_div_cancel' (Nat.even_mul_succ_self k).two_dvd

theorem tri_succ (k : Nat) : tri (k + 1) = tri k + (k + 1) := by
  have h := two_mul_tri k
  have hs := two_mul_tri (k + 1)
  have hexpand : (k + 1) * (k + 1 + 1) = k * (k + 1) + 2 * (k + 1) := by ring
  omega

theorem two_mul_tri_add (i d : Nat) : 2 * tri (i + d) = 2 * tri i + d * (2 * i + d + 1) := by
  rw [two_mul_tri, two_mul_tri]
  ring

/-- Two of the first `2 ^ m` probes never meet: one of the two factors of twice their distance is
odd, so that the other would be a multiple of `2 ^ (m + 1)`. -/
theorem tri_injective (hj : j < 2 ^ m) (hij : i ≤ j) (h : tri i ≡ tri j [MOD 2 ^ m]) : i = j := by
  obtain ⟨d, rfl⟩ := Nat.exists_eq_add_of_le hij
  have hpow : 2 ^ (m + 1) = 2 * 2 ^ m := by rw [pow_succ, mul_comm]
  have htwice := two_mul_tri_add i d
  have hdvd : 2 ^ (m + 1) ∣ d * (2 * i + d + 1) := by
    have hdist : d * (2 * i + d + 1) = 2 * (tri (i + d) - tri i) := by omega
    rw [hpow, hdist]
    exact Nat.mul_dvd_mul_left 2 ((Nat.modEq_iff_dvd' (by omega)).1 h)
  by_contra hne
  have hpos : 0 < d := by omega
  rcases Nat.even_or_odd d with heven | hodd
  · have hcop : Nat.Coprime (2 ^ (m + 1)) (2 * i + d + 1) := by
      apply Nat.Coprime.pow_left
      rw [Nat.coprime_two_left]
      obtain ⟨e, rfl⟩ := heven
      exact ⟨i + e, by ring⟩
    have hle := Nat.le_of_dvd hpos (hcop.dvd_of_dvd_mul_right hdvd)
    omega
  · have hcop : Nat.Coprime (2 ^ (m + 1)) d := by
      apply Nat.Coprime.pow_left
      rwa [Nat.coprime_two_left]
    have hle := Nat.le_of_dvd (by omega) (hcop.dvd_of_dvd_mul_left hdvd)
    omega

theorem exists_tri_eq (m start : Nat) (i : Fin (2 ^ m)) :
    ∃ k < 2 ^ m, (start + tri k) % 2 ^ m = i := by
  have hinj : Function.Injective fun k : Fin (2 ^ m) => Fin.ofNat (2 ^ m) (start + tri k) := by
    intro j k hjk
    have hmod : tri j ≡ tri k [MOD 2 ^ m] :=
      Nat.ModEq.add_left_cancel' start (congrArg Fin.val hjk)
    apply Fin.ext
    rcases le_total j k with hle | hle
    · exact tri_injective k.isLt hle hmod
    · exact (tri_injective j.isLt hle hmod.symm).symm
  obtain ⟨k, hk⟩ := Finite.surjective_of_injective hinj i
  exact ⟨k, k.isLt, congrArg Fin.val hk⟩

def probe [NeZero size] (busy : Fin size → Bool) : Nat → Nat → Nat → Option (Fin size)
  | 0, _, _ => none
  | n + 1, count, index =>
    let index := Fin.ofNat size (index + count)
    if busy index then probe busy n (count + 1) index else some index

variable [NeZero size] {busy : Fin size → Bool} {i : Fin size}

theorem probe_some (h : probe busy n count index = some i) : busy i = false := by
  induction n generalizing count index with
  | zero => cases h
  | succ n ih =>
    rw [probe] at h
    split at h
    · exact ih h
    · cases h
      exact Bool.eq_false_of_not_eq_true ‹_›

theorem probe_none (h : probe busy n count index = none) (hk : k < n) :
    busy (Fin.ofNat size (index + ∑ j ∈ Finset.range (k + 1), (count + j))) = true := by
  induction n generalizing count index k with
  | zero => exact absurd hk (Nat.not_lt_zero k)
  | succ n ih =>
    rw [probe] at h
    split at h
    case isFalse => cases h
    case isTrue hbusy =>
      cases k with
      | zero => rwa [Finset.sum_range_one]
      | succ k =>
        have hrest := ih h (Nat.lt_of_succ_lt_succ hk)
        rw [Finset.sum_range_succ', Nat.add_zero count]
        have hshift : ∑ j ∈ Finset.range (k + 1), (count + (j + 1)) =
            ∑ j ∈ Finset.range (k + 1), (count + 1 + j) :=
          Finset.sum_congr rfl fun j _ => by omega
        have hslot :
            Fin.ofNat size (index + (∑ j ∈ Finset.range (k + 1), (count + (j + 1)) + count)) =
              Fin.ofNat size ((Fin.ofNat size (index + count)).val +
                ∑ j ∈ Finset.range (k + 1), (count + 1 + j)) := by
          apply Fin.ext
          simp only [Fin.val_ofNat, hshift, Nat.mod_add_mod]
          congr 1
          omega
        rwa [hslot]

theorem sum_range_eq_tri (k : Nat) : ∑ j ∈ Finset.range (k + 1), (0 + j) = tri k := by
  induction k with
  | zero => rfl
  | succ k ih => rw [Finset.sum_range_succ, ih, tri_succ, zero_add]

theorem busy_of_probe_none [NeZero (2 ^ m)] {busy : Fin (2 ^ m) → Bool}
    (h : probe busy (2 ^ m) 0 index = none) (i : Fin (2 ^ m)) : busy i = true := by
  obtain ⟨k, hk, hi⟩ := exists_tri_eq m index i
  have hbusy := probe_none h hk
  rw [sum_range_eq_tri] at hbusy
  have hslot : Fin.ofNat (2 ^ m) (index + tri k) = i := Fin.ext hi
  rwa [hslot] at hbusy

end SprdVendor.Lib
