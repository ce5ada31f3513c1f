import Mathlib

namespace SprdVendor.Lib
open List

def leSum : List UInt8 → Nat
  | a :: b :: l => a.toNat + 256 * b.toNat + leSum l
  | [a] => a.toNat
  | [] => 0

def fold16 (s : Nat) : Nat :=
  let t := s / 2 ^ 16 + s % 2 ^ 16
  (t + t / 2 ^ 16) % 2 ^ 16

theorem fold16_lt (s : Nat) : fold16 s < 2 ^ 16 := Nat.mod_lt _ (by decide)

theorem fold16_cases (h : s < 2 ^ 32) :
    s / 2 ^ 16 + s % 2 ^ 16 = fold16 s ∨
      s / 2 ^ 16 + s % 2 ^ 16 = fold16 s + (2 ^ 16 - 1) ∧ 0 < fold16 s := by
  simp only [fold16]
  generalize ht : s / 2 ^ 16 + s % 2 ^ 16 = t
  by_cases hlt : t < 2 ^ 16
  · rw [Nat.div_eq_of_lt hlt, Nat.add_zero, Nat.mod_eq_of_lt hlt]
    exact .inl rfl
  · have hdiv : t / 2 ^ 16 = 1 := by omega
    omega

theorem fold16_mod (h : s < 2 ^ 32) : fold16 s % (2 ^ 16 - 1) = s % (2 ^ 16 - 1) := by
  have hs : s = s / 2 ^ 16 + s % 2 ^ 16 + (2 ^ 16 - 1) * (s / 2 ^ 16) := by omega
  rw [hs, Nat.add_mul_mod_self_left]
  rcases fold16_cases h with ht | ⟨ht, -⟩
  · rw [← hs, ht]
  · rw [← hs, ht, Nat.add_mod_right]

theorem fold16_eq_zero_iff (h : s < 2 ^ 32) : fold16 s = 0 ↔ s = 0 := by
  have hcases := fold16_cases h
  omega

def leWeight (i : Nat) : Nat := if i % 2 = 0 then 1 else 256

theorem leSum_set (l : List UInt8) (h : l[i]? = some x) (y : UInt8) :
    leSum (l.set i y) + leWeight i * x.toNat = leSum l + leWeight i * y.toNat := by
  induction l using leSum.induct generalizing i with
  | case1 a b l ih =>
    match i with
    | 0 =>
      cases h
      simp only [set_cons_zero, leSum, leWeight, Nat.zero_mod, if_pos]
      omega
    | 1 =>
      cases h
      simp only [set_cons_succ, set_cons_zero, leSum, leWeight, Nat.one_mod,
        Nat.one_ne_zero, if_false]
      omega
    | i + 2 =>
      have hi := ih h
      have hw : leWeight (i + 2) = leWeight i := by rw [leWeight, Nat.add_mod_right, leWeight]
      simp only [set_cons_succ, leSum, hw]
      omega
  | case2 a =>
    match i with
    | 0 =>
      cases h
      simp only [set_cons_zero, leSum, leWeight, Nat.zero_mod, if_pos]
      omega
    | i + 1 => cases h
  | case3 => cases h

/-- One byte changes the sum by less than `2 ^ 16 - 1`, and the carry lost in a wrap can make up for
it only where the sum becomes zero. -/
theorem fold16_leSum_set_ne (l : List UInt8) (h : l[i]? = some x) (hy : y ≠ x) :
    fold16 (leSum (l.set i y) % 2 ^ 32) ≠ fold16 (leSum l % 2 ^ 32) := by
  intro he
  have hset := leSum_set l h y
  have hne : y.toNat ≠ x.toNat := fun h => hy (UInt8.toNat_inj.1 h)
  have hx := x.toNat_lt
  have hy := y.toNat_lt
  generalize leSum l = s at *
  generalize leSum (l.set i y) = t at *
  have hs : s % 2 ^ 32 < 2 ^ 32 := Nat.mod_lt _ (by decide)
  have ht : t % 2 ^ 32 < 2 ^ 32 := Nat.mod_lt _ (by decide)
  have hzero := (fold16_eq_zero_iff hs).symm.trans (he ▸ fold16_eq_zero_iff ht)
  have hmod : s % 2 ^ 32 ≡ t % 2 ^ 32 [MOD 2 ^ 16 - 1] :=
    (fold16_mod hs).symm.trans ((congrArg (· % (2 ^ 16 - 1)) he.symm).trans (fold16_mod ht))
  obtain ⟨k, hk⟩ := hmod.dvd
  have hwrap : t / 2 ^ 32 = s / 2 ^ 32 ∨ t / 2 ^ 32 = s / 2 ^ 32 + 1 ∨
      s / 2 ^ 32 = t / 2 ^ 32 + 1 := by
    rw [leWeight] at hset
    split at hset <;> omega
  rw [leWeight] at hset
  split at hset <;> rcases hwrap with hwrap | hwrap | hwrap <;> omega

end SprdVendor.Lib
