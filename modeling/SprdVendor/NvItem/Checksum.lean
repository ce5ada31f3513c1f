import SprdVendor.Lib.OnesSum
import SprdVendor.NvItem.Common

namespace SprdVendor.NvItem
open Lib

theorem sumWords_eq (dat : List UInt8) (chkSum : Nat) (h : chkSum < 2 ^ 32) :
    sumWords dat chkSum = (chkSum + leSum dat) % 2 ^ 32 := by
  induction dat using leSum.induct generalizing chkSum with
  | case1 a b dat ih =>
    have hword : a.toNat ||| b.toNat <<< 8 = a.toNat + 256 * b.toNat := by
      rw [Nat.or_comm, ← Nat.shiftLeft_add_eq_or_of_lt a.toNat_lt, Nat.shiftLeft_eq]
      omega
    rw [sumWords, hword, u32, ih _ (Nat.mod_lt _ (by decide)), leSum, Nat.mod_add_mod]
    congr 1
    omega
  | case2 a => rfl
  | case3 => exact (Nat.mod_eq_of_lt h).symm

theorem calcChecksum_eq (dat : List UInt8) :
    calcChecksum dat = 2 ^ 16 - 1 - fold16 (leSum dat % 2 ^ 32) := by
  have hmask (n : Nat) : n &&& 0xffff = n % 2 ^ 16 := Nat.and_two_pow_sub_one_eq_mod n 16
  have hs : leSum dat % 2 ^ 32 < 2 ^ 32 := Nat.mod_lt _ (by decide)
  simp only [calcChecksum, sumWords_eq dat 0 (by decide), zero_add, hmask,
    Nat.shiftRight_eq_div_pow, u32, fold16]
  omega

/-- The sum of one's complement detects every change of a single byte, also where its 32-bit
accumulator wraps. -/
theorem one_byte_detected (dat : List UInt8) (i : Nat) (hi : i < dat.length) (y : UInt8)
    (hy : y ≠ dat[i]) :
    calcChecksum (dat.set i y) ≠ calcChecksum dat ∧
      chkNVEcc (dat.set i y) dat.length (calcChecksum dat) = false := by
  have hne : calcChecksum (dat.set i y) ≠ calcChecksum dat := by
    have hfold := fold16_leSum_set_ne dat (List.getElem?_eq_getElem hi) hy
    have hlt := fold16_lt (leSum dat % 2 ^ 32)
    have hlt' := fold16_lt (leSum (dat.set i y) % 2 ^ 32)
    rw [calcChecksum_eq, calcChecksum_eq]
    omega
  have hlen : dat.length = (dat.set i y).length := List.length_set.symm
  refine ⟨hne, beq_eq_false_iff_ne.2 ?_⟩
  rwa [hlen, List.take_length]

theorem last_byte_detected : calcChecksum ([1, 2, 3].set 2 4) ≠ calcChecksum [1, 2, 3] :=
  (one_byte_detected [1, 2, 3] 2 (by decide) 4 (by decide)).1

end SprdVendor.NvItem
