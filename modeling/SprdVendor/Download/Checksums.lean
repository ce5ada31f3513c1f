import SprdVendor.Download.Image
import SprdVendor.NvItem.Checksum

namespace SprdVendor.Download
open Lib

def le16 (a b : UInt8) : Nat := a.toNat + 256 * b.toNat

def frmSum : List UInt8 → Nat → Nat
  | a :: b :: c :: d :: src, sum =>
    frmSum src (((sum + le16 a b) % 2 ^ 32 + le16 c d) % 2 ^ 32)
  | [a, b, c], sum => ((sum + le16 a b) % 2 ^ 32 + c.toNat) % 2 ^ 32
  | [a, b], sum => (sum + le16 a b) % 2 ^ 32
  | [a], sum => (sum + a.toNat) % 2 ^ 32
  | [], sum => sum

def frmChk (src : List UInt8) : Nat :=
  let sum := frmSum src 0
  let sum := (sum / 2 ^ 16 + sum % 2 ^ 16) % 2 ^ 32
  let sum := (sum + sum / 2 ^ 16) % 2 ^ 32
  (2 ^ 32 - 1 - sum) % 2 ^ 16

theorem frmSum_eq (src : List UInt8) (sum : Nat) (h : sum < 2 ^ 32) :
    frmSum src sum = (sum + leSum src) % 2 ^ 32 := by
  induction src, sum using frmSum.induct with
  | case1 a b c d src sum ih =>
    rw [frmSum, ih (Nat.mod_lt _ (by decide)), Nat.mod_add_mod, Nat.add_assoc, Nat.mod_add_mod]
    simp only [leSum, le16]
    congr 1
    omega
  | case2 a b c sum =>
    rw [frmSum, Nat.mod_add_mod, Nat.add_assoc]
    rfl
  | case5 => exact (Nat.mod_eq_of_lt h).symm
  | _ => rfl

theorem frmChk_eq (src : List UInt8) :
    frmChk src = 2 ^ 16 - 1 - fold16 (leSum src % 2 ^ 32) := by
  have hs : leSum src % 2 ^ 32 < 2 ^ 32 := Nat.mod_lt _ (by decide)
  simp only [frmChk, frmSum_eq src 0 (by decide), zero_add, fold16]
  omega

theorem wordSum_eq (src : List UInt8) : wordSum src = leSum src := by
  induction src using leSum.induct with
  | case1 a b src ih => rw [wordSum, leSum, ih]
  | _ => rfl

end SprdVendor.Download
