import SprdVendor.Lib.Bytes

namespace SprdVendor.NvItem
open Lib

/-- What the C code leaves to the machine it is compiled for: the size of a pointer, and the
value of `0xFFFFFFFF >> 32`, which the language does not define. -/
class Target where
  ptrSize : Nat
  shr32 : BitVec 32

@[reducible] def arm32 : Target := ⟨4, 0⟩

def sectSize : Nat := 512

def dirtyTableMaxSize : Nat := 48

def u32 (n : Nat) : Nat := n % 2 ^ 32

theorem u32_of_lt (h : n < 2 ^ 32) : u32 n = n := Nat.mod_eq_of_lt h

def sumWords : List UInt8 → Nat → Nat
  | a :: b :: dat, chkSum => sumWords dat (u32 (chkSum + (a.toNat ||| b.toNat <<< 8)))
  | [a], chkSum => u32 (chkSum + a.toNat)
  | [], chkSum => chkSum

def calcChecksum (dat : List UInt8) : Nat :=
  let chkSum := sumWords dat 0
  let chkSum := u32 (chkSum >>> 16 + (chkSum &&& 0xffff))
  let chkSum := u32 (chkSum + chkSum >>> 16)
  (2 ^ 32 - 1 - chkSum) % 2 ^ 16

theorem calcChecksum_lt (dat : List UInt8) : calcChecksum dat < 2 ^ 16 :=
  Nat.mod_lt _ (by decide)

def chkNVEcc (buf : List UInt8) (size checksum : Nat) : Bool :=
  calcChecksum (buf.take size) == checksum

end SprdVendor.NvItem
