import Mathlib.Data.List.Basic

namespace SprdVendor.Lib
open List

/-- One bit of the division by the polynomial `p`, with the remainder `c` so far. -/
def crcStep (p c : BitVec w) (b : Bool) : BitVec w :=
  if c.msb ^^ b then c <<< 1 ^^^ p else c <<< 1

def crcBits (p c : BitVec w) (bs : List Bool) : BitVec w := bs.foldl (crcStep p) c

theorem crcBits_append (p c : BitVec w) (as bs : List Bool) :
    crcBits p c (as ++ bs) = crcBits p (crcBits p c as) bs := foldl_append

def msbFirst (c : BitVec w) : List Bool := (List.range w).map c.getMsbD

def WithinBurst (n : Nat) (as bs : List Bool) : Prop :=
  ∃ pre mid mid' post, as = pre ++ mid ++ post ∧ bs = pre ++ mid' ++ post ∧
    mid.length = mid'.length ∧ mid.length ≤ n

theorem getMsbD_crcStep (p c : BitVec w) (b : Bool) (i : Nat) (hi : i < w) :
    (crcStep p c b).getMsbD i = (c.getMsbD (i + 1) ^^ ((c.msb ^^ b) && p.getMsbD i)) := by
  rw [crcStep]
  split
  · rename_i hb
    rw [BitVec.getMsbD_xor, BitVec.getMsbD_shiftLeft, hb, Bool.true_and]
  · rename_i hb
    rw [BitVec.getMsbD_shiftLeft, (Bool.not_eq_true _).mp hb, Bool.false_and, Bool.xor_false]

theorem crcBits_own (p c : BitVec w) (k : Nat) :
    crcBits p c ((List.range k).map c.getMsbD) = c <<< k := by
  induction k with
  | zero => exact (BitVec.shiftLeft_zero c).symm
  | succ k ih =>
    have hmsb : (c <<< k).msb = c.getMsbD k := by
      rw [BitVec.msb, BitVec.getMsbD_shiftLeft, Nat.zero_add]
    rw [range_succ, map_append, crcBits_append, ih]
    show crcStep p _ _ = _
    rw [crcStep, hmsb, Bool.xor_self, if_neg (by decide), BitVec.shiftLeft_add]

theorem crcBits_msbFirst (p c : BitVec w) : crcBits p c (msbFirst c) = 0 := by
  rw [msbFirst, crcBits_own]
  exact BitVec.shiftLeft_eq_zero (Nat.le_refl w)

/-- As long as no more bits than the remainder has are read, the bits can be told from it. -/
theorem crcBits_inj {p : BitVec w} (hp : p.getMsbD (w - 1) = true)
    (hlen : as.length = bs.length) (hw : as.length ≤ w)
    (h : crcBits p c as = crcBits p d bs) (i : Nat) (hi : i < w) :
    (c.getMsbD i ^^ as[i]?.getD false) = (d.getMsbD i ^^ bs[i]?.getD false) := by
  induction as generalizing bs c d i with
  | nil =>
    obtain rfl := length_eq_zero_iff.mp hlen.symm
    have hcd : c = d := h
    rw [hcd]
  | cons a as ih =>
    cases bs with
    | nil => cases hlen
    | cons b bs =>
      have hlen : as.length = bs.length := Nat.succ.inj hlen
      have hw : as.length + 1 ≤ w := hw
      have hnext := ih hlen (Nat.le_of_succ_le hw) h
      -- the lowest bit of the remainder tells whether the polynomial was added
      have hlow : (c.msb ^^ a) = (d.msb ^^ b) := by
        have hlast := hnext (w - 1) (by omega)
        rw [getElem?_eq_none (by omega), getElem?_eq_none (by omega),
          getMsbD_crcStep p c a _ (by omega), getMsbD_crcStep p d b _ (by omega),
          BitVec.getMsbD_of_ge c _ (by omega), BitVec.getMsbD_of_ge d _ (by omega), hp] at hlast
        simpa using hlast
      cases i with
      | zero => exact hlow
      | succ i =>
        have hi' := hnext i (by omega)
        rw [getMsbD_crcStep p c a i (by omega), getMsbD_crcStep p d b i (by omega), hlow] at hi'
        rw [getElem?_cons_succ, getElem?_cons_succ]
        revert hi'
        cases (d.msb ^^ b) && p.getMsbD i <;> simp

theorem crcBits_injective {p : BitVec w} (hp : p.getMsbD (w - 1) = true) (bs : List Bool)
    (h : crcBits p c bs = crcBits p d bs) : c = d := by
  induction bs generalizing c d with
  | nil => exact h
  | cons b bs ih =>
    have hstep : crcBits p c [b] = crcBits p d [b] := ih h
    apply BitVec.eq_of_getMsbD_eq
    intro i hi
    have hbit := crcBits_inj hp rfl (by rw [length_singleton]; omega) hstep i hi
    exact Bool.xor_left_inj.mp hbit

theorem eq_of_withinBurst {p : BitVec w} (hp : p.getMsbD (w - 1) = true)
    (hb : WithinBurst w as bs) (h : crcBits p c as = crcBits p c bs) : as = bs := by
  obtain ⟨pre, mid, mid', post, rfl, rfl, hlen, hw⟩ := hb
  rw [crcBits_append, crcBits_append, crcBits_append, crcBits_append] at h
  have hmid := crcBits_injective hp post h
  have hbits := crcBits_inj hp hlen hw hmid
  obtain rfl : mid = mid' := by
    apply ext_getElem hlen
    intro i hi hi'
    have hbit := Bool.xor_right_inj.mp (hbits i (by omega))
    rwa [getElem?_eq_getElem hi, getElem?_eq_getElem hi'] at hbit
  rfl

end SprdVendor.Lib
