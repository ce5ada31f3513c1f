import Mathlib

namespace SprdVendor.Lib
open List

/-- A byte-stuffed line code: inside a frame the flag and the escape symbol are replaced by the
escape and a substitute. -/
structure Stuffing (α : Type) where
  flag : α
  escape : α
  swap : α → α
  flag_ne_escape : flag ≠ escape
  swap_flag_ne_flag : swap flag ≠ flag
  swap_flag_ne_escape : swap flag ≠ escape
  swap_escape_ne_flag : swap escape ≠ flag
  swap_escape_ne_escape : swap escape ≠ escape
  swap_swap : ∀ a, swap (swap a) = a

namespace Stuffing

variable {α : Type} [DecidableEq α] (c : Stuffing α)

def special (a : α) : Bool := a = c.flag ∨ a = c.escape

def stuff : List α → List α
  | [] => []
  | a :: x => if c.special a then c.escape :: c.swap a :: stuff x else a :: stuff x

theorem special_iff : c.special a = true ↔ a = c.flag ∨ a = c.escape := by
  simp [special]

theorem ne_flag_of_not_special (h : ¬ c.special a = true) : a ≠ c.flag := by
  intro ha
  exact h (c.special_iff.mpr (.inl ha))

theorem not_special_swap (h : c.special a = true) : ¬ c.special (c.swap a) = true := by
  rw [special_iff] at h ⊢
  intro hs
  rcases h with ha | ha <;> subst ha <;> rcases hs with hs | hs
  · exact c.swap_flag_ne_flag hs
  · exact c.swap_flag_ne_escape hs
  · exact c.swap_escape_ne_flag hs
  · exact c.swap_escape_ne_escape hs

theorem stuff_special (x : List α) (h : c.special a = true) :
    c.stuff (a :: x) = c.escape :: c.swap a :: c.stuff x := if_pos h

theorem stuff_plain (x : List α) (h : ¬ c.special a = true) :
    c.stuff (a :: x) = a :: c.stuff x := if_neg h

theorem stuff_append (x y : List α) : c.stuff (x ++ y) = c.stuff x ++ c.stuff y := by
  induction x with
  | nil => rfl
  | cons a x ih =>
    by_cases ha : c.special a = true
    · rw [cons_append, stuff_special c _ ha, stuff_special c _ ha, ih]
      rfl
    · rw [cons_append, stuff_plain c _ ha, stuff_plain c _ ha, ih]
      rfl

theorem flag_notMem_stuff (x : List α) : c.flag ∉ c.stuff x := by
  induction x with
  | nil => exact not_mem_nil
  | cons a x ih =>
    by_cases ha : c.special a = true
    · rw [stuff_special c _ ha]
      intro h
      rcases mem_cons.mp h with h | h
      · exact c.flag_ne_escape h
      · rcases mem_cons.mp h with h | h
        · exact c.ne_flag_of_not_special (c.not_special_swap ha) h.symm
        · exact ih h
    · rw [stuff_plain c _ ha]
      intro h
      rcases mem_cons.mp h with h | h
      · exact c.ne_flag_of_not_special ha h.symm
      · exact ih h

theorem length_stuff (x : List α) : (c.stuff x).length = x.length + x.countP c.special := by
  induction x with
  | nil => rfl
  | cons a x ih =>
    by_cases ha : c.special a = true
    · rw [stuff_special c _ ha, countP_cons_of_pos ha]
      simp only [length_cons, ih]
      omega
    · rw [stuff_plain c _ ha, countP_cons_of_neg ha]
      simp only [length_cons, ih]
      omega

theorem countP_special (x : List α) :
    x.countP c.special = x.count c.escape + x.count c.flag := by
  induction x with
  | nil => rfl
  | cons a x ih =>
    have hne := c.flag_ne_escape
    rw [countP_cons, count_cons, count_cons, ih]
    by_cases hf : a = c.flag
    · subst hf
      simp only [special, true_or, decide_true, if_true, beq_self_eq_true, beq_iff_eq, hne, if_false]
      omega
    by_cases he : a = c.escape
    · subst he
      simp only [special, or_true, decide_true, if_true, beq_self_eq_true, beq_iff_eq, hf, if_false]
      omega
    · simp only [special, hf, he, or_self, decide_false, Bool.false_eq_true, if_false, beq_iff_eq]
      omega

end Stuffing

def hdlc : Stuffing UInt8 where
  flag := 0x7e
  escape := 0x7d
  swap := fun b => b ^^^ 0x20
  flag_ne_escape := by decide
  swap_flag_ne_flag := by decide
  swap_flag_ne_escape := by decide
  swap_escape_ne_flag := by decide
  swap_escape_ne_escape := by decide
  swap_swap := by
    intro b
    rw [UInt8.xor_assoc, UInt8.xor_self, UInt8.xor_zero]

theorem hdlc_stuff_flag (x : List UInt8) : hdlc.stuff (0x7e :: x) = 0x7d :: 0x5e :: hdlc.stuff x :=
  hdlc.stuff_special x (by decide)

theorem hdlc_stuff_escape (x : List UInt8) :
    hdlc.stuff (0x7d :: x) = 0x7d :: 0x5d :: hdlc.stuff x :=
  hdlc.stuff_special x (by decide)

theorem hdlc_stuff_plain (x : List UInt8) (hf : b ≠ 0x7e) (he : b ≠ 0x7d) :
    hdlc.stuff (b :: x) = b :: hdlc.stuff x := by
  apply hdlc.stuff_plain x
  intro h
  rcases hdlc.special_iff.mp h with h | h
  · exact hf h
  · exact he h

end SprdVendor.Lib
