import Mathlib

namespace SprdVendor.Lib
open List

def peek (beyond : α) (buf : List α) (i : Nat) : α := buf.getD i beyond

def moveUp (beyond : α) (base : Nat) : Nat → List α → List α
  | 0, buf => buf
  | n + 1, buf => moveUp beyond base n (buf.set (base + n + 1) (peek beyond buf (base + n)))

def moveDown (beyond : α) : Nat → Nat → List α → List α
  | _, 0, buf => buf
  | base, n + 1, buf => moveDown beyond (base + 1) n (buf.set base (peek beyond buf (base + 1)))

theorem peek_append (beyond a : α) (out rest : List α) :
    peek beyond (out ++ a :: rest) out.length = a := by
  simp only [peek, getD_eq_getElem?_getD, getElem?_append_right (Nat.le_refl _),
    Nat.sub_self, getElem?_cons_zero, Option.getD_some]

theorem peek_append_succ (beyond a : α) (out rest : List α) :
    peek beyond (out ++ a :: rest) (out.length + 1) = rest.headD beyond := by
  have h : out.length + 1 - out.length = 1 := by omega
  simp only [peek, getD_eq_getElem?_getD, getElem?_append_right (Nat.le_succ _), h,
    getElem?_cons_succ]
  cases rest <;> rfl

theorem set_append_length (out rest : List α) (a b : α) :
    (out ++ a :: rest).set out.length b = out ++ b :: rest := by
  rw [set_append_right _ _ (Nat.le_refl _), Nat.sub_self, set_cons_zero]

/-- Opening a gap in front of `mid` and storing into it; the element behind `mid` is overwritten. -/
theorem moveUp_set (beyond y a : α) (out mid rest : List α) :
    (moveUp beyond out.length mid.length (out ++ mid ++ y :: rest)).set out.length a =
      out ++ a :: mid ++ rest := by
  induction mid using reverseRecOn generalizing y rest with
  | nil =>
    rw [append_nil]
    simp only [length_nil, moveUp, set_append_length, append_assoc, cons_append, nil_append]
  | append_singleton mid z ih =>
    have hlen : (out ++ mid).length = out.length + mid.length := length_append
    have hlen' : (out ++ (mid ++ [z])).length = out.length + mid.length + 1 := by
      rw [length_append, length_append, length_singleton, add_assoc]
    have hpeek : peek beyond (out ++ (mid ++ [z]) ++ y :: rest) (out.length + mid.length) = z := by
      rw [← append_assoc, append_assoc _ [z], singleton_append, ← hlen]
      exact peek_append beyond z _ _
    rw [length_append, length_singleton, moveUp, hpeek, ← hlen', set_append_length,
      ← append_assoc, append_assoc _ [z], singleton_append, ih z (z :: rest)]
    simp

/-- Closing the gap at `y`; the place that falls free repeats what stands behind `mid`. -/
theorem moveDown_eq (beyond y : α) (out mid rest : List α) :
    moveDown beyond out.length (mid.length + 1) (out ++ y :: (mid ++ rest)) =
      out ++ (mid ++ rest.headD beyond :: rest) := by
  induction mid generalizing out y with
  | nil =>
    rw [nil_append, length_nil, moveDown, peek_append_succ, set_append_length]
    rfl
  | cons m mid ih =>
    rw [length_cons, moveDown, cons_append, peek_append_succ, headD_cons, set_append_length]
    have h := ih m (out ++ [m])
    rw [length_append, length_singleton, append_assoc, singleton_append] at h
    rw [h, append_assoc, singleton_append]
    rfl

end SprdVendor.Lib
