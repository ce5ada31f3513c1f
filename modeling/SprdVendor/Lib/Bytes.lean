import Mathlib

namespace SprdVendor.Lib
open List

def patch (l : List α) (i : Nat) (d : List α) : List α :=
  l.take i ++ d ++ l.drop (i + d.length)

@[simp] theorem patch_nil (l : List α) (i : Nat) : patch l i [] = l := by
  simp [patch]

theorem patch_zero (l d : List α) : patch l 0 d = d ++ l.drop d.length := by
  simp [patch]

theorem length_patch (l d : List α) (h : i + d.length ≤ l.length) :
    (patch l i d).length = l.length := by
  simp only [patch, length_append, length_take, length_drop]
  omega

theorem patch_cons (l d : List α) (b : α) (h : i < l.length) :
    patch l i (b :: d) = patch (l.set i b) (i + 1) d := by
  have hd : (l.set i b).drop (i + 1 + d.length) = l.drop (i + (d.length + 1)) := by
    rw [drop_set_of_lt (by omega)]
    congr 1
    omega
  have ht : (l.set i b).take (i + 1) = l.take i ++ [b] := by
    rw [take_succ_eq_append_getElem (by rwa [length_set]), take_set_of_le (by omega),
      getElem_set_self]
  simp [patch, hd, ht]

theorem take_patch (l d : List α) (h : i + d.length ≤ n) :
    (patch l i d).take n = patch (l.take n) i d := by
  simp only [patch, take_append, take_take, length_append, length_take, drop_take]
  by_cases hi : i ≤ l.length
  · have hmin : min i l.length = i := by omega
    rw [hmin, take_of_length_le (show d.length ≤ n - i by omega)]
    congr 3
    omega
  have hl : l.length < i := by omega
  have h₁ : l.drop (i + d.length) = [] := drop_eq_nil_of_le (by omega)
  rw [take_of_length_le (show d.length ≤ n - min i l.length by omega), h₁]
  simp only [take_nil, append_nil]
  congr 2
  omega

theorem take_patch_end (l d : List α) (h : i ≤ l.length) :
    (patch l i d).take (i + d.length) = l.take i ++ d := by
  have hlen : (l.take i ++ d).length = i + d.length := by
    rw [length_append, length_take_of_le h]
  rw [patch, ← hlen, take_left]

theorem drop_patch_end (l d : List α) (h : i ≤ l.length) :
    (patch l i d).drop (i + d.length) = l.drop (i + d.length) := by
  have hlen : (l.take i ++ d).length = i + d.length := by
    rw [length_append, length_take_of_le h]
  rw [patch, ← hlen, drop_left]

theorem drop_patch_add (l d : List α) (h : i + k ≤ l.length) :
    (patch l (i + k) d).drop k = patch (l.drop k) i d := by
  have hlen : (l.take (i + k)).length = i + k := length_take_of_le h
  simp only [patch, append_assoc]
  rw [drop_append_of_le_length (by omega), drop_take, drop_drop, Nat.add_sub_cancel]
  congr 3
  omega

theorem patch_patch (l d e : List α) (h : i + d.length ≤ l.length) :
    patch (patch l i d) (i + d.length) e = patch l i (d ++ e) := by
  have hi : i ≤ l.length := by omega
  have hdrop : (patch l i d).drop (i + d.length + e.length) = l.drop (i + (d ++ e).length) := by
    rw [← drop_drop, drop_patch_end l d hi, drop_drop, length_append, add_assoc]
  rw [patch, take_patch_end l d hi, hdrop, patch, append_assoc, append_assoc,
    append_assoc, append_assoc]

def stamp : Nat → List α → List (Nat × α)
  | _, [] => []
  | pos, b :: d => (pos, b) :: stamp (pos + 1) d

theorem stamp_append (pos : Nat) (d e : List α) :
    stamp pos (d ++ e) = stamp pos d ++ stamp (pos + d.length) e := by
  induction d generalizing pos with
  | nil => rfl
  | cons b d ih =>
    simp only [cons_append, stamp, ih, length_cons]
    rw [show pos + 1 + d.length = pos + (d.length + 1) by omega]

def store (l : List α) (ws : List (Nat × α)) : List α :=
  ws.foldl (fun l w => l.set w.1 w.2) l

theorem store_append (l : List α) (ws vs : List (Nat × α)) :
    store l (ws ++ vs) = store (store l ws) vs :=
  foldl_append

theorem store_stamp (l d : List α) (h : i + d.length ≤ l.length) :
    store l (stamp i d) = patch l i d := by
  induction d generalizing l i with
  | nil => exact (patch_nil l i).symm
  | cons b d ih =>
    simp only [length_cons] at h
    rw [patch_cons l d b (by omega)]
    exact ih (l.set i b) (by rw [length_set]; omega)

def ofLe : List UInt8 → Nat
  | [] => 0
  | b :: bs => b.toNat + 256 * ofLe bs

def toLe : Nat → Nat → List UInt8
  | 0, _ => []
  | w + 1, n => UInt8.ofNat n :: toLe w (n / 256)

@[simp] theorem length_toLe (w n : Nat) : (toLe w n).length = w := by
  induction w generalizing n with
  | zero => rfl
  | succ w ih => simp [toLe, ih]

theorem ofLe_toLe (h : n < 256 ^ w) : ofLe (toLe w n) = n := by
  induction w generalizing n with
  | zero =>
    rw [pow_zero] at h
    rw [toLe, ofLe]
    omega
  | succ w ih =>
    have hn : n / 256 < 256 ^ w := by
      rw [Nat.div_lt_iff_lt_mul (by omega), ← Nat.pow_succ]
      exact h
    simp only [toLe, ofLe, ih hn, UInt8.toNat_ofNat']
    omega

theorem toLe_ofLe (l : List UInt8) : toLe l.length (ofLe l) = l := by
  induction l with
  | nil => rfl
  | cons b bs ih =>
    have hb := b.toNat_lt
    have hbyte : UInt8.ofNat (b.toNat + 256 * ofLe bs) = b := by
      apply UInt8.toNat_inj.1
      rw [UInt8.toNat_ofNat']
      omega
    have hrest : (b.toNat + 256 * ofLe bs) / 256 = ofLe bs := by omega
    rw [length_cons, ofLe, toLe, hbyte, hrest, ih]

theorem ofLe_lt (l : List UInt8) : ofLe l < 256 ^ l.length := by
  induction l with
  | nil => exact one_pos
  | cons b bs ih =>
    have hb := b.toNat_lt
    rw [ofLe, length_cons, pow_succ]
    omega

def word (l : List UInt8) (i : Nat) : Nat := ofLe ((l.drop i).take 4)

theorem word_append (l r : List UInt8) (h : i + 4 ≤ l.length) : word (l ++ r) i = word l i := by
  rw [word, word, drop_append_of_le_length (by omega),
    take_append_of_le_length (by rw [length_drop]; omega)]

end SprdVendor.Lib
