import Mathlib

namespace SprdVendor.Lib

theorem mod_ne_mod {m n count : Nat} (h : m < n) (hwin : n < m + count) : m % count ≠ n % count := by
  intro he
  have hsub : (n - m) % count = 0 := Nat.sub_mod_eq_zero_of_mod_eq he.symm
  rw [Nat.mod_eq_of_lt (by omega)] at hsub
  omega

theorem ring_next (hc : 0 < count) (n : Nat) :
    (if count - 1 < n % count + 1 then 0 else n % count + 1) = (n + 1) % count := by
  have hlt := Nat.mod_lt n hc
  rw [← Nat.mod_add_mod]
  split
  · rw [show n % count + 1 = count by omega, Nat.mod_self]
  · rw [Nat.mod_eq_of_lt (show n % count + 1 < count by omega)]

theorem ring_distance {m n count : Nat} (hle : m ≤ n) (hwin : n < m + count) :
    (n % count + count - m % count) % count = n - m := by
  obtain ⟨d, rfl⟩ := Nat.exists_eq_add_of_le hle
  have hc : 0 < count := by omega
  have hm := Nat.mod_lt m hc
  have hd : d < count := by omega
  rw [Nat.add_sub_cancel_left, Nat.add_mod, Nat.mod_eq_of_lt hd]
  by_cases h : m % count + d < count
  · rw [Nat.mod_eq_of_lt h, show m % count + d + count - m % count = d + count by omega,
      Nat.add_mod_right, Nat.mod_eq_of_lt hd]
  · have hwrap : (m % count + d) % count = m % count + d - count := by
      rw [Nat.mod_eq_sub_mod (by omega), Nat.mod_eq_of_lt (by omega)]
    rw [hwrap, show m % count + d - count + count - m % count = d by omega, Nat.mod_eq_of_lt hd]

/-- A ring of `count` places holds the entries of a log from number `out` on; entry `n` stands at
place `n % count`. -/
structure RingLog (cell : Nat → Option α) (count out : Nat) (log : List α) : Prop where
  le : out ≤ log.length
  room : log.length < out + count
  cells : ∀ n a, out ≤ n → log[n]? = some a → cell (n % count) = some a

theorem RingLog.empty (cell : Nat → Option α) (hc : 0 < count) : RingLog cell count 0 [] where
  le := Nat.le_refl _
  room := by
    rw [List.length_nil]
    omega
  cells := by
    intro n a _ h
    cases h

theorem RingLog.congr {cell cell' : Nat → Option α} (h : RingLog cell count out log)
    (he : ∀ i, cell' i = cell i) : RingLog cell' count out log where
  le := h.le
  room := h.room
  cells := by
    intro n a hn ha
    rw [he]
    exact h.cells n a hn ha

theorem RingLog.push {cell cell' : Nat → Option α} (h : RingLog cell count out log)
    (hroom : log.length + 1 < out + count) (hnew : cell' (log.length % count) = some a)
    (hold : ∀ i, i ≠ log.length % count → cell' i = cell i) :
    RingLog cell' count out (log ++ [a]) where
  le := by
    have := h.le
    rw [List.length_append]
    omega
  room := by
    rw [List.length_append, List.length_singleton]
    exact hroom
  cells := by
    intro n b hn hb
    by_cases hlt : n < log.length
    · rw [List.getElem?_append_left hlt] at hb
      rw [hold _ (mod_ne_mod hlt (by omega)), h.cells n b hn hb]
    have hlen : n < (log ++ [a]).length := by
      by_contra hge
      rw [List.getElem?_eq_none (by omega)] at hb
      cases hb
    rw [List.length_append, List.length_singleton] at hlen
    have hn' : n = log.length := by omega
    subst hn'
    rw [List.getElem?_append_right (Nat.le_refl _), Nat.sub_self] at hb
    cases hb
    exact hnew

theorem RingLog.pop {cell cell' : Nat → Option α} (h : RingLog cell count out log)
    (hlt : out < log.length) (hold : ∀ i, i ≠ out % count → cell' i = cell i) :
    RingLog cell' count (out + 1) log where
  le := hlt
  room := by
    have := h.room
    omega
  cells := by
    intro n b hn hb
    have hlen : n < log.length := by
      by_contra hge
      rw [List.getElem?_eq_none (by omega)] at hb
      cases hb
    have hroom := h.room
    rw [hold _ (Ne.symm (mod_ne_mod (by omega) (by omega))), h.cells n b (by omega) hb]

theorem countP_set_add {l : List α} (p : α → Bool) (h : l[i]? = some a) (b : α) :
    (l.set i b).countP p + (if p a then 1 else 0) = l.countP p + if p b then 1 else 0 := by
  obtain ⟨hi, ha⟩ := List.getElem?_eq_some_iff.mp h
  have hpos : (if p a then 1 else 0) ≤ l.countP p := by
    split
    · exact List.countP_pos_iff.mpr ⟨a, ha ▸ List.getElem_mem hi, ‹_›⟩
    · exact Nat.zero_le _
  rw [List.countP_set hi, ha]
  omega

end SprdVendor.Lib
