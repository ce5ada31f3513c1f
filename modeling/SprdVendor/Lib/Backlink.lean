import Mathlib

namespace SprdVendor.Lib
open List

variable {α : Type u} {place : α → Option Nat} {xs : List α} {slots : List (Option Nat)} {a b : α}

/-- The slots hold the indices of the elements that have a place, each at its place. -/
def Linked (place : α → Option Nat) (xs : List α) (slots : List (Option Nat)) : Prop :=
  ∀ i j, slots[i]? = some (some j) ↔ ∃ a, xs[j]? = some a ∧ place a = some i

namespace Linked

theorem nil (n : Nat) : Linked place [] (List.replicate n none) := by
  intro i j
  simp [getElem?_replicate]

theorem slot (h : Linked place xs slots) (ha : xs[j]? = some a) (hp : place a = some i) :
    slots[i]? = some (some j) :=
  (h i j).2 ⟨a, ha, hp⟩

theorem set (h : Linked place xs slots) (ha : xs[j]? = some a) (hp : place b = place a) :
    Linked place (xs.set j b) slots := by
  intro i k
  rw [h i k]
  by_cases hk : j = k
  · subst hk
    rw [List.getElem?_set_self (List.getElem?_eq_some_iff.1 ha).1]
    simp [ha, hp]
  · rw [getElem?_set_ne hk]

theorem concat (h : Linked place xs slots) (hp : place a = none) :
    Linked place (xs ++ [a]) slots := by
  intro i j
  rw [h i j]
  by_cases hj : j < xs.length
  · rw [getElem?_append_left hj]
  rw [getElem?_eq_none (Nat.le_of_not_lt hj), getElem?_append_right (Nat.le_of_not_lt hj)]
  cases hk : j - xs.length with
  | zero => simp [hp]
  | succ k => simp

theorem put (h : Linked place xs slots) (ha : xs[j]? = some a) (hpa : place a = none)
    (hpb : place b = some i) (hfree : slots[i]? = some none) :
    Linked place (xs.set j b) (slots.set i (some j)) := by
  have hj := (List.getElem?_eq_some_iff.1 ha).1
  have hi := (List.getElem?_eq_some_iff.1 hfree).1
  intro i' j'
  by_cases hi' : i = i'
  · subst hi'
    rw [List.getElem?_set_self hi]
    by_cases hj' : j = j'
    · subst hj'
      simp [List.getElem?_set_self hj, hpb]
    · rw [List.getElem?_set_ne hj', ← h i j', hfree]
      simp [hj']
  · rw [List.getElem?_set_ne hi', h i' j']
    by_cases hj' : j = j'
    · subst hj'
      simp [List.getElem?_set_self hj, ha, hpa, hpb, hi']
    · rw [List.getElem?_set_ne hj']

theorem remove (h : Linked place xs slots) (ha : xs[j]? = some a) (hpa : place a = some i)
    (hpb : place b = none) : Linked place (xs.set j b) (slots.set i none) := by
  have hj := (List.getElem?_eq_some_iff.1 ha).1
  have hslot := h.slot ha hpa
  have hi := (List.getElem?_eq_some_iff.1 hslot).1
  intro i' j'
  by_cases hi' : i = i'
  · subst hi'
    rw [List.getElem?_set_self hi]
    by_cases hj' : j = j'
    · subst hj'
      simp [List.getElem?_set_self hj, hpb]
    · rw [List.getElem?_set_ne hj', ← h i j', hslot]
      simp [hj']
  · rw [List.getElem?_set_ne hi', h i' j']
    by_cases hj' : j = j'
    · subst hj'
      simp [List.getElem?_set_self hj, ha, hpa, hpb, hi']
    · rw [List.getElem?_set_ne hj']

end Linked

def Below (slots : List (Option Nat)) (n : Int) : Prop :=
  ∀ i j : Nat, slots[i]? = some (some j) → (i : Int) < n

def Filled (slots : List (Option Nat)) (i : Nat) (n : Int) : Prop :=
  ∀ k : Nat, i ≤ k → (k : Int) < n → ∃ j, slots[k]? = some (some j)

theorem Below.free (h : Below slots n) (h₀ : 0 ≤ n) (hlt : n < slots.length) :
    slots[n.toNat]? = some none := by
  have hget := getElem?_eq_getElem (by omega : n.toNat < slots.length)
  cases hslot : slots[n.toNat] with
  | none => rw [hget, hslot]
  | some j =>
    have := h n.toNat j (by rw [hget, hslot])
    omega

theorem Below.put (h : Below slots n) (h₀ : 0 ≤ n) (j : Nat) :
    Below (slots.set n.toNat (some j)) (n + 1) := by
  intro i k hik
  by_cases hi : n.toNat = i
  · omega
  · rw [getElem?_set_ne hi] at hik
    have := h i k hik
    omega

theorem Filled.put (h : Filled slots i n) (h₀ : 0 ≤ n) (hlt : n < slots.length) (j : Nat) :
    Filled (slots.set n.toNat (some j)) i (n + 1) := by
  intro k hik hk
  by_cases hkn : n.toNat = k
  · subst hkn
    exact ⟨j, getElem?_set_self (by omega)⟩
  · rw [getElem?_set_ne hkn]
    exact h k hik (by omega)

theorem Filled.pass (h : Filled slots i n) (hs : ∀ k : Nat, i < k → slots'[k]? = slots[k]?) :
    Filled slots' (i + 1) n := by
  intro k hik hk
  rw [hs k hik]
  exact h k (by omega) hk

theorem countP_set_of_getElem? (h : xs[j]? = some a) (b : α) :
    ((xs.set j b).countP p : Int) =
      xs.countP p - (if p a then 1 else 0) + if p b then 1 else 0 := by
  obtain ⟨hj, hget⟩ := List.getElem?_eq_some_iff.1 h
  have hpos : p a = true → 0 < xs.countP p := fun hp =>
    countP_pos_iff.2 ⟨a, mem_of_getElem? h, hp⟩
  rw [countP_set hj, hget]
  by_cases hp : p a = true
  · have := hpos hp
    simp only [hp, if_true]
    split <;> push_cast <;> omega
  · rw [if_neg hp, if_neg hp]
    push_cast
    simp

end SprdVendor.Lib
