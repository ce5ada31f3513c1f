import Mathlib

namespace SprdVendor.Lib
open List

/-- The filled part of a buffer of `cap` elements. -/
@[ext] structure Bounded (α : Type) (cap : Nat) where
  toList : List α
  length_le : toList.length ≤ cap
deriving DecidableEq

namespace Bounded

def empty (α : Type) (cap : Nat) : Bounded α cap := ⟨[], Nat.zero_le cap⟩

@[simp] theorem empty_toList (α : Type) (cap : Nat) : (empty α cap).toList = [] := rfl

def push (s : Bounded α cap) (a : α) : Option (Bounded α cap) :=
  if h : s.toList.length < cap then
    some ⟨s.toList ++ [a], by rw [List.length_append, List.length_singleton]; exact h⟩
  else none

theorem push_of_lt {s : Bounded α cap} (h : s.toList.length < cap) (a : α) :
    ∃ t : Bounded α cap, s.push a = some t ∧ t.toList = s.toList ++ [a] := by
  rw [push, dif_pos h]
  exact ⟨_, rfl, rfl⟩

def pushAll (s : Bounded α cap) : List α → Option (Bounded α cap)
  | [] => some s
  | a :: l => (s.push a).bind fun t => t.pushAll l

theorem pushAll_append (s : Bounded α cap) (l m : List α) :
    s.pushAll (l ++ m) = (s.pushAll l).bind fun t => t.pushAll m := by
  induction l generalizing s with
  | nil => rfl
  | cons a l ih =>
    rw [cons_append, pushAll, pushAll, Option.bind_assoc]
    simp only [ih]

theorem pushAll_of_le {s : Bounded α cap} (l : List α) (h : s.toList.length + l.length ≤ cap) :
    ∃ t, s.pushAll l = some t ∧ t.toList = s.toList ++ l := by
  induction l generalizing s with
  | nil => exact ⟨s, rfl, (append_nil _).symm⟩
  | cons a l ih =>
    rw [length_cons] at h
    obtain ⟨t, ht, hl⟩ := push_of_lt (s := s) (by omega) a
    have hn := congrArg List.length hl
    rw [length_append, length_singleton] at hn
    obtain ⟨u, hu, hul⟩ := ih (s := t) (by omega)
    refine ⟨u, ?_, ?_⟩
    · rw [pushAll, ht, Option.bind_some, hu]
    · rw [hul, hl, append_assoc, singleton_append]

theorem toList_of_push {s t : Bounded α cap} (h : s.push a = some t) :
    t.toList = s.toList ++ [a] := by
  rw [push] at h
  split at h
  · cases h
    rfl
  · cases h

theorem toList_of_pushAll {s t : Bounded α cap} (h : s.pushAll l = some t) :
    t.toList = s.toList ++ l := by
  induction l generalizing s with
  | nil =>
    cases h
    exact (append_nil _).symm
  | cons a l ih =>
    rw [pushAll, Option.bind_eq_some_iff] at h
    obtain ⟨u, hu, ht⟩ := h
    rw [ih ht, toList_of_push hu, append_assoc, singleton_append]

def setLast (s : Bounded α cap) (a : α) : Bounded α cap :=
  ⟨s.toList.set (s.toList.length - 1) a, by rw [List.length_set]; exact s.length_le⟩

theorem setLast_toList {s : Bounded α cap} (h : s.toList = l ++ [b]) (a : α) :
    (s.setLast a).toList = l ++ [a] := by
  simp [setLast, h, set_append_right _ _ (Nat.le_refl _)]

end Bounded

end SprdVendor.Lib
