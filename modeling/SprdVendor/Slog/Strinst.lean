import Mathlib

namespace SprdVendor.Slog
open List

/-- What `strchr` finds: the text up to the first line break, and the text behind it. -/
def cutLine (s : List Char) : Option (List Char × List Char) :=
  match s.dropWhile (· ≠ '\n') with
  | [] => none
  | c :: rest => some (s.takeWhile (· ≠ '\n') ++ [c], rest)

/-- The loop of `strinst`: what it copies, piece by piece, from `pos2` on. -/
def strinstLoop (time : List Char) : Nat → List Char → List (List Char)
  | 0, _ => []
  | fuel + 1, pos2 =>
    match cutLine pos2 with
    | none => []
    | some (line, rest) =>
      if '\n' ∈ rest then line :: time :: strinstLoop time fuel rest else [line]

/-- The text in `dest`, a buffer of `size` characters, or `none` if it is written beyond it. -/
def strinst (size : Nat) (time src : List Char) : Option (List Char) :=
  let text := (time :: strinstLoop time src.length src).flatten
  if text.length ≤ size then some text else none

def ended (lines : List (List Char)) : List Char := (lines.map (· ++ ['\n'])).flatten

def stamped (time : List Char) (lines : List (List Char)) : List Char :=
  (lines.map (time ++ · ++ ['\n'])).flatten

theorem cutLine_append (hl : '\n' ∉ l) (s : List Char) :
    cutLine (l ++ '\n' :: s) = some (l ++ ['\n'], s) := by
  have hall : ∀ c ∈ l, decide (c ≠ '\n') = true :=
    fun c hc => decide_eq_true fun he => hl (he ▸ hc)
  rw [cutLine, dropWhile_append_of_pos hall, takeWhile_append_of_pos hall]
  simp

theorem strinstLoop_ended {lines : List (List Char)} (hl : ∀ l ∈ line :: lines, '\n' ∉ l)
    (hfuel : lines.length < fuel) :
    time ++ (strinstLoop time fuel (ended (line :: lines))).flatten =
      stamped time (line :: lines) := by
  induction lines generalizing line fuel with
  | nil =>
    cases fuel with
    | zero => cases hfuel
    | succ fuel =>
      have hcut := cutLine_append (hl line mem_cons_self) []
      rw [strinstLoop, ended, map_singleton, flatten_singleton, hcut]
      simp [stamped]
  | cons next lines ih =>
    cases fuel with
    | zero => cases hfuel
    | succ fuel =>
      rw [forall_mem_cons] at hl
      have hcut := cutLine_append hl.1 (ended (next :: lines))
      have htext : ended (line :: next :: lines) = line ++ '\n' :: ended (next :: lines) := by
        simp [ended]
      have hmore : '\n' ∈ ended (next :: lines) := by simp [ended]
      rw [htext, strinstLoop, hcut]
      dsimp only
      rw [if_pos hmore, flatten_cons, flatten_cons, ih hl.2 (Nat.lt_of_succ_lt_succ hfuel)]
      simp [stamped]

theorem length_lt_ended (lines : List (List Char)) : lines.length ≤ (ended lines).length := by
  induction lines with
  | nil => exact le_rfl
  | cons l lines ih =>
    rw [ended, map_cons, flatten_cons, ← ended, length_append, length_append, length_singleton,
      length_cons]
    omega

theorem strinst_ended {lines : List (List Char)} (size : Nat) (time : List Char)
    (hne : lines ≠ []) (hl : ∀ l ∈ lines, '\n' ∉ l) :
    strinst size time (ended lines) =
      if (stamped time lines).length ≤ size then some (stamped time lines) else none := by
  obtain ⟨line, lines, rfl⟩ := exists_cons_of_ne_nil hne
  have hloop : time ++ (strinstLoop time _ _).flatten = _ :=
    strinstLoop_ended hl (length_lt_ended (line :: lines))
  rw [strinst, flatten_cons, hloop]

def someTime : List Char := "05-14 23:59:07.123 ".toList

end SprdVendor.Slog
