import Mathlib

namespace SprdVendor.Lib
open List Option

/-- A machine reads its input in order, may fail, and collects what it puts out. -/
def transduce (step : σ → α → Option (σ × List β)) : σ → List α → Option (σ × List β)
  | s, [] => some (s, [])
  | s, a :: l => (step s a).bind fun r => (transduce step r.1 l).map fun q => (q.1, r.2 ++ q.2)

theorem transduce_cons {step : σ → α → Option (σ × List β)} (h : step s a = some (t, out))
    (l : List α) :
    transduce step s (a :: l) = (transduce step t l).map fun q => (q.1, out ++ q.2) := by
  rw [transduce, h, bind_some]

theorem transduce_quiet {step : σ → α → Option (σ × List β)} (h : step s a = some (t, []))
    (l : List α) : transduce step s (a :: l) = transduce step t l := by
  rw [transduce_cons h]
  simp [id]

theorem transduce_append (step : σ → α → Option (σ × List β)) (s : σ) (l r : List α) :
    transduce step s (l ++ r) = (transduce step s l).bind fun p =>
      (transduce step p.1 r).map fun q => (q.1, p.2 ++ q.2) := by
  induction l generalizing s with
  | nil =>
    simp [transduce, id]
  | cons a l ih =>
    rw [cons_append, transduce, transduce]
    cases step s a with
    | none => rfl
    | some r' =>
      simp only [Option.bind_some, ih, Option.map_bind, Option.bind_map]
      cases transduce step r'.1 l with
      | none => rfl
      | some p =>
        simp only [Option.bind_some, Function.comp_apply, Option.map_map, List.append_assoc]
        rfl

theorem transduce_flatten (step : σ → α → Option (σ × List β)) (s : σ) (ls : List (List α)) :
    transduce (transduce step) s ls = transduce step s ls.flatten := by
  induction ls generalizing s with
  | nil => rfl
  | cons l ls ih =>
    rw [flatten_cons, transduce_append, transduce]
    simp only [ih]

end SprdVendor.Lib
