import Mathlib

namespace SprdVendor.Lib
open Option

/-- Finite runs of a labelled step relation, the labels in the order they were taken. -/
inductive Run {σ : Type u} {α : Type v} (step : σ → α → σ → Prop) (s : σ) :
    List α → σ → Prop where
  | nil : Run step s [] s
  | snoc : Run step s as t → step t a u → Run step s (as ++ [a]) u

variable {σ : Type u} {α : Type v} {step step' : σ → α → σ → Prop} {s t u : σ}

theorem Run.invariant {I : List α → σ → Prop} (h : Run step s as t) (h₀ : I [] s)
    (hs : ∀ as a t u, I as t → step t a u → I (as ++ [a]) u) : I as t := by
  induction h with
  | nil => exact h₀
  | snoc _ ha ih => exact hs _ _ _ _ ih ha

theorem Run.mono (h : Run step s as t) (hs : ∀ s a t, step s a t → step' s a t) :
    Run step' s as t := by
  induction h with
  | nil => exact .nil
  | snoc _ ha ih => exact .snoc ih (hs _ _ _ ha)

def Next (next : σ → α → Option σ) (s : σ) (a : α) (t : σ) : Prop := next s a = some t

def exec (next : σ → α → Option σ) : σ → List α → Option σ
  | s, [] => some s
  | s, a :: as => (next s a).bind fun t => exec next t as

theorem exec_append (next : σ → α → Option σ) (s : σ) (as bs : List α) :
    exec next s (as ++ bs) = (exec next s as).bind fun t => exec next t bs := by
  induction as generalizing s with
  | nil => rfl
  | cons a as ih => simp only [List.cons_append, exec, ih, bind_assoc]

theorem Run.of_exec (h : Run (Next next) s as t)
    (he : exec next t bs = some u) : Run (Next next) s (as ++ bs) u := by
  induction bs generalizing as t with
  | nil =>
    cases he
    rwa [List.append_nil]
  | cons b bs ih =>
    obtain ⟨v, hv, he⟩ := bind_eq_some_iff.1 he
    rw [List.append_cons]
    exact ih (.snoc h hv) he

theorem run_of_exec (he : exec next s bs = some u) :
    Run (Next next) s bs u :=
  Run.of_exec .nil he

theorem exists_run_of_exec
    [DecidablePred P] (h : (exec next s bs).any (fun t => decide (P t)) = true) :
    ∃ t, Run (Next next) s bs t ∧ P t := by
  obtain ⟨t, ht, hp⟩ := (any_eq_true _ _).1 h
  exact ⟨t, run_of_exec ht, of_decide_eq_true hp⟩

theorem exists_run_imp {Q : σ → Prop} [DecidablePred P]
    (hQ : ∀ t, Run (Next next) s bs t → P t → Q t)
    (h : (exec next s bs).any (fun t => decide (P t)) = true) :
    ∃ t, Run (Next next) s bs t ∧ Q t := by
  obtain ⟨t, ht, hp⟩ := exists_run_of_exec h
  exact ⟨t, ht, hQ t ht hp⟩

/-- The steps of a partial step function that meet a condition on the state before them. -/
def Guarded (ok : σ → α → Prop) (next : σ → α → Option σ) (s : σ) (a : α) (t : σ) : Prop :=
  next s a = some t ∧ ok s a

theorem guarded_of_exec [∀ s a, Decidable (ok s a)]
    (he : exec (fun s a => if ok s a then next s a else none) s bs = some u) :
    Run (Guarded ok next) s bs u := by
  refine (run_of_exec he).mono ?_
  intro s a t h
  dsimp only [Next] at h
  split at h
  · exact ⟨h, ‹_›⟩
  · cases h

theorem exists_guarded_of_exec [∀ s a, Decidable (ok s a)] [DecidablePred P]
    (h : (exec (fun s a => if ok s a then next s a else none) s bs).any
      (fun t => decide (P t)) = true) : ∃ t, Run (Guarded ok next) s bs t ∧ P t := by
  obtain ⟨t, ht, hp⟩ := (any_eq_true _ _).1 h
  exact ⟨t, guarded_of_exec ht, of_decide_eq_true hp⟩

theorem exists_guarded_imp {Q : σ → Prop} [∀ s a, Decidable (ok s a)] [DecidablePred P]
    (hQ : ∀ t, Run (Guarded ok next) s bs t → P t → Q t)
    (h : (exec (fun s a => if ok s a then next s a else none) s bs).any
      (fun t => decide (P t)) = true) : ∃ t, Run (Guarded ok next) s bs t ∧ Q t := by
  obtain ⟨t, ht, hp⟩ := exists_guarded_of_exec h
  exact ⟨t, ht, hQ t ht hp⟩

theorem getElem?_concat_cases (h : (log ++ [a])[n]? = some b) :
    n < log.length ∧ log[n]? = some b ∨ n = log.length ∧ a = b := by
  by_cases hlt : n < log.length
  · rw [List.getElem?_append_left hlt] at h
    exact .inl ⟨hlt, h⟩
  rw [List.getElem?_append_right (by omega), List.getElem?_singleton] at h
  split at h
  · cases h
    exact .inr ⟨by omega, rfl⟩
  · cases h

def Along (P : σ → Prop) (next : σ → α → Option σ) : σ → List α → Prop
  | s, [] => P s
  | s, a :: as => P s ∧ ∃ t, next s a = some t ∧ Along P next t as

def StepsOk (ok : σ → α → Prop) (next : σ → α → Option σ) : σ → List α → Prop
  | _, [] => True
  | s, a :: as => ok s a ∧ ∀ t, next s a = some t → StepsOk ok next t as

/-- A condition is exact when an invariant survives every step that meets it, and the property fails
behind every other step. -/
theorem along_iff_stepsOk {I P : σ → Prop}
    (hP : ∀ s, I s → P s) (hgood : ∀ s a, I s → ok s a → ∃ t, next s a = some t ∧ I t)
    (hbad : ∀ s a t, I s → ¬ ok s a → next s a = some t → ¬ P t) (h : I s) (as : List α) :
    Along P next s as ↔ StepsOk ok next s as := by
  induction as generalizing s with
  | nil => exact iff_of_true (hP s h) trivial
  | cons a as ih =>
    constructor
    · rintro ⟨-, t, ht, hrest⟩
      have hok : ok s a := by
        by_contra hnot
        have hPt : P t := by
          cases as with
          | nil => exact hrest
          | cons b bs => exact hrest.1
        exact hbad s a t h hnot ht hPt
      refine ⟨hok, ?_⟩
      intro u hu
      obtain ⟨v, hv, hI⟩ := hgood s a h hok
      cases hv.symm.trans hu
      cases hv.symm.trans ht
      exact (ih hI).mp hrest
    · rintro ⟨hok, hrest⟩
      obtain ⟨t, ht, hI⟩ := hgood s a h hok
      exact ⟨hP s h, t, ht, (ih hI).mpr (hrest t ht)⟩

end SprdVendor.Lib
