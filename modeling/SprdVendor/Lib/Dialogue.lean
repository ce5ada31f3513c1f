import Mathlib

namespace SprdVendor.Lib
open Option

/-- A program that meets its surroundings in requests only: it ends with a result, or it asks
something and goes on with the answer. -/
inductive Dialogue (Q : Type) (A : Q → Type) (ρ : Type) where
  | done (r : ρ)
  | ask (q : Q) (k : A q → Dialogue Q A ρ)

inductive Outcome (ε σ α : Type) where
  | ok (a : α) (s : σ)
  | stop (e : ε) (s : σ)
  deriving DecidableEq

/-- A stateful procedure that can end early, as a dialogue with its surroundings. -/
def Procedure (Q : Type) (A : Q → Type) (ε σ α : Type) : Type :=
  σ → Dialogue Q A (Outcome ε σ α)

section
variable {Q : Type} {A : Q → Type} {ρ τ ι κ ε σ α β γ : Type}

namespace Dialogue

def bind : Dialogue Q A ρ → (ρ → Dialogue Q A τ) → Dialogue Q A τ
  | .done r, f => f r
  | .ask q k, f => .ask q fun a => (k a).bind f

/-- Surroundings answer from a state of their own, and may refuse. -/
def run (answer : (q : Q) → ι → Option (A q × ι)) : Dialogue Q A ρ → ι → Option (ρ × ι)
  | .done r, i => some (r, i)
  | .ask q k, i => (answer q i).bind fun p => (k p.1).run answer p.2

variable {answer : (q : Q) → ι → Option (A q × ι)} {answer' : (q : Q) → κ → Option (A q × κ)}

theorem run_bind (d : Dialogue Q A ρ) (f : ρ → Dialogue Q A τ) (i : ι) :
    (d.bind f).run answer i = (d.run answer i).bind fun p => (f p.1).run answer p.2 := by
  induction d generalizing i with
  | done r => rfl
  | ask q k ih =>
    simp only [bind, run, bind_assoc]
    congr 1
    funext p
    exact ih p.1 p.2

/-- Surroundings that answer as others do, where those answer at all, lead to the same result. -/
theorem run_simulates {R : ι → κ → Prop} (hR : ∀ q i k a i', R i k → answer q i = some (a, i') →
      ∃ k', answer' q k = some (a, k') ∧ R i' k') (d : Dialogue Q A ρ) (h : R i k)
    (hd : d.run answer i = some (r, i')) : ∃ k', d.run answer' k = some (r, k') ∧ R i' k' := by
  induction d generalizing i k with
  | done r =>
    cases hd
    exact ⟨k, rfl, h⟩
  | ask q next ih =>
    obtain ⟨⟨a, i₁⟩, ha, hrest⟩ := bind_eq_some_iff.1 hd
    obtain ⟨k₁, hk₁, h₁⟩ := hR q i k a i₁ h ha
    obtain ⟨k', hk', h'⟩ := ih a h₁ hrest
    refine ⟨k', ?_, h'⟩
    simp only [run, hk₁, bind_some]
    exact hk'

theorem run_isSome (h : ∀ q i, (answer q i).isSome) (d : Dialogue Q A ρ) (i : ι) :
    (d.run answer i).isSome := by
  induction d generalizing i with
  | done r => rfl
  | ask q k ih =>
    obtain ⟨p, hp⟩ := isSome_iff_exists.1 (h q i)
    simp only [run, hp, bind_some]
    exact ih p.1 p.2

end Dialogue

namespace Procedure

def followedBy (f : α → Procedure Q A ε σ β) : Outcome ε σ α → Dialogue Q A (Outcome ε σ β)
  | .ok a s => f a s
  | .stop e s => .done (.stop e s)

instance : Monad (Procedure Q A ε σ) where
  pure a := fun s => .done (.ok a s)
  bind p f := fun s => (p s).bind (followedBy f)

def request (q : Q) : Procedure Q A ε σ (A q) := fun s => .ask q fun a => .done (.ok a s)

def halt (e : ε) : Procedure Q A ε σ α := fun s => .done (.stop e s)

def haltIf (e : ε) (b : Prop) [Decidable b] : Procedure Q A ε σ Unit := if b then halt e else pure ()

def look : Procedure Q A ε σ σ := fun s => .done (.ok s s)

def update (f : σ → σ) : Procedure Q A ε σ Unit := fun s => .done (.ok () (f s))

def times (body : Nat → Procedure Q A ε σ Unit) : Nat → Nat → Procedure Q A ε σ Unit
  | _, 0 => pure ()
  | j, n + 1 => do
    body j
    times body (j + 1) n

def untilNone (e : ε) (body : γ → Nat → Procedure Q A ε σ (γ × Nat)) :
    Nat → γ → Nat → Procedure Q A ε σ γ
  | _, c, 0 => pure c
  | 0, _, _ + 1 => halt e
  | n + 1, c, m + 1 => do
    let p ← body c (m + 1)
    untilNone e body n p.1 p.2

variable (answer : (q : Q) → ι → Option (A q × ι))

def Runs (p : Procedure Q A ε σ α) (s : σ) (i : ι) (a : α) (s' : σ) (i' : ι) : Prop :=
  (p s).run answer i = some (.ok a s', i')

def Stops (p : Procedure Q A ε σ α) (s : σ) (i : ι) (e : ε) (s' : σ) (i' : ι) : Prop :=
  (p s).run answer i = some (.stop e s', i')

variable {answer} {p : Procedure Q A ε σ α} {f : α → Procedure Q A ε σ β}
  {body : Nat → Procedure Q A ε σ Unit} {s s' t : σ} {i i' : ι} {e e' : ε} {a a' : α} {b : β}

@[simp] theorem runs_pure : Runs answer (pure a : Procedure Q A ε σ α) s i a' s' i' ↔
    a = a' ∧ s = s' ∧ i = i' := by
  simp only [Runs, pure, Dialogue.run, Option.some.injEq, Prod.mk.injEq, Outcome.ok.injEq,
    and_assoc]

theorem Runs.run_bind (h : Runs answer p s i a t j) :
    ((p >>= f) s).run answer i = (f a t).run answer j := by
  simp only [Runs] at h
  simp [Bind.bind, Dialogue.run_bind, h, followedBy]

@[simp] theorem runs_bind : Runs answer (p >>= f) s i b s' i' ↔
    ∃ a t j, Runs answer p s i a t j ∧ Runs answer (f a) t j b s' i' := by
  simp only [Runs, Bind.bind, Dialogue.run_bind, bind_eq_some_iff]
  constructor
  · rintro ⟨⟨o, j⟩, ho, hf⟩
    cases o with
    | ok a t => exact ⟨a, t, j, ho, hf⟩
    | stop e t => cases hf
  · rintro ⟨a, t, j, ho, hf⟩
    exact ⟨_, ho, hf⟩

@[simp] theorem runs_halt : ¬ Runs answer (halt e : Procedure Q A ε σ α) s i a s' i' := by
  intro h
  cases h

@[simp] theorem runs_haltIf [Decidable c] :
    Runs answer (haltIf e c : Procedure Q A ε σ Unit) s i u s' i' ↔ ¬ c ∧ s = s' ∧ i = i' := by
  by_cases hc : c
  · simp [haltIf, hc]
  · simp [haltIf, hc]

@[simp] theorem runs_look : Runs answer (look : Procedure Q A ε σ σ) s i t s' i' ↔
    s = t ∧ s = s' ∧ i = i' := by
  simp only [Runs, look, Dialogue.run, Option.some.injEq, Prod.mk.injEq, Outcome.ok.injEq,
    and_assoc]

@[simp] theorem runs_update {f : σ → σ} :
    Runs answer (update f : Procedure Q A ε σ Unit) s i u s' i' ↔ f s = s' ∧ i = i' := by
  simp [Runs, update, Dialogue.run]

@[simp] theorem stops_pure : ¬ Stops answer (pure a : Procedure Q A ε σ α) s i e s' i' := by
  intro h
  cases h

@[simp] theorem stops_bind : Stops answer (p >>= f) s i e s' i' ↔
    Stops answer p s i e s' i' ∨
      ∃ a t j, Runs answer p s i a t j ∧ Stops answer (f a) t j e s' i' := by
  simp only [Runs, Stops, Bind.bind, Dialogue.run_bind, bind_eq_some_iff]
  constructor
  · rintro ⟨⟨o, j⟩, ho, hf⟩
    cases o with
    | ok a t => exact .inr ⟨a, t, j, ho, hf⟩
    | stop e t =>
      cases hf
      exact .inl ho
  · rintro (ho | ⟨a, t, j, ho, hf⟩)
    · exact ⟨_, ho, rfl⟩
    · exact ⟨_, ho, hf⟩

@[simp] theorem stops_halt : Stops answer (halt e : Procedure Q A ε σ α) s i e' s' i' ↔
    e = e' ∧ s = s' ∧ i = i' := by
  simp only [Stops, halt, Dialogue.run, Option.some.injEq, Prod.mk.injEq, Outcome.stop.injEq,
    and_assoc]

@[simp] theorem stops_haltIf [Decidable c] :
    Stops answer (haltIf e c : Procedure Q A ε σ Unit) s i e' s' i' ↔
      c ∧ e = e' ∧ s = s' ∧ i = i' := by
  by_cases hc : c
  · simp [haltIf, hc]
  · simp [haltIf, hc]

@[simp] theorem stops_look : ¬ Stops answer (look : Procedure Q A ε σ σ) s i e s' i' := by
  intro h
  cases h

@[simp] theorem stops_update {f : σ → σ} :
    ¬ Stops answer (update f : Procedure Q A ε σ Unit) s i e s' i' := by
  intro h
  cases h

theorem Runs.times {I : Nat → σ → ι → Prop}
    (h : Runs answer (Procedure.times body j n) s i () s' i')
    (hI : ∀ k s i s' i', k < j + n → I k s i → Runs answer (body k) s i () s' i' → I (k + 1) s' i')
    (h₀ : I j s i) : I (j + n) s' i' := by
  induction n generalizing j s i with
  | zero =>
    obtain ⟨-, rfl, rfl⟩ := runs_pure.1 h
    exact h₀
  | succ n ih =>
    obtain ⟨_, t, k, hbody, hrest⟩ := runs_bind.1 h
    rw [show j + (n + 1) = j + 1 + n by omega] at hI ⊢
    exact ih hrest hI (hI j s i t k (by omega) h₀ hbody)

theorem Stops.times {I : Nat → σ → ι → Prop}
    (h : Stops answer (Procedure.times body j n) s i e s' i')
    (hI : ∀ k s i s' i', k < j + n → I k s i → Runs answer (body k) s i () s' i' → I (k + 1) s' i')
    (h₀ : I j s i) : ∃ k t u, k < j + n ∧ I k t u ∧ Stops answer (body k) t u e s' i' := by
  induction n generalizing j s i with
  | zero => exact absurd h stops_pure
  | succ n ih =>
    rw [show j + (n + 1) = j + 1 + n by omega] at hI ⊢
    obtain hbody | ⟨_, t, k, hbody, hrest⟩ := stops_bind.1 h
    · exact ⟨j, s, i, by omega, h₀, hbody⟩
    · exact ih hrest hI (hI j s i t k (by omega) h₀ hbody)

theorem Runs.untilNone {body : γ → Nat → Procedure Q A ε σ (γ × Nat)} {I : γ → Nat → σ → ι → Prop}
    (hI : ∀ c m s i p s' i', I c m s i → Runs answer (body c m) s i p s' i' → I p.1 p.2 s' i')
    (h : Runs answer (Procedure.untilNone e body n c m) s i c' s' i')
    (h₀ : I c m s i) : I c' 0 s' i' := by
  induction n generalizing c m s i with
  | zero =>
    cases m with
    | zero =>
      obtain ⟨rfl, rfl, rfl⟩ := runs_pure.1 h
      exact h₀
    | succ m => exact absurd h runs_halt
  | succ n ih =>
    cases m with
    | zero =>
      obtain ⟨rfl, rfl, rfl⟩ := runs_pure.1 h
      exact h₀
    | succ m =>
      obtain ⟨p, t, k, hbody, hrest⟩ := runs_bind.1 h
      exact ih hrest (hI c _ s i p t k h₀ hbody)

theorem Stops.untilNone {body : γ → Nat → Procedure Q A ε σ (γ × Nat)} {I : γ → Nat → σ → ι → Prop}
    (hI : ∀ c m s i p s' i', I c m s i → Runs answer (body c m) s i p s' i' →
      p.2 < m ∧ I p.1 p.2 s' i') (h : Stops answer (Procedure.untilNone e body n c m) s i e' s' i')
    (hn : m ≤ n) (h₀ : I c m s i) :
    ∃ c k t u, I c k t u ∧ Stops answer (body c k) t u e' s' i' := by
  induction n generalizing c m s i with
  | zero =>
    cases m with
    | zero => exact absurd h stops_pure
    | succ m => omega
  | succ n ih =>
    cases m with
    | zero => exact absurd h stops_pure
    | succ m =>
      obtain hbody | ⟨p, t, k, hbody, hrest⟩ := stops_bind.1 h
      · exact ⟨c, m + 1, s, i, h₀, hbody⟩
      · obtain ⟨hlt, hI'⟩ := hI c _ s i p t k h₀ hbody
        exact ih hrest (by omega) hI'

end Procedure
end

end SprdVendor.Lib
