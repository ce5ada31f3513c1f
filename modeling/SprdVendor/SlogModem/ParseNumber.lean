import SprdVendor.SlogModem.FileNames

namespace SprdVendor.SlogModem
open Lib List

def fits32 (n : Nat) : Option Nat := if n < 2 ^ 32 then some n else none

/-- Somewhere before the last digit of a text its value, taken in 32 bits, is `UINT_MAX`. -/
def HitsMax (ds : Name) : Prop :=
  ∃ p s, ds = p ++ s ∧ s ≠ [] ∧ ofDigits 10 p % 2 ^ 32 = 2 ^ 32 - 1

theorem digitVal_of_isDigit (h : c.isDigit = true) : c.toNat - '0'.toNat = digitVal c := by
  rw [Char.isDigit, Bool.and_eq_true, decide_eq_true_iff, decide_eq_true_iff] at h
  have hc : '0' ≤ c ∧ c ≤ '9' := h
  rw [digitVal, if_pos hc]
  rfl

theorem parseFixed_cases (hds : ∀ c ∈ ds, c.isDigit = true) (p : Name) :
    (∃ q s, ds = q ++ s ∧ s ≠ [] ∧ ofDigits 10 (p ++ q) % 2 ^ 32 = 2 ^ 32 - 1) ∧
        parseFixed ds (ofDigits 10 p % 2 ^ 32) = none ∨
      (¬ ∃ q s, ds = q ++ s ∧ s ≠ [] ∧ ofDigits 10 (p ++ q) % 2 ^ 32 = 2 ^ 32 - 1) ∧
        parseFixed ds (ofDigits 10 p % 2 ^ 32) = some (ofDigits 10 (p ++ ds) % 2 ^ 32) := by
  induction ds generalizing p with
  | nil =>
    refine .inr ⟨?_, by rw [append_nil, parseFixed]⟩
    rintro ⟨q, s, hqs, hne, -⟩
    exact hne (append_eq_nil_iff.1 hqs.symm).2
  | cons c ds ih =>
    have hc := hds c mem_cons_self
    by_cases hmax : ofDigits 10 p % 2 ^ 32 = 2 ^ 32 - 1
    · refine .inl ⟨⟨[], c :: ds, rfl, cons_ne_nil c ds, by rwa [append_nil]⟩, ?_⟩
      rw [parseFixed, if_pos hc, if_pos (by omega)]
    have hstep : parseFixed (c :: ds) (ofDigits 10 p % 2 ^ 32) =
        parseFixed ds (ofDigits 10 (p ++ [c]) % 2 ^ 32) := by
      rw [parseFixed, if_pos hc, if_neg (by omega), digitVal_of_isDigit hc, ofDigits_snoc]
      congr 1
      omega
    rw [hstep, append_cons p c ds]
    rcases ih (fun d hd => hds d (mem_cons_of_mem c hd)) (p ++ [c]) with
      ⟨⟨q, s, hqs, hne, hq⟩, hr⟩ | ⟨hno, hr⟩
    · refine .inl ⟨⟨c :: q, s, by rw [hqs, cons_append], hne, ?_⟩, hr⟩
      rwa [append_cons]
    refine .inr ⟨?_, hr⟩
    rintro ⟨q, s, hqs, hne, hq⟩
    cases q with
    | nil => exact hmax (by rwa [append_nil] at hq)
    | cons d q =>
      obtain ⟨rfl, hds⟩ := cons_eq_cons.1 hqs
      exact hno ⟨q, s, hds, hne, by rwa [append_cons] at hq⟩

theorem not_hitsMax_of_lt (h : ofDigits 10 ds < 2 ^ 32) : ¬ HitsMax ds := by
  rintro ⟨p, s, rfl, hne, hp⟩
  have hgrow (s : Name) : s ≠ [] → 10 * ofDigits 10 p ≤ ofDigits 10 (p ++ s) := by
    induction s using reverseRecOn with
    | nil => exact fun h => absurd rfl h
    | append_singleton s c ih =>
      intro _
      rw [← append_assoc, ofDigits_snoc]
      cases s with
      | nil =>
        rw [append_nil]
        omega
      | cons d s =>
        have := ih (cons_ne_nil d s)
        omega
  have := hgrow s hne
  omega

theorem parseFixed_iff (hds : ∀ c ∈ ds, c.isDigit = true) :
    parseFixed ds 0 = fits32 (ofDigits 10 ds) ↔ ofDigits 10 ds < 2 ^ 32 ∨ HitsMax ds := by
  have hcases := parseFixed_cases hds []
  simp only [nil_append] at hcases
  by_cases hlt : ofDigits 10 ds < 2 ^ 32
  · rcases hcases with ⟨hit, -⟩ | ⟨-, hr⟩
    · exact absurd hit (not_hitsMax_of_lt hlt)
    · refine iff_of_true (hr.trans ?_) (.inl hlt)
      rw [fits32, if_pos hlt, Nat.mod_eq_of_lt hlt]
  rw [fits32, if_neg hlt]
  rcases hcases with ⟨hit, hr⟩ | ⟨hno, hr⟩
  · exact iff_of_true hr (.inr hit)
  · refine iff_of_false (fun h => ?_) (fun h => h.elim hlt hno)
    rw [show (0 : Nat) = ofDigits 10 [] % 2 ^ 32 from rfl, hr] at h
    cases h

theorem parseDigits_eq (hds : ∀ c ∈ ds, c.isDigit = true)
    (hrest : rest.head?.any Char.isDigit = false) (num parsed : Nat) :
    parseDigits (ds ++ rest) num parsed = (parseFixed ds num).map (·, parsed + ds.length) := by
  induction ds generalizing num parsed with
  | nil =>
    rw [nil_append, parseFixed]
    cases rest with
    | nil => rfl
    | cons c rest =>
      have hc : ¬ c.isDigit = true := Bool.eq_false_iff.1 hrest
      rw [parseDigits, if_neg hc]
      rfl
  | cons c ds ih =>
    have hc := hds c mem_cons_self
    rw [cons_append, parseDigits, parseFixed, if_pos hc, if_pos hc]
    split
    · rfl
    · rw [ih (fun d hd => hds d (mem_cons_of_mem c hd)), length_cons, add_assoc, add_comm 1]

theorem parseNumber_eq (hds : ∀ c ∈ ds, c.isDigit = true) (hne : ds ≠ [])
    (hrest : rest.head?.any Char.isDigit = false) :
    parseNumber (ds ++ rest) = (parseFixed ds 0).map (·, ds.length) := by
  cases ds with
  | nil => exact absurd rfl hne
  | cons c ds =>
    rw [cons_append, parseNumber, if_pos (hds c mem_cons_self), ← cons_append,
      parseDigits_eq hds hrest, zero_add]

/-- The guard before each digit only stops a value that is `UINT_MAX` itself; another number of more
than 32 bits is returned modulo `2 ^ 32`. -/
theorem number_parsed_iff (ds rest : Name) (hds : ds.all Char.isDigit = true)
    (hrest : rest.head?.any Char.isDigit = false) :
    (parseFixed ds 0 = fits32 (ofDigits 10 ds) ↔ ofDigits 10 ds < 2 ^ 32 ∨ HitsMax ds) ∧
      (parseNumber (ds ++ rest) = (fits32 (ofDigits 10 ds)).map (·, ds.length) ↔
        ds ≠ [] ∧ (ofDigits 10 ds < 2 ^ 32 ∨ HitsMax ds)) := by
  rw [all_eq_true] at hds
  refine ⟨parseFixed_iff hds, ?_⟩
  rw [← parseFixed_iff hds]
  cases ds with
  | nil =>
    refine iff_of_false (fun h => ?_) (fun h => h.1 rfl)
    cases rest with
    | nil => cases h
    | cons c rest =>
      have hc : ¬ c.isDigit = true := Bool.eq_false_iff.1 hrest
      rw [nil_append, parseNumber, if_neg hc] at h
      cases h
  | cons c ds =>
    rw [parseNumber_eq hds nofun hrest]
    refine ⟨fun h => ⟨nofun, ?_⟩, fun h => by rw [h.2]⟩
    exact Option.map_injective (Prod.mk_left_injective _) h

/-- The largest number that fits. -/
theorem number_parsed_max :
    parseNumber ['4', '2', '9', '4', '9', '6', '7', '2', '9', '5', '-'] = some (2 ^ 32 - 1, 10) :=
  (number_parsed_iff ['4', '2', '9', '4', '9', '6', '7', '2', '9', '5'] ['-'] (by decide)
    (by decide)).2.2 ⟨nofun, .inl (by decide)⟩

/-- The next number is read as zero by both functions. -/
theorem number_parsed_wraps :
    parseFixed ['4', '2', '9', '4', '9', '6', '7', '2', '9', '6'] 0 = some 0 ∧
      parseNumber ['4', '2', '9', '4', '9', '6', '7', '2', '9', '6'] = some (0, 10) ∧
      ofDigits 10 ['4', '2', '9', '4', '9', '6', '7', '2', '9', '6'] = 2 ^ 32 := by
  decide

end SprdVendor.SlogModem
