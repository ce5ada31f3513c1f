import SprdVendor.Audio.Dp

namespace SprdVendor.Audio

variable {d : Dp}

/-- The state after the first `i` samples of a stream. -/
def Dp.after (update : GainUpdate) (d : Dp) (x : Nat → Int × Int) : Nat → Dp
  | 0 => d
  | i + 1 => (Dp.after update d x i).sample update (x i)

/-- Every step of the gain is positive. -/
structure Dp.Moving (d : Dp) : Prop where
  attackCompressor : 0 < d.attackCompressor
  releaseCompressor : 0 < d.releaseCompressor
  attackExpander : 0 < d.attackExpander
  releaseExpander : 0 < d.releaseExpander

/-- A gain above its target falls and does not pass it. -/
theorem smooth_attack (h : d.Moving) (hlt : d.gainP < d.gainM) :
    d.gainP ≤ d.smooth.gainM ∧ d.smooth.gainM < d.gainM := by
  have hstep : 0 < if d.isExpander then d.attackExpander else d.attackCompressor := by
    split
    · exact h.attackExpander
    · exact h.attackCompressor
  rw [Dp.smooth, if_pos hlt]
  dsimp only
  generalize (if d.isExpander then d.attackExpander else d.attackCompressor) = step at hstep ⊢
  split <;> omega

/-- A gain below its target waits or rises, and does not pass it. -/
theorem smooth_release (h : d.Moving) (hlt : d.gainM < d.gainP) :
    d.gainM ≤ d.smooth.gainM ∧ d.smooth.gainM ≤ d.gainP ∧
      (d.gainP - d.smooth.gainM).toNat + d.smooth.hold.toNat <
        (d.gainP - d.gainM).toNat + d.hold.toNat := by
  have hstep : 0 < if d.isExpander then d.releaseExpander else d.releaseCompressor := by
    split
    · exact h.releaseExpander
    · exact h.releaseCompressor
  rw [Dp.smooth, if_neg (by omega), if_pos hlt]
  split
  · dsimp only
    generalize (if d.isExpander then d.releaseExpander else d.releaseCompressor) = step at hstep ⊢
    split <;> omega
  · dsimp only
    omega

theorem smooth_reached (h : d.gainM = d.gainP) : d.smooth.gainM = d.gainP := by
  rw [Dp.smooth, if_neg (by omega), if_neg (by omega)]
  exact h

/-- A round of the loop is a smoothing of the state with its target. -/
theorem sample_smooth (update : GainUpdate) (d : Dp) (s : Int × Int) (h : d.Moving) :
    ∃ e : Dp, d.sample update s = e.smooth ∧ e.Moving ∧ e.gainM = d.gainM ∧ e.hold = d.hold := by
  rw [Dp.sample]
  split
  · exact ⟨_, rfl, ⟨h.1, h.2, h.3, h.4⟩, rfl, rfl⟩
  · exact ⟨_, rfl, ⟨h.1, h.2, h.3, h.4⟩, rfl, rfl⟩

theorem Dp.Moving.sample (h : d.Moving) (update : GainUpdate) (s : Int × Int) :
    (d.sample update s).Moving := by
  obtain ⟨e, hs, he, -⟩ := sample_smooth update d s h
  obtain ⟨-, -, -, hac, hrc, hae, hre⟩ := smooth_same e
  rw [hs]
  exact ⟨hac ▸ he.1, hrc ▸ he.2, hae ▸ he.3, hre ▸ he.4⟩

/-- What a sample does to the gain while its target is `t`. -/
theorem sample_gain (h : d.Moving) (ht : (d.sample update s).gainP = t) :
    (d.gainM = t → (d.sample update s).gainM = t) ∧
    (t < d.gainM → t ≤ (d.sample update s).gainM ∧ (d.sample update s).gainM < d.gainM) ∧
    (d.gainM < t → d.gainM ≤ (d.sample update s).gainM ∧ (d.sample update s).gainM ≤ t ∧
      (t - (d.sample update s).gainM).toNat + (d.sample update s).hold.toNat <
        (t - d.gainM).toNat + d.hold.toNat) := by
  obtain ⟨e, hs, he, hgain, hhold⟩ := sample_smooth update d s h
  rw [hs, (smooth_same e).2.2.1] at ht
  rw [hs, ← hgain, ← hhold, ← ht]
  exact ⟨smooth_reached, smooth_attack he, smooth_release he⟩

/-- What holds from some time on, if it stays and a number goes down before. -/
theorem eventually_of_decreasing {P : Nat → Prop} {μ : Nat → Nat} (hstay : ∀ i, P i → P (i + 1))
    (hdown : ∀ i, ¬ P i → μ (i + 1) < μ i) : ∃ n, ∀ i ≥ n, P i := by
  have hall (n : Nat) : P n ∨ μ n + n ≤ μ 0 := by
    induction n with
    | zero => exact .inr (le_refl _)
    | succ n ih =>
      by_cases hn : P n
      · exact .inl (hstay n hn)
      · have := hdown n hn
        have := ih.resolve_left hn
        exact .inr (by omega)
  refine ⟨μ 0 + 1, fun i hi => ?_⟩
  induction i, hi using Nat.le_induction with
  | base => exact (hall _).resolve_right (by omega)
  | succ i _ ih => exact hstay i ih

theorem Dp.Moving.after (h : d.Moving) (update : GainUpdate) (x : Nat → Int × Int)
    (i : Nat) : (Dp.after update d x i).Moving := by
  induction i with
  | zero => exact h
  | succ i ih => exact ih.sample update (x i)

theorem Dp.Moving.process (h : d.Moving) (update : GainUpdate)
    (samples : List (Int × Int)) : (d.process update samples).Moving := by
  induction samples generalizing d with
  | nil => exact h
  | cons s samples ih => exact ih (h.sample update s)

/-- While the target gain stays, the smoothed gain goes towards it, does not pass it and reaches it,
if the step of the expander's attack is not 0. -/
theorem gain_reaches_target (h : initDp p fs = some d) (hstep : 0 < d.attackExpander)
    (earlier : List (Int × Int)) (x : Nat → Int × Int)
    (ht : ∀ i, (Dp.after update (d.process update earlier) x (i + 1)).gainP = t) :
    let g := fun i => (Dp.after update (d.process update earlier) x i).gainM
    (g 0 ≤ t → ∀ i, g i ≤ g (i + 1) ∧ g (i + 1) ≤ t) ∧
      (t ≤ g 0 → ∀ i, t ≤ g (i + 1) ∧ g (i + 1) ≤ g i) ∧ ∃ n, ∀ i ≥ n, g i = t := by
  intro g
  obtain ⟨-, -, hac, hrc, hre⟩ := initDp_some h
  have hmoving : (d.process update earlier).Moving :=
    Dp.Moving.process ⟨hac, hrc, hstep, hre⟩ update earlier
  have hgain (i : Nat) := sample_gain (hmoving.after update x i) (ht i)
  have hup (h0 : g 0 ≤ t) (i : Nat) : g i ≤ t := by
    induction i with
    | zero => exact h0
    | succ i ih =>
      obtain hlt | heq := lt_or_eq_of_le ih
      · exact ((hgain i).2.2 hlt).2.1
      · exact le_of_eq ((hgain i).1 heq)
  have hdown (h0 : t ≤ g 0) (i : Nat) : t ≤ g i := by
    induction i with
    | zero => exact h0
    | succ i ih =>
      obtain hlt | heq := lt_or_eq_of_le ih
      · exact ((hgain i).2.1 hlt).1
      · exact le_of_eq ((hgain i).1 heq.symm).symm
  refine ⟨fun h0 i => ⟨?_, hup h0 (i + 1)⟩, fun h0 i => ⟨hdown h0 (i + 1), ?_⟩, ?_⟩
  · obtain hlt | heq := lt_or_eq_of_le (hup h0 i)
    · exact ((hgain i).2.2 hlt).1
    · rw [heq]
      exact le_of_eq ((hgain i).1 heq).symm
  · obtain hlt | heq := lt_or_eq_of_le (hdown h0 i)
    · exact le_of_lt ((hgain i).2.1 hlt).2
    · rw [← heq]
      exact le_of_eq ((hgain i).1 heq.symm)
  obtain h0 | h0 := le_total (g 0) t
  · refine eventually_of_decreasing (fun i => (hgain i).1) (μ := fun i => (t - g i).toNat +
      (Dp.after update (d.process update earlier) x i).hold.toNat) fun i hne => ?_
    exact ((hgain i).2.2 (lt_of_le_of_ne (hup h0 i) hne)).2.2
  refine eventually_of_decreasing (fun i => (hgain i).1) (μ := fun i => (g i - t).toNat)
    fun i hne => ?_
  have hlt : t < g i := lt_of_le_of_ne (hdown h0 i) (Ne.symm hne)
  have hfall : g (i + 1) < g i := ((hgain i).2.1 hlt).2
  omega

theorem param_after (update : GainUpdate) (d : Dp) (x : Nat → Int × Int) (i : Nat) :
    (Dp.after update d x i).param = d.param := by
  induction i with
  | zero => rfl
  | succ i ih =>
    rw [Dp.after, Dp.sample, ← ih]
    split
    · exact (smooth_same _).2.1
    · exact (smooth_same _).2.1

def silence : Nat → Int × Int := fun _ => (0, 0)
def muted : GainUpdate := fun _ _ => (0, true)

theorem gain_reaches_unity : ∃ d, initDp someParam 8000 = some d ∧
    ∃ n, ∀ i ≥ n, (Dp.after unity (d.process unity []) silence i).gainM = 2 ^ 20 := by
  have hinit : ∃ d, initDp someParam 8000 = some d ∧ 0 < d.attackExpander := ⟨_, rfl, by decide⟩
  obtain ⟨d, h, hstep⟩ := hinit
  refine ⟨d, h, (gain_reaches_target h hstep [] _ fun i => ?_).2.2⟩
  have hsw : (Dp.after unity (d.process unity []) silence i).param.dpSw = true := by
    rw [param_after]
    exact congrArg DpParam.dpSw (initDp_some h).1
  rw [Dp.after, Dp.sample, if_pos hsw, (smooth_same _).2.2.1]
  rfl

/-- With an input gain just above 1 the expander's attack has the step 0, and the gain never falls
to the target 0. -/
theorem small_gain_never_falls : ∃ d, initDp { someParam with inputGain := 1025 } 48000 = some d ∧
    ∀ i, (Dp.after muted d silence i).gainM = 1025 * 1024 := by
  have hinit : ∃ d, initDp { someParam with inputGain := 1025 } 48000 = some d ∧
    d.attackExpander = 0 ∧ d.gainM = 1025 * 1024 := ⟨_, rfl, by decide, rfl⟩
  obtain ⟨d, h, hzero, hgain⟩ := hinit
  suffices hall : ∀ i, (Dp.after muted d silence i).gainM = 1025 * 1024 ∧
      (Dp.after muted d silence i).attackExpander = 0 from ⟨d, h, fun i => (hall i).1⟩
  intro i
  induction i with
  | zero => exact ⟨hgain, hzero⟩
  | succ i ih =>
    obtain ⟨hgain, hzero⟩ := ih
    have hsw : (Dp.after muted d silence i).param.dpSw = true :=
      congrArg DpParam.dpSw ((param_after muted d silence i).trans (initDp_some h).1)
    rw [Dp.after, Dp.sample, if_pos hsw]
    refine ⟨?_, (smooth_same _).2.2.2.2.2.1.trans hzero⟩
    rw [Dp.smooth, if_pos (by dsimp only [muted]; omega)]
    rw [hzero, hgain]
    rfl

end SprdVendor.Audio
