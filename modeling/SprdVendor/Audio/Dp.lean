import Mathlib

namespace SprdVendor.Audio
open List

def int16 (x : Int) : Int := x.bmod (2 ^ 16)
def int32 (x : Int) : Int := x.bmod (2 ^ 32)

/-- The members of `DP_CONTROL_PARAM_T` that the gain depends on, with the bits of
`DP_sw_switch`. -/
structure DpParam where
  dpSw : Bool
  dpZcSw : Bool
  lcfSw : Bool
  inputGain : Int
  compressorAttack : Int
  compressorHold : Int
  compressorRelease : Int
  expanderAttack : Int
  expanderHold : Int
  expanderRelease : Int

/-- The variables of the peak: the block of a millisecond and the ring of the blocks before it. -/
structure Peak where
  maxFN : Int
  d48i : Int
  xp : Nat
  xd : Fin 26 → Nat
  xdi : Fin 26
  xpm : Nat

/-- The variables of the dynamic processor. -/
structure Dp where
  param : DpParam
  peak : Peak
  attackCompressor : Int
  releaseCompressor : Int
  attackExpander : Int
  releaseExpander : Int
  holdCompressor : Int
  holdExpander : Int
  hold : Int
  gainP : Int
  gainM : Int
  isExpander : Bool

/-- A step of the gain for a time in milliseconds; a division by 0 has no result. -/
def gainStep (gain fs time : Int) : Option Int :=
  let time := if time ≤ 0 then 1 else time
  let samples := (int32 (fs * time)).tdiv 1000
  if samples = 0 then none
  else some ((if gain > 1024 then gain * 1024 - 1024 * 1024 else gain * 1024).tdiv samples)

def repair (step : Int) : Int := if step ≤ 0 then 64 else step

def Peak.init (fs : Int) : Peak :=
  ⟨int16 (fs.tdiv 1000), int16 (int16 (fs.tdiv 1000) - 1), 0, fun _ => 0, 25, 0⟩

/-- `AUDPROC_initDp`: the check of `gd_Attack_Expander` is missing. -/
def initDp (p : DpParam) (fs : Int) : Option Dp := do
  guard (p.dpSw || p.dpZcSw || p.lcfSw)
  let attackCompressor ← gainStep p.inputGain fs p.compressorAttack
  let releaseCompressor ← gainStep p.inputGain fs p.compressorRelease
  let attackExpander ← gainStep p.inputGain fs p.expanderAttack
  let releaseExpander ← gainStep p.inputGain fs p.expanderRelease
  some {
    param := p
    peak := .init fs
    attackCompressor := repair attackCompressor
    releaseCompressor := repair releaseCompressor
    attackExpander
    releaseExpander := repair releaseExpander
    holdCompressor := (int32 (p.compressorHold * fs)).tdiv 1000
    holdExpander := (int32 (p.expanderHold * fs)).tdiv 1000
    hold := 0
    gainP := p.inputGain * 1024
    gainM := p.inputGain * 1024
    isExpander := true }

/-- The largest entry of the ring, as the loop from `x_d_dp[25]` on finds it. -/
def ringMax (xd : Fin 26 → Nat) : Nat :=
  (List.finRange 25).reverse.foldl (fun m i => max m (xd i.castSucc)) (xd 25)

def Peak.next (k : Peak) (mabslr : Nat) : Peak :=
  let d48i := int16 (k.d48i - 1)
  if 0 ≤ d48i then { k with d48i, xp := max k.xp mabslr }
  else
    let xd := Function.update k.xd k.xdi k.xp
    { k with
      d48i := int16 (k.maxFN - 1)
      xd
      xdi := if k.xdi = 0 then 25 else k.xdi - 1
      xpm := if k.xd k.xdi ≠ k.xpm then max k.xpm k.xp else ringMax xd
      xp := mabslr }

/-- `x_rp_dp`. -/
def Peak.value (k : Peak) : Nat := max k.xpm k.xp

/-- The part `gain smooth` of the loop. -/
def Dp.smooth (d : Dp) : Dp :=
  if d.gainP < d.gainM then
    let attack := d.gainM - if d.isExpander then d.attackExpander else d.attackCompressor
    { d with
      gainM := if attack < d.gainP then d.gainP else attack
      hold := if d.isExpander then d.holdExpander else d.holdCompressor }
  else if d.gainP > d.gainM then
    if d.hold - 1 ≤ 0 then
      let release := d.gainM + if d.isExpander then d.releaseExpander else d.releaseCompressor
      { d with hold := 0, gainM := if release > d.gainP then d.gainP else release }
    else { d with hold := d.hold - 1 }
  else d

/-- The part `gain update`, of which it only matters that it makes a target gain and a mode of the
peak and the mode before. -/
abbrev GainUpdate := Nat → Bool → Int × Bool

/-- A round of the loop of `AUDPROC_ProcessDp` for a left and a right sample. -/
def Dp.sample (update : GainUpdate) (d : Dp) (s : Int × Int) : Dp :=
  if d.param.dpSw then
    let peak := d.peak.next (max s.1.natAbs s.2.natAbs)
    let u := update peak.value d.isExpander
    Dp.smooth { d with peak, gainP := u.1, isExpander := u.2 }
  else Dp.smooth { d with gainP := d.param.inputGain * 1024 }

def Dp.process (update : GainUpdate) (d : Dp) (samples : List (Int × Int)) : Dp :=
  samples.foldl (Dp.sample update) d

theorem foldl_max_le {f : ι → Nat} {l : List ι} :
    l.foldl (fun m i => max m (f i)) a ≤ c ↔ a ≤ c ∧ ∀ i ∈ l, f i ≤ c := by
  induction l generalizing a with
  | nil => simp
  | cons i l ih => rw [foldl_cons, ih, max_le_iff, forall_mem_cons, and_assoc]

theorem ringMax_eq (xd : Fin 26 → Nat) : ringMax xd = Finset.univ.sup xd := by
  refine eq_of_forall_ge_iff fun c => ?_
  rw [ringMax, foldl_max_le, Finset.sup_le_iff]
  constructor
  · rintro ⟨hlast, h⟩ i -
    induction i using Fin.lastCases with
    | last => exact hlast
    | cast i => exact h i (mem_reverse.mpr (mem_finRange i))
  · intro h
    exact ⟨h 25 (Finset.mem_univ _), fun i _ => h _ (Finset.mem_univ _)⟩

/-- A value that is not the largest one can be replaced without a search. -/
theorem sup_update {f : Fin 26 → Nat} (h : f i ≠ Finset.univ.sup f) (v : Nat) :
    Finset.univ.sup (Function.update f i v) = max (Finset.univ.sup f) v := by
  obtain ⟨j, -, hj⟩ := Finset.exists_mem_eq_sup Finset.univ ⟨i, Finset.mem_univ i⟩ f
  apply le_antisymm
  · refine Finset.sup_le fun k _ => ?_
    rw [Function.update_apply]
    split
    · exact le_max_right _ _
    · exact (Finset.le_sup (Finset.mem_univ k)).trans (le_max_left _ _)
  refine max_le ?_ ?_
  · have hle := Finset.le_sup (f := Function.update f i v) (Finset.mem_univ j)
    rwa [Function.update_of_ne (by rintro rfl; exact h hj.symm), ← hj] at hle
  · have hle := Finset.le_sup (f := Function.update f i v) (Finset.mem_univ i)
    rwa [Function.update_self] at hle

/-- Where a block begins; the first one is a sample shorter than the others. -/
def blockStart (fn b : Nat) : Nat := fn * b - 1

def blockPeak (fn : Nat) (x : Nat → Nat) (b : Nat) : Nat :=
  (Finset.Ico (blockStart fn b) (blockStart fn (b + 1))).sup x

/-- What the variables are after the first `n` samples of a stream. -/
structure Peak.Tracks (fn : Nat) (x : Nat → Nat) (n : Nat) (k : Peak) : Prop where
  maxFN : k.maxFN = fn
  d48i : k.d48i = fn - 1 - (n % fn : Nat)
  xp : k.xp = (Finset.Ico (blockStart fn (n / fn)) n).sup x
  ring : ∀ j, k.xd (k.xdi + 1 + j) = if j < n / fn then blockPeak fn x (n / fn - 1 - j) else 0
  xpm : k.xpm = Finset.univ.sup k.xd

theorem int16_of_lt (h : 0 ≤ x) (h' : x < 2 ^ 15) : int16 x = x := by
  rw [int16, Int.bmod_eq_of_le] <;> omega

theorem blockStart_le (fn n : Nat) : blockStart fn (n / fn) ≤ n := by
  have := Nat.mul_div_le n fn
  rw [blockStart]
  omega

theorem sup_Ico_succ (x : Nat → Nat) (h : m ≤ n) :
    (Finset.Ico m (n + 1)).sup x = max ((Finset.Ico m n).sup x) (x n) := by
  rw [← Finset.insert_Ico_right_eq_Ico_add_one h, Finset.sup_insert]
  exact max_comm _ _

theorem Peak.Tracks.inBlock {k : Peak} (h : Tracks fn x n k) (hfn' : fn < 2 ^ 15)
    (hmod : n % fn + 1 < fn) : Tracks fn x (n + 1) (k.next (x n)) := by
  obtain ⟨hdiv, hmod'⟩ : (n + 1) / fn = n / fn ∧ (n + 1) % fn = n % fn + 1 :=
    (Nat.div_mod_unique (by omega)).mpr ⟨by have := Nat.div_add_mod n fn; omega, hmod⟩
  have hd : int16 (k.d48i - 1) = k.d48i - 1 := by
    have := h.d48i
    exact int16_of_lt (by omega) (by omega)
  rw [next, hd, if_pos (by have := h.d48i; omega)]
  refine ⟨h.maxFN, ?_, ?_, ?_, h.xpm⟩
  · have := h.d48i
    dsimp only
    omega
  · rw [hdiv, sup_Ico_succ x (blockStart_le fn n), ← h.xp]
  · rw [hdiv]
    exact h.ring

theorem Peak.Tracks.newBlock {k : Peak} (h : Tracks fn x n k) (hfn' : fn < 2 ^ 15)
    (hmod : n % fn + 1 = fn) : Tracks fn x (n + 1) (k.next (x n)) := by
  obtain ⟨hdiv, hmod'⟩ : (n + 1) / fn = n / fn + 1 ∧ (n + 1) % fn = 0 :=
    (Nat.div_mod_unique (by omega)).mpr
      ⟨by have := Nat.div_add_mod n fn; rw [Nat.mul_succ]; omega, by omega⟩
  have hd : int16 (k.d48i - 1) = -1 := by
    have := h.d48i
    rw [show k.d48i - 1 = -1 by omega]
    rfl
  have hstart : blockStart fn (n / fn + 1) = n := by
    have := Nat.div_add_mod n fn
    rw [blockStart, Nat.mul_succ]
    omega
  rw [next, hd, if_neg (by omega)]
  have hxdi : (if k.xdi = 0 then 25 else k.xdi - 1) = k.xdi - 1 := by
    split
    · rename_i hzero
      rw [hzero]
      rfl
    · rfl
  refine ⟨h.maxFN, ?_, ?_, ?_, ?_⟩
  · dsimp only
    rw [h.maxFN, int16_of_lt (by omega) (by omega), hmod']
    omega
  · dsimp only
    rw [hdiv, hstart, sup_Ico_succ x (le_refl n), Finset.Ico_self, Finset.sup_empty]
    exact (zero_max _).symm
  · intro j
    dsimp only
    rw [hxdi, sub_add_cancel, hdiv]
    by_cases hj : j = 0
    · rw [hj, add_zero, Function.update_self, h.xp, Fin.val_zero, if_pos (Nat.succ_pos _),
        Nat.add_sub_cancel, Nat.sub_zero, blockPeak, hstart]
    have hpred : (j - 1).val = j.val - 1 := Fin.val_sub_one_of_ne_zero hj
    have hpos : 0 < j.val := Fin.pos_iff_ne_zero.mpr hj
    have hring := h.ring (j - 1)
    rw [add_add_sub_cancel, hpred] at hring
    rw [Function.update_of_ne (by simpa using hj), hring, Nat.add_sub_cancel]
    by_cases hlt : j.val - 1 < n / fn
    · rw [if_pos hlt, if_pos (by omega)]
      congr 1
      omega
    · rw [if_neg hlt, if_neg (by omega)]
  · dsimp only
    split
    · rename_i hne
      rw [h.xpm, sup_update (h.xpm ▸ hne)]
    · exact ringMax_eq _

/-- The larger absolute value of the samples at a place of a stream. -/
def loudness (samples : List (Int × Int)) (u : Nat) : Nat :=
  max (samples.getD u (0, 0)).1.natAbs (samples.getD u (0, 0)).2.natAbs

/-- The largest absolute value of both channels in the current block and the 26 blocks before it. -/
def windowPeak (fn : Nat) (samples : List (Int × Int)) : Nat :=
  (Finset.Ico (blockStart fn (samples.length / fn - 26)) samples.length).sup (loudness samples)

theorem Peak.Tracks.value {k : Peak} (h : Tracks fn x n k) (hfn : 0 < fn) :
    k.value = (Finset.Ico (blockStart fn (n / fn - 26)) n).sup x := by
  have hmono {a b : Nat} (hab : a ≤ b) : blockStart fn a ≤ blockStart fn b :=
    Nat.sub_le_sub_right (Nat.mul_le_mul_left fn hab) 1
  have hle := blockStart_le fn n
  rw [Peak.value, h.xpm, h.xp]
  apply le_antisymm
  · refine max_le (Finset.sup_le fun i _ => ?_) (Finset.sup_mono ?_)
    · have hring := h.ring (i - (k.xdi + 1))
      rw [add_sub_cancel] at hring
      rw [hring]
      split
      · refine Finset.sup_mono (Finset.Ico_subset_Ico (hmono ?_) ((hmono ?_).trans hle))
        · have := (i - (k.xdi + 1)).isLt
          omega
        · omega
      · exact Nat.zero_le _
    · exact Finset.Ico_subset_Ico_left (hmono (Nat.sub_le _ _))
  · refine Finset.sup_le fun u hu => ?_
    rw [Finset.mem_Ico] at hu
    by_cases hcur : blockStart fn (n / fn) ≤ u
    · exact (Finset.le_sup (Finset.mem_Ico.mpr ⟨hcur, hu.2⟩)).trans (le_max_right _ _)
    -- the block of `u` is one of those in the ring
    refine le_trans ?_ (le_max_left _ _)
    rw [blockStart] at hcur hu
    have hlow : n / fn - 26 ≤ (u + 1) / fn := by
      rw [Nat.le_div_iff_mul_le hfn, Nat.mul_comm]
      omega
    have hhigh : (u + 1) / fn < n / fn := by
      rw [Nat.div_lt_iff_lt_mul hfn, Nat.mul_comm]
      omega
    have hring := h.ring ⟨n / fn - 1 - (u + 1) / fn, by omega⟩
    dsimp only at hring
    rw [if_pos (by omega), show n / fn - 1 - (n / fn - 1 - (u + 1) / fn) = (u + 1) / fn by omega]
      at hring
    have hmem : u ∈ Finset.Ico (blockStart fn ((u + 1) / fn))
        (blockStart fn ((u + 1) / fn + 1)) := by
      have hle := Nat.mul_div_le (u + 1) fn
      have hlt := Nat.lt_mul_div_succ (u + 1) hfn
      rw [Finset.mem_Ico, blockStart, blockStart]
      omega
    calc x u ≤ blockPeak fn x ((u + 1) / fn) := Finset.le_sup hmem
      _ ≤ Finset.univ.sup k.xd := hring ▸ Finset.le_sup (Finset.mem_univ _)

/-- What the smoothing leaves as it is. -/
theorem smooth_same (d : Dp) : d.smooth.peak = d.peak ∧ d.smooth.param = d.param ∧
    d.smooth.gainP = d.gainP ∧ d.smooth.attackCompressor = d.attackCompressor ∧
    d.smooth.releaseCompressor = d.releaseCompressor ∧
    d.smooth.attackExpander = d.attackExpander ∧ d.smooth.releaseExpander = d.releaseExpander := by
  rw [Dp.smooth]
  split
  · exact ⟨rfl, rfl, rfl, rfl, rfl, rfl, rfl⟩
  split
  · split <;> exact ⟨rfl, rfl, rfl, rfl, rfl, rfl, rfl⟩
  · exact ⟨rfl, rfl, rfl, rfl, rfl, rfl, rfl⟩

theorem tracks_take (update : GainUpdate) {d : Dp} (hsw : d.param.dpSw = true)
    (samples : List (Int × Int)) (h : d.peak.Tracks fn (loudness samples) 0) (hfn : 2 ≤ fn)
    (hfn' : fn < 2 ^ 15) (hn : n ≤ samples.length) :
    (d.process update (samples.take n)).param.dpSw = true ∧
      (d.process update (samples.take n)).peak.Tracks fn (loudness samples) n := by
  induction n with
  | zero => exact ⟨hsw, h⟩
  | succ n ih =>
    obtain ⟨hsw', htracks⟩ := ih (by omega)
    have hlast : loudness samples n = max samples[n].1.natAbs samples[n].2.natAbs := by
      rw [loudness, getD_eq_getElem _ _ (by omega)]
    rw [take_succ_eq_append_getElem (by omega), Dp.process, foldl_concat]
    change (Dp.sample update (d.process update (samples.take n)) samples[n]).param.dpSw = true ∧
      (Dp.sample update (d.process update (samples.take n)) samples[n]).peak.Tracks _ _ _
    rw [Dp.sample, if_pos hsw', (smooth_same _).1, (smooth_same _).2.1, ← hlast]
    refine ⟨hsw', ?_⟩
    have hmod := Nat.mod_lt n (show 0 < fn by omega)
    by_cases hlt : n % fn + 1 < fn
    · exact htracks.inBlock hfn' hlt
    · exact htracks.newBlock hfn' (by omega)

theorem initDp_some (h : initDp p fs = some d) :
    d.param = p ∧ d.peak = .init fs ∧ 0 < d.attackCompressor ∧ 0 < d.releaseCompressor ∧
      0 < d.releaseExpander := by
  have hrepair (x : Int) : 0 < repair x := by
    rw [repair]
    split <;> omega
  simp only [initDp, Option.bind_eq_bind, Option.bind_eq_some_iff] at h
  obtain ⟨-, -, ac, -, rc, -, ae, -, re, -, h⟩ := h
  cases h
  exact ⟨rfl, rfl, hrepair ac, hrepair rc, hrepair re⟩

def someParam : DpParam := ⟨true, false, false, 2048, 30, 30, 1000, 30, 30, 1000⟩
def unity : GainUpdate := fun _ e => (2 ^ 20, e)

end SprdVendor.Audio
