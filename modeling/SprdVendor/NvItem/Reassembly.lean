import SprdVendor.NvItem.Simulation

namespace SprdVendor.NvItem
open Lib List Option

variable {imgs : Nat → List UInt8} {keys : List (Nat × Nat)} {r r' r'' : Reader} {nv nv' : Nv}
  {evs evs' : List Ev}

structure Reports (r r' : Reader) (evs : List Ev) : Prop where
  ws : r'.ws = r.ws ++ stores evs
  log : r'.phase ≠ .idle → r'.log = r.log
  verdict : verdict evs =
    if r.phase ≠ .idle ∧ r'.phase = .idle then some (decide (r'.log ≠ r.log)) else none

theorem Reports.silent (hs : stores evs = []) (hv : NvItem.verdict evs = none) :
    Reports r r evs := by
  refine ⟨by rw [hs, append_nil], fun _ => rfl, ?_⟩
  rw [hv, if_neg]
  exact fun h => h.1 h.2

theorem Reports.trans (h : Reports r r' evs) (h' : Reports r' r'' evs')
    (hr : r.phase = .idle → r' = r) (hr' : r'.phase = .idle → r'' = r') :
    Reports r r'' (evs ++ evs') := by
  have hws : r''.ws = r.ws ++ stores (evs ++ evs') := by
    rw [h'.ws, h.ws, stores_append, append_assoc]
  by_cases hp : r'.phase = .idle
  · cases hr' hp
    refine ⟨hws, h.log, ?_⟩
    rw [verdict_append, h'.verdict, if_neg fun h => h.1 hp, or_none]
    exact h.verdict
  have hi : r.phase ≠ .idle := by
    intro hi
    rw [hr hi] at hp
    exact hp hi
  refine ⟨hws, fun h'' => (h'.log h'').trans (h.log hp), ?_⟩
  rw [verdict_append, h.verdict, if_neg fun h => hp h.2, h'.verdict, h.log hp]
  simp [hp, hi]

theorem analyze_reports [Target] (cali : Bool) (wr : Nat → Bool) (h : Tracks imgs keys r nv)
    (hr : r.phase ≠ .idle) (hw : (r.read (ctlIds keys) buf).Whole)
    (hf : (r.read (ctlIds keys) buf).Fits keys) :
    ∃ nv' evs, analyze cali wr nv buf = some (nv', evs) ∧
      Tracks imgs keys (r.read (ctlIds keys) buf) nv' ∧
      Reports r (r.read (ctlIds keys) buf) evs := by
  induction hn : loopBound nv buf using Nat.strong_induction_on generalizing nv r buf with
  | _ n ih =>
    by_cases hb : buf = []
    · subst hb
      exact ⟨nv, [], analyze_nil, h, .silent rfl rfl⟩
    obtain ⟨o, ho, hfo⟩ := iter_follows h hr hb hw hf
    cases hfo with
    | next c hbc ht ha hws hl hv =>
      subst hbc
      rw [Reader.read_append] at hw hf ⊢
      obtain ⟨nv₂, evs₂, h₂, ht₂, hr₂⟩ :=
        ih _ (by rw [← hn]; exact iter_next_lt ho) ht ha hw hf rfl
      refine ⟨nv₂, _, by rw [analyze_next hb ho, h₂]; rfl, ht₂,
        Reports.trans ⟨hws, fun _ => hl, ?_⟩ hr₂ (fun hi => (hr hi).elim)
          (fun hi => (ha hi).elim)⟩
      rw [hv, if_neg fun h => ha h.2]
    | brk ht hws hl hv =>
      refine ⟨_, _, analyze_brk hb ho, ht, hws, fun _ => hl, ?_⟩
      rw [hv, hl]
      simp [hr]
    | done hbz hi hid hs hown hrd =>
      have hown' : (r.read (ctlIds keys) buf).phase.owner = none := by
        rw [hrd]
        rfl
      obtain ⟨ctl', hc, hs'⟩ := hs.backupData hi hown hown' (by rw [hrd]) cali wr
      refine ⟨_, _, by rw [analyze_done hb ho, hid, hc]; rfl, ⟨rfl, hs', ?_⟩, ?_, ?_, ?_⟩
      · rw [PhaseAt, hrd]
        exact ⟨rfl, rfl⟩
      · rw [hrd]
        exact (append_nil _).symm
      · rw [hrd]
        exact fun h => (h rfl).elim
      · rw [hrd, if_pos ⟨hr, rfl⟩]
        simp only [ne_eq, append_right_eq_self, reduceCtorEq, not_false_eq_true,
          decide_true, NvItem.verdict]

def handles [Target] (cali : Bool) (wr : Nat → Bool) : Nv → List Packet → Option (Nv × List Ev)
  | nv, [] => some (nv, [])
  | nv, p :: ps => (handle cali wr nv p).bind fun r =>
      (handles cali wr r.1 ps).map fun r' => (r'.1, r.2 ++ r'.2)

def group : List (List UInt8) → List Packet
  | [] => []
  | p :: ps => .start p :: ps.map .cont

def CutsWhole (ids : Nat → Option Nat) : Reader → List (List UInt8) → Prop
  | _, [] => True
  | r, p :: ps => (r.read ids p).Whole ∧ CutsWhole ids (r.read ids p) ps

theorem Reader.Fits.of_read (h : (r.read ids p).Fits keys) : r.Fits keys :=
  fun g hg => h g ((Reader.read_ranges ids r p).subset hg)

theorem handle_cont_reports [Target] (cali : Bool) (wr : Nat → Bool) (h : Tracks imgs keys r nv)
    (hw : (r.read (ctlIds keys) p).Whole) (hf : (r.read (ctlIds keys) p).Fits keys) :
    ∃ nv' evs, handle cali wr nv (.cont p) = some (nv', evs) ∧
      Tracks imgs keys (r.read (ctlIds keys) p) nv' ∧ Reports r (r.read (ctlIds keys) p) evs := by
  obtain ⟨a, ha, hacc⟩ := accept_accepts h (.cont p)
  rw [handle, ha, bind_some]
  cases hacc with
  | again ht hs hv =>
    refine ⟨_, _, rfl, ht, ?_⟩
    have hi : r.phase = .idle := by
      by_contra hr
      have hb : nv.sync.busy = true := h.busy.trans (decide_eq_true hr)
      rw [accept, if_pos hb] at ha
      cases ha
    rw [Reader.read_idle hi]
    exact .silent hs hv
  | start hp => cases hp
  | cont hp hr ht =>
    cases hp
    exact analyze_reports cali wr ht hr hw hf

theorem conts_report [Target] (cali : Bool) (wr : Nat → Bool) (h : Tracks imgs keys r nv)
    (hw : CutsWhole (ctlIds keys) r ps) (hf : (r.read (ctlIds keys) ps.flatten).Fits keys) :
    ∃ nv' evs, handles cali wr nv (ps.map .cont) = some (nv', evs) ∧
      Reports r (r.read (ctlIds keys) ps.flatten) evs := by
  induction ps generalizing r nv with
  | nil => exact ⟨nv, [], rfl, .silent rfl rfl⟩
  | cons p ps ih =>
    rw [flatten_cons, Reader.read_append] at hf ⊢
    obtain ⟨nv₁, evs₁, h₁, ht, hr₁⟩ := handle_cont_reports cali wr h hw.1 hf.of_read
    obtain ⟨nv₂, evs₂, h₂, hr₂⟩ := ih ht hw.2 hf
    refine ⟨nv₂, evs₁ ++ evs₂, ?_, hr₁.trans hr₂ (Reader.read_idle · _) (Reader.read_idle · _)⟩
    rw [map_cons, handles, h₁, bind_some, h₂, map_some]

/-- What a group of packets makes the analyzer do is a function of the stream it carries. -/
theorem group_reports [Target] (cali : Bool) (wr : Nat → Bool) (h : nv.Ready) (hn : ps ≠ [])
    (hw : CutsWhole (ctlIds nv.keys) Reader.init.begin ps)
    (hf : (Reader.init.begin.read (ctlIds nv.keys) ps.flatten).Fits nv.keys) :
    ∃ nv' evs, handles cali wr nv (group ps) = some (nv', evs) ∧
      Reports Reader.init.begin (Reader.init.begin.read (ctlIds nv.keys) ps.flatten) evs := by
  cases ps with
  | nil => exact (hn rfl).elim
  | cons p ps =>
    rw [flatten_cons, Reader.read_append] at hf ⊢
    have hb := h.tracks.begin rfl
    obtain ⟨nv₁, evs₁, h₁, ht, hr₁⟩ := analyze_reports cali wr hb nofun hw.1 hf.of_read
    obtain ⟨nv₂, evs₂, h₂, hr₂⟩ := conts_report cali wr ht hw.2 hf
    have hacc : accept nv (.start p) = some (.parse nv.setBusy p) := by
      refine if_neg ?_
      rw [h.busy]
      exact nofun
    have hh : handle cali wr nv (.start p) = some (nv₁, evs₁) := by
      rw [handle, hacc, bind_some]
      exact h₁
    refine ⟨nv₂, evs₁ ++ evs₂, ?_, hr₁.trans hr₂ nofun (Reader.read_idle · _)⟩
    rw [group, handles, hh, bind_some, h₂, map_some]

theorem oneSector_ready [Target] : oneSector.Ready :=
  init_ready (by decide +kernel)

end SprdVendor.NvItem
