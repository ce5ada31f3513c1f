import SprdVendor.NvItem.Marks

namespace SprdVendor.NvItem
open Lib

inductive Pass.Does (w : WriteRes × WriteRes) (ctl : List Part) (disk : Nat → Disk) :
    Pass → Saved → Prop where
  | ended (k : Nat) (hk : ctl[k]? = none) : Does w ctl disk (.check k) ⟨none, ctl, disk, []⟩
  | dirty (k : Nat) (q : Part) (hk : ctl[k]? = some q) (hd : q.backup.dirty.hasDirty = true) :
      Does w ctl disk (.check k) ⟨some (.get k), ctl, disk, []⟩
  | clean (k : Nat) (q : Part) (hk : ctl[k]? = some q) (hd : q.backup.dirty.hasDirty = false) :
      Does w ctl disk (.check k) ⟨some (.check (k + 1)), ctl, disk, []⟩
  | get (k : Nat) (q : Part) (hk : ctl[k]? = some q) :
      Does w ctl disk (.get k) ⟨some (.write k), ctl.set k q.getData, disk, []⟩
  | getNone (k : Nat) (hk : ctl[k]? = none) :
      Does w ctl disk (.get k) ⟨some (.write k), ctl, disk, []⟩
  | write (k : Nat) (q : Part) (hk : ctl[k]? = some q) :
      Does w ctl disk (.write k) ⟨some (.check (k + 1)),
        ctl.set k (q.written (ramDiskWrite w.1 w.2 (disk k) q.toDiskImage).2),
        Function.update disk k (ramDiskWrite w.1 w.2 (disk k) q.toDiskImage).1, [k]⟩
  | writeNone (k : Nat) (hk : ctl[k]? = none) :
      Does w ctl disk (.write k) ⟨some (.check (k + 1)), ctl, disk, []⟩

theorem Pass.step_does (hs : ∀ (i : Nat) (p : Part), ctl[i]? = some p → p.Sound)
    (p : Pass) (w : WriteRes × WriteRes) (disk : Nat → Disk) :
    p.Does w ctl disk (p.step w ctl disk) := by
  cases p with
  | check k =>
    rw [Pass.step]
    cases hk : ctl[k]? with
    | none => exact .ended k hk
    | some q =>
      dsimp only
      cases hd : q.ifHasDirty with
      | true => exact .dirty k q hk hd
      | false => exact .clean k q hk hd
  | get k =>
    rw [Pass.step]
    cases hk : ctl[k]? with
    | none => exact .getNone k hk
    | some q => exact .get k q hk
  | write k =>
    rw [Pass.step]
    cases hk : ctl[k]? with
    | none => exact .writeNone k hk
    | some q =>
      dsimp only
      rw [if_pos (hs k q hk).toDisk.ecc]
      exact .write k q hk

structure Sys.SaverSame (s s' : Sys) : Prop where
  disk : s'.disk = s.disk
  saver : s'.saver = s.saver
  wrote : s'.wrote = s.wrote
  passes : s'.passes = s.passes

inductive Sys.Effect (s : Sys) : Act → Sys → Prop where
  | front (hp : s.pc ≠ .notify) (hm : s'.nv.Marked) (hf : Fronts s.nv.ctl s'.nv.ctl)
      (hs : s.SaverSame s') : Effect s a s'
  | commit (i : Nat) (p : Part) (hp : s'.pc = .notify) (hm : s'.nv.Marked)
      (hi : s.nv.ctl[i]? = some p) (hc : s'.nv.ctl = s.nv.ctl.set i p.commit)
      (hs : s.SaverSame s') : Effect s (.sync w) s'
  | signal (hp : s.pc = .notify) : Effect s (.sync w) s.signal
  | wait (hs : s.saver = .idle) : Effect s (.saver w) { s with saver := .waiting }
  | save (p p' : Pass) (r : Saved) (hs : s.saver = .save p) (hd : p.Does w s.nv.ctl s.disk r)
      (hn : r.next = some p') :
      Effect s (.saver w) { s with
        nv := { s.nv with ctl := r.ctl }, disk := r.disk, saver := .save p'
        wrote := s.wrote ++ r.wrote }
  | saved (k : Nat) (hs : s.saver = .save (.check k)) (hk : s.nv.ctl[k]? = none) :
      Effect s (.saver w) { s with saver := .idle, passes := s.passes + 1 }
  | wake (hs : s.saver = .waiting) :
      Effect s .wake { s with saver := .save (.check 0), wrote := [] }

variable {s s' : Sys}

theorem Nv.Marked.getPacket (h : nv.Marked) (b : List UInt8) (beyond : Nat → UInt8) :
    (NvItem.getPacket nv b beyond).2.Marked := by
  obtain ⟨hc, hs⟩ := getPacket_nv nv b beyond
  refine ⟨by rw [hs]; exact h.ofst, by rw [hc]; exact h.parts, ?_⟩
  rw [hs, hc]
  exact h.data

theorem Sys.readStep_effect (h : s.nv.Marked) (hp : s.pc = .poll) :
    s.Effect (.read b beyond) (s.readStep b beyond) := by
  have hpc : s.pc ≠ .notify := by
    rw [hp]
    exact nofun
  have hctl := (getPacket_nv s.nv b beyond).1
  unfold Sys.readStep
  dsimp only
  cases ha : accept (getPacket s.nv b beyond).2 (getPacket s.nv b beyond).1 with
  | none => exact .front hpc h (.refl _) ⟨rfl, rfl, rfl, rfl⟩
  | some a =>
    have ht := accept_marks (h.getPacket b beyond) ha
    cases ht with
    | again hm hf =>
      rw [hctl] at hf
      exact .front hpc hm hf ⟨rfl, rfl, rfl, rfl⟩
    | parse hm hf =>
      rw [hctl] at hf
      exact .front hpc hm hf ⟨rfl, rfl, rfl, rfl⟩

theorem Nv.Marked.set_commit {nv : Nv} (h : nv.Marked) (hi : nv.ctl[i]? = some p) :
    Nv.Marked { nv with ctl := nv.ctl.set i p.commit } := by
  refine ⟨h.ofst, ?_, ?_⟩
  · intro j q hj
    rcases getElem?_set_some hi hj with ⟨-, rfl⟩ | ⟨-, hj⟩
    · exact (h.parts i p hi).commit.1
    · exact h.parts j q hj
  intro hd hl j q hid hj
  rcases getElem?_set_some hi hj with ⟨rfl, rfl⟩ | ⟨-, hj⟩
  · rw [Part.commit_fromChannel]
    exact h.data hd hl i p hid hi
  · exact h.data hd hl j q hid hj

theorem Sys.turn_effect [Target] (h : s.nv.Marked) (hp : s.pc = .parse buf) :
    s.Effect (.sync w) (s.turn buf) := by
  have hpc : s.pc ≠ .notify := by
    rw [hp]
    exact nofun
  unfold Sys.turn
  by_cases hb : buf = []
  · rw [if_pos hb]
    exact .front hpc h (.refl _) ⟨rfl, rfl, rfl, rfl⟩
  rw [if_neg hb]
  cases hi : iter s.nv buf with
  | none => exact .front hpc h (.refl _) ⟨rfl, rfl, rfl, rfl⟩
  | some o =>
    cases iter_marks h hb hi with
    | next hm hf => exact .front hpc hm hf ⟨rfl, rfl, rfl, rfl⟩
    | brk hm hf => exact .front hpc hm hf ⟨rfl, rfl, rfl, rfl⟩
    | @done nv' hm hc =>
      dsimp only
      cases ho : onPart nv'.ctl nv'.sync.id fun p => some p.commit with
      | none => exact .front hpc h (.refl _) ⟨rfl, rfl, rfl, rfl⟩
      | some ctl =>
        obtain ⟨i, p, _, -, hpi, hf, rfl⟩ := onPart_eq_some ho
        cases hf
        refine .commit i p rfl (hm.set_commit hpi) (hc ▸ hpi) ?_ ⟨rfl, rfl, rfl, rfl⟩
        rw [← hc]

theorem Sys.Moves.effect [Target] (hm : s.Moves false a s') (h : s.nv.Marked)
    (hc : ∀ p, s.pc ≠ .save p) : s.Effect a s' := by
  have hsound (i : Nat) (p : Part) (hi : s.nv.ctl[i]? = some p) : p.Sound := (h.parts i p hi).sound
  cases hm with
  | read b beyond hp => exact Sys.readStep_effect h hp
  | turn buf hp => exact Sys.turn_effect h hp
  | saveNow hp hc => cases hc
  | signal hp => exact .signal hp
  | saveHere p pc hp hn => exact (hc p hp).elim
  | finish hp =>
    refine .front (by rw [hp]; exact nofun) ⟨rfl, h.parts, nofun⟩ (.refl _) ⟨rfl, rfl, rfl, rfl⟩
  | wait hs => exact .wait hs
  | save p p' hs hn => exact .save p p' _ hs (p.step_does hsound _ s.disk) hn
  | @saved w p hs hn =>
    have hd := p.step_does hsound w s.disk
    generalize p.step w s.nv.ctl s.disk = r at hd hn
    cases hd with
    | ended k hk => exact .saved k hs hk
    | _ => cases hn
  | wake hs => exact .wake hs

theorem Sys.Moves.pc_ne_save [Target] (hm : s.Moves false a s') (hc : ∀ p, s.pc ≠ .save p) :
    ∀ p, s'.pc ≠ .save p := by
  cases hm with
  | read b beyond hp =>
    unfold Sys.readStep
    dsimp only
    split
    · exact nofun
    · rw [hp]
      exact nofun
    · exact nofun
  | turn buf hp =>
    unfold Sys.turn
    split
    · exact nofun
    split
    · exact nofun
    · exact nofun
    · exact nofun
    · split <;> exact nofun
  | saveNow hp hc => cases hc
  | signal hp => exact nofun
  | saveHere p pc hp hn => exact (hc p hp).elim
  | finish hp => exact nofun
  | _ => exact hc

def Each (P : Nat → Part → Prop) (ctl : List Part) : Prop :=
  ∀ (i : Nat) (p : Part), ctl[i]? = some p → P i p

theorem Each.set {ctl : List Part} (h : ∀ (j : Nat) (q : Part), i ≠ j → ctl[j]? = some q → P j q)
    (hi : ctl[i]? = some p) (hp : P i p') : Each P (ctl.set i p') := by
  intro j q hj
  rcases getElem?_set_some hi hj with ⟨rfl, rfl⟩ | ⟨hij, hj⟩
  · exact hp
  · exact h j q hij hj

theorem Pass.Does.kept (hd : Pass.Does w ctl disk p r)
    (hs : ∀ (i : Nat) (p : Part), ctl[i]? = some p → p.Sound) :
    ∀ (i : Nat) (p' : Part), r.ctl[i]? = some p' → ∃ p, ctl[i]? = some p ∧ p.Kept p' := by
  have hsame (i : Nat) (p' : Part) (hi : ctl[i]? = some p') : ∃ p, ctl[i]? = some p ∧ p.Kept p' :=
    ⟨p', hi, (hs i p' hi).kept⟩
  cases hd with
  | get k q hk =>
    refine Each.set (fun j q _ hj => hsame j q hj) hk ⟨q, hk, (hs k q hk).kept_getData⟩
  | write k q hk =>
    refine Each.set (fun j q _ hj => hsame j q hj) hk ⟨q, hk, (hs k q hk).kept_written _⟩
  | _ => exact hsame

theorem Nv.Marked.saved {nv : Nv} (h : nv.Marked) (hd : Pass.Does w nv.ctl disk p r) :
    Nv.Marked { nv with ctl := r.ctl } := by
  have hk := hd.kept fun i p hi => (h.parts i p hi).sound
  refine ⟨h.ofst, ?_, ?_⟩
  · intro i p' hi
    obtain ⟨p, hpi, hkp⟩ := hk i p' hi
    exact (h.parts i p hpi).of_kept hkp
  intro hst hl i p' hid hi
  obtain ⟨p, hpi, hkp⟩ := hk i p' hi
  rw [hkp.fromChannel]
  exact h.data hst hl i p hid hpi

theorem Sys.Effect.marked (he : s.Effect a s') (h : s.nv.Marked) : s'.nv.Marked := by
  cases he with
  | front _ hm => exact hm
  | commit _ _ _ hm => exact hm
  | save p p' r hs hd hn => exact h.saved hd
  | _ => exact h

end SprdVendor.NvItem
