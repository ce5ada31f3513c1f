import SprdVendor.NvItem.WriteBack

namespace SprdVendor.NvItem
open Lib

def Saver.pass : Saver → Option Pass
  | .save p => some p
  | _ => none

def Saver.Covers (t : Saver) (i : Nat) : Prop := ∃ p ∈ t.pass, p.Ahead i

instance (i : Nat) : (p : Pass) → Decidable (p.Ahead i)
  | .check k | .get k => inferInstanceAs (Decidable (k ≤ i))
  | .write k => inferInstanceAs (Decidable (k < i))

instance (t : Saver) (i : Nat) : Decidable (t.Covers i) :=
  inferInstanceAs (Decidable (∃ p ∈ t.pass, p.Ahead i))

instance (s : Sys) (i : Nat) : Decidable (s.DirtyAt i) :=
  inferInstanceAs (Decidable (∃ p ∈ s.nv.ctl[i]?, p.backup.dirty.hasDirty = true))

/-- The signal that is about to be sent finds the save thread waiting, or in a pass that has still
to come to every dirty partition. -/
def Sys.SignalOk (s : Sys) : Act → Prop
  | .sync _ => s.pc = .notify → s.saver = .waiting ∨
      ∀ i < s.nv.ctl.length, s.DirtyAt i → s.saver.Covers i
  | _ => True

instance (s : Sys) : (a : Act) → Decidable (s.SignalOk a)
  | .sync _ => inferInstanceAs (Decidable (s.pc = .notify → s.saver = .waiting ∨
      ∀ i < s.nv.ctl.length, s.DirtyAt i → s.saver.Covers i))
  | .read _ _ | .saver _ | .wake => inferInstanceAs (Decidable True)

def Sys.Unwritten (s : Sys) (i : Nat) : Prop :=
  ∃ p ∈ s.nv.ctl[i]?, p.backup.dirty.hasDirty = true ∨ p.toDisk.dirty.hasDirty = true

instance (s : Sys) (i : Nat) : Decidable (s.Unwritten i) :=
  inferInstanceAs (Decidable (∃ p ∈ s.nv.ctl[i]?,
    p.backup.dirty.hasDirty = true ∨ p.toDisk.dirty.hasDirty = true))

structure Sys.Awake (s : Sys) : Prop where
  marked : s.nv.Marked
  pc : ∀ p, s.pc ≠ .save p
  backup : ∀ i, s.DirtyAt i → s.pc = .notify ∨ s.saver.Covers i
  toDisk : Each (fun i p => p.toDisk.dirty.hasDirty = true → s.saver = .save (.write i)) s.nv.ctl

variable {s s' : Sys}

theorem Sys.DirtyAt.of_fronts (h : s'.DirtyAt i) (hf : Fronts s.nv.ctl s'.nv.ctl) :
    s.DirtyAt i := by
  obtain ⟨p', hp', hd⟩ := h
  obtain ⟨p, hp, -, hb, -⟩ := hf.part i p' hp'
  exact ⟨p, hp, by rw [← hb]; exact hd⟩

theorem Saver.covers_iff (p : Pass) : (Saver.save p).Covers i ↔ p.Ahead i :=
  ⟨fun ⟨_, hp, ha⟩ => Option.some.inj hp ▸ ha, fun ha => ⟨p, rfl, ha⟩⟩

theorem Saver.not_covers_of_quiet {t : Saver} (h : t.Quiet) : ¬t.Covers i := by
  rintro ⟨p, hp, -⟩
  cases t with
  | save q => exact h q rfl
  | _ => cases hp

theorem Pass.Does.dirty_back (hd : Pass.Does w ctl disk p r)
    (hs : ∀ (i : Nat) (p : Part), ctl[i]? = some p → p.Sound) (hi : r.ctl[i]? = some q')
    (hq : q'.backup.dirty.hasDirty = true) :
    ∃ q ∈ ctl[i]?, q.backup.dirty.hasDirty = true ∧ p ≠ .get i := by
  cases hd with
  | get k q hk =>
    rcases getElem?_set_some hk hi with ⟨rfl, rfl⟩ | ⟨hki, hi⟩
    · obtain ⟨c, hc, -⟩ := (hs k q hk).getData
      rw [hc] at hq
      exact nomatch hq.symm.trans DirtyTable.hasDirty_clean
    refine ⟨q', hi, hq, ?_⟩
    intro h
    cases h
    exact hki rfl
  | getNone k hk =>
    refine ⟨q', hi, hq, ?_⟩
    intro h
    cases h
    exact nomatch hk.symm.trans hi
  | write k q hk =>
    rcases getElem?_set_some hk hi with ⟨rfl, rfl⟩ | ⟨-, hi⟩
    · refine ⟨q, hk, ?_, nofun⟩
      unfold Part.written at hq
      split at hq <;> exact hq
    · exact ⟨q', hi, hq, nofun⟩
  | _ => exact ⟨q', hi, hq, nofun⟩

theorem Pass.Does.covers (hd : Pass.Does w ctl disk p r) (hn : r.next = some p')
    (ha : p.Ahead i) (hg : p ≠ .get i) (hi : ∃ q ∈ ctl[i]?, q.backup.dirty.hasDirty = true) :
    p'.Ahead i := by
  rcases hd.ahead hn ha hi with rfl | ⟨ha', -⟩
  · cases hd with
    | get => exact (hg (by cases hn; rfl)).elim
    | getNone => exact (hg (by cases hn; rfl)).elim
    | _ => cases hn
  · exact ha'

theorem Sys.Awake.backup_step (h : s.Awake) (he : s.Effect a s') (ho : s.SignalOk a) :
    ∀ i, s'.DirtyAt i → s'.pc = .notify ∨ s'.saver.Covers i := by
  cases he with
  | front hp hm hf hs =>
    intro i hd
    rw [hs.saver]
    exact .inr ((h.backup i (hd.of_fronts hf)).resolve_left hp)
  | commit k p hp => exact fun i _ => .inl hp
  | signal hp =>
    intro i hd
    have hl : i < s.nv.ctl.length := by
      obtain ⟨p, hi, -⟩ := hd
      exact (List.getElem?_eq_some_iff.1 hi).1
    right
    change (if s.saver = .waiting then Saver.save (.check 0) else s.saver).Covers i
    split
    · exact (Saver.covers_iff _).2 (Nat.zero_le i)
    · rename_i hnw
      exact (ho hp).resolve_left hnw i hl hd
  | wait hs =>
    intro i hd
    have hq : s.saver.Quiet := by
      rw [hs]
      exact nofun
    exact .inl ((h.backup i hd).resolve_right (Saver.not_covers_of_quiet hq))
  | save p p' r hs hdo hn =>
    rintro i ⟨q', hq', hd'⟩
    obtain ⟨q, hq, hd, hg⟩ :=
      hdo.dirty_back (fun i p hi => (h.marked.parts i p hi).sound) hq' hd'
    refine (h.backup i ⟨q, hq, hd⟩).imp_right fun hc => ?_
    rw [hs, Saver.covers_iff] at hc
    exact (Saver.covers_iff p').2 (hdo.covers hn hc hg ⟨q, hq, hd⟩)
  | saved k hs hk =>
    intro i hd
    refine (h.backup i hd).imp_right fun hc => ?_
    rw [hs, Saver.covers_iff] at hc
    obtain ⟨q, hq, -⟩ := hd
    have hl := (List.getElem?_eq_some_iff.1 hq).1
    exact absurd (Nat.le_trans (List.getElem?_eq_none_iff.1 hk) hc) (Nat.not_le_of_lt hl)
  | wake hs => exact fun i _ => .inr ((Saver.covers_iff _).2 (Nat.zero_le i))

theorem Sys.Awake.toDisk_step (h : s.Awake) (he : s.Effect a s') (hw : s.WriteOk a) :
    Each (fun i p => p.toDisk.dirty.hasDirty = true → s'.saver = .save (.write i)) s'.nv.ctl := by
  have hquiet (hq : s.saver.Quiet) (i : Nat) (p : Part) (hi : s.nv.ctl[i]? = some p) :
      ¬p.toDisk.dirty.hasDirty = true :=
    fun hd => hq _ (h.toDisk i p hi hd)
  cases he with
  | front hp hm hf hs =>
    intro i p' hi hd
    obtain ⟨p, hpi, -, -, ht⟩ := hf.part i p' hi
    rw [hs.saver]
    exact h.toDisk i p hpi (by rw [← ht]; exact hd)
  | commit k p hp hm hk hc hs =>
    rw [hc, hs.saver]
    refine Each.set (fun j q _ hj => h.toDisk j q hj) hk ?_
    rw [(h.marked.parts k p hk).commit.2.2.1]
    exact h.toDisk k p hk
  | signal hp =>
    intro i p hi hd
    have hs := h.toDisk i p hi hd
    change (if s.saver = .waiting then Saver.save (.check 0) else s.saver) = _
    rw [if_neg (by rw [hs]; exact nofun)]
    exact hs
  | wait hs =>
    intro i p hi hd
    exact (hquiet (by rw [hs]; exact nofun) i p hi hd).elim
  | wake hs =>
    intro i p hi hd
    exact (hquiet (by rw [hs]; exact nofun) i p hi hd).elim
  | saved k hs hk =>
    intro i p hi hd
    exact nomatch hs.symm.trans (h.toDisk i p hi hd)
  | save p p' r hs hdo hn =>
    have hnone (i : Nat) (q : Part) (hp : p ≠ .write i) (hi : s.nv.ctl[i]? = some q) :
        ¬q.toDisk.dirty.hasDirty = true := by
      intro hd
      cases hs.symm.trans (h.toDisk i q hi hd)
      exact hp rfl
    cases hdo with
    | ended => cases hn
    | dirty k q hk => exact fun i q hi hd => (hnone i q nofun hi hd).elim
    | clean k q hk => exact fun i q hi hd => (hnone i q nofun hi hd).elim
    | get k q hk =>
      cases hn
      exact Each.set (fun j q _ hj hd => (hnone j q nofun hj hd).elim) hk fun _ => rfl
    | getNone k hk => exact fun i q hi hd => (hnone i q nofun hi hd).elim
    | write k q hk =>
      obtain ⟨hw₁, hw₂⟩ := hw k (by rw [hs]; rfl) q hk
      obtain ⟨-, hr⟩ := ramDiskWrite_full hw₁ hw₂ (s.disk k)
      refine Each.set (fun j q hkj hj hd => ?_) hk ?_
      · exact (hnone j q (fun h => hkj (Pass.write.inj h)) hj hd).elim
      · rw [hr]
        exact fun hd => nomatch hd.symm.trans DirtyTable.hasDirty_clean
    | writeNone k hk =>
      intro i q hi hd
      refine (hnone i q ?_ hi hd).elim
      intro h
      cases h
      exact nomatch hk.symm.trans hi

theorem Sys.Awake.step [Target] (h : s.Awake) (hst : s.step false a = some s') (hw : s.WriteOk a)
    (ho : s.SignalOk a) : s'.Awake := by
  have hmv := Sys.step_moves hst
  have he := hmv.effect h.marked h.pc
  exact ⟨he.marked h.marked, hmv.pc_ne_save h.pc, h.backup_step he ho, h.toDisk_step he hw⟩

/-- In every run in which every signal meets `SignalOk` and every `ramDisk_Write` wrote both files
completely, the save thread never waits with committed sectors that were not written and no signal
about to be sent. -/
theorem save_thread_not_left_waiting [Target] (boots : List Boot) (acts : List Act) (s : Sys)
    (hb : ∀ b ∈ boots, b.cfg.imageSize % sectSize = 0)
    (h : Run (Guarded (fun s a => s.WriteOk a ∧ s.SignalOk a) (Sys.step false)) (Sys.start boots)
      acts s) :
    ¬(s.saver = .waiting ∧ s.pc ≠ .notify ∧ ∃ i, s.Unwritten i) := by
  have ha : s.Awake := by
    refine h.invariant (I := fun _ s => s.Awake) ?_ fun _ _ _ _ hs hst =>
      hs.step hst.1 hst.2.1 hst.2.2
    refine ⟨start_marked fun b hm => Boot.tailNeutral_of_sectors (hb b hm), nofun, ?_, ?_⟩
    · rintro i ⟨p, hi, hd⟩
      obtain ⟨b, -, rfl⟩ := start_getElem.1 hi
      exact nomatch hd.symm.trans DirtyTable.hasDirty_clean
    · intro i p hi hd
      obtain ⟨b, -, rfl⟩ := start_getElem.1 hi
      exact nomatch hd.symm.trans DirtyTable.hasDirty_clean
  rintro ⟨hw, hp, i, p, hi, hd | hd⟩
  · have hq : s.saver.Quiet := by
      rw [hw]
      exact nofun
    rcases ha.backup i ⟨p, hi, hd⟩ with hn | hc
    · exact hp hn
    · exact Saver.not_covers_of_quiet hq hc
  · exact nomatch hw.symm.trans (ha.toDisk i p hi hd)

theorem save_thread_not_left_waiting_filled_sector : ∃ s,
    Run (Guarded (fun s a => s.WriteOk a ∧ s.SignalOk a) (@Sys.step arm32 false))
      (@Sys.start arm32 [oneSectorBoot])
      (saverAct :: .read (packetBytes 1 0 (fillSector 7)) (fun _ => 0) ::
        List.replicate 6 syncAct ++ List.replicate 5 saverAct) s ∧
    s.saver = .waiting ∧ ¬(s.saver = .waiting ∧ s.pc ≠ .notify ∧ ∃ i, s.Unwritten i) := by
  refine exists_guarded_imp (P := fun s => s.saver = .waiting) ?_ (by decide +kernel)
  intro s hr hs
  exact ⟨hs, @save_thread_not_left_waiting arm32 [oneSectorBoot] _ s (by decide +kernel) hr⟩

/-- A request that is committed before the save thread waits signals nobody, and then the thread
waits with the sector unwritten. -/
theorem wake_up_is_lost : ∃ s,
    Run (Next (@Sys.step arm32 false)) (@Sys.start arm32 [oneSectorBoot])
      (.read (packetBytes 1 0 (fillSector 7)) (fun _ => 0) ::
        List.replicate 6 syncAct ++ [saverAct]) s ∧
    s.saver = .waiting ∧ s.pc ≠ .notify ∧ s.Unwritten 0 :=
  exists_run_of_exec (by decide +kernel)

end SprdVendor.NvItem
