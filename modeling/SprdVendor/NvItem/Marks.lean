import SprdVendor.NvItem.System
import SprdVendor.NvItem.Turn
import SprdVendor.NvItem.BufSound

namespace SprdVendor.NvItem
open Lib Option

/-- A change that has not been committed has left a dirty bit. -/
structure Part.Marked (p : Part) : Prop where
  sound : p.Sound
  dirty : p.fromImage ≠ p.backupImage → p.fromChannel.dirty.hasDirty = true

structure Nv.Marked (nv : Nv) : Prop where
  ofst : nv.sync.ofst = 0
  parts : ∀ (i : Nat) (p : Part), nv.ctl[i]? = some p → p.Marked
  data : nv.sync.state = .data → 0 < nv.sync.len → ∀ (i : Nat) (p : Part), nv.sync.id = some i →
    nv.ctl[i]? = some p → p.fromChannel.dirty.hasDirty = true

structure Fronts (ctl ctl' : List Part) : Prop where
  length : ctl'.length = ctl.length
  part : ∀ (i : Nat) (p' : Part), ctl'[i]? = some p' → ∃ p : Part, ctl[i]? = some p ∧
    p'.key = p.key ∧ p'.backup = p.backup ∧ p'.toDisk = p.toDisk

theorem Fronts.refl (ctl : List Part) : Fronts ctl ctl :=
  ⟨rfl, fun _ p hp => ⟨p, hp, rfl, rfl, rfl⟩⟩

variable {nv : Nv} {ctl ctl' : List Part}

theorem Part.Marked.restoreData {p : Part} (h : p.Marked) :
    p.restoreData.Marked ∧ p.restoreData.key = p.key ∧ p.restoreData.backup = p.backup ∧
      p.restoreData.toDisk = p.toDisk := by
  obtain ⟨c, hc, hs, hi, -⟩ := h.sound.restoreData
  rw [hc]
  exact ⟨⟨⟨hs, h.sound.backup, h.sound.toDisk⟩, fun hn => (hn hi).elim⟩, rfl, rfl, rfl⟩

theorem Part.Marked.markDirtyInfo [Target] {p p' : Part} (h : p.Marked)
    (hm : p.markDirtyInfo start num = some p') :
    p'.Marked ∧ (0 < num → p'.fromChannel.dirty.hasDirty = true) ∧ p'.key = p.key ∧
      p'.backup = p.backup ∧ p'.toDisk = p.toDisk := by
  obtain ⟨t, ht, rfl⟩ := Part.markDirtyInfo_spec hm
  refine ⟨⟨h.sound.setDirty t, fun hn => ?_⟩, DirtyTable.markDirtyInfo_hasDirty ht, rfl, rfl, rfl⟩
  exact DirtyTable.markDirtyInfo_mono ht (h.dirty hn)

theorem Part.Marked.writeData {p p' : Part} (h : p.Marked)
    (hd : d ≠ [] → p.fromChannel.dirty.hasDirty = true) (hw : p.writeData start d = some p') :
    p'.Marked ∧ p'.fromChannel.dirty = p.fromChannel.dirty ∧ p'.key = p.key ∧
      p'.backup = p.backup ∧ p'.toDisk = p.toDisk := by
  obtain ⟨hs, hdir, hb, ht, hk⟩ := h.sound.of_writeData hw
  refine ⟨⟨hs, fun hn => ?_⟩, hdir, hk, hb, ht⟩
  rw [hdir]
  by_cases hnil : d = []
  · subst hnil
    cases hw
    exact h.dirty hn
  · exact hd hnil

theorem Part.Marked.commit {p : Part} (h : p.Marked) :
    p.commit.Marked ∧ p.commit.key = p.key ∧ p.commit.toDisk = p.toDisk ∧
      (p.commit.backupImage = p.backupImage ∨ p.commit.backup.dirty.hasDirty = true) ∧
      (p.backup.dirty.hasDirty = true → p.commit.backup.dirty.hasDirty = true) := by
  obtain ⟨c, hc, hs, hi, hd⟩ := h.sound.commit
  rw [hc]
  refine ⟨⟨⟨h.sound.fromChannel, hs, h.sound.toDisk⟩, fun hn => (hn hi.symm).elim⟩, rfl, rfl, ?_, ?_⟩
  · by_cases he : p.fromImage = p.backupImage
    · exact .inl (hi.trans he)
    · right
      rw [hd, DirtyTable.hasDirty_union, h.dirty he, Bool.or_true]
  · intro hb
    rw [hd, DirtyTable.hasDirty_union, hb, Bool.true_or]

theorem Part.Marked.of_kept {p p' : Part} (h : p.Marked) (hk : p.Kept p') : p'.Marked := by
  refine ⟨hk.sound, ?_⟩
  rw [hk.fromImage, hk.backupImage, hk.fromChannel]
  exact h.dirty

theorem onPart_fronts (h : onPart ctl k f = some ctl')
    (hm : ∀ (i : Nat) (p : Part), ctl[i]? = some p → p.Marked)
    (hf : ∀ (i : Nat) (p p' : Part), k = some i → ctl[i]? = some p → f p = some p' → p.Marked →
      p'.Marked ∧ p'.key = p.key ∧ p'.backup = p.backup ∧ p'.toDisk = p.toDisk) :
    (∀ (i : Nat) (p : Part), ctl'[i]? = some p → p.Marked) ∧ Fronts ctl ctl' := by
  refine ⟨?_, ?_, ?_⟩
  · intro i p' hp'
    obtain ⟨p, hp, rfl | ⟨hk, hfp⟩⟩ := onPart_getElem h hp'
    · exact hm i _ hp
    · exact (hf i p p' hk hp hfp (hm i p hp)).1
  · obtain ⟨i, p, p', -, -, -, rfl⟩ := onPart_eq_some h
    exact List.length_set
  intro i p' hp'
  obtain ⟨p, hp, rfl | ⟨hk, hfp⟩⟩ := onPart_getElem h hp'
  · exact ⟨_, hp, rfl, rfl, rfl⟩
  · exact ⟨p, hp, (hf i p p' hk hp hfp (hm i p hp)).2⟩

inductive Marks (nv : Nv) : Iter → Prop where
  | next (hm : nv'.Marked) (hf : Fronts nv.ctl nv'.ctl) : Marks nv (.next nv' buf' evs)
  | brk (hm : nv'.Marked) (hf : Fronts nv.ctl nv'.ctl) : Marks nv (.brk nv' evs)
  | done (hm : nv'.Marked) (hc : nv'.ctl = nv.ctl) : Marks nv (.done nv')

theorem iter_marks [Target] {buf : List UInt8} (h : nv.Marked) (hb : buf ≠ [])
    (hi : iter nv buf = some o) : Marks nv o := by
  have ht := iter_turn h.ofst hb
  rw [hi] at ht
  generalize hx : some o = x at ht
  cases ht with
  | short hs hl =>
    cases hx
    exact .brk h (.refl _)
  | head i hs hl ht hid =>
    cases hx
    exact .next ⟨rfl, h.parts, nofun⟩ (.refl _)
  | badHead hs hl hbad =>
    cases hx
    exact .brk ⟨rfl, h.parts, nofun⟩ (.refl _)
  | body hs hl ht hid =>
    obtain ⟨ctl', hc, rfl⟩ := map_eq_some_iff.1 hx.symm
    obtain ⟨hp, hf⟩ := onPart_fronts hc h.parts fun i p p' _ _ hfp hm =>
      have hmd := hm.markDirtyInfo hfp
      ⟨hmd.1, hmd.2.2⟩
    refine .next ⟨rfl, hp, ?_⟩ hf
    intro _ hlen i p' hid' hp'
    have hnum : 0 < bodyNum buf := by
      by_contra hz
      have hz' : bodyNum buf = 0 := by omega
      rw [hz', zero_mul] at hlen
      exact lt_irrefl 0 hlen
    obtain ⟨q, hq, hfq⟩ : ∃ q, nv.ctl[i]? = some q ∧
        q.markDirtyInfo (bodyStart buf) (bodyNum buf) = some p' := by
      obtain ⟨j, q, q', hj, hq, hfq, rfl⟩ := onPart_eq_some hc
      cases hj.symm.trans hid'
      have hl := (List.getElem?_eq_some_iff.1 hq).1
      rw [List.getElem?_set_self hl] at hp'
      cases hp'
      exact ⟨q, hq, hfq⟩
    exact ((h.parts i q hq).markDirtyInfo hfq).2.1 hnum
  | tail hs hl ht hid =>
    cases hx
    refine .done ⟨rfl, h.parts, ?_⟩ rfl
    intro hst
    cases hs.symm.trans hst
  | badBody hs hl hbad =>
    obtain ⟨ctl', hc, rfl⟩ := map_eq_some_iff.1 hx.symm
    obtain ⟨hp, hf⟩ := onPart_fronts hc h.parts fun i p p' _ _ hfp hm => by
      cases hfp
      exact hm.restoreData
    exact .brk ⟨rfl, hp, nofun⟩ hf
  | dataAll hs hl =>
    obtain ⟨ctl', hc, rfl⟩ := map_eq_some_iff.1 hx.symm
    obtain ⟨hp, hf⟩ := onPart_fronts hc h.parts fun i p p' hid hpi hfp hm => by
      have hd : buf.take nv.sync.len ≠ [] → p.fromChannel.dirty.hasDirty = true := by
        intro hn
        refine h.data hs (pos_of_ne_zero fun hz => hn ?_) i p hid hpi
        rw [hz, List.take_zero]
      have hw := hm.writeData hd hfp
      exact ⟨hw.1, hw.2.2⟩
    exact .next ⟨h.ofst, hp, nofun⟩ hf
  | dataSome hs hl =>
    obtain ⟨ctl', hc, rfl⟩ := map_eq_some_iff.1 hx.symm
    have hpos : 0 < nv.sync.len := Nat.zero_lt_of_lt hl
    have hwr {i : Nat} {p p' : Part} (hid : nv.sync.id = some i) (hpi : nv.ctl[i]? = some p)
        (hfp : p.writeData nv.sync.start buf = some p') :=
      (h.parts i p hpi).writeData (fun _ => h.data hs hpos i p hid hpi) hfp
    obtain ⟨hp, hf⟩ := onPart_fronts hc h.parts fun i p p' hid hpi hfp _ =>
      have hw := hwr hid hpi hfp
      ⟨hw.1, hw.2.2⟩
    refine .brk ⟨h.ofst, hp, ?_⟩ hf
    intro _ _ i p' hid' hp'
    obtain ⟨p, hpi, rfl | ⟨-, hfp⟩⟩ := onPart_getElem hc hp'
    · exact h.data hs hpos i _ hid' hpi
    · rw [(hwr hid' hpi hfp).2.1]
      exact h.data hs hpos i p hid' hpi

theorem syncFailReset_marks (h : nv.Marked) (hr : syncFailReset nv = some nv') :
    (∀ (i : Nat) (p : Part), nv'.ctl[i]? = some p → p.Marked) ∧ Fronts nv.ctl nv'.ctl ∧
      nv'.sync = nv.sync.init := by
  unfold syncFailReset at hr
  split at hr
  · cases hr
    exact ⟨h.parts, .refl _, rfl⟩
  obtain ⟨ctl', hc, rfl⟩ := map_eq_some_iff.1 hr
  obtain ⟨hp, hf⟩ := onPart_fronts hc h.parts fun i p p' _ _ hfp hm => by
    cases hfp
    exact hm.restoreData
  exact ⟨hp, hf, rfl⟩

theorem Nv.Marked.setBusy (h : nv.Marked) : nv.setBusy.Marked := ⟨h.ofst, h.parts, h.data⟩

inductive TakenMarks (nv : Nv) : Accept → Prop where
  | again (hm : nv'.Marked) (hf : Fronts nv.ctl nv'.ctl) : TakenMarks nv (.again nv' evs)
  | parse (hm : nv'.Marked) (hf : Fronts nv.ctl nv'.ctl) : TakenMarks nv (.parse nv' buf)

theorem accept_marks (h : nv.Marked) (ha : accept nv p = some a) : TakenMarks nv a := by
  have ht := accept_takes nv p
  rw [ha] at ht
  generalize hx : some a = x at ht
  cases ht with
  | fail =>
    obtain ⟨nv₁, hr, rfl⟩ := map_eq_some_iff.1 hx.symm
    obtain ⟨hp, hf, hs⟩ := syncFailReset_marks h hr
    exact .again ⟨rfl, hp, nofun⟩ hf
  | skip =>
    cases hx
    exact .again h (.refl _)
  | restart hb =>
    obtain ⟨nv₁, hr, rfl⟩ := map_eq_some_iff.1 hx.symm
    obtain ⟨hp, hf, hs⟩ := syncFailReset_marks h hr
    have hm : nv₁.Marked := by
      refine ⟨by rw [hs]; rfl, hp, ?_⟩
      rw [hs]
      exact nofun
    exact .parse hm.setBusy hf
  | stray hb =>
    cases hx
    exact .again h (.refl _)
  | _ =>
    cases hx
    exact .parse h.setBusy (.refl _)

end SprdVendor.NvItem
