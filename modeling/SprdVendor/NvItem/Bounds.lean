import SprdVendor.NvItem.System
import SprdVendor.NvItem.Turn
import SprdVendor.NvItem.BufSound

namespace SprdVendor.NvItem
open Lib List Option

def Ev.InBounds (keys : List (Nat × Nat)) : Ev → Prop
  | .mark _ start num => start < tableSectors ∧ start + num ≤ tableSectors
  | .copy id start d => ∃ k, keys[id]? = some k ∧ start + d.length ≤ sectSize * k.2
  | _ => True

def Part.Room (p : Part) : Prop := p.bytes ≤ p.fromChannel.diskbuf.length
deriving Decidable

structure Nv.Bounded (keys : List (Nat × Nat)) (nv : Nv) : Prop where
  ofst : nv.sync.ofst = 0
  map_key : nv.keys = keys
  room : ∀ p ∈ nv.ctl, p.Room
  owner : nv.sync.state ≠ .head → ∃ i, nv.sync.id = some i ∧ i < keys.length
  data : nv.sync.state = .data → ∀ i k, nv.sync.id = some i → keys[i]? = some k →
    nv.sync.start + nv.sync.len ≤ sectSize * k.2 ∧ nv.sync.start + nv.sync.len < 2 ^ 32

def Nv.BodyFits (nv : Nv) (buf : List UInt8) : Prop :=
  nv.sync.state = .body → reqSize ≤ buf.length → packetType buf = syncReqBody →
    reqIdx buf = u32 (nv.sync.reqFrame + 1) →
    RangeFits nv.keys (nv.sync.id.getD 0, bodyStart buf, bodyNum buf)
deriving Decidable

variable {keys : List (Nat × Nat)} {nv : Nv} {ctl ctl' : List Part}

theorem Part.Room.markDirtyInfo [Target] {p p' : Part} (hr : p.Room)
    (h : p.markDirtyInfo start scts = some p') : p'.Room := by
  obtain ⟨t, -, rfl⟩ := Part.markDirtyInfo_spec h
  exact hr

theorem Part.Room.writeData {p : Part} (hr : p.Room) (h : start + d.length ≤ p.bytes) :
    ∃ p', p.writeData start d = some p' ∧ p'.Room := by
  have hl : start + d.length ≤ p.fromChannel.diskbuf.length := le_trans h hr
  by_cases hd : d.length ≠ 0
  · by_cases he : p.fromChannel.chkNVBufEcc p.bytes = true
    · refine ⟨_, by rw [Part.writeData, if_pos hd, if_pos he, if_pos hl], ?_⟩
      change p.bytes ≤ (patch p.fromChannel.diskbuf start d).length
      rw [length_patch _ _ hl]
      exact hr
    · exact ⟨p, by rw [Part.writeData, if_pos hd, if_neg he], hr⟩
  · exact ⟨p, by rw [Part.writeData, if_neg hd], hr⟩

theorem Part.Room.restoreData {p : Part} (hr : p.Room) : p.restoreData.Room := by
  unfold Part.restoreData
  split
  · have hl : 0 + (p.backup.image p.bytes).length ≤ p.fromChannel.diskbuf.length := by
      rw [BufCtrl.image, length_take]
      exact le_trans (by omega) hr
    change p.bytes ≤ (patch p.fromChannel.diskbuf 0 (p.backup.image p.bytes)).length
    rw [length_patch _ _ hl]
    exact hr
  · exact hr

theorem Part.Room.of_fromChannel {p p' : Part} (hr : p.Room) (hk : p'.key = p.key)
    (hf : p'.fromChannel = p.fromChannel) : p'.Room := by
  unfold Part.Room
  rw [hf, Part.bytes_of_key hk]
  exact hr

theorem Part.getData_front (p : Part) :
    p.getData.key = p.key ∧ p.getData.fromChannel = p.fromChannel := by
  unfold Part.getData
  split <;> exact ⟨rfl, rfl⟩

theorem Part.written_front (p : Part) (ok : Bool) :
    (p.written ok).key = p.key ∧ (p.written ok).fromChannel = p.fromChannel := by
  unfold Part.written
  split <;> exact ⟨rfl, rfl⟩

structure Roomy (keys : List (Nat × Nat)) (ctl : List Part) : Prop where
  map_key : ctl.map Part.key = keys
  room : ∀ p ∈ ctl, p.Room

theorem Roomy.set (h : Roomy keys ctl) (hi : ctl[i]? = some p) (hk : p'.key = p.key)
    (hr : p'.Room) : Roomy keys (ctl.set i p') where
  map_key := (map_key_set hi hk).trans h.map_key
  room q hq := by
    rcases mem_or_eq_of_mem_set hq with hq | rfl
    · exact h.room q hq
    · exact hr

theorem Roomy.getElem (h : Roomy keys ctl) (hi : i < keys.length) :
    ∃ p, ctl[i]? = some p ∧ keys[i]? = some p.key ∧ p.Room := by
  rw [← h.map_key, length_map] at hi
  refine ⟨ctl[i], getElem?_eq_getElem hi, ?_, h.room _ (getElem_mem hi)⟩
  rw [← h.map_key, getElem?_map, getElem?_eq_getElem hi, map_some]

theorem Roomy.onPart (h : Roomy keys ctl) (hi : i < keys.length)
    (hf : ∀ p, ctl[i]? = some p → keys[i]? = some p.key → p.Room →
      ∃ p', f p = some p' ∧ p'.key = p.key ∧ p'.Room) :
    ∃ ctl', onPart ctl (some i) f = some ctl' ∧ Roomy keys ctl' := by
  obtain ⟨p, hp, hk, hr⟩ := h.getElem hi
  obtain ⟨p', hfp, hk', hr'⟩ := hf p hp hk hr
  exact ⟨_, onPart_some hp hfp, h.set hp hk' hr'⟩

theorem Roomy.passStep (h : Roomy keys ctl) (p : Pass) (w : WriteRes × WriteRes)
    (disk : Nat → Disk) : Roomy keys (p.step w ctl disk).ctl := by
  have hset {id : Nat} {q q' : Part} (hi : ctl[id]? = some q)
      (hq : q'.key = q.key ∧ q'.fromChannel = q.fromChannel) : Roomy keys (ctl.set id q') :=
    h.set hi hq.1 ((h.room q (mem_of_getElem? hi)).of_fromChannel hq.1 hq.2)
  cases p with
  | check id =>
    rw [Pass.step]
    split <;> exact h
  | get id =>
    rw [Pass.step]
    split
    · exact h
    · rename_i q hi
      exact hset hi q.getData_front
  | write id =>
    rw [Pass.step]
    split
    · exact h
    rename_i q hi
    split
    · exact hset hi (q.written_front _)
    · exact h

theorem Nv.Bounded.roomy (h : nv.Bounded keys) : Roomy keys nv.ctl := ⟨h.map_key, h.room⟩

theorem Nv.Bounded.of_init (h : Roomy keys ctl) (s : Sync) (g n : Nat) :
    Nv.Bounded keys ⟨ctl, s.init, g, n⟩ :=
  ⟨rfl, h.map_key, h.room, fun hs => (hs rfl).elim, nofun⟩

theorem copies_inBounds (hk : keys[i]? = some k) (hl : start + d.length ≤ sectSize * k.2) :
    ∀ e ∈ copies ctl (some i) start d, e.InBounds keys := by
  intro e he
  unfold copies at he
  split at he
  · cases he
  split at he
  · cases mem_singleton.1 he
    exact ⟨k, hk, hl⟩
  · cases he

inductive Keeps (keys : List (Nat × Nat)) : Iter → Prop where
  | next (hn : nv'.Bounded keys) (he : ∀ e ∈ evs, Ev.InBounds keys e) :
      Keeps keys (.next nv' buf' evs)
  | brk (hn : nv'.Bounded keys) (he : ∀ e ∈ evs, Ev.InBounds keys e) : Keeps keys (.brk nv' evs)
  | done (i : Nat) (hn : nv'.Bounded keys) (hi : i < keys.length) (hid : nv'.sync.id = some i) :
      Keeps keys (.done nv')

theorem forall_mem_rsp (keys : List (Nat × Nat)) (b : Nat) : ∀ e ∈ [Ev.rsp b], e.InBounds keys := by
  intro e he
  cases mem_singleton.1 he
  trivial

theorem forall_mem_fail (keys : List (Nat × Nat)) (b : Nat) :
    ∀ e ∈ [Ev.fail, Ev.rsp b], e.InBounds keys := by
  intro e he
  rcases mem_cons.1 he with rfl | he
  · trivial
  · exact forall_mem_rsp keys b e he

theorem iter_keeps [Target] {buf : List UInt8} (h : nv.Bounded keys) (hb : buf ≠ [])
    (hf : nv.BodyFits buf) : ∃ o, iter nv buf = some o ∧ Keeps keys o := by
  have ht := iter_turn h.ofst hb
  generalize iter nv buf = x at ht
  cases ht with
  | short hs hl => exact ⟨_, rfl, .brk h (forall_mem_rsp keys 1)⟩
  | head i hs hl ht hi =>
    refine ⟨_, rfl, .next ⟨rfl, h.map_key, h.room, fun _ => ⟨i, rfl, ?_⟩, ?_⟩
      (forall_mem_nil _)⟩
    · have hlt := getCtlId_lt hi
      rwa [← length_map (f := Part.key), h.roomy.map_key] at hlt
    · intro hst
      cases hst
  | badHead hs hl hbad =>
    exact ⟨_, rfl, .brk (.of_init h.roomy _ _ _) (forall_mem_fail keys 0)⟩
  | body hs hl ht hi =>
    obtain ⟨i, hid, hik⟩ := h.owner (by rw [hs]; decide)
    have hfit := hf hs hl ht hi
    rw [hid, h.map_key] at hfit
    obtain ⟨k, hk, hle, hst, htab⟩ := hfit
    have hfp (p : Part) (_ : nv.ctl[i]? = some p) (_ : keys[i]? = some p.key) (hr : p.Room) :
        ∃ p', p.markDirtyInfo (bodyStart buf) (bodyNum buf) = some p' ∧ p'.key = p.key ∧
          p'.Room := by
      obtain ⟨t, hm⟩ := isSome_iff_exists.1
        ((p.fromChannel.dirty.markDirtyInfo_isSome_iff _ _).2 ⟨hst, htab⟩)
      have hpm : p.markDirtyInfo (bodyStart buf) (bodyNum buf) =
          some { p with fromChannel := { p.fromChannel with dirty := t } } := by
        rw [Part.markDirtyInfo, hm, map_some]
      exact ⟨_, hpm, rfl, hr.markDirtyInfo hpm⟩
    obtain ⟨ctl', hc, hr'⟩ := h.roomy.onPart hik hfp
    rw [hid, hc, map_some]
    refine ⟨_, rfl, .next ⟨rfl, hr'.map_key, hr'.room, fun _ => ⟨i, hid, hik⟩, ?_⟩ ?_⟩
    · intro _ i' k' hi' hk'
      cases hid.symm.trans hi'
      cases hk.symm.trans hk'
      have hsum : bodyStart buf * sectSize + bodyNum buf * sectSize ≤ sectSize * k.2 := by
        rw [← add_mul, mul_comm]
        exact Nat.mul_le_mul_left _ hle
      have hlt : bodyStart buf * sectSize + bodyNum buf * sectSize < 2 ^ 32 := by
        rw [← add_mul]
        simp only [tableSectors, dirtyTableMaxSize, sectSize] at htab ⊢
        omega
      dsimp only
      rw [u32_of_lt (by omega), u32_of_lt (by omega)]
      exact ⟨hsum, hlt⟩
    · intro e he
      cases mem_singleton.1 he
      exact ⟨hst, htab⟩
  | tail hs hl ht hi =>
    obtain ⟨i, hid, hik⟩ := h.owner (by rw [hs]; decide)
    refine ⟨_, rfl, .done i ⟨rfl, h.map_key, h.room, fun _ => ⟨i, hid, hik⟩, ?_⟩ hik hid⟩
    intro hst
    cases hs.symm.trans hst
  | badBody hs hl hbad =>
    obtain ⟨i, hid, hik⟩ := h.owner (by rw [hs]; decide)
    obtain ⟨ctl', hc, hr'⟩ := h.roomy.onPart hik fun p _ _ hr =>
      ⟨p.restoreData, rfl, p.restoreData_key, hr.restoreData⟩
    rw [hid, hc, map_some]
    exact ⟨_, rfl, .brk (.of_init hr' _ _ _) (forall_mem_fail keys 0)⟩
  | dataAll hs hl =>
    obtain ⟨i, hid, hik⟩ := h.owner (by rw [hs]; decide)
    obtain ⟨hle, hlt⟩ := h.data hs i keys[i] hid (getElem?_eq_getElem hik)
    have htl : (buf.take nv.sync.len).length = nv.sync.len := by
      rw [length_take]
      omega
    obtain ⟨ctl', hc, hr'⟩ := h.roomy.onPart hik fun p _ hk hr => by
      have hp : nv.sync.start + nv.sync.len ≤ p.bytes := (h.data hs i p.key hid hk).1
      rw [← htl] at hp
      obtain ⟨p', hp', hr'⟩ := hr.writeData hp
      exact ⟨p', hp', Part.writeData_key hp', hr'⟩
    rw [hid, hc, map_some]
    refine ⟨_, rfl, .next ⟨h.ofst, hr'.map_key, hr'.room, fun _ => ⟨i, hid, hik⟩, ?_⟩ ?_⟩
    · intro hst
      cases hst
    · exact copies_inBounds (getElem?_eq_getElem hik) (by rw [htl]; exact hle)
  | dataSome hs hl =>
    obtain ⟨i, hid, hik⟩ := h.owner (by rw [hs]; decide)
    obtain ⟨hle, hlt⟩ := h.data hs i keys[i] hid (getElem?_eq_getElem hik)
    obtain ⟨ctl', hc, hr'⟩ := h.roomy.onPart hik fun p _ hk hr => by
      have hp : nv.sync.start + nv.sync.len ≤ p.bytes := (h.data hs i p.key hid hk).1
      obtain ⟨p', hp', hr'⟩ := hr.writeData (show nv.sync.start + buf.length ≤ p.bytes by omega)
      exact ⟨p', hp', Part.writeData_key hp', hr'⟩
    rw [hid, hc, map_some]
    refine ⟨_, rfl, .brk ⟨h.ofst, hr'.map_key, hr'.room, fun _ => ⟨i, hid, hik⟩, ?_⟩ ?_⟩
    · intro _ i' k' hi' hk'
      cases hid.symm.trans hi'
      cases (getElem?_eq_getElem hik).symm.trans hk'
      dsimp only
      rw [u32_of_lt (by omega)]
      omega
    · refine forall_mem_append.2 ⟨?_, forall_mem_rsp keys 1⟩
      exact copies_inBounds (getElem?_eq_getElem hik) (le_trans (by omega) hle)

variable {s s' : Sys}

structure Sys.Bounded (keys : List (Nat × Nat)) (s : Sys) : Prop where
  pc : s.pc ≠ .crashed
  nv : s.nv.Bounded keys
  evs : ∀ e ∈ s.evs, e.InBounds keys

def Pc.rest : Pc → Option (List UInt8)
  | .parse buf => some buf
  | _ => none

/-- The turn that is about to be made accepts no body range that does not fit. -/
def Sys.TurnOk (s : Sys) : Act → Prop
  | .sync _ => ∀ buf ∈ s.pc.rest, s.nv.BodyFits buf
  | _ => True

instance (s : Sys) : (a : Act) → Decidable (s.TurnOk a)
  | .sync _ => inferInstanceAs (Decidable (∀ buf ∈ s.pc.rest, s.nv.BodyFits buf))
  | .read _ _ | .saver _ | .wake => inferInstanceAs (Decidable True)

theorem Sys.Bounded.turn [Target] (h : s.Bounded keys)
    (hf : s.nv.BodyFits buf) : (s.turn buf).Bounded keys := by
  have happ {evs : List Ev} (he : ∀ e ∈ evs, e.InBounds keys) :
      ∀ e ∈ s.evs ++ evs, e.InBounds keys :=
    forall_mem_append.2 ⟨h.evs, he⟩
  unfold Sys.turn
  by_cases hb : buf = []
  · rw [if_pos hb]
    exact ⟨nofun, h.nv, h.evs⟩
  rw [if_neg hb]
  obtain ⟨o, ho, hk⟩ := iter_keeps h.nv hb hf
  rw [ho]
  cases hk with
  | next hn he => exact ⟨nofun, hn, happ he⟩
  | brk hn he => exact ⟨nofun, hn, happ he⟩
  | done i hn hi hid =>
    obtain ⟨ctl', hc, hr'⟩ := hn.roomy.onPart hi fun p _ _ hr =>
      ⟨p.commit, rfl, p.commit_key, hr.of_fromChannel p.commit_key p.commit_fromChannel⟩
    dsimp only
    rw [hid, hc]
    refine ⟨nofun, ⟨hn.ofst, hr'.map_key, hr'.room, hn.owner, hn.data⟩, happ ?_⟩
    intro e he
    cases mem_singleton.1 he
    trivial

theorem syncFailReset_bounded (h : nv.Bounded keys) :
    ∃ nv', syncFailReset nv = some nv' ∧ Roomy keys nv'.ctl ∧ nv'.sync = nv.sync.init := by
  unfold syncFailReset
  by_cases hs : nv.sync.state = .head
  · rw [if_pos hs]
    exact ⟨_, rfl, h.roomy, rfl⟩
  rw [if_neg hs]
  obtain ⟨i, hid, hik⟩ := h.owner hs
  obtain ⟨ctl', hc, hr'⟩ := h.roomy.onPart hik fun p _ _ hr =>
    ⟨p.restoreData, rfl, p.restoreData_key, hr.restoreData⟩
  rw [hid, hc]
  exact ⟨_, rfl, hr', rfl⟩

theorem Nv.Bounded.setBusy (h : nv.Bounded keys) : nv.setBusy.Bounded keys :=
  ⟨h.ofst, h.map_key, h.room, h.owner, h.data⟩

theorem Nv.Bounded.getPacket (h : nv.Bounded keys) (b : List UInt8) (beyond : Nat → UInt8) :
    (NvItem.getPacket nv b beyond).2.Bounded keys := by
  obtain ⟨hc, hs⟩ := getPacket_nv nv b beyond
  refine ⟨by rw [hs]; exact h.ofst, by rw [Nv.keys, hc]; exact h.map_key, by rw [hc]; exact h.room,
    by rw [hs]; exact h.owner, by rw [hs]; exact h.data⟩

inductive TakenIn (keys : List (Nat × Nat)) : Accept → Prop where
  | again (hn : nv'.Bounded keys) (he : ∀ e ∈ evs, Ev.InBounds keys e) :
      TakenIn keys (.again nv' evs)
  | parse (hn : nv'.Bounded keys) : TakenIn keys (.parse nv' buf)

theorem accept_bounded (h : nv.Bounded keys) (p : Packet) :
    ∃ a, accept nv p = some a ∧ TakenIn keys a := by
  obtain ⟨nv', hn, hr, hsy⟩ := syncFailReset_bounded h
  have hinit : nv'.Bounded keys := by
    have hi := Nv.Bounded.of_init hr nv.sync nv'.idxGrp nv'.idxSub
    rwa [← hsy] at hi
  have ht := accept_takes nv p
  generalize accept nv p = x at ht
  cases ht with
  | fail =>
    rw [hn]
    exact ⟨_, rfl, .again (.of_init hr _ _ _) nofun⟩
  | skip => exact ⟨_, rfl, .again h nofun⟩
  | restart =>
    rw [hn]
    exact ⟨_, rfl, .parse hinit.setBusy⟩
  | stray => exact ⟨_, rfl, .again h (forall_mem_rsp keys 0)⟩
  | _ => exact ⟨_, rfl, .parse h.setBusy⟩

theorem Sys.Bounded.readStep (h : s.Bounded keys) (hp : s.pc = .poll) (b : List UInt8)
    (beyond : Nat → UInt8) : (s.readStep b beyond).Bounded keys := by
  have hg := h.nv.getPacket b beyond
  obtain ⟨a, ha, hk⟩ := accept_bounded hg (NvItem.getPacket s.nv b beyond).1
  unfold Sys.readStep
  dsimp only
  rw [ha]
  cases hk with
  | again hn he =>
    exact ⟨by rw [hp]; exact nofun, hn, forall_mem_append.2 ⟨h.evs, he⟩⟩
  | parse hn => exact ⟨nofun, hn, h.evs⟩

theorem Nv.Bounded.passStep (h : nv.Bounded keys) (p : Pass) (w : WriteRes × WriteRes)
    (disk : Nat → Disk) : Nv.Bounded keys { nv with ctl := (p.step w nv.ctl disk).ctl } :=
  have hr := h.roomy.passStep p w disk
  ⟨h.ofst, hr.map_key, hr.room, h.owner, h.data⟩

theorem Sys.Moves.bounded [Target] (hm : s.Moves cali a s') (ho : s.TurnOk a)
    (h : s.Bounded keys) : s'.Bounded keys := by
  cases hm with
  | read b beyond hp => exact h.readStep hp b beyond
  | turn buf hp => exact h.turn (ho buf (by rw [hp]; rfl))
  | saveNow hp => exact ⟨nofun, h.nv, h.evs⟩
  | signal hp => exact ⟨nofun, h.nv, h.evs⟩
  | saveHere p pc hp hn =>
    refine ⟨?_, h.nv.passStep p _ s.disk, h.evs⟩
    rcases hn with rfl | ⟨p', rfl⟩
    · exact nofun
    · exact nofun
  | finish hp =>
    refine ⟨nofun, .of_init h.nv.roomy _ _ _, ?_⟩
    exact forall_mem_append.2 ⟨h.evs, forall_mem_rsp keys 1⟩
  | save p p' => exact ⟨h.pc, h.nv.passStep p _ s.disk, h.evs⟩
  | _ => exact ⟨h.pc, h.nv, h.evs⟩

theorem start_bounded [Target] (boots : List Boot) : (Sys.start boots).Bounded (bootKeys boots) := by
  refine ⟨nofun, ⟨rfl, start_keys boots, ?_, fun hs => (hs rfl).elim, nofun⟩, nofun⟩
  intro p hp
  obtain ⟨c, hc, rfl⟩ := mem_map.1 hp
  obtain ⟨b, -, rfl⟩ := mem_map.1 hc
  change sectSize * (b.cfg.imageSize / sectSize) ≤ (b.read.1 ++ b.spare).length
  rw [length_append, Boot.read, length_ramDiskRead]
  exact Nat.le_trans (Nat.mul_div_le _ _) (Nat.le_add_right _ _)

/-- As long as no body range that does not fit is accepted, every copy stays inside the image of its
partition and every mark inside the dirty table. -/
theorem writes_stay_in_bounds [Target] (cali : Bool) (boots : List Boot) (acts : List Act)
    (s : Sys) (h : Run (Guarded Sys.TurnOk (Sys.step cali)) (Sys.start boots) acts s) :
    s.pc ≠ .crashed ∧ ∀ e ∈ s.evs, e.InBounds (bootKeys boots) := by
  have hb : s.Bounded (bootKeys boots) :=
    h.invariant (I := fun _ s => s.Bounded (bootKeys boots)) (start_bounded boots)
      fun _ _ _ _ hs hst => (Sys.step_moves hst.1).bounded hst.2 hs
  exact ⟨hb.pc, hb.evs⟩

theorem filled_sector_stays_in_bounds : ∃ s,
    Run (Guarded Sys.TurnOk (@Sys.step arm32 false)) (@Sys.start arm32 [oneSectorBoot])
      (.read (packetBytes 1 0 (fillSector 7)) (fun _ => 0) :: List.replicate 3 syncAct) s ∧
    s.pc ≠ .crashed ∧ ∀ e ∈ s.evs, e.InBounds (bootKeys [oneSectorBoot]) := by
  have he : (exec (fun s a => if Sys.TurnOk s a then @Sys.step arm32 false s a else none)
      (@Sys.start arm32 [oneSectorBoot]) (.read (packetBytes 1 0 (fillSector 7)) (fun _ => 0) ::
        List.replicate 3 syncAct)).isSome := by
    decide +kernel
  obtain ⟨s, he⟩ := isSome_iff_exists.1 he
  have hr := guarded_of_exec he
  exact ⟨s, hr, @writes_stay_in_bounds arm32 false [oneSectorBoot] _ s hr⟩

/-- No range is rejected. With a partition of one sector, a body for sector 1536 makes
`_markDirtyInfo` leave the dirty table, and one for sector 1 makes `writeData` leave the buffer. -/
theorem range_is_not_checked :
    (∃ s, Run (Next (@Sys.step arm32 false)) (@Sys.start arm32 [oneSectorBoot])
      [.read (packetBytes 1 0 (tokenBytes syncReqHead 1 1 0 0 ++
        tokenBytes syncReqBody 2 1 1536 1)) (fun _ => 0), syncAct, syncAct] s ∧ s.pc = .crashed) ∧
    ∃ s, Run (Next (@Sys.step arm32 false)) (@Sys.start arm32 [oneSectorBoot])
      [.read (packetBytes 1 0 (tokenBytes syncReqHead 1 1 0 0 ++ tokenBytes syncReqBody 2 1 1 1 ++
        List.replicate 512 7)) (fun _ => 0), syncAct, syncAct, syncAct] s ∧ s.pc = .crashed :=
  ⟨exists_run_of_exec (by decide +kernel), exists_run_of_exec (by decide +kernel)⟩

end SprdVendor.NvItem
