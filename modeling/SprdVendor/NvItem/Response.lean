import SprdVendor.NvItem.Bounds

namespace SprdVendor.NvItem
open Lib Option

def responses : List Ev → Nat
  | [] => 0
  | .rsp _ :: evs => responses evs + 1
  | _ :: evs => responses evs

theorem responses_append (es fs : List Ev) :
    responses (es ++ fs) = responses es + responses fs := by
  induction es with
  | nil => rw [List.nil_append, responses, zero_add]
  | cons e es ih =>
    cases e with
    | rsp =>
      rw [List.cons_append, responses, responses, ih]
      exact add_right_comm _ _ _
    | _ => exact ih

theorem responses_copies (ctl : List Part) (id : Option Nat) (start : Nat) (d : List UInt8) :
    responses (copies ctl id start d) = 0 := by
  unfold copies
  split
  · rfl
  · split <;> rfl

/-- The bytes run out exactly where the analyzer has finished a head, a body or a block of data, and
there was no tail. -/
inductive Exhausts (ids : Nat → Option Nat) : SyncState → Nat → Nat → List UInt8 → Prop where
  | nil : Exhausts ids st f n []
  | head (hl : reqSize ≤ buf.length) (ht : packetType buf = syncReqHead)
      (hi : ids (tokPartId buf) = some i)
      (h : Exhausts ids .body (reqIdx buf) 0 (buf.drop reqSize)) : Exhausts ids .head f n buf
  | body (hl : reqSize ≤ buf.length) (ht : packetType buf = syncReqBody)
      (hi : reqIdx buf = u32 (f + 1))
      (h : Exhausts ids .data (reqIdx buf) (u32 (bodyNum buf * sectSize)) (buf.drop reqSize)) :
      Exhausts ids .body f n buf
  | data (hl : n ≤ buf.length) (h : Exhausts ids .body f 0 (buf.drop n)) :
      Exhausts ids .data f n buf

theorem Exhausts.body_len (h : Exhausts ids .body f n buf) : Exhausts ids .body f m buf := by
  cases h with
  | nil => exact .nil
  | body hl ht hi h => exact .body hl ht hi h

def Nv.Exhausts (nv : Nv) (buf : List UInt8) : Prop :=
  NvItem.Exhausts (getCtlId nv.ctl) nv.sync.state nv.sync.reqFrame nv.sync.len buf

structure Nv.Steady (nv : Nv) (keys : List (Nat × Nat)) : Prop where
  ofst : nv.sync.ofst = 0
  map_key : nv.keys = keys
  head : nv.sync.busy = false → nv.sync.state = .head

inductive Answers (nv : Nv) (buf : List UInt8) : Iter → Prop where
  | next (ho : nv'.sync.ofst = 0) (hk : nv'.keys = nv.keys) (hb : nv'.sync.busy = nv.sync.busy)
      (hr : responses evs = 0) (he : nv.Exhausts buf ↔ nv'.Exhausts buf') :
      Answers nv buf (.next nv' buf' evs)
  | brk (hs : nv'.Steady nv.keys) (hr : responses evs = 1) (he : ¬nv.Exhausts buf) :
      Answers nv buf (.brk nv' evs)
  | done (hk : nv'.keys = nv.keys) (he : ¬nv.Exhausts buf) : Answers nv buf (.done nv')

theorem iter_answers [Target] (ho : nv.sync.ofst = 0)
    (hbusy : nv.sync.busy = true) (hb : buf ≠ []) (h : iter nv buf = some o) :
    Answers nv buf o := by
  have ht := iter_turn ho hb
  rw [h] at ht
  have hnb : nv.sync.busy = false → nv.sync.state = .head := by
    rw [hbusy]
    exact nofun
  generalize hx : some o = x at ht
  cases ht with
  | short hs hl =>
    cases hx
    refine .brk ⟨ho, rfl, hnb⟩ rfl ?_
    intro he
    unfold Nv.Exhausts at he
    generalize nv.sync.state = st at hs he
    cases he with
    | nil => exact hb rfl
    | head hl' => exact Nat.not_le_of_lt hl hl'
    | body hl' => exact Nat.not_le_of_lt hl hl'
    | data => exact hs rfl
  | head i hs hl ht hi =>
    cases hx
    refine .next rfl rfl rfl rfl ?_
    unfold Nv.Exhausts
    rw [hs]
    constructor
    · intro he
      cases he with
      | nil => exact (hb rfl).elim
      | head _ _ _ h => exact h.body_len
    · intro he
      exact .head hl ht hi he.body_len
  | badHead hs hl hbad =>
    cases hx
    refine .brk ⟨rfl, rfl, fun _ => rfl⟩ rfl ?_
    unfold Nv.Exhausts
    rw [hs]
    intro he
    cases he with
    | nil => exact hb rfl
    | head _ ht hi =>
      rcases hbad with hbad | hbad
      · exact hbad ht
      · exact nomatch hbad.symm.trans hi
  | body hs hl ht hi =>
    obtain ⟨ctl', hc, rfl⟩ := map_eq_some_iff.1 hx.symm
    have hk := onPart_map_key hc fun _ _ => Part.markDirtyInfo_key
    refine .next rfl hk rfl rfl ?_
    unfold Nv.Exhausts
    rw [hs, getCtlId_congr hk]
    rw [← hi]
    constructor
    · intro he
      cases he with
      | nil => exact (hb rfl).elim
      | body _ _ _ h => exact h
    · exact .body hl ht hi
  | tail hs hl ht hi =>
    cases hx
    refine .done rfl ?_
    unfold Nv.Exhausts
    rw [hs]
    intro he
    cases he with
    | nil => exact hb rfl
    | body _ ht' => exact absurd (ht.symm.trans ht') (by decide)
  | badBody hs hl hbad =>
    obtain ⟨ctl', hc, rfl⟩ := map_eq_some_iff.1 hx.symm
    have hk := onPart_map_key hc fun p _ hp => Option.some.inj hp ▸ p.restoreData_key
    refine .brk ⟨rfl, hk, fun _ => rfl⟩ rfl ?_
    unfold Nv.Exhausts
    rw [hs]
    intro he
    cases he with
    | nil => exact hb rfl
    | body _ ht hi =>
      rcases hbad with hbad | hbad
      · exact hbad.1 ht
      · exact hbad hi
  | dataAll hs hl =>
    obtain ⟨ctl', hc, rfl⟩ := map_eq_some_iff.1 hx.symm
    have hk := onPart_map_key hc fun _ _ => Part.writeData_key
    refine .next ho hk rfl (responses_copies _ _ _ _) ?_
    unfold Nv.Exhausts
    rw [hs, getCtlId_congr hk]
    constructor
    · intro he
      cases he with
      | nil => exact (hb rfl).elim
      | data _ h => exact h
    · exact .data hl
  | dataSome hs hl =>
    obtain ⟨ctl', hc, rfl⟩ := map_eq_some_iff.1 hx.symm
    have hk := onPart_map_key hc fun _ _ => Part.writeData_key
    refine .brk ⟨ho, hk, hnb⟩ ?_ ?_
    · rw [responses_append, responses_copies]
      rfl
    unfold Nv.Exhausts
    rw [hs]
    intro he
    cases he with
    | nil => exact hb rfl
    | data hl' => exact Nat.not_le_of_lt hl hl'

theorem saveToDisk_map_key (wr : Nat → Bool) (ctl : List Part) :
    (saveToDisk wr ctl).map Part.key = ctl.map Part.key := by
  apply List.ext_getElem?
  intro i
  rw [saveToDisk, List.getElem?_map, List.getElem?_map, List.getElem?_mapIdx]
  cases ctl[i]? with
  | none => rfl
  | some p => exact congrArg some (p.save_key (wr i))

theorem backupData_map_key (h : backupData cali wr ctl k = some ctl') :
    ctl'.map Part.key = ctl.map Part.key := by
  obtain ⟨ctl₁, hc, rfl⟩ := map_eq_some_iff.1 h
  have hk := onPart_map_key hc fun p _ hp => Option.some.inj hp ▸ p.commit_key
  cases cali with
  | false => exact hk
  | true => exact (saveToDisk_map_key wr ctl₁).trans hk

theorem analyze_responses [Target] (ho : nv.sync.ofst = 0)
    (hbusy : nv.sync.busy = true) (h : analyze cali wr nv buf = some (nv', evs)) :
    nv'.Steady nv.keys ∧ responses evs ≤ 1 ∧ (responses evs = 0 ↔ nv.Exhausts buf) := by
  induction hn : loopBound nv buf using Nat.strong_induction_on generalizing nv buf evs with
  | _ n ih =>
    by_cases hb : buf = []
    · subst hb
      rw [analyze_nil] at h
      cases h
      refine ⟨⟨ho, rfl, by rw [hbusy]; exact nofun⟩, Nat.zero_le _, ?_⟩
      exact ⟨fun _ => .nil, fun _ => rfl⟩
    cases hi : iter nv buf with
    | none =>
      rw [analyze_none hb hi] at h
      cases h
    | some o =>
      cases iter_answers ho hbusy hb hi with
      | next ho' hk hb' hr he =>
        rw [analyze_next hb hi] at h
        obtain ⟨⟨nv₂, evs₂⟩, h₂, hx⟩ := map_eq_some_iff.1 h
        cases hx
        obtain ⟨hs, hle, hiff⟩ :=
          ih _ (by rw [← hn]; exact iter_next_lt hi) ho' (hb'.trans hbusy) h₂ rfl
        rw [responses_append, hr, zero_add, he, ← hk]
        exact ⟨hs, hle, hiff⟩
      | brk hs hr he =>
        rw [analyze_brk hb hi] at h
        cases h
        rw [hr]
        exact ⟨hs, le_refl _, nofun, fun h => (he h).elim⟩
      | done hk he =>
        rw [analyze_done hb hi] at h
        obtain ⟨ctl', hc, hx⟩ := map_eq_some_iff.1 h
        cases hx
        refine ⟨⟨rfl, (backupData_map_key hc).trans hk, fun _ => rfl⟩, le_refl _, ?_⟩
        exact ⟨nofun, fun h => (he h).elim⟩

theorem syncFailReset_steady (h : syncFailReset nv = some nv') :
    nv'.keys = nv.keys ∧ nv'.sync = nv.sync.init := by
  unfold syncFailReset at h
  split at h
  · cases h
    exact ⟨rfl, rfl⟩
  · obtain ⟨ctl', hc, rfl⟩ := map_eq_some_iff.1 h
    exact ⟨onPart_map_key hc fun p _ hp => Option.some.inj hp ▸ p.restoreData_key, rfl⟩

def Packet.Accepted : Packet → Prop
  | .start _ | .cont _ => True
  | _ => False

def RunsOut (nv : Nv) : Packet → Prop
  | .start buf => Exhausts (getCtlId nv.ctl) .head 0 0 buf
  | .cont buf => nv.sync.busy = true ∧ nv.Exhausts buf
  | _ => False

theorem Exhausts.head_len (h : Exhausts ids .head f n buf) : Exhausts ids .head g m buf := by
  cases h with
  | nil => exact .nil
  | head hl ht hi h => exact .head hl ht hi h

theorem handle_responses [Target] (hs : nv.Steady keys)
    (h : handle cali wr nv p = some (nv', evs)) :
    nv'.Steady keys ∧
      (p.Accepted → responses evs ≤ 1 ∧ (responses evs = 0 ↔ RunsOut nv p)) := by
  obtain ⟨a, ha, h⟩ := bind_eq_some_iff.1 h
  have hstart {nv₁ : Nv} (hk : nv₁.keys = nv.keys) (ho : nv₁.sync.ofst = 0)
      (hst : nv₁.sync.state = .head) (buf : List UInt8)
      (h : analyze cali wr nv₁.setBusy buf = some (nv', evs)) :
      nv'.Steady keys ∧ (responses evs ≤ 1 ∧ (responses evs = 0 ↔ RunsOut nv (.start buf))) := by
    obtain ⟨hs', hle, hiff⟩ := analyze_responses (show nv₁.setBusy.sync.ofst = 0 from ho) rfl h
    rw [← hs.map_key, ← hk]
    refine ⟨hs', hle, hiff.trans ?_⟩
    unfold Nv.Exhausts RunsOut
    rw [show nv₁.setBusy.sync.state = .head from hst,
      show getCtlId nv₁.setBusy.ctl = getCtlId nv.ctl from getCtlId_congr hk]
    exact ⟨Exhausts.head_len, Exhausts.head_len⟩
  cases p with
  | fail =>
    obtain ⟨nv₁, hr, rfl⟩ := map_eq_some_iff.1 ha
    cases h
    exact ⟨⟨rfl, (syncFailReset_steady hr).1.trans hs.map_key, fun _ => rfl⟩, False.elim⟩
  | skip =>
    cases ha
    cases h
    exact ⟨hs, False.elim⟩
  | start buf =>
    rw [accept] at ha
    split at ha
    · obtain ⟨nv₁, hr, rfl⟩ := map_eq_some_iff.1 ha
      obtain ⟨hk, hsy⟩ := syncFailReset_steady hr
      obtain ⟨hs', hr⟩ := hstart hk (by rw [hsy]; rfl) (by rw [hsy]; rfl) buf h
      exact ⟨hs', fun _ => hr⟩
    rename_i hb
    cases ha
    obtain ⟨hs', hr⟩ := hstart rfl hs.ofst (hs.head (Bool.eq_false_iff.2 hb)) buf h
    exact ⟨hs', fun _ => hr⟩
  | cont buf =>
    rw [accept] at ha
    split at ha
    · rename_i hb
      cases ha
      have hset : nv.setBusy = nv := by
        rw [Nv.setBusy, ← hb]
      obtain ⟨hs', hle, hiff⟩ := analyze_responses (show nv.setBusy.sync.ofst = 0 from hs.ofst) rfl h
      rw [hset, hs.map_key] at hs'
      rw [hset] at hiff
      exact ⟨hs', fun _ => ⟨hle, hiff.trans ⟨fun he => ⟨hb, he⟩, fun he => he.2⟩⟩⟩
    · rename_i hb
      cases ha
      cases h
      exact ⟨hs, fun _ => ⟨le_refl _, fun h₀ => absurd h₀ (by decide), fun he => (hb he.1).elim⟩⟩

theorem Part.save_front (p : Part) (ok : Bool) :
    (p.save ok).key = p.key ∧ (p.save ok).fromChannel = p.fromChannel := by
  obtain ⟨hk, hf⟩ := p.getData_front
  obtain ⟨hk', hf'⟩ := p.getData.written_front ok
  unfold Part.save
  split
  · split
    · exact ⟨hk'.trans hk, hf'.trans hf⟩
    · exact ⟨hk, hf⟩
  · exact ⟨rfl, rfl⟩

theorem Roomy.saveToDisk {ctl : List Part} (h : Roomy keys ctl) (wr : Nat → Bool) :
    Roomy keys (NvItem.saveToDisk wr ctl) where
  map_key := (saveToDisk_map_key wr ctl).trans h.map_key
  room q hq := by
    obtain ⟨i, hi, rfl⟩ := List.mem_mapIdx.1 hq
    obtain ⟨hk, hf⟩ := ctl[i].save_front (wr i)
    exact (h.room _ (List.getElem_mem hi)).of_fromChannel hk hf

theorem Roomy.backupData (h : Roomy keys ctl) (hi : i < keys.length)
    (cali : Bool) (wr : Nat → Bool) :
    ∃ ctl', NvItem.backupData cali wr ctl (some i) = some ctl' ∧ Roomy keys ctl' := by
  obtain ⟨ctl', hc, hr⟩ := h.onPart hi fun p _ _ hr =>
    ⟨p.commit, rfl, p.commit_key, hr.of_fromChannel p.commit_key p.commit_fromChannel⟩
  rw [NvItem.backupData, hc, map_some]
  refine ⟨_, rfl, ?_⟩
  cases cali with
  | false => exact hr
  | true => exact hr.saveToDisk wr

def turnsFit [Target] : Nat → Nv → List UInt8 → Prop
  | 0, _, _ => True
  | n + 1, nv, buf => nv.BodyFits buf ∧
      match iter nv buf with
      | some (.next nv buf _) => turnsFit n nv buf
      | _ => True

instance decidableTurnsFit [Target] : (n : Nat) → (nv : Nv) → (buf : List UInt8) →
    Decidable (turnsFit n nv buf)
  | 0, _, _ => isTrue trivial
  | n + 1, nv, buf =>
    have : Decidable (match iter nv buf with
        | some (.next nv buf _) => turnsFit n nv buf
        | _ => True) := by
      split
      · exact decidableTurnsFit n _ _
      · exact isTrue trivial
    inferInstanceAs (Decidable (nv.BodyFits buf ∧ _))

def Packet.Fits [Target] (nv : Nv) (p : Packet) : Prop :=
  ∀ nv' buf, accept nv p = some (.parse nv' buf) → turnsFit (loopBound nv' buf + 1) nv' buf

instance [Target] (nv : Nv) (p : Packet) : Decidable (p.Fits nv) :=
  match h : accept nv p with
  | some (.parse nv' buf) =>
    decidable_of_iff (turnsFit (loopBound nv' buf + 1) nv' buf)
      ⟨fun hf _ _ ha => by cases h.symm.trans ha; exact hf, fun hf => hf _ _ h⟩
  | some (.again _ _) => isTrue fun _ _ ha => nomatch h.symm.trans ha
  | none => isTrue fun _ _ ha => nomatch h.symm.trans ha

theorem turns_bounded [Target] (cali : Bool) (wr : Nat → Bool)
    (h : nv.Bounded keys) (hf : turnsFit n nv buf) :
    ∃ nv' evs, turns cali wr n nv buf = some (nv', evs) ∧ nv'.Bounded keys := by
  induction n generalizing nv buf with
  | zero => exact ⟨nv, [], rfl, h⟩
  | succ n ih =>
    rw [turns]
    by_cases hb : buf = []
    · rw [if_pos hb]
      exact ⟨nv, [], rfl, h⟩
    rw [if_neg hb]
    obtain ⟨hbody, hrest⟩ := hf
    obtain ⟨o, ho, hk⟩ := iter_keeps h hb hbody
    rw [ho] at hrest ⊢
    cases hk with
    | next hn =>
      obtain ⟨nv', evs, ht, hn'⟩ := ih hn hrest
      dsimp only
      rw [ht]
      exact ⟨nv', _, rfl, hn'⟩
    | brk hn => exact ⟨_, _, rfl, hn⟩
    | done i hn hi hid =>
      obtain ⟨ctl', hc, hr⟩ := hn.roomy.backupData hi cali wr
      dsimp only
      rw [hid, hc]
      exact ⟨_, _, rfl, .of_init hr _ _ _⟩

theorem handle_bounded [Target] (cali : Bool) (wr : Nat → Bool) (h : nv.Bounded keys)
    (hf : p.Fits nv) : ∃ nv' evs, handle cali wr nv p = some (nv', evs) ∧ nv'.Bounded keys := by
  obtain ⟨a, ha, hk⟩ := accept_bounded h p
  rw [handle, ha, bind_some]
  cases hk with
  | again hn => exact ⟨_, _, rfl, hn⟩
  | parse hn => exact turns_bounded cali wr hn (hf _ _ ha)

def handleNext [Target] (cali : Bool) (nv : Nv) (p : Packet × (Nat → Bool)) : Option Nv :=
  (handle cali p.2 nv p.1).map Prod.fst

theorem run_steady [Target] (hr : ∀ p ∈ ctl, p.Room)
    (h : Run (Guarded (fun nv p => p.1.Fits nv) (handleNext cali)) (Nv.init ctl) ps nv) :
    nv.Steady (ctl.map Part.key) ∧ nv.Bounded (ctl.map Part.key) := by
  have hb : (Nv.init ctl).Bounded (ctl.map Part.key) :=
    ⟨rfl, rfl, hr, fun hs => (hs rfl).elim, nofun⟩
  refine h.invariant (I := fun _ nv => nv.Steady (ctl.map Part.key) ∧
    nv.Bounded (ctl.map Part.key)) ⟨⟨rfl, rfl, fun _ => rfl⟩, hb⟩ ?_
  rintro _ p nv₁ nv₂ ⟨hs, hb⟩ ⟨hn, hf⟩
  obtain ⟨nv', evs, he, hb'⟩ := handle_bounded cali p.2 hb hf
  rw [handleNext, he] at hn
  cases hn
  exact ⟨(handle_responses hs he).1, hb'⟩

/-- When the body ranges fit, an accepted packet is answered once before the next one is read,
unless its payload runs out between two elements of its request: then there is no answer. -/
theorem answered_once_iff [Target] (cali : Bool) (wr : Nat → Bool) (ctl : List Part)
    (ps : List (Packet × (Nat → Bool))) (nv : Nv) (p : Packet) (hr : ∀ p ∈ ctl, p.Room)
    (hrun : Run (Guarded (fun nv p => p.1.Fits nv) (handleNext cali)) (Nv.init ctl) ps nv)
    (hp : p.Accepted) (hf : p.Fits nv) :
    ∃ nv' evs, handle cali wr nv p = some (nv', evs) ∧
      (responses evs = 1 ↔ ¬RunsOut nv p) ∧ (responses evs = 0 ↔ RunsOut nv p) := by
  obtain ⟨hs, hb⟩ := run_steady hr hrun
  obtain ⟨nv', evs, h, -⟩ := handle_bounded cali wr hb hf
  obtain ⟨hle, hiff⟩ := (handle_responses hs h).2 hp
  refine ⟨nv', evs, h, ?_, hiff⟩
  rw [← hiff]
  omega

theorem fillSector_answered_once_iff : ∃ nv' evs,
    @handle arm32 false (fun _ => true) (@oneSector arm32) (.start (fillSector 7)) =
      some (nv', evs) ∧
    (responses evs = 1 ↔ ¬RunsOut (@oneSector arm32) (.start (fillSector 7))) ∧
    (responses evs = 0 ↔ RunsOut (@oneSector arm32) (.start (fillSector 7))) :=
  @answered_once_iff arm32 false (fun _ => true) (initBuf [(⟨1, 512⟩, List.replicate 516 0)]) []
    (@oneSector arm32) (.start (fillSector 7)) (by decide +kernel) .nil trivial (by decide +kernel)

/-- A packet that carries the head of a request and nothing else gets no response. -/
theorem lone_head_is_not_answered :
    getPacket (@oneSector arm32) (packetBytes 1 0 (tokenBytes syncReqHead 1 1 0 0)) (fun _ => 0) =
        (.start (tokenBytes syncReqHead 1 1 0 0), { @oneSector arm32 with idxGrp := 1 }) ∧
      (@handle arm32 false (fun _ => true) { @oneSector arm32 with idxGrp := 1 }
        (.start (tokenBytes syncReqHead 1 1 0 0))).map (fun r => responses r.2) = some 0 := by
  decide +kernel

end SprdVendor.NvItem
