import SprdVendor.NvItem.Request

namespace SprdVendor.NvItem
open Lib List Option

def stores : List Ev → List (Nat × UInt8)
  | [] => []
  | .copy _ start d :: evs => stamp start d ++ stores evs
  | _ :: evs => stores evs

def verdict : List Ev → Option Bool
  | [] => none
  | .commit _ :: _ => some true
  | .fail :: _ => some false
  | _ :: evs => verdict evs

theorem stores_append (es fs : List Ev) : stores (es ++ fs) = stores es ++ stores fs := by
  induction es with
  | nil => rfl
  | cons e es ih => cases e <;> simp only [cons_append, stores, ih, append_assoc]

theorem verdict_append (es fs : List Ev) : verdict (es ++ fs) = (verdict es).or (verdict fs) := by
  induction es with
  | nil => rfl
  | cons e es ih => cases e <;> first | exact ih | rfl

def ctlIds (keys : List (Nat × Nat)) (k : Nat) : Option Nat := keys.findIdx? fun q => q.1 == k

theorem getCtlId_eq (ctl : List Part) : getCtlId ctl = ctlIds (ctl.map Part.key) := by
  funext k
  rw [ctlIds, findIdx?_map]
  rfl

def Reader.Fits (keys : List (Nat × Nat)) (r : Reader) : Prop := ∀ g ∈ r.ranges, RangeFits keys g
deriving Decidable

def Phase.owner : Phase → Option Nat
  | .body i _ _ | .data i _ _ _ => some i
  | _ => none

def PhaseAt (keys : List (Nat × Nat)) (s : Sync) (r : Reader) : Prop :=
  match r.phase with
  | .idle => s.state = .head ∧ s.busy = false
  | .head frag => frag = [] ∧ s.state = .head ∧ s.busy = true ∧ r.ws = []
  | .body i f frag => frag = [] ∧ s.busy = true ∧ s.id = some i ∧ s.reqFrame = f ∧
      i < keys.length ∧ (s.state = .body ∨ s.state = .data ∧ s.len = 0)
  | .data i f pos left => s.state = .data ∧ s.busy = true ∧ s.id = some i ∧ s.reqFrame = f ∧
      s.start = pos ∧ s.len = left ∧ 0 < left ∧ pos + left < 2 ^ 32 ∧
      ∃ k, keys[i]? = some k ∧ pos + left ≤ sectSize * k.2

structure Tracked (img : List UInt8) (r : Reader) (i : Nat) (p : Part) : Prop where
  sound : p.Sound
  backup : p.backupImage = imageAfter img r.log i
  shadow : p.fromImage = if r.phase.owner = some i then store p.backupImage r.ws else p.backupImage

structure Store (imgs : Nat → List UInt8) (keys : List (Nat × Nat)) (r : Reader)
    (ctl : List Part) : Prop where
  map_key : ctl.map Part.key = keys
  parts : ∀ i p, ctl[i]? = some p → Tracked (imgs i) r i p

structure Tracks (imgs : Nat → List UInt8) (keys : List (Nat × Nat)) (r : Reader) (nv : Nv) :
    Prop where
  ofst : nv.sync.ofst = 0
  store : Store imgs keys r nv.ctl
  phase : PhaseAt keys nv.sync r

structure Nv.Ready (nv : Nv) : Prop where
  ofst : nv.sync.ofst = 0
  state : nv.sync.state = .head
  busy : nv.sync.busy = false
  sound : ∀ p ∈ nv.ctl, p.Sound
  shadow : ∀ p ∈ nv.ctl, p.fromImage = p.backupImage

def Nv.backupImage (nv : Nv) (i : Nat) : List UInt8 := (nv.ctl[i]?.map Part.backupImage).getD []

variable {imgs : Nat → List UInt8} {keys : List (Nat × Nat)} {r r' : Reader} {nv : Nv}
  {ctl : List Part} {buf : List UInt8}

theorem Store.getElem (h : Store imgs keys r ctl)
    (hi : keys[i]? = some k) :
    ∃ p, ctl[i]? = some p ∧ p.key = k ∧ Tracked (imgs i) r i p := by
  rw [← h.map_key, getElem?_map] at hi
  obtain ⟨p, hp, hk⟩ := map_eq_some_iff.1 hi
  exact ⟨p, hp, hk, h.parts i p hp⟩

theorem init_ready [Target] (h : ∀ c ∈ cfg, NvConfig.Fits c) : (Nv.init (initBuf cfg)).Ready := by
  refine ⟨rfl, rfl, rfl, ?_, ?_⟩
  · intro p hp
    obtain ⟨c, hc, rfl⟩ := mem_map.1 hp
    exact initPart_sound (h c hc)
  · intro p hp
    obtain ⟨c, hc, rfl⟩ := mem_map.1 hp
    rfl

theorem Nv.Ready.tracks (h : nv.Ready) : Tracks nv.backupImage nv.keys .init nv := by
  refine ⟨h.ofst, ⟨rfl, ?_⟩, h.state, h.busy⟩
  intro i p hi
  have hm := mem_of_getElem? hi
  refine ⟨h.sound p hm, ?_, h.shadow p hm⟩
  rw [Nv.backupImage, hi]
  rfl

theorem Store.set (h : Store imgs keys r ctl) (hi : ctl[i]? = some p) (hk : p'.key = p.key)
    (hp : Tracked (imgs i) r' i p')
    (ho : ∀ j q, j ≠ i → Tracked (imgs j) r j q → Tracked (imgs j) r' j q) :
    Store imgs keys r' (ctl.set i p') where
  map_key := (map_key_set hi hk).trans h.map_key
  parts := by
    intro j q hj
    by_cases hij : i = j
    · subst hij
      have hl := (List.getElem?_eq_some_iff.1 hi).1
      rw [getElem?_set_self hl] at hj
      cases hj
      exact hp
    · rw [getElem?_set_ne hij] at hj
      exact ho j q (Ne.symm hij) (h.parts j q hj)

theorem Store.congr (h : Store imgs keys r ctl)
    (ho : ∀ j q, Tracked (imgs j) r j q → Tracked (imgs j) r' j q) : Store imgs keys r' ctl :=
  ⟨h.map_key, fun j q hj => ho j q (h.parts j q hj)⟩

theorem Tracked.of_log (h : Tracked img r i p) (hl : r'.log = r.log) (ho : r.phase.owner ≠ some i)
    (ho' : r'.phase.owner ≠ some i) : Tracked img r' i p := by
  refine ⟨h.sound, by rw [hl]; exact h.backup, ?_⟩
  rw [if_neg ho', h.shadow, if_neg ho]

theorem Tracked.same (h : Tracked img r i p) (hl : r'.log = r.log)
    (ho : r'.phase.owner = r.phase.owner) (hw : r'.ws = r.ws) : Tracked img r' i p :=
  ⟨h.sound, by rw [hl]; exact h.backup, by rw [ho, hw]; exact h.shadow⟩

theorem Store.ids (h : Store imgs keys r ctl) : getCtlId ctl = ctlIds keys := by
  rw [getCtlId_eq, h.map_key]

theorem Store.write (h : Store imgs keys r ctl) (r' : Reader) (ho : r.phase.owner = some i)
    (ho' : r'.phase.owner = some i) (hl : r'.log = r.log) (hw : r'.ws = r.ws ++ stamp pos d)
    (hk : keys[i]? = some k) (hd : pos + d.length ≤ sectSize * k.2) :
    ∃ ctl', onPart ctl (some i) (fun p => p.writeData pos d) = some ctl' ∧
      Store imgs keys r' ctl' ∧ stores (copies ctl (some i) pos d) = stamp pos d ∧
      verdict (copies ctl (some i) pos d) = none := by
  obtain ⟨p, hp, hpk, ht⟩ := h.getElem hk
  have hb : p.bytes = sectSize * k.2 := congrArg (fun k => sectSize * k.2) hpk
  obtain ⟨c, hc, hs, hi, -⟩ := ht.sound.writeData (show pos + d.length ≤ p.bytes by omega)
  have hlen : pos + d.length ≤ p.backupImage.length := by
    rw [Part.backupImage, BufCtrl.length_image ht.sound.backup]
    omega
  refine ⟨_, onPart_some hp hc, h.set hp rfl ⟨⟨hs, ht.sound.backup, ht.sound.toDisk⟩, ?_, ?_⟩ ?_,
    ?_, ?_⟩
  · rw [hl]
    exact ht.backup
  · rw [if_pos ho', hw, store_append]
    change c.image p.bytes = store (store p.backupImage r.ws) (stamp pos d)
    have hfrom := ht.shadow
    rw [if_pos ho] at hfrom
    rw [hi, hfrom, store_stamp]
    have hlf : p.fromImage.length = p.bytes := BufCtrl.length_image ht.sound.fromChannel
    rw [← hfrom]
    omega
  · intro j q hj hq
    refine hq.of_log hl ?_ ?_
    · rw [ho]
      exact fun h => hj (Option.some.inj h).symm
    · rw [ho']
      exact fun h => hj (Option.some.inj h).symm
  · simp only [copies, bind_some, hp, getD_some]
    by_cases hd0 : d.length = 0
    · rw [if_neg (fun h => h.1 hd0), eq_nil_of_length_eq_zero hd0]
      rfl
    · rw [if_pos ⟨hd0, ht.sound.fromChannel.ecc⟩, stores, stores, append_nil]
  · simp only [copies, bind_some, hp, getD_some]
    split <;> rfl

theorem Store.mark [Target] (h : Store imgs keys r ctl) (r' : Reader) (hl : r'.log = r.log)
    (ho : r'.phase.owner = r.phase.owner) (hw : r'.ws = r.ws)
    (hf : RangeFits keys (i, start, num)) :
    ∃ ctl', onPart ctl (some i) (fun p => p.markDirtyInfo start num) = some ctl' ∧
      Store imgs keys r' ctl' := by
  obtain ⟨k, hk, -, hs, hn⟩ := hf
  obtain ⟨p, hp, -, ht⟩ := h.getElem hk
  obtain ⟨t, hm⟩ := isSome_iff_exists.1
    ((p.fromChannel.dirty.markDirtyInfo_isSome_iff start num).2 ⟨hs, hn⟩)
  have hpm : p.markDirtyInfo start num =
      some { p with fromChannel := { p.fromChannel with dirty := t } } := by
    rw [Part.markDirtyInfo, hm, map_some]
  refine ⟨_, onPart_some hp hpm, h.set hp rfl ?_ ?_⟩
  · exact ⟨ht.sound.setDirty t, by rw [hl]; exact ht.backup, by rw [ho, hw]; exact ht.shadow⟩
  · intro j q _ hq
    exact hq.same hl ho hw

theorem Store.restore (h : Store imgs keys r ctl) (r' : Reader) (hi : i < keys.length)
    (ho : r.phase.owner = some i) (ho' : r'.phase.owner = none) (hl : r'.log = r.log) :
    ∃ ctl', onPart ctl (some i) (fun p => some p.restoreData) = some ctl' ∧
      Store imgs keys r' ctl' := by
  obtain ⟨p, hp, -, ht⟩ := h.getElem (getElem?_eq_getElem hi)
  obtain ⟨c, hc, hs, himg, -⟩ := ht.sound.restoreData
  refine ⟨_, onPart_some hp rfl, h.set hp (by rw [hc]; rfl) ?_ ?_⟩
  · rw [hc]
    refine ⟨⟨hs, ht.sound.backup, ht.sound.toDisk⟩, by rw [hl]; exact ht.backup, ?_⟩
    rw [ho', if_neg nofun]
    exact himg
  intro j q hj hq
  refine hq.of_log hl ?_ (by rw [ho']; exact nofun)
  rw [ho]
  exact fun h => hj (Option.some.inj h).symm

theorem Store.commit (h : Store imgs keys r ctl) (hi : i < keys.length)
    (ho : r.phase.owner = some i) (ho' : r'.phase.owner = none)
    (hl : r'.log = r.log ++ [⟨i, r.ws⟩]) :
    ∃ ctl', onPart ctl (some i) (fun p => some p.commit) = some ctl' ∧ Store imgs keys r' ctl' := by
  obtain ⟨p, hp, -, ht⟩ := h.getElem (getElem?_eq_getElem hi)
  obtain ⟨c, hc, hs, himg, -⟩ := ht.sound.commit
  have hlog (j : Nat) : imageAfter (imgs j) r'.log j =
      if i = j then store (imageAfter (imgs j) r.log j) r.ws else imageAfter (imgs j) r.log j := by
    rw [hl, imageAfter, foldl_append]
    rfl
  have hfrom := ht.shadow
  rw [if_pos ho] at hfrom
  refine ⟨_, onPart_some hp rfl, h.set hp (by rw [hc]; rfl) ?_ ?_⟩
  · rw [hc]
    refine ⟨⟨ht.sound.fromChannel, hs, ht.sound.toDisk⟩, ?_, ?_⟩
    · rw [hlog, if_pos rfl, ← ht.backup, ← hfrom]
      exact himg
    · rw [ho', if_neg nofun]
      exact himg.symm
  intro j q hj hq
  have ho₁ : r.phase.owner ≠ some j := by
    rw [ho]
    exact fun h => hj (Option.some.inj h).symm
  refine ⟨hq.sound, ?_, ?_⟩
  · rw [hlog, if_neg (Ne.symm hj)]
    exact hq.backup
  · rw [ho', if_neg nofun, hq.shadow, if_neg ho₁]

theorem Tracked.of_kept (h : Tracked img r i p) (hk : p.Kept p') : Tracked img r i p' := by
  refine ⟨hk.sound, hk.backupImage.trans h.backup, ?_⟩
  rw [hk.fromImage, hk.backupImage]
  exact h.shadow

theorem Store.saveToDisk (h : Store imgs keys r ctl) (wr : Nat → Bool) :
    Store imgs keys r (saveToDisk wr ctl) where
  map_key := by
    rw [← h.map_key]
    apply ext_getElem?
    intro i
    rw [NvItem.saveToDisk, getElem?_map, getElem?_map, getElem?_mapIdx]
    cases hi : ctl[i]? with
    | none => rfl
    | some p => exact congrArg some ((h.parts i p hi).sound.kept_save (wr i)).key
  parts := by
    intro i p' hi
    rw [NvItem.saveToDisk, getElem?_mapIdx] at hi
    obtain ⟨p, hp, rfl⟩ := map_eq_some_iff.1 hi
    have ht := h.parts i p hp
    exact ht.of_kept (ht.sound.kept_save (wr i))

theorem Store.backupData (h : Store imgs keys r ctl) (hi : i < keys.length)
    (ho : r.phase.owner = some i) (ho' : r'.phase.owner = none)
    (hl : r'.log = r.log ++ [⟨i, r.ws⟩]) (cali : Bool) (wr : Nat → Bool) :
    ∃ ctl', backupData cali wr ctl (some i) = some ctl' ∧ Store imgs keys r' ctl' := by
  obtain ⟨ctl', hc, hs⟩ := h.commit hi ho ho' hl
  refine ⟨_, by rw [NvItem.backupData, hc, map_some], ?_⟩
  cases cali with
  | false => exact hs
  | true => exact hs.saveToDisk wr

/-- How a turn of the analyzer's loop follows the reader: it has taken some of the bytes, or all
of them, or it has found the tail of the request. -/
inductive Follows (imgs : Nat → List UInt8) (keys : List (Nat × Nat)) (r : Reader)
    (buf : List UInt8) : Iter → Prop where
  | next (c : List UInt8) (hb : buf = c ++ buf') (ht : Tracks imgs keys (r.read (ctlIds keys) c) nv')
      (ha : (r.read (ctlIds keys) c).phase ≠ .idle)
      (hw : (r.read (ctlIds keys) c).ws = r.ws ++ stores evs)
      (hl : (r.read (ctlIds keys) c).log = r.log) (hv : verdict evs = none) :
      Follows imgs keys r buf (.next nv' buf' evs)
  | brk (ht : Tracks imgs keys (r.read (ctlIds keys) buf) nv')
      (hw : (r.read (ctlIds keys) buf).ws = r.ws ++ stores evs)
      (hl : (r.read (ctlIds keys) buf).log = r.log)
      (hv : verdict evs = if (r.read (ctlIds keys) buf).phase = .idle then some false else none) :
      Follows imgs keys r buf (.brk nv' evs)
  | done (hb : nv'.sync.busy = true) (hi : i < keys.length) (hid : nv'.sync.id = some i)
      (hs : Store imgs keys r nv'.ctl)
      (ho : r.phase.owner = some i)
      (hr : r.read (ctlIds keys) buf =
        { r with phase := .idle, log := r.log ++ [⟨i, r.ws⟩] }) :
      Follows imgs keys r buf (.done nv')

theorem Reader.read_take (r : Reader) (n : Nat) :
    r.read ids buf = (r.read ids (buf.take n)).read ids (buf.drop n) := by
  rw [← Reader.read_append, take_append_drop]

theorem Reader.read_eq_token (ids : Nat → Option Nat)
    (h : r.phase.inToken) (hw : r.Whole) (hl : reqSize ≤ buf.length) :
    r.read ids (buf.take reqSize) = r.token ids (buf.take reqSize) :=
  r.read_token h hw (by rw [length_take]; omega)

theorem take_fields (hl : reqSize ≤ buf.length) :
    packetType (buf.take reqSize) = packetType buf ∧ reqIdx (buf.take reqSize) = reqIdx buf ∧
      tokPartId (buf.take reqSize) = tokPartId buf ∧
      bodyStart (buf.take reqSize) = bodyStart buf ∧ bodyNum (buf.take reqSize) = bodyNum buf := by
  have ht : (buf.take reqSize).length = 20 := by
    rw [length_take]
    exact min_eq_left hl
  have hw (i : Nat) (hi : i + 4 ≤ 20) : word (buf.take reqSize) i = word buf i := by
    rw [← word_append _ (buf.drop reqSize) (by omega), take_append_drop]
  exact ⟨hw 0 (by decide), hw 4 (by decide), hw 8 (by decide), hw 12 (by decide),
    hw 16 (by decide)⟩

theorem reqSize_le_of_whole (h : r.phase.inToken) (hb : buf ≠ [])
    (hw : (r.read ids buf).Whole) (hr : r.Whole) : reqSize ≤ buf.length := by
  by_contra hl
  have hr' : r.phase.frag = [] := hr
  have hs : r.phase.frag.length + buf.length < reqSize := by
    rw [hr', length_nil]
    omega
  rw [Reader.Whole, Reader.read_short h hs, Phase.frag_grow h, hr', nil_append] at hw
  exact hb hw

theorem Follows.idle (hr : r.read (ctlIds keys) (buf.take reqSize) = { r with phase := .idle })
    (ht : Tracks imgs keys { r with phase := .idle } nv') :
    Follows imgs keys r buf (.brk nv' [.fail, .rsp 0]) := by
  have hidle : r.read (ctlIds keys) buf = { r with phase := .idle } := by
    rw [r.read_take reqSize, hr, Reader.read_idle rfl]
  refine .brk ?_ ?_ ?_ ?_
  · rwa [hidle]
  · rw [hidle]
    exact (append_nil _).symm
  · rw [hidle]
  · rw [hidle]
    rfl

theorem iter_follows_head [Target] (h : Tracks imgs keys r nv) (hp : r.phase = .head [])
    (hb : buf ≠ []) (hw : (r.read (ctlIds keys) buf).Whole) :
    ∃ o, iter nv buf = some o ∧ Follows imgs keys r buf o := by
  have hph := h.phase
  rw [PhaseAt, hp] at hph
  obtain ⟨-, hst, hbusy, hws⟩ := hph
  have hin : r.phase.inToken := by rw [hp]; rfl
  have hrw : r.Whole := by rw [Reader.Whole, hp]; rfl
  have hl := reqSize_le_of_whole hin hb hw hrw
  have hrd := Reader.read_eq_token (ctlIds keys) hin hrw hl
  obtain ⟨f₀, f₁, f₂, -, -⟩ := take_fields hl
  rw [Reader.token, hp] at hrd
  rw [f₀, f₁, f₂] at hrd
  have ht := iter_turn h.ofst hb
  generalize iter nv buf = o at ht ⊢
  cases ht with
  | short _ hs => omega
  | head i _ _ hty hi =>
    have hik : i < keys.length := by
      have hlt := getCtlId_lt hi
      rwa [← h.store.map_key, length_map]
    rw [h.store.ids] at hi
    rw [if_pos hty, hi] at hrd
    dsimp only at hrd
    refine ⟨_, rfl, .next _ (take_append_drop _ _).symm ?_ ?_ ?_ ?_ rfl⟩
    · rw [hrd]
      refine ⟨rfl, h.store.congr fun j q hq => ⟨hq.sound, hq.backup, ?_⟩, rfl, hbusy, rfl, rfl,
        hik, .inl rfl⟩
      have hs := hq.shadow
      rw [hp, if_neg nofun] at hs
      rw [hs, hws]
      split <;> rfl
    · rw [hrd]
      exact nofun
    · rw [hrd]
      exact (append_nil _).symm
    · rw [hrd]
  | badHead _ _ hbad =>
    have hidle : r.read (ctlIds keys) (buf.take reqSize) = { r with phase := .idle } := by
      rw [hrd]
      obtain hty | hi := hbad
      · rw [if_neg hty]
      · rw [← h.store.ids, hi, ite_self]
    refine ⟨_, rfl, Follows.idle hidle ⟨rfl, ?_, rfl, rfl⟩⟩
    refine h.store.congr fun j q hq => hq.of_log rfl ?_ nofun
    rw [hp]
    exact nofun
  | _ hs => cases hst.symm.trans hs

theorem iter_follows_body [Target] (h : Tracks imgs keys r nv) (hp : r.phase = .body i f [])
    (hst : nv.sync.state = .body) (hb : buf ≠ []) (hw : (r.read (ctlIds keys) buf).Whole)
    (hf : (r.read (ctlIds keys) buf).Fits keys) :
    ∃ o, iter nv buf = some o ∧ Follows imgs keys r buf o := by
  have hph := h.phase
  rw [PhaseAt, hp] at hph
  obtain ⟨-, hbusy, hid, hfr, hik, -⟩ := hph
  have hin : r.phase.inToken := by rw [hp]; rfl
  have hrw : r.Whole := by rw [Reader.Whole, hp]; rfl
  have ho : r.phase.owner = some i := by rw [hp]; rfl
  have hl := reqSize_le_of_whole hin hb hw hrw
  have hrd := Reader.read_eq_token (ctlIds keys) hin hrw hl
  obtain ⟨f₀, f₁, -, f₃, f₄⟩ := take_fields hl
  rw [Reader.token, hp] at hrd
  dsimp only at hrd
  rw [f₀, f₁, f₃, f₄, ← hfr] at hrd
  have ht := iter_turn h.ofst hb
  generalize iter nv buf = o at ht ⊢
  cases ht with
  | short _ hs => omega
  | body _ _ hty hidx =>
    rw [if_pos hidx, if_pos hty] at hrd
    have hfit : RangeFits keys (i, bodyStart buf, bodyNum buf) := by
      apply hf
      rw [r.read_take reqSize]
      apply (Reader.read_ranges _ _ _).subset
      rw [hrd]
      exact mem_append_right _ (mem_singleton_self _)
    obtain ⟨ctl', hc, hs⟩ := h.store.mark (r.read (ctlIds keys) (buf.take reqSize))
      (by rw [hrd]) (by rw [hrd, ho]; split <;> rfl) (by rw [hrd]) hfit
    rw [hid, hc]
    refine ⟨_, rfl, .next _ (take_append_drop _ _).symm ⟨rfl, hs, ?_⟩ ?_ ?_ ?_ rfl⟩
    · obtain ⟨k, hk, hfit, hlt, htab⟩ := hfit
      rw [PhaseAt, hrd]
      have hnum : (bodyStart buf + bodyNum buf) * sectSize < 2 ^ 32 := by
        simp only [tableSectors, dirtyTableMaxSize, sectSize] at htab ⊢
        omega
      have hmul := add_mul (bodyStart buf) (bodyNum buf) sectSize
      by_cases hz : bodyNum buf = 0
      · rw [if_pos hz]
        refine ⟨rfl, hbusy, hid, hidx.symm, hik, .inr ⟨rfl, ?_⟩⟩
        rw [hz, zero_mul]
        rfl
      rw [if_neg hz]
      refine ⟨rfl, hbusy, hid, hidx.symm, u32_of_lt (by omega), u32_of_lt (by omega), ?_,
        by omega, k, hk, ?_⟩
      · exact mul_pos (pos_of_ne_zero hz) (by decide)
      · rw [← hmul, mul_comm]
        exact Nat.mul_le_mul_left _ hfit
    · rw [hrd]
      split
      · intro hi
        cases hi
      · intro hi
        cases hi
    · rw [hrd]
      exact (append_nil _).symm
    · rw [hrd]
  | tail _ _ hty hidx =>
    rw [if_pos hidx, hty, if_neg (by decide), if_pos rfl] at hrd
    refine ⟨_, rfl, .done hbusy hik hid h.store ho ?_⟩
    rw [r.read_take reqSize, hrd, Reader.read_idle rfl]
  | badBody _ _ hbad =>
    have hidle : r.read (ctlIds keys) (buf.take reqSize) = { r with phase := .idle } := by
      rw [hrd]
      obtain ⟨hty, hty'⟩ | hidx := hbad
      · rw [if_neg hty, if_neg hty', ite_self]
      · rw [if_neg hidx]
    obtain ⟨ctl', hc, hs⟩ := h.store.restore { r with phase := .idle } hik ho rfl rfl
    rw [hid, hc]
    exact ⟨_, rfl, Follows.idle hidle ⟨rfl, hs, rfl, rfl⟩⟩
  | head _ hs | _ hs => cases hst.symm.trans hs

theorem iter_follows_data [Target] (h : Tracks imgs keys r nv) (hp : r.phase = .data i f pos left)
    (hb : buf ≠ []) : ∃ o, iter nv buf = some o ∧ Follows imgs keys r buf o := by
  have hph := h.phase
  rw [PhaseAt, hp] at hph
  obtain ⟨hst, hbusy, hid, hfr, hpos, hleft, hpl, hlt, k, hk, hbound⟩ := hph
  have ho : r.phase.owner = some i := by rw [hp]; rfl
  have hik : i < keys.length := (List.getElem?_eq_some_iff.1 hk).1
  have ht := iter_turn h.ofst hb
  generalize iter nv buf = o at ht ⊢
  cases ht with
  | short hs => exact absurd hst hs
  | dataAll _ hl =>
    have htl : (buf.take left).length = left := by
      rw [length_take]
      omega
    have hrd := Reader.read_data_all (ctlIds keys) hp htl hpl
    obtain ⟨ctl', hc, hs, hst', hv⟩ := h.store.write (r.read (ctlIds keys) (buf.take left)) ho
      (by rw [hrd]; rfl) (by rw [hrd]) (by rw [hrd]) hk (by omega)
    rw [hid, hpos, hleft, hc]
    refine ⟨_, rfl,
      .next (buf.take left) (take_append_drop _ _).symm ⟨h.ofst, hs, ?_⟩ ?_ ?_ ?_ hv⟩
    · rw [PhaseAt, hrd]
      exact ⟨rfl, hbusy, hid, hfr, hik, .inl rfl⟩
    · rw [hrd]
      exact nofun
    · rw [hst', hrd]
    · rw [hrd]
  | dataSome _ hl =>
    have hrd := Reader.read_data_some (ctlIds keys) hp (hleft ▸ hl)
    obtain ⟨ctl', hc, hs, hst', hv⟩ := h.store.write (r.read (ctlIds keys) buf) ho (by rw [hrd]; rfl)
      (by rw [hrd]) (by rw [hrd]) hk (by omega)
    rw [hid, hpos, hleft, hc]
    refine ⟨_, rfl, .brk ⟨h.ofst, hs, ?_⟩ ?_ ?_ ?_⟩
    · rw [PhaseAt, hrd]
      exact ⟨hst, hbusy, hid, hfr, u32_of_lt (by omega), rfl, by omega, by omega, k, hk, by omega⟩
    · rw [stores_append, hst', hrd]
      exact congrArg _ (append_nil _).symm
    · rw [hrd]
    · rw [verdict_append, hv, hrd]
      rfl
  | head _ hs | _ hs => cases hst.symm.trans hs

theorem iter_follows_empty [Target] (h : Tracks imgs keys r nv) (hp : r.phase = .body i f [])
    (hb : buf ≠ []) (hst : nv.sync.state = .data) (hz : nv.sync.len = 0) :
    ∃ o, iter nv buf = some o ∧ Follows imgs keys r buf o := by
  have hph := h.phase
  rw [PhaseAt, hp] at hph
  obtain ⟨-, hbusy, hid, hfr, hik, -⟩ := hph
  have ho : r.phase.owner = some i := by rw [hp]; rfl
  obtain ⟨p, hpt, -, ht⟩ := h.store.getElem (getElem?_eq_getElem hik)
  have hset : nv.ctl.set i p = nv.ctl := by
    obtain ⟨hl, rfl⟩ := List.getElem?_eq_some_iff.1 hpt
    exact set_getElem_self hl
  have hwr : onPart nv.ctl (some i) (fun p => p.writeData nv.sync.start []) = some nv.ctl :=
    (onPart_some hpt rfl).trans (congrArg some hset)
  have ht := iter_turn h.ofst hb
  generalize iter nv buf = o at ht ⊢
  cases ht with
  | short hs => exact absurd hst hs
  | dataAll =>
    rw [hid, hz, take_zero, hwr]
    refine ⟨_, rfl, .next [] rfl ⟨h.ofst, h.store, ?_⟩ ?_ ?_ rfl ?_⟩
    · change PhaseAt keys _ r
      rw [PhaseAt, hp]
      exact ⟨rfl, hbusy, hid, hfr, hik, .inl rfl⟩
    · change r.phase ≠ .idle
      rw [hp]
      exact nofun
    · simp only [copies, bind_some, hpt, length_nil]
      exact (append_nil _).symm
    · simp only [copies, bind_some, hpt, length_nil]
      rfl
  | dataSome _ hl => omega
  | head _ hs | _ hs => cases hst.symm.trans hs

/-- One turn of the loop follows the reader, as long as the packet ends with no fragment of a
token and its ranges fit. -/
theorem iter_follows [Target] (h : Tracks imgs keys r nv) (ha : r.phase ≠ .idle) (hb : buf ≠ [])
    (hw : (r.read (ctlIds keys) buf).Whole) (hf : (r.read (ctlIds keys) buf).Fits keys) :
    ∃ o, iter nv buf = some o ∧ Follows imgs keys r buf o := by
  have hph := h.phase
  unfold PhaseAt at hph
  cases hp : r.phase with
  | idle => exact (ha hp).elim
  | head frag =>
    rw [hp] at hph
    obtain ⟨rfl, -⟩ := hph
    exact iter_follows_head h hp hb hw
  | body i f frag =>
    rw [hp] at hph
    obtain ⟨rfl, -, -, -, -, hst | ⟨hst, hz⟩⟩ := hph
    · exact iter_follows_body h hp hst hb hw hf
    · exact iter_follows_empty h hp hb hst hz
  | data i f pos left => exact iter_follows_data h hp hb

theorem Tracks.busy (h : Tracks imgs keys r nv) : nv.sync.busy = decide (r.phase ≠ .idle) := by
  have hph := h.phase
  unfold PhaseAt at hph
  cases hp : r.phase with
  | idle =>
    rw [hp] at hph
    exact hph.2
  | head =>
    rw [hp] at hph
    exact hph.2.2.1
  | _ =>
    rw [hp] at hph
    exact hph.2.1

theorem Tracks.syncFailReset (h : Tracks imgs keys r nv) :
    ∃ nv', syncFailReset nv = some nv' ∧ Tracks imgs keys { r with phase := .idle } nv' ∧
      nv'.sync = nv.sync.init := by
  have hph := h.phase
  unfold PhaseAt at hph
  have hown (i : Nat) (ho : r.phase.owner = some i) (hi : i < keys.length)
      (hid : nv.sync.id = some i) (hst : nv.sync.state ≠ .head) :
      ∃ nv', NvItem.syncFailReset nv = some nv' ∧
        Tracks imgs keys { r with phase := .idle } nv' ∧ nv'.sync = nv.sync.init := by
    obtain ⟨ctl', hc, hs⟩ := h.store.restore { r with phase := .idle } hi ho rfl rfl
    refine ⟨{ nv with ctl := ctl', sync := nv.sync.init }, ?_, ⟨rfl, hs, rfl, rfl⟩, rfl⟩
    rw [NvItem.syncFailReset, if_neg hst, hid, hc, map_some]
  have hfree (ho : r.phase.owner = none) (hst : nv.sync.state = .head) :
      ∃ nv', NvItem.syncFailReset nv = some nv' ∧
        Tracks imgs keys { r with phase := .idle } nv' ∧ nv'.sync = nv.sync.init := by
    refine ⟨{ nv with sync := nv.sync.init }, if_pos hst, ⟨rfl, h.store.congr ?_, rfl, rfl⟩, rfl⟩
    intro j q hq
    refine hq.of_log rfl ?_ (fun hi => ?_)
    · rw [ho]
      intro hi
      cases hi
    · cases hi
  cases hp : r.phase with
  | idle =>
    rw [hp] at hph
    exact hfree (by rw [hp]; rfl) hph.1
  | head =>
    rw [hp] at hph
    exact hfree (by rw [hp]; rfl) hph.2.1
  | body i =>
    rw [hp] at hph
    obtain ⟨-, -, hid, -, hi, hst⟩ := hph
    refine hown i (by rw [hp]; rfl) hi hid ?_
    rcases hst with hst | ⟨hst, -⟩ <;> rw [hst] <;> decide
  | data i =>
    rw [hp] at hph
    obtain ⟨hst, -, hid, -, -, -, -, -, k, hk, -⟩ := hph
    exact hown i (by rw [hp]; rfl) (List.getElem?_eq_some_iff.1 hk).1 hid (by rw [hst]; decide)

def Reader.begin (r : Reader) : Reader := { r with phase := .head [], ws := [] }

theorem Tracks.begin (h : Tracks imgs keys r nv) (hr : r.phase = .idle) :
    Tracks imgs keys r.begin nv.setBusy := by
  have hph := h.phase
  rw [PhaseAt, hr] at hph
  refine ⟨h.ofst, h.store.congr ?_, rfl, hph.1, rfl, rfl⟩
  intro j q hq
  refine hq.of_log rfl ?_ nofun
  rw [hr]
  exact nofun

inductive Accepts (imgs : Nat → List UInt8) (keys : List (Nat × Nat)) (r : Reader) (p : Packet) :
    Accept → Prop where
  | again (ht : Tracks imgs keys (r.packet (ctlIds keys) p) nv') (hs : stores evs = [])
      (hv : verdict evs = none) : Accepts imgs keys r p (.again nv' evs)
  | start (hp : p = .start b) (ht : Tracks imgs keys r.begin nv') :
      Accepts imgs keys r p (.parse nv' b)
  | cont (hp : p = .cont b) (hr : r.phase ≠ .idle) (ht : Tracks imgs keys r nv') :
      Accepts imgs keys r p (.parse nv' b)

theorem accept_accepts (h : Tracks imgs keys r nv) (p : Packet) :
    ∃ a, accept nv p = some a ∧ Accepts imgs keys r p a := by
  obtain ⟨nv', hn, ht, hsync⟩ := h.syncFailReset
  have hb := h.busy
  cases p with
  | fail =>
    refine ⟨_, by rw [accept, hn, map_some], .again ?_ rfl rfl⟩
    exact ⟨rfl, ht.store, rfl, rfl⟩
  | skip => exact ⟨_, rfl, .again h rfl rfl⟩
  | start buf =>
    by_cases hr : r.phase = .idle
    · refine ⟨_, if_neg ?_, .start rfl (h.begin hr)⟩
      rw [hb, hr]
      decide
    have hbusy : nv.sync.busy = true := by
      rw [hb]
      exact decide_eq_true hr
    exact ⟨_, by rw [accept, if_pos hbusy, hn, map_some], .start rfl (ht.begin rfl)⟩
  | cont buf =>
    by_cases hr : r.phase = .idle
    · refine ⟨_, if_neg ?_, .again ?_ rfl rfl⟩
      · rw [hb, hr]
        decide
      · rw [Reader.packet, Reader.read_idle hr]
        exact h
    have hbusy : nv.sync.busy = true := by
      rw [hb]
      exact decide_eq_true hr
    have hset : nv.setBusy = nv := by
      rw [Nv.setBusy, ← hbusy]
    refine ⟨_, if_pos hbusy, .cont rfl hr ?_⟩
    rw [hset]
    exact h

end SprdVendor.NvItem
