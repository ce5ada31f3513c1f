import SprdVendor.Jpeg.Handlers

namespace SprdVendor.Jpeg
open Lib List Option
open SprdVendor.Lib.Procedure

structure TableOk (t : TblMap) : Prop where
  dc : t.dcHuffTblId.toNat < 4
  ac : t.acHuffTblId.toNat < 4
  quant : t.quantTblId.toNat < 3

/-- What a successful parse must have recorded. -/
structure Sound (c : Components) : Prop where
  pos : 1 ≤ c.numComponents.toNat
  le : c.numComponents.toNat ≤ 3
  scan : c.compsInScan.toNat ≤ c.numComponents.toNat
  declared : ∀ k : Fin 3, k.val < c.compsInScan.toNat →
    (c.compIdMap k).toNat = k + 1 ∧ ∃ p ∈ c.compInfo, p.componentId = c.compIdMap k
  tables : ∀ k, TableOk (c.tblMap k)

def frameCount (f : List UInt8) : Nat := (f.getD 7 0).toNat

def DeclaresId (f : List UInt8) (id : UInt8) : Prop :=
  ∃ k < frameCount f, f[8 + 3 * k]? = some id

def scanCount (r : List UInt8) : Nat := (r.getD 2 0).toNat

def lastFrame (calls : List (UInt8 × List UInt8)) : Option (List UInt8) :=
  calls.foldl (fun f c => if c.1 = mSof0 ∨ c.1 = mSof1 ∨ c.1 = mSof2 then some c.2 else f) none

/-- There is a frame header with at most three components, the scan names no more of them and only
declared ones, and selects the Huffman tables 0 to 3. -/
structure Fits (f r : List UInt8) : Prop where
  frame : frameCount f ≤ 3
  scan : scanCount r ≤ frameCount f
  ids : ∀ k < scanCount r, DeclaresId f (r.getD (3 + 2 * k) 0)
  tables : ∀ k < scanCount r,
    ((r.getD (4 + 2 * k) 0 >>> 4) &&& 0x0F).toNat < 4 ∧ (r.getD (4 + 2 * k) 0 &&& 0x0F).toNat < 4

def Conforming (calls : List (UInt8 × List UInt8)) : Prop :=
  ∀ c ∈ calls, c.1 = mSos → ∃ f ∈ lastFrame calls, Fits f c.2

instance (f : List UInt8) : DecidablePred (DeclaresId f) :=
  fun _ => inferInstanceAs (Decidable (∃ _ < _, _))

instance (f r : List UInt8) : Decidable (Fits f r) :=
  decidable_of_iff
    (frameCount f ≤ 3 ∧ scanCount r ≤ frameCount f ∧
      (∀ k < scanCount r, DeclaresId f (r.getD (3 + 2 * k) 0)) ∧
      ∀ k < scanCount r, ((r.getD (4 + 2 * k) 0 >>> 4) &&& 0x0F).toNat < 4 ∧
        (r.getD (4 + 2 * k) 0 &&& 0x0F).toNat < 4)
    ⟨fun h => ⟨h.1, h.2.1, h.2.2.1, h.2.2.2⟩, fun h => ⟨h.frame, h.scan, h.ids, h.tables⟩⟩

instance : DecidablePred Conforming := fun _ => inferInstanceAs (Decidable (∀ _ ∈ _, _ → _))

theorem lastFrame_concat (calls : List (UInt8 × List UInt8)) (c : UInt8 × List UInt8) :
    lastFrame (calls ++ [c]) =
      if c.1 = mSof0 ∨ c.1 = mSof1 ∨ c.1 = mSof2 then some c.2 else lastFrame calls := by
  simp [lastFrame]

def Components.modifyInfo (c : Components) (k : Nat) (f : ComponentInfo → ComponentInfo) :
    Components :=
  ⟨c.numComponents, c.compInfo.modify k f, c.tblMap, c.compsInScan, c.compIdMap⟩

def Components.modifyMap (c : Components) (k : Fin 3) (f : TblMap → TblMap) : Components :=
  ⟨c.numComponents, c.compInfo, Function.update c.tblMap k (f (c.tblMap k)), c.compsInScan,
    c.compIdMap⟩

def Components.ids (c : Components) : List UInt8 := c.compInfo.map ComponentInfo.componentId

theorem ids_modifyInfo (c : Components) (k : Nat)
    (hf : ∀ p, (f p).componentId = g p.componentId) : (c.modifyInfo k f).ids = c.ids.modify k g := by
  simp only [Components.ids, Components.modifyInfo]
  generalize c.compInfo = l
  induction l generalizing k with
  | nil => simp
  | cons p l ih =>
    cases k with
    | zero => simp [hf]
    | succ k => simpa using ih k

section
variable {s s' : Header} {i i' : Plain}

theorem storeCompInfo_runs (h : Runs Plain.answer (storeCompInfo ci f) s i u s' i') :
    s'.components = s.components.modifyInfo ci f ∧ i' = i := by
  obtain ⟨_, _, _, hlook, h⟩ := runs_bind.1 h
  obtain ⟨k, _, _, hin, h⟩ := runs_bind.1 h
  obtain ⟨rfl, rfl, rfl⟩ := runs_look.1 hlook
  obtain ⟨hk, rfl, rfl⟩ := runs_inside.1 hin
  obtain ⟨rfl, rfl⟩ := runs_update.1 h
  rw [← hk]
  exact ⟨rfl, rfl⟩

theorem storeCompInfo_stops (h : Stops Plain.answer (storeCompInfo ci f) s i e s' i') :
    s.compInfo.length ≤ ci := by
  obtain h | ⟨_, _, _, hlook, h⟩ := stops_bind.1 h
  · exact absurd h stops_look
  obtain ⟨rfl, rfl, rfl⟩ := runs_look.1 hlook
  obtain h | ⟨k, _, _, hin, h⟩ := stops_bind.1 h
  · exact (stops_inside.1 h).1
  · exact absurd h stops_update

theorem storeTblMap_runs (h : Runs Plain.answer (storeTblMap n f) s i u s' i') :
    ∃ k : Fin 3, k.val = n ∧ s'.components = s.components.modifyMap k f ∧ i' = i := by
  obtain ⟨k, _, _, hin, h⟩ := runs_bind.1 h
  obtain ⟨hk, rfl, rfl⟩ := runs_inside.1 hin
  obtain ⟨rfl, rfl⟩ := runs_update.1 h
  exact ⟨k, hk, rfl, rfl⟩

theorem storeTblMap_stops (h : Stops Plain.answer (storeTblMap n f) s i e s' i') :
    3 ≤ n ∧ e = .outside .tblMap n ∧ i' = i := by
  obtain h | ⟨k, _, _, -, h⟩ := stops_bind.1 h
  · obtain ⟨hle, he, -, hi⟩ := stops_inside.1 h
    exact ⟨hle, he, hi.symm⟩
  · exact absurd h stops_update

theorem tables_modifyMap {c : Components} (h : ∀ k, TableOk (c.tblMap k)) (k : Fin 3)
    (hf : TableOk (f (c.tblMap k))) (j : Fin 3) : TableOk ((c.modifyMap k f).tblMap j) := by
  simp only [Components.modifyMap]
  by_cases hj : j = k
  · rw [hj, Function.update_self]
    exact hf
  · rw [Function.update_of_ne hj]
    exact h j

theorem getSofComponent_runs (h : Runs Plain.answer (getSofComponent ci) s i () s' i') :
    ∃ c r q k rest, i.rest = c :: rest ∧ q.toNat < 3 ∧ s'.components =
      ((s.components.modifyInfo ci (.identify ci c)).modifyInfo ci (.sample ci r)).modifyMap k
        (.setQuant q) := by
  obtain ⟨c, _, _, hc, h⟩ := runs_bind.1 h
  obtain ⟨_, t₁, _, hid, h⟩ := runs_bind.1 h
  obtain ⟨_, _, _, hcheck, h⟩ := runs_bind.1 h
  obtain ⟨r, _, _, hr, h⟩ := runs_bind.1 h
  obtain ⟨_, t₂, _, hsamp, h⟩ := runs_bind.1 h
  obtain ⟨q, _, _, hq, h⟩ := runs_bind.1 h
  obtain ⟨_, _, _, hquant, h⟩ := runs_bind.1 h
  obtain ⟨rfl, rfl⟩ := runs_getChar.1 hc
  obtain ⟨-, rfl, rfl⟩ := runs_haltIf.1 hcheck
  obtain ⟨rfl, rfl⟩ := runs_getChar.1 hr
  obtain ⟨rfl, rfl⟩ := runs_getChar.1 hq
  obtain ⟨hle, rfl, rfl⟩ := runs_haltIf.1 hquant
  obtain ⟨k, -, hmap, -⟩ := storeTblMap_runs h
  refine ⟨c, r, q, k, _, rfl, ?_, ?_⟩
  · have hq : q.toNat ≤ 2 := UInt8.le_iff_toNat_le.1 (UInt8.not_lt.1 hle)
    omega
  · rw [hmap, (storeCompInfo_runs hsamp).1, (storeCompInfo_runs hid).1]

theorem getSofComponent_stops (h : Stops Plain.answer (getSofComponent ci) s i e s' i')
    (hci : ci < s.compInfo.length) : e = .failed := by
  obtain h | ⟨c, _, _, hc, h⟩ := stops_bind.1 h
  · exact (stops_getChar h).1
  obtain ⟨-, rfl⟩ := runs_getChar.1 hc
  obtain h | ⟨_, t₁, _, hid, h⟩ := stops_bind.1 h
  · have hle := storeCompInfo_stops h
    omega
  have hlen : t₁.compInfo.length = s.compInfo.length := by
    have heq := congrArg (fun c => c.compInfo.length) (storeCompInfo_runs hid).1
    exact heq.trans (length_modify ..)
  obtain h | ⟨_, _, _, hcheck, h⟩ := stops_bind.1 h
  · exact (stops_haltIf.1 h).2.1.symm
  obtain ⟨hyuv, rfl, -⟩ := runs_haltIf.1 hcheck
  obtain h | ⟨r, _, _, hr, h⟩ := stops_bind.1 h
  · exact (stops_getChar h).1
  obtain ⟨-, rfl⟩ := runs_getChar.1 hr
  obtain h | ⟨_, t₂, _, hsamp, h⟩ := stops_bind.1 h
  · have hle := storeCompInfo_stops h
    omega
  obtain h | ⟨q, _, _, hq, h⟩ := stops_bind.1 h
  · exact (stops_getChar h).1
  obtain h | ⟨_, _, _, hquant, h⟩ := stops_bind.1 h
  · exact (stops_haltIf.1 h).2.1.symm
  have hle := (storeTblMap_stops h).1
  have hc : (c - 1).toNat ≤ 2 := UInt8.le_iff_toNat_le.1 (UInt8.not_lt.1 hyuv)
  omega

/-- A frame header without components fails: the sampling byte is read from cleared memory. -/
theorem checkSampling_pos (h : Runs Plain.answer (checkSampling n) s i u s' i')
    (hlen : s.compInfo.length = n.toNat) : 1 ≤ n.toNat := by
  by_contra hzero
  have hn : n = 0 := UInt8.toNat_inj.1 (by simpa using hzero)
  subst hn
  have hnil : s.compInfo = [] := length_eq_zero_iff.1 hlen
  obtain ⟨_, _, _, hlook, h⟩ := runs_bind.1 h
  obtain ⟨rfl, rfl, rfl⟩ := runs_look.1 hlook
  have hformat : samplingFormat (sampling s 0) = none := by
    simp only [sampling, hnil]
    decide
  rw [if_neg (by decide), hformat] at h
  exact runs_halt h

structure Framed (c : Components) (f : List UInt8) : Prop where
  pos : 1 ≤ frameCount f
  count : c.numComponents.toNat = frameCount f
  length : c.compInfo.length = frameCount f
  ids : ∀ k < frameCount f, c.ids[k]? = f[8 + 3 * k]?

structure FrameLoop (f : List UInt8) (n : UInt8) (k : Nat) (s : Header) (i : Plain) : Prop where
  num : s.numComponents = n
  length : s.compInfo.length = n.toNat
  tables : ∀ k, TableOk (s.tblMap k)
  rest : i.rest = f.drop (8 + 3 * k)
  ids : ∀ m < k, s.components.ids[m]? = f[8 + 3 * m]?

theorem FrameLoop.step (h : FrameLoop f n k s i) (hk : k < n.toNat)
    (hone : Runs Plain.answer (getSofComponent k) s i () s' i') :
    FrameLoop f n (k + 1) s' i' := by
  obtain ⟨c, r, q, l, rest, hc, hq, hcomp⟩ := getSofComponent_runs hone
  have hids : s'.components.ids = s.components.ids.modify k fun _ => c := by
    rw [hcomp]
    calc
      _ = ((s.components.modifyInfo k (.identify k c)).modifyInfo k (.sample k r)).ids := rfl
      _ = (s.components.modifyInfo k (.identify k c)).ids.modify k id :=
        ids_modifyInfo _ _ fun _ => rfl
      _ = _ := by
        rw [modify_id]
        exact ids_modifyInfo _ _ fun _ => rfl
  have hlen : s'.components.compInfo.length = s.components.compInfo.length := by
    rw [hcomp]
    exact (length_modify ..).trans (length_modify ..)
  refine ⟨?_, hlen.trans h.length, ?_, ?_, ?_⟩
  · exact (congrArg Components.numComponents hcomp).trans h.num
  · have htables := tables_modifyMap (c := (s.components.modifyInfo k (.identify k c)).modifyInfo k
      (.sample k r)) h.tables l (f := .setQuant q) ⟨(h.tables l).dc, (h.tables l).ac, hq⟩
    rwa [← hcomp] at htables
  · rw [(takes_getSofComponent k hone).rest, h.rest, drop_drop]
    congr 1
  intro m hm
  rw [hids, getElem?_modify]
  by_cases hmk : k = m
  · subst hmk
    have hlt : k < s.components.ids.length := by
      rw [Components.ids, length_map]
      exact hk.trans_eq h.length.symm
    have hbyte : f[8 + 3 * k]? = some c := by
      have hhead := congrArg head? (h.rest.symm.trans hc)
      rwa [head?_drop] at hhead
    rw [getElem?_eq_getElem hlt, hbyte]
    simp
  · rw [h.ids m (by omega)]
    simp [hmk]

theorem getSof_runs (h : Runs Plain.answer (getSof isProgressive) s i () s' i')
    (hok : ∀ k, TableOk (s.tblMap k)) :
    Framed s'.components i.rest ∧ ∀ k, TableOk (s'.tblMap k) := by
  obtain ⟨n, t₁, j, hhead, h⟩ := runs_bind.1 h
  obtain ⟨_, _, _, halloc, h⟩ := runs_bind.1 h
  obtain ⟨_, t₂, _, hclear, h⟩ := runs_bind.1 h
  obtain ⟨_, t₃, j₃, hloop, hcheck⟩ := runs_bind.1 h
  obtain ⟨htook, -, hn⟩ := getFrameHead_took hhead
  obtain ⟨rfl, rfl⟩ := runs_extraMemAlloc.1 halloc
  obtain ⟨rfl, rfl⟩ := runs_update.1 hclear
  have hcount : n.toNat = frameCount i.rest := by
    rw [frameCount, getD_eq_getElem?_getD, hn]
    rfl
  have hsame := (minor_getFrameHead isProgressive).runs hhead
  have hstart : FrameLoop i.rest n 0
      { t₁ with numComponents := n, compInfo := List.replicate n.toNat {} } j := by
    refine ⟨rfl, length_replicate, ?_, htook.rest, ?_⟩
    · intro k
      rw [show t₁.tblMap = s.tblMap from congrArg Components.tblMap hsame]
      exact hok k
    · intro m hm
      omega
  have hend := hloop.times (fun k t u t' u' hk hI => hI.step (by omega)) hstart
  have hpos := checkSampling_pos hcheck hend.length
  have hcheck := (minor_checkSampling n).runs hcheck
  constructor
  · rw [hcheck]
    refine ⟨hcount ▸ hpos, ?_, hend.length.trans hcount, ?_⟩
    · exact (congrArg UInt8.toNat hend.num).trans hcount
    · intro k hk
      exact hend.ids k (by omega)
  · intro k
    rw [show s'.tblMap = t₃.tblMap from congrArg Components.tblMap hcheck]
    exact hend.tables k

theorem getSof_stops (h : Stops Plain.answer (getSof isProgressive) s i e s' i') :
    e = .failed ∨ e = .nullTable := by
  obtain h | ⟨n, _, _, hhead, h⟩ := stops_bind.1 h
  · exact (minor_getFrameHead _).stops h
  obtain h | ⟨_, _, _, halloc, h⟩ := stops_bind.1 h
  · exact absurd h stops_extraMemAlloc
  obtain h | ⟨_, _, _, hclear, h⟩ := stops_bind.1 h
  · exact absurd h stops_update
  obtain ⟨rfl, rfl⟩ := runs_update.1 hclear
  obtain h | ⟨_, _, _, hloop, h⟩ := stops_bind.1 h
  · have hstep : ∀ k (t : Header) u (t' : Header) u', k < 0 + n.toNat → t.compInfo.length = n.toNat →
        Runs Plain.answer (getSofComponent k) t u () t' u' → t'.compInfo.length = n.toNat := by
      intro k t u t' u' _ hlen hone
      obtain ⟨c, r, q, l, rest, -, -, hcomp⟩ := getSofComponent_runs hone
      have hinfo := congrArg (fun c => c.compInfo.length) hcomp
      exact hinfo.trans (((length_modify ..).trans (length_modify ..)).trans hlen)
    obtain ⟨k, t, u, hk, hlen, hone⟩ := h.times hstep length_replicate
    exact .inl (getSofComponent_stops hone (by omega))
  · exact (minor_checkSampling n).stops h

def Components.setId (c : Components) (k : Fin 3) (id : UInt8) : Components :=
  ⟨c.numComponents, c.compInfo, c.tblMap, c.compsInScan, Function.update c.compIdMap k id⟩

theorem getSosComponent_runs (h : Runs Plain.answer (getSosComponent n) s i () s' i')
    (hdecl : ∀ cc rest, i.rest = cc :: rest →
      ∃ p ∈ s.compInfo.take s.numComponents.toNat, p.componentId = cc) :
    ∃ cc c k, i.rest = cc :: c :: i'.rest ∧ i'.calls = i.calls ∧ k.val = n ∧ cc.toNat = n + 1 ∧
      s'.components = (s.components.modifyMap k (.setHuff c)).setId k cc := by
  obtain ⟨cc, _, _, hcc, h⟩ := runs_bind.1 h
  obtain ⟨c, _, _, hc, h⟩ := runs_bind.1 h
  obtain ⟨_, _, _, hcheck, h⟩ := runs_bind.1 h
  obtain ⟨_, t, _, hstore, h⟩ := runs_bind.1 h
  obtain ⟨t', _, _, hlook, h⟩ := runs_bind.1 h
  obtain ⟨rfl, rfl⟩ := runs_getChar.1 hcc
  obtain ⟨rfl, rfl⟩ := runs_getChar.1 hc
  obtain ⟨hid, rfl, rfl⟩ := runs_haltIf.1 hcheck
  obtain ⟨k, hk, hmap, rfl⟩ := storeTblMap_runs hstore
  obtain ⟨rfl, rfl, rfl⟩ := runs_look.1 hlook
  have hfound : (t.compInfo.take t.numComponents.toNat).any (fun p => p.componentId == cc) = true := by
    obtain ⟨p, hp, hpid⟩ := hdecl cc _ rfl
    rw [show t.compInfo = s.compInfo from congrArg Components.compInfo hmap,
      show t.numComponents = s.numComponents from congrArg Components.numComponents hmap]
    exact any_eq_true.2 ⟨p, hp, beq_iff_eq.2 hpid⟩
  rw [if_pos hfound] at h
  obtain ⟨k', _, _, hin, hset⟩ := runs_bind.1 h
  obtain ⟨hk', rfl, rfl⟩ := runs_inside.1 hin
  obtain ⟨rfl, rfl⟩ := runs_update.1 hset
  obtain rfl : k = k' := Fin.ext (hk.trans hk'.symm)
  refine ⟨cc, c, k, rfl, rfl, hk, not_not.1 hid, ?_⟩
  rw [← hmap]
  rfl

theorem getSosComponent_stops (h : Stops Plain.answer (getSosComponent n) s i e s' i') :
    i'.calls = i.calls ∧ (e = .failed ∨ 3 ≤ n ∧ e = .outside .tblMap n) := by
  obtain h | ⟨cc, _, _, hcc, h⟩ := stops_bind.1 h
  · obtain ⟨he, -, rfl, -⟩ := stops_getChar h
    exact ⟨rfl, .inl he⟩
  have hcalls := (takes_getChar hcc).calls
  obtain h | ⟨c, _, _, hc, h⟩ := stops_bind.1 h
  · obtain ⟨he, -, rfl, -⟩ := stops_getChar h
    exact ⟨hcalls, .inl he⟩
  replace hcalls := (takes_getChar hc).calls.trans hcalls
  obtain h | ⟨_, _, _, hid, h⟩ := stops_bind.1 h
  · obtain ⟨-, he, -, rfl⟩ := stops_haltIf.1 h
    exact ⟨hcalls, .inl he.symm⟩
  replace hcalls := (takes_haltIf _ _ hid).calls.trans hcalls
  obtain h | ⟨_, _, _, hmap, h⟩ := stops_bind.1 h
  · obtain ⟨hle, he, rfl⟩ := storeTblMap_stops h
    exact ⟨hcalls, .inr ⟨hle, he⟩⟩
  -- the store into `tbl_map` has the same bound as the one into `comp_id_map`
  obtain ⟨k, hk, -⟩ := storeTblMap_runs hmap
  obtain h | ⟨t, _, _, -, h⟩ := stops_bind.1 h
  · exact absurd h stops_look
  split at h
  · obtain h | ⟨_, _, _, -, h⟩ := stops_bind.1 h
    · have hle := (stops_inside.1 h).1
      omega
    · exact absurd h stops_update
  · exact absurd h stops_pure

def Fails (p : Parser α) : Prop :=
  ∀ ⦃s i e s' i'⦄, Stops Plain.answer p s i e s' i' → e = .failed ∧ i'.calls = i.calls

theorem Fails.bind (hp : Fails p) (ht : Takes n p) (hf : ∀ a, Fails (f a)) : Fails (p >>= f) := by
  intro s i e s' i' h
  obtain h | ⟨a, t, j, hrun, h⟩ := stops_bind.1 h
  · exact hp h
  · obtain ⟨he, hcalls⟩ := hf a h
    exact ⟨he, hcalls.trans (ht hrun).calls⟩

theorem fails_getChar : Fails getChar := by
  intro s i e s' i' h
  obtain ⟨he, -, rfl, -⟩ := stops_getChar h
  exact ⟨he, rfl⟩

theorem fails_haltIf (c : Prop) [Decidable c] : Fails (haltIf .failed c) := by
  intro s i e s' i' h
  obtain ⟨-, he, -, rfl⟩ := stops_haltIf.1 h
  exact ⟨he.symm, rfl⟩

theorem fails_update (f : Header → Header) : Fails (update f : Parser Unit) := by
  intro s i e s' i' h
  exact absurd h stops_update

theorem fails_pure (a : α) : Fails (pure a) := by
  intro s i e s' i' h
  exact absurd h stops_pure

theorem fails_getShortWord : Fails getShortWord :=
  fails_getChar.bind takes_getChar fun _ => fails_getChar.bind takes_getChar fun _ => fails_pure _

theorem fails_getScanHead : Fails getScanHead := by
  apply fails_getShortWord.bind takes_getShortWord
  intro length
  apply (fails_haltIf _).bind (takes_haltIf _ _)
  intro _
  apply fails_getChar.bind takes_getChar
  intro n
  exact (fails_haltIf _).bind (takes_haltIf _ _) fun _ => fails_pure _

theorem fails_getScanParams : Fails getScanParams := by
  apply fails_getChar.bind takes_getChar
  intro c
  apply fails_getChar.bind takes_getChar
  intro cc
  apply (fails_update _).bind (takes_update _)
  intro _
  exact fails_getChar.bind takes_getChar fun _ => fails_update _

theorem getSos_stops (h : Stops Plain.answer getSos s i e s' i') :
    i'.calls = i.calls ∧
      (e = .failed ∨ 3 < scanCount i.rest ∧ ∃ k, e = .outside .tblMap k) := by
  obtain h | ⟨n, _, _, hhead, h⟩ := stops_bind.1 h
  · obtain ⟨he, hcalls⟩ := fails_getScanHead h
    exact ⟨hcalls, .inl he⟩
  obtain ⟨htook, -, hn, -⟩ := getScanHead_took hhead
  obtain h | ⟨_, _, _, hset, h⟩ := stops_bind.1 h
  · exact absurd h stops_update
  obtain ⟨-, rfl⟩ := runs_update.1 hset
  obtain h | ⟨_, _, _, hloop, h⟩ := stops_bind.1 h
  · have hstep : ∀ k t u t' u', k < 0 + n.toNat → Plain.calls u = i.calls →
        Runs Plain.answer (getSosComponent k) t u () t' u' → u'.calls = i.calls := by
      intro k t u t' u' _ hu hone
      exact (takes_getSosComponent k hone).calls.trans hu
    obtain ⟨k, t, u, hk, hu, hone⟩ := h.times hstep htook.calls
    obtain ⟨hcalls, he⟩ := getSosComponent_stops hone
    refine ⟨hcalls.trans hu, he.imp_right fun hthree => ⟨?_, k, hthree.2⟩⟩
    rw [scanCount, getD_eq_getElem?_getD, hn, getD_some]
    omega
  · obtain ⟨he, hcalls⟩ := fails_getScanParams h
    have hloop := Takes.times takes_getSosComponent _ _ hloop
    exact ⟨hcalls.trans (hloop.calls.trans htook.calls), .inl he⟩

structure ScanLoop (f r : List UInt8) (n : Nat) (c : Components) (i : Plain) : Prop where
  framed : Framed c f
  scan : c.compsInScan.toNat = scanCount r
  rest : i.rest = r.drop (3 + 2 * n)
  tables : ∀ k, TableOk (c.tblMap k)
  declared : ∀ k : Fin 3, k.val < n →
    (c.compIdMap k).toNat = k + 1 ∧ ∃ p ∈ c.compInfo, p.componentId = c.compIdMap k

theorem Framed.mem (h : Framed c f) (hid : DeclaresId f cid) :
    ∃ p ∈ c.compInfo.take c.numComponents.toNat, p.componentId = cid := by
  obtain ⟨k, hk, hf⟩ := hid
  rw [← h.ids k hk, Components.ids, getElem?_map, map_eq_some_iff] at hf
  obtain ⟨p, hp, rfl⟩ := hf
  rw [h.count, ← h.length, take_length]
  exact ⟨p, mem_of_getElem? hp, rfl⟩

theorem ScanLoop.step (h : ScanLoop f r n s.components i) (hfits : Fits f r)
    (hn : n < scanCount r) (hone : Runs Plain.answer (getSosComponent n) s i () s' i') :
    ScanLoop f r (n + 1) s'.components i' := by
  have hbyte {cc : UInt8} {rest : List UInt8} {m : Nat} (hr : i.rest.drop m = cc :: rest) :
      r.getD (3 + 2 * n + m) 0 = cc := by
    have hhead := congrArg head? hr
    rw [h.rest, drop_drop, head?_drop] at hhead
    rw [getD_eq_getElem?_getD, hhead]
    rfl
  have hdecl : ∀ cc rest, i.rest = cc :: rest →
      ∃ p ∈ s.compInfo.take s.numComponents.toNat, p.componentId = cc := by
    intro cc rest hr
    apply h.framed.mem
    have hid := hfits.ids n hn
    have hcc := hbyte (m := 0) hr
    rw [add_zero] at hcc
    rwa [hcc] at hid
  obtain ⟨cc, c, k, hr, -, hk, hcc, hcomp⟩ := getSosComponent_runs hone hdecl
  have hframed : Framed s'.components f := by
    rw [hcomp]
    exact ⟨h.framed.pos, h.framed.count, h.framed.length, h.framed.ids⟩
  refine ⟨hframed, ?_, ?_, ?_, ?_⟩
  · exact (congrArg (fun c => c.compsInScan.toNat) hcomp).trans h.scan
  · rw [(takes_getSosComponent n hone).rest, h.rest, drop_drop]
    congr 1
  · have hsel := hfits.tables n hn
    rw [show 4 + 2 * n = 3 + 2 * n + 1 by omega, hbyte (m := 1) (by rw [hr]; rfl)] at hsel
    rw [hcomp]
    exact tables_modifyMap h.tables k ⟨hsel.1, hsel.2, (h.tables k).quant⟩
  intro j hj
  rw [hcomp]
  simp only [Components.setId, Components.modifyMap]
  by_cases hjk : j = k
  · subst hjk
    rw [Function.update_self]
    refine ⟨by omega, ?_⟩
    obtain ⟨p, hp, hpid⟩ := hdecl cc _ hr
    exact ⟨p, mem_of_mem_take hp, hpid⟩
  · rw [Function.update_of_ne hjk]
    have hne : j.val ≠ k.val := fun he => hjk (Fin.ext he)
    exact h.declared j (by omega)

theorem getSos_runs (h : Runs Plain.answer getSos s i () s' i') (hframed : Framed s.components f)
    (htables : ∀ k, TableOk (s.tblMap k)) (hfits : Fits f i.rest) : Sound s'.components := by
  obtain ⟨n, t₀, j, hhead, h⟩ := runs_bind.1 h
  obtain ⟨_, _, _, hset, h⟩ := runs_bind.1 h
  obtain ⟨_, t, u, hloop, hparams⟩ := runs_bind.1 h
  obtain ⟨htook, -, hn, rfl⟩ := getScanHead_took hhead
  obtain ⟨rfl, rfl⟩ := runs_update.1 hset
  have hcount : n.toNat = scanCount i.rest := by
    rw [scanCount, getD_eq_getElem?_getD, hn]
    rfl
  have hstart : ScanLoop f i.rest 0 (Header.components { t₀ with compsInScan := n }) j :=
    ⟨⟨hframed.pos, hframed.count, hframed.length, hframed.ids⟩, hcount, htook.rest, htables,
      fun k hk => by omega⟩
  have hend := hloop.times (I := fun k t u => ScanLoop f i.rest k t.components u)
    (fun k t u t' u' hk hI => hI.step hfits (by omega)) hstart
  rw [minor_getScanParams.runs hparams]
  refine ⟨hend.framed.count ▸ hend.framed.pos, hend.framed.count ▸ hfits.frame, ?_, ?_, hend.tables⟩
  · rw [hend.scan, hend.framed.count]
    exact hfits.scan
  · intro k hk
    rw [hend.scan] at hk
    exact hend.declared k (by omega)

structure Known (c : Components) (calls : List (UInt8 × List UInt8)) : Prop where
  tables : ∀ k, TableOk (c.tblMap k)
  frame : ∀ f, lastFrame calls = some f → Framed c f
  noScan : ∀ r, (mSos, r) ∉ calls

theorem Known.step (h : Known s.components i.calls) (hm : LoopMarker m)
    (hone : Runs Plain.answer (segment m) s ⟨i.rest, i.calls ++ [(m, i.rest)]⟩ () s' i') :
    Known s'.components i'.calls := by
  obtain ⟨n, htook, -⟩ := segment_took hone
  rw [htook.calls]
  have hnoScan : ∀ r, (mSos, r) ∉ i.calls ++ [(m, i.rest)] := by
    intro r hr
    obtain hr | hr := mem_append.1 hr
    · exact h.noScan r hr
    · rw [mem_singleton, Prod.mk.injEq] at hr
      exact hm.2.2.1 hr.1.symm
  by_cases hsof : m = mSof0 ∨ m = mSof1 ∨ m = mSof2
  · have hget : ∃ b, Runs Plain.answer (getSof b) s ⟨i.rest, i.calls ++ [(m, i.rest)]⟩ () s' i' := by
      obtain rfl | rfl | rfl := hsof
      · exact ⟨false, hone⟩
      · exact ⟨false, hone⟩
      · exact ⟨true, hone⟩
    obtain ⟨b, hget⟩ := hget
    obtain ⟨hframed, htables⟩ := getSof_runs hget h.tables
    refine ⟨htables, ?_, hnoScan⟩
    intro f hf
    rw [lastFrame_concat, if_pos hsof] at hf
    cases hf
    exact hframed
  · have hminor : Minor (segment m) :=
      minor_segment (fun h => hsof (.inl h)) (fun h => hsof (.inr (.inl h)))
        (fun h => hsof (.inr (.inr h))) hm.2.2.1
    rw [hminor.runs hone]
    refine ⟨h.tables, ?_, hnoScan⟩
    intro f hf
    rw [lastFrame_concat, if_neg hsof] at hf
    exact h.frame f hf

theorem segment_stops (hm : m ≠ mSos) (h : Stops Plain.answer (segment m) s i e s' i') :
    e = .failed ∨ e = .nullTable := by
  by_cases hsof : m = mSof0 ∨ m = mSof1 ∨ m = mSof2
  · obtain rfl | rfl | rfl := hsof
    · exact getSof_stops h
    · exact getSof_stops h
    · exact getSof_stops h
  have hminor : Minor (segment m) :=
    minor_segment (fun h => hsof (.inl h)) (fun h => hsof (.inr (.inl h)))
      (fun h => hsof (.inr (.inr h))) hm
  exact hminor.stops h

theorem processTables_known
    (h : Runs Plain.answer (processTables fuel n) s i c s' i') (hk : Known s.components i.calls) :
    Known s'.components i'.calls := by
  induction n generalizing s i with
  | zero => exact absurd h runs_halt
  | succ n ih =>
    obtain ⟨m, t, j, hnext, hbody⟩ := runs_bind.1 h
    obtain ⟨rfl, hcalls, -, -⟩ := getNextMarkerFrom_runs hnext
    rw [← hcalls] at hk
    split at hbody
    · obtain ⟨-, rfl, rfl⟩ := runs_pure.1 hbody
      exact hk
    case isFalse hend =>
    split at hbody
    · exact absurd hbody runs_halt
    case isFalse hun =>
    obtain ⟨_, _, _, hnote, hbody⟩ := runs_bind.1 hbody
    obtain ⟨rfl, rfl⟩ := runs_handle.1 hnote
    obtain ⟨_, _, _, hone, hrest⟩ := runs_bind.1 hbody
    have hm : LoopMarker m := ⟨fun h => hend (.inl h), fun h => hend (.inr (.inl h)),
      fun h => hend (.inr (.inr h)), hun⟩
    exact ih hrest (hk.step hm hone)

theorem processTables_stops (h : Stops Plain.answer (processTables fuel n) s i e s' i') :
    e = .failed ∨ e = .nullTable ∨ e = .noFuel ∧ (fuel ≤ i.rest.length ∨ n ≤ i.rest.length) := by
  induction n generalizing s i with
  | zero => exact .inr (.inr ⟨(stops_halt.1 h).1.symm, .inr (Nat.zero_le _)⟩)
  | succ n ih =>
    obtain hnext | ⟨m, t, j, hnext, hbody⟩ := stops_bind.1 h
    · obtain he | ⟨he, hle⟩ := (getNextMarkerFrom_stops hnext).2
      · exact .inl he
      · exact .inr (.inr ⟨he, .inl (by omega)⟩)
    obtain ⟨-, -, hlen, -⟩ := getNextMarkerFrom_runs hnext
    split at hbody
    · exact absurd hbody stops_pure
    case isFalse hend =>
    split at hbody
    · exact .inl (stops_halt.1 hbody).1.symm
    case isFalse hun =>
    obtain hnote | ⟨_, _, _, hnote, hbody⟩ := stops_bind.1 hbody
    · exact absurd hnote stops_handle
    obtain ⟨rfl, rfl⟩ := runs_handle.1 hnote
    obtain hone | ⟨_, _, k, hone, hrest⟩ := stops_bind.1 hbody
    · exact (segment_stops (fun h => hend (.inr (.inr h))) hone).imp_right .inl
    obtain ⟨l, htook, -⟩ := segment_took hone
    have hshort : j.rest.length = l + k.rest.length := htook.length
    obtain he | he | ⟨he, hle⟩ := ih hrest
    · exact .inl he
    · exact .inr (.inl he)
    · exact .inr (.inr ⟨he, by omega⟩)

theorem findSoi_runs (h : Runs Plain.answer (findSoi fuel n) s i u s' i') :
    s' = s ∧ i'.calls = i.calls ∧ i'.rest.length + 2 ≤ i.rest.length := by
  induction n generalizing s i with
  | zero => exact absurd h runs_halt
  | succ n ih =>
    obtain ⟨m, t, j, hnext, hbody⟩ := runs_bind.1 h
    obtain ⟨rfl, hcalls, hlen, -⟩ := getNextMarkerFrom_runs hnext
    split at hbody
    · exact absurd hbody runs_halt
    split at hbody
    · obtain ⟨-, rfl, rfl⟩ := runs_pure.1 hbody
      exact ⟨rfl, hcalls, hlen⟩
    · obtain ⟨hs, hcalls', hlen'⟩ := ih hbody
      exact ⟨hs, hcalls'.trans hcalls, by omega⟩

theorem findSoi_stops (h : Stops Plain.answer (findSoi fuel n) s i e s' i') :
    s' = s ∧ (e = .failed ∨ e = .noFuel ∧ (fuel ≤ i.rest.length ∨ n ≤ i.rest.length)) := by
  induction n generalizing s i with
  | zero =>
    obtain ⟨rfl, rfl, rfl⟩ := stops_halt.1 h
    exact ⟨rfl, .inr ⟨rfl, .inr (Nat.zero_le _)⟩⟩
  | succ n ih =>
    obtain hnext | ⟨m, t, j, hnext, hbody⟩ := stops_bind.1 h
    · obtain ⟨hs, he⟩ := getNextMarkerFrom_stops hnext
      exact ⟨hs, he.imp_right fun he => ⟨he.1, .inl (by omega)⟩⟩
    obtain ⟨rfl, -, hlen, -⟩ := getNextMarkerFrom_runs hnext
    split at hbody
    · obtain ⟨he, rfl, -⟩ := stops_halt.1 hbody
      exact ⟨rfl, .inl he.symm⟩
    split at hbody
    · exact absurd hbody stops_pure
    · obtain ⟨hs, he⟩ := ih hbody
      exact ⟨hs, he.imp_right fun he => ⟨he.1, by omega⟩⟩

theorem Conforming.fits (h : Conforming (calls ++ [(mSos, r)])) :
    ∃ f, lastFrame calls = some f ∧ Fits f r := by
  obtain ⟨f, hf, hfits⟩ := h (mSos, r) (mem_append_right _ (mem_singleton.2 rfl)) rfl
  have hsos : ¬ (mSos = mSof0 ∨ mSos = mSof1 ∨ mSos = mSof2) := by decide
  rw [mem_def, lastFrame_concat, if_neg hsos] at hf
  exact ⟨f, hf, hfits⟩

theorem parseHead_runs (h : Runs Plain.answer (parseHead fuel) s i () s' i')
    (hk : Known s.components i.calls) (hc : Conforming i'.calls) : Sound s'.components := by
  obtain ⟨_, t, j, hsoi, hbody⟩ := runs_bind.1 h
  obtain ⟨rfl, hcalls, -⟩ := findSoi_runs hsoi
  rw [← hcalls] at hk
  obtain ⟨c, _, _, htables, hbody⟩ := runs_bind.1 hbody
  have hknown := processTables_known htables hk
  split at hbody
  case isFalse => exact absurd hbody runs_halt
  case isTrue hsos =>
  subst hsos
  obtain ⟨_, _, _, hnote, hscan⟩ := runs_bind.1 hbody
  obtain ⟨rfl, rfl⟩ := runs_handle.1 hnote
  rw [(getSos_took hscan).calls] at hc
  obtain ⟨f, hf, hfits⟩ := hc.fits
  exact getSos_runs hscan (hknown.frame f hf) hknown.tables hfits

theorem parseHead_stops (h : Stops Plain.answer (parseHead fuel) s i e s' i')
    (hc : Conforming i'.calls) : e = .failed ∨ e = .nullTable ∨ e = .noFuel := by
  obtain hsoi | ⟨_, t, j, hsoi, hbody⟩ := stops_bind.1 h
  · exact (findSoi_stops hsoi).2.imp_right fun he => .inr he.1
  obtain htables | ⟨c, _, _, htables, hbody⟩ := stops_bind.1 hbody
  · exact (processTables_stops htables).imp_right fun he => he.imp_right And.left
  split at hbody
  case isFalse => exact .inl (stops_halt.1 hbody).1.symm
  case isTrue hsos =>
  subst hsos
  obtain hnote | ⟨_, _, _, hnote, hscan⟩ := stops_bind.1 hbody
  · exact absurd hnote stops_handle
  obtain ⟨rfl, rfl⟩ := runs_handle.1 hnote
  obtain ⟨hcalls, he⟩ := getSos_stops hscan
  rw [hcalls] at hc
  obtain ⟨f, -, hfits⟩ := hc.fits
  refine .inl (he.resolve_right ?_)
  rintro ⟨hthree, -⟩
  have hle := hfits.scan.trans hfits.frame
  dsimp only at hthree
  omega

def noScan (n : UInt8) : Components := ⟨n, [], fun _ => {}, 0, fun _ => 0⟩

theorem tableOk_empty : TableOk {} := ⟨by decide, by decide, by decide⟩

theorem sound_noScan (h₁ : 1 ≤ n.toNat) (h₃ : n.toNat ≤ 3) : Sound (noScan n) :=
  ⟨h₁, h₃, Nat.zero_le _, fun _ hk => absurd hk (Nat.not_lt_zero _), fun _ => tableOk_empty⟩

theorem parseHeadRes_runs (h : Runs Plain.answer parseHeadRes { input := input } i () s' i') :
    Sound s'.components := by
  obtain ⟨_, t₁, _, hh, h⟩ := runs_bind.1 h
  obtain ⟨_, t₂, _, hw, h⟩ := runs_bind.1 h
  obtain ⟨_, t₃, _, hsize, h⟩ := runs_bind.1 h
  obtain ⟨format, t₄, _, hformat, h⟩ := runs_bind.1 h
  have hthree : t₄.components = noScan 3 := by
    rw [minor_getShortWord.runs hformat, ← (runs_update.1 hsize).1]
    have hclear := (minor_getShortWord.runs hw).trans (minor_getShortWord.runs hh)
    exact congrArg (fun c => (⟨3, c.compInfo, c.tblMap, c.compsInScan, c.compIdMap⟩ : Components))
      hclear
  split at h
  · exact absurd h runs_halt
  obtain ⟨_, t₅, _, hset, h⟩ := runs_bind.1 h
  obtain ⟨_, t₆, _, hlevel, h⟩ := runs_bind.1 h
  have hnum : t₆.components = noScan (if format = 4 then 1 else 3) := by
    rw [minor_getShortWord.runs hlevel, ← (runs_update.1 hset).1]
    exact congrArg (fun c => (⟨if format = 4 then 1 else c.numComponents, c.compInfo, c.tblMap,
      c.compsInScan, c.compIdMap⟩ : Components)) hthree
  split at h
  · exact absurd h runs_halt
  rw [← (runs_update.1 h).1]
  have hsound : Sound (noScan (if format = 4 then 1 else 3)) := by
    split
    · exact sound_noScan (by decide) (by decide)
    · exact sound_noScan (by decide) (by decide)
  rw [← hnum] at hsound
  exact hsound

theorem parseHeadRes_stops (h : Stops Plain.answer parseHeadRes s i e s' i') : e = .failed := by
  have hword {t : Header} {j : Plain} (h : Stops Plain.answer getShortWord t j e s' i') :
      e = .failed := (fails_getShortWord h).1
  obtain h | ⟨_, _, _, -, h⟩ := stops_bind.1 h
  · exact hword h
  obtain h | ⟨_, _, _, -, h⟩ := stops_bind.1 h
  · exact hword h
  obtain h | ⟨_, _, _, -, h⟩ := stops_bind.1 h
  · exact absurd h stops_update
  obtain h | ⟨_, _, _, -, h⟩ := stops_bind.1 h
  · exact hword h
  split at h
  · exact (stops_halt.1 h).1.symm
  obtain h | ⟨_, _, _, -, h⟩ := stops_bind.1 h
  · exact absurd h stops_update
  obtain h | ⟨_, _, _, -, h⟩ := stops_bind.1 h
  · exact hword h
  split at h
  · exact (stops_halt.1 h).1.symm
  · exact absurd h stops_update

theorem known_start (input : DecInput) : Known (Header.components { input := input }) [] :=
  ⟨fun _ => tableOk_empty, fun _ hf => absurd hf (some_ne_none _).symm,
    fun _ => not_mem_nil⟩

end

theorem initBitream_calls {x : Delivery} (h : x.initBitream size = some d) : d.calls = [] := by
  cases x with
  | whole bs behind =>
    cases h
    rfl
  | pieces ps hps =>
    simp only [Delivery.initBitream] at h
    split at h
    · cases h
      rfl
    · cases h

theorem jpegFwParseHead_plain (h : jpegFwParseHead fuel size input x = some (o, d)) :
    o = .stop .failed { input := input } ∨ ∃ p i, p.calls = [] ∧ i = d.plain ∧
      ((parseHeadRes { input := input }).run Plain.answer p = some (o, i) ∨
        (parseHead fuel { input := input }).run Plain.answer p = some (o, i)) := by
  obtain ⟨d₀, hd₀, h⟩ := bind_eq_some_iff.1 h
  have hcalls := initBitream_calls hd₀
  split at h
  · unfold runRes at h
    split at h
    · cases h
      exact .inl rfl
    case h_2 b hb =>
      exact .inr ⟨_, _, hcalls, rfl, .inl (Device.run_plain h)⟩
  · exact .inr ⟨_, _, hcalls, rfl, .inr (Device.run_plain h)⟩

def threeComponents : List UInt8 :=
  [0xFF, 0xD8, 0xFF, 0xC0, 0, 17, 8, 0, 16, 0, 16, 3, 1, 0x22, 0, 2, 0x11, 1, 3, 0x11, 1,
    0xFF, 0xDA, 0, 12, 3, 1, 0, 2, 0x11, 3, 0x11, 0, 0x3F, 0]

end SprdVendor.Jpeg
