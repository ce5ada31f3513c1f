import SprdVendor.Jpeg.Segments

namespace SprdVendor.Jpeg
open Lib
open SprdVendor.Lib.Procedure

structure Components where
  numComponents : UInt8
  compInfo : List ComponentInfo
  tblMap : Fin 3 → TblMap
  compsInScan : UInt8
  compIdMap : Fin 3 → UInt8

def Header.components (s : Header) : Components :=
  ⟨s.numComponents, s.compInfo, s.tblMap, s.compsInScan, s.compIdMap⟩

structure Minor (p : Parser α) : Prop where
  runs : ∀ ⦃s i a s' i'⦄, Runs Plain.answer p s i a s' i' → s'.components = s.components
  stops : ∀ ⦃s i e s' i'⦄, Stops Plain.answer p s i e s' i' → e = .failed ∨ e = .nullTable

theorem minor_pure (a : α) : Minor (pure a) where
  runs _ _ _ _ _ h := by
    obtain ⟨-, rfl, -⟩ := runs_pure.1 h
    rfl
  stops _ _ _ _ _ h := absurd h stops_pure

theorem Minor.bind (hp : Minor p) (hf : ∀ a, Minor (f a)) :
    Minor (p >>= f) where
  runs _ _ _ _ _ h := by
    obtain ⟨a, t, j, h₁, h₂⟩ := runs_bind.1 h
    rw [(hf a).runs h₂, hp.runs h₁]
  stops _ _ _ _ _ h := by
    obtain h₁ | ⟨a, t, j, h₁, h₂⟩ := stops_bind.1 h
    · exact hp.stops h₁
    · exact (hf a).stops h₂

theorem minor_failed : Minor (halt .failed : Parser α) where
  runs _ _ _ _ _ h := absurd h runs_halt
  stops _ _ _ _ _ h := .inl (stops_halt.1 h).1.symm

theorem minor_nullTable : Minor (halt .nullTable : Parser α) where
  runs _ _ _ _ _ h := absurd h runs_halt
  stops _ _ _ _ _ h := .inr (stops_halt.1 h).1.symm

theorem minor_haltIf (c : Prop) [Decidable c] : Minor (haltIf .failed c) where
  runs _ _ _ _ _ h := by
    obtain ⟨-, rfl, -⟩ := runs_haltIf.1 h
    rfl
  stops _ _ _ _ _ h := .inl (stops_haltIf.1 h).2.1.symm

theorem minor_check [Decidable c] (hf : ¬ c → Minor (f ())) :
    Minor (haltIf .failed c >>= f) where
  runs _ _ _ _ _ h := by
    obtain ⟨a, t, j, h₁, h₂⟩ := runs_bind.1 h
    obtain ⟨hc, rfl, -⟩ := runs_haltIf.1 h₁
    exact (hf hc).runs h₂
  stops _ _ _ _ _ h := by
    obtain h₁ | ⟨a, t, j, h₁, h₂⟩ := stops_bind.1 h
    · exact (minor_haltIf c).stops h₁
    · exact (hf (runs_haltIf.1 h₁).1).stops h₂

theorem minor_look : Minor (look : Parser Header) where
  runs _ _ _ _ _ h := by
    obtain ⟨-, rfl, -⟩ := runs_look.1 h
    rfl
  stops _ _ _ _ _ h := absurd h stops_look

theorem minor_update {f : Header → Header} (hf : ∀ s, (f s).components = s.components) :
    Minor (update f : Parser Unit) where
  runs _ _ _ _ _ h := by
    obtain ⟨rfl, -⟩ := runs_update.1 h
    exact hf _
  stops _ _ _ _ _ h := absurd h stops_update

theorem minor_getChar : Minor getChar where
  runs _ _ _ _ _ h := by
    obtain ⟨-, rfl⟩ := runs_getChar.1 h
    rfl
  stops _ _ _ _ _ h := .inl (stops_getChar h).1

theorem minor_getShortWord : Minor getShortWord :=
  minor_getChar.bind fun _ => minor_getChar.bind fun _ => minor_pure _

theorem minor_extraMemAlloc (size : Nat) : Minor (extraMemAlloc size) where
  runs _ _ _ _ _ h := by
    obtain ⟨rfl, -⟩ := runs_extraMemAlloc.1 h
    rfl
  stops _ _ _ _ _ h := absurd h stops_extraMemAlloc

theorem minor_inside {arr : Arr} {n k : Nat} (hk : k < n) : Minor (inside arr n k) where
  runs _ _ _ _ _ h := by
    obtain ⟨-, rfl, -⟩ := runs_inside.1 h
    rfl
  stops _ _ _ _ _ h := by
    have hle := (stops_inside.1 h).1
    omega

theorem Minor.times (h : ∀ k < j + n, Minor (body k)) : Minor (times body j n) := by
  induction n generalizing j with
  | zero => exact minor_pure ()
  | succ n ih =>
    apply (h j (by omega)).bind
    intro _
    apply ih
    intro k hk
    exact h k (by omega)

theorem Minor.untilNone {body : γ → Nat → Parser (γ × Nat)} (h : ∀ c m, Minor (body c m))
    (hless : ∀ c m s i p s' i', Runs Plain.answer (body c m) s i p s' i' → p.2 < m)
    (hn : m ≤ n) (c : γ) : Minor (untilNone .noFuel body n c m) := by
  refine ⟨?_, ?_⟩
  · intro s i a s' i' hruns
    have hturn : ∀ c m t j p t' j', Header.components t = s.components →
        Runs Plain.answer (body c m) t j p t' j' → t'.components = s.components := by
      intro c m t j p t' j' ht hbody
      rw [(h c m).runs hbody, ht]
    exact hruns.untilNone hturn rfl
  intro s i e s' i' hstops
  obtain ⟨c, k, t, u, -, hbody⟩ := hstops.untilNone (I := fun _ _ _ _ => True)
    (fun c m t j p t' j' _ hbody => ⟨hless c m t j p t' j' hbody, trivial⟩) hn trivial
  exact (h c k).stops hbody

theorem minor_getFrameHead (isProgressive : Bool) : Minor (getFrameHead isProgressive) := by
  apply Minor.bind
  · exact minor_update fun _ => rfl
  intro _
  apply minor_getShortWord.bind
  intro length
  apply minor_check
  intro _
  apply minor_getChar.bind
  intro c
  apply minor_check
  intro _
  apply minor_getShortWord.bind
  intro height
  apply minor_getShortWord.bind
  intro width
  apply Minor.bind
  · exact minor_update fun _ => rfl
  intro _
  apply minor_getChar.bind
  intro componentNum
  apply minor_check
  intro _
  exact minor_pure _

theorem minor_checkSampling (n : UInt8) : Minor (checkSampling n) := by
  apply minor_look.bind
  intro s
  split
  · exact minor_update fun _ => rfl
  split
  · exact minor_failed
  apply Minor.bind
  · exact minor_update fun _ => rfl
  intro _
  apply minor_check
  intro _
  exact minor_haltIf _

theorem minor_getScanParams : Minor getScanParams := by
  apply minor_getChar.bind
  intro c
  apply minor_getChar.bind
  intro cc
  apply Minor.bind
  · exact minor_update fun _ => rfl
  intro _
  apply minor_getChar.bind
  intro a
  exact minor_update fun _ => rfl

theorem minor_skipChar (k : Nat) : Minor (skipChar k) :=
  minor_getChar.bind fun _ => minor_pure ()

theorem minor_skipVariable : Minor skipVariable := by
  apply minor_getShortWord.bind
  intro length
  apply minor_check
  intro _
  exact .times fun k _ => minor_skipChar k

theorem minor_getDri : Minor getDri := by
  apply minor_getShortWord.bind
  intro length
  apply minor_check
  intro _
  apply minor_getShortWord.bind
  intro w
  exact minor_update fun _ => rfl

theorem minor_getApp0 : Minor getApp0 := by
  apply minor_getShortWord.bind
  intro length
  apply minor_check
  intro _
  split
  · apply Minor.bind (.times fun k _ => minor_skipChar k)
    intro _
    exact .times fun k _ => minor_skipChar k
  · exact minor_pure ()

theorem minor_storeHuffTbl (cls : HuffClass) (i : Fin 4) (f : HuffTbl → HuffTbl) :
    Minor (storeHuffTbl cls i f) :=
  minor_update fun _ => rfl

theorem minor_storeBits (cls : HuffClass) (i : Fin 4) (c : UInt8) (hj : j < 17) :
    Minor (storeBits cls i j c) :=
  (minor_inside hj).bind fun _ => minor_storeHuffTbl _ _ _

theorem minor_getBits (cls : HuffClass) (i : Fin 4) (hj : j < 17) :
    Minor (getBits cls i j) :=
  minor_getChar.bind fun _ => (minor_storeBits _ _ _ hj).bind fun _ => minor_update fun _ => rfl

theorem minor_getHuffval (cls : HuffClass) (i : Fin 4) (hj : j < 257) :
    Minor (getHuffval cls i j) :=
  minor_getChar.bind fun _ =>
    ((minor_inside hj).bind fun _ => minor_storeHuffTbl _ _ _).bind fun _ =>
      minor_update fun _ => rfl

theorem minor_getHuffTblBody (cls : HuffClass) (length : Nat) (hi : index < 4) :
    Minor (getHuffTblBody cls index length) := by
  apply (minor_inside hi).bind
  intro i
  apply (minor_storeBits _ _ _ (by decide)).bind
  intro _
  apply Minor.bind (.times fun j hj => minor_getBits cls i hj)
  intro _
  apply minor_look.bind
  intro s
  apply minor_check
  intro hcount
  apply Minor.bind (.times fun j hj => minor_getHuffval cls i (by omega))
  intro _
  apply minor_check
  intro _
  exact minor_pure _

theorem huffTbl_index_lt (c : UInt8) :
    if (c &&& 0x13) &&& 0x10 ≠ 0 then ((c &&& 0x13) - 0x10).toNat < 4
    else (c &&& 0x13).toNat < 4 := by
  have hall : ∀ n : Fin 256,
      if (UInt8.ofNat n &&& 0x13) &&& 0x10 ≠ 0 then ((UInt8.ofNat n &&& 0x13) - 0x10).toNat < 4
      else (UInt8.ofNat n &&& 0x13).toNat < 4 := by decide +kernel
  have hc := hall ⟨c.toNat, c.toNat_lt⟩
  rwa [UInt8.ofNat_toNat] at hc

theorem minor_getOneHuffTbl (u : Unit) (length : Nat) : Minor (getOneHuffTbl u length) := by
  apply minor_getChar.bind
  intro c
  have hindex := huffTbl_index_lt c
  dsimp only
  split
  case isTrue hac =>
    rw [if_pos hac] at hindex
    exact minor_getHuffTblBody _ _ hindex
  case isFalse hdc =>
    rw [if_neg hdc] at hindex
    exact minor_getHuffTblBody _ _ hindex

theorem minor_mallocHuffTbls : Minor mallocHuffTbls := by
  apply minor_look.bind
  intro s
  split
  · exact minor_pure ()
  apply Minor.bind
  · apply Minor.times
    intro k _
    apply (minor_extraMemAlloc _).bind
    intro _
    apply (minor_extraMemAlloc _).bind
    intro _
    apply (minor_extraMemAlloc _).bind
    intro _
    exact minor_extraMemAlloc _
  · intro _
    exact minor_update fun _ => rfl

theorem minor_getHuffTbl : Minor getHuffTbl := by
  apply minor_mallocHuffTbls.bind
  intro _
  apply minor_getShortWord.bind
  intro length
  apply minor_check
  intro _
  apply Minor.untilNone minor_getOneHuffTbl _ le_rfl
  intro c m s i p s' i' h
  exact (getOneHuffTbl_took h).1

theorem zigzagOrder_lt (j : Nat) : zigzagOrder.getD j 63 < 64 := by
  have hall : ∀ k ∈ zigzagOrder, k < 64 := by decide
  rw [List.getD_eq_getElem?_getD]
  cases hk : zigzagOrder[j]? with
  | none => decide
  | some k => exact hall k (List.mem_of_getElem? hk)

theorem minor_storeQuant (n : Fin 3) (j : Nat) (c : UInt8) : Minor (storeQuant n j c) :=
  (minor_inside (zigzagOrder_lt j)).bind fun _ => minor_update fun _ => rfl

theorem minor_getQuantEntries (prec : UInt8) (n : Fin 3) : Minor (getQuantEntries prec n) := by
  unfold getQuantEntries
  split
  · apply Minor.times
    intro j _
    exact minor_getChar.bind fun _ => minor_storeQuant _ _ _
  · apply Minor.times
    intro j _
    exact minor_getShortWord.bind fun _ => minor_storeQuant _ _ _

theorem minor_getOneQuantTbl (two : Bool) (length : Nat) : Minor (getOneQuantTbl two length) := by
  apply minor_getChar.bind
  intro b
  apply minor_check
  intro hn
  apply (minor_extraMemAlloc _).bind
  intro _
  apply Minor.bind
  · apply minor_inside
    have hle : (b &&& 0x0F).toNat ≤ 2 := UInt8.le_iff_toNat_le.1 (UInt8.not_lt.1 hn)
    omega
  intro k
  apply Minor.bind
  · exact minor_update fun _ => rfl
  intro _
  apply (minor_getQuantEntries _ _).bind
  intro _
  apply minor_check
  intro _
  exact minor_pure _

theorem minor_compareChroma (s : Header) : Minor (compareChroma s) := by
  unfold compareChroma
  split
  · exact minor_haltIf _
  · exact minor_nullTable

theorem minor_getQuantTbl : Minor getQuantTbl := by
  apply Minor.bind
  · exact minor_update fun _ => rfl
  intro _
  apply minor_getShortWord.bind
  intro length
  apply minor_check
  intro _
  apply Minor.bind
  · apply Minor.untilNone minor_getOneQuantTbl _ le_rfl
    intro c m s i p s' i' h
    obtain ⟨b, rest, -, hle, hp, -⟩ := getOneQuantTbl_took h
    omega
  intro two
  apply minor_look.bind
  intro s
  split
  · exact minor_compareChroma s
  · exact minor_pure ()

/-- The segments besides the frame and the scan header say nothing about the components. -/
theorem minor_segment (h₀ : m ≠ mSof0) (h₁ : m ≠ mSof1) (h₂ : m ≠ mSof2) (hs : m ≠ mSos) :
    Minor (segment m) := by
  unfold segment
  rw [if_neg (not_or.2 ⟨h₀, h₁⟩), if_neg h₂, if_neg hs]
  split
  · exact minor_getHuffTbl
  split
  · exact minor_getQuantTbl
  split
  · exact minor_getApp0
  split
  · exact minor_getDri
  · exact minor_skipVariable

end SprdVendor.Jpeg
