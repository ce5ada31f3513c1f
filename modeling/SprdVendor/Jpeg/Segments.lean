import SprdVendor.Jpeg.ParseHead

namespace SprdVendor.Jpeg
open Lib
open SprdVendor.Lib.Procedure

section
variable {s s' : Header} {i i' : Plain}

@[simp] theorem runs_getChar :
    Runs Plain.answer getChar s i c s' i' ↔
    i = ⟨c :: i'.rest, i'.calls⟩ ∧ s = s' := by
  obtain ⟨_ | ⟨b, rest⟩, calls⟩ := i
  · have hrun : (getChar s).run Plain.answer ⟨[], calls⟩ = some (.stop .failed s, ⟨[], calls⟩) := rfl
    simp [Runs, hrun]
  · have hrun : (getChar s).run Plain.answer ⟨b :: rest, calls⟩ = some (.ok b s, ⟨rest, calls⟩) := rfl
    obtain ⟨rest', calls'⟩ := i'
    simp [Runs, hrun, and_assoc, and_comm, and_left_comm]

theorem stops_getChar (h : Stops Plain.answer getChar s i e s' i') :
    e = .failed ∧ s' = s ∧ i' = i ∧ i.rest = [] := by
  obtain ⟨_ | ⟨b, rest⟩, calls⟩ := i
  · cases h
    exact ⟨rfl, rfl, rfl, rfl⟩
  · cases h

@[simp] theorem runs_getShortWord :
    Runs Plain.answer getShortWord s i n s' i' ↔
    ∃ a b, i = ⟨a :: b :: i'.rest, i'.calls⟩ ∧ a.toNat * 256 + b.toNat = n ∧ s = s' := by
  simp only [getShortWord, runs_bind, runs_getChar, runs_pure]
  constructor
  · rintro ⟨a, t, j, ⟨rfl, rfl⟩, b, t', j', ⟨rfl, rfl⟩, rfl, rfl, rfl⟩
    exact ⟨a, b, rfl, rfl, rfl⟩
  · rintro ⟨a, b, rfl, rfl, rfl⟩
    exact ⟨a, s, ⟨b :: i'.rest, i'.calls⟩, ⟨rfl, rfl⟩, b, s, i', ⟨rfl, rfl⟩, rfl, rfl, rfl⟩

@[simp] theorem runs_extraMemAlloc :
    Runs Plain.answer (extraMemAlloc size) s i u s' i' ↔ s = s' ∧ i = i' := by
  have hrun : (extraMemAlloc size s).run Plain.answer i = some (.ok () s, i) := rfl
  simp [Runs, hrun]

@[simp] theorem stops_extraMemAlloc : ¬ Stops Plain.answer (extraMemAlloc size) s i e s' i' := by
  intro h
  cases h

@[simp] theorem runs_handle :
    Runs Plain.answer (handle m) s i u s' i' ↔
    s = s' ∧ i' = ⟨i.rest, i.calls ++ [(m, i.rest)]⟩ := by
  have hrun : (handle m s).run Plain.answer i =
    some (.ok () s, ⟨i.rest, i.calls ++ [(m, i.rest)]⟩) := rfl
  simp [Runs, hrun, eq_comm]

@[simp] theorem stops_handle : ¬ Stops Plain.answer (handle m) s i e s' i' := by
  intro h
  cases h

@[simp] theorem runs_inside :
    Runs Plain.answer (inside arr n k) s i j s' i' ↔
    j.val = k ∧ s = s' ∧ i = i' := by
  unfold inside
  split
  case isTrue h =>
    rw [runs_pure, Fin.ext_iff]
    exact ⟨fun ⟨h₁, h₂⟩ => ⟨h₁.symm, h₂⟩, fun ⟨h₁, h₂⟩ => ⟨h₁.symm, h₂⟩⟩
  case isFalse h =>
    refine iff_of_false runs_halt ?_
    rintro ⟨rfl, -⟩
    exact h j.isLt

@[simp] theorem stops_inside :
    Stops Plain.answer (inside arr n k) s i e s' i' ↔
    n ≤ k ∧ e = .outside arr k ∧ s = s' ∧ i = i' := by
  unfold inside
  split
  case isTrue h =>
    refine iff_of_false stops_pure ?_
    rintro ⟨hle, -⟩
    omega
  case isFalse h =>
    rw [stops_halt]
    exact ⟨fun ⟨h₁, h₂⟩ => ⟨by omega, h₁.symm, h₂⟩, fun ⟨_, h₁, h₂⟩ => ⟨h₁.symm, h₂⟩⟩

structure Took (n : Nat) (i i' : Plain) : Prop where
  le : n ≤ i.rest.length
  rest : i'.rest = i.rest.drop n
  calls : i'.calls = i.calls

theorem Took.refl : Took 0 i i := ⟨Nat.zero_le _, rfl, rfl⟩

theorem Took.eq (h : Took 0 i i') : i' = i := by
  obtain ⟨rest', calls'⟩ := i'
  obtain ⟨rfl, rfl⟩ : rest' = i.rest ∧ calls' = i.calls := ⟨h.rest, h.calls⟩
  rfl

theorem Took.trans (h : Took m i j) (h' : Took n j i') : Took (m + n) i i' := by
  have hm := h.le
  have hn := h'.le
  rw [h.rest, List.length_drop] at hn
  refine ⟨by omega, ?_, h'.calls.trans h.calls⟩
  rw [h'.rest, h.rest, List.drop_drop]

@[simp] theorem took_cons : Took (n + 1) ⟨c :: rest, calls⟩ i' ↔ Took n ⟨rest, calls⟩ i' := by
  constructor
  · intro h
    have hle := h.le
    exact ⟨by simpa using hle, h.rest, h.calls⟩
  · intro h
    have hle := h.le
    exact ⟨by simpa using hle, h.rest, h.calls⟩

theorem Took.length (h : Took n i i') : i.rest.length = n + i'.rest.length := by
  have hle := h.le
  rw [h.rest, List.length_drop]
  omega

def Takes (n : Nat) (p : Parser α) : Prop :=
  ∀ ⦃s i a s' i'⦄, Runs Plain.answer p s i a s' i' → Took n i i'

theorem takes_pure (a : α) : Takes 0 (pure a) := by
  intro s i b s' i' h
  obtain ⟨-, -, rfl⟩ := runs_pure.1 h
  exact .refl

theorem Takes.bind (hp : Takes m p) (hf : ∀ a, Takes n (f a)) : Takes (m + n) (p >>= f) := by
  intro s i b s' i' h
  obtain ⟨a, t, j, h₁, h₂⟩ := runs_bind.1 h
  exact (hp h₁).trans (hf a h₂)

theorem Takes.silent (hp : Takes 0 p) (hf : ∀ a, Takes n (f a)) : Takes n (p >>= f) := by
  have h := hp.bind hf
  rwa [zero_add] at h

theorem takes_haltIf (e : Stop) (c : Prop) [Decidable c] : Takes 0 (haltIf e c) := by
  intro s i _ s' i' h
  obtain ⟨-, -, rfl⟩ := runs_haltIf.1 h
  exact .refl

theorem takes_look : Takes 0 (look : Parser Header) := by
  intro s i _ s' i' h
  obtain ⟨-, -, rfl⟩ := runs_look.1 h
  exact .refl

theorem takes_update (f : Header → Header) : Takes 0 (update f : Parser Unit) := by
  intro s i _ s' i' h
  obtain ⟨-, rfl⟩ := runs_update.1 h
  exact .refl

theorem takes_halt (e : Stop) : Takes n (halt e : Parser α) := by
  intro s i _ s' i' h
  exact absurd h runs_halt

theorem takes_getChar : Takes 1 getChar := by
  intro s i c s' i' h
  obtain ⟨rfl, -⟩ := runs_getChar.1 h
  exact took_cons.2 .refl

theorem takes_char (hf : ∀ c, Takes n (f c)) : Takes (n + 1) (getChar >>= f) := by
  have h := takes_getChar.bind hf
  rwa [add_comm] at h

theorem takes_getShortWord : Takes 2 getShortWord := by
  intro s i c s' i' h
  obtain ⟨a, b, rfl, -, -⟩ := runs_getShortWord.1 h
  exact took_cons.2 (took_cons.2 .refl)

theorem takes_inside (arr : Arr) (n k : Nat) : Takes 0 (inside arr n k) := by
  intro s i _ s' i' h
  obtain ⟨-, -, rfl⟩ := runs_inside.1 h
  exact .refl

theorem takes_extraMemAlloc (size : Nat) : Takes 0 (extraMemAlloc size) := by
  intro s i _ s' i' h
  obtain ⟨-, rfl⟩ := runs_extraMemAlloc.1 h
  exact .refl

theorem Takes.times (h : ∀ j, Takes k (body j)) (j n : Nat) : Takes (n * k) (times body j n) := by
  induction n generalizing j with
  | zero =>
    rw [zero_mul]
    exact takes_pure ()
  | succ n ih =>
    rw [Nat.succ_mul, Nat.add_comm]
    exact (h j).bind fun _ => ih (j + 1)

theorem takes_storeCompInfo (ci : Nat) (f : ComponentInfo → ComponentInfo) :
    Takes 0 (storeCompInfo ci f) :=
  takes_look.silent fun _ => (takes_inside _ _ _).silent fun _ => takes_update _

theorem takes_storeTblMap (k : Nat) (f : TblMap → TblMap) : Takes 0 (storeTblMap k f) :=
  (takes_inside _ _ _).silent fun _ => takes_update _

theorem takes_getSofComponent (ci : Nat) : Takes 3 (getSofComponent ci) := by
  apply takes_char
  intro c
  apply (takes_storeCompInfo _ _).silent
  intro _
  apply (takes_haltIf _ _).silent
  intro _
  apply takes_char
  intro r
  apply (takes_storeCompInfo _ _).silent
  intro _
  apply takes_char
  intro q
  apply (takes_haltIf _ _).silent
  intro _
  exact takes_storeTblMap _ _

theorem takes_checkSampling (n : UInt8) : Takes 0 (checkSampling n) := by
  apply takes_look.silent
  intro s
  split
  · exact takes_update _
  split
  · exact takes_halt _
  · apply (takes_update _).silent
    intro _
    exact (takes_haltIf _ _).silent fun _ => takes_haltIf _ _

theorem takes_getSosComponent (k : Nat) : Takes 2 (getSosComponent k) := by
  apply takes_char
  intro cc
  apply takes_char
  intro c
  apply (takes_haltIf _ _).silent
  intro _
  apply (takes_storeTblMap _ _).silent
  intro _
  apply takes_look.silent
  intro s
  split
  · exact (takes_inside _ _ _).silent fun _ => takes_update _
  · exact takes_pure ()

theorem takes_skipChar (k : Nat) : Takes 1 (skipChar k) :=
  takes_char fun _ => takes_pure ()

theorem takes_getQuant8 (n : Fin 3) (j : Nat) : Takes 1 (getQuant8 n j) :=
  takes_char fun _ => (takes_inside _ _ _).silent fun _ => takes_update _

theorem takes_getQuant16 (n : Fin 3) (j : Nat) : Takes 2 (getQuant16 n j) :=
  takes_getShortWord.bind fun _ => (takes_inside _ _ _).silent fun _ => takes_update _

theorem takes_storeBits (cls : HuffClass) (k : Fin 4) (j : Nat) (c : UInt8) :
    Takes 0 (storeBits cls k j c) :=
  (takes_inside _ _ _).silent fun _ => takes_update _

theorem takes_getBits (cls : HuffClass) (k : Fin 4) (j : Nat) : Takes 1 (getBits cls k j) :=
  takes_char fun _ => (takes_storeBits _ _ _ _).silent fun _ => takes_update _

theorem takes_getHuffval (cls : HuffClass) (k : Fin 4) (j : Nat) : Takes 1 (getHuffval cls k j) :=
  takes_char fun _ => ((takes_inside _ _ _).silent fun _ => takes_update _).silent fun _ =>
    takes_update _

theorem takes_mallocHuffTbls : Takes 0 mallocHuffTbls := by
  apply takes_look.silent
  intro s
  split
  · exact takes_pure ()
  have hone (k : Nat) : Takes 0 (mallocHuffTbl k) :=
    (takes_extraMemAlloc _).silent fun _ => (takes_extraMemAlloc _).silent fun _ =>
      (takes_extraMemAlloc _).silent fun _ => takes_extraMemAlloc _
  exact (Takes.times hone 0 4).silent fun _ => takes_update _

def declared (rest : List UInt8) : Nat := (rest.getD 0 0).toNat * 256 + (rest.getD 1 0).toNat

@[simp] theorem declared_cons :
    declared (a :: b :: rest) = a.toNat * 256 + b.toNat := rfl

theorem getFrameHead_took (h : Runs Plain.answer (getFrameHead isProgressive) s i n s' i') :
    Took 8 i i' ∧ declared i.rest = n.toNat * 3 + 8 ∧ i.rest[7]? = some n := by
  simp only [getFrameHead] at h
  obtain ⟨_, _, _, hmode, h⟩ := runs_bind.1 h
  obtain ⟨length, _, j₁, hlength, h⟩ := runs_bind.1 h
  obtain ⟨_, _, j₂, hshort, h⟩ := runs_bind.1 h
  obtain ⟨c, _, j₃, hprec, h⟩ := runs_bind.1 h
  obtain ⟨_, _, j₄, hprec8, h⟩ := runs_bind.1 h
  obtain ⟨_, _, j₅, hheight, h⟩ := runs_bind.1 h
  obtain ⟨_, _, j₆, hwidth, h⟩ := runs_bind.1 h
  obtain ⟨_, _, j₇, hsize, h⟩ := runs_bind.1 h
  obtain ⟨m, _, j₈, hnum, h⟩ := runs_bind.1 h
  obtain ⟨_, _, j₉, hlen, h⟩ := runs_bind.1 h
  obtain ⟨rfl, -, rfl⟩ := runs_pure.1 h
  obtain ⟨-, rfl⟩ := runs_update.1 hmode
  obtain ⟨-, rfl⟩ := runs_update.1 hsize
  obtain ⟨-, -, rfl⟩ := runs_haltIf.1 hshort
  obtain ⟨-, -, rfl⟩ := runs_haltIf.1 hprec8
  obtain ⟨hn, -, rfl⟩ := runs_haltIf.1 hlen
  obtain ⟨rfl, -⟩ := runs_getChar.1 hnum
  obtain ⟨_, _, rfl, -, -⟩ := runs_getShortWord.1 hwidth
  obtain ⟨_, _, rfl, -, -⟩ := runs_getShortWord.1 hheight
  obtain ⟨rfl, -⟩ := runs_getChar.1 hprec
  obtain ⟨a, b, rfl, rfl, -⟩ := runs_getShortWord.1 hlength
  refine ⟨?_, not_not.1 hn, rfl⟩
  simp only [took_cons]
  exact .refl

theorem getSof_took (h : Runs Plain.answer (getSof isProgressive) s i () s' i') :
    Took (declared i.rest) i i' := by
  obtain ⟨n, _, _, hhead, h⟩ := runs_bind.1 h
  obtain ⟨_, _, _, halloc, h⟩ := runs_bind.1 h
  obtain ⟨_, _, _, hclear, h⟩ := runs_bind.1 h
  obtain ⟨_, _, _, hloop, hcheck⟩ := runs_bind.1 h
  obtain ⟨htook, hdecl, -⟩ := getFrameHead_took hhead
  obtain ⟨-, rfl⟩ := runs_extraMemAlloc.1 halloc
  obtain ⟨-, rfl⟩ := runs_update.1 hclear
  rw [hdecl, add_comm]
  apply htook.trans
  exact (Takes.times takes_getSofComponent _ _ hloop).trans (takes_checkSampling _ hcheck)

theorem getScanHead_took (h : Runs Plain.answer getScanHead s i n s' i') :
    Took 3 i i' ∧ declared i.rest = n.toNat * 2 + 6 ∧ i.rest[2]? = some n ∧ s' = s := by
  obtain ⟨length, _, j₁, hlength, h⟩ := runs_bind.1 h
  obtain ⟨_, _, j₂, hshort, h⟩ := runs_bind.1 h
  obtain ⟨m, _, j₃, hnum, h⟩ := runs_bind.1 h
  obtain ⟨_, _, j₄, hlen, h⟩ := runs_bind.1 h
  obtain ⟨rfl, rfl, rfl⟩ := runs_pure.1 h
  obtain ⟨hn, rfl, rfl⟩ := runs_haltIf.1 hlen
  obtain ⟨rfl, rfl⟩ := runs_getChar.1 hnum
  obtain ⟨hge, rfl, rfl⟩ := runs_haltIf.1 hshort
  obtain ⟨a, b, rfl, rfl, rfl⟩ := runs_getShortWord.1 hlength
  refine ⟨?_, ?_, rfl, rfl⟩
  · simp only [took_cons]
    exact .refl
  · rw [declared_cons]
    omega

theorem takes_getScanParams : Takes 3 getScanParams := by
  apply takes_char
  intro c
  apply takes_char
  intro cc
  apply (takes_update _).silent
  intro _
  apply takes_char
  intro a
  exact takes_update _

theorem getSos_took (h : Runs Plain.answer getSos s i () s' i') : Took (declared i.rest) i i' := by
  obtain ⟨n, _, _, hhead, h⟩ := runs_bind.1 h
  obtain ⟨_, _, _, hset, h⟩ := runs_bind.1 h
  obtain ⟨_, _, _, hloop, hparams⟩ := runs_bind.1 h
  obtain ⟨htook, hdecl, -⟩ := getScanHead_took hhead
  obtain ⟨-, rfl⟩ := runs_update.1 hset
  rw [hdecl, show n.toNat * 2 + 6 = 3 + (n.toNat * 2 + 3) by omega]
  apply htook.trans
  exact (Takes.times takes_getSosComponent _ _ hloop).trans (takes_getScanParams hparams)

theorem skipVariable_took (h : Runs Plain.answer skipVariable s i () s' i') :
    Took (declared i.rest) i i' := by
  simp only [skipVariable, runs_bind, runs_getShortWord, runs_haltIf] at h
  obtain ⟨length, _, _, ⟨a, b, rfl, hlen, -⟩, _, _, _, ⟨hlt, -, rfl⟩, hloop⟩ := h
  have hrest := Takes.times takes_skipChar _ _ hloop
  rw [declared_cons, hlen, show length = length - 2 + 1 + 1 by omega]
  simpa only [took_cons, mul_one] using hrest

theorem getDri_took (h : Runs Plain.answer getDri s i () s' i') : Took (declared i.rest) i i' := by
  simp only [getDri, runs_bind, runs_update, runs_getShortWord, runs_haltIf] at h
  obtain ⟨length, _, _, ⟨a, b, rfl, hlen, -⟩, _, _, _, ⟨hfour, -, rfl⟩,
    w, _, _, ⟨_, _, rfl, -, -⟩, -, rfl⟩ := h
  rw [declared_cons, hlen, not_not.1 hfour]
  simp only [took_cons]
  exact .refl

theorem getApp0_took (h : Runs Plain.answer getApp0 s i () s' i') :
    ∃ n, Took n i i' ∧ (n = declared i.rest ↔ declared i.rest = 2 ∨ 16 ≤ declared i.rest) := by
  simp only [getApp0, runs_bind, runs_getShortWord, runs_haltIf] at h
  obtain ⟨length, _, _, ⟨a, b, rfl, hlen, -⟩, _, _, _, ⟨hlt, -, rfl⟩, h⟩ := h
  rw [declared_cons, hlen]
  split at h
  case isTrue hjfif =>
    have hrest := (Takes.times takes_skipChar 0 14).bind
      (fun _ => Takes.times takes_skipChar 0 (length - 2 - 14)) h
    refine ⟨length - 2 + 1 + 1, ?_, by omega⟩
    simp only [took_cons]
    rwa [show 14 * 1 + (length - 2 - 14) * 1 = length - 2 by omega] at hrest
  case isFalse hshort =>
    refine ⟨2, ?_, by omega⟩
    obtain ⟨-, -, rfl⟩ := runs_pure.1 h
    simp only [took_cons]
    exact .refl

theorem getOneHuffTbl_took (h : Runs Plain.answer (getOneHuffTbl u length) s i p s' i') :
    p.2 < length ∧ Took (length - p.2) i i' := by
  have hbody {cls : HuffClass} {index : Nat} {j : Plain}
      (h : Runs Plain.answer (getHuffTblBody cls index length) s j p s' i') :
      p.2 + 1 ≤ length ∧ Took (length - p.2 - 1) j i' := by
    simp only [getHuffTblBody, runs_bind, runs_inside, runs_look, runs_haltIf, runs_pure] at h
    obtain ⟨k, _, _, ⟨-, -, rfl⟩, _, _, _, hzero, _, _, _, hbits, _, _, _, ⟨-, -, rfl⟩,
      _, _, _, ⟨-, -, rfl⟩, _, _, _, hvals, _, _, _, ⟨hlen, -, rfl⟩, rfl, -, rfl⟩ := h
    have hrest := ((takes_storeBits _ _ _ _ hzero).trans
      (Takes.times (takes_getBits _ _) _ _ hbits)).trans (Takes.times (takes_getHuffval _ _) _ _ hvals)
    refine ⟨by omega, ?_⟩
    convert hrest using 1
    omega
  obtain ⟨c, _, j, hc, h⟩ := runs_bind.1 h
  obtain ⟨rfl, rfl⟩ := runs_getChar.1 hc
  have hafter : p.2 + 1 ≤ length ∧ Took (length - p.2 - 1) j i' := by
    dsimp only at h
    split at h
    · exact hbody h
    · exact hbody h
  refine ⟨hafter.1, ?_⟩
  rw [show length - p.2 = length - p.2 - 1 + 1 by omega]
  exact took_cons.2 hafter.2

theorem getHuffTbl_took (h : Runs Plain.answer getHuffTbl s i () s' i') :
    Took (declared i.rest) i i' := by
  simp only [getHuffTbl, runs_bind, runs_getShortWord, runs_haltIf] at h
  obtain ⟨_, _, j, hmalloc, length, _, k, ⟨a, b, rfl, hlen, -⟩, _, _, _, ⟨hlt, -, rfl⟩, h⟩ := h
  have hturn : ∀ (c : Unit) left t j (p : Unit × Nat) t' j',
      left ≤ length - 2 ∧ Took (length - 2 - left) k j →
      Runs Plain.answer (getOneHuffTbl c left) t j p t' j' →
      p.2 ≤ length - 2 ∧ Took (length - 2 - p.2) k j' := by
    rintro c left t j p t' j' ⟨hle, htook⟩ hone
    obtain ⟨hless, hmore⟩ := getOneHuffTbl_took hone
    refine ⟨by omega, ?_⟩
    convert htook.trans hmore using 1
    omega
  have hnone : length - 2 ≤ length - 2 ∧ Took (length - 2 - (length - 2)) k k := by
    rw [Nat.sub_self]
    exact ⟨le_rfl, .refl⟩
  have hloop := h.untilNone hturn hnone
  obtain rfl := (takes_mallocHuffTbls hmalloc).eq
  rw [declared_cons, hlen, show length = length - 2 + 1 + 1 by omega]
  simp only [took_cons]
  exact hloop.2

/-- The precisions in the heads of the tables a DQT segment holds, as the handler meets them: it
goes on behind 64 or 128 bytes and takes the length the precision stands for off what is left. -/
def quantPrecs : Nat → Nat → List UInt8 → List Nat
  | _, 0, _ => []
  | 0, _ + 1, _ => []
  | _ + 1, _ + 1, [] => []
  | n + 1, m + 1, b :: rest =>
    let prec := (b >>> 4).toNat
    prec :: quantPrecs n (m + 1 - (64 + 1 + 64 * prec)) (rest.drop (if prec = 0 then 64 else 128))

theorem getOneQuantTbl_took (h : Runs Plain.answer (getOneQuantTbl two length) s i p s' i') :
    ∃ b rest, i.rest = b :: rest ∧
      64 + 1 + 64 * (b >>> 4).toNat ≤ length ∧ p.2 = length - (64 + 1 + 64 * (b >>> 4).toNat) ∧
      Took ((if (b >>> 4).toNat = 0 then 64 else 128) + 1) i i' := by
  simp only [getOneQuantTbl, runs_bind, runs_getChar, runs_haltIf, runs_extraMemAlloc, runs_inside,
    runs_update, runs_pure] at h
  obtain ⟨b, _, j, ⟨rfl, -⟩, _, _, _, ⟨-, -, rfl⟩, _, _, _, ⟨-, rfl⟩, k, _, _, ⟨-, -, rfl⟩,
    _, _, _, ⟨-, rfl⟩, _, _, _, hread, _, _, _, ⟨hlen, -, rfl⟩, rfl, -, rfl⟩ := h
  refine ⟨b, j.rest, rfl, by omega, rfl, took_cons.2 ?_⟩
  unfold getQuantEntries at hread
  split at hread
  case isTrue hzero =>
    rw [hzero]
    exact Takes.times (takes_getQuant8 _) _ _ hread
  case isFalse hnz =>
    have hnat : (b >>> 4).toNat ≠ 0 := fun h => hnz (UInt8.toNat_inj.1 h)
    rw [if_neg hnat]
    exact Takes.times (takes_getQuant16 _) _ _ hread

/-- The loop over the tables reads the length it was given exactly when every precision is 0 or 1;
otherwise it reads less. -/
theorem quantTbls_took
    (h : Runs Plain.answer (untilNone .noFuel getOneQuantTbl n two left) s i two' s' i') :
    ∃ k, Took k i i' ∧ k ≤ left ∧ (k = left ↔ ∀ p ∈ quantPrecs n left i.rest, p ≤ 1) := by
  induction n generalizing left two s i with
  | zero =>
    cases left with
    | zero =>
      obtain ⟨-, -, rfl⟩ := runs_pure.1 h
      exact ⟨0, .refl, le_rfl, by simp [quantPrecs]⟩
    | succ left => exact absurd h runs_halt
  | succ n ih =>
    cases left with
    | zero =>
      obtain ⟨-, -, rfl⟩ := runs_pure.1 h
      exact ⟨0, .refl, le_rfl, by simp [quantPrecs]⟩
    | succ left =>
      obtain ⟨p, t, j, hone, hrest⟩ := runs_bind.1 h
      obtain ⟨b, rest, hb, hlen, hp, htook⟩ := getOneQuantTbl_took hone
      obtain ⟨k, hk, hle, hiff⟩ := ih hrest
      refine ⟨_, htook.trans hk, ?_, ?_⟩
      · split <;> omega
      have hj : j.rest = rest.drop (if (b >>> 4).toNat = 0 then 64 else 128) := by
        rw [htook.rest, hb, List.drop_succ_cons]
      rw [hb, quantPrecs, List.forall_mem_cons, ← hj, ← hp, ← hiff]
      split <;> omega

theorem takes_compareChroma (t : Header) : Takes 0 (compareChroma t) := by
  unfold compareChroma
  split
  · exact takes_haltIf _ _
  · exact takes_halt _

theorem getQuantTbl_took (h : Runs Plain.answer getQuantTbl s i () s' i') :
    ∃ n, Took n i i' ∧ (n = declared i.rest ↔
      ∀ p ∈ quantPrecs (declared i.rest - 2) (declared i.rest - 2) (i.rest.drop 2), p ≤ 1) := by
  simp only [getQuantTbl, runs_bind, runs_update, runs_getShortWord, runs_haltIf, runs_look] at h
  obtain ⟨_, _, _, ⟨-, rfl⟩, length, _, j, ⟨a, b, rfl, hlen, -⟩, _, _, _, ⟨hlt, -, rfl⟩,
    two, _, k, hloop, _, _, _, ⟨-, -, rfl⟩, hcheck⟩ := h
  obtain ⟨n, hn, hle, hiff⟩ := quantTbls_took hloop
  have hend : Took 0 k i' := by
    split at hcheck
    · exact takes_compareChroma _ hcheck
    · exact takes_pure () hcheck
  refine ⟨n + 1 + 1, ?_, ?_⟩
  · simp only [took_cons]
    exact hn.trans hend
  · rw [declared_cons, hlen, List.drop_succ_cons, List.drop_succ_cons, List.drop_zero, ← hiff]
    omega

/-- The segments that are read whole: all but the APP0 segments of 3 to 15 bytes and the DQT
segments with a table of a precision above 1. -/
structure Exact (m : UInt8) (rest : List UInt8) : Prop where
  app0 : m = mApp0 → declared rest = 2 ∨ 16 ≤ declared rest
  dqt : m = mDqt →
    ∀ p ∈ quantPrecs (declared rest - 2) (declared rest - 2) (rest.drop 2), p ≤ 1

theorem segment_took (h : Runs Plain.answer (segment m) s i () s' i') :
    ∃ n, Took n i i' ∧ (n = declared i.rest ↔ Exact m i.rest) := by
  -- the handlers without a condition
  have hwhole (h₁ : m ≠ mApp0) (h₂ : m ≠ mDqt) (ht : Took (declared i.rest) i i') :
      ∃ n, Took n i i' ∧ (n = declared i.rest ↔ Exact m i.rest) :=
    ⟨_, ht, iff_of_true rfl ⟨fun h => absurd h h₁, fun h => absurd h h₂⟩⟩
  unfold segment at h
  split at h
  case isTrue hm =>
    apply hwhole _ _ (getSof_took h)
    all_goals
      rintro rfl
      revert hm
      decide
  case isFalse =>
  split at h
  case isTrue hm =>
    subst hm
    exact hwhole (by decide) (by decide) (getSof_took h)
  case isFalse =>
  split at h
  case isTrue hm =>
    subst hm
    exact hwhole (by decide) (by decide) (getSos_took h)
  case isFalse =>
  split at h
  case isTrue hm =>
    subst hm
    exact hwhole (by decide) (by decide) (getHuffTbl_took h)
  case isFalse =>
  split at h
  case isTrue hm =>
    subst hm
    obtain ⟨n, hn, hiff⟩ := getQuantTbl_took h
    refine ⟨n, hn, hiff.trans ⟨fun hp => ⟨fun h => absurd h (by decide), fun _ => hp⟩, ?_⟩⟩
    exact fun he => he.dqt rfl
  case isFalse hdqt =>
  split at h
  case isTrue hm =>
    subst hm
    obtain ⟨n, hn, hiff⟩ := getApp0_took h
    refine ⟨n, hn, hiff.trans ⟨fun hp => ⟨fun _ => hp, fun h => absurd h (by decide)⟩, ?_⟩⟩
    exact fun he => he.app0 rfl
  case isFalse happ0 =>
  split at h
  · exact hwhole happ0 hdqt (getDri_took h)
  · exact hwhole happ0 hdqt (skipVariable_took h)

def seek : Bool → List UInt8 → Option (UInt8 × List UInt8)
  | _, [] => none
  | false, b :: rest => if b = 0xFF then seek true rest else seek false rest
  | true, b :: rest =>
    if b = 0xFF then seek true rest
    else if b = 0 then seek false rest
    else some (b, rest)

theorem skipToFF_runs (h : Runs Plain.answer (skipToFF n) s i u s' i') :
    s' = s ∧ i'.calls = i.calls ∧ i'.rest.length < i.rest.length ∧
      seek false i.rest = seek true i'.rest := by
  induction n generalizing i with
  | zero => exact absurd h runs_halt
  | succ n ih =>
    obtain ⟨c, _, j, hc, h⟩ := runs_bind.1 h
    obtain ⟨rfl, rfl⟩ := runs_getChar.1 hc
    split at h
    case isTrue hff =>
      obtain ⟨-, rfl, rfl⟩ := runs_pure.1 h
      exact ⟨rfl, rfl, by simp, by simp [seek, hff]⟩
    case isFalse hff =>
      obtain ⟨hs, hcalls, hlen, hseek⟩ := ih h
      refine ⟨hs, hcalls, ?_, ?_⟩
      · simp only [List.length_cons]
        omega
      · simp [seek, hff, hseek]

theorem skipFFs_runs (h : Runs Plain.answer (skipFFs n) s i c s' i') :
    s' = s ∧ i'.calls = i.calls ∧ i'.rest.length < i.rest.length ∧
      seek true i.rest = if c = 0 then seek false i'.rest else some (c, i'.rest) := by
  induction n generalizing i with
  | zero => exact absurd h runs_halt
  | succ n ih =>
    obtain ⟨b, _, j, hb, h⟩ := runs_bind.1 h
    obtain ⟨rfl, rfl⟩ := runs_getChar.1 hb
    split at h
    case isTrue hff =>
      obtain ⟨hs, hcalls, hlen, hseek⟩ := ih h
      refine ⟨hs, hcalls, ?_, ?_⟩
      · simp only [List.length_cons]
        omega
      · simp [seek, hff, hseek]
    case isFalse hff =>
      obtain ⟨rfl, rfl, rfl⟩ := runs_pure.1 h
      exact ⟨rfl, rfl, by simp, by simp [seek, hff]⟩

theorem getNextMarkerFrom_runs (h : Runs Plain.answer (getNextMarkerFrom fuel n) s i c s' i') :
    s' = s ∧ i'.calls = i.calls ∧ i'.rest.length + 2 ≤ i.rest.length ∧
      seek false i.rest = some (c, i'.rest) := by
  induction n generalizing s i with
  | zero => exact absurd h runs_halt
  | succ n ih =>
    simp only [getNextMarkerFrom, runs_bind] at h
    obtain ⟨_, t, j, hto, b, t', k, hffs, h⟩ := h
    obtain ⟨rfl, hcalls, hlen, hseek⟩ := skipToFF_runs hto
    obtain ⟨rfl, hcalls', hlen', hseek'⟩ := skipFFs_runs hffs
    rw [hseek, hseek']
    split at h
    case isTrue hz =>
      obtain ⟨hs, hcalls'', hlen'', hseek''⟩ := ih h
      refine ⟨hs, hcalls''.trans (hcalls'.trans hcalls), by omega, ?_⟩
      rw [if_pos hz, hseek'']
    case isFalse hz =>
      obtain ⟨rfl, rfl, rfl⟩ := runs_pure.1 h
      exact ⟨rfl, hcalls'.trans hcalls, by omega, if_neg hz⟩

theorem skipToFF_stops (h : Stops Plain.answer (skipToFF n) s i e s' i') :
    s' = s ∧ (e = .failed ∨ e = .noFuel ∧ n ≤ i.rest.length) := by
  induction n generalizing i with
  | zero =>
    obtain ⟨rfl, rfl, rfl⟩ := stops_halt.1 h
    exact ⟨rfl, .inr ⟨rfl, Nat.zero_le _⟩⟩
  | succ n ih =>
    obtain h | ⟨c, _, j, hc, h⟩ := stops_bind.1 h
    · exact ⟨(stops_getChar h).2.1, .inl (stops_getChar h).1⟩
    obtain ⟨rfl, rfl⟩ := runs_getChar.1 hc
    split at h
    · exact absurd h stops_pure
    · simpa using ih h

theorem skipFFs_stops (h : Stops Plain.answer (skipFFs n) s i e s' i') :
    s' = s ∧ (e = .failed ∨ e = .noFuel ∧ n ≤ i.rest.length) := by
  induction n generalizing i with
  | zero =>
    obtain ⟨rfl, rfl, rfl⟩ := stops_halt.1 h
    exact ⟨rfl, .inr ⟨rfl, Nat.zero_le _⟩⟩
  | succ n ih =>
    obtain h | ⟨c, _, j, hc, h⟩ := stops_bind.1 h
    · exact ⟨(stops_getChar h).2.1, .inl (stops_getChar h).1⟩
    obtain ⟨rfl, rfl⟩ := runs_getChar.1 hc
    split at h
    · simpa using ih h
    · exact absurd h stops_pure

/-- `GetNextMarker` fails at the end of the stream; with more turns than there are bytes that is
the only way it ends early. -/
theorem getNextMarkerFrom_stops (h : Stops Plain.answer (getNextMarkerFrom fuel n) s i e s' i') :
    s' = s ∧ (e = .failed ∨ e = .noFuel ∧ (fuel ≤ i.rest.length ∨ n ≤ i.rest.length)) := by
  induction n generalizing s i with
  | zero =>
    obtain ⟨rfl, rfl, rfl⟩ := stops_halt.1 h
    exact ⟨rfl, .inr ⟨rfl, .inr (Nat.zero_le _)⟩⟩
  | succ n ih =>
    obtain hto | ⟨_, t, j, hto, hbody⟩ := stops_bind.1 h
    · exact (skipToFF_stops hto).imp_right fun he => he.imp_right fun he => ⟨he.1, .inl he.2⟩
    obtain ⟨rfl, -, hlen, -⟩ := skipToFF_runs hto
    obtain hffs | ⟨c, t', k, hffs, hrest⟩ := stops_bind.1 hbody
    · obtain ⟨hs, he⟩ := skipFFs_stops hffs
      exact ⟨hs, he.imp_right fun he => ⟨he.1, .inl (by omega)⟩⟩
    obtain ⟨rfl, -, hlen', -⟩ := skipFFs_runs hffs
    split at hrest
    · obtain ⟨hs, he⟩ := ih hrest
      exact ⟨hs, he.imp_right fun he => ⟨he.1, he.2.imp (by omega) (by omega)⟩⟩
    · exact absurd hrest stops_pure

end

def Device.note (m : UInt8) (d : Device) : Device :=
  { d with calls := d.calls ++ [(m, d.bitstream.bytes)] }

def LoopMarker (m : UInt8) : Prop := m ≠ mSoi ∧ m ≠ mEoi ∧ m ≠ mSos ∧ m ∉ unexpected

instance : DecidablePred LoopMarker := fun _ => inferInstanceAs (Decidable (_ ∧ _))

theorem processTables_run (hm : LoopMarker m)
    (h₁ : Runs Device.answer (getNextMarker fuel) s d m s₁ d₁)
    (h₂ : Runs Device.answer (segment m) s₁ (d₁.note m) () s₂ d₂) :
    (processTables fuel (n + 1) s).run Device.answer d =
      (processTables fuel n s₂).run Device.answer d₂ := by
  have hhandle : Runs Device.answer (handle m) s₁ d₁ () s₁ (d₁.note m) := rfl
  have hstop : ¬ (m = mSoi ∨ m = mEoi ∨ m = mSos) := by
    rintro (h | h | h)
    · exact hm.1 h
    · exact hm.2.1 h
    · exact hm.2.2.1 h
  have hun : ¬ m ∈ unexpected := hm.2.2.2
  rw [processTables, h₁.run_bind, if_neg hstop, if_neg hun, hhandle.run_bind, h₂.run_bind]

/-- A handler that succeeds has read the declared length of its segment exactly when the segment is
`Exact`. -/
theorem loop_resumes_behind_segment {fuel n : Nat}
    (h₁ : Runs Device.answer (getNextMarker fuel) s d m s₁ d₁)
    (h₂ : Runs Device.answer (segment m) s₁ (d₁.note m) () s₂ d₂) :
    (declared d₁.bitstream.bytes ≤ d₁.bitstream.bytes.length ∧
        d₂.bitstream.bytes = d₁.bitstream.bytes.drop (declared d₁.bitstream.bytes) ↔
      Exact m d₁.bitstream.bytes) ∧
    (LoopMarker m → (processTables fuel (n + 1) s).run Device.answer d =
      (processTables fuel n s₂).run Device.answer d₂) := by
  refine ⟨?_, fun hm => processTables_run hm h₁ h₂⟩
  obtain ⟨k, hk, hiff⟩ := segment_took (Device.run_plain h₂)
  have hrest : d₂.bitstream.bytes = d₁.bitstream.bytes.drop k := hk.rest
  have hle : k ≤ d₁.bitstream.bytes.length := hk.le
  rw [show Exact m d₁.bitstream.bytes ↔ k = declared d₁.bitstream.bytes from hiff.symm]
  constructor
  · rintro ⟨hdecl, hdrop⟩
    have hlen := congrArg List.length (hrest.symm.trans hdrop)
    rw [List.length_drop, List.length_drop] at hlen
    omega
  · rintro rfl
    exact ⟨hle, hrest⟩

def emptyInput : DecInput := ⟨false, 0, 0, .yuv420, .low⟩

/-- A restart interval is read whole, and the loop goes on behind it. -/
theorem restart_interval_read : ∃ d₁ s₂ d₂,
    Runs Device.answer (getNextMarker 4) { input := emptyInput }
      ⟨⟨[0xFF, 0xDD, 0], [[4, 0], [8, 0xFF]], by simp⟩, 0, 0, []⟩ mDri { input := emptyInput } d₁ ∧
    (declared d₁.bitstream.bytes ≤ d₁.bitstream.bytes.length ∧
        d₂.bitstream.bytes = d₁.bitstream.bytes.drop (declared d₁.bitstream.bytes) ↔
      Exact mDri d₁.bitstream.bytes) ∧
    (LoopMarker mDri →
      (processTables 4 1 { input := emptyInput }).run Device.answer
          ⟨⟨[0xFF, 0xDD, 0], [[4, 0], [8, 0xFF]], by simp⟩, 0, 0, []⟩ =
        (processTables 4 0 s₂).run Device.answer d₂) :=
  ⟨_, _, _, rfl, loop_resumes_behind_segment rfl rfl⟩

/-- An APP0 segment of ten bytes, up to the end of the stream, whose contents look like a scan
header: the parser takes them for one. -/
theorem app0_contents_parsed : ∃ s d,
    jpegFwParseHead 20 4096 emptyInput
        (.whole [0xFF, 0xD8, 0xFF, 0xE0, 0, 10, 0xFF, 0xDA, 0, 6, 0, 0, 0x3F, 0] fun _ => 0) =
      some (.ok () s, d) ∧
    d.calls = [(mApp0, [0, 10, 0xFF, 0xDA, 0, 6, 0, 0, 0x3F, 0]), (mSos, [0, 6, 0, 0, 0x3F, 0])] ∧
    declared [0, 10, 0xFF, 0xDA, 0, 6, 0, 0, 0x3F, 0] = 10 :=
  ⟨_, _, rfl, rfl, rfl⟩

end SprdVendor.Jpeg
