import SprdVendor.Jpeg.Segments
import SprdVendor.Lib.Canonical

namespace SprdVendor.Jpeg
open List hiding length
open SprdVendor.Lib Procedure

namespace HuffTbl

def count (t : HuffTbl) (l : Nat) : Nat :=
  if h : 0 < l ∧ l < 17 then (t.bits ⟨l, h.2⟩).toNat else 0

def huffsize (t : HuffTbl) : List Nat :=
  (List.range 17).flatMap fun l => List.replicate (t.count l) l

/-- The loops that generate the codes, with what is left of `huffsize`: the inner one takes the
entries that are `si`. -/
def codesLoop : Nat → UInt16 → Nat → List Nat → List UInt16
  | 0, _, _, _ => []
  | fuel + 1, code, si, sizes =>
    if sizes = [] then []
    else
      let n := (sizes.takeWhile (· = si)).length
      (List.range n).map (fun k => code + .ofNat k) ++
        codesLoop fuel ((code + .ofNat n) <<< 1) (si + 1) (sizes.drop n)

def huffcode (t : HuffTbl) (p : Nat) : Nat :=
  ((codesLoop 17 0 (t.huffsize.headD 0) t.huffsize).getD p 0xFFFF).toNat

def valptr (t : HuffTbl) (l : Nat) : Nat := firstPlace t.count l % 256

def maxcode (t : HuffTbl) (l : Nat) : Option Nat :=
  if t.count l = 0 then none else some (t.huffcode (firstPlace t.count l + t.count l - 1))

def activeBaseMax (t : HuffTbl) : Nat → Nat
  | 0 => 0
  | l + 1 =>
    match t.maxcode (l + 1) with
    | some m => 1 <<< 31 ||| t.valptr (l + 1) <<< 16 ||| m
    | none =>
      match t.maxcode l with
      | some m => (m + 1) * 2
      | none => t.activeBaseMax l % 2 ^ 16 * 2

/-- How the tables decode a word of `len` bits: its first `l` bits are a code word if they are not
above the largest code of that length, and their distance from the first code leads to the symbol.
-/
def decode (t : HuffTbl) (word len : Nat) : Option Nat :=
  (List.range' 1 len).findSome? fun l =>
    let entry := t.activeBaseMax l
    let base := entry >>> 16 % 2 ^ 15
    let code := word / 2 ^ (len - l)
    if entry >>> 31 = 1 ∧ code ≤ entry % 2 ^ 16 then some (base + (code - t.huffcode base))
    else none

/-- There are code words enough for the symbols. -/
def Kraft (t : HuffTbl) : Prop := ∑ l ∈ Finset.range 17, t.count l * 2 ^ (16 - l) ≤ 2 ^ 16
deriving Decidable

variable {t : HuffTbl}

theorem codesLoop_eq (b : Nat → Nat) (hn : n ≤ fuel) (l : Nat) :
    codesLoop fuel (.ofNat (firstCode b l)) l
        ((List.range' l n).flatMap fun l => List.replicate (b l) l) =
      (List.range' l n).flatMap fun l =>
        (List.range (b l)).map fun k => .ofNat (firstCode b l + k) := by
  induction n generalizing fuel l with
  | zero => cases fuel <;> rfl
  | succ n ih =>
    obtain ⟨fuel, rfl⟩ := Nat.exists_eq_succ_of_ne_zero (Nat.ne_zero_of_lt hn)
    have hrest : ∀ x ∈ (List.range' (l + 1) n).flatMap fun l => List.replicate (b l) l, x ≠ l := by
      intro x hx
      obtain ⟨m, hm, hx⟩ := mem_flatMap.mp hx
      rw [(mem_replicate.mp hx).2]
      have := (mem_range'_1.mp hm).1
      omega
    have htake : (List.replicate (b l) l ++ (List.range' (l + 1) n).flatMap fun l =>
        List.replicate (b l) l).takeWhile (· = l) = List.replicate (b l) l := by
      rw [takeWhile_append_of_pos (by simp), takeWhile_eq_nil_iff.mpr, append_nil]
      intro hpos
      simpa using hrest _ (getElem_mem hpos)
    have hnext : (UInt16.ofNat (firstCode b l) + .ofNat (b l)) <<< 1 =
        .ofNat (firstCode b (l + 1)) := by
      apply UInt16.toNat.inj
      simp [firstCode, Nat.shiftLeft_eq, Nat.mul_comm]
    rw [range'_succ, flatMap_cons, flatMap_cons, codesLoop]
    dsimp only
    rw [htake, length_replicate, drop_left' length_replicate, hnext, ih (Nat.le_of_succ_le_succ hn)]
    split
    · rename_i hnil
      obtain ⟨hl, hrest⟩ := append_eq_nil_iff.mp hnil
      have hzero {m : Nat} (hm : List.replicate (b m) m = []) : b m = 0 := by simpa using hm
      rw [hzero hl, range_zero, map_nil, nil_append]
      symm
      rw [flatMap_eq_nil_iff] at hrest ⊢
      intro m hm
      rw [hzero (hrest m hm), range_zero, map_nil]
    · simp

theorem codesLoop_head (b : Nat → Nat) (hn : n ≤ fuel) (hl : firstCode b l = 0) :
    codesLoop fuel 0 (((List.range' l n).flatMap fun l => List.replicate (b l) l).headD 0)
        ((List.range' l n).flatMap fun l => List.replicate (b l) l) =
      (List.range' l n).flatMap fun l =>
        (List.range (b l)).map fun k => .ofNat (firstCode b l + k) := by
  induction n generalizing l with
  | zero => cases fuel <;> rfl
  | succ n ih =>
    cases hb : b l with
    | zero =>
      rw [range'_succ, flatMap_cons, flatMap_cons, hb]
      exact ih (Nat.le_of_succ_le hn) (by rw [firstCode, hl, hb])
    | succ k =>
      have hhead :
          ((range' l (n + 1)).flatMap fun l => List.replicate (b l) l).headD 0 = l := by
        rw [range'_succ, flatMap_cons, hb]
        rfl
      have heq := codesLoop_eq b hn l
      rw [hl] at heq
      rw [hhead]
      exact heq

theorem huffcode_eq (hkraft : t.Kraft) (hl : l < 17) (hk : k < t.count l) :
    t.huffcode (firstPlace t.count l + k) = firstCode t.count l + k := by
  have hfit := firstCode_add_le_two_pow hkraft (Nat.le_of_lt_succ hl)
  have hpow : 2 ^ l ≤ 2 ^ 16 := Nat.pow_le_pow_right (by decide) (Nat.le_of_lt_succ hl)
  have hloop := codesLoop_head t.count (le_refl 17) (l := 0) rfl
  rw [← range_eq_range'] at hloop
  rw [huffcode, huffsize, hloop, getD_eq_getElem?_getD,
    getElem?_flatMap_range (fun l => by rw [length_map, length_range]) hl hk,
    getElem?_map, getElem?_range hk]
  have hlt : firstCode t.count l + k < 2 ^ 16 := by omega
  exact UInt16.toNat_ofNat_of_lt hlt

theorem maxcode_eq (hkraft : t.Kraft) (hl : l < 17) (hpos : 0 < t.count l) :
    t.maxcode l = some (firstCode t.count l + t.count l - 1) := by
  rw [maxcode, if_neg (by omega), Nat.add_sub_assoc hpos, huffcode_eq hkraft hl (by omega),
    Nat.add_sub_assoc hpos]

theorem maxcode_lt (h : t.maxcode l = some m) : m < 2 ^ 16 := by
  rw [maxcode] at h
  split at h
  · cases h
  · cases h
    exact UInt16.toNat_lt _

theorem activeBaseMax_some (h : t.maxcode (l + 1) = some m) :
    t.activeBaseMax (l + 1) = 2 ^ 31 + t.valptr (l + 1) * 2 ^ 16 + m := by
  have hm := maxcode_lt h
  have hv : t.valptr (l + 1) < 256 := Nat.mod_lt _ (by decide)
  rw [activeBaseMax, h]
  dsimp only
  rw [Nat.or_assoc, ← Nat.shiftLeft_add_eq_or_of_lt hm, ← Nat.shiftLeft_add_eq_or_of_lt,
    Nat.shiftLeft_eq, Nat.shiftLeft_eq]
  · omega
  · rw [Nat.shiftLeft_eq]
    omega

theorem activeBaseMax_none (h : t.maxcode (l + 1) = none) : t.activeBaseMax (l + 1) < 2 ^ 31 := by
  rw [activeBaseMax, h]
  dsimp only
  split
  · rename_i hm
    have := maxcode_lt hm
    omega
  · omega

theorem count_zero (t : HuffTbl) : t.count 0 = 0 := rfl

theorem skip_shorter (hkraft : t.Kraft) (hl : 0 < l) (hlm : l < m) (hm : m < 17) (k : Nat)
    (hactive : t.activeBaseMax l >>> 31 = 1) :
    t.activeBaseMax l % 2 ^ 16 < (firstCode t.count m + k) / 2 ^ (m - l) := by
  obtain ⟨l, rfl⟩ : ∃ n, l = n + 1 := Nat.exists_eq_succ_of_ne_zero (Nat.ne_of_gt hl)
  have hgap : firstCode t.count (l + 1) + t.count (l + 1) ≤
      (firstCode t.count m + k) / 2 ^ (m - (l + 1)) :=
    (firstCode_add_le hlm).trans (Nat.div_le_div_right (Nat.le_add_right _ _))
  cases hmax : t.maxcode (l + 1) with
  | none =>
    have := activeBaseMax_none hmax
    rw [Nat.shiftRight_eq_div_pow] at hactive
    omega
  | some c =>
    have hc := maxcode_lt hmax
    have hpos : 0 < t.count (l + 1) := by
      by_contra hzero
      rw [maxcode, if_pos (by omega)] at hmax
      cases hmax
    rw [maxcode_eq hkraft (by omega) hpos] at hmax
    cases hmax
    rw [activeBaseMax_some (maxcode_eq hkraft (by omega) hpos)]
    omega

theorem decode_eq (hkraft : t.Kraft) (htotal : firstPlace t.count 17 ≤ 256) (hm : m < 17)
    (hk : k < t.count m) :
    t.decode (firstCode t.count m + k) m = some (firstPlace t.count m + k) := by
  obtain ⟨m, rfl⟩ : ∃ n, m = n + 1 := by
    refine Nat.exists_eq_succ_of_ne_zero ?_
    rintro rfl
    rw [count_zero] at hk
    omega
  have hplace : firstPlace t.count (m + 1) + t.count (m + 1) ≤ firstPlace t.count 17 := by
    rw [firstPlace, ← Finset.sum_range_succ]
    exact Finset.sum_le_sum_of_subset (Finset.range_mono hm)
  have hval : t.valptr (m + 1) = firstPlace t.count (m + 1) := Nat.mod_eq_of_lt (by omega)
  have hfirst : t.huffcode (firstPlace t.count (m + 1)) = firstCode t.count (m + 1) :=
    huffcode_eq hkraft hm (Nat.zero_lt_of_lt hk)
  have hmax := maxcode_eq hkraft hm (Nat.zero_lt_of_lt hk)
  have hlast := maxcode_lt hmax
  rw [decode, range'_1_concat, findSome?_append, findSome?_eq_none_iff.mpr]
  · rw [Option.none_or, findSome?_singleton, add_comm 1 m, activeBaseMax_some hmax, hval,
      Nat.sub_self, Nat.pow_zero, Nat.div_one]
    simp only [Nat.shiftRight_eq_div_pow]
    have hbase : (2 ^ 31 + firstPlace t.count (m + 1) * 2 ^ 16 +
        (firstCode t.count (m + 1) + t.count (m + 1) - 1)) / 2 ^ 16 % 2 ^ 15 =
        firstPlace t.count (m + 1) := by omega
    rw [if_pos ⟨by omega, by omega⟩, hbase, hfirst, Nat.add_sub_cancel_left]
  · intro l hl
    obtain ⟨hl, hlm⟩ := mem_range'_1.mp hl
    refine if_neg fun h => ?_
    exact not_lt.mpr h.2 (skip_shorter hkraft hl (by omega) hm k h.1)

theorem firstPlace_le (t : HuffTbl) :
    firstPlace t.count 17 ≤ ((List.finRange 17).map fun j => (t.bits j).toNat).sum := by
  rw [firstPlace, Finset.sum_range, ← Fin.sum_univ_def]
  refine Finset.sum_le_sum fun l _ => ?_
  rw [count]
  split
  · exact le_refl _
  · exact Nat.zero_le _

theorem huffcode_lt (hkraft : t.Kraft) (hp : t.huffsize[p]? = some l) :
    t.huffcode p < 2 ^ l := by
  obtain ⟨hl, k, hk, rfl⟩ := exists_of_getElem?_sizes hp
  rw [huffcode_eq hkraft hl hk]
  have hfit := firstCode_add_le_two_pow hkraft (Nat.le_of_lt_succ hl)
  omega

theorem huffcode_not_prefix (hkraft : t.Kraft) (hp : t.huffsize[p]? = some l)
    (hq : t.huffsize[q]? = some m) (hne : q ≠ p) (hlm : l ≤ m) :
    t.huffcode q / 2 ^ (m - l) ≠ t.huffcode p := by
  obtain ⟨hl, j, hj, rfl⟩ := exists_of_getElem?_sizes hp
  obtain ⟨hm, k, hk, rfl⟩ := exists_of_getElem?_sizes hq
  rw [huffcode_eq hkraft hl hj, huffcode_eq hkraft hm hk]
  obtain rfl | hlt := eq_or_lt_of_le hlm
  · rw [Nat.sub_self, Nat.pow_zero, Nat.div_one]
    omega
  · have hgap := (firstCode_add_le hlt).trans
      (Nat.div_le_div_right (Nat.le_add_right (firstCode t.count m) k))
    omega

end HuffTbl

theorem get_modify (ts : HuffTbls) (k : Fin 4) (f : HuffTbl → HuffTbl) (cls : HuffClass) :
    (ts.modify k f cls).get cls k = f (ts.get cls k) := by
  cases cls <;> exact Function.update_self ..

theorem huffCount_getHuffval (h : Runs Plain.answer (getHuffval cls k j) s i u s' i') :
    huffCount s' cls k = huffCount s cls k := by
  simp only [getHuffval, storeHuffval, storeHuffTbl, compareDefault, runs_bind, runs_getChar,
    runs_inside, runs_update] at h
  obtain ⟨c, t, _, hchar, _, _, _, ⟨n, _, _, ⟨-, rfl, rfl⟩, rfl, -⟩, rfl, -⟩ := h
  obtain ⟨-, rfl, -⟩ := hchar
  unfold huffCount
  cases s.huffTbls with
  | none => rfl
  | some ts =>
    simp [get_modify]

theorem huffCount_le (h : Runs Plain.answer (getHuffTblBody cls index length) s i r s' i')
    (hi : index < 4) : huffCount s' cls ⟨index, hi⟩ ≤ 256 := by
  simp only [getHuffTblBody, runs_bind, runs_inside, runs_look, runs_haltIf, runs_pure] at h
  obtain ⟨k, _, _, ⟨hk, -, -⟩, _, _, _, -, _, _, _, -, _, t, _, ⟨rfl, rfl, -⟩,
    _, _, _, ⟨hcount, rfl, -⟩, _, _, _, hvals, _, _, _, ⟨-, rfl, -⟩, -, rfl, -⟩ := h
  obtain rfl : k = ⟨index, hi⟩ := Fin.ext hk
  refine hvals.times (I := fun _ s _ => huffCount s cls ⟨index, hi⟩ ≤ 256) ?_
    (Nat.le_of_not_lt hcount)
  intro _ s i s' i' _ hle hval
  rw [huffCount_getHuffval hval]
  exact hle

def noTables : Header := { input := emptyInput, huffTbls := some {} }

end SprdVendor.Jpeg
