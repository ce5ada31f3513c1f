import SprdVendor.LibDm.Cred

namespace SprdVendor.LibDm
open Lib List

theorem decodeTable_encodeTable :
    ∀ i < 64, decodeTable.getD (encodeTable.getD i 0).toNat bJnk = UInt8.ofNat i := by
  decide +kernel

theorem sextet_valid : ∀ i < 64, UInt8.ofNat i ≠ bJnk ∧ UInt8.ofNat i ≠ bPad := by
  decide

theorem decodeLoop_table (h : i < 64) (src : List UInt8) (s : Decoder) :
    decodeLoop (encodeTable.getD i 0 :: src) s = s.char (UInt8.ofNat i) >>= decodeLoop src := by
  obtain ⟨hjnk, hpad⟩ := sextet_valid i h
  rw [decodeLoop, decodeTable_encodeTable i h]
  simp only [if_neg hjnk, if_neg hpad]

theorem decodeLoop_lineBreak (k : Nat) (src : List UInt8) (s : Decoder) :
    decodeLoop (lineBreak k ++ src) s = decodeLoop src s := by
  have hcr : decodeTable.getD (13 : UInt8).toNat bJnk = bJnk := by decide +kernel
  have hlf : decodeTable.getD (10 : UInt8).toNat bJnk = bJnk := by decide +kernel
  rw [lineBreak]
  split
  · rw [cons_append, decodeLoop, hcr, if_pos rfl, cons_append, decodeLoop, hlf,
      if_pos rfl, nil_append]
  · rfl

theorem or_eq_of_bits {x y b : UInt8} (i : Nat) (hx : x.toNat = 2 ^ i * (b.toNat / 2 ^ i))
    (hy : y.toNat = b.toNat % 2 ^ i) : x ||| y = b := by
  apply UInt8.toNat_inj.1
  have hlt : b.toNat % 2 ^ i < 2 ^ i := Nat.mod_lt _ (Nat.two_pow_pos i)
  rw [UInt8.toNat_or, hx, hy, ← Nat.two_pow_add_eq_or_of_lt hlt, Nat.div_add_mod]

theorem toNat_shl (hi : i < 8) : (UInt8.ofNat x <<< UInt8.ofNat i).toNat = x * 2 ^ i % 256 := by
  rw [UInt8.toNat_shiftLeft, UInt8.toNat_ofNat', UInt8.toNat_ofNat',
    Nat.mod_eq_of_lt (by omega : i < 2 ^ 8), Nat.mod_eq_of_lt hi, Nat.shiftLeft_eq, Nat.mod_mul_mod]

theorem toNat_shr (hx : x < 256) (hi : i < 8) :
    (UInt8.ofNat x >>> UInt8.ofNat i).toNat = x / 2 ^ i := by
  rw [UInt8.toNat_shiftRight, UInt8.toNat_ofNat', UInt8.toNat_ofNat',
    Nat.mod_eq_of_lt (by omega : i < 2 ^ 8), Nat.mod_eq_of_lt hi, Nat.mod_eq_of_lt hx,
    Nat.shiftRight_eq_div_pow]

theorem and_three (n : Nat) : n &&& 0x03 = n % 4 := Nat.and_two_pow_sub_one_eq_mod n 2

theorem and_fifteen (n : Nat) : n &&& 0x0F = n % 16 := Nat.and_two_pow_sub_one_eq_mod n 4

theorem and_sixtyThree (n : Nat) : n &&& 0x3F = n % 64 := Nat.and_two_pow_sub_one_eq_mod n 6

theorem low_two (a : UInt8) : (a.toNat &&& 0x03) <<< 4 % 16 = 0 ∧ (a.toNat &&& 0x03) <<< 4 < 64 := by
  rw [and_three, Nat.shiftLeft_eq]
  omega

theorem high_four (b : UInt8) : b.toNat >>> 4 < 16 := by
  have hb := b.toNat_lt
  rw [Nat.shiftRight_eq_div_pow]
  omega

theorem low_four (b : UInt8) : (b.toNat &&& 0x0F) <<< 2 % 4 = 0 ∧ (b.toNat &&& 0x0F) <<< 2 < 64 := by
  rw [and_fifteen, Nat.shiftLeft_eq]
  omega

theorem high_two (c : UInt8) : (c.toNat &&& 0xC0) >>> 6 = c.toNat / 64 := by
  have hc := c.toNat_lt
  rw [Nat.shiftRight_and_distrib, Nat.shiftRight_eq_div_pow]
  exact (Nat.and_two_pow_sub_one_eq_mod _ 2).trans (Nat.mod_eq_of_lt (by omega))

theorem high_two_lt (c : UInt8) : (c.toNat &&& 0xC0) >>> 6 < 4 := by
  have hc := c.toNat_lt
  rw [high_two]
  omega

theorem first_byte (a : UInt8) (hy : y < 16) :
    UInt8.ofNat (a.toNat >>> 2) <<< 2 ||| UInt8.ofNat ((a.toNat &&& 0x03) <<< 4 + y) >>> 4 = a := by
  have ha := a.toNat_lt
  rw [and_three, Nat.shiftRight_eq_div_pow, Nat.shiftLeft_eq]
  apply or_eq_of_bits 2
  · exact (toNat_shl (i := 2) (by decide)).trans (by omega)
  · exact (toNat_shr (i := 4) (by omega) (by decide)).trans (by omega)

theorem second_byte (a b : UInt8) (hy : y < 4) :
    UInt8.ofNat ((a.toNat &&& 0x03) <<< 4 + b.toNat >>> 4) <<< 4 |||
      UInt8.ofNat ((b.toNat &&& 0x0F) <<< 2 + y) >>> 2 = b := by
  have hb := b.toNat_lt
  rw [and_three, and_fifteen, Nat.shiftRight_eq_div_pow, Nat.shiftLeft_eq, Nat.shiftLeft_eq]
  apply or_eq_of_bits 4
  · exact (toNat_shl (i := 4) (by decide)).trans (by omega)
  · exact (toNat_shr (i := 2) (by omega) (by decide)).trans (by omega)

theorem third_byte (b c : UInt8) :
    UInt8.ofNat ((b.toNat &&& 0x0F) <<< 2 + (c.toNat &&& 0xC0) >>> 6) <<< 6 |||
      UInt8.ofNat (c.toNat &&& 0x3F) = c := by
  have hc := c.toNat_lt
  rw [high_two, and_fifteen, and_sixtyThree, Nat.shiftLeft_eq]
  apply or_eq_of_bits 6
  · exact (toNat_shl (i := 6) (by decide)).trans (by omega)
  · rw [UInt8.toNat_ofNat', Nat.mod_eq_of_lt (by omega)]
    rfl

def midway (e : Nat) (pre r : List UInt8) (cntr : Nat) (dest : List UInt8) (destl rt : Nat) :
    Decoder := ⟨e, pre ++ r, pre.length, cntr, dest, destl, rt⟩

inductive AtQuantum (dest : List UInt8) (destl : Nat) : List UInt8 → Decoder → Prop where
  | intro (done pre r : List UInt8) (hthree : pre.length % 3 = 0) (hlen : pre.length + r.length = base64BufLen)
      (hshort : 4 * (pre.length / 3) < num) :
    AtQuantum dest destl (done ++ pre) (midway 0 pre r (4 * (pre.length / 3)) (patch dest 0 done)
      (destl - done.length) done.length)

section Decode

variable {dest pre r : List UInt8}

theorem install_midway (c : UInt8) : (midway e pre (x :: r) n dest destl rt).install c =
    midway e pre (c :: r) n dest destl rt := by
  simp [Decoder.install, midway, set_append_right _ _ le_rfl]

theorem complete_midway (c : UInt8) : (midway e pre (x :: r) n dest destl rt).complete c =
    midway e (pre ++ [x ||| c]) r n dest destl rt := by
  have hget : (pre ++ x :: r).getD pre.length 0 = x := by
    rw [getD_append_right _ _ _ _ le_rfl, Nat.sub_self]
    rfl
  simp only [Decoder.complete, midway, hget, set_append_right _ _ le_rfl, Nat.sub_self,
    set_cons_zero, length_append, length_singleton, append_assoc, cons_append, nil_append]

theorem char_zero (c : UInt8) : (midway 0 pre (x :: r) n dest destl rt).char c =
    some (midway 1 pre (c <<< 2 :: r) n dest destl rt) := by
  have hinstall : (midway 0 pre (x :: r) n dest destl rt).install (c <<< 2) =
      midway 0 pre (c <<< 2 :: r) n dest destl rt := install_midway (c <<< 2)
  exact congrArg (fun s : Decoder => some { s with e := 1 }) hinstall

theorem char_one (c : UInt8) : (midway 1 pre (x :: y :: r) n dest destl rt).char c =
    some (midway 2 (pre ++ [x ||| c >>> 4]) (c <<< 4 :: r) n dest destl rt) := by
  have hboth : ((midway 1 pre (x :: y :: r) n dest destl rt).complete (c >>> 4)).install (c <<< 4) =
      midway 1 (pre ++ [x ||| c >>> 4]) (c <<< 4 :: r) n dest destl rt := by
    rw [complete_midway, install_midway]
  exact congrArg (fun s : Decoder => some { s with e := 2 }) hboth

theorem char_two (c : UInt8) : (midway 2 pre (x :: y :: r) n dest destl rt).char c =
    some (midway 3 (pre ++ [x ||| c >>> 2]) (c <<< 6 :: r) n dest destl rt) := by
  have hboth : ((midway 2 pre (x :: y :: r) n dest destl rt).complete (c >>> 2)).install (c <<< 6) =
      midway 2 (pre ++ [x ||| c >>> 2]) (c <<< 6 :: r) n dest destl rt := by
    rw [complete_midway, install_midway]
  exact congrArg (fun s : Decoder => some { s with e := 3 }) hboth

theorem char_three (c : UInt8) : (midway 3 pre (x :: r) n dest destl rt).char c =
    if n + 4 = num then
      (midway 0 (pre ++ [x ||| c]) r (n + 4) dest destl rt).flush.map fun s => { s with cntr := 0 }
    else some (midway 0 (pre ++ [x ||| c]) r (n + 4) dest destl rt) := by
  have hcomplete : (midway 3 pre (x :: r) n dest destl rt).complete c =
      midway 3 (pre ++ [x ||| c]) r n dest destl rt := complete_midway c
  exact congrArg (fun s : Decoder =>
    if n + 4 = num then
      ({ s with e := 0, cntr := n + 4 } : Decoder).flush.map fun s => { s with cntr := 0 }
    else some { s with e := 0, cntr := n + 4 }) hcomplete

theorem flush_midway (h : pre.length ≤ destl) :
    (midway e pre r n dest destl rt).flush =
      some (midway e [] (List.replicate base64BufLen 0) n (patch dest rt pre) (destl - pre.length)
        (rt + pre.length)) := by
  have htake : (pre ++ r).take pre.length = pre := take_left
  simp [Decoder.flush, midway, if_neg (not_lt.2 h), htake]

theorem AtQuantum.init : AtQuantum dest destl []
    ⟨0, List.replicate base64BufLen 0, 0, 0, dest, destl, 0⟩ := by
  have hlen : ([] : List UInt8).length + (List.replicate base64BufLen (0 : UInt8)).length =
      base64BufLen := by rw [length_nil, length_replicate, zero_add]
  have h := @AtQuantum.intro dest destl [] [] _ rfl hlen (by decide)
  rwa [patch_nil] at h

theorem decode_pair (hi : i < 64) (hj : j < 64) (src : List UInt8) :
    decodeLoop (encodeTable.getD i 0 :: encodeTable.getD j 0 :: src)
        (midway 0 pre (x :: y :: r) n dest destl rt) =
      decodeLoop src (midway 2 (pre ++ [UInt8.ofNat i <<< 2 ||| UInt8.ofNat j >>> 4])
        (UInt8.ofNat j <<< 4 :: r) n dest destl rt) := by
  rw [decodeLoop_table hi, char_zero]
  simp only [bind, Option.bind]
  rw [decodeLoop_table hj, char_one]
  rfl

theorem decode_third (hi : i < 64) (src : List UInt8) :
    decodeLoop (encodeTable.getD i 0 :: src) (midway 2 pre (x :: y :: r) n dest destl rt) =
      decodeLoop src (midway 3 (pre ++ [x ||| UInt8.ofNat i >>> 2]) (UInt8.ofNat i <<< 6 :: r) n
        dest destl rt) := by
  rw [decodeLoop_table hi, char_two]
  rfl

theorem first_index_lt (a : UInt8) : a.toNat >>> 2 < 64 := by
  have ha := a.toNat_lt
  rw [Nat.shiftRight_eq_div_pow]
  omega

theorem second_index_lt (a : UInt8) (hy : y < 16) : (a.toNat &&& 0x03) <<< 4 + y < 64 := by
  have ha := low_two a
  omega

theorem third_index_lt (b : UInt8) (hy : y < 4) : (b.toNat &&& 0x0F) <<< 2 + y < 64 := by
  have hb := low_four b
  omega

theorem fourth_index_lt (c : UInt8) : c.toNat &&& 0x3F < 64 := by
  rw [and_sixtyThree]
  exact Nat.mod_lt _ (by decide)

theorem exists_three (hlen : pre.length + r.length = base64BufLen)
    (hshort : 4 * (pre.length / 3) < num) : ∃ x y z r', r = x :: y :: z :: r' := by
  have hnum : num = 164 := rfl
  have hbuf : base64BufLen = 128 := rfl
  match r, (by omega : 3 ≤ r.length) with
  | x :: y :: z :: r, _ => exact ⟨x, y, z, r, rfl⟩

theorem AtQuantum.group (h : AtQuantum dest destl out s) (a b c : UInt8)
    (hroom : out.length + 3 ≤ destl) (hdest : destl ≤ dest.length) :
    ∃ s', AtQuantum dest destl (out ++ [a, b, c]) s' ∧
      ∀ src, decodeLoop (quad3 a b c ++ src) s = decodeLoop src s' := by
  have hnum : num = 164 := rfl
  have hbuf : base64BufLen = 128 := rfl
  cases h with
  | intro done pre r hthree hlen hshort =>
    rw [length_append] at hroom
    obtain ⟨x, y, z, r, rfl⟩ := exists_three hlen hshort
    have hdone : (patch dest 0 done).length = dest.length := length_patch _ _ (by omega)
    have hbytes : pre ++ [a] ++ [b] ++ [c] = pre ++ [a, b, c] := by simp
    have hcount : (pre ++ [a, b, c]).length = pre.length + 3 := by simp
    simp only [length_cons] at hlen
    have hloop : ∀ src, decodeLoop (quad3 a b c ++ src) (midway 0 pre (x :: y :: z :: r)
        (4 * (pre.length / 3)) (patch dest 0 done) (destl - done.length) done.length) =
          (if 4 * (pre.length / 3) + 4 = num then
            (midway 0 (pre ++ [a, b, c]) r (4 * (pre.length / 3) + 4) (patch dest 0 done)
              (destl - done.length) done.length).flush.map fun s => { s with cntr := 0 }
          else some (midway 0 (pre ++ [a, b, c]) r (4 * (pre.length / 3) + 4) (patch dest 0 done)
            (destl - done.length) done.length)) >>= decodeLoop src := by
      intro src
      rw [quad3, quad]
      simp only [map_cons, map_nil, cons_append, nil_append]
      rw [decode_pair (first_index_lt a) (second_index_lt a (high_four b)),
        first_byte a (high_four b), decode_third (third_index_lt b (high_two_lt c)),
        second_byte a b (high_two_lt c), decodeLoop_table (fourth_index_lt c), char_three,
        third_byte b c, hbytes]
    by_cases hfull : 4 * (pre.length / 3) + 4 = num
    · have hlong : (pre ++ [a, b, c]).length ≤ destl - done.length := by omega
      have hcopied : patch (patch dest 0 done) done.length (pre ++ [a, b, c]) =
          patch dest 0 (done ++ (pre ++ [a, b, c])) := by
        have h := patch_patch dest done (pre ++ [a, b, c]) (by omega : 0 + done.length ≤ _)
        rwa [zero_add] at h
      have hzero : ([] : List UInt8).length + (List.replicate base64BufLen (0 : UInt8)).length =
          base64BufLen := by rw [length_nil, length_replicate, zero_add]
      have hnext := @AtQuantum.intro dest destl (done ++ (pre ++ [a, b, c])) [] _ rfl hzero
        (by decide)
      rw [append_nil, ← append_assoc] at hnext
      refine ⟨_, hnext, fun src => ?_⟩
      rw [hloop, if_pos hfull, flush_midway hlong, hcopied, Nat.sub_sub, ← length_append,
        ← append_assoc]
      rfl
    · refine ⟨_, ?_, fun src => by rw [hloop, if_neg hfull]; rfl⟩
      have hdiv : 4 * (pre.length / 3) + 4 = 4 * ((pre ++ [a, b, c]).length / 3) := by omega
      rw [append_assoc, hdiv]
      exact .intro done (pre ++ [a, b, c]) r (by omega) (by omega) (by omega)

theorem encodeTable_pad : encodeTable.getD 64 0 = 61 := by
  decide +kernel

theorem decodeTable_pad : decodeTable.getD (61 : UInt8).toNat bJnk = bPad := by
  decide +kernel

theorem decode_pad (src : List UInt8) :
    decodeLoop (encodeTable.getD 64 0 :: src) (midway 3 pre r n dest destl rt) =
      (midway 4 pre r n dest destl rt).flushRest := by
  rw [encodeTable_pad, decodeLoop, decodeTable_pad]
  rfl

theorem decode_pad_pad (src : List UInt8) :
    decodeLoop (encodeTable.getD 64 0 :: encodeTable.getD 64 0 :: src)
        (midway 2 pre r n dest destl rt) =
      (midway 4 pre r n dest destl rt).flushRest := by
  have hpad : decodeLoop (encodeTable.getD 64 0 :: src) (midway 3 pre r n dest destl rt) =
      (midway 4 pre r n dest destl rt).flushRest := decode_pad src
  rw [encodeTable_pad] at hpad ⊢
  rw [decodeLoop, decodeTable_pad]
  exact hpad

theorem flushRest_midway (e n : Nat) (r : List UInt8) (hroom : (done ++ pre).length ≤ destl)
    (hdest : destl ≤ dest.length) :
    ∃ s : Decoder, (midway e pre r n (patch dest 0 done) (destl - done.length)
        done.length).flushRest = some s ∧ s.tempDst = 0 ∧ s.dest = patch dest 0 (done ++ pre) ∧
      s.destl = destl - (done ++ pre).length ∧ s.rt = (done ++ pre).length := by
  rw [length_append] at hroom
  cases pre with
  | nil =>
    rw [append_nil]
    exact ⟨_, rfl, rfl, rfl, rfl, rfl⟩
  | cons b pre =>
    have hcopied := patch_patch dest done (b :: pre) (by omega : 0 + done.length ≤ _)
    rw [zero_add] at hcopied
    rw [Decoder.flushRest, if_neg (by exact Nat.succ_ne_zero _), flush_midway (by omega), hcopied,
      Nat.sub_sub, ← length_append]
    exact ⟨_, rfl, rfl, rfl, rfl, rfl⟩

theorem finish_midway (hroom : (done ++ pre).length < destl) (hdest : destl ≤ dest.length) :
    (midway e pre r n (patch dest 0 done) (destl - done.length) done.length).finish =
      some ((done ++ pre).length, patch dest 0 (done ++ pre ++ [0])) ∧
    (midway e pre r n (patch dest 0 done) (destl - done.length) done.length).flushRest >>=
      Decoder.finish = some ((done ++ pre).length, patch dest 0 (done ++ pre ++ [0])) := by
  obtain ⟨s, hs, htemp, hout, hleft, hrt⟩ := flushRest_midway e n r hroom.le hdest
  have hend := patch_patch dest (done ++ pre) [0] (by omega : 0 + (done ++ pre).length ≤ _)
  rw [zero_add] at hend
  have hlast : (if s.destl < 1 then none else some (s.rt, patch s.dest s.rt [0])) =
      some ((done ++ pre).length, patch dest 0 (done ++ pre ++ [0])) := by
    rw [if_neg (by omega), hrt, hout, hend]
  have hagain : s.flushRest = some s := if_pos htemp
  constructor
  · rw [Decoder.finish, hs]
    exact hlast
  rw [hs]
  simp only [bind, Option.bind]
  rw [Decoder.finish, hagain]
  exact hlast

theorem finish_one (a : UInt8) (hroom : (done ++ (pre ++ [a])).length < destl)
    (hdest : destl ≤ dest.length) :
    decodeLoop (quad1 a) (midway 0 pre (x :: y :: r) n (patch dest 0 done) (destl - done.length)
        done.length) >>= Decoder.finish =
      some ((done ++ (pre ++ [a])).length, patch dest 0 (done ++ (pre ++ [a]) ++ [0])) := by
  have hbyte : UInt8.ofNat (a.toNat >>> 2) <<< 2 |||
      UInt8.ofNat ((a.toNat &&& 0x03) <<< 4) >>> 4 = a := by
    have h := first_byte a (by decide : 0 < 16)
    rwa [add_zero] at h
  rw [quad1, quad]
  simp only [map_cons, map_nil]
  rw [decode_pair (first_index_lt a) (low_two a).2, hbyte, decode_pad_pad]
  exact (finish_midway hroom hdest).2

theorem finish_two (a b : UInt8) (hroom : (done ++ (pre ++ [a, b])).length < destl)
    (hdest : destl ≤ dest.length) :
    decodeLoop (quad2 a b) (midway 0 pre (x :: y :: z :: r) n (patch dest 0 done)
        (destl - done.length) done.length) >>= Decoder.finish =
      some ((done ++ (pre ++ [a, b])).length, patch dest 0 (done ++ (pre ++ [a, b]) ++ [0])) := by
  have hbyte : UInt8.ofNat ((a.toNat &&& 0x03) <<< 4 + b.toNat >>> 4) <<< 4 |||
      UInt8.ofNat ((b.toNat &&& 0x0F) <<< 2) >>> 2 = b := by
    have h := second_byte a b (by decide : 0 < 4)
    rwa [add_zero] at h
  rw [quad2, quad]
  simp only [map_cons, map_nil]
  rw [decode_pair (first_index_lt a) (second_index_lt a (high_four b)),
    first_byte a (high_four b), decode_third (low_four b).2, hbyte, decode_pad, append_assoc]
  exact (finish_midway hroom hdest).2

theorem AtQuantum.decode (h : AtQuantum dest destl out s)
    (hroom : (out ++ l).length < destl) (hdest : destl ≤ dest.length) (k : Nat) :
    decodeLoop (fullText k l) s >>= Decoder.finish =
      some ((out ++ l).length, patch dest 0 (out ++ l ++ [0])) := by
  induction k, l using fullText.induct generalizing out s with
  | case1 k =>
    rw [append_nil] at hroom ⊢
    cases h with
    | intro done pre r _ _ _ => exact (finish_midway hroom hdest).1
  | case2 k a =>
    cases h with
    | intro done pre r _ hlen hshort =>
      obtain ⟨x, y, z, r, rfl⟩ := exists_three hlen hshort
      rw [append_assoc] at hroom ⊢
      rw [fullText, decodeLoop_lineBreak]
      exact finish_one a hroom hdest
  | case3 k a b =>
    cases h with
    | intro done pre r _ hlen hshort =>
      obtain ⟨x, y, z, r, rfl⟩ := exists_three hlen hshort
      rw [append_assoc] at hroom ⊢
      rw [fullText, decodeLoop_lineBreak]
      exact finish_two a b hroom hdest
  | case4 k a b c l ih =>
    have happend : out ++ a :: b :: c :: l = out ++ [a, b, c] ++ l := by simp
    rw [happend] at hroom ⊢
    have hthree : out.length + 3 ≤ destl := by
      simp only [length_append, length_cons] at hroom
      omega
    obtain ⟨s', hs', hloop⟩ := h.group a b c hthree hdest
    rw [fullText, decodeLoop_lineBreak, hloop]
    exact ih hs' hroom

end Decode

theorem base64Decode_fullText (l dest : List UInt8) (hroom : l.length < destl)
    (hdest : destl ≤ dest.length) :
    base64Decode (fullText 0 l) dest destl = some (l.length, patch dest 0 (l ++ [0])) :=
  AtQuantum.init.decode hroom hdest 0

theorem zero_not_mem_quad (h0 : i0 ≤ 64) (h1 : i1 ≤ 64) (h2 : i2 ≤ 64) (h3 : i3 ≤ 64) :
    0 ∉ quad i0 i1 i2 i3 := by
  have htable : ∀ i < 65, encodeTable.getD i 0 ≠ 0 := by decide +kernel
  intro hmem
  obtain ⟨i, hi, hzero⟩ := mem_map.1 hmem
  simp only [mem_cons, not_mem_nil, or_false] at hi
  exact htable i (by omega) hzero

theorem zero_not_mem_lineBreak (k : Nat) : 0 ∉ lineBreak k := by
  rw [lineBreak]
  split
  · decide
  · exact not_mem_nil

theorem zero_not_mem_fullText (k : Nat) (l : List UInt8) : 0 ∉ fullText k l := by
  induction k, l using fullText.induct with
  | case1 k => exact not_mem_nil
  | case2 k a =>
    rw [fullText, mem_append, not_or]
    refine ⟨zero_not_mem_lineBreak k, zero_not_mem_quad ?_ ?_ (by decide) (by decide)⟩
    · exact (first_index_lt a).le
    · exact (low_two a).2.le
  | case3 k a b =>
    rw [fullText, mem_append, not_or]
    refine ⟨zero_not_mem_lineBreak k, zero_not_mem_quad ?_ ?_ ?_ (by decide)⟩
    · exact (first_index_lt a).le
    · exact (second_index_lt a (high_four b)).le
    · exact (low_four b).2.le
  | case4 k a b c l ih =>
    rw [fullText, mem_append, mem_append, not_or, not_or]
    refine ⟨zero_not_mem_lineBreak k, zero_not_mem_quad ?_ ?_ ?_ ?_, ih⟩
    · exact (first_index_lt a).le
    · exact (second_index_lt a (high_four b)).le
    · exact (third_index_lt b (high_two_lt c)).le
    · exact (fourth_index_lt c).le

theorem writeCred_text (h : text.length < moved.length) :
    ∃ cred, writeCred moved 0 text >>= (writeCred · text.length [0]) = .ok cred ∧
      text ++ [0] <+: cred := by
  have hlen : (patch moved 0 text).length = moved.length := length_patch _ _ (by omega)
  have hend := patch_patch moved text [0] (by omega : 0 + text.length ≤ _)
  rw [zero_add] at hend
  refine ⟨patch moved 0 (text ++ [0]), ?_, ?_⟩
  · rw [writeCred, if_pos (by omega)]
    simp only [bind, Except.bind]
    rw [writeCred, if_pos (by rw [length_singleton]; omega), hend]
  · rw [patch_zero]
    exact prefix_append _ _

end SprdVendor.LibDm
