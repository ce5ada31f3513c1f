import SprdVendor.Lib.Bounded
import SprdVendor.Lib.Stuffing

namespace SprdVendor.Download
open Lib List

def crc16Polynomial : UInt16 := 0x1021

def crcBit (b : UInt8) (crc : UInt16) (i : UInt8) : UInt16 :=
  let shifted := if crc &&& 0x8000 ≠ 0 then (crc <<< 1) ^^^ crc16Polynomial else crc <<< 1
  if b &&& i ≠ 0 then shifted ^^^ crc16Polynomial else shifted

def crcByte (crc : UInt16) (b : UInt8) : UInt16 :=
  [0x80, 0x40, 0x20, 0x10, 0x08, 0x04, 0x02, 0x01].foldl (crcBit b) crc

/-- The check sum of the first `len` bytes; there is no result when the loop leaves the bytes that
`buf` holds. -/
def crc16LCalc (buf : List UInt8) (len : UInt32) : Option UInt16 :=
  if len.toNat ≤ buf.length then some ((buf.take len.toNat).foldl crcByte 0) else none

def translateLoop (dest : Bounded UInt8 cap) : List UInt8 → Option (Bounded UInt8 cap)
  | [] => some dest
  | b :: src =>
    if b = 0x7e then
      (dest.push 0x7d).bind fun d => (d.push 0x5e).bind fun d => translateLoop d src
    else if b = 0x7d then
      (dest.push 0x7d).bind fun d => (d.push 0x5d).bind fun d => translateLoop d src
    else (dest.push b).bind fun d => translateLoop d src

/-- What `translate_packet` leaves in a `dest` of `cap` bytes; `translated_size` is its length. -/
def translatePacket (cap : Nat) (src : List UInt8) : Option (Bounded UInt8 cap) :=
  ((Bounded.empty UInt8 cap).push 0x7e).bind fun d => (translateLoop d src).bind fun d => d.push 0x7e

inductive UntranslateStatus where
  | noFlag
  | flag
  | body
deriving DecidableEq, Repr

def untranslateLoop (status : UntranslateStatus) (dest : Bounded UInt8 cap) :
    List UInt8 → Option (Bounded UInt8 cap)
  | [] => some dest
  | b :: src =>
    match status with
    | .noFlag => untranslateLoop (if b = 0x7e then .flag else .noFlag) dest src
    | .flag =>
      if b = 0x7e then untranslateLoop .flag dest src
      else (dest.push b).bind fun d => untranslateLoop .body d src
    | .body =>
      if b = 0x7e then
        (crc16LCalc dest.toList (UInt32.ofNat dest.toList.length - 2)).map fun _ => dest
      else if dest.toList.getLast? = some 0x7d then
        if b = 0x5e then untranslateLoop .body (dest.setLast 0x7e) src
        else if b = 0x5d then untranslateLoop .body (dest.setLast 0x7d) src
        else untranslateLoop .body dest src
      else (dest.push b).bind fun d => untranslateLoop .body d src

def untranslatePacket (cap : Nat) (src : List UInt8) : Option (Bounded UInt8 cap) :=
  untranslateLoop .noFlag (Bounded.empty UInt8 cap) src

theorem translateLoop_eq (dest : Bounded UInt8 cap) (src : List UInt8) :
    translateLoop dest src = dest.pushAll (hdlc.stuff src) := by
  induction src generalizing dest with
  | nil => rfl
  | cons b src ih =>
    rw [translateLoop]
    by_cases hf : b = 0x7e
    · subst hf
      rw [if_pos rfl, hdlc_stuff_flag]
      simp only [Bounded.pushAll, ih]
    rw [if_neg hf]
    by_cases he : b = 0x7d
    · subst he
      rw [if_pos rfl, hdlc_stuff_escape]
      simp only [Bounded.pushAll, ih]
    · rw [if_neg he, hdlc_stuff_plain src hf he]
      simp only [Bounded.pushAll, ih]

theorem translatePacket_eq (cap : Nat) (src : List UInt8) :
    translatePacket cap src =
      (Bounded.empty UInt8 cap).pushAll (0x7e :: hdlc.stuff src ++ [0x7e]) := by
  simp [translatePacket, translateLoop_eq, Bounded.pushAll, Bounded.pushAll_append]

def absorb (out : List UInt8) (b : UInt8) : List UInt8 :=
  if out.getLast? = some 0x7d then if b = 0x7e ∨ b = 0x5e then out.dropLast ++ [0x7e] else out
  else out ++ [b]

theorem absorb_of_escape (h : out.getLast? = some 0x7d) (b : UInt8) :
    absorb out b = if b = 0x7e ∨ b = 0x5e then out.dropLast ++ [0x7e] else out := if_pos h

theorem absorb_plain (h : out.getLast? ≠ some 0x7d) (b : UInt8) : absorb out b = out ++ [b] :=
  if_neg h

theorem length_absorb_of_escape (h : out.getLast? = some 0x7d) (b : UInt8) :
    (absorb out b).length = out.length := by
  obtain ⟨l, hl⟩ := getLast?_eq_some_iff.mp h
  rw [absorb_of_escape h]
  split
  · rw [hl, dropLast_concat]
    simp
  · rfl

theorem length_absorb_le (out : List UInt8) (b : UInt8) :
    (absorb out b).length ≤ out.length + 1 := by
  by_cases h : out.getLast? = some 0x7d
  · rw [length_absorb_of_escape h]
    omega
  · rw [absorb_plain h, length_append, length_singleton]

theorem length_foldl_absorb_le (out body : List UInt8) :
    (body.foldl absorb out).length ≤ out.length + body.length := by
  induction body generalizing out with
  | nil => exact le_refl _
  | cons b body ih =>
    have h := length_absorb_le out b
    have hb := ih (absorb out b)
    rw [foldl_cons, length_cons]
    omega

/-- Decoding repeats the packet exactly when no byte follows an escape byte of it. -/
theorem foldl_absorb_eq_iff (out : List UInt8) (h : out.getLast? ≠ some 0x7d) (body : List UInt8) :
    body.foldl absorb out = out ++ body ↔ 0x7d ∉ body.dropLast := by
  induction body generalizing out with
  | nil => simp
  | cons b body ih =>
    rw [foldl_cons, absorb_plain h]
    by_cases hb : b = 0x7d
    · subst hb
      cases body with
      | nil => simp
      | cons c body =>
        have hlast : (out ++ [0x7d]).getLast? = some (0x7d : UInt8) := getLast?_concat
        have hlen := length_foldl_absorb_le (absorb (out ++ [0x7d]) c) body
        rw [length_absorb_of_escape hlast] at hlen
        constructor
        · intro he
          have hl := congrArg List.length he
          simp only [foldl_cons, length_append, length_cons, length_nil] at hl hlen
          omega
        · intro hn
          rw [dropLast_cons_cons] at hn
          exact absurd mem_cons_self hn
    · have hlast : (out ++ [b]).getLast? ≠ some 0x7d := by
        rw [getLast?_concat]
        intro he
        exact hb (Option.some.inj he)
      have happ : out ++ b :: body = out ++ [b] ++ body := by simp
      rw [happ, ih _ hlast]
      cases body with
      | nil => simp
      | cons c body => simp [Ne.symm hb]

theorem untranslateLoop_body_push (hl : dest.toList.getLast? ≠ some 0x7d)
    (hb : b ≠ 0x7e) (src : List UInt8) :
    untranslateLoop .body dest (b :: src) =
      (dest.push b).bind fun d => untranslateLoop .body d src := by
  rw [untranslateLoop]
  simp only [if_neg hb, if_neg hl]

theorem untranslateLoop_body_5e (hl : dest.toList.getLast? = some 0x7d) (src : List UInt8) :
    untranslateLoop .body dest (0x5e :: src) = untranslateLoop .body (dest.setLast 0x7e) src := by
  rw [untranslateLoop]
  simp [hl]

theorem untranslateLoop_body_5d (hl : dest.toList.getLast? = some 0x7d) (src : List UInt8) :
    untranslateLoop .body dest (0x5d :: src) = untranslateLoop .body (dest.setLast 0x7d) src := by
  rw [untranslateLoop]
  simp [hl]

theorem untranslateLoop_body_skip (hl : dest.toList.getLast? = some 0x7d)
    (hf : b ≠ 0x7e) (h₁ : b ≠ 0x5e) (h₂ : b ≠ 0x5d) (src : List UInt8) :
    untranslateLoop .body dest (b :: src) = untranslateLoop .body dest src := by
  rw [untranslateLoop]
  simp only [if_neg hf, if_pos hl, if_neg h₁, if_neg h₂]

theorem untranslateLoop_stuff_of_escape
    (hlast : dest.toList.getLast? = some 0x7d) (b : UInt8) (src : List UInt8) :
    ∃ d, untranslateLoop .body dest (hdlc.stuff [b] ++ src) = untranslateLoop .body d src ∧
      d.toList = absorb dest.toList b := by
  obtain ⟨l, hl⟩ := getLast?_eq_some_iff.mp hlast
  rw [absorb_of_escape hlast]
  by_cases hf : b = 0x7e
  · subst hf
    refine ⟨dest.setLast 0x7e, ?_, ?_⟩
    · rw [hdlc_stuff_flag]
      apply (untranslateLoop_body_skip hlast (by decide) (by decide) (by decide) _).trans
      exact untranslateLoop_body_5e hlast src
    · rw [Bounded.setLast_toList hl, if_pos (.inl rfl), hl, dropLast_concat]
  by_cases he : b = 0x7d
  · subst he
    refine ⟨dest.setLast 0x7d, ?_, ?_⟩
    · rw [hdlc_stuff_escape]
      apply (untranslateLoop_body_skip hlast (by decide) (by decide) (by decide) _).trans
      exact untranslateLoop_body_5d hlast src
    · rw [Bounded.setLast_toList hl, if_neg (by decide), hl]
  rw [hdlc_stuff_plain [] hf he]
  by_cases h₁ : b = 0x5e
  · subst h₁
    refine ⟨dest.setLast 0x7e, untranslateLoop_body_5e hlast src, ?_⟩
    rw [Bounded.setLast_toList hl, if_pos (.inr rfl), hl, dropLast_concat]
  rw [if_neg (by rintro (h | h) <;> contradiction)]
  by_cases h₂ : b = 0x5d
  · subst h₂
    refine ⟨dest.setLast 0x7d, untranslateLoop_body_5d hlast src, ?_⟩
    rw [Bounded.setLast_toList hl, hl]
  · exact ⟨dest, untranslateLoop_body_skip hlast hf h₁ h₂ src, rfl⟩

theorem untranslateLoop_stuff_plain {dest : Bounded UInt8 cap}
    (hlast : dest.toList.getLast? ≠ some 0x7d) (hroom : dest.toList.length < cap) (b : UInt8)
    (src : List UInt8) :
    ∃ d, untranslateLoop .body dest (hdlc.stuff [b] ++ src) = untranslateLoop .body d src ∧
      d.toList = absorb dest.toList b := by
  rw [absorb_plain hlast]
  by_cases hf : b = 0x7e
  · subst hf
    obtain ⟨d, hd, hl⟩ := Bounded.push_of_lt hroom 0x7d
    refine ⟨d.setLast 0x7e, ?_, Bounded.setLast_toList hl _⟩
    rw [hdlc_stuff_flag]
    apply (untranslateLoop_body_push hlast (by decide) _).trans
    rw [hd]
    exact untranslateLoop_body_5e (by rw [hl, getLast?_concat]) src
  · by_cases he : b = 0x7d
    · subst he
      obtain ⟨d, hd, hl⟩ := Bounded.push_of_lt hroom 0x7d
      refine ⟨d.setLast 0x7d, ?_, Bounded.setLast_toList hl _⟩
      rw [hdlc_stuff_escape]
      apply (untranslateLoop_body_push hlast (by decide) _).trans
      rw [hd]
      exact untranslateLoop_body_5d (by rw [hl, getLast?_concat]) src
    · obtain ⟨d, hd, hl⟩ := Bounded.push_of_lt hroom b
      refine ⟨d, ?_, hl⟩
      rw [hdlc_stuff_plain [] hf he]
      apply (untranslateLoop_body_push hlast hf _).trans
      rw [hd]
      rfl

theorem untranslateLoop_stuff_byte (dest : Bounded UInt8 cap) (hroom : dest.toList.length < cap)
    (b : UInt8) (src : List UInt8) :
    ∃ d, untranslateLoop .body dest (hdlc.stuff [b] ++ src) = untranslateLoop .body d src ∧
      d.toList = absorb dest.toList b := by
  by_cases hlast : dest.toList.getLast? = some 0x7d
  · exact untranslateLoop_stuff_of_escape hlast b src
  · exact untranslateLoop_stuff_plain hlast hroom b src

theorem untranslateLoop_stuff (dest : Bounded UInt8 cap) (body src : List UInt8)
    (hroom : dest.toList.length + body.length ≤ cap) :
    ∃ d, untranslateLoop .body dest (hdlc.stuff body ++ src) = untranslateLoop .body d src ∧
      d.toList = body.foldl absorb dest.toList := by
  induction body generalizing dest with
  | nil => exact ⟨dest, rfl, rfl⟩
  | cons b body ih =>
    rw [length_cons] at hroom
    obtain ⟨d, hd, hl⟩ := untranslateLoop_stuff_byte dest (by omega) b
      (hdlc.stuff body ++ src)
    have hlen := length_absorb_le dest.toList b
    rw [← hl] at hlen
    obtain ⟨e, he, hle⟩ := ih d (by omega)
    refine ⟨e, ?_, ?_⟩
    · rw [← singleton_append, Stuffing.stuff_append, append_assoc, hd, he]
    · rw [hle, hl, foldl_cons]

theorem untranslateLoop_flag_eq (hl : dest.toList.getLast? ≠ some 0x7d)
    (hb : b ≠ 0x7e) (src : List UInt8) :
    untranslateLoop .flag dest (b :: src) = untranslateLoop .body dest (b :: src) := by
  rw [untranslateLoop_body_push hl hb, untranslateLoop]
  simp only [if_neg hb]

theorem untranslateLoop_flag_stuff (b : UInt8) (body src : List UInt8) :
    untranslateLoop .flag (Bounded.empty UInt8 cap) (hdlc.stuff (b :: body) ++ src) =
      untranslateLoop .body (Bounded.empty UInt8 cap) (hdlc.stuff (b :: body) ++ src) := by
  have hflag := hdlc.flag_notMem_stuff (b :: body)
  cases hs : hdlc.stuff (b :: body) with
  | nil =>
    have hlen := congrArg List.length hs
    rw [Stuffing.length_stuff, length_cons, length_nil] at hlen
    omega
  | cons c rest =>
    rw [hs] at hflag
    apply untranslateLoop_flag_eq
    · intro h
      cases h
    · intro h
      exact hflag (h ▸ mem_cons_self)

theorem crc_length_le_iff (n : Nat) : (UInt32.ofNat n - 2).toNat ≤ n ↔ n ≠ 0 ∧ n ≠ 1 := by
  rw [UInt32.toNat_sub, UInt32.toNat_ofNat']
  simp only [UInt32.reduceToNat]
  omega

theorem untranslateLoop_close (dest : Bounded UInt8 cap) :
    untranslateLoop .body dest [0x7e] = some out ↔
      (dest.toList.length ≠ 0 ∧ dest.toList.length ≠ 1) ∧ dest = out := by
  rw [← crc_length_le_iff, untranslateLoop]
  simp only [if_pos, crc16LCalc]
  split_ifs with h <;> simp [h]

theorem untranslatePacket_nil (cap : Nat) :
    untranslatePacket cap (0x7e :: hdlc.stuff [] ++ [0x7e]) = some (Bounded.empty UInt8 cap) := rfl

theorem untranslatePacket_cons (b : UInt8) (body : List UInt8) (hroom : (b :: body).length ≤ cap) :
    ∃ d : Bounded UInt8 cap, d.toList = (b :: body).foldl absorb [] ∧
      untranslatePacket cap (0x7e :: hdlc.stuff (b :: body) ++ [0x7e]) =
        untranslateLoop .body d [0x7e] := by
  obtain ⟨d, hd, hl⟩ := untranslateLoop_stuff (Bounded.empty UInt8 cap) (b :: body) [0x7e]
    (by rw [Bounded.empty_toList, length_nil, zero_add]; exact hroom)
  refine ⟨d, hl, ?_⟩
  rw [← hd, ← untranslateLoop_flag_stuff]
  rfl

/-- Decoding what `translate_packet` made of a packet gives the packet back exactly when the packet
is not a single byte and no byte of it stands behind an escape byte. -/
theorem untranslate_translate_iff (body : List UInt8) (hroom : body.length ≤ cap)
    (henc : translatePacket size body = some enc) :
    (∃ out, untranslatePacket cap enc.toList = some out ∧ out.toList = body) ↔
      body.length ≠ 1 ∧ 0x7d ∉ body.dropLast := by
  rw [translatePacket_eq] at henc
  have hlist := Bounded.toList_of_pushAll henc
  rw [Bounded.empty_toList, nil_append] at hlist
  rw [hlist]
  cases body with
  | nil =>
    rw [untranslatePacket_nil]
    simp
  | cons b body =>
    obtain ⟨d, hl, hd⟩ := untranslatePacket_cons b body hroom
    have hiff := foldl_absorb_eq_iff [] (by intro h; cases h) (b :: body)
    rw [nil_append, ← hl] at hiff
    rw [hd]
    constructor
    · rintro ⟨out, hout, hbody⟩
      obtain ⟨⟨_, hone⟩, hdo⟩ := (untranslateLoop_close d).mp hout
      rw [hdo] at hone hiff
      rw [hbody] at hone
      exact ⟨hone, hiff.mp hbody⟩
    rintro ⟨hone, hesc⟩
    have hbody := hiff.mpr hesc
    refine ⟨d, (untranslateLoop_close d).mpr ⟨⟨?_, ?_⟩, rfl⟩, hbody⟩
    · rw [hbody, length_cons]
      omega
    · rw [hbody]
      exact hone

/-- A packet with a flag byte inside and an escape byte at its end. -/
theorem untranslate_translate_flag_inside :
    ∃ enc : Bounded UInt8 16, translatePacket 16 [0x01, 0x7e, 0x7d] = some enc ∧
      ((∃ out, untranslatePacket 8 enc.toList = some out ∧ out.toList = [0x01, 0x7e, 0x7d]) ↔
        [(0x01 : UInt8), 0x7e, 0x7d].length ≠ 1 ∧ 0x7d ∉ [(0x01 : UInt8), 0x7e, 0x7d].dropLast) :=
  ⟨_, rfl, untranslate_translate_iff _ (by decide) rfl⟩

/-- The byte behind an escape byte of the packet is lost. -/
theorem untranslate_loses_byte :
    ∃ (enc : Bounded UInt8 16) (out : Bounded UInt8 8),
      translatePacket 16 [0x01, 0x7d, 0x02, 0x03] = some enc ∧
      untranslatePacket 8 enc.toList = some out ∧ out.toList = [0x01, 0x7d] :=
  ⟨_, _, rfl, rfl, rfl⟩

end SprdVendor.Download
