import SprdVendor.Download.Packet
import SprdVendor.Lib.InPlace

namespace SprdVendor.EngMode
open Lib List

/-- The loop of `eng_diag_decode7d7e` at index `i`, for at most `fuel` further turns: the number `m`
of removed bytes and the buffer. The byte `beyond` stands in the memory behind the buffer. -/
def decodeLoop (beyond : UInt8) : Nat → List UInt8 → Nat → Nat → Nat → Nat × List UInt8
  | 0, buf, _, _, m => (m, buf)
  | fuel + 1, buf, i, len, m =>
    if i < len then
      if peek beyond buf i = 0x7d ∨ peek beyond buf i = 0x7e then
        -- the overlapping copy runs from the lower addresses to the higher ones
        decodeLoop beyond fuel
          (moveDown beyond (i + 1) (len - (i + 1)) (buf.set i (peek beyond buf (i + 1) ^^^ 0x20)))
          (i + 1) (len - 1) (m + 1)
      else decodeLoop beyond fuel buf (i + 1) len m
    else (m, buf)

def engDiagDecode7d7e (beyond : UInt8) (buf : List UInt8) (len : Nat) : Nat × List UInt8 :=
  decodeLoop beyond len buf 0 len 0

/-- The loop of `eng_diag_encode7d7e`: the buffer, the length and `*extra_len` behind it. There is no
result when it leaves the buffer. -/
def encodeLoop (beyond : UInt8) :
    Nat → List UInt8 → Nat → Nat → Nat → Option (List UInt8 × Nat × Nat)
  | 0, _, _, _, _ => none
  | fuel + 1, buf, i, len, extra =>
    if i < len then
      if peek beyond buf i = 0x7d ∨ peek beyond buf i = 0x7e then
        if len < buf.length then
          encodeLoop beyond fuel
            ((moveUp beyond (i + 1) (len - (i + 1)) (buf.set i 0x7d)).set (i + 1)
              (peek beyond buf i ^^^ 0x20))
            (i + 1) (len + 1) (extra + 1)
        else none
      else encodeLoop beyond fuel buf (i + 1) len extra
    else some (buf, len, extra)

def engDiagEncode7d7e (beyond : UInt8) (buf : List UInt8) (len extra : Nat) :
    Option (List UInt8 × Nat × Nat) :=
  encodeLoop beyond (buf.length + 1) buf 0 len extra

def translatePacket (cap : Nat) (src : List UInt8) : Option (Bounded UInt8 cap) :=
  Download.translatePacket cap src

def untranslateHeaderLoop (unpackSize : Int) (status : Download.UntranslateStatus) (flag : Bool)
    (dest : Bounded UInt8 cap) : List UInt8 → Option (Bounded UInt8 cap)
  | [] => some dest
  | b :: src =>
    match status with
    | .noFlag => untranslateHeaderLoop unpackSize (if b = 0x7e then .flag else .noFlag) flag dest src
    | .flag =>
      if b = 0x7e then untranslateHeaderLoop unpackSize .flag flag dest src
      else (dest.push b).bind fun d => untranslateHeaderLoop unpackSize .body flag d src
    | .body =>
      if b = 0x7e then some dest
      else if dest.toList.getLast? = some 0x7d ∧ flag = false then
        let d :=
          if b = 0x5e then dest.setLast 0x7e else if b = 0x5d then dest.setLast 0x7d else dest
        if unpackSize + 1 ≤ d.toList.length ∧ unpackSize ≠ -1 then some d
        else untranslateHeaderLoop unpackSize .body true d src
      else
        (dest.push b).bind fun d =>
          if unpackSize + 1 ≤ d.toList.length ∧ unpackSize ≠ -1 then some d
          else untranslateHeaderLoop unpackSize .body false d src

def untranslatePacketHeader (cap : Nat) (src : List UInt8) (unpackSize : Int) :
    Option (Bounded UInt8 cap) :=
  untranslateHeaderLoop unpackSize .noFlag false (Bounded.empty UInt8 cap) src

theorem decodeLoop_plain (beyond : UInt8) (fuel m : Nat) (buf : List UInt8) (hi : i < len)
    (h : ¬ (peek beyond buf i = 0x7d ∨ peek beyond buf i = 0x7e)) :
    decodeLoop beyond (fuel + 1) buf i len m = decodeLoop beyond fuel buf (i + 1) len m := by
  rw [decodeLoop, if_pos hi, if_neg h]

theorem decodeLoop_escape (beyond b : UInt8) (fuel m : Nat) (out mid rest : List UInt8) :
    decodeLoop beyond (fuel + 1) (out ++ 0x7d :: b :: (mid ++ rest)) out.length
        (out.length + (mid.length + 2)) m =
      decodeLoop beyond fuel (out ++ [b ^^^ 0x20] ++ (mid ++ rest.headD beyond :: rest))
        (out.length + 1) (out.length + 1 + mid.length) (m + 1) := by
  have hcopy := moveDown_eq beyond b (out ++ [b ^^^ 0x20]) mid rest
  rw [length_append, length_singleton] at hcopy
  have hlen : out.length + (mid.length + 2) - (out.length + 1) = mid.length + 1 := by omega
  have hlen' : out.length + (mid.length + 2) - 1 = out.length + 1 + mid.length := by omega
  rw [decodeLoop, if_pos (by omega), peek_append, if_pos (.inl rfl), peek_append_succ, headD_cons,
    set_append_length, hlen, hlen', ← hcopy, append_assoc, singleton_append]

/-- Decoding an encoding in place takes one turn for each byte of the string; the bytes `mid` that
follow inside the length move up to it. -/
theorem decodeLoop_stuff (beyond : UInt8) (x out mid rest : List UInt8) (fuel m : Nat) :
    ∃ rest', decodeLoop beyond (fuel + x.length) (out ++ (hdlc.stuff x ++ (mid ++ rest))) out.length
        (out.length + ((hdlc.stuff x).length + mid.length)) m =
      decodeLoop beyond fuel (out ++ x ++ (mid ++ rest')) (out.length + x.length)
        (out.length + x.length + mid.length) (m + x.countP hdlc.special) := by
  induction x generalizing out rest m with
  | nil =>
    refine ⟨rest, ?_⟩
    simp [Stuffing.stuff]
  | cons b x ih =>
    have hout : (out ++ [b]).length = out.length + 1 := length_append
    have hx : out ++ b :: x = out ++ [b] ++ x := by simp
    have hlen : out.length + (b :: x).length = (out ++ [b]).length + x.length := by
      rw [hout, length_cons]
      omega
    rw [hx, hlen, length_cons, ← add_assoc]
    by_cases hb : hdlc.special b = true
    · have hswap : hdlc.swap b ^^^ 0x20 = b := hdlc.swap_swap b
      obtain ⟨rest', hrest⟩ := ih (out ++ [b]) (rest.headD beyond :: rest) (m + 1)
      refine ⟨rest', ?_⟩
      rw [countP_cons_of_pos hb, ← add_assoc m, add_right_comm m, ← hrest,
        hdlc.stuff_special x hb]
      have h := decodeLoop_escape beyond (hdlc.swap b) (fuel + x.length) m out
        (hdlc.stuff x ++ mid) rest
      rw [hswap, length_append] at h
      simp only [length_cons, cons_append, append_assoc, hout] at h ⊢
      rw [← h]
      congr 1
      omega
    · obtain ⟨rest', hrest⟩ := ih (out ++ [b]) rest m
      refine ⟨rest', ?_⟩
      rw [countP_cons_of_neg hb, ← hrest, hdlc.stuff_plain x hb, hout,
        decodeLoop_plain beyond _ m _ (by rw [length_cons]; omega)]
      · simp only [length_cons, cons_append, append_assoc, nil_append]
        congr 1
        omega
      · rw [cons_append, peek_append]
        intro h
        exact hb (hdlc.special_iff.mpr h.symm)

theorem decodeLoop_done (beyond : UInt8) (fuel m : Nat) (buf : List UInt8) (h : len ≤ i) :
    decodeLoop beyond fuel buf i len m = (m, buf) := by
  cases fuel with
  | zero => rfl
  | succ fuel => rw [decodeLoop, if_neg (by omega)]

theorem engDiagDecode7d7e_stuff (beyond : UInt8) (x rest : List UInt8) :
    ∃ tail, engDiagDecode7d7e beyond (hdlc.stuff x ++ rest) (hdlc.stuff x).length =
      (x.countP hdlc.special, x ++ tail) := by
  obtain ⟨tail, h⟩ := decodeLoop_stuff beyond x [] [] rest (x.countP hdlc.special) 0
  refine ⟨tail, ?_⟩
  simp only [nil_append, length_nil, zero_add, add_zero] at h
  rw [decodeLoop_done _ _ _ (x ++ tail) (le_refl _), add_comm, ← hdlc.length_stuff] at h
  exact h

theorem encodeLoop_plain (beyond : UInt8) (fuel extra : Nat) (buf : List UInt8) (hi : i < len)
    (h : ¬ (peek beyond buf i = 0x7d ∨ peek beyond buf i = 0x7e)) :
    encodeLoop beyond (fuel + 1) buf i len extra = encodeLoop beyond fuel buf (i + 1) len extra := by
  rw [encodeLoop, if_pos hi, if_neg h]

theorem encodeLoop_special (beyond b r : UInt8) (fuel extra : Nat) (out mid rest : List UInt8)
    (h : b = 0x7d ∨ b = 0x7e) :
    encodeLoop beyond (fuel + 1) (out ++ b :: (mid ++ r :: rest)) out.length
        (out.length + (mid.length + 1)) extra =
      encodeLoop beyond fuel (out ++ [0x7d] ++ (b ^^^ 0x20) :: (mid ++ rest)) (out.length + 1)
        (out.length + 1 + (mid.length + 1)) (extra + 1) := by
  have hmove := moveUp_set beyond r (b ^^^ 0x20) (out ++ [0x7d]) mid rest
  rw [length_append, length_singleton] at hmove
  have hlen : out.length + (mid.length + 1) - (out.length + 1) = mid.length := by omega
  rw [encodeLoop, if_pos (by omega), peek_append, if_pos h, if_pos, set_append_length, hlen]
  · have hbuf : out ++ 0x7d :: (mid ++ r :: rest) = out ++ [0x7d] ++ mid ++ r :: rest := by simp
    rw [hbuf, hmove, append_assoc _ _ rest, cons_append, add_right_comm]
  · simp only [length_append, length_cons]
    omega

theorem encodeLoop_stuff (beyond : UInt8) (fuel : Nat) (x out rest : List UInt8) (extra : Nat)
    (hroom : x.countP hdlc.special ≤ rest.length) (hfuel : (hdlc.stuff x).length < fuel) :
    encodeLoop beyond fuel (out ++ (x ++ rest)) out.length (out.length + x.length) extra =
      some (out ++ hdlc.stuff x ++ rest.drop (x.countP hdlc.special),
        out.length + (hdlc.stuff x).length, extra + x.countP hdlc.special) := by
  induction x generalizing out rest extra fuel with
  | nil =>
    obtain ⟨fuel, rfl⟩ : ∃ n, fuel = n + 1 := ⟨fuel - 1, by omega⟩
    simp [encodeLoop, Stuffing.stuff]
  | cons b x ih =>
    by_cases hb : hdlc.special b = true
    · rw [hdlc.stuff_special x hb] at hfuel ⊢
      rw [countP_cons_of_pos hb] at hroom ⊢
      simp only [length_cons] at hfuel ⊢
      obtain ⟨fuel, rfl⟩ : ∃ n, fuel = n + 2 := ⟨fuel - 2, by omega⟩
      cases rest with
      | nil =>
        rw [length_nil] at hroom
        omega
      | cons r rest =>
        rw [length_cons] at hroom
        have h := ih fuel (out ++ [0x7d, b ^^^ 0x20]) rest (extra + 1) (by omega) (by omega)
        have hout : (out ++ [0x7d, b ^^^ 0x20]).length = out.length + 1 + 1 := length_append
        have hlen : out.length + 1 + (x.length + 1) = (out ++ [0x7d, b ^^^ 0x20]).length + x.length := by
          omega
        have hpeek : peek beyond (out ++ [0x7d] ++ (b ^^^ 0x20) :: (x ++ rest)) (out.length + 1) =
            hdlc.swap b := by
          have hl : (out ++ [0x7d]).length = out.length + 1 := length_append
          rw [← hl]
          exact peek_append _ _ _ _
        rw [cons_append, encodeLoop_special beyond b r _ extra out x rest
          (hdlc.special_iff.mp hb).symm, encodeLoop_plain beyond _ _ _ (by omega)]
        · have hbuf : out ++ [0x7d] ++ (b ^^^ 0x20) :: (x ++ rest) =
              out ++ [0x7d, b ^^^ 0x20] ++ (x ++ rest) := by simp
          rw [hbuf, hlen, ← hout, h]
          simp [hout, hdlc]
          omega
        · rw [hpeek]
          intro hs
          exact hdlc.not_special_swap hb (hdlc.special_iff.mpr hs.symm)
    · rw [hdlc.stuff_plain x hb] at hfuel ⊢
      rw [countP_cons_of_neg hb] at hroom ⊢
      rw [length_cons] at hfuel
      obtain ⟨fuel, rfl⟩ : ∃ n, fuel = n + 1 := ⟨fuel - 1, by omega⟩
      have h := ih fuel (out ++ [b]) rest extra hroom (by omega)
      have hout : (out ++ [b]).length = out.length + 1 := length_append
      have hlen : out.length + (b :: x).length = (out ++ [b]).length + x.length := by
        rw [hout, length_cons]
        omega
      rw [encodeLoop_plain beyond _ _ _ (by rw [length_cons]; omega)]
      · have hbuf : out ++ (b :: x ++ rest) = out ++ [b] ++ (x ++ rest) := by simp
        rw [hbuf, hlen, ← hout, h]
        simp [hout]
        omega
      · rw [cons_append, peek_append]
        intro hs
        exact hb (hdlc.special_iff.mpr hs.symm)

def Unlimited (unpackSize : Int) (n : Nat) : Prop := unpackSize = -1 ∨ (n : Int) ≤ unpackSize

theorem Unlimited.not_stop (h : Unlimited unpackSize n) (hk : k ≤ n) :
    ¬ (unpackSize + 1 ≤ k ∧ unpackSize ≠ -1) := by
  intro hs
  rcases h with h | h
  · exact hs.2 h
  · omega

def Ready (flag : Bool) (dest : Bounded UInt8 cap) : Prop :=
  flag = true ∨ dest.toList.getLast? ≠ some 0x7d

theorem Ready.not_pending (h : Ready flag dest) :
    ¬ (dest.toList.getLast? = some 0x7d ∧ flag = false) := by
  rintro ⟨hl, hf⟩
  rcases h with h | h
  · rw [hf] at h
    cases h
  · exact h hl

section header

variable {unpackSize : Int} {n cap : Nat} {dest : Bounded UInt8 cap} {flag : Bool} {b : UInt8}

theorem untranslateHeaderLoop_push (hu : Unlimited unpackSize n) (hr : Ready flag dest)
    (hd : dest.push b = some d) (hn : d.toList.length ≤ n) (hb : b ≠ 0x7e) (src : List UInt8) :
    untranslateHeaderLoop unpackSize .body flag dest (b :: src) =
      untranslateHeaderLoop unpackSize .body false d src := by
  rw [untranslateHeaderLoop]
  simp only [if_neg hb, if_neg hr.not_pending, hd, Option.bind_some]
  exact if_neg (hu.not_stop hn)

theorem untranslateHeaderLoop_resolve (hu : Unlimited unpackSize n) (hd : dest.toList = l ++ [0x7d])
    (hn : dest.toList.length ≤ n) (hb : b = 0x5e ∧ c = 0x7e ∨ b = 0x5d ∧ c = 0x7d)
    (src : List UInt8) :
    untranslateHeaderLoop unpackSize .body false dest (b :: src) =
      untranslateHeaderLoop unpackSize .body true (dest.setLast c) src := by
  have hlast : dest.toList.getLast? = some 0x7d := by rw [hd, getLast?_concat]
  have hlen : (dest.setLast c).toList.length = dest.toList.length := length_set
  have hstop := hu.not_stop (k := (dest.setLast c).toList.length) (by omega)
  rw [untranslateHeaderLoop]
  rcases hb with ⟨rfl, rfl⟩ | ⟨rfl, rfl⟩
  · simp only [show ¬ (0x5e : UInt8) = 0x7e by decide, hlast, if_false, and_self, if_true]
    exact if_neg hstop
  · simp only [show ¬ (0x5d : UInt8) = 0x7e by decide, show ¬ (0x5d : UInt8) = 0x5e by decide, hlast,
      if_false, and_self, if_true]
    exact if_neg hstop

theorem untranslateHeaderLoop_stuff_byte (hu : Unlimited unpackSize n) (hr : Ready flag dest)
    (hn : dest.toList.length < n) (hcap : n ≤ cap) (b : UInt8) (src : List UInt8) :
    ∃ d flag', d.toList = dest.toList ++ [b] ∧ Ready flag' d ∧
      untranslateHeaderLoop unpackSize .body flag dest (hdlc.stuff [b] ++ src) =
        untranslateHeaderLoop unpackSize .body flag' d src := by
  have hpush : ∀ c, ∃ d, dest.push c = some d ∧ d.toList = dest.toList ++ [c] ∧
      d.toList.length ≤ n := by
    intro c
    obtain ⟨d, hd, hl⟩ := Bounded.push_of_lt (s := dest) (by omega) c
    have hlen := congrArg List.length hl
    rw [length_append, length_singleton] at hlen
    exact ⟨d, hd, hl, by omega⟩
  by_cases hf : b = 0x7e
  · subst hf
    rw [hdlc_stuff_flag]
    obtain ⟨d, hd, hl, hlen⟩ := hpush 0x7d
    refine ⟨d.setLast 0x7e, true, Bounded.setLast_toList hl _, .inl rfl, ?_⟩
    apply (untranslateHeaderLoop_push hu hr hd hlen (by decide) (0x5e :: src)).trans
    exact untranslateHeaderLoop_resolve hu hl hlen (.inl ⟨rfl, rfl⟩) src
  by_cases he : b = 0x7d
  · subst he
    rw [hdlc_stuff_escape]
    obtain ⟨d, hd, hl, hlen⟩ := hpush 0x7d
    refine ⟨d.setLast 0x7d, true, Bounded.setLast_toList hl _, .inl rfl, ?_⟩
    apply (untranslateHeaderLoop_push hu hr hd hlen (by decide) (0x5d :: src)).trans
    exact untranslateHeaderLoop_resolve hu hl hlen (.inr ⟨rfl, rfl⟩) src
  rw [hdlc_stuff_plain [] hf he]
  obtain ⟨d, hd, hl, hlen⟩ := hpush b
  refine ⟨d, false, hl, .inr ?_, untranslateHeaderLoop_push hu hr hd hlen hf src⟩
  rw [hl, getLast?_concat]
  intro h
  exact he (Option.some.inj h)

theorem untranslateHeaderLoop_stuff (hu : Unlimited unpackSize n) (hr : Ready flag dest)
    (x : List UInt8) (hn : dest.toList.length + x.length ≤ n) (hcap : n ≤ cap) (src : List UInt8) :
    ∃ d flag', d.toList = dest.toList ++ x ∧
      untranslateHeaderLoop unpackSize .body flag dest (hdlc.stuff x ++ src) =
        untranslateHeaderLoop unpackSize .body flag' d src := by
  induction x generalizing dest flag with
  | nil => exact ⟨dest, flag, (append_nil _).symm, rfl⟩
  | cons b x ih =>
    rw [length_cons] at hn
    obtain ⟨d, flag', hd, hr', hloop⟩ := untranslateHeaderLoop_stuff_byte hu hr (by omega) hcap b
      (hdlc.stuff x ++ src)
    have hlen := congrArg List.length hd
    rw [length_append, length_singleton] at hlen
    obtain ⟨e, flag'', he, hloop'⟩ := ih hr' (by omega)
    refine ⟨e, flag'', ?_, ?_⟩
    · rw [he, hd, append_assoc, singleton_append]
    · rw [← singleton_append, hdlc.stuff_append, append_assoc, hloop, hloop']

theorem untranslateHeaderLoop_flag (hu : Unlimited unpackSize n) (hr : Ready false dest)
    (hn : dest.toList.length < n) (hcap : n ≤ cap) (hb : b ≠ 0x7e) (src : List UInt8) :
    untranslateHeaderLoop unpackSize .flag false dest (b :: src) =
      untranslateHeaderLoop unpackSize .body false dest (b :: src) := by
  obtain ⟨d, hd, hl⟩ := Bounded.push_of_lt (s := dest) (by omega) b
  have hlen := congrArg List.length hl
  rw [length_append, length_singleton] at hlen
  rw [untranslateHeaderLoop_push hu hr hd (by omega) hb src, untranslateHeaderLoop]
  simp [if_neg hb, hd]

end header

theorem untranslatePacketHeader_stuff (x : List UInt8) (hu : Unlimited unpackSize x.length)
    (hcap : x.length ≤ cap) :
    ∃ out : Bounded UInt8 cap,
      untranslatePacketHeader cap (0x7e :: hdlc.stuff x ++ [0x7e]) unpackSize = some out ∧
        out.toList = x := by
  have hempty : Ready false (Bounded.empty UInt8 cap) := .inr (by intro h; cases h)
  cases hs : hdlc.stuff x with
  | nil =>
    have hlen := congrArg List.length hs
    rw [hdlc.length_stuff, length_nil] at hlen
    have hx := eq_nil_of_length_eq_zero (show x.length = 0 by omega)
    subst hx
    exact ⟨Bounded.empty UInt8 cap, rfl, rfl⟩
  | cons c rest =>
    have hc : c ≠ 0x7e := by
      intro h
      exact hdlc.flag_notMem_stuff x (hs ▸ h ▸ mem_cons_self)
    have hpos : 0 < x.length := by
      cases x with
      | nil => cases hs
      | cons b x => exact Nat.succ_pos _
    obtain ⟨d, flag, hd, hloop⟩ := untranslateHeaderLoop_stuff hu hempty x
      (by rw [Bounded.empty_toList, length_nil, zero_add]) hcap [0x7e]
    refine ⟨d, ?_, hd⟩
    rw [hs, cons_append, ← untranslateHeaderLoop_flag hu hempty hpos hcap hc] at hloop
    exact hloop

/-- The codecs agree: encoding in place, decoding in place, translating into a packet and reading
the packet back. -/
theorem codecs_agree (beyond : UInt8) (x room : List UInt8) (extra : Nat)
    (hroom : x.count 0x7d + x.count 0x7e ≤ room.length)
    (hpacket : x.length + (x.count 0x7d + x.count 0x7e) + 2 ≤ cap) (hcap : x.length ≤ cap')
    (hu : Unlimited unpackSize x.length) :
    ∃ enc rest,
      enc.length = x.length + (x.count 0x7d + x.count 0x7e) ∧
      engDiagEncode7d7e beyond (x ++ room) x.length extra =
        some (enc ++ rest, enc.length, extra + (x.count 0x7d + x.count 0x7e)) ∧
      (∃ tail, engDiagDecode7d7e beyond (enc ++ rest) enc.length =
        (x.count 0x7d + x.count 0x7e, x ++ tail)) ∧
      (∃ packet, translatePacket cap x = some packet ∧ packet.toList = 0x7e :: enc ++ [0x7e]) ∧
      ∃ out, untranslatePacketHeader cap' (0x7e :: enc ++ [0x7e]) unpackSize = some out ∧
        out.toList = x := by
  have hcount : x.countP hdlc.special = x.count 0x7d + x.count 0x7e := hdlc.countP_special x
  have hlen := hdlc.length_stuff x
  rw [hcount] at hlen
  refine ⟨hdlc.stuff x, room.drop (x.count 0x7d + x.count 0x7e), hlen, ?_, ?_, ?_, ?_⟩
  · have h := encodeLoop_stuff beyond ((x ++ room).length + 1) x [] room extra
      (by rw [hcount]; exact hroom) (by rw [hlen, length_append]; omega)
    rw [hcount] at h
    simp only [nil_append, length_nil, zero_add] at h
    exact h
  · rw [← hcount]
    exact engDiagDecode7d7e_stuff beyond x _
  · rw [translatePacket, Download.translatePacket_eq]
    apply Bounded.pushAll_of_le
    simp only [Bounded.empty_toList, length_nil, length_append, length_cons, hlen]
    omega
  · exact untranslatePacketHeader_stuff x hu hcap

/-- A string that needs both escapes, in a buffer that its encoding fills. -/
theorem codecs_agree_both_escapes :
    ∃ enc rest,
      enc.length = [(0x7d : UInt8), 0x01, 0x7e].length + 2 ∧
      engDiagEncode7d7e 0 ([0x7d, 0x01, 0x7e] ++ [0, 0]) 3 0 = some (enc ++ rest, enc.length, 0 + 2) ∧
      (∃ tail, engDiagDecode7d7e 0 (enc ++ rest) enc.length = (2, [0x7d, 0x01, 0x7e] ++ tail)) ∧
      (∃ packet, translatePacket 7 [0x7d, 0x01, 0x7e] = some packet ∧
        packet.toList = 0x7e :: enc ++ [0x7e]) ∧
      ∃ out : Bounded UInt8 3, untranslatePacketHeader 3 (0x7e :: enc ++ [0x7e]) (-1) = some out ∧
        out.toList = [0x7d, 0x01, 0x7e] :=
  codecs_agree 0 [0x7d, 0x01, 0x7e] [0, 0] 0 (by decide) (by decide) (by decide) (.inl rfl)

end SprdVendor.EngMode
