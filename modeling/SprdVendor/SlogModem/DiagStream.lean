import SprdVendor.Lib.Bounded
import SprdVendor.Lib.Bytes
import SprdVendor.Lib.Transducer

namespace SprdVendor.SlogModem
open Lib List Option

def flagByte : UInt8 := 0x7e

def escapeByte : UInt8 := 0x7d

def complementByte : UInt8 := 0x20

inductive DiagParseState where
  | down
  | ready
  | halt
  | up
deriving DecidableEq, Repr

def poolSize : Nat := 64 * 1024

/-- The members of `DiagStreamParser`; the pool holds its first `m_len` bytes. -/
structure DiagStreamParser where
  state : DiagParseState
  pool : Bounded UInt8 poolSize
deriving DecidableEq

namespace DiagStreamParser

def init : DiagStreamParser := ⟨.down, .empty _ _⟩

def keep (p : DiagStreamParser) (b : UInt8) : Option DiagStreamParser :=
  (p.pool.push b).map fun pool => ⟨.up, pool⟩

def unescapeLoop : DiagStreamParser → List UInt8 →
    Option (DiagStreamParser × Option (List UInt8) × List UInt8)
  | p, [] => some (p, none, [])
  | p, b :: src =>
    match p.state with
    | .down => unescapeLoop ⟨if b = flagByte then .ready else .down, p.pool⟩ src
    | .halt => (p.keep (b ^^^ complementByte)).bind fun p => unescapeLoop p src
    | _ =>
      if b = flagByte then
        if p.state = .ready then unescapeLoop p src
        else some (⟨.down, .empty _ _⟩, some p.pool.toList, src)
      else if b = escapeByte then
        match src with
        | c :: src => (p.keep (c ^^^ complementByte)).bind fun p => unescapeLoop p src
        | [] => some (⟨.halt, p.pool⟩, none, [])
      else (p.keep b).bind fun p => unescapeLoop p src

/-- The parser behind the call, `*dst_ptr` where the call returns true, and `*used_len`. -/
def unescape (p : DiagStreamParser) (src : List UInt8) :
    Option (DiagStreamParser × Option (List UInt8) × Nat) :=
  (p.unescapeLoop src).map fun r => (r.1, r.2.1, src.length - r.2.2.length)

def processLoop : Nat → DiagStreamParser → List UInt8 →
    Option (DiagStreamParser × List (List UInt8))
  | 0, p, _ => some (p, [])
  | fuel + 1, p, src =>
    if src = [] then some (p, [])
    else (p.unescape src).bind fun r =>
      (processLoop fuel r.1 (src.drop r.2.2)).map fun q => (q.1, r.2.1.toList ++ q.2)

def process (p : DiagStreamParser) (src : List UInt8) :
    Option (DiagStreamParser × List (List UInt8)) :=
  processLoop src.length p src

def processAll (p : DiagStreamParser) (chunks : List (List UInt8)) :
    Option (DiagStreamParser × List (List UInt8)) :=
  transduce process p chunks

end DiagStreamParser

def escape : List UInt8 → Bounded UInt8 cap → Option (Bounded UInt8 cap)
  | [], dst => some dst
  | b :: src, dst =>
    if b = flagByte ∨ b = escapeByte then
      (dst.push escapeByte).bind fun dst =>
        (dst.push (b ^^^ complementByte)).bind fun dst => escape src dst
    else (dst.push b).bind fun dst => escape src dst

structure DiagMessage where
  type : UInt8
  subtype : UInt8
  pl : List UInt8
deriving DecidableEq, Repr

namespace DiagMessage

def head (m : DiagMessage) : List UInt8 :=
  toLe 4 0 ++ toLe 2 (8 + m.pl.length) ++ [m.type, m.subtype]

@[simp] theorem length_head (m : DiagMessage) : m.head.length = 8 := by
  simp [head, length_toLe]

def bufLen (m : DiagMessage) : Nat := 2 * (m.pl.length + 8) + 2

def frame (m : DiagMessage) : Option (List UInt8) :=
  ((Bounded.empty UInt8 m.bufLen).push flagByte).bind fun buf =>
    (escape m.head buf).bind fun buf =>
      (escape m.pl buf).bind fun buf => (buf.push flagByte).map Bounded.toList

def packet (m : DiagMessage) : List UInt8 := m.head ++ m.pl

end DiagMessage

def escaped : List UInt8 → List UInt8
  | [] => []
  | b :: src =>
    if b = flagByte ∨ b = escapeByte then escapeByte :: (b ^^^ complementByte) :: escaped src
    else b :: escaped src

theorem escaped_append (s t : List UInt8) : escaped (s ++ t) = escaped s ++ escaped t := by
  induction s with
  | nil => rfl
  | cons b s ih =>
    simp only [cons_append, escaped, ih]
    split <;> rfl

theorem length_escaped_le (s : List UInt8) : (escaped s).length ≤ 2 * s.length := by
  induction s with
  | nil => exact le_refl 0
  | cons b s ih =>
    rw [escaped]
    split <;> simp only [length_cons] <;> omega

theorem escape_eq (src : List UInt8) (dst : Bounded UInt8 cap)
    (h : dst.toList.length + (escaped src).length ≤ cap) :
    ∃ out, escape src dst = some out ∧ out.toList = dst.toList ++ escaped src := by
  induction src generalizing dst with
  | nil => exact ⟨dst, rfl, (append_nil _).symm⟩
  | cons b src ih =>
    by_cases hb : b = flagByte ∨ b = escapeByte
    · rw [escaped, if_pos hb] at h ⊢
      simp only [length_cons] at h
      obtain ⟨d₁, hd₁, hl₁⟩ := Bounded.push_of_lt (s := dst) (by omega) escapeByte
      have hn₁ := congrArg List.length hl₁
      rw [length_append, length_singleton] at hn₁
      obtain ⟨d₂, hd₂, hl₂⟩ := Bounded.push_of_lt (s := d₁) (by omega) (b ^^^ complementByte)
      have hn₂ := congrArg List.length hl₂
      rw [length_append, length_singleton] at hn₂
      obtain ⟨out, hout, hlist⟩ := ih d₂ (by omega)
      refine ⟨out, ?_, ?_⟩
      · rw [escape, if_pos hb, hd₁, bind_some, hd₂, bind_some, hout]
      · rw [hlist, hl₂, hl₁, append_assoc, append_assoc]
        rfl
    · rw [escaped, if_neg hb] at h ⊢
      simp only [length_cons] at h
      obtain ⟨d₁, hd₁, hl₁⟩ := Bounded.push_of_lt (s := dst) (by omega) b
      have hn₁ := congrArg List.length hl₁
      rw [length_append, length_singleton] at hn₁
      obtain ⟨out, hout, hlist⟩ := ih d₁ (by omega)
      refine ⟨out, ?_, ?_⟩
      · rw [escape, if_neg hb, hd₁, bind_some, hout]
      · rw [hlist, hl₁, append_assoc]
        rfl

theorem DiagMessage.frame_eq (m : DiagMessage) :
    m.frame = some (flagByte :: escaped m.packet ++ [flagByte]) := by
  have hh := length_escaped_le m.head
  have hp := length_escaped_le m.pl
  rw [length_head] at hh
  have hcap : m.bufLen = 2 * (m.pl.length + 8) + 2 := rfl
  obtain ⟨b₁, hb₁, hl₁⟩ :=
    Bounded.push_of_lt (s := Bounded.empty UInt8 m.bufLen) (Nat.succ_pos _) flagByte
  have hn₁ : b₁.toList.length = 1 := congrArg List.length hl₁
  obtain ⟨b₂, hb₂, hl₂⟩ := escape_eq m.head b₁ (by omega)
  have hn₂ := congrArg List.length hl₂
  rw [length_append] at hn₂
  obtain ⟨b₃, hb₃, hl₃⟩ := escape_eq m.pl b₂ (by omega)
  have hn₃ := congrArg List.length hl₃
  rw [length_append] at hn₃
  obtain ⟨b₄, hb₄, hl₄⟩ := Bounded.push_of_lt (s := b₃) (by omega) flagByte
  rw [frame, hb₁, bind_some, hb₂, bind_some, hb₃, bind_some, hb₄,
    map_some, hl₄, hl₃, hl₂, hl₁, packet, escaped_append]
  simp [Bounded.empty_toList]

namespace DiagStreamParser

def byte (p : DiagStreamParser) (b : UInt8) : Option (DiagStreamParser × List (List UInt8)) :=
  match p.state with
  | .down => some (⟨if b = flagByte then .ready else .down, p.pool⟩, [])
  | .halt => (p.keep (b ^^^ complementByte)).map fun p => (p, [])
  | _ =>
    if b = flagByte then
      if p.state = .ready then some (p, []) else some (init, [p.pool.toList])
    else if b = escapeByte then some (⟨.halt, p.pool⟩, [])
    else (p.keep b).map fun p => (p, [])

def Inside (p : DiagStreamParser) : Prop := p.state ≠ .down ∧ p.state ≠ .halt

variable {p : DiagStreamParser}

theorem byte_down (h : p.state = .down) (b : UInt8) :
    p.byte b = some (⟨if b = flagByte then .ready else .down, p.pool⟩, []) := by
  rw [byte, h]

theorem byte_halt (h : p.state = .halt) (b : UInt8) :
    p.byte b = (p.keep (b ^^^ complementByte)).map fun p => (p, []) := by
  rw [byte, h]

theorem byte_inside (h : p.Inside) (b : UInt8) :
    p.byte b =
      if b = flagByte then
        if p.state = .ready then some (p, []) else some (init, [p.pool.toList])
      else if b = escapeByte then some (⟨.halt, p.pool⟩, [])
      else (p.keep b).map fun p => (p, []) := by
  rw [byte]
  split
  · rename_i hs
    exact absurd hs h.1
  · rename_i hs
    exact absurd hs h.2
  · rfl

theorem byte_close (h : p.Inside) (hr : p.state ≠ .ready) :
    p.byte flagByte = some (init, [p.pool.toList]) := by
  rw [byte_inside h, if_pos rfl, if_neg hr]

theorem byte_escape (h : p.Inside) : p.byte escapeByte = some (⟨.halt, p.pool⟩, []) := by
  rw [byte_inside h, if_neg (by decide), if_pos rfl]

theorem byte_plain (h : p.Inside) (hf : b ≠ flagByte) (he : b ≠ escapeByte) :
    p.byte b = (p.keep b).map fun p => (p, []) := by
  rw [byte_inside h, if_neg hf, if_neg he]

theorem transduce_keep (h : p.byte b = (p.keep c).map fun p => (p, []))
    (src : List UInt8) :
    transduce byte p (b :: src) = (p.keep c).bind fun q => transduce byte q src := by
  cases hk : p.keep c with
  | none => rw [transduce, h, hk, map_none, bind_none, bind_none]
  | some q =>
    rw [hk, map_some] at h
    rw [transduce_quiet h, bind_some]

theorem transduce_escape (h : p.Inside) (c : UInt8) (src : List UInt8) :
    transduce byte p (escapeByte :: c :: src) =
      (p.keep (c ^^^ complementByte)).bind fun q => transduce byte q src := by
  rw [transduce_quiet (byte_escape h), transduce_keep (byte_halt rfl c)]
  rfl

theorem unescapeLoop_bytes (p : DiagStreamParser) (src : List UInt8) :
    (p.unescapeLoop src).bind (fun r => (transduce byte r.1 r.2.2).map fun q =>
      (q.1, r.2.1.toList ++ q.2)) = transduce byte p src := by
  fun_induction unescapeLoop p src with
  | case1 p => rfl
  | case2 p b src h ih => rw [ih, transduce_quiet (byte_down h b)]
  | case3 p b src h ih =>
    rw [transduce_keep (byte_halt h b), bind_assoc]
    exact bind_congr fun q _ => ih q
  | case4 p src hr hd hh ih =>
    rw [ih, transduce_quiet]
    rw [byte_inside ⟨hd, hh⟩, if_pos rfl, if_pos hr]
  | case5 p src hr hd hh =>
    rw [transduce_cons (byte_close ⟨hd, hh⟩ hr), bind_some]
    rfl
  | case6 p c src hd hh _ ih =>
    rw [transduce_escape ⟨hd, hh⟩, bind_assoc]
    exact bind_congr fun q _ => ih q
  | case7 p hd hh =>
    rw [transduce_quiet (byte_escape ⟨hd, hh⟩)]
    rfl
  | case8 p b src hf he hd hh ih =>
    rw [transduce_keep (byte_plain ⟨hd, hh⟩ hf he), bind_assoc]
    exact bind_congr fun q _ => ih q

theorem unescapeLoop_suffix (h : p.unescapeLoop src = some (q, dst, rest)) :
    rest <:+ src.tail := by
  fun_induction unescapeLoop p src with
  | case1 p =>
    cases h
    exact suffix_refl []
  | case2 p b src _ ih => exact (ih h).trans (tail_suffix src)
  | case3 p b src _ ih =>
    obtain ⟨p', -, h'⟩ := bind_eq_some_iff.mp h
    exact (ih p' h').trans (tail_suffix src)
  | case4 p src _ _ _ ih => exact (ih h).trans (tail_suffix src)
  | case5 p src =>
    cases h
    exact suffix_refl rest
  | case6 p c src _ _ _ ih =>
    obtain ⟨p', -, h'⟩ := bind_eq_some_iff.mp h
    exact ((ih p' h').trans (tail_suffix src)).trans (suffix_cons c src)
  | case7 p =>
    cases h
    exact suffix_refl []
  | case8 p b src _ _ _ _ ih =>
    obtain ⟨p', -, h'⟩ := bind_eq_some_iff.mp h
    exact (ih p' h').trans (tail_suffix src)

theorem unescape_eq (p : DiagStreamParser) (src : List UInt8) (f : DiagStreamParser →
    Option (List UInt8) → List UInt8 → Option β) :
    (p.unescape src).bind (fun r => f r.1 r.2.1 (src.drop r.2.2)) =
      (p.unescapeLoop src).bind fun r => f r.1 r.2.1 r.2.2 := by
  rw [unescape, bind_map]
  refine bind_congr fun r hr => ?_
  have hs := (unescapeLoop_suffix hr).trans (tail_suffix src)
  simp [← suffix_iff_eq_drop.mp hs]

theorem processLoop_eq (fuel : Nat) (p : DiagStreamParser) (src : List UInt8)
    (h : src.length ≤ fuel) : processLoop fuel p src = transduce byte p src := by
  induction fuel generalizing p src with
  | zero =>
    rw [eq_nil_of_length_eq_zero (Nat.le_zero.mp h)]
    rfl
  | succ fuel ih =>
    rw [processLoop]
    by_cases hn : src = []
    · subst hn
      rfl
    rw [if_neg hn, ← unescapeLoop_bytes, unescape_eq p src fun q dst rest =>
      (processLoop fuel q rest).map fun q => (q.1, dst.toList ++ q.2)]
    refine bind_congr fun ⟨q, dst, rest⟩ hr => ?_
    have hl := (unescapeLoop_suffix hr).length_le
    have hp := length_pos_of_ne_nil hn
    rw [length_tail] at hl
    rw [ih q rest (by omega)]

theorem processAll_eq (p : DiagStreamParser) (chunks : List (List UInt8)) :
    p.processAll chunks = transduce byte p chunks.flatten := by
  have h : process = transduce byte := by
    funext p src
    exact processLoop_eq src.length p src (le_refl _)
  rw [processAll, h, transduce_flatten]

theorem keep_of_lt (h : p.pool.toList.length < poolSize) (b : UInt8) :
    ∃ q : DiagStreamParser, p.keep b = some q ∧ q.state = .up ∧
      q.pool.toList = p.pool.toList ++ [b] := by
  obtain ⟨pool, hp, hl⟩ := Bounded.push_of_lt h b
  exact ⟨⟨.up, pool⟩, by rw [keep, hp, map_some], rfl, hl⟩

theorem xor_complement (b : UInt8) : b ^^^ complementByte ^^^ complementByte = b := by
  rw [UInt8.xor_assoc, UInt8.xor_self, UInt8.xor_zero]

theorem transduce_escaped (h : p.Inside) (s rest : List UInt8) (hs : s ≠ [])
    (hl : p.pool.toList.length + s.length ≤ poolSize) :
    ∃ q : DiagStreamParser, q.state = .up ∧ q.pool.toList = p.pool.toList ++ s ∧
      transduce byte p (escaped s ++ rest) = transduce byte q rest := by
  induction s generalizing p with
  | nil => exact absurd rfl hs
  | cons b s ih =>
    rw [length_cons] at hl
    obtain ⟨q, hk, hq, hp⟩ := keep_of_lt (p := p) (by omega) b
    have hb : transduce byte p (escaped (b :: s) ++ rest) = transduce byte q (escaped s ++ rest) := by
      rw [escaped]
      split
      · rw [cons_append, cons_append, transduce_escape h, xor_complement, hk, bind_some]
      · rename_i hn
        rw [not_or] at hn
        rw [cons_append, transduce_keep (byte_plain h hn.1 hn.2), hk, bind_some]
    by_cases hn : s = []
    · subst hn
      exact ⟨q, hq, hp, hb⟩
    have hi : q.Inside := by
      rw [Inside, hq]
      exact ⟨nofun, nofun⟩
    have hlen := congrArg List.length hp
    rw [length_append, length_singleton] at hlen
    obtain ⟨q', hu, hp', hr⟩ := ih hi hn (by omega)
    refine ⟨q', hu, ?_, hb.trans hr⟩
    rw [hp', hp, append_assoc]
    rfl

theorem transduce_frame (m : DiagMessage) (hm : m.packet.length ≤ poolSize) (rest : List UInt8) :
    transduce byte init (flagByte :: escaped m.packet ++ [flagByte] ++ rest) =
      (transduce byte init rest).map fun q => (q.1, m.packet :: q.2) := by
  have hn : m.packet ≠ [] := by
    intro h
    have hl := congrArg List.length h
    rw [DiagMessage.packet, length_append, DiagMessage.length_head, length_nil] at hl
    omega
  have hopen : init.byte flagByte = some (⟨.ready, init.pool⟩, []) := byte_down rfl flagByte
  obtain ⟨q, hq, hp, hr⟩ := transduce_escaped (p := ⟨.ready, init.pool⟩) ⟨nofun, nofun⟩ m.packet
    (flagByte :: rest) hn (by simpa only [init, Bounded.empty_toList, length_nil, zero_add]
      using hm)
  have hclose : q.byte flagByte = some (init, [m.packet]) := by
    rw [byte_close ⟨by rw [hq]; nofun, by rw [hq]; nofun⟩ (by rw [hq]; nofun), hp]
    rfl
  rw [append_assoc, cons_append, transduce_quiet hopen]
  exact hr.trans (transduce_cons hclose rest)

theorem transduce_frames (ms : List DiagMessage) (hm : ∀ m ∈ ms, m.packet.length ≤ poolSize) :
    transduce byte init (ms.map fun m => flagByte :: escaped m.packet ++ [flagByte]).flatten =
      some (init, ms.map DiagMessage.packet) := by
  induction ms with
  | nil => rfl
  | cons m ms ih =>
    rw [map_cons, flatten_cons, transduce_frame m (hm m mem_cons_self),
      ih fun m h => hm m (mem_cons_of_mem _ h)]
    rfl

/-- Framed messages reach the consumers whole and in order, however the device cuts the stream. -/
theorem frames_are_delivered (ms : List DiagMessage) :
    ∃ out : List (List UInt8), ms.mapM DiagMessage.frame = some out ∧
      ∀ chunks : List (List UInt8), (∀ m ∈ ms, 8 + m.pl.length ≤ 65536) →
        chunks.flatten = out.flatten →
        init.processAll chunks = some (init, ms.map DiagMessage.packet) := by
  have hf : DiagMessage.frame = fun m => pure (flagByte :: escaped m.packet ++ [flagByte]) :=
    funext DiagMessage.frame_eq
  refine ⟨_, by rw [hf, mapM_pure]; rfl, ?_⟩
  intro chunks hm hc
  rw [processAll_eq, hc]
  apply transduce_frames
  intro m h
  rw [DiagMessage.packet, length_append, DiagMessage.length_head]
  exact hm m h

/-- Two messages, the second with bytes to escape, cut inside an escaped pair. -/
theorem escaped_messages_are_delivered :
    init.processAll [[0x7e, 0, 0, 0, 0, 8, 0, 5, 1, 0x7e, 0x7e, 0, 0, 0, 0, 10, 0, 5, 2, 0x7d],
        [0x5e, 0x7d, 0x5d, 0x7e]] =
      some (init, [[0, 0, 0, 0, 8, 0, 5, 1], [0, 0, 0, 0, 10, 0, 5, 2, 0x7e, 0x7d]]) := by
  obtain ⟨out, hout, h⟩ := frames_are_delivered [⟨5, 1, []⟩, ⟨5, 2, [0x7e, 0x7d]⟩]
  have he : some out = some [[0x7e, 0, 0, 0, 0, 8, 0, 5, 1, 0x7e],
      [0x7e, 0, 0, 0, 0, 10, 0, 5, 2, 0x7d, 0x5e, 0x7d, 0x5d, 0x7e]] := by
    rw [← hout]
    decide +kernel
  cases he
  exact h _ (by decide) rfl

end DiagStreamParser

end SprdVendor.SlogModem
