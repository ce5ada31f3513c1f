import SprdVendor.Lib.Bytes
import SprdVendor.Lib.Run

namespace SprdVendor.Isp
open Lib List Option

def cmdBufSize : Nat := 65536

structure Diag where
  rxBuf : List UInt8
  cmdBuf : List UInt8
  rxPacketLen : Nat
  rxPacketTotalLen : Nat
  /-- What `handle_isp_data` was called with, in order. -/
  handed : List (List UInt8)

namespace Diag

def setCounters (s : Diag) (len total : Nat) : Diag :=
  { s with rxPacketLen := len, rxPacketTotalLen := total }

/-- `isp_RecDataCheck` on the `rxLen` bytes at the start of `diag_rx_buf`: whether a packet is
complete, and the number of its bytes. Storing behind `diag_cmd_buf` has no result. -/
def recDataCheck (s : Diag) (rxLen : Nat) : Option ((Bool × Nat) × Diag) :=
  let header := s.rxBuf.getD 0 0
  let packetLen := (s.rxBuf.getD 6 0).toNat * 256 + (s.rxBuf.getD 5 0).toNat
  let packetEnd := s.rxBuf.getD (rxLen - 1) 0
  let offset := s.rxPacketLen
  let total :=
    if header = 0x7e ∧ s.rxPacketTotalLen = 0 ∧ s.rxPacketLen = 0 then packetLen + 2
    else s.rxPacketTotalLen
  let single : Bool := header = 0x7e ∧ packetEnd = 0x7e
  let len := if single then s.rxPacketLen else s.rxPacketLen + rxLen
  let complete : Bool := single ∨ packetEnd = 0x7e ∧ len = total
  let cmdLen := if single then rxLen else if complete then len else rxLen
  if offset + rxLen ≤ cmdBufSize then
    let s := { s with cmdBuf := patch s.cmdBuf offset (s.rxBuf.take rxLen) }
    some ((complete, cmdLen), if complete then s.setCounters 0 0 else s.setCounters len total)
  else none

/-- One round of `isp_diag_handler`: `recv` delivers between 1 and 65536 bytes. -/
def next (s : Diag) (data : List UInt8) : Option Diag :=
  if data = [] ∨ cmdBufSize < data.length then none
  else
    match { s with rxBuf := patch s.rxBuf 0 data }.recDataCheck data.length with
    | none => none
    | some ((false, _), s) => some s
    | some ((true, cmdLen), s) => some { s with handed := s.handed ++ [s.cmdBuf.take cmdLen] }

end Diag

/-- A packet of the tool: a 0x7E byte, a header with the length of the packet without the two 0x7E
bytes, the payload and a 0x7E byte. -/
structure Packet (p : List UInt8) : Prop where
  long : 8 ≤ p.length
  le : p.length ≤ cmdBufSize
  first : p.getD 0 0 = 0x7e
  last : p.getD (p.length - 1) 0 = 0x7e
  length : (p.getD 6 0).toNat * 256 + (p.getD 5 0).toNat + 2 = p.length

def Bracketed (f : List UInt8) : Prop := f.getD 0 0 = 0x7e ∧ f.getD (f.length - 1) 0 = 0x7e

instance : DecidablePred Bracketed := fun _ => inferInstanceAs (Decidable (_ ∧ _))

/-- The reads a packet arrives in: one, or several of which the first holds the length and none
starts and ends like a whole packet. -/
inductive Arrives (p : List UInt8) : List (List UInt8) → Prop where
  | whole : Arrives p [p]
  | pieces (f : List UInt8) (fs : List (List UInt8)) : (f :: fs).flatten = p → 7 ≤ f.length →
      (∀ g ∈ f :: fs, g ≠ [] ∧ ¬ Bracketed g) → Arrives p (f :: fs)

structure Idle (s : Diag) : Prop where
  rxBuf : s.rxBuf.length = cmdBufSize
  cmdBuf : s.cmdBuf.length = cmdBufSize
  len : s.rxPacketLen = 0
  total : s.rxPacketTotalLen = 0

structure Partly (q : List UInt8) (n : Nat) (s : Diag) : Prop where
  rxBuf : s.rxBuf.length = cmdBufSize
  cmdBuf : s.cmdBuf.length = cmdBufSize
  len : s.rxPacketLen = q.length
  total : s.rxPacketTotalLen = n
  bytes : s.cmdBuf.take q.length = q

theorem getD_patch_zero {l d : List UInt8} (h : i < d.length) :
    (patch l 0 d).getD i 0 = d.getD i 0 := by
  rw [patch_zero, getD_append _ _ _ _ h]

theorem take_patch_zero (l d : List UInt8) : (patch l 0 d).take d.length = d := by
  rw [patch_zero, take_left]

theorem take_patch_continue (hq : l.take q.length = q) :
    (patch l q.length d).take (q ++ d).length = q ++ d := by
  rw [patch, hq, take_left]

namespace Diag

def store (s : Diag) (d : List UInt8) : Diag :=
  { s with rxBuf := patch s.rxBuf 0 d, cmdBuf := patch s.cmdBuf s.rxPacketLen d }

def handOver (s : Diag) (n : Nat) : Diag :=
  { s.setCounters 0 0 with handed := s.handed ++ [s.cmdBuf.take n] }

def newTotal (s : Diag) (d : List UInt8) : Nat :=
  if d.getD 0 0 = 0x7e ∧ s.rxPacketTotalLen = 0 ∧ s.rxPacketLen = 0 then
    ((patch s.rxBuf 0 d).getD 6 0).toNat * 256 + ((patch s.rxBuf 0 d).getD 5 0).toNat + 2
  else s.rxPacketTotalLen

theorem next_eq {s : Diag} (hne : d ≠ []) (hfits : s.rxPacketLen + d.length ≤ cmdBufSize) :
    s.next d = some (
      if Bracketed d then (s.store d).handOver d.length
      else if d.getD (d.length - 1) 0 = 0x7e ∧ s.rxPacketLen + d.length = s.newTotal d then
        (s.store d).handOver (s.rxPacketLen + d.length)
      else (s.store d).setCounters (s.rxPacketLen + d.length) (s.newTotal d)) := by
  have hpos : 0 < d.length := length_pos_iff.2 hne
  have hfirst : (patch s.rxBuf 0 d).getD 0 0 = d.getD 0 0 := getD_patch_zero hpos
  have hlast : (patch s.rxBuf 0 d).getD (d.length - 1) 0 = d.getD (d.length - 1) 0 :=
    getD_patch_zero (by omega)
  have hin : ¬ (d = [] ∨ cmdBufSize < d.length) := by
    rintro (rfl | hlong)
    · exact hne rfl
    · omega
  have htotal : (if d.getD 0 0 = 0x7e ∧ s.rxPacketTotalLen = 0 ∧ s.rxPacketLen = 0 then
      ((patch s.rxBuf 0 d).getD 6 0).toNat * 256 + ((patch s.rxBuf 0 d).getD 5 0).toNat + 2
    else s.rxPacketTotalLen) = s.newTotal d := rfl
  simp only [next, if_neg hin, recDataCheck, hfirst, hlast, if_pos hfits, take_patch_zero, htotal]
  by_cases hb : Bracketed d
  · have hsingle : d.getD 0 0 = 0x7e ∧ d.getD (d.length - 1) 0 = 0x7e := hb
    simp only [hsingle, and_self, decide_true, true_or, if_true, if_pos hb]
    rfl
  have hsingle : decide (d.getD 0 0 = 0x7e ∧ d.getD (d.length - 1) 0 = 0x7e) = false :=
    decide_eq_false hb
  by_cases hc : d.getD (d.length - 1) 0 = 0x7e ∧ s.rxPacketLen + d.length = s.newTotal d
  · have hcomplete := decide_eq_true hc
    simp only [hsingle, Bool.false_eq_true, if_false, false_or, hcomplete, if_true, if_neg hb,
      if_pos hc]
    rfl
  · have hcomplete := decide_eq_false hc
    simp only [hsingle, Bool.false_eq_true, if_false, false_or, hcomplete, if_neg hb, if_neg hc]
    rfl

theorem length_store {s : Diag} (h : s.rxBuf.length = cmdBufSize) (h' : s.cmdBuf.length = cmdBufSize)
    (hfits : s.rxPacketLen + d.length ≤ cmdBufSize) :
    (s.store d).rxBuf.length = cmdBufSize ∧ (s.store d).cmdBuf.length = cmdBufSize := by
  constructor
  · exact (length_patch _ _ (by omega)).trans h
  · exact (length_patch _ _ (by omega)).trans h'

end Diag

theorem Idle.whole (h : Idle s) (hne : d ≠ []) (hlen : d.length ≤ cmdBufSize) (hb : Bracketed d) :
    ∃ t, s.next d = some t ∧ Idle t ∧ t.handed = s.handed ++ [d] := by
  have hfits : s.rxPacketLen + d.length ≤ cmdBufSize := by
    rw [h.len]
    omega
  obtain ⟨hrx, hcmd⟩ := Diag.length_store h.rxBuf h.cmdBuf hfits
  refine ⟨_, (Diag.next_eq hne hfits).trans (congrArg some (if_pos hb)), ⟨hrx, hcmd, rfl, rfl⟩, ?_⟩
  simp only [Diag.handOver, Diag.store, h.len, take_patch_zero]

theorem Idle.first (h : Idle s) (hp : Packet (d ++ rest)) (hlen : 7 ≤ d.length)
    (hb : ¬ Bracketed d) :
    ∃ t, s.next d = some t ∧ Partly d (d ++ rest).length t ∧ t.handed = s.handed := by
  have hle := hp.le
  rw [length_append] at hle
  have hfits : s.rxPacketLen + d.length ≤ cmdBufSize := by
    rw [h.len]
    omega
  have hne : d ≠ [] := length_pos_iff.1 (by omega)
  have hfirst : d.getD 0 0 = 0x7e := by
    rw [← hp.first, getD_append _ _ _ _ (by omega)]
  have hlast : ¬ d.getD (d.length - 1) 0 = 0x7e := fun hlast => hb ⟨hfirst, hlast⟩
  have htotal : s.newTotal d = (d ++ rest).length := by
    rw [Diag.newTotal, if_pos ⟨hfirst, h.total, h.len⟩, getD_patch_zero (by omega),
      getD_patch_zero (by omega), ← hp.length, getD_append _ _ _ _ (by omega),
      getD_append _ _ _ _ (by omega)]
  obtain ⟨hrx, hcmd⟩ := Diag.length_store h.rxBuf h.cmdBuf hfits
  have hnext := Diag.next_eq hne hfits
  rw [if_neg hb, if_neg fun hc => hlast hc.1, htotal] at hnext
  refine ⟨_, hnext, ⟨hrx, hcmd, ?_, rfl, ?_⟩, rfl⟩
  · simp [Diag.setCounters, h.len]
  · simp only [Diag.setCounters, Diag.store, h.len, take_patch_zero]

theorem Partly.middle (h : Partly q n s) (hq : q ≠ []) (hne : d ≠ []) (hb : ¬ Bracketed d)
    (hlt : (q ++ d).length < n) (hn : n ≤ cmdBufSize) :
    ∃ t, s.next d = some t ∧ Partly (q ++ d) n t ∧ t.handed = s.handed := by
  rw [length_append] at hlt
  have hfits : s.rxPacketLen + d.length ≤ cmdBufSize := by
    rw [h.len]
    omega
  have hpos : 0 < q.length := length_pos_iff.2 hq
  have htotal : s.newTotal d = n := by
    rw [Diag.newTotal, if_neg, h.total]
    rw [h.len]
    omega
  obtain ⟨hrx, hcmd⟩ := Diag.length_store h.rxBuf h.cmdBuf hfits
  have hnext := Diag.next_eq hne hfits
  rw [if_neg hb, htotal, if_neg (by rw [h.len]; omega)] at hnext
  refine ⟨_, hnext, ⟨hrx, hcmd, ?_, rfl, ?_⟩, rfl⟩
  · simp [Diag.setCounters, h.len]
  · simp only [Diag.setCounters, Diag.store, h.len]
    exact take_patch_continue h.bytes

theorem Partly.last (h : Partly q n s) (hq : q ≠ []) (hne : d ≠ []) (hb : ¬ Bracketed d)
    (hlast : d.getD (d.length - 1) 0 = 0x7e) (hlen : (q ++ d).length = n) (hn : n ≤ cmdBufSize) :
    ∃ t, s.next d = some t ∧ Idle t ∧ t.handed = s.handed ++ [q ++ d] := by
  rw [length_append] at hlen
  have hfits : s.rxPacketLen + d.length ≤ cmdBufSize := by
    rw [h.len]
    omega
  have hpos : 0 < q.length := length_pos_iff.2 hq
  have htotal : s.newTotal d = n := by
    rw [Diag.newTotal, if_neg, h.total]
    rw [h.len]
    omega
  obtain ⟨hrx, hcmd⟩ := Diag.length_store h.rxBuf h.cmdBuf hfits
  have hnext := Diag.next_eq hne hfits
  rw [if_neg hb, htotal, if_pos ⟨hlast, by rw [h.len, hlen]⟩] at hnext
  refine ⟨_, hnext, ⟨hrx, hcmd, rfl, rfl⟩, ?_⟩
  simp only [Diag.handOver, Diag.store, h.len]
  rw [← length_append, take_patch_continue h.bytes]

theorem Partly.run (h : Partly q (q ++ fs.flatten).length s) (hp : Packet (q ++ fs.flatten))
    (hq : q ≠ []) (hfs : fs ≠ []) (hall : ∀ g ∈ fs, g ≠ [] ∧ ¬ Bracketed g) :
    ∃ t, exec Diag.next s fs = some t ∧ Idle t ∧ t.handed = s.handed ++ [q ++ fs.flatten] := by
  induction fs generalizing q s with
  | nil => exact absurd rfl hfs
  | cons f fs ih =>
    obtain ⟨hf, hb⟩ := hall f mem_cons_self
    have hpos : 0 < f.length := length_pos_iff.2 hf
    simp only [flatten_cons] at h hp ⊢
    cases fs with
    | nil =>
      simp only [flatten_nil, append_nil] at h hp ⊢
      have hlast : f.getD (f.length - 1) 0 = 0x7e := by
        have hlast := hp.last
        rw [length_append, getD_append_right _ _ _ _ (by omega)] at hlast
        rwa [show q.length + f.length - 1 - q.length = f.length - 1 by omega] at hlast
      obtain ⟨t, ht, hidle, hhanded⟩ := h.last hq hf hb hlast rfl hp.le
      refine ⟨t, ?_, hidle, hhanded⟩
      simp [exec, ht]
    | cons g gs =>
      obtain ⟨hg, -⟩ := hall g (mem_cons_of_mem f mem_cons_self)
      have hlt : (q ++ f).length < (q ++ (f ++ (g :: gs).flatten)).length := by
        have hpos : 0 < g.length := length_pos_iff.2 hg
        simp only [flatten_cons, length_append]
        omega
      obtain ⟨t, ht, hpartly, hhanded⟩ := h.middle hq hf hb hlt hp.le
      rw [← append_assoc] at hp hpartly
      obtain ⟨u, hu, hidle, hhanded'⟩ := ih hpartly hp (append_ne_nil_of_left_ne_nil hq f)
        (cons_ne_nil g gs) fun k hk => hall k (mem_cons_of_mem f hk)
      refine ⟨u, ?_, hidle, ?_⟩
      · simp only [exec, ht, bind_some] at hu ⊢
        exact hu
      · rw [hhanded', hhanded, append_assoc]

theorem Idle.packet (h : Idle s) (hp : Packet p) (hfs : Arrives p fs) :
    ∃ t, exec Diag.next s fs = some t ∧ Idle t ∧ t.handed = s.handed ++ [p] := by
  have hne : p ≠ [] := length_pos_iff.1 (by have := hp.long; omega)
  cases hfs with
  | whole =>
    obtain ⟨t, ht, hidle, hhanded⟩ := h.whole hne hp.le ⟨hp.first, hp.last⟩
    refine ⟨t, ?_, hidle, hhanded⟩
    simp [exec, ht]
  | pieces f fs hflat hlen hall =>
    obtain ⟨hf, hb⟩ := hall f mem_cons_self
    rw [flatten_cons] at hflat
    subst hflat
    have hfs : fs ≠ [] := by
      rintro rfl
      rw [flatten_nil, append_nil] at hp
      exact hb ⟨hp.first, hp.last⟩
    obtain ⟨t, ht, hpartly, hhanded⟩ := h.first hp hlen hb
    obtain ⟨u, hu, hidle, hhanded'⟩ := hpartly.run hp hf hfs fun g hg =>
      hall g (mem_cons_of_mem f hg)
    refine ⟨u, ?_, hidle, ?_⟩
    · simp only [exec, ht, bind_some]
      exact hu
    · rw [hhanded', hhanded]

theorem Idle.packets (h : Idle s) (hps : ∀ p ∈ ps, Packet p) (hfss : List.Forall₂ Arrives ps fss) :
    ∃ t, exec Diag.next s fss.flatten = some t ∧ Idle t ∧ t.handed = s.handed ++ ps := by
  induction hfss generalizing s with
  | nil => exact ⟨s, rfl, h, (append_nil _).symm⟩
  | @cons p fs ps fss hfs _ ih =>
    obtain ⟨t, ht, hidle, hhanded⟩ := h.packet (hps p mem_cons_self) hfs
    obtain ⟨u, hu, hidle', hhanded'⟩ := ih hidle fun p' hp' => hps p' (mem_cons_of_mem p hp')
    refine ⟨u, ?_, hidle', ?_⟩
    · rw [flatten_cons, exec_append, ht, bind_some, hu]
    · rw [hhanded', hhanded, append_assoc, singleton_append]

theorem exec_next_isSome (hne : ∀ d ∈ ds, d ≠ [])
    (hlen : s.rxPacketLen + ds.flatten.length ≤ cmdBufSize) : (exec Diag.next s ds).isSome := by
  induction ds generalizing s with
  | nil => rfl
  | cons d ds ih =>
    rw [flatten_cons, length_append] at hlen
    have hd := hne d mem_cons_self
    rw [exec, Diag.next_eq hd (by omega), bind_some]
    apply ih fun g hg => hne g (mem_cons_of_mem d hg)
    split
    · simp only [Diag.handOver, Diag.setCounters]
      omega
    split
    · simp only [Diag.handOver, Diag.setCounters]
      omega
    · simp only [Diag.setCounters]
      omega

def start : Diag := ⟨List.replicate cmdBufSize 0, List.replicate cmdBufSize 0, 0, 0, []⟩

theorem idle_start : Idle start := ⟨length_replicate, length_replicate, rfl, rfl⟩

/-- Packets in tolerable reads are handed over once each, in order and as they are, and whatever is
read behind them is stored inside the command buffer. -/
theorem isp_packets_handed (hps : ∀ p ∈ ps, Packet p) (hfss : List.Forall₂ Arrives ps fss)
    {ds : List (List UInt8)} (hne : ∀ d ∈ ds, d ≠ []) (hlen : ds.flatten.length ≤ cmdBufSize) :
    ∃ s, exec Diag.next start fss.flatten = some s ∧ s.handed = ps ∧
      (exec Diag.next start (fss.flatten ++ ds)).isSome := by
  obtain ⟨s, hs, hidle, hhanded⟩ := idle_start.packets hps hfss
  refine ⟨s, hs, hhanded, ?_⟩
  rw [exec_append, hs, bind_some]
  apply exec_next_isSome hne
  rw [hidle.len]
  omega

def shortPacket : List UInt8 := [0x7e, 1, 2, 3, 4, 7, 0, 9, 0x7e]

theorem shortPacket_packet : Packet shortPacket :=
  ⟨by decide, by decide, by decide, by decide, by decide⟩

theorem short_packet_in_two_reads : ∃ s,
    exec Diag.next start [shortPacket.take 7, shortPacket.drop 7, shortPacket] = some s ∧
      s.handed = [shortPacket, shortPacket] := by
  have hps : ∀ p ∈ [shortPacket, shortPacket], Packet p := by
    intro p hp
    obtain rfl : p = shortPacket := by simpa using hp
    exact shortPacket_packet
  have hcut : Arrives shortPacket [shortPacket.take 7, shortPacket.drop 7] := by
    apply Arrives.pieces
    · decide
    · decide
    · decide
  have hfss : List.Forall₂ Arrives [shortPacket, shortPacket]
      [[shortPacket.take 7, shortPacket.drop 7], [shortPacket]] :=
    .cons hcut (.cons .whole .nil)
  have hnone : ∀ d ∈ ([] : List (List UInt8)), d ≠ [] := by simp
  obtain ⟨s, hs, hhanded, -⟩ := isp_packets_handed hps hfss hnone (Nat.zero_le _)
  exact ⟨s, hs, hhanded⟩

/-- Two packets in one read are handed over as one, and a stream without any 0x7E byte is stored
behind the command buffer. -/
theorem two_packets_in_one_read :
    (∃ s, exec Diag.next start [shortPacket ++ shortPacket] = some s ∧
      s.handed = [shortPacket ++ shortPacket]) ∧
    exec Diag.next start [List.replicate cmdBufSize 1, [1]] = none := by
  constructor
  · obtain ⟨s, hs, -, hhanded⟩ :=
      idle_start.whole (d := shortPacket ++ shortPacket) (by decide) (by decide) (by decide)
    refine ⟨s, ?_, hhanded⟩
    simp [exec, hs]
  · rw [← isNone_iff_eq_none]
    decide +kernel

end SprdVendor.Isp
