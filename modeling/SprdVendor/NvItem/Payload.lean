import SprdVendor.NvItem.Packet

namespace SprdVendor.NvItem
open Lib List

/-- The bytes one `read` of the channel puts into `packeBuf`; none stand for a failed one. -/
structure ChannelRead where
  bytes : List UInt8
  le : bytes.length ≤ packetHeadSize + packetSize

def ChannelRead.sizeOfPacket (r : ChannelRead) : Nat := word r.bytes 16

def Packet.exposed : Packet → Option (List UInt8)
  | .start p | .cont p => some p
  | .skip | .fail => none

/-- The reads of a channel with the verdicts of `_getPacket` on them. After a failure the channel is
opened again with fresh counters. -/
def getPackets (beyond : Nat → UInt8) : Nv → List ChannelRead → List (ChannelRead × Packet)
  | _, [] => []
  | nv, r :: rs =>
    let g := getPacket nv r.bytes beyond
    (r, g.1) :: getPackets beyond (if g.1 = .fail then initPacket g.2 else g.2) rs

theorem length_payload (beyond : Nat → UInt8) (hb : b.length = packetHeadSize + packetSize) :
    (payload b beyond).length = word b 16 := by
  rw [payload, length_take, length_append, length_drop, length_map, length_range, hb]
  omega

theorem getPacket_exposed {r : ChannelRead}
    (h : (getPacket nv r.bytes beyond).1.exposed = some p) :
    r.bytes.length = packetHeadSize + packetSize ∧ p = payload r.bytes beyond ∧
      i32 (u32 (packetHeadSize + r.sizeOfPacket)) ≤ r.bytes.length := by
  have hle := r.le
  unfold getPacket at h
  split at h
  · cases h
  rename_i hfull
  split at h
  · cases h
  split at h
  · cases h
  split at h
  · cases h
  rename_i hsize
  refine ⟨by omega, ?_, Int.not_lt.1 hsize⟩
  split at h <;> split at h <;> cases h <;> rfl

theorem size_le_of_signed (h : i32 (u32 (packetHeadSize + n)) ≤ packetHeadSize + packetSize)
    (hn : n < 2 ^ 31 - packetHeadSize) : n ≤ packetSize := by
  have hu : u32 (packetHeadSize + n) = packetHeadSize + n := Nat.mod_eq_of_lt (by omega)
  rw [hu, i32, if_pos (by omega)] at h
  omega

theorem exposed_inside_iff {r : ChannelRead}
    (h : (getPacket nv r.bytes beyond).1.exposed = some p) :
    p <+: r.bytes.drop packetHeadSize ↔ r.sizeOfPacket < 2 ^ 31 - packetHeadSize := by
  obtain ⟨hlen, rfl, hsize⟩ := getPacket_exposed h
  have hbody : (r.bytes.drop packetHeadSize).length = packetSize := by
    rw [length_drop, hlen, Nat.add_sub_cancel_left]
  constructor
  · intro hp
    have hle := hp.length_le
    rw [length_payload beyond hlen, hbody] at hle
    exact hle.trans_lt (by decide)
  intro hs
  rw [hlen] at hsize
  have hle : word r.bytes 16 ≤ packetSize := size_le_of_signed hsize hs
  rw [payload, take_append_of_le_length (hle.trans hbody.ge)]
  exact take_prefix _ _

/-- The payload of a packet that is taken lies in the bytes received exactly when the sum of its
size with that of the header is a positive `int`. -/
theorem payloads_inside_iff (beyond : Nat → UInt8) (nv : Nv) (reads : List ChannelRead) :
    ∀ x ∈ getPackets beyond nv reads, ∀ p, x.2.exposed = some p →
      (p <+: x.1.bytes.drop packetHeadSize ↔ x.1.sizeOfPacket < 2 ^ 31 - packetHeadSize) := by
  induction reads generalizing nv with
  | nil => exact nofun
  | cons r rs ih =>
    intro x hx p hp
    rcases mem_cons.1 hx with rfl | hx
    · exact exposed_inside_iff hp
    · exact ih _ x hx p hp

def sizedBytes (size : Nat) : List UInt8 :=
  toLe 4 magicNum ++ toLe 4 0 ++ toLe 4 0 ++ toLe 4 0 ++ toLe 4 size ++ List.replicate packetSize 0

theorem length_sizedBytes (size : Nat) :
    (sizedBytes size).length = packetHeadSize + packetSize := by
  simp only [sizedBytes, length_append, length_toLe, length_replicate, packetHeadSize]

def sizedRead (size : Nat) : ChannelRead := ⟨sizedBytes size, (length_sizedBytes size).le⟩

theorem one_byte_payload_inside :
    ∃ x ∈ getPackets (fun _ => 0) (@Nv.init arm32 []) [sizedRead 1],
      (x.2.exposed = some [0]) ∧ ([0] <+: x.1.bytes.drop packetHeadSize) := by
  refine ⟨_, mem_cons_self, ?_, ?_⟩
  · decide +kernel
  · exact (payloads_inside_iff (fun _ => 0) (@Nv.init arm32 []) [sizedRead 1] _ mem_cons_self
      [0] (by decide +kernel)).2 (by decide +kernel)

/-- A packet of 2 GiB is taken. -/
theorem huge_payload_taken :
    ∃ x ∈ getPackets (fun _ => 0) (@Nv.init arm32 []) [sizedRead (2 ^ 31 - 20)],
      x.2.exposed = some (payload x.1.bytes fun _ => 0) ∧
        (payload x.1.bytes fun _ => 0).length = 2 ^ 31 - 20 := by
  have hlen : (sizedBytes (2 ^ 31 - 20)).length = _ := length_sizedBytes _
  have hsize : word (sizedBytes (2 ^ 31 - 20)) 16 = 2 ^ 31 - 20 := by decide +kernel
  have hmagic : word (sizedBytes (2 ^ 31 - 20)) 0 = magicNum := by decide +kernel
  have hgrp : word (sizedBytes (2 ^ 31 - 20)) 8 = 0 := by decide +kernel
  have hsub : word (sizedBytes (2 ^ 31 - 20)) 12 = 0 := by decide +kernel
  refine ⟨_, mem_cons_self, ?_, (length_payload _ hlen).trans hsize⟩
  simp only [getPacket, sizedRead, hlen, hsize, hmagic, hgrp, hsub]
  rfl

end SprdVendor.NvItem
