import SprdVendor.NvItem.Saving

namespace SprdVendor.NvItem
open Lib List

def Part.EccOk (p : Part) : Prop :=
  p.fromChannel.chkNVBufEcc p.bytes = true ∧ p.backup.chkNVBufEcc p.bytes = true ∧
    p.toDisk.chkNVBufEcc p.bytes = true

/-- The bytes behind the last whole sector of the loaded image add nothing to its checksum. -/
def Boot.TailNeutral (b : Boot) : Prop :=
  calcChecksum (b.read.1.take (sectSize * (b.cfg.imageSize / sectSize))) = calcChecksum b.read.1

theorem Boot.tailNeutral_of_sectors {b : Boot} (h : b.cfg.imageSize % sectSize = 0) :
    b.TailNeutral := by
  have hlen : b.read.1.length = b.cfg.imageSize := length_ramDiskRead _ _ _ _
  rw [Boot.TailNeutral, Nat.mul_div_cancel' (Nat.dvd_of_mod_eq_zero h), ← hlen, take_length]

theorem Boot.sound_iff (b : Boot) :
    (initPart b.cfg (b.read.1 ++ b.spare)).Sound ↔ b.TailNeutral := by
  have hlen : b.read.1.length = b.cfg.imageSize := length_ramDiskRead _ _ _ _
  have hle : sectSize * (b.cfg.imageSize / sectSize) ≤ b.read.1.length := by
    rw [hlen]
    exact Nat.mul_div_le _ _
  let c := (initPart b.cfg (b.read.1 ++ b.spare)).fromChannel
  have hecc : c.chkNVBufEcc (sectSize * (b.cfg.imageSize / sectSize)) = true ↔ b.TailNeutral := by
    rw [BufCtrl.chkNVBufEcc_iff]
    change calcChecksum ((b.read.1 ++ b.spare).take (sectSize * (b.cfg.imageSize / sectSize))) =
      calcChecksum ((b.read.1 ++ b.spare).take b.cfg.imageSize) ↔ b.TailNeutral
    rw [take_append_of_le_length hle, take_left' hlen, Boot.TailNeutral]
  constructor
  · intro hs
    exact hecc.1 hs.fromChannel.ecc
  intro ht
  have hs : c.Sound (sectSize * (b.cfg.imageSize / sectSize)) := by
    refine ⟨?_, hecc.2 ht⟩
    change _ ≤ (b.read.1 ++ b.spare).length
    rw [length_append]
    omega
  exact ⟨hs, hs, hs⟩

theorem start_getElem [Target] {i : Nat} :
    (Sys.start boots).nv.ctl[i]? = some p ↔
      ∃ b : Boot, boots[i]? = some b ∧ initPart b.cfg (b.read.1 ++ b.spare) = p := by
  simp only [Sys.start, Nv.init, initPacket, initBuf, map_map, getElem?_map]
  exact Option.map_eq_some_iff

theorem start_marked [Target] {boots : List Boot} (hb : ∀ b ∈ boots, b.TailNeutral) :
    (Sys.start boots).nv.Marked := by
  refine ⟨rfl, ?_, nofun⟩
  intro i p hi
  obtain ⟨b, hbi, rfl⟩ := start_getElem.1 hi
  exact ⟨b.sound_iff.2 (hb b (mem_of_getElem? hbi)), fun hn => (hn rfl).elim⟩

theorem Sys.Moves.marked [Target] {s s' : Sys} (hm : s.Moves cali a s') (h : s.nv.Marked) :
    s'.nv.Marked := by
  have hsound (i : Nat) (p : Part) (hi : s.nv.ctl[i]? = some p) : p.Sound := (h.parts i p hi).sound
  cases hm with
  | read b beyond hp => exact (Sys.readStep_effect h hp).marked h
  | @turn w buf hp =>
    have he : s.Effect (.sync w) (s.turn buf) := Sys.turn_effect h hp
    exact he.marked h
  | saveNow => exact h
  | signal => exact h
  | saveHere p pc hp hn => exact h.saved (p.step_does hsound _ s.disk)
  | finish => exact ⟨rfl, h.parts, nofun⟩
  | wait => exact h
  | save p p' hs hn => exact h.saved (p.step_does hsound _ s.disk)
  | saved => exact h
  | wake => exact h

/-- Every check passes in every run exactly when the loaded images pass it: the first checksums
cover the configured size, the later ones whole sectors. -/
theorem checksums_hold_iff [Target] (boots : List Boot) :
    (∀ cali as s, Run (Next (Sys.step cali)) (Sys.start boots) as s →
        ∀ p ∈ s.nv.ctl, p.EccOk) ↔
      ∀ b ∈ boots, b.TailNeutral := by
  constructor
  · intro h b hb
    obtain ⟨i, hi⟩ := mem_iff_getElem?.1 hb
    have hp : (Sys.start boots).nv.ctl[i]? = some (initPart b.cfg (b.read.1 ++ b.spare)) :=
      start_getElem.2 ⟨b, hi, rfl⟩
    obtain ⟨hf, -, -⟩ := h true [] _ .nil _ (mem_of_getElem? hp)
    have hlen : sectSize * (b.cfg.imageSize / sectSize) ≤ (b.read.1 ++ b.spare).length := by
      rw [length_append, Boot.read, length_ramDiskRead]
      exact (Nat.mul_div_le _ _).trans (Nat.le_add_right _ _)
    exact b.sound_iff.1 ⟨⟨hlen, hf⟩, ⟨hlen, hf⟩, ⟨hlen, hf⟩⟩
  · intro hb cali as s hr p hp
    have hm : s.nv.Marked := by
      refine hr.invariant (I := fun _ s => s.nv.Marked) (start_marked hb) ?_
      intro _ _ s s' h hs
      exact (Sys.step_moves hs).marked h
    obtain ⟨i, hi⟩ := mem_iff_getElem?.1 hp
    have hs := (hm.parts i p hi).sound
    exact ⟨hs.fromChannel.ecc, hs.backup.ecc, hs.toDisk.ecc⟩

def oddBoot : Boot :=
  let file := some (stored (List.replicate 512 0 ++ [1]))
  ⟨⟨1, 513⟩, ⟨file, file⟩, .image, .noOpen, List.replicate 4 0⟩

/-- The first checksum of an image with a byte behind its last sector is wrong, so that no change
from the channel is taken. -/
theorem odd_image_fails_check :
    ∃ p ∈ (@Sys.start arm32 [oddBoot]).nv.ctl,
      p.fromChannel.chkNVBufEcc p.bytes = false ∧ p.writeData 0 [7] = some p := by
  refine ⟨_, mem_cons_self, ?_⟩
  decide +kernel

end SprdVendor.NvItem
