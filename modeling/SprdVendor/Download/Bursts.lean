import SprdVendor.Download.Packet
import SprdVendor.Lib.Crc

namespace SprdVendor.Download
open Lib List

def bitsOf (f : List UInt8) : List Bool := f.flatMap fun b => msbFirst b.toBitVec

def bigEndian (crc : UInt16) : List UInt8 := [(crc >>> 8).toUInt8, crc.toUInt8]

def CrcOk (f : List UInt8) : Prop := crc16LCalc f (.ofNat f.length) = some 0

instance (f : List UInt8) : Decidable (CrcOk f) :=
  inferInstanceAs (Decidable (crc16LCalc f (.ofNat f.length) = some 0))

theorem and_twoPow_ne_zero (x : BitVec w) (k : Nat) :
    x &&& BitVec.twoPow w k ≠ 0 ↔ x.getLsbD k = true := by
  rw [BitVec.and_twoPow]
  split
  · rename_i hk
    refine iff_of_true ?_ hk
    intro hz
    have hbit := congrArg (·.getLsbD k) hz
    simp [BitVec.lt_of_getLsbD hk] at hbit
  · rename_i hk
    simp [hk]

theorem toBitVec_crcBit (b : UInt8) (crc : UInt16) (k : Nat) :
    (crcBit b crc (.ofBitVec (.twoPow 8 k))).toBitVec =
      crcStep crc16Polynomial.toBitVec crc.toBitVec (b.toBitVec.getLsbD k) := by
  have hcrc : crc &&& 0x8000 ≠ 0 ↔ crc.toBitVec.msb = true := by
    rw [BitVec.msb_eq_getLsbD_last, ← and_twoPow_ne_zero, ne_eq, ← UInt16.toBitVec_inj]
    rfl
  have hb : b &&& .ofBitVec (.twoPow 8 k) ≠ 0 ↔ b.toBitVec.getLsbD k = true := by
    rw [← and_twoPow_ne_zero, ne_eq, ← UInt8.toBitVec_inj]
    rfl
  simp only [crcBit, crcStep, hcrc, hb]
  cases crc.toBitVec.msb <;> cases b.toBitVec.getLsbD k
  · rfl
  · rfl
  · rfl
  · show (crc.toBitVec <<< 1 ^^^ _) ^^^ _ = crc.toBitVec <<< 1
    rw [BitVec.xor_assoc, BitVec.xor_self, BitVec.xor_zero]

theorem toBitVec_crcByte (crc : UInt16) (b : UInt8) :
    (crcByte crc b).toBitVec =
      crcBits crc16Polynomial.toBitVec crc.toBitVec (msbFirst b.toBitVec) := by
  have hbits : msbFirst b.toBitVec = [7, 6, 5, 4, 3, 2, 1, 0].map b.toBitVec.getLsbD := rfl
  have hmasks : [0x80, 0x40, 0x20, 0x10, 0x08, 0x04, 0x02, 0x01] =
      [7, 6, 5, 4, 3, 2, 1, 0].map fun k => UInt8.ofBitVec (.twoPow 8 k) := by decide
  rw [crcByte, hmasks, hbits, crcBits, foldl_map, foldl_map]
  exact (foldl_hom _ fun crc k => (toBitVec_crcBit b crc k).symm).symm

theorem toBitVec_crcBytes (f : List UInt8) (crc : UInt16) :
    (f.foldl crcByte crc).toBitVec = crcBits crc16Polynomial.toBitVec crc.toBitVec (bitsOf f) := by
  induction f generalizing crc with
  | nil => rfl
  | cons b f ih =>
    rw [foldl_cons, ih, toBitVec_crcByte, ← crcBits_append]
    rfl

theorem crc16LCalc_eq {f : List UInt8} (h : f.length < 2 ^ 32) :
    crc16LCalc f (.ofNat f.length) = some (f.foldl crcByte 0) := by
  rw [crc16LCalc, UInt32.toNat_ofNat_of_lt' h, if_pos (le_refl _), take_length]

theorem crcOk_iff {f : List UInt8} (h : f.length < 2 ^ 32) :
    CrcOk f ↔ crcBits crc16Polynomial.toBitVec 0 (bitsOf f) = 0 := by
  rw [CrcOk, crc16LCalc_eq h, Option.some_inj, ← UInt16.toBitVec_inj, toBitVec_crcBytes]
  rfl

theorem bitsOf_bigEndian (crc : UInt16) : bitsOf (bigEndian crc) = msbFirst crc.toBitVec := by
  have hhigh (k : Nat) : (crc >>> 8).toUInt8.toBitVec.getLsbD k =
      (decide (k < 8) && crc.toBitVec.getLsbD (8 + k)) := by
    show ((crc.toBitVec >>> 8).setWidth 8).getLsbD k = _
    rw [BitVec.getLsbD_setWidth, BitVec.getLsbD_ushiftRight]
  have hlow (k : Nat) : crc.toUInt8.toBitVec.getLsbD k =
      (decide (k < 8) && crc.toBitVec.getLsbD k) := by
    show (crc.toBitVec.setWidth 8).getLsbD k = _
    rw [BitVec.getLsbD_setWidth]
  show [7, 6, 5, 4, 3, 2, 1, 0].map (crc >>> 8).toUInt8.toBitVec.getLsbD ++
    [7, 6, 5, 4, 3, 2, 1, 0].map crc.toUInt8.toBitVec.getLsbD =
    [15, 14, 13, 12, 11, 10, 9, 8, 7, 6, 5, 4, 3, 2, 1, 0].map crc.toBitVec.getLsbD
  simp only [map_cons, map_nil, hhigh, hlow]
  rfl

theorem bitsOf_inj {f f' : List UInt8} (hlen : f.length = f'.length) (h : bitsOf f = bitsOf f') :
    f = f' := by
  induction f generalizing f' with
  | nil => exact (length_eq_zero_iff.mp hlen.symm).symm
  | cons b f ih =>
    cases f' with
    | nil => cases hlen
    | cons b' f' =>
      have hbits (b : UInt8) : (msbFirst b.toBitVec).length = 8 := by
        rw [msbFirst, length_map, length_range]
      rw [bitsOf, bitsOf, flatMap_cons, flatMap_cons] at h
      obtain ⟨hb, hf⟩ := append_inj h (by rw [hbits, hbits])
      have hbyte : b = b' := by
        rw [← UInt8.toBitVec_inj]
        apply BitVec.eq_of_getMsbD_eq
        intro i hi
        have hi' := congrArg (·[i]?) hb
        simpa [msbFirst, hi] using hi'
      rw [hbyte, ih (Nat.succ.inj hlen) hf]

/-- A message with its own check sum behind it passes, and of two packets that differ in at most
sixteen consecutive bits at most one does. -/
theorem crc_detects_bursts :
    (∀ m : List UInt8, m.length + 2 < 2 ^ 32 →
      ∃ crc, crc16LCalc m (.ofNat m.length) = some crc ∧ CrcOk (m ++ bigEndian crc)) ∧
    ∀ f f' : List UInt8, f.length < 2 ^ 32 → f'.length = f.length → f ≠ f' →
      WithinBurst 16 (bitsOf f) (bitsOf f') → ¬ (CrcOk f ∧ CrcOk f') := by
  refine ⟨?_, ?_⟩
  · intro m hm
    refine ⟨_, crc16LCalc_eq (by omega), ?_⟩
    have hm0 : crcBits crc16Polynomial.toBitVec 0 (bitsOf m) = (m.foldl crcByte 0).toBitVec :=
      (toBitVec_crcBytes m 0).symm
    rw [crcOk_iff (by rw [length_append]; exact hm), bitsOf, flatMap_append, crcBits_append]
    show crcBits _ (crcBits _ 0 (bitsOf m)) (bitsOf (bigEndian _)) = 0
    rw [hm0, bitsOf_bigEndian]
    exact crcBits_msbFirst _ _
  · rintro f f' hf hlen hne hburst ⟨hok, hok'⟩
    rw [crcOk_iff hf] at hok
    rw [crcOk_iff (hlen ▸ hf)] at hok'
    apply hne
    apply bitsOf_inj hlen.symm
    exact eq_of_withinBurst (by decide) hburst (hok.trans hok'.symm)

/-- A word of zeroes, with its first and its last bit changed. -/
theorem crc_detects_changed_word :
    CrcOk ([0x61, 0x62] ++ bigEndian 0x74ff) ∧ ¬ (CrcOk [0, 0] ∧ CrcOk [0x80, 0x01]) := by
  obtain ⟨hown, hburst⟩ := crc_detects_bursts
  obtain ⟨crc, hcrc, hok⟩ := hown [0x61, 0x62] (by decide)
  refine ⟨?_, hburst _ _ (by decide) rfl (by decide) ?_⟩
  · have hcalc : crc16LCalc [0x61, 0x62] (.ofNat 2) = some 0x74ff := by decide +kernel
    obtain rfl : 0x74ff = crc := Option.some.inj (hcalc.symm.trans hcrc)
    exact hok
  · exact ⟨[], bitsOf [0, 0], bitsOf [0x80, 0x01], [], rfl, rfl, rfl, by decide⟩

end SprdVendor.Download
