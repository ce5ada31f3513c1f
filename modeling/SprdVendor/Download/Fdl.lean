import SprdVendor.Download.Image

namespace SprdVendor.Download
open Lib List Option

inductive FdlMessage where
  | start (size : Int) (address : UInt32)
  | data (packet : List UInt8)
  | stop
  | exec (address : UInt32)
deriving DecidableEq, Repr

def FdlMessage.payload : FdlMessage → List UInt8
  | .data packet => packet
  | _ => []

/-- What differs between the two programs: `FDL_PACKET_SIZE`, and whether an NV header in front of
the loader is skipped. -/
structure FdlProgram where
  packetSize : Nat
  skipsHeader : Bool

def downloadProgram : FdlProgram := ⟨1024, true⟩

def modemControlProgram : FdlProgram := ⟨256, false⟩

def loadLoop (short : Nat → Nat) : Nat → Nat → Transfer → Option (List UInt8)
  | 0, _, _ => none
  | fuel + 1, size, s =>
    match s.read short size with
    | (data, s) =>
      if data.length < size then (loadLoop short fuel (size - data.length) s).map (data ++ ·)
      else some data

/-- The memory that `load_fdl2memory` has allocated and filled, with four bytes to `spare`. A size
that is negative as an `int`, or overflows, has no result. -/
def loadFdl2memory (fuel : Nat) (p : FdlProgram) (short : Nat → Nat) (nvbuf spare file : List UInt8)
    (size : Int) : Option (List UInt8) :=
  let s : Transfer := ⟨file, 0, List.replicate testBufferSize 0, []⟩
  let s := if p.skipsHeader then ModemControl.skipHeader short nvbuf file s else s
  if 0 ≤ size ∧ size + 4 < 2 ^ 31 then
    (loadLoop short fuel size.toNat s).map (· ++ spare.take 4)
  else none

/-- The `while` loop of `download_fdl`, where `ack` tells which messages are acknowledged; a packet
from outside of the memory has no result. -/
def fdlLoop (packetSize : Nat) (ack : Nat → Bool) (memory : List UInt8) :
    Nat → Int → Nat → List FdlMessage → Option (Bool × List FdlMessage)
  | 0, _, _, _ => none
  | fuel + 1, size, offset, sent =>
    if size = 0 then some (true, sent)
    else if offset + packetSize ≤ memory.length then
      let packet := (memory.drop offset).take packetSize
      if ack sent.length then
        fdlLoop packetSize ack memory fuel (size - packetSize) (offset + packetSize)
          (sent ++ [.data packet])
      else some (false, sent ++ [.data packet])
    else none

def downloadFdl (fuel : Nat) (p : FdlProgram) (ack : Nat → Bool) (short : Nat → Nat)
    (nvbuf spare file : List UInt8) (info : ImageInfo) : Option (Bool × List FdlMessage) :=
  let size := info.imageSize.toBitVec.toInt
  (loadFdl2memory fuel p short nvbuf spare file size).bind fun memory =>
    let sent := [FdlMessage.start size info.address]
    if ack 0 then
      (fdlLoop p.packetSize ack memory fuel size 0 sent).map fun r =>
        if r.1 = false then r
        else if ack r.2.length then (ack (r.2.length + 1), r.2 ++ [.stop, .exec info.address])
        else (false, r.2 ++ [.stop])
    else some (false, sent)

def FdlProgram.loader (p : FdlProgram) (file : List UInt8) : List UInt8 :=
  if p.skipsHeader then ModemControl.imageOf file else file

theorem loadLoop_eq (short : Nat → Nat) (s : Transfer) (hlong : size ≤ s.rest.length)
    (hfuel : size < fuel) : loadLoop short fuel size s = some (s.rest.take size) := by
  induction fuel generalizing size s with
  | zero => exact absurd hfuel (Nat.not_lt_zero size)
  | succ fuel ih =>
    obtain ⟨data, hread, hdata, hle, hnil⟩ := s.read_cases short size
    rw [loadLoop, hread]
    dsimp only
    split
    · rename_i hlt
      have hpos : 0 < data.length := by
        by_contra hzero
        have hrest := hnil (length_eq_zero_iff.mp (by omega))
        rcases take_eq_nil_iff.mp hrest with h | h
        · omega
        · rw [h, length_nil] at hlong
          omega
      rw [ih _ (by rw [length_drop]; omega) (by omega), map_some]
      nth_rewrite 1 [hdata]
      rw [← take_add, Nat.add_sub_cancel' hle]
    · rename_i hge
      rw [hdata, le_antisymm hle (not_lt.mp hge)]

theorem fdlLoop_whole {n : Nat} (hn : 0 < n) (memory : List UInt8)
    (hlong : offset + q * n ≤ memory.length) (hfuel : q < fuel) (sent : List FdlMessage) :
    ∃ sent', fdlLoop n (fun _ => true) memory fuel (q * n : Nat) offset sent = some (true, sent') ∧
      sent'.flatMap FdlMessage.payload =
        sent.flatMap FdlMessage.payload ++ (memory.drop offset).take (q * n) := by
  induction q generalizing fuel offset sent with
  | zero =>
    obtain ⟨fuel, rfl⟩ := Nat.exists_eq_succ_of_ne_zero (Nat.ne_zero_of_lt hfuel)
    rw [fdlLoop, zero_mul, if_pos rfl, take_zero, append_nil]
    exact ⟨sent, rfl, rfl⟩
  | succ q ih =>
    obtain ⟨fuel, rfl⟩ := Nat.exists_eq_succ_of_ne_zero (Nat.ne_zero_of_lt hfuel)
    rw [Nat.succ_mul] at hlong ⊢
    have hstep : (((q * n + n : Nat) : Int) - n) = (q * n : Nat) := by omega
    have hlong' : offset + n + q * n ≤ memory.length := by omega
    obtain ⟨sent', hr, hp⟩ := ih hlong' (Nat.lt_of_succ_lt_succ hfuel)
      (sent ++ [.data ((memory.drop offset).take n)])
    refine ⟨sent', ?_, ?_⟩
    · rw [fdlLoop, if_neg (by omega), if_pos (by omega), if_pos rfl, hstep]
      exact hr
    · rw [hp, flatMap_append, append_assoc, add_comm (q * n), take_add, drop_drop]
      simp [FdlMessage.payload]

/-- A size that is no multiple of the packet size never comes down to zero, and the loop leaves the
memory. -/
theorem fdlLoop_none {n offset : Nat} {memory : List UInt8} (hsize : ¬ (n : Int) ∣ size)
    (hlen : (memory.length : Int) ≤ offset + size + 4) (sent : List FdlMessage) :
    fdlLoop n (fun _ => true) memory fuel size offset sent = none := by
  induction fuel generalizing size offset sent with
  | zero => rfl
  | succ fuel ih =>
    rw [fdlLoop, if_neg]
    · split
      · rw [if_pos rfl]
        refine ih (fun hd => hsize ?_) ?_ _
        · have := Int.dvd_add hd (Int.dvd_refl n)
          rwa [Int.sub_add_cancel] at this
        · push_cast
          omega
      · rfl
    · rintro rfl
      exact hsize (Int.dvd_zero _)

theorem length_loadLoop_le (h : loadLoop short fuel size s = some image) : image.length ≤ size := by
  induction fuel generalizing size s image with
  | zero => cases h
  | succ fuel ih =>
    obtain ⟨data, hread, -, hle, -⟩ := s.read_cases short size
    rw [loadLoop, hread] at h
    dsimp only at h
    split at h
    · obtain ⟨rest, hr, rfl⟩ := map_eq_some_iff.mp h
      have hrest := ih hr
      rw [length_append]
      omega
    · cases h
      exact hle

theorem loadFdl2memory_eq {p : FdlProgram} {info : ImageInfo} (nvbuf : List UInt8)
    (hspare : spare.length = 4) (hsize : info.imageSize.toNat + 4 < 2 ^ 31)
    (hhead : p.skipsHeader = true → ModemControl.HeaderRead short file)
    (hlong : info.imageSize.toNat ≤ (p.loader file).length) (hfuel : info.imageSize.toNat < fuel) :
    loadFdl2memory fuel p short nvbuf spare file info.imageSize.toNat =
      some ((p.loader file).take info.imageSize.toNat ++ spare) := by
  have hrest : (if p.skipsHeader then ModemControl.skipHeader short nvbuf file
      ⟨file, 0, List.replicate testBufferSize 0, []⟩
      else ⟨file, 0, List.replicate testBufferSize 0, []⟩).rest = p.loader file := by
    rw [FdlProgram.loader]
    split
    · rename_i hskip
      exact ((hhead hskip).skipHeader length_replicate nvbuf).rest
    · rfl
  simp only [loadFdl2memory]
  rw [if_pos (by omega), Int.toNat_natCast, loadLoop_eq short _ (hrest ▸ hlong) hfuel, hrest,
    map_some, take_of_length_le (le_of_eq hspare)]

theorem downloadFdl_none {p : FdlProgram} {info : ImageInfo} (nvbuf : List UInt8)
    (hsize : info.imageSize.toNat < 2 ^ 31) (hdvd : ¬ p.packetSize ∣ info.imageSize.toNat) :
    downloadFdl fuel p (fun _ => true) short nvbuf spare file info = none := by
  rw [eq_none_iff_forall_ne_some]
  intro r h
  obtain ⟨memory, hm, h⟩ := bind_eq_some_iff.mp h
  rw [imageSize_toInt hsize] at hm h
  have hlen : memory.length ≤ info.imageSize.toNat + 4 := by
    simp only [loadFdl2memory] at hm
    split at hm
    · obtain ⟨image, hi, rfl⟩ := map_eq_some_iff.mp hm
      have hle := length_loadLoop_le hi
      rw [length_append, length_take]
      omega
    · cases hm
  rw [if_pos rfl, fdlLoop_none (fun hd => hdvd (Int.natCast_dvd_natCast.mp hd)) (by omega)] at h
  cases h

/-- When the modem acknowledges everything, a loader that fits in its file is sent byte for byte
exactly when its declared size is a multiple of the packet size. -/
theorem fdl_sent_iff (p : FdlProgram) (short : Nat → Nat) (nvbuf spare file : List UInt8)
    (info : ImageInfo) (hp : p = downloadProgram ∨ p = modemControlProgram)
    (hspare : spare.length = 4) (hsize : info.imageSize.toNat + 4 < 2 ^ 31)
    (hhead : p.skipsHeader = true → ModemControl.HeaderRead short file)
    (hlong : info.imageSize.toNat ≤ (p.loader file).length) :
    (∃ fuel sent, downloadFdl fuel p (fun _ => true) short nvbuf spare file info =
        some (true, sent) ∧
      sent.flatMap FdlMessage.payload = (p.loader file).take info.imageSize.toNat) ↔
      p.packetSize ∣ info.imageSize.toNat := by
  constructor
  · rintro ⟨fuel, sent, h, -⟩
    by_contra hdvd
    rw [downloadFdl_none nvbuf (by omega) hdvd] at h
    cases h
  intro hdvd
  obtain ⟨q, hq⟩ := hdvd
  have hn : 0 < p.packetSize := by
    obtain rfl | rfl := hp <;> decide
  rw [Nat.mul_comm] at hq
  have hmem := loadFdl2memory_eq nvbuf hspare hsize hhead hlong (Nat.lt_succ_self _)
  have hle : q ≤ info.imageSize.toNat := hq ▸ Nat.le_mul_of_pos_right q hn
  have hlen : 0 + q * p.packetSize ≤
      ((p.loader file).take info.imageSize.toNat ++ spare).length := by
    rw [length_append, length_take]
    omega
  obtain ⟨sent, hsent, hpay⟩ := fdlLoop_whole hn _ hlen (Nat.lt_succ_of_le hle)
    [.start info.imageSize.toNat info.address]
  rw [← hq] at hsent hpay
  refine ⟨info.imageSize.toNat + 1, sent ++ [.stop, .exec info.address], ?_, ?_⟩
  · simp only [downloadFdl, imageSize_toInt (Nat.lt_of_add_right_lt hsize), hmem,
      bind_some, if_true]
    rw [hsent]
    rfl
  · rw [flatMap_append, hpay, drop_zero, take_append_of_le_length
      (by rw [length_take]; omega), take_take, Nat.min_self]
    simp [FdlMessage.payload]

/-- A loader of one packet. -/
theorem one_packet_sent : ∃ fuel sent, downloadFdl fuel modemControlProgram (fun _ => true)
    (fun _ => 99) [] [0, 0, 0, 0] (List.replicate 300 7) ⟨none, 256, 0⟩ = some (true, sent) ∧
      sent.flatMap FdlMessage.payload = (List.replicate 300 7).take 256 :=
  (fdl_sent_iff modemControlProgram (fun _ => 99) [] [0, 0, 0, 0] (List.replicate 300 7)
    ⟨none, 256, 0⟩ (.inr rfl) rfl (by decide) nofun (by decide +kernel)).mpr (by decide)

/-- A loader of three bytes: both programs read beyond its memory. -/
theorem odd_size_never_ends :
    (∀ fuel spare, downloadFdl fuel modemControlProgram (fun _ => true) (fun _ => 599) [] spare
      [1, 2, 3] ⟨none, 3, 0⟩ = none) ∧
    ∀ fuel spare, downloadFdl fuel downloadProgram (fun _ => true) (fun _ => 599) [] spare
      [1, 2, 3] ⟨none, 3, 0⟩ = none :=
  ⟨fun _ _ => downloadFdl_none [] (by decide) (by decide),
    fun _ _ => downloadFdl_none [] (by decide) (by decide)⟩

end SprdVendor.Download
