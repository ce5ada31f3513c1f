import SprdVendor.Lib.Bytes

namespace SprdVendor.Download
open List hiding count
open Lib Option

variable {info : ImageInfo}

def lsPacketSize : Nat := 256
def hsPacketSize : Nat := 32 * 1024
def testBufferSize : Nat := hsPacketSize + 128
def nvHeadMagic : Nat := 0x4e56
def bslCmdMidstData : Nat := 2

structure ImageInfo where
  imagePath : Option String
  imageSize : UInt32
  address : UInt32

inductive Message where
  | start (size : Int) (address : UInt32)
  | data (packet : List UInt8)
  | stop
deriving DecidableEq, Repr

def Message.payload : Message → List UInt8
  | .data packet => packet.drop 8
  | _ => []

/-- Which messages the modem acknowledges; a data message is known by the number of messages before
it. -/
structure Channel where
  start : Bool
  data : Nat → Bool
  stop : Bool

/-- What `download_image` works on: the bytes of the file behind its position, the number of `read`
calls, `test_buffer` and the messages sent. -/
structure Transfer where
  rest : List UInt8
  reads : Nat
  testBuffer : List UInt8
  messages : List Message

def wordSum : List UInt8 → Nat
  | a :: b :: src => a.toNat + 256 * b.toNat + wordSum src
  | [a] => a.toNat
  | [] => 0

def bootChecksum (src : List UInt8) : Nat :=
  let sum := wordSum src % 2 ^ 32
  let sum := sum / 2 ^ 16 + sum % 2 ^ 16
  let sum := sum + sum / 2 ^ 16
  2 ^ 16 - 1 - sum % 2 ^ 16

def midstHeader (dataSize imageSize : Nat) : List UInt8 :=
  let size := if dataSize = 0 then 4 else imageSize % 2 ^ 16
  let head := toLe 2 size ++ toLe 2 (bslCmdMidstData ||| (imageSize &&& 0xff0000) >>> 8) ++ toLe 2 0
  head ++ toLe 2 (bootChecksum head)

namespace Transfer

def payloads (s : Transfer) : List UInt8 := s.messages.flatMap Message.payload

def say (m : Message) (s : Transfer) : Transfer := { s with messages := s.messages ++ [m] }

def fill (i : Nat) (d : List UInt8) (s : Transfer) : Transfer :=
  { s with testBuffer := patch s.testBuffer i d }

/-- A `read` of `n` bytes from the image. It may be short: the `k`-th one returns at most
`short k + 1` bytes. -/
def read (short : Nat → Nat) (n : Nat) (s : Transfer) : List UInt8 × Transfer :=
  let data := s.rest.take (min n (short s.reads + 1))
  (data, { s with rest := s.rest.drop data.length, reads := s.reads + 1 })

/-- The `do` loop that reads a packet to the place `buffer` of `test_buffer`; every round but the
last one reads a byte. -/
def readPacket (short : Nat → Nat) : Nat → Nat → Nat → Transfer → Transfer
  | 0, _, _, s => s
  | fuel + 1, buffer, packetSize, s =>
    match s.read short packetSize with
    | ([], s) => s
    | (data, s) =>
      let s := s.fill buffer data
      if data.length < packetSize then
        readPacket short fuel (buffer + data.length) (packetSize - data.length) s
      else s

/-- `send_data_message` with the flag 1 and a packet that is the whole image of that message. -/
def sendDataMessage (ch : Channel) (dataSize : Nat) (s : Transfer) : Bool × Transfer :=
  let s := s.fill 0 (midstHeader dataSize dataSize)
  (ch.data s.messages.length, s.say (.data (s.testBuffer.take (dataSize + 8))))

/-- The `for` loop over the packets. The padding of a last packet counts with the same `i`. -/
def sendLoop (ch : Channel) (short : Nat → Nat) (count transSize : Nat) :
    Nat → Nat → Nat → Transfer → Option (Bool × Transfer)
  | 0, _, _, _ => none
  | fuel + 1, i, imageSize, s =>
    if i < count then
      let s := s.readPacket short transSize 8 transSize
      if imageSize < transSize then
        let s := s.fill (imageSize + 8) (List.replicate (transSize - imageSize) 0xff)
        match s.sendDataMessage ch transSize with
        | (true, s) => sendLoop ch short count transSize fuel (transSize + 1) 0 s
        | (false, s) => some (false, s)
      else
        match s.sendDataMessage ch transSize with
        | (true, s) => sendLoop ch short count transSize fuel (i + 1) (imageSize - transSize) s
        | (false, s) => some (false, s)
    else some (true, s)

end Transfer

def transSize (info : ImageInfo) : Nat :=
  if info.imageSize.toNat < hsPacketSize then lsPacketSize else hsPacketSize

/-- The packets of an image, for the `int` variable `image_size`; its overflow has no result. -/
def packetCount (info : ImageInfo) : Option Int :=
  let imageSize := info.imageSize.toBitVec.toInt
  if imageSize + transSize info < 2 ^ 31 then
    some ((imageSize + transSize info - 1).tdiv (transSize info))
  else none

def sendPackets (fuel : Nat) (ch : Channel) (short : Nat → Nat) (info : ImageInfo) (count : Int)
    (s : Transfer) : Option (Bool × Transfer) :=
  match s.sendLoop ch short count.toNat (transSize info) fuel 0 info.imageSize.toBitVec.toInt.toNat
  with
  | none => none
  | some (false, s) => some (false, s)
  | some (true, s) => some (ch.stop, s.say .stop)

/-- `download_image` of the download program: whether it returns DL_SUCCESS. -/
def downloadImage (fuel : Nat) (ch : Channel) (short : Nat → Nat)
    (files : String → Option (List UInt8)) (info : ImageInfo) (testBuffer : List UInt8) :
    Option (Bool × Transfer) :=
  match info.imagePath.bind files with
  | none => some (true, ⟨[], 0, testBuffer, []⟩)
  | some file => (packetCount info).bind fun count =>
    sendPackets fuel ch short info count
      (Transfer.say (.start (count * transSize info) info.address) ⟨file, 0, testBuffer, []⟩)

namespace ModemControl

/-- The position in the image file behind the test for the NV header. `nvbuf` is a local array,
with what was there before. -/
def skipHeader (short : Nat → Nat) (nvbuf file : List UInt8) (s : Transfer) : Transfer :=
  match s.read short 512 with
  | (head, s) => if word (patch nvbuf 0 head) 0 = nvHeadMagic then s else { s with rest := file }

/-- `download_image` of the modem_control program, for a path other than /proc/cmdline. -/
def downloadImage (fuel : Nat) (ch : Channel) (short : Nat → Nat)
    (files : String → Option (List UInt8)) (info : ImageInfo) (testBuffer nvbuf : List UInt8) :
    Option (Bool × Transfer) :=
  match info.imagePath.bind files with
  | none => some (true, ⟨[], 0, testBuffer, []⟩)
  | some file => (packetCount info).bind fun count =>
    let s := skipHeader short nvbuf file ⟨file, 0, testBuffer, []⟩
    let s := s.say (.start (count * transSize info) info.address)
    if ch.start then sendPackets fuel ch short info count s else some (false, s)

end ModemControl

def padded (transSize size : Nat) (image : List UInt8) : List UInt8 :=
  let bytes := image.take size
  bytes ++ List.replicate ((size + transSize - 1) / transSize * transSize - bytes.length) 0xff

theorem length_midstHeader (dataSize imageSize : Nat) :
    (midstHeader dataSize imageSize).length = 8 := by
  simp [midstHeader, length_toLe]

namespace Transfer

variable {s t : Transfer} {ch : Channel}

@[simp] theorem fill_rest (i : Nat) (d : List UInt8) (s : Transfer) :
    (s.fill i d).rest = s.rest := rfl

@[simp] theorem fill_messages (i : Nat) (d : List UInt8) (s : Transfer) :
    (s.fill i d).messages = s.messages := rfl

@[simp] theorem fill_testBuffer (i : Nat) (d : List UInt8) (s : Transfer) :
    (s.fill i d).testBuffer = patch s.testBuffer i d := rfl

theorem payloads_say (m : Message) (s : Transfer) :
    (s.say m).payloads = s.payloads ++ m.payload := by
  simp [say, payloads]

theorem read_cases (short : Nat → Nat) (n : Nat) (s : Transfer) :
    ∃ data, s.read short n = (data, { s with rest := s.rest.drop data.length, reads := s.reads + 1 })
      ∧ data = s.rest.take data.length ∧ data.length ≤ n ∧ (data = [] → s.rest.take n = []) := by
  have hle := length_take_le (min n (short s.reads + 1)) s.rest
  refine ⟨_, rfl, ?_, by omega, ?_⟩
  · rw [length_take, ← take_eq_take_min]
  intro hnil
  rcases take_eq_nil_iff.1 hnil with hmin | hrest
  · obtain rfl : n = 0 := by omega
    rw [take_zero]
  · rw [hrest, take_nil]

theorem readPacket_spec {s : Transfer} (short : Nat → Nat) (hn : n ≤ fuel)
    (hfits : i + n ≤ s.testBuffer.length) :
    (s.readPacket short fuel i n).testBuffer = patch s.testBuffer i (s.rest.take n) ∧
      (s.readPacket short fuel i n).rest = s.rest.drop n ∧
      (s.readPacket short fuel i n).messages = s.messages := by
  induction fuel generalizing s i n with
  | zero =>
    obtain rfl : n = 0 := by omega
    simp [readPacket, patch_nil]
  | succ fuel ih =>
    obtain ⟨data, hread, hdata, hle, hnil⟩ := s.read_cases short n
    cases data with
    | nil =>
      have hrest : s.rest.drop n = s.rest := by
        rcases take_eq_nil_iff.1 (hnil rfl) with hn | hr
        · rw [hn, drop_zero]
        · rw [hr, drop_nil]
      simp [readPacket, hread, hnil rfl, patch_nil, hrest]
    | cons b data =>
      have hpos : 0 < (b :: data).length := Nat.succ_pos _
      simp only [readPacket, hread]
      generalize b :: data = d at *
      split
      case isTrue hlt =>
        have hin : i + d.length ≤ s.testBuffer.length := by omega
        have hlen : (patch s.testBuffer i d).length = s.testBuffer.length := length_patch _ _ hin
        obtain ⟨hbuf, hrest, hmsg⟩ := @ih (n - d.length) (i + d.length)
          (Transfer.fill i d { s with rest := s.rest.drop d.length, reads := s.reads + 1 })
          (by omega) (by rw [fill_testBuffer, hlen]; omega)
        have htake : s.rest.take n = d ++ (s.rest.drop d.length).take (n - d.length) := by
          have hadd : s.rest.take (d.length + (n - d.length)) = _ := take_add
          rwa [Nat.add_sub_cancel' hle, ← hdata] at hadd
        refine ⟨?_, ?_, hmsg⟩
        · rw [hbuf, htake, fill_testBuffer, fill_rest, patch_patch _ _ _ hin]
        · rw [hrest, fill_rest, drop_drop, Nat.add_sub_cancel' hle]
      case isFalse hge =>
        obtain rfl : d.length = n := by omega
        exact ⟨by rw [fill_testBuffer, ← hdata], rfl, rfl⟩

theorem sendDataMessage_payloads (ch : Channel) (n : Nat) (s : Transfer) :
    (s.sendDataMessage ch n).2.payloads = s.payloads ++ (s.testBuffer.drop 8).take n := by
  have hpacket : ((patch s.testBuffer 0 (midstHeader n n)).take (n + 8)).drop 8 =
      (s.testBuffer.drop 8).take n := by
    rw [patch_zero, drop_take, length_midstHeader, Nat.add_sub_cancel,
      drop_left' (length_midstHeader n n)]
  simp [sendDataMessage, payloads, say, fill_messages, fill_testBuffer, Message.payload, hpacket]

theorem sendDataMessage_rest (ch : Channel) (n : Nat) (s : Transfer) :
    (s.sendDataMessage ch n).2.rest = s.rest := rfl

theorem length_sendDataMessage (ch : Channel) (n : Nat)
    (hfits : 8 ≤ s.testBuffer.length) :
    (s.sendDataMessage ch n).2.testBuffer.length = s.testBuffer.length :=
  length_patch _ _ (by rwa [length_midstHeader])

structure Sent (image : List UInt8) (k : Nat) (s : Transfer) : Prop where
  rest : s.rest = image.drop k
  testBuffer : s.testBuffer.length = testBufferSize
  payloads : s.payloads = image.take k

theorem Sent.say (h : Sent image k s) (hm : m.payload = []) : Sent image k (s.say m) := by
  have hpay : (s.say m).payloads = image.take k := by
    rw [payloads_say, hm, append_nil, h.payloads]
  exact ⟨h.rest, h.testBuffer, hpay⟩

theorem Sent.readPacket (short : Nat → Nat) (h : Sent image k s) (hn : n + 8 ≤ testBufferSize) :
    (s.readPacket short n 8 n).testBuffer.length = testBufferSize ∧
      (s.readPacket short n 8 n).testBuffer.drop 8 =
        (image.drop k).take n ++ s.testBuffer.drop (8 + ((image.drop k).take n).length) ∧
      (s.readPacket short n 8 n).rest = image.drop (k + n) ∧
      (s.readPacket short n 8 n).payloads = image.take k := by
  have hlen := h.testBuffer
  have hle := length_take_le n (image.drop k)
  obtain ⟨hbuf, hrest, hmsg⟩ := readPacket_spec (s := s) short (le_refl n)
    (show 8 + n ≤ s.testBuffer.length by omega)
  rw [h.rest] at hbuf hrest
  refine ⟨?_, ?_, ?_, ?_⟩
  · rw [hbuf, length_patch _ _ (by omega), hlen]
  · rw [hbuf]
    have hdrop := drop_patch_add (i := 0) (k := 8) s.testBuffer ((image.drop k).take n) (by omega)
    rwa [zero_add, patch_zero, drop_drop] at hdrop
  · rw [hrest, drop_drop]
  · rw [Transfer.payloads, hmsg]
    exact h.payloads

theorem Sent.whole (ch : Channel) (short : Nat → Nat)
    (h : Sent image k s) (hn : n + 8 ≤ testBufferSize) (hk : k + n ≤ image.length) :
    Sent image (k + n) ((s.readPacket short n 8 n).sendDataMessage ch n).2 := by
  obtain ⟨hlen, hbuf, hrest, hpay⟩ := h.readPacket short hn
  have hgot : ((image.drop k).take n).length = n := by
    rw [length_take, length_drop]
    omega
  apply Sent.mk
  · rw [sendDataMessage_rest, hrest]
  · rw [length_sendDataMessage _ _ (by omega), hlen]
  · rw [sendDataMessage_payloads, hbuf, hpay, take_left' hgot, ← take_add]

/-- The last packet, of which `m` bytes belong to the image. The bytes the image does not have are
those that were in `test_buffer` before. -/
theorem Sent.last_packet (ch : Channel) (short : Nat → Nat)
    (h : Sent image k s) (hn : n + 8 ≤ testBufferSize) (hm : m ≤ n) :
    (((s.readPacket short n 8 n).fill (m + 8) (List.replicate (n - m) 0xff)).sendDataMessage
      ch n).2.payloads = image.take k ++
        (((image.drop k).take n ++ s.testBuffer.drop (8 + ((image.drop k).take n).length)).take m ++
          List.replicate (n - m) 0xff) := by
  obtain ⟨hlen, hbuf, -, hpay⟩ := h.readPacket short hn
  have hpad : (List.replicate (n - m) (0xff : UInt8)).length = n - m := length_replicate
  have hdrop : (patch (s.readPacket short n 8 n).testBuffer (m + 8)
      (List.replicate (n - m) 0xff)).drop 8 = _ := drop_patch_add _ _ (by omega)
  have hin : m ≤ ((s.readPacket short n 8 n).testBuffer.drop 8).length := by
    rw [length_drop]
    omega
  have hend := take_patch_end _ (List.replicate (n - m) (0xff : UInt8)) hin
  rw [hpad, Nat.add_sub_cancel' hm] at hend
  rw [sendDataMessage_payloads, fill_testBuffer, hdrop, hend, hbuf]
  exact congrArg (· ++ _) hpay

theorem Sent.last (ch : Channel) (short : Nat → Nat)
    (h : Sent image k s) (hn : n + 8 ≤ testBufferSize) (hm : m ≤ n) (hk : k + m ≤ image.length) :
    (((s.readPacket short n 8 n).fill (m + 8) (List.replicate (n - m) 0xff)).sendDataMessage
      ch n).2.payloads = image.take (k + m) ++ List.replicate (n - m) 0xff := by
  have hgot : m ≤ ((image.drop k).take n).length := by
    rw [length_take, length_drop]
    omega
  rw [h.last_packet ch short hn hm, take_append_of_le_length hgot, take_take,
    min_eq_left hm, ← append_assoc, ← take_add]

/-- Once the padding has set `i` to the packet size, the loop cannot reach its end from below. -/
theorem sendLoop_padding_ne (ch : Channel) (short : Nat → Nat) (hn : 0 < n)
    (hcount : n + 1 < count) : s.sendLoop ch short count n fuel (n + 1) 0 ≠ some (true, t) := by
  induction fuel generalizing s with
  | zero =>
    intro h
    cases h
  | succ fuel ih =>
    simp only [sendLoop, if_pos hcount, if_pos hn]
    split
    · exact ih
    · intro h
      cases h

theorem packets_bounds (size : Nat) (hn : 0 < n) :
    size ≤ (size + n - 1) / n * n ∧ (size + n - 1) / n * n < size + n := by
  have hle := Nat.div_mul_le_self (size + n - 1) n
  have hlt := Nat.lt_div_mul_add (a := size + n - 1) hn
  omega

theorem sendLoop_payloads (ch : Channel) (short : Nat → Nat)
    (hn : 0 < n) (hbuf : n + 8 ≤ testBufferSize) (hlong : size ≤ image.length)
    (hs : Sent image (i * n) s) (hm : i * n + m = size)
    (hrun : s.sendLoop ch short ((size + n - 1) / n) n fuel i m = some (true, t)) :
    t.payloads = padded n size image := by
  obtain ⟨hge, hlt⟩ := packets_bounds size hn
  have hbytes : (image.take size).length = size := length_take_of_le hlong
  induction fuel generalizing i m s with
  | zero => cases hrun
  | succ fuel ih =>
    by_cases hi : i < (size + n - 1) / n
    case neg =>
      have hmul : (size + n - 1) / n * n ≤ i * n := Nat.mul_le_mul_right n (Nat.le_of_not_lt hi)
      rw [sendLoop, if_neg hi] at hrun
      cases hrun
      have hin : i * n = size := by omega
      have hpad : (size + n - 1) / n * n - size = 0 := by omega
      rw [hs.payloads, padded, hbytes, hpad, hin, replicate_zero, append_nil]
    case pos =>
      have hmul : (i + 1) * n ≤ (size + n - 1) / n * n := Nat.mul_le_mul_right n hi
      rw [Nat.succ_mul] at hmul
      by_cases hlast : m < n
      case pos =>
        simp only [sendLoop, if_pos hi, if_pos hlast] at hrun
        -- the padding leaves the loop with the last packet, or for ever inside it
        split at hrun
        case h_2 => cases hrun
        case h_1 hsend =>
          have hpay := hs.last ch short hbuf hlast.le (by omega)
          rw [hsend] at hpay
          by_cases hout : n + 1 < (size + n - 1) / n
          case pos => exact absurd hrun (sendLoop_padding_ne ch short hn hout)
          case neg =>
            have hone : (size + n - 1) / n * n < (i + 2) * n := by
              rw [add_mul]
              omega
            have hcount : (size + n - 1) / n = i + 1 := by
              have := lt_of_mul_lt_mul_right hone
              omega
            have hpad : (size + n - 1) / n * n - size = n - m := by
              rw [hcount, Nat.succ_mul]
              omega
            cases fuel with
            | zero => cases hrun
            | succ fuel =>
              rw [sendLoop, if_neg hout] at hrun
              cases hrun
              rw [hpay, padded, hbytes, hpad, hm]
      case neg =>
        simp only [sendLoop, if_pos hi, if_neg hlast] at hrun
        split at hrun
        case h_2 => cases hrun
        case h_1 hsend =>
          have hnext := hs.whole ch short hbuf (by omega)
          rw [hsend, ← Nat.succ_mul] at hnext
          exact ih hnext (by rw [Nat.succ_mul]; omega) hrun

theorem sendLoop_ends (s : Transfer) (short : Nat → Nat)
    (hch : ∀ k, ch.data k = true) (hcount : count ≤ n + 1) (hfuel : count - i + 1 < fuel) :
    ∃ t, s.sendLoop ch short count n fuel i m = some (true, t) := by
  induction fuel generalizing i m s with
  | zero => omega
  | succ fuel ih =>
    by_cases hi : i < count
    case neg => exact ⟨s, by rw [sendLoop, if_neg hi]⟩
    case pos =>
      have hsend (u : Transfer) : u.sendDataMessage ch n = (true, (u.sendDataMessage ch n).2) :=
        Prod.ext (hch _) rfl
      by_cases hlast : m < n
      case pos =>
        simp only [sendLoop, if_pos hi, if_pos hlast]
        rw [hsend]
        exact ih _ (by omega)
      case neg =>
        simp only [sendLoop, if_pos hi, if_neg hlast]
        rw [hsend]
        exact ih _ (by omega)

end Transfer

theorem transSize_cases (info : ImageInfo) :
    0 < transSize info ∧ transSize info + 8 ≤ testBufferSize ∧ transSize info ≤ hsPacketSize := by
  unfold transSize
  split <;> decide

theorem imageSize_toInt (h : info.imageSize.toNat < 2 ^ 31) :
    info.imageSize.toBitVec.toInt = info.imageSize.toNat :=
  BitVec.toInt_eq_toNat_of_lt (by rw [UInt32.toNat_toBitVec]; omega)

theorem packetCount_eq (h : info.imageSize.toNat < 2 ^ 31)
    (hc : packetCount info = some count) :
    count.toNat = (info.imageSize.toNat + transSize info - 1) / transSize info := by
  have hpos := (transSize_cases info).1
  simp only [packetCount, imageSize_toInt h] at hc
  split at hc
  case isFalse => cases hc
  case isTrue =>
    cases hc
    have hsub : (info.imageSize.toNat : Int) + transSize info - 1 =
        ((info.imageSize.toNat + transSize info - 1 : Nat) : Int) := by omega
    rw [hsub, ← Int.ofNat_tdiv, Int.toNat_natCast]

theorem sendPackets_payloads
    (h : info.imageSize.toNat < 2 ^ 31) (hc : packetCount info = some count)
    (hlong : info.imageSize.toNat ≤ image.length) (hs : Transfer.Sent image 0 s)
    (hrun : sendPackets fuel ch short info count s = some (true, t)) :
    t.payloads = padded (transSize info) info.imageSize.toNat image := by
  obtain ⟨hpos, hbuf, -⟩ := transSize_cases info
  rw [sendPackets, packetCount_eq h hc, imageSize_toInt h, Int.toNat_natCast] at hrun
  split at hrun
  case h_1 => cases hrun
  case h_2 => cases hrun
  case h_3 u hloop =>
    have hpay := Transfer.sendLoop_payloads ch short hpos hbuf hlong
      (by rwa [zero_mul]) (by rw [zero_mul, zero_add]) hloop
    obtain ⟨-, rfl⟩ := Prod.mk.inj (Option.some.inj hrun)
    rw [Transfer.payloads_say, hpay]
    exact append_nil _

theorem packetCount_isSome (h : info.imageSize.toNat ≤ 2 ^ 30) :
    ∃ count, packetCount info = some count := by
  obtain ⟨-, -, hle⟩ := transSize_cases info
  have hhs : hsPacketSize = 32768 := rfl
  refine ⟨_, if_pos ?_⟩
  rw [imageSize_toInt (by omega)]
  omega

theorem sendPackets_ends (ch : Channel) (short : Nat → Nat) (s : Transfer)
    (h : info.imageSize.toNat ≤ 2 ^ 30) (hc : packetCount info = some count)
    (hdata : ∀ k, ch.data k = true) (hstop : ch.stop = true) :
    ∃ fuel t, sendPackets fuel ch short info count s = some (true, t) := by
  obtain ⟨hpos, -, -⟩ := transSize_cases info
  have hcount := packetCount_eq (by omega) hc
  have hsmall : (info.imageSize.toNat + transSize info - 1) / transSize info ≤
      transSize info + 1 := by
    apply Nat.le_of_lt_succ
    rw [Nat.div_lt_iff_lt_mul hpos]
    unfold transSize
    split
    case isTrue hls =>
      simp only [hsPacketSize, lsPacketSize] at hls ⊢
      omega
    case isFalse =>
      simp only [hsPacketSize]
      omega
  obtain ⟨t, ht⟩ := Transfer.sendLoop_ends s short hdata hsmall (i := 0)
    (m := info.imageSize.toNat) (Nat.lt_succ_self _)
  exact ⟨_, t.say .stop, by
    rw [sendPackets, hcount, imageSize_toInt (by omega), Int.toNat_natCast, ht, hstop]⟩

namespace ModemControl

def imageOf (file : List UInt8) : List UInt8 :=
  if word file 0 = nvHeadMagic then file.drop 512 else file

/-- The first `read` has the magic number in it, and the whole header if there is one. -/
structure HeaderRead (short : Nat → Nat) (file : List UInt8) : Prop where
  magic : 4 ≤ short 0 + 1 ∧ 4 ≤ file.length
  whole : word file 0 = nvHeadMagic → 512 ≤ short 0 + 1

theorem HeaderRead.skipHeader (h : HeaderRead short file)
    (hbuf : testBuffer.length = testBufferSize) (nvbuf : List UInt8) :
    Transfer.Sent (imageOf file) 0 (skipHeader short nvbuf file ⟨file, 0, testBuffer, []⟩) := by
  have hmagic := h.magic
  have hword : word (patch nvbuf 0 (file.take (min 512 (short 0 + 1)))) 0 = word file 0 := by
    rw [patch_zero, word_append _ _ (by rw [length_take]; omega)]
    simp only [word, drop_zero, take_take]
    congr 2
    omega
  simp only [ModemControl.skipHeader, Transfer.read, hword, imageOf]
  split
  case isTrue hnv =>
    have hwhole := h.whole hnv
    apply Transfer.Sent.mk
    · rw [min_eq_left hwhole, length_take, drop_zero]
      by_cases hlen : 512 ≤ file.length
      · rw [min_eq_left hlen]
      · rw [min_eq_right (by omega), drop_length, drop_eq_nil_of_le (by omega)]
    · exact hbuf
    · rfl
  case isFalse => exact ⟨rfl, hbuf, rfl⟩

end ModemControl

def acknowledging : Channel := ⟨true, fun _ => true, true⟩

def nvFile : List UInt8 := [0x56, 0x4e, 0, 0] ++ List.replicate 508 0 ++ [1, 2, 3]

def twoBytes : ImageInfo := ⟨some "image", 2, 0⟩

end SprdVendor.Download
