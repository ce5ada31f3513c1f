import SprdVendor.Download.Bursts
import SprdVendor.Download.Image

namespace SprdVendor.Download
open Lib List Option

def uartBufferSize : Nat := 1500
def sendBufferSize : Nat := 4000

/-- The packet that `setup_packet` makes of the data for the UART, without the four bytes that
`uart_buffer` has in front of it; there is no result when it leaves that buffer. -/
def uartPacket (data : List UInt8) : Option (List UInt8) :=
  let head := bigEndian (.ofNat bslCmdMidstData) ++ bigEndian (.ofNat data.length) ++ data
  if data.length + 10 ≤ uartBufferSize then
    (crc16LCalc head (.ofNat head.length)).map fun crc => head ++ bigEndian crc
  else none

/-- The rounds of the `for` loop of `send_data_message`: what is left in `buffer` is written where
the file ends too early. -/
def imageBlocks (dataSize : Nat) : Nat → List UInt8 → List UInt8 → List (List UInt8)
  | 0, _, _ => []
  | n + 1, buffer, file =>
    let buffer := patch buffer 0 (file.take dataSize)
    buffer.take dataSize :: imageBlocks dataSize n buffer (file.drop dataSize)

/-- A call of `send_data_message` with the flag 0, and one with the flag 1, `image_size` and what is
to be read from `image_fd`. -/
inductive DataMessage where
  | uart (data : List UInt8)
  | spi (data : List UInt8) (imageSize : Nat) (file : List UInt8)
deriving DecidableEq, Repr

def DataMessage.blocks : DataMessage → Option (List (List UInt8))
  | .uart data => (uartPacket data).bind fun p =>
    (translatePacket sendBufferSize p).map fun frame => [frame.toList]
  | .spi data imageSize file =>
    if data = [] then none
    else
      let packet := midstHeader data.length imageSize ++ data
      some (packet :: imageBlocks data.length (imageSize / data.length - 1) packet file)

/-- The `do` loop for the UART with the answers of the driver, each the number of bytes that it
would accept; 0 stands for an error, too. Every round writes from the start of `send_buffer`. -/
def uartLoop (frame : List UInt8) : Nat → List Nat → Option (List UInt8)
  | _, [] => none
  | size, k :: ks =>
    let accepted := min k size
    if accepted < size then
      (uartLoop frame (size - accepted) ks).map (frame.take accepted ++ ·)
    else some (frame.take accepted)

def writeBlocks : List (List UInt8) → List Nat → Option (List UInt8)
  | [], _ => some []
  | _ :: _, [] => none
  | b :: bs, k :: ks => (writeBlocks bs ks).map (b.take k ++ ·)

def DataMessage.delivered (m : DataMessage) (answers : List Nat) : Option (List UInt8) :=
  m.blocks.bind fun bs =>
    match m, bs with
    | .uart _, [frame] => uartLoop frame frame.length answers
    | _, bs => writeBlocks bs answers

/-- The driver takes a frame at once, or first all of it but its closing flag; an SPI packet and
each part of an image it takes at once. -/
def DataMessage.TakenWhole (bs : List (List UInt8)) (answers : List Nat) : DataMessage → Prop
  | .uart _ => ∃ k ks, answers.dropWhile (· = 0) = k :: ks ∧
      (bs.flatten.length ≤ k ∨ k + 1 = bs.flatten.length ∧ ∃ a ∈ ks, 0 < a)
  | .spi .. => ∃ taken rest, answers = taken ++ rest ∧ List.Forall₂ (·.length ≤ ·) bs taken

theorem uartLoop_head {frame : List UInt8} (h : uartLoop (b :: frame) (size + 1) ks = some s) :
    ∃ t, s = b :: t := by
  induction ks generalizing s with
  | nil => cases h
  | cons k ks ih =>
    rw [uartLoop] at h
    cases k with
    | zero =>
      simp only [Nat.zero_min, Nat.zero_lt_succ, if_true, Nat.sub_zero, take_zero] at h
      obtain ⟨s', hs, rfl⟩ := map_eq_some_iff.mp h
      exact ih hs
    | succ k =>
      simp only [Nat.succ_min_succ, take_succ_cons] at h
      split at h
      · obtain ⟨s', -, rfl⟩ := map_eq_some_iff.mp h
        exact ⟨_, rfl⟩
      · cases h
        exact ⟨_, rfl⟩

theorem uartLoop_one (frame : List UInt8) (ks : List Nat) :
    uartLoop (b :: frame) 1 ks = some [b] ↔ ∃ a ∈ ks, 0 < a := by
  induction ks with
  | nil => simp [uartLoop]
  | cons k ks ih =>
    rw [uartLoop]
    cases k with
    | zero => simpa using ih
    | succ k => simp

theorem uartLoop_zeros (frame : List UInt8) (hsize : 0 < size) (ks : List Nat) :
    uartLoop frame size ks = uartLoop frame size (ks.dropWhile (· = 0)) := by
  induction ks with
  | nil => rfl
  | cons k ks ih =>
    cases k with
    | zero =>
      rw [uartLoop, Nat.zero_min, if_pos hsize, Nat.sub_zero, take_zero, ih]
      simp
    | succ k => simp

/-- A frame with its flag at its two ends only is delivered in one piece, or its closing flag comes
as the first byte of a second one. -/
theorem uartLoop_eq_iff {body : List UInt8} (hb : b ∉ body) (ks : List Nat) :
    uartLoop (b :: body ++ [b]) (body.length + 2) ks = some (b :: body ++ [b]) ↔
      ∃ k ks', ks.dropWhile (· = 0) = k :: ks' ∧
        (body.length + 2 ≤ k ∨ k + 1 = body.length + 2 ∧ ∃ a ∈ ks', 0 < a) := by
  have hlen : (b :: body ++ [b]).length = body.length + 2 := by simp
  rw [uartLoop_zeros _ (Nat.succ_pos _)]
  cases hks : ks.dropWhile (· = 0) with
  | nil => simp [uartLoop]
  | cons k ks' =>
    have hk : k ≠ 0 := by
      have := head?_dropWhile_not (· = 0) ks
      rw [hks] at this
      simpa using this
    simp only [List.cons.injEq, existsAndEq, and_true, true_and]
    rw [uartLoop]
    by_cases hfull : body.length + 2 ≤ k
    · rw [Nat.min_eq_right hfull, if_neg (Nat.lt_irrefl _), ← hlen, take_length]
      exact iff_of_true rfl (.inl (hlen ▸ hfull))
    obtain ⟨j, rfl⟩ := Nat.exists_eq_succ_of_ne_zero hk
    rw [Nat.min_eq_left (by omega), if_pos (by omega)]
    have hrest : (uartLoop (b :: body ++ [b]) (body.length + 2 - (j + 1)) ks').map
        ((b :: body ++ [b]).take (j + 1) ++ ·) = some (b :: body ++ [b]) ↔
        uartLoop (b :: body ++ [b]) (body.length + 2 - (j + 1)) ks' =
          some ((body ++ [b]).drop j) := by
      rw [map_eq_some_iff]
      constructor
      · rintro ⟨s, hs, he⟩
        have hdrop := he.trans (take_append_drop (j + 1) (b :: body ++ [b])).symm
        rw [hs, append_cancel_left hdrop]
        rfl
      · intro hs
        exact ⟨_, hs, take_append_drop (j + 1) (b :: body ++ [b])⟩
    rw [hrest]
    by_cases hj : j = body.length
    · subst hj
      rw [show body.length + 2 - (body.length + 1) = 1 by omega, drop_left, cons_append,
        uartLoop_one]
      simp
    refine iff_of_false ?_ (by omega)
    intro hs
    obtain ⟨n, hn⟩ : ∃ n, body.length + 2 - (j + 1) = n + 1 := ⟨body.length - j, by omega⟩
    rw [hn] at hs
    obtain ⟨t, ht⟩ := uartLoop_head hs
    have hhead : (body ++ [b])[j]? = some b := by
      rw [← head?_drop, ht, head?_cons]
    rw [getElem?_append_left (by omega)] at hhead
    exact hb (mem_of_getElem? hhead)

theorem uart_blocks (h : (DataMessage.uart data).blocks = some bs) :
    ∃ body, 0x7e ∉ body ∧ bs = [0x7e :: body ++ [0x7e]] := by
  obtain ⟨p, -, h⟩ := bind_eq_some_iff.mp h
  obtain ⟨frame, hf, rfl⟩ := map_eq_some_iff.mp h
  rw [translatePacket_eq] at hf
  have hlist := Bounded.toList_of_pushAll hf
  rw [Bounded.empty_toList, nil_append] at hlist
  exact ⟨hdlc.stuff p, hdlc.flag_notMem_stuff p, by rw [hlist]⟩

theorem length_writeBlocks_le (h : writeBlocks bs ks = some s) : s.length ≤ bs.flatten.length := by
  induction bs generalizing ks s with
  | nil =>
    cases h
    exact le_refl _
  | cons b bs ih =>
    cases ks with
    | nil => cases h
    | cons k ks =>
      obtain ⟨t, ht, rfl⟩ := map_eq_some_iff.mp h
      rw [flatten_cons, length_append, length_append, length_take]
      exact add_le_add (min_le_right _ _) (ih ht)

theorem writeBlocks_eq_iff (bs : List (List UInt8)) (ks : List Nat) :
    writeBlocks bs ks = some bs.flatten ↔
      ∃ taken rest, ks = taken ++ rest ∧ List.Forall₂ (·.length ≤ ·) bs taken := by
  induction bs generalizing ks with
  | nil => exact iff_of_true rfl ⟨[], ks, rfl, .nil⟩
  | cons b bs ih =>
    cases ks with
    | nil =>
      refine iff_of_false (by intro h; cases h) ?_
      rintro ⟨taken, rest, he, ht⟩
      obtain ⟨k, ks, -, -, rfl⟩ := forall₂_cons_left_iff.mp ht
      cases he
    | cons k ks =>
      rw [writeBlocks, map_eq_some_iff]
      constructor
      · rintro ⟨s, hs, he⟩
        have hlen := length_writeBlocks_le hs
        have hsum := congrArg List.length he
        rw [flatten_cons, length_append, length_append, length_take] at hsum
        have hk : b.length ≤ k := by omega
        rw [take_of_length_le hk, flatten_cons] at he
        rw [append_cancel_left he] at hs
        obtain ⟨taken, rest, rfl, ht⟩ := (ih ks).mp hs
        exact ⟨k :: taken, rest, rfl, .cons hk ht⟩
      · rintro ⟨taken, rest, he, ht⟩
        obtain ⟨k', taken', hk, ht', rfl⟩ := forall₂_cons_left_iff.mp ht
        cases he
        refine ⟨_, (ih _).mpr ⟨taken', rest, rfl, ht'⟩, ?_⟩
        rw [take_of_length_le hk, flatten_cons]

/-- A message that fits its buffers is delivered byte for byte exactly when the driver takes it
whole. -/
theorem delivered_iff_taken_whole (m : DataMessage) (answers : List Nat)
    (hbs : m.blocks = some bs) :
    m.delivered answers = some bs.flatten ↔ m.TakenWhole bs answers := by
  rw [DataMessage.delivered, hbs, bind_some]
  cases m with
  | uart data =>
    obtain ⟨body, hbody, rfl⟩ := uart_blocks hbs
    have hflat : [0x7e :: body ++ [0x7e]].flatten = 0x7e :: body ++ [0x7e] := by simp
    have hlen : (0x7e :: body ++ [0x7e]).length = body.length + 2 := by simp
    rw [DataMessage.TakenWhole, hflat, hlen, ← uartLoop_eq_iff hbody answers, ← hlen]
  | spi data imageSize file => exact writeBlocks_eq_iff bs answers

def oneByte : DataMessage := .uart [1]

def oneByteFrame : List UInt8 := [0x7e, 0x00, 0x02, 0x00, 0x01, 0x01, 0xce, 0x78, 0x7e]

/-- After an error the driver takes the whole frame but its closing flag, and then that. -/
theorem delivered_in_two_writes : oneByte.delivered [0, 8, 1] = some [oneByteFrame].flatten :=
  (delivered_iff_taken_whole oneByte [0, 8, 1] (by decide +kernel)).mpr
    ⟨8, [1], rfl, .inr ⟨rfl, 1, mem_singleton_self 1, one_pos⟩⟩

/-- A short write is followed by the beginning of the frame again, and an SPI packet loses what a
short write leaves of it. -/
theorem short_write_spoils_stream : oneByte.blocks = some [oneByteFrame] ∧
    oneByte.delivered [4, 5] = some [0x7e, 0x00, 0x02, 0x00, 0x7e, 0x00, 0x02, 0x00, 0x01] ∧
    ∃ packet, (DataMessage.spi [1, 2] 2 []).blocks = some [packet] ∧
      (DataMessage.spi [1, 2] 2 []).delivered [9] = some packet.dropLast :=
  ⟨by decide +kernel, by decide +kernel, midstHeader 2 2 ++ [1, 2], rfl, by decide +kernel⟩

end SprdVendor.Download
