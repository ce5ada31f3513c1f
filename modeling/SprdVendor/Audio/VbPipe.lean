import SprdVendor.Lib.Bytes

namespace SprdVendor.Audio
open Lib

/-- What a `read` or a `write` on a pipe returns: a number of bytes, `EAGAIN` or `EINTR`, or another
error. -/
inductive Transfer where
  | bytes (n : Nat)
  | again
  | failed
deriving DecidableEq

/-- The loop of `read_nonblock` and `write_nonblock`; `move n` is what a call does that moves `n`
bytes. There is no result while it goes on. -/
def nonblock (move : Nat → σ → σ) (total : Nat) : List Transfer → Nat → σ → Option (Int × σ)
  | [], _, _ => none
  | .again :: rs, left, s => nonblock move total rs left s
  | .failed :: _, left, s => some (if left = total then -1 else total - left, s)
  | .bytes n :: rs, left, s =>
    let n := min n left
    if n = 0 then some (if left = total then 0 else total - left, s)
    else if n = left then some (total, move n s)
    else nonblock move total rs (left - n) (move n s)

/-- The buffer and the bytes to come; every call reads to the beginning of the buffer. -/
def readMove (n : Nat) (s : List UInt8 × Stream' UInt8) : List UInt8 × Stream' UInt8 :=
  (patch s.1 0 (s.2.take n), s.2.drop n)

/-- The bytes written so far; every call writes from the beginning of the buffer. -/
def writeMove (buf : List UInt8) (n : Nat) (out : List UInt8) : List UInt8 := out ++ buf.take n

/-- The structures that the `ReadParas` functions read. -/
inductive Paras where
  | head | openHal | deviceCtrl | modeGain | switchCtrl | setSamplerate | mute
deriving DecidableEq

def Paras.size : Paras → Nat
  | .head => 12
  | .deviceCtrl => 64
  | .modeGain => 52
  | .openHal | .switchCtrl | .setSamplerate | .mute => 4

/-- What the result is compared with: `ReadParas_OpenHal` takes the size of a `size_t`. -/
def Paras.expected : Paras → Nat
  | .openHal => 4
  | p => p.size

def complete (expected : Nat) (r : Int × σ) : Int × σ :=
  (if r.1 = (expected : Int) then r.1 else -1, r.2)

/-- A `ReadParas` function; `valid` if the descriptor is positive and the pointer is not null. -/
def readParas (p : Paras) (valid : Bool) (rs : List Transfer)
    (s : List UInt8 × Stream' UInt8) : Option (Int × List UInt8 × Stream' UInt8) :=
  if valid then (nonblock readMove p.size rs p.size s).map (complete p.expected)
  else some (if p = .head then -1 else 0, s)

def writeParasHead (valid : Bool) (head : List UInt8) (rs : List Transfer) (out : List UInt8) :
    Option (Int × List UInt8) :=
  if valid then (nonblock (writeMove head) 12 rs 12 out).map (complete 12)
  else some (0, out)

/-- No call moves only a part of a structure. -/
def Unsplit (size : Nat) (rs : List Transfer) : Prop := ∀ n, .bytes n ∈ rs → n = 0 ∨ size ≤ n

theorem nonblock_unsplit {move : Nat → σ → σ} (hsize : 0 < size) (hrs : Unsplit size rs)
    (h : nonblock move size rs size s = some ((size : Int), s')) : s' = move size s := by
  induction rs with
  | nil => cases h
  | cons r rs ih =>
    cases r with
    | again => exact ih (fun n hn => hrs n (.tail _ hn)) h
    | failed =>
      rw [nonblock, if_pos rfl] at h
      cases h
    | bytes n =>
      rw [nonblock] at h
      obtain rfl | hn := hrs n (.head _)
      · rw [zero_min, if_pos rfl, if_pos rfl] at h
        injection h with h
        have := congrArg Prod.fst h
        omega
      · rw [min_eq_right hn, if_neg (ne_of_gt hsize), if_pos rfl] at h
        cases h
        rfl

theorem moved_of_complete {move : Nat → σ → σ} (hsize : 0 < size) (hrs : Unsplit size rs)
    (h : (nonblock move size rs size s).map (complete expected) = some ((size : Int), s')) :
    s' = move size s := by
  obtain ⟨⟨ret, t⟩, hrun, he⟩ := Option.map_eq_some_iff.mp h
  obtain ⟨hret, rfl⟩ := Prod.mk.inj he
  split at hret
  · exact nonblock_unsplit hsize hrs (hrun.trans (by rw [← hret]))
  · omega

end SprdVendor.Audio
