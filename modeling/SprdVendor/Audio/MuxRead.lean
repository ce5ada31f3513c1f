import SprdVendor.Audio.VbPipe

namespace SprdVendor.Audio

/-- What a round of `mux_read` meets: `select` fails, ends without a descriptor or reports another
one, or the descriptor is read. -/
inductive Polled where
  | selectError
  | timeout
  | notSet
  | read (r : Transfer)
deriving DecidableEq

/-- The bytes stored with their distance from the caller's buffer, `read_buffer` as such a distance,
`bytes`, and the bytes to come. -/
structure MuxBuffer where
  stores : List (Int × UInt8)
  pos : Int
  left : Nat
  pipe : Stream' UInt8

namespace MuxBuffer

def start (count : Nat) (pipe : Stream' UInt8) : MuxBuffer := ⟨[], 0, count, pipe⟩

def store (m : MuxBuffer) (n : Nat) : MuxBuffer :=
  ⟨m.stores ++ (m.pipe.take n).mapIdx fun i b => (m.pos + i, b), m.pos + n, m.left - n,
    m.pipe.drop n⟩

/-- A `read` that returns -1: as `unsigned int` it is positive, and adding it takes the pointer back
by one. -/
def countError (m : MuxBuffer) : MuxBuffer :=
  { m with pos := m.pos - 1, left := (m.left + 1) % 2 ^ 32 }

end MuxBuffer

/-- A round of the `while` loop of `mux_read`: it ends the call, or the loop goes on. -/
def muxReadRound (count : Nat) (m : MuxBuffer) : Polled → Except Int MuxBuffer
  | .selectError => .error (count - m.left)
  | .timeout => .error (-1)
  | .notSet => .ok m
  | .read (.bytes n) => if min n m.left = 0 then .error (-1) else .ok (m.store (min n m.left))
  | .read .again => .ok m.countError
  | .read .failed => .ok m.countError

def muxReadLoop (count : Nat) : List Polled → MuxBuffer → Option (Int × MuxBuffer)
  | [], m => if m.left = 0 then some (count, m) else none
  | e :: es, m =>
    if m.left = 0 then some (count, m)
    else
      match muxReadRound count m e with
      | .error ret => some (ret, m)
      | .ok m => muxReadLoop count es m

def muxRead (fd : Int) (count : Nat) (es : List Polled) (pipe : Stream' UInt8) :
    Option (Int × MuxBuffer) :=
  if fd < 0 then some (0, .start count pipe) else muxReadLoop count es (.start count pipe)

/-- No `read` returns -1. -/
def NoReadError (es : List Polled) : Prop := ∀ r, .read r ∈ es → ∃ n, r = .bytes n

/-- The first `k` bytes of the stream are at the beginning of the buffer, and nothing else. -/
def Holds (count : Nat) (pipe : Stream' UInt8) (k : Nat) (m : MuxBuffer) : Prop :=
  k + m.left = count ∧ m.pos = k ∧ m.pipe = pipe.drop k ∧
    m.stores = (pipe.take k).mapIdx fun i b => ((i : Int), b)

theorem Holds.store (h : Holds count pipe k m) (hn : n ≤ m.left) :
    Holds count pipe (k + n) (m.store n) := by
  obtain ⟨hcount, hpos, hpipe, hstores⟩ := h
  refine ⟨?_, ?_, ?_, ?_⟩
  · dsimp only [MuxBuffer.store]
    omega
  · rw [MuxBuffer.store, hpos, Nat.cast_add]
  · rw [MuxBuffer.store, hpipe, Stream'.drop_drop]
  dsimp only [MuxBuffer.store]
  rw [hstores, hpipe, hpos, Stream'.take_add, List.mapIdx_append, Stream'.length_take]
  congr 2
  funext i b
  rw [Nat.cast_add, Int.add_comm]

theorem Holds.round (h : Holds count pipe k m) (he : ∀ r, e = .read r → ∃ n, r = .bytes n)
    (hround : muxReadRound count m e = .ok m') : ∃ k, Holds count pipe k m' := by
  cases e with
  | notSet =>
    cases hround
    exact ⟨k, h⟩
  | read r =>
    obtain ⟨n, rfl⟩ := he r rfl
    rw [muxReadRound] at hround
    split at hround
    · cases hround
    · cases hround
      exact ⟨_, h.store (min_le_right _ _)⟩
  | _ => cases hround

theorem round_error_ne (hround : muxReadRound count m e = .error ret) (hleft : m.left ≠ 0) :
    ret ≠ count := by
  rw [muxReadRound.eq_def] at hround
  split at hround
  case h_4 =>
    split at hround
    · cases hround
      omega
    · cases hround
  all_goals cases hround <;> omega

theorem Holds.loop (h : Holds count pipe k m) (hes : NoReadError es)
    (hloop : muxReadLoop count es m = some (ret, m')) :
    ∃ k, Holds count pipe k m' ∧ (ret = count → k = count) := by
  have hdone (hleft : m.left = 0) : k = count := by
    have := h.1
    omega
  induction es generalizing k m with
  | nil =>
    rw [muxReadLoop] at hloop
    split at hloop
    · rename_i hleft
      cases hloop
      exact ⟨k, h, fun _ => hdone hleft⟩
    · cases hloop
  | cons e es ih =>
    rw [muxReadLoop] at hloop
    split at hloop
    · rename_i hleft
      cases hloop
      exact ⟨k, h, fun _ => hdone hleft⟩
    rename_i hleft
    split at hloop
    · rename_i hround
      cases hloop
      exact ⟨k, h, fun hret => absurd hret (round_error_ne hround hleft)⟩
    rename_i hround
    obtain ⟨k', h'⟩ := h.round (fun r hr => hes r (hr ▸ .head _)) hround
    refine ih h' (fun r hr => hes r (.tail _ hr)) hloop fun hleft => ?_
    have := h'.1
    omega

/-- The end of the stream ends the call. -/
theorem muxReadLoop_ends (count : Nat) (m : MuxBuffer) (h : .read (.bytes 0) ∈ es) :
    ∃ r, muxReadLoop count es m = some r := by
  induction es generalizing m with
  | nil => cases h
  | cons e es ih =>
    rw [muxReadLoop]
    split
    · exact ⟨_, rfl⟩
    cases h with
    | head =>
      rw [muxReadRound, zero_min, if_pos rfl]
      exact ⟨_, rfl⟩
    | tail _ h =>
      cases muxReadRound count m e with
      | error ret => exact ⟨_, rfl⟩
      | ok m' => exact ih m' h

theorem muxRead_holds (hes : NoReadError es) (h : muxRead fd count es pipe = some (ret, m)) :
    ∃ k, Holds count pipe k m ∧ (ret = count → k = count) := by
  have hstart : Holds count pipe 0 (.start count pipe) := ⟨zero_add _, rfl, rfl, rfl⟩
  rw [muxRead] at h
  split at h
  · cases h
    exact ⟨0, hstart, fun hret => by omega⟩
  · exact hstart.loop hes h

end SprdVendor.Audio
