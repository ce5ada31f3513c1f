import SprdVendor.Lib.Run
import SprdVendor.SlogModem.LogFile

namespace SprdVendor.SlogModem
open Lib List Option

structure LogBytes where
  disk : List UInt8
  buffer : List UInt8
  size : Nat
  opened : Bool
deriving DecidableEq, Repr

/-- The loop of `write_data`: the bytes it got into the file and the value it returns. The kernel
never writes more than it was given. -/
def writeBytes (total : Nat) : List Int → List UInt8 → Option (List UInt8 × Int)
  | _, [] => some ([], total)
  | [], _ :: _ => none
  | n :: results, b :: data =>
    if n < 0 then some ([], n)
    else if data.length + 1 < n.toNat then none
    else
      (writeBytes total results ((b :: data).drop n.toNat)).map fun r =>
        ((b :: data).take n.toNat ++ r.1, r.2)

namespace LogBytes

def new : LogBytes := ⟨[], [], 0, true⟩

def writeData (c : LogBytes) (results : List Int) (data : List UInt8) : Option (LogBytes × Int) :=
  (writeBytes data.length results data).map fun r => ({ c with disk := c.disk ++ r.1 }, r.2)

def write (c : LogBytes) (data : List UInt8) (k : Kernel) : Option (LogBytes × Int) :=
  if c.opened = false then some (c, -1)
  else if data.length + c.buffer.length < fileIoBufSize then
    some ({ c with buffer := c.buffer ++ data, size := c.size + data.length }, data.length)
  else if c.buffer.length ≠ 0 then
    k.results.head?.bind fun n =>
      if c.buffer.length + data.length < n.toNat then none
      else if (c.buffer.length : Int) ≤ n then
        let m := n.toNat - c.buffer.length
        some ({ c with
          disk := c.disk ++ c.buffer ++ data.take m, buffer := [], size := c.size + m }, m)
      else if 0 < n then
        -- the rest of the buffer moves to its front
        some ({ c with
          disk := c.disk ++ c.buffer.take n.toNat, buffer := c.buffer.drop n.toNat }, 0)
      else some (c, k.failed n)
  else
    (c.writeData k.results data).map fun r =>
      if 0 < r.2 then ({ r.1 with size := c.size + r.2.toNat }, r.2) else (r.1, k.failed r.2)

def flush (c : LogBytes) (results : List Int) : Option LogBytes :=
  if c.opened = false then some c
  else (c.writeData results c.buffer).map fun r => { r.1 with buffer := [] }

def close (c : LogBytes) (results : List Int) : Option LogBytes :=
  if c.opened = false then some c
  else if c.buffer = [] then some { c with opened := false }
  else (c.writeData results c.buffer).map fun r => { r.1 with opened := false, buffer := [] }

end LogBytes

structure Logged where
  bytes : LogBytes
  accepted : List UInt8
deriving DecidableEq, Repr

inductive FileOp where
  | write (data : List UInt8) (k : Kernel)
  | flush (results : List Int)
  | close (results : List Int)

namespace Logged

def next (s : Logged) : FileOp → Option Logged
  | .write data k => (s.bytes.write data k).map fun r => ⟨r.1, s.accepted ++ data.take r.2.toNat⟩
  | .flush results => (s.bytes.flush results).map fun c => ⟨c, s.accepted⟩
  | .close results => (s.bytes.close results).map fun c => ⟨c, s.accepted⟩

/-- Every byte that was accepted is in the file or in the buffer, and nothing else is. -/
structure Kept (s : Logged) : Prop where
  bytes : s.bytes.disk ++ s.bytes.buffer = s.accepted
  size : s.bytes.size = s.accepted.length

/-- `write_data` does not stop half way: what was buffered is written to the end, and a direct write
fails before its first byte or not at all. -/
def Whole (s : Logged) : FileOp → Prop
  | .write data k => s.bytes.buffer = [] →
      ∀ r ∈ writeBytes data.length k.results data, r.2 < 0 → r.1 = []
  | .flush results => ∀ r ∈ writeBytes s.bytes.buffer.length results s.bytes.buffer, 0 ≤ r.2
  | .close results => ∀ r ∈ writeBytes s.bytes.buffer.length results s.bytes.buffer, 0 ≤ r.2

end Logged

/-! ### One call -/

/-- What `write_data` writes is the front of the data, and all of it where it does not fail. -/
theorem writeBytes_spec (h : writeBytes total results data = some (w, n)) :
    w <+: data ∧ (0 ≤ n → w = data ∧ n = total) := by
  induction results generalizing data w with
  | nil =>
    cases data with
    | nil =>
      cases h
      exact ⟨prefix_rfl, fun _ => ⟨rfl, rfl⟩⟩
    | cons b data => cases h
  | cons m results ih =>
    cases data with
    | nil =>
      cases h
      exact ⟨prefix_rfl, fun _ => ⟨rfl, rfl⟩⟩
    | cons b data =>
      rw [writeBytes] at h
      split at h
      case isTrue hneg =>
        cases h
        exact ⟨List.nil_prefix, fun hn => absurd hneg (not_lt.mpr hn)⟩
      · split at h
        · cases h
        obtain ⟨⟨v, n'⟩, hrest, hr⟩ := map_eq_some_iff.mp h
        cases hr
        obtain ⟨⟨t, ht⟩, hall⟩ := ih hrest
        refine ⟨⟨t, ?_⟩, ?_⟩
        · rw [append_assoc, ht, take_append_drop]
        · intro hn
          obtain ⟨rfl, htotal⟩ := hall hn
          exact ⟨take_append_drop _ _, htotal⟩

theorem failed_toNat (k : Kernel) (h : n ≤ 0) : (k.failed n).toNat = 0 := by
  rw [Kernel.failed]
  split
  · rfl
  · exact Int.toNat_eq_zero.mpr h

/-- What a call to `write` adds to the file and the buffer together, and to the size, is what it
reports as accepted. -/
def Added (c : LogBytes) (data : List UInt8) (c' : LogBytes) (n : Int) : Prop :=
  c'.disk ++ c'.buffer = c.disk ++ c.buffer ++ data.take n.toNat ∧ c'.size = c.size + n.toNat ∧
    n.toNat ≤ data.length

theorem added_none (data : List UInt8) (h : n.toNat = 0) : Added c data c n := by
  rw [Added, h]
  exact ⟨(append_nil _).symm, rfl, Nat.zero_le _⟩

theorem added_vector (hle : m ≤ c.buffer.length + data.length) (hbuf : c.buffer.length ≤ m) :
    Added c data { c with
      disk := c.disk ++ c.buffer ++ data.take (m - c.buffer.length), buffer := [],
      size := c.size + (m - c.buffer.length) } ((m - c.buffer.length : Nat) : Int) := by
  rw [Added, Int.toNat_natCast]
  exact ⟨append_nil _, rfl, by omega⟩

theorem added_moved (c : LogBytes) (data : List UInt8) (m : Nat) :
    Added c data { c with disk := c.disk ++ c.buffer.take m, buffer := c.buffer.drop m } 0 := by
  refine ⟨?_, rfl, Nat.zero_le _⟩
  rw [append_assoc, take_append_drop, Int.toNat_zero, take_zero, append_nil]

theorem added_direct (hbuf : c.buffer = [])
    (hw : writeBytes data.length results data = some (w, n)) (hfail : n < 0 → w = []) (k : Kernel) :
    Added c data (if 0 < n then { c with disk := c.disk ++ w, size := c.size + n.toNat }
        else { c with disk := c.disk ++ w }) (if 0 < n then n else k.failed n) := by
  obtain ⟨-, hdone⟩ := writeBytes_spec hw
  by_cases hpos : 0 < n
  · obtain ⟨rfl, rfl⟩ := hdone hpos.le
    rw [if_pos hpos, if_pos hpos, Added, Int.toNat_natCast, take_length, hbuf]
    exact ⟨by rw [append_nil, append_nil], rfl, le_rfl⟩
  have hw : w = [] := by
    rcases (not_lt.mp hpos).lt_or_eq with hneg | hzero
    · exact hfail hneg
    · obtain ⟨rfl, htotal⟩ := hdone hzero.ge
      exact length_eq_zero_iff.mp (by omega)
  rw [if_neg hpos, if_neg hpos, hw, append_nil]
  exact added_none data (failed_toNat k (not_lt.mp hpos))

theorem LogBytes.write_added (h : c.write data k = some (c', n))
    (hwhole : c.buffer = [] → ∀ r ∈ writeBytes data.length k.results data, r.2 < 0 → r.1 = []) :
    Added c data c' n := by
  rw [LogBytes.write] at h
  split at h
  · cases h
    exact added_none data rfl
  split at h
  · cases h
    rw [Added, Int.toNat_natCast, take_length]
    exact ⟨(append_assoc _ _ _).symm, rfl, le_rfl⟩
  split at h
  case isTrue hbuf =>
    obtain ⟨m, -, h⟩ := bind_eq_some_iff.mp h
    split at h
    · cases h
    case isFalse hle =>
      split at h
      case isTrue hm =>
        cases h
        exact added_vector (by omega) (by omega)
      · split at h
        · cases h
          exact added_moved c data m.toNat
        case isFalse hneg =>
          cases h
          exact added_none data (failed_toNat k (not_lt.mp hneg))
  case isFalse hbuf =>
    have hnil : c.buffer = [] := length_eq_zero_iff.mp (not_not.mp hbuf)
    rw [LogBytes.writeData, Option.map_map] at h
    obtain ⟨⟨w, m⟩, hw, hr⟩ := map_eq_some_iff.mp h
    have hadded := added_direct hnil hw (hwhole hnil _ hw) k
    dsimp only [Function.comp_apply] at hr
    split at hr
    case isTrue hpos =>
      rw [if_pos hpos, if_pos hpos] at hadded
      cases hr
      exact hadded
    case isFalse hpos =>
      rw [if_neg hpos, if_neg hpos] at hadded
      cases hr
      exact hadded

theorem LogBytes.writeData_all {c c' : LogBytes} (h : c.writeData results c.buffer = some (c', n))
    (hwhole : ∀ r ∈ writeBytes c.buffer.length results c.buffer, 0 ≤ r.2) :
    c'.disk = c.disk ++ c.buffer ∧ c'.size = c.size := by
  obtain ⟨⟨w, m⟩, hw, hr⟩ := map_eq_some_iff.mp h
  cases hr
  obtain ⟨-, hdone⟩ := writeBytes_spec hw
  rw [(hdone (hwhole _ hw)).1]
  exact ⟨rfl, rfl⟩

/-! ### Runs -/

namespace Logged

theorem Kept.next (h : Kept s) (hok : s.Whole op) (hnext : s.next op = some t) : Kept t := by
  cases op with
  | write data k =>
    obtain ⟨⟨c, n⟩, hwrite, rfl⟩ := map_eq_some_iff.mp hnext
    obtain ⟨hbytes, hsize, hle⟩ := LogBytes.write_added hwrite hok
    refine ⟨?_, ?_⟩
    · exact hbytes.trans (by rw [h.bytes])
    · refine hsize.trans ?_
      rw [h.size, length_append, length_take, min_eq_left hle]
  | flush results =>
    obtain ⟨c, hflush, rfl⟩ := map_eq_some_iff.mp hnext
    rw [LogBytes.flush] at hflush
    split at hflush
    · cases hflush
      exact ⟨h.bytes, h.size⟩
    obtain ⟨⟨c', n⟩, hdata, rfl⟩ := map_eq_some_iff.mp hflush
    obtain ⟨hdisk, hsize⟩ := LogBytes.writeData_all hdata hok
    refine ⟨?_, hsize.trans h.size⟩
    rw [hdisk, append_nil, h.bytes]
  | close results =>
    obtain ⟨c, hclose, rfl⟩ := map_eq_some_iff.mp hnext
    rw [LogBytes.close] at hclose
    split at hclose
    · cases hclose
      exact ⟨h.bytes, h.size⟩
    split at hclose
    · cases hclose
      exact ⟨h.bytes, h.size⟩
    obtain ⟨⟨c', n⟩, hdata, rfl⟩ := map_eq_some_iff.mp hclose
    obtain ⟨hdisk, hsize⟩ := LogBytes.writeData_all hdata hok
    refine ⟨?_, hsize.trans h.size⟩
    rw [hdisk, append_nil, h.bytes]

theorem accepted_bytes_kept (hrun : Run (Guarded Whole Logged.next) ⟨.new, []⟩ ops s) :
    s.bytes.disk ++ s.bytes.buffer = s.accepted ∧ s.bytes.size = s.accepted.length := by
  have h : Kept s := by
    induction hrun with
    | nil => exact ⟨rfl, rfl⟩
    | snoc _ hstep ih => exact ih.next hstep.2 hstep.1
  exact ⟨h.bytes, h.size⟩

instance (s : Logged) : ∀ op, Decidable (s.Whole op)
  | .write _ _ => inferInstanceAs (Decidable (_ → ∀ r ∈ _, _))
  | .flush _ => inferInstanceAs (Decidable (∀ r ∈ _, _))
  | .close _ => inferInstanceAs (Decidable (∀ r ∈ _, _))

/-- Two writes, a flush in two parts, a third write and `close`. -/
theorem three_writes_kept : ∃ s,
    Run (Guarded Whole Logged.next) ⟨.new, []⟩
      [.write [1, 2] ⟨[], false⟩, .write [3] ⟨[], false⟩, .flush [1, 2],
        .write [4] ⟨[], false⟩, .close [1]] s ∧
      s.bytes.disk = [1, 2, 3, 4] ∧ s.bytes.opened = false ∧
      s.bytes.disk ++ s.bytes.buffer = s.accepted ∧ s.bytes.size = s.accepted.length := by
  refine exists_guarded_imp (P := fun s => s.bytes.disk = [1, 2, 3, 4] ∧
    s.bytes.opened = false) ?_ (by decide +kernel)
  rintro s hrun ⟨hdisk, hopened⟩
  exact ⟨hdisk, hopened, accepted_bytes_kept hrun⟩

/-- The kernel takes one of three buffered bytes and fails: `flush` and `close` drop the other two.
And a direct write that fails behind its first byte reports nothing. -/
theorem failed_flush_drops :
    (∃ s, Run (Next Logged.next) ⟨.new, []⟩ [.write [1, 2, 3] ⟨[], false⟩, .flush [1, -1]] s ∧
      s.accepted = [1, 2, 3] ∧ s.bytes.disk = [1] ∧ s.bytes.buffer = [] ∧ s.bytes.size = 3) ∧
    (∃ s, Run (Next Logged.next) ⟨.new, []⟩ [.write [1, 2, 3] ⟨[], false⟩, .close [1, -1]] s ∧
      s.accepted = [1, 2, 3] ∧ s.bytes.disk = [1] ∧ s.bytes.buffer = [] ∧ s.bytes.size = 3) ∧
    ∀ data : List UInt8, fileIoBufSize ≤ data.length →
      ∃ s, Run (Next Logged.next) ⟨.new, []⟩ [.write data ⟨[1, -1], false⟩] s ∧
        s.accepted = [] ∧ s.bytes.disk = data.take 1 ∧ s.bytes.size = 0 := by
  refine ⟨exists_run_of_exec (by decide +kernel), exists_run_of_exec (by decide +kernel), ?_⟩
  intro data hlen
  have hbuf : ¬ data.length + LogBytes.new.buffer.length < fileIoBufSize := by
    omega
  obtain ⟨b, c, rest, rfl⟩ : ∃ b c rest, data = b :: c :: rest := by
    rcases data with _ | ⟨b, _ | ⟨c, rest⟩⟩
    · exact absurd hlen (by decide)
    · exact absurd hlen (show ¬ fileIoBufSize ≤ 1 by decide)
    · exact ⟨b, c, rest, rfl⟩
  have hwrite : LogBytes.new.write (b :: c :: rest) ⟨[1, -1], false⟩ =
      some (⟨[b], [], 0, true⟩, -1) := by
    rw [LogBytes.write, if_neg (by decide), if_neg hbuf, if_neg (by decide)]
    rfl
  refine ⟨⟨⟨[b], [], 0, true⟩, []⟩, .snoc .nil ?_, rfl, rfl, rfl⟩
  rw [Next, Logged.next, hwrite]
  rfl

end Logged

/-! ### The lengths -/

def LogFile.next (f : LogFile) : FileOp → Option LogFile
  | .write data k => (f.write data.length k).map Prod.fst
  | .flush _ => some f.flush
  | .close _ => some f.close

structure Sized (f : LogFile) (c : LogBytes) : Prop where
  size : f.size = c.size
  opened : f.opened = c.opened
  dataLen : f.dataLen = c.buffer.length

theorem writeBytes_length (h : writeBytes total results data = some (w, n)) :
    writeData.go total results data.length = some n := by
  induction results generalizing data w with
  | nil =>
    cases data with
    | nil =>
      cases h
      rfl
    | cons b data => cases h
  | cons m results ih =>
    cases data with
    | nil =>
      cases h
      rfl
    | cons b data =>
      rw [writeBytes] at h
      rw [length_cons, writeData.go]
      split at h
      case isTrue hneg =>
        cases h
        exact if_pos hneg
      case isFalse hneg =>
        split at h
        · cases h
        obtain ⟨⟨v, n'⟩, hrest, hr⟩ := map_eq_some_iff.mp h
        cases hr
        rw [if_neg hneg]
        have hgo := ih hrest
        rwa [length_drop, length_cons] at hgo

theorem Sized.write (h : Sized f c) (hw : c.write data k = some (c', n)) :
    ∃ f' call, f.write data.length k = some (f', call, n) ∧ Sized f' c' := by
  obtain ⟨id, name, type, time, size, opened, dataLen⟩ := f
  obtain ⟨rfl, rfl, rfl⟩ := h
  rw [LogBytes.write] at hw
  rw [LogFile.write]
  split at hw
  case isTrue hclosed =>
    cases hw
    exact ⟨_, .none, if_pos hclosed, rfl, rfl, rfl⟩
  rename_i hopened
  rw [if_neg hopened]
  split at hw
  case isTrue hfits =>
    cases hw
    exact ⟨_, _, if_pos hfits, rfl, rfl, length_append.symm⟩
  rename_i hfull
  rw [if_neg hfull]
  split at hw
  case isTrue hbuf =>
    rw [if_pos hbuf]
    obtain ⟨m, hm, hw⟩ := bind_eq_some_iff.mp hw
    rw [hm, map_some]
    split at hw
    · cases hw
    split at hw
    case isTrue hle =>
      cases hw
      exact ⟨_, _, congrArg some (if_pos hle), rfl, rfl, rfl⟩
    case isFalse hle =>
      rw [if_neg hle]
      split at hw
      case isTrue hpos =>
        cases hw
        exact ⟨_, _, congrArg some (if_pos hpos), rfl, rfl, length_drop.symm⟩
      case isFalse hpos =>
        cases hw
        exact ⟨_, _, congrArg some (if_neg hpos), rfl, rfl, rfl⟩
  case isFalse hbuf =>
    rw [if_neg hbuf]
    rw [LogBytes.writeData, Option.map_map] at hw
    obtain ⟨⟨w, m⟩, hw, hr⟩ := map_eq_some_iff.mp hw
    rw [SlogModem.writeData, writeBytes_length hw, map_some]
    dsimp only [Function.comp_apply] at hr
    split at hr
    case isTrue hpos =>
      cases hr
      exact ⟨_, _, congrArg some (if_pos hpos), rfl, rfl, rfl⟩
    case isFalse hpos =>
      cases hr
      exact ⟨_, _, congrArg some (if_neg hpos), rfl, rfl, rfl⟩

theorem Sized.next {s t : Logged} (h : Sized f s.bytes) (hnext : s.next op = some t) :
    ∃ f', f.next op = some f' ∧ Sized f' t.bytes := by
  cases op with
  | write data k =>
    obtain ⟨⟨c, n⟩, hwrite, rfl⟩ := map_eq_some_iff.mp hnext
    obtain ⟨f', call, hf, hsized⟩ := h.write hwrite
    exact ⟨f', by rw [LogFile.next, hf]; rfl, hsized⟩
  | flush results =>
    obtain ⟨c, hflush, rfl⟩ := map_eq_some_iff.mp hnext
    refine ⟨f.flush, rfl, ?_⟩
    rw [LogBytes.flush] at hflush
    rw [LogFile.flush, h.opened]
    split at hflush
    case isTrue hclosed =>
      cases hflush
      rw [hclosed, if_neg Bool.false_ne_true]
      exact h
    case isFalse hopened =>
      obtain ⟨⟨c', n⟩, hdata, rfl⟩ := map_eq_some_iff.mp hflush
      obtain ⟨⟨w, m⟩, -, hr⟩ := map_eq_some_iff.mp hdata
      cases hr
      rw [if_pos (Bool.of_not_eq_false hopened)]
      exact ⟨h.size, rfl, rfl⟩
  | close results =>
    obtain ⟨c, hclose, rfl⟩ := map_eq_some_iff.mp hnext
    refine ⟨f.close, rfl, ?_⟩
    rw [LogBytes.close] at hclose
    rw [LogFile.close, h.opened]
    split at hclose
    case isTrue hclosed =>
      cases hclose
      rw [hclosed, if_neg Bool.false_ne_true]
      exact h
    rename_i hopened
    rw [if_pos (Bool.of_not_eq_false hopened)]
    split at hclose
    case isTrue hbuf =>
      cases hclose
      exact ⟨h.size, rfl, by rw [hbuf]; rfl⟩
    · obtain ⟨⟨c', n⟩, hdata, rfl⟩ := map_eq_some_iff.mp hclose
      obtain ⟨⟨w, m⟩, -, hr⟩ := map_eq_some_iff.mp hdata
      cases hr
      exact ⟨h.size, rfl, rfl⟩

theorem exists_run_sized (id : Nat) (name : Name) (type : LogType) (time : FileTime)
    (hrun : Run (Next Logged.next) ⟨.new, []⟩ ops s) :
    ∃ f, Run (Next LogFile.next) (.created id name type time) ops f ∧ Sized f s.bytes := by
  induction hrun with
  | nil => exact ⟨_, .nil, rfl, rfl, rfl⟩
  | snoc _ hstep ih =>
    obtain ⟨f, hf, hsized⟩ := ih
    obtain ⟨f', hnext, hsized'⟩ := hsized.next hstep
    exact ⟨f', .snoc hf hnext, hsized'⟩

end SprdVendor.SlogModem
