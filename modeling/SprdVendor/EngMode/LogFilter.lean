import SprdVendor.EngMode.Codec
import SprdVendor.Lib.Transducer

namespace SprdVendor.EngMode
open Lib List

def dataExtLogSize : Nat := 4096 * 64 * 2

/-- What the memory holds behind `ext_log_data_buf` and behind the local array `diag_header`. -/
structure Memory where
  behindExt : Nat → UInt8
  behindHeader : UInt8

/-- The bytes of `ext_log_data_buf` behind its first `ext_log_buf_len` ones are zero. -/
def extByte (mem : Memory) (ext : List UInt8) (i : Nat) : UInt8 :=
  if i < ext.length then ext.getD i 0
  else if i < dataExtLogSize then 0
  else mem.behindExt (i - dataExtLogSize)

def diagHeader (mem : Memory) (ext : List UInt8) : List UInt8 :=
  (List.range 20).map fun i => extByte mem ext ((ext.takeWhile (· = 0x7e)).length + i)

def headType (mem : Memory) (ext : List UInt8) : UInt8 :=
  (engDiagDecode7d7e mem.behindHeader (diagHeader mem ext) 20).2.getD 6 0

def filteredTypes : List UInt8 := [0x98, 0x9d, 0xf8]

def engIsSendToUsb (mem : Memory) (ext : List UInt8) : Bool :=
  !(filteredTypes.contains (headType mem ext))

inductive LogState where
  | noWait
  | waitEnd
deriving DecidableEq, Repr

abbrev ExtLog := Bounded UInt8 dataExtLogSize

/-- Copy the flags at `tmp`: the buffer, the index of `tmp` and the bytes from `tmp` on. There is no
result when `tmp` leaves the data or the buffer is full. -/
def copyFlags (ext : ExtLog) (pos : Nat) : List UInt8 → Option (ExtLog × Nat × List UInt8)
  | [] => none
  | b :: rest =>
    if b = 0x7e then (ext.push b).bind fun ext => copyFlags ext (pos + 1) rest
    else some (ext, pos, b :: rest)

def copyBody (rCnt : Nat) (ext : ExtLog) (pos : Nat) :
    List UInt8 → Option (ExtLog × Nat × List UInt8)
  | [] => none
  | b :: rest =>
    if b = 0x7e then some (ext, pos, b :: rest)
    else if rCnt = pos then some (ext, pos, b :: rest)
    else (ext.push b).bind fun ext => copyBody rCnt ext (pos + 1) rest

def frameEnd (mem : Memory) (processlen pos : Nat) (logState : LogState) (ext : ExtLog)
    (sent : List (List UInt8)) : Option (Nat × List (List UInt8)) :=
  (ext.push 0x7e).map fun ext =>
    (if logState = .waitEnd then pos + 1 else processlen + ext.toList.length,
      if engIsSendToUsb mem ext.toList then sent ++ [ext.toList] else sent)

def filterLoop (mem : Memory) (rCnt : Nat) : Nat → Nat → Nat → LogState → ExtLog → List UInt8 →
    List (List UInt8) → Option (ExtLog × List (List UInt8))
  | 0, _, _, _, _, _, _ => none
  | fuel + 1, processlen, pos, logState, ext, data, sent =>
    if logState = .waitEnd ∧ data.head? = some 0x7e then
      (frameEnd mem processlen pos logState ext sent).bind fun r =>
        if r.1 = rCnt then some (.empty _ _, r.2)
        else filterLoop mem rCnt fuel r.1 (pos + 1) .noWait (.empty _ _) data.tail r.2
    else
      (copyFlags ext pos data).bind fun c =>
        if c.2.1 = rCnt then some (c.1, sent)
        else
          (copyBody rCnt c.1 c.2.1 c.2.2).bind fun c =>
            if c.2.2.head? = some 0x7e then
              (frameEnd mem processlen c.2.1 logState c.1 sent).bind fun r =>
                if r.1 = rCnt then some (.empty _ _, r.2)
                else filterLoop mem rCnt fuel r.1 (c.2.1 + 1) .noWait (.empty _ _) c.2.2.tail r.2
            else some (c.1, sent)

/-- A call on the first `rCnt` bytes of `data`: `ext_log_data_buf` and the frames sent to the PC. -/
def engFilterCalibrationLogDiag (mem : Memory) (ext : ExtLog) (data : List UInt8) (rCnt : Nat) :
    Option (ExtLog × List (List UInt8)) :=
  filterLoop mem rCnt (data.length + 1) 0 0 .noWait ext data []

def filterReads (mem : Memory) (behind : List UInt8) (ext : ExtLog) (reads : List (List UInt8)) :
    Option (ExtLog × List (List UInt8)) :=
  transduce (fun ext r => engFilterCalibrationLogDiag mem ext (r ++ behind) r.length) ext reads

structure Frame where
  flags : Nat
  body : List UInt8
  body_ne_nil : body ≠ []
  flag_notMem : 0x7e ∉ body
  fits : flags + body.length + 1 ≤ dataExtLogSize

namespace Frame

def bytes (f : Frame) : List UInt8 := List.replicate f.flags 0x7e ++ f.body ++ [0x7e]

theorem length_bytes (f : Frame) : f.bytes.length = f.flags + f.body.length + 1 := by
  simp only [bytes, length_append, length_replicate, length_singleton]

end Frame

def stream (fs : List Frame) : List UInt8 := (fs.map Frame.bytes).flatten

def passing (mem : Memory) (fs : List Frame) : List (List UInt8) :=
  (fs.map Frame.bytes).filter (engIsSendToUsb mem)

theorem stream_cons (f : Frame) (fs : List Frame) : stream (f :: fs) = f.bytes ++ stream fs := rfl

theorem stream_append (fs gs : List Frame) : stream (fs ++ gs) = stream fs ++ stream gs := by
  rw [stream, stream, stream, map_append, flatten_append]

theorem passing_append (mem : Memory) (fs gs : List Frame) :
    passing mem (fs ++ gs) = passing mem fs ++ passing mem gs := by
  rw [passing, passing, passing, map_append, filter_append]

theorem stream_ne_nil (f : Frame) (fs : List Frame) : stream (f :: fs) ≠ [] := by
  intro h
  have hlen := congrArg List.length h
  rw [stream_cons, length_append, f.length_bytes, length_nil] at hlen
  omega

theorem copyFlags_replicate (k : Nat) (ext : ExtLog) (hb : b ≠ 0x7e)
    (hroom : ext.toList.length + k ≤ dataExtLogSize) (pos : Nat) (rest : List UInt8) :
    ∃ e : ExtLog, e.toList = ext.toList ++ List.replicate k 0x7e ∧
      copyFlags ext pos (List.replicate k 0x7e ++ b :: rest) = some (e, pos + k, b :: rest) := by
  induction k generalizing ext pos with
  | zero =>
    refine ⟨ext, (append_nil _).symm, ?_⟩
    rw [replicate_zero, nil_append, copyFlags, if_neg hb]
    rfl
  | succ k ih =>
    obtain ⟨d, hd, hl⟩ := Bounded.push_of_lt (s := ext) (by omega) 0x7e
    have hlen := congrArg List.length hl
    rw [length_append, length_singleton] at hlen
    obtain ⟨e, he, hc⟩ := ih d (by omega) (pos + 1)
    refine ⟨e, ?_, ?_⟩
    · rw [he, hl, append_assoc, replicate_succ, singleton_append]
    · rw [replicate_succ, cons_append, copyFlags, if_pos rfl, hd, Option.bind_some, hc,
        add_assoc, add_comm 1]

theorem copyBody_append (rCnt : Nat) (body : List UInt8) (ext : ExtLog) (hbody : 0x7e ∉ body)
    (hroom : ext.toList.length + body.length ≤ dataExtLogSize) (pos : Nat)
    (hpos : pos + body.length ≤ rCnt) (rest : List UInt8) :
    ∃ e : ExtLog, e.toList = ext.toList ++ body ∧
      copyBody rCnt ext pos (body ++ 0x7e :: rest) = some (e, pos + body.length, 0x7e :: rest) := by
  induction body generalizing ext pos with
  | nil =>
    refine ⟨ext, (append_nil _).symm, ?_⟩
    rw [nil_append, copyBody, if_pos rfl]
    rfl
  | cons b body ih =>
    rw [length_cons] at hroom hpos
    rw [mem_cons, not_or] at hbody
    obtain ⟨d, hd, hl⟩ := Bounded.push_of_lt (s := ext) (by omega) b
    have hlen := congrArg List.length hl
    rw [length_append, length_singleton] at hlen
    obtain ⟨e, he, hc⟩ := ih d hbody.2 (by omega) (pos + 1) (by omega)
    refine ⟨e, ?_, ?_⟩
    · rw [he, hl, append_assoc, singleton_append]
    · rw [cons_append, copyBody, if_neg (Ne.symm hbody.1), if_neg (by omega), hd,
        Option.bind_some, hc, length_cons, add_assoc, add_comm 1]

theorem filterLoop_frame (mem : Memory) (f : Frame) (rest : List UInt8) (fuel : Nat)
    (hpos : pos + f.bytes.length ≤ rCnt) (sent : List (List UInt8)) :
    filterLoop mem rCnt (fuel + 1) pos pos .noWait (.empty _ _) (f.bytes ++ rest) sent =
      if pos + f.bytes.length = rCnt then some (.empty _ _, sent ++ passing mem [f])
      else filterLoop mem rCnt fuel (pos + f.bytes.length) (pos + f.bytes.length) .noWait
        (.empty _ _) rest (sent ++ passing mem [f]) := by
  have hfits := f.fits
  have hlen := f.length_bytes
  cases hbody : f.body with
  | nil => exact absurd hbody f.body_ne_nil
  | cons b body =>
    have hnot := f.flag_notMem
    have hdata : f.bytes ++ rest =
        List.replicate f.flags 0x7e ++ b :: (body ++ 0x7e :: rest) := by
      rw [Frame.bytes, hbody]
      simp
    rw [hbody, length_cons] at hfits hlen
    rw [hbody, mem_cons, not_or] at hnot
    obtain ⟨e, he, hflags⟩ := copyFlags_replicate f.flags (.empty _ _) (Ne.symm hnot.1)
      (by rw [Bounded.empty_toList, length_nil]; omega) pos (body ++ 0x7e :: rest)
    have hel := congrArg List.length he
    rw [Bounded.empty_toList, nil_append, length_replicate] at hel
    obtain ⟨d, hd, hcopy⟩ := copyBody_append rCnt (b :: body) e
      (by rw [← hbody]; exact f.flag_notMem) (by rw [length_cons]; omega)
      (pos + f.flags) (by rw [length_cons]; omega) rest
    have hdl := congrArg List.length hd
    rw [length_append, length_cons, hel] at hdl
    obtain ⟨g, hg, hgl⟩ := Bounded.push_of_lt (s := d) (by omega) 0x7e
    have hbytes : g.toList = f.bytes := by
      rw [hgl, hd, he, Frame.bytes, hbody]
      rfl
    have hframe : frameEnd mem pos (pos + f.flags + (b :: body).length) .noWait d sent =
        some (pos + f.bytes.length, sent ++ passing mem [f]) := by
      rw [frameEnd, hg, Option.map_some, hbytes]
      simp only [reduceCtorEq, if_false, passing, map_cons, map_nil, filter_cons, filter_nil]
      split <;> simp
    have hnext : pos + f.flags + (b :: body).length + 1 = pos + f.bytes.length := by
      rw [hlen, length_cons]
      omega
    rw [filterLoop, if_neg (by rintro ⟨h, -⟩; cases h), hdata, hflags, Option.bind_some,
      if_neg (by simp only; omega)]
    simp only [cons_append] at hcopy
    simp only [hcopy, Option.bind_some, head?_cons, if_true, hframe, hnext, tail_cons]

theorem filterLoop_stream (mem : Memory) (f : Frame) (fs : List Frame)
    (hfuel : (stream (f :: fs)).length ≤ fuel) (hcnt : pos + (stream (f :: fs)).length = rCnt)
    (sent : List (List UInt8)) :
    filterLoop mem rCnt fuel pos pos .noWait (.empty _ _) (stream (f :: fs)) sent =
      some (.empty _ _, sent ++ passing mem (f :: fs)) := by
  induction fs generalizing f fuel pos sent with
  | nil =>
    have hlen : (stream [f]).length = f.bytes.length := by simp [stream]
    have hpos := f.length_bytes
    obtain ⟨fuel, rfl⟩ : ∃ n, fuel = n + 1 := ⟨fuel - 1, by omega⟩
    rw [stream_cons, filterLoop_frame mem f _ fuel (by omega), if_pos (by omega)]
  | cons g fs ih =>
    have hlen : (stream (f :: g :: fs)).length = f.bytes.length + (stream (g :: fs)).length := by
      rw [stream_cons, length_append]
    have hpos := f.length_bytes
    have hg := length_pos_of_ne_nil (stream_ne_nil g fs)
    obtain ⟨fuel, rfl⟩ : ∃ n, fuel = n + 1 := ⟨fuel - 1, by omega⟩
    rw [stream_cons, filterLoop_frame mem f _ fuel (by omega), if_neg (by omega),
      ih g (by omega) (by omega), append_assoc, ← passing_append, singleton_append]

theorem engFilterCalibrationLogDiag_stream (mem : Memory) (f : Frame) (fs : List Frame) :
    engFilterCalibrationLogDiag mem (.empty _ _) (stream (f :: fs)) (stream (f :: fs)).length =
      some (.empty _ _, passing mem (f :: fs)) :=
  filterLoop_stream mem f fs (Nat.le_succ _) (Nat.zero_add _) []

theorem copyFlags_some (h : copyFlags ext pos data = some (e, pos', rest)) :
    ∃ k b tail, data = List.replicate k 0x7e ++ rest ∧ rest = b :: tail ∧ b ≠ 0x7e ∧
      e.toList = ext.toList ++ List.replicate k 0x7e ∧ pos' = pos + k := by
  induction data generalizing ext pos with
  | nil => cases h
  | cons b data ih =>
    rw [copyFlags] at h
    split at h
    case isTrue hb =>
      obtain ⟨d, hd, h⟩ := Option.bind_eq_some_iff.mp h
      obtain ⟨k, c, tail, hdata, hrest, hc, he, hpos⟩ := ih h
      refine ⟨k + 1, c, tail, ?_, hrest, hc, ?_, by omega⟩
      · rw [hb, hdata, replicate_succ, cons_append]
      · rw [he, Bounded.toList_of_push hd, hb, append_assoc, replicate_succ, singleton_append]
    case isFalse hb =>
      cases h
      exact ⟨0, b, data, rfl, rfl, hb, (append_nil _).symm, rfl⟩

theorem copyBody_some (h : copyBody rCnt ext pos data = some (e, pos', rest))
    (hcnt : pos + data.length = rCnt) :
    ∃ body tail, data = body ++ 0x7e :: tail ∧ rest = 0x7e :: tail ∧ 0x7e ∉ body ∧
      e.toList = ext.toList ++ body := by
  induction data generalizing ext pos with
  | nil => cases h
  | cons b data ih =>
    rw [length_cons] at hcnt
    rw [copyBody, if_neg (show ¬ rCnt = pos by omega)] at h
    split at h
    case isTrue hb =>
      cases h
      exact ⟨[], data, by rw [hb]; rfl, by rw [hb], not_mem_nil, (append_nil _).symm⟩
    case isFalse hb =>
      obtain ⟨d, hd, h⟩ := Option.bind_eq_some_iff.mp h
      obtain ⟨body, tail, hdata, hrest, hnot, he⟩ := ih h (by omega)
      refine ⟨b :: body, tail, by rw [hdata]; rfl, hrest, ?_, ?_⟩
      · rw [mem_cons, not_or]
        exact ⟨Ne.symm hb, hnot⟩
      · rw [he, Bounded.toList_of_push hd, append_assoc, singleton_append]

theorem exists_frame_of_filterLoop
    (h : filterLoop mem rCnt (fuel + 1) pos pos .noWait (.empty _ _) data sent = some r)
    (hcnt : pos + data.length = rCnt) : ∃ (f : Frame) (rest : List UInt8), data = f.bytes ++ rest := by
  rw [filterLoop, if_neg (by rintro ⟨h, -⟩; cases h)] at h
  obtain ⟨⟨e, pos₁, rest₁⟩, hflags, h⟩ := Option.bind_eq_some_iff.mp h
  obtain ⟨k, b, tail, hdata, hrest, hb, he, hpos⟩ := copyFlags_some hflags
  have hlen := congrArg List.length hdata
  rw [length_append, length_replicate, hrest, length_cons] at hlen
  dsimp only at h
  rw [if_neg (by omega)] at h
  obtain ⟨⟨d, pos₂, rest₂⟩, hcopy, h⟩ := Option.bind_eq_some_iff.mp h
  obtain ⟨body, tail₂, hbody, hrest₂, hnot, hd⟩ := copyBody_some hcopy
    (by rw [hrest, length_cons]; omega)
  rw [hrest₂, head?_cons, if_pos rfl] at h
  obtain ⟨r', hframe, -⟩ := Option.bind_eq_some_iff.mp h
  rw [frameEnd, Option.map_eq_some_iff] at hframe
  obtain ⟨g, hg, -⟩ := hframe
  have hfits := g.length_le
  rw [Bounded.toList_of_push hg, hd, he, Bounded.empty_toList] at hfits
  simp only [length_append, length_nil, length_replicate, length_singleton] at hfits
  have hne : body ≠ [] := by
    intro hnil
    rw [hnil, nil_append, hrest] at hbody
    exact hb (cons.inj hbody).1
  refine ⟨⟨k, body, hne, hnot, by omega⟩, tail₂, ?_⟩
  rw [hdata, Frame.bytes, hbody]
  simp

theorem exists_frames_of_filterLoop
    (h : filterLoop mem rCnt fuel pos pos .noWait (.empty _ _) data sent = some r)
    (hcnt : pos + data.length = rCnt) : ∃ f fs, data = stream (f :: fs) := by
  induction fuel generalizing pos data sent with
  | zero => cases h
  | succ fuel ih =>
    obtain ⟨f, rest, rfl⟩ := exists_frame_of_filterLoop h hcnt
    rw [length_append] at hcnt
    rw [filterLoop_frame mem f rest fuel (by omega)] at h
    by_cases hend : pos + f.bytes.length = rCnt
    · have hrest := eq_nil_of_length_eq_zero (show rest.length = 0 by omega)
      exact ⟨f, [], by rw [hrest]; rfl⟩
    · rw [if_neg hend] at h
      obtain ⟨g, fs, hrest⟩ := ih h (by omega)
      exact ⟨f, g :: fs, by rw [hrest, stream_cons f]⟩

/-- A call that starts with an empty buffer and reads only its bytes was given whole frames. -/
theorem exists_frames_of_filter
    (h : engFilterCalibrationLogDiag mem (.empty _ _) data data.length = some r) :
    ∃ f fs, data = stream (f :: fs) :=
  exists_frames_of_filterLoop h (zero_add _)

theorem passing_congr (mem : Memory) (h : stream fs = stream gs) : passing mem fs = passing mem gs := by
  cases fs with
  | nil =>
    cases gs with
    | nil => rfl
    | cons g gs => exact absurd h.symm (stream_ne_nil g gs)
  | cons f fs =>
    cases gs with
    | nil => exact absurd h (stream_ne_nil f fs)
    | cons g gs =>
      have hf := engFilterCalibrationLogDiag_stream mem f fs
      rw [h, engFilterCalibrationLogDiag_stream mem g gs] at hf
      exact (Prod.mk.inj (Option.some.inj hf)).2.symm

theorem whole_of_filterReads (h : filterReads mem [] (.empty _ _) reads = some out) :
    ∀ r ∈ reads, ∃ gs, r = stream gs := by
  induction reads generalizing out with
  | nil => exact forall_mem_nil _
  | cons r reads ih =>
    rw [filterReads, transduce, Option.bind_eq_some_iff] at h
    obtain ⟨⟨ext, sent⟩, hcall, h⟩ := h
    obtain ⟨q, hrest, -⟩ := Option.map_eq_some_iff.mp h
    rw [append_nil] at hcall
    obtain ⟨f, fs, rfl⟩ := exists_frames_of_filter hcall
    rw [engFilterCalibrationLogDiag_stream mem f fs] at hcall
    cases hcall
    rw [forall_mem_cons]
    exact ⟨⟨f :: fs, rfl⟩, ih hrest⟩

theorem filterReads_of_whole (mem : Memory)
    (h : ∀ r ∈ reads, r ≠ [] ∧ ∃ gs, r = stream gs) :
    ∃ gs, reads.flatten = stream gs ∧
      filterReads mem [] (.empty _ _) reads = some (.empty _ _, passing mem gs) := by
  induction reads with
  | nil => exact ⟨[], rfl, rfl⟩
  | cons r reads ih =>
    rw [forall_mem_cons] at h
    obtain ⟨⟨hne, fs, rfl⟩, h⟩ := h
    obtain ⟨gs, hgs, hreads⟩ := ih h
    cases fs with
    | nil => exact absurd rfl hne
    | cons f fs =>
      refine ⟨f :: fs ++ gs, ?_, ?_⟩
      · rw [flatten_cons, hgs, stream_append]
      have hcall := engFilterCalibrationLogDiag_stream mem f fs
      rw [filterReads, transduce, append_nil, hcall, Option.bind_some]
      rw [filterReads] at hreads
      rw [hreads, passing_append]
      rfl

def sampleFrames : List Frame :=
  [⟨1, [0, 0, 0, 0, 0, 0, 0x12], by decide, by decide, by decide⟩,
    ⟨1, [0, 0, 0, 0, 0, 0, 0x98], by decide, by decide, by decide⟩]

def zeroMemory : Memory := ⟨fun _ => 0, 0⟩

def shortFrames : List Frame :=
  [⟨1, [0x41, 0x42], by decide, by decide, by decide⟩,
    ⟨1, [0x43, 0x44], by decide, by decide, by decide⟩]

end SprdVendor.EngMode
