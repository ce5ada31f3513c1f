import SprdVendor.Lib.Entries
import SprdVendor.Lib.Run

namespace SprdVendor.SlogModem
open Lib List

def clientBufSize : Nat := 256

def isEnd (b : UInt8) : Bool := b == 0 || b == 10

def searchEnd (req : List UInt8) : Option Nat := req.findIdx? isEnd

structure SocketRead where
  bytes : List UInt8
  ne_nil : bytes ≠ []
  le : bytes.length ≤ clientBufSize

/-- The receive buffer of a client connection, and the requests given to `process_req` so far;
`data_start` is always 0. -/
structure ClientBuffer where
  buffer : List UInt8
  size_eq : buffer.length = clientBufSize
  dataLen : Nat
  dispatched : List (List UInt8)

def processLoop : Nat → List UInt8 → List (List UInt8) × List UInt8
  | 0, data => ([], data)
  | fuel + 1, data =>
    match searchEnd data with
    | none => ([], data)
    | some i =>
      (data.take i :: (processLoop fuel (data.drop (i + 1))).1,
        (processLoop fuel (data.drop (i + 1))).2)

theorem processLoop_eq (h : data.length ≤ fuel) :
    processLoop fuel data = (entries isEnd data, remainder isEnd data) := by
  induction fuel generalizing data with
  | zero =>
    have hnil := length_eq_zero_iff.mp (Nat.le_zero.mp h)
    subst hnil
    rfl
  | succ fuel ih =>
    rw [processLoop, searchEnd]
    rcases exists_first isEnd data with hnone | ⟨xs, sep, as, rfl, hsep, hxs⟩
    · rw [findIdx?_eq_none_iff.mpr hnone, entries_of_none hnone, remainder_of_none hnone]
    have hidx : (xs ++ sep :: as).findIdx? isEnd = some xs.length := by
      rw [findIdx?_append, findIdx?_eq_none_iff.mpr hxs, findIdx?_cons, if_pos hsep]
      simp
    have hlen : as.length ≤ fuel := by
      rw [length_append, length_cons] at h
      omega
    have hdrop : (xs ++ sep :: as).drop (xs.length + 1) = as := by
      rw [append_cons]
      exact drop_left' (by rw [length_append, length_singleton])
    rw [hidx, entries_first hxs hsep, remainder_first hxs hsep]
    dsimp only
    rw [hdrop, take_left, ih hlen]

namespace ClientBuffer

def init (mem : List UInt8) (h : mem.length = clientBufSize) : ClientBuffer := ⟨mem, h, 0, []⟩

def data (s : ClientBuffer) : List UInt8 := s.buffer.take s.dataLen

def processData (s : ClientBuffer) : ClientBuffer where
  buffer :=
    -- rlen is not 0 and start is not m_buffer.buffer
    if (processLoop s.data.length s.data).2 ≠ [] ∧ (processLoop s.data.length s.data).1 ≠ [] then
      (processLoop s.data.length s.data).2 ++
        s.buffer.drop (processLoop s.data.length s.data).2.length
    else s.buffer
  size_eq := by
    have hlen := length_remainder_le (p := isEnd) s.data
    have hdata : s.data.length ≤ s.buffer.length := by
      rw [data, List.length_take]
      exact Nat.min_le_right _ _
    rw [processLoop_eq (Nat.le_refl _)]
    dsimp only
    split
    · rw [List.length_append, List.length_drop, ← s.size_eq]
      omega
    · exact s.size_eq
  dataLen := (processLoop s.data.length s.data).2.length
  dispatched := s.dispatched ++ (processLoop s.data.length s.data).1

def fill (s : ClientBuffer) (r : SocketRead) : ClientBuffer where
  buffer := r.bytes ++ s.buffer.drop r.bytes.length
  size_eq := by
    have hle := r.le
    rw [List.length_append, List.length_drop, s.size_eq]
    omega
  dataLen := s.dataLen + r.bytes.length
  dispatched := s.dispatched

def process (s : ClientBuffer) (r : SocketRead) : Option ClientBuffer :=
  if (s.fill r).dataLen ≤ clientBufSize then some (s.fill r).processData else none

end ClientBuffer

def stream (rs : List SocketRead) : List UInt8 := (rs.map SocketRead.bytes).flatten

def requests (bytes : List UInt8) : List (List UInt8) := entries isEnd bytes

def lines (bytes : List UInt8) : List (List UInt8) := entries (· == 10) bytes

namespace ClientBuffer

/-- The read finds no unfinished request in the buffer; or it stays within the buffer and there is
no end of a request in what was read or in the old bytes that `data_len` now covers. -/
def ReadOk (s : ClientBuffer) (r : SocketRead) : Prop :=
  s.dataLen = 0 ∨ (s.fill r).dataLen ≤ clientBufSize ∧ ∀ b ∈ (s.fill r).data, isEnd b = false

def ReadsOk : ClientBuffer → List SocketRead → Prop
  | _, [] => True
  | s, r :: rs => s.ReadOk r ∧ ∀ t, s.process r = some t → ReadsOk t rs

structure Good (s : ClientBuffer) (bytes : List UInt8) : Prop where
  dispatched : s.dispatched = requests bytes
  dataLen : s.dataLen = (remainder isEnd bytes).length

/-- Wrong for good: a request has been dispatched that is shorter than the one of its place in every
continuation of the stream. -/
def Wrong (s : ClientBuffer) (bytes : List UInt8) : Prop :=
  ∃ (i : Nat) (x : List UInt8), s.dispatched[i]? = some x ∧
    ∀ (more w : List UInt8), (requests (bytes ++ more))[i]? = some w → x.length < w.length

theorem processData_dispatched (s : ClientBuffer) :
    s.processData.dispatched = s.dispatched ++ requests s.data := by
  show s.dispatched ++ (processLoop _ _).1 = _
  rw [processLoop_eq (le_refl _), requests]

theorem processData_dataLen (s : ClientBuffer) :
    s.processData.dataLen = (remainder isEnd s.data).length := by
  show (processLoop _ _).2.length = _
  rw [processLoop_eq (le_refl _)]

theorem process_eq_some (h : process s r = some t) :
    (s.fill r).dataLen ≤ clientBufSize ∧ t = (s.fill r).processData := by
  rw [process] at h
  split at h
  · cases h
    exact ⟨‹_›, rfl⟩
  · cases h

theorem length_data (h : dataLen s ≤ clientBufSize) : s.data.length = s.dataLen := by
  rw [data, length_take, s.size_eq]
  exact min_eq_left h

theorem data_fill (s : ClientBuffer) (r : SocketRead) :
    (s.fill r).data = r.bytes ++ (s.buffer.drop r.bytes.length).take s.dataLen := by
  show (r.bytes ++ s.buffer.drop r.bytes.length).take (s.dataLen + r.bytes.length) = _
  rw [take_append, take_of_length_le (Nat.le_add_left _ _), Nat.add_sub_cancel]

theorem Good.data (h : Good s bytes) (hok : s.ReadOk r) :
    (s.fill r).dataLen ≤ clientBufSize ∧
    entries isEnd (s.fill r).data = entries isEnd (remainder isEnd bytes ++ r.bytes) ∧
    (remainder isEnd (s.fill r).data).length =
      (remainder isEnd (remainder isEnd bytes ++ r.bytes)).length := by
  rcases hok with hzero | ⟨hle, hnone⟩
  · have hrem := length_eq_zero_iff.mp (h.dataLen.symm.trans hzero)
    rw [data_fill, hzero, take_zero, append_nil, hrem, nil_append]
    refine ⟨?_, rfl, rfl⟩
    show s.dataLen + r.bytes.length ≤ clientBufSize
    rw [hzero, zero_add]
    exact r.le
  have hbytes : ∀ b ∈ remainder isEnd bytes ++ r.bytes, isEnd b = false := by
    intro b hb
    rcases mem_append.mp hb with hb | hb
    · exact remainder_none bytes b hb
    · exact hnone b (data_fill s r ▸ mem_append_left _ hb)
  refine ⟨hle, ?_, ?_⟩
  · rw [entries_of_none hnone, entries_of_none hbytes]
  · rw [remainder_of_none hnone, remainder_of_none hbytes, length_data hle, length_append,
      ← h.dataLen]
    rfl

theorem Good.process (h : Good s bytes) (hok : s.ReadOk r) :
    ∃ t, s.process r = some t ∧ t.Good (bytes ++ r.bytes) := by
  obtain ⟨hle, hentries, hrem⟩ := h.data hok
  refine ⟨(s.fill r).processData, if_pos hle, ?_, ?_⟩
  · rw [processData_dispatched]
    show s.dispatched ++ _ = _
    rw [h.dispatched, requests, requests, requests, entries_append, hentries]
  · rw [processData_dataLen, remainder_append, hrem]

/-- The first entry of a stream that begins with an unfinished one is longer than what was found as
the first entry of bytes that begin with the next read. -/
theorem length_lt_of_first
    (hrem : ∀ b ∈ rem, isEnd b = false) (hne : rem ≠ []) (hxs : ∀ b ∈ xs, isEnd b = false)
    (hsep : isEnd sep' = true) (hdata : bytes ++ old = xs ++ sep :: as)
    (hold : old.length ≤ rem.length) (hl : rem ++ (bytes ++ more) = ys ++ sep' :: bs) :
    xs.length < ys.length := by
  by_contra hge
  have hpos := length_pos_iff.mpr hne
  have hlen := congrArg List.length hdata
  simp only [length_append, length_cons] at hlen
  have hget : (rem ++ (bytes ++ more))[ys.length]? = some sep' := by
    rw [hl, getElem?_append_right (Nat.le_refl _), Nat.sub_self]
    rfl
  have hin : rem.length ≤ ys.length := by
    by_contra hlt
    rw [getElem?_append_left (by omega)] at hget
    rw [hrem sep' (mem_of_getElem? hget)] at hsep
    cases hsep
  rw [getElem?_append_right hin, getElem?_append_left (by omega)] at hget
  have hsame : (xs ++ sep :: as)[ys.length - rem.length]? = some sep' := by
    rw [← hdata, getElem?_append_left (by omega)]
    exact hget
  rw [getElem?_append_left (by omega)] at hsame
  rw [hxs sep' (mem_of_getElem? hsame)] at hsep
  cases hsep

theorem Good.wrong (h : Good s bytes) (hbad : ¬ s.ReadOk r) (hp : s.process r = some t) :
    t.Wrong (bytes ++ r.bytes) := by
  obtain ⟨hle, rfl⟩ := process_eq_some hp
  rw [ReadOk, not_or, not_and] at hbad
  obtain ⟨hne, hbad⟩ := hbad
  rcases exists_first isEnd (s.fill r).data with hnone | ⟨xs, sep, as, hdata, hsep, hxs⟩
  · exact absurd hnone (hbad hle)
  have hrem : remainder isEnd bytes ≠ [] := by
    intro hnil
    rw [h.dataLen, hnil] at hne
    exact hne rfl
  refine ⟨(requests bytes).length, xs, ?_, ?_⟩
  · rw [processData_dispatched, requests, hdata, entries_first hxs hsep]
    show (s.dispatched ++ _)[_]? = _
    rw [h.dispatched, getElem?_append_right (Nat.le_refl _), Nat.sub_self]
    rfl
  intro more w hw
  rw [requests, requests, append_assoc, entries_append,
    getElem?_append_right (Nat.le_refl _), Nat.sub_self] at hw
  rcases exists_first isEnd (remainder isEnd bytes ++ (r.bytes ++ more)) with
    hnone | ⟨ys, sep', bs, hl, hsep', hys⟩
  · rw [entries_of_none hnone] at hw
    cases hw
  rw [hl, entries_first hys hsep'] at hw
  cases hw
  rw [data_fill] at hdata
  apply length_lt_of_first (remainder_none bytes) hrem hxs hsep' hdata _ hl
  rw [length_take, h.dataLen]
  exact min_le_left _ _

theorem Wrong.process (h : Wrong s bytes) (hp : s.process r = some t) :
    t.Wrong (bytes ++ r.bytes) := by
  obtain ⟨-, rfl⟩ := process_eq_some hp
  obtain ⟨i, x, hx, hw⟩ := h
  refine ⟨i, x, ?_, ?_⟩
  · rw [processData_dispatched]
    show (s.dispatched ++ _)[i]? = _
    rw [List.getElem?_append_left (List.getElem?_eq_some_iff.mp hx).1]
    exact hx
  · intro more w hget
    rw [append_assoc] at hget
    exact hw _ w hget

theorem Wrong.ne (h : Wrong s bytes) : s.dispatched ≠ requests bytes := by
  intro he
  obtain ⟨i, x, hx, hw⟩ := h
  have hlt := hw [] x (by rw [append_nil, ← he]; exact hx)
  exact lt_irrefl _ hlt

theorem Wrong.reads (h : Wrong s bytes) (he : exec ClientBuffer.process s rs = some t) :
    t.Wrong (bytes ++ stream rs) := by
  induction rs generalizing s bytes with
  | nil =>
    cases he
    rw [stream, map_nil, flatten_nil, append_nil]
    exact h
  | cons r rs ih =>
    obtain ⟨u, hu, he⟩ := Option.bind_eq_some_iff.mp he
    rw [stream, map_cons, flatten_cons, ← append_assoc]
    exact ih (h.process hu) he

/-- From a state that is right, the requests dispatched are right at the end exactly when every read
meets the condition. -/
theorem Good.reads_iff (h : Good s bytes) :
    (∃ t, exec ClientBuffer.process s rs = some t ∧ t.dispatched = requests (bytes ++ stream rs)) ↔
      s.ReadsOk rs := by
  induction rs generalizing s bytes with
  | nil =>
    rw [stream, map_nil, flatten_nil, append_nil]
    exact iff_of_true ⟨s, rfl, h.dispatched⟩ trivial
  | cons r rs ih =>
    rw [stream, map_cons, flatten_cons, ← append_assoc]
    constructor
    · rintro ⟨t, he, ht⟩
      obtain ⟨u, hu, he⟩ := Option.bind_eq_some_iff.mp he
      by_cases hok : s.ReadOk r
      · obtain ⟨u', hu', hgood⟩ := h.process hok
        refine ⟨hok, ?_⟩
        intro v hv
        cases hu'.symm.trans hv
        cases hu'.symm.trans hu
        exact (ih hgood).mp ⟨t, he, ht⟩
      · exact absurd ht ((h.wrong hok hu).reads he).ne
    · rintro ⟨hok, hrest⟩
      obtain ⟨u, hu, hgood⟩ := h.process hok
      obtain ⟨t, he, ht⟩ := (ih hgood).mpr (hrest u hu)
      refine ⟨t, ?_, ht⟩
      rw [exec, hu]
      exact he

/-- The requests of the stream are dispatched, each once and with its text, exactly when every read
meets the condition; without a zero byte they are its lines. -/
theorem requests_dispatched_iff (mem : List UInt8) (hmem : mem.length = clientBufSize)
    (rs : List SocketRead) :
    ((∃ s, exec process (init mem hmem) rs = some s ∧ s.dispatched = requests (stream rs)) ↔
      (init mem hmem).ReadsOk rs) ∧
    ((∀ b ∈ stream rs, b ≠ 0) → requests (stream rs) = lines (stream rs)) := by
  constructor
  · have hgood : (init mem hmem).Good [] := ⟨rfl, rfl⟩
    exact hgood.reads_iff
  intro hzero
  apply entries_congr
  intro b hb
  rw [isEnd, beq_false_of_ne (hzero b hb), Bool.false_or]

def zeroed : ClientBuffer := init (List.replicate clientBufSize 0) List.length_replicate

def wholeReads : List SocketRead :=
  [⟨[97, 10], by decide, by decide⟩, ⟨[98, 99, 10], by decide, by decide⟩]

theorem requests_dispatched_whole_reads :
    ∃ s, exec process zeroed wholeReads = some s ∧ s.dispatched = requests (stream wholeReads) := by
  refine (requests_dispatched_iff _ _ wholeReads).1.mpr ⟨.inl rfl, ?_⟩
  intro t ht
  obtain ⟨-, rfl⟩ := process_eq_some ht
  refine ⟨.inl ?_, fun _ _ => trivial⟩
  rw [processData_dataLen, data_fill]
  decide

def cutReads : List SocketRead :=
  [⟨[120, 10, 97, 98], by decide, by decide⟩, ⟨[99, 10], by decide, by decide⟩]

theorem cut_request_loses_bytes :
    (exec process zeroed cutReads).map ClientBuffer.dispatched = some [[120], [99]] ∧
      lines (stream cutReads) = [[120], [97, 98, 99]] := by
  decide

end ClientBuffer

end SprdVendor.SlogModem
