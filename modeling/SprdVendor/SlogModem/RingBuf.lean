import SprdVendor.SlogModem.DiagStream
import SprdVendor.SlogModem.LogPipe

namespace SprdVendor.SlogModem
open Lib List Option

variable {p : DiagStreamParser} {k : RingBufSink}

def diagReadRingBuffer : UInt8 := 58

def diagRspRingBufferOk : UInt8 := 1

def diagDataRingBuffer : UInt8 := 100

/-- What the consumer of a ring buffer keeps beside the parser's state: `m_pool` as the last frame
left it, what was given to `m_file->write`, and the result the client was told. -/
structure RingBufSink where
  pool : List UInt8
  written : List (List UInt8)
  result : Option LogProcResult
deriving DecidableEq, Repr

/-- The length of the payload, computed in a 32-bit `size_t`. -/
def payloadLen (dstLen : Nat) : Nat := (dstLen + 2 ^ 32 - 8) % 2 ^ 32

/-- A complete frame lies at the start of the pool, over the bytes of earlier frames. There is no
result when the file is given bytes from behind the pool; `writes` are the answers of the file. -/
def RingBufSink.frame (writes : Nat → Int) (k : RingBufSink) (dst : List UInt8) :
    Option RingBufSink :=
  let pool := dst ++ k.pool.drop dst.length
  if pool[6]? = some diagReadRingBuffer then
    if pool[7]? = some diagRspRingBufferOk then some ⟨pool, k.written, some .success⟩
    else if pool[7]? = some diagDataRingBuffer then
      if pool.length < 8 + payloadLen dst.length then none
      else
        let written := k.written ++ [(pool.drop 8).take (payloadLen dst.length)]
        if writes k.written.length = payloadLen dst.length then some ⟨pool, written, none⟩
        else some ⟨pool, written, some .failure⟩
    else some ⟨pool, k.written, some .failure⟩
  else some ⟨pool, k.written, none⟩

structure CpRingBufConsumer where
  parser : DiagStreamParser
  sink : RingBufSink
deriving DecidableEq

namespace CpRingBufConsumer

def processLoop (writes : Nat → Int) : Nat → CpRingBufConsumer → List UInt8 →
    Option CpRingBufConsumer
  | 0, c, _ => some c
  | fuel + 1, c, src =>
    if src = [] then some c
    else (c.parser.unescape src).bind fun r =>
      match r.2.1 with
      | none => processLoop writes fuel ⟨r.1, c.sink⟩ (src.drop r.2.2)
      | some dst =>
        (c.sink.frame writes dst).bind fun k =>
          if k.result.isSome then some ⟨r.1, k⟩
          else processLoop writes fuel ⟨r.1, k⟩ (src.drop r.2.2)

def process (writes : Nat → Int) (c : CpRingBufConsumer) (src : List UInt8) :
    Option CpRingBufConsumer :=
  if c.sink.result.isSome then some c else processLoop writes src.length c src

def processAll (writes : Nat → Int) : CpRingBufConsumer → List (List UInt8) →
    Option CpRingBufConsumer
  | c, [] => some c
  | c, src :: chunks => (c.process writes src).bind fun c => processAll writes c chunks

def new (pool : List UInt8) : CpRingBufConsumer := ⟨.init, ⟨pool, [], none⟩⟩

end CpRingBufConsumer

/-! ### The frames of a stream -/

def scanInside (cur : List UInt8) (b : UInt8) :
    (DiagParseState × List UInt8) × List (List UInt8) :=
  if b = escapeByte then ((.halt, cur), []) else ((.up, cur ++ [b]), [])

def scanByte (state : DiagParseState) (cur : List UInt8) (b : UInt8) :
    (DiagParseState × List UInt8) × List (List UInt8) :=
  match state with
  | .down => ((if b = flagByte then .ready else .down, cur), [])
  | .halt => ((.up, cur ++ [b ^^^ complementByte]), [])
  | .ready => if b = flagByte then ((.ready, cur), []) else scanInside cur b
  | .up => if b = flagByte then ((.down, []), [cur]) else scanInside cur b

def scan : DiagParseState → List UInt8 → List UInt8 → List UInt8 × List (List UInt8)
  | _, cur, [] => (cur, [])
  | state, cur, b :: src =>
    let r := scanByte state cur b
    let q := scan r.1.1 r.1.2 src
    (q.1, r.2 ++ q.2)

def completeFrames (src : List UInt8) : List (List UInt8) := (scan .down [] src).2

def openFrame (src : List UInt8) : List UInt8 := (scan .down [] src).1

/-- Every complete frame has a whole header, and no frame outgrows the pool. -/
structure StreamFits (src : List UInt8) : Prop where
  header : ∀ dst ∈ completeFrames src, 8 ≤ dst.length
  pool : ∀ dst ∈ completeFrames src, dst.length ≤ poolSize
  tail : (openFrame src).length ≤ poolSize

def isData (dst : List UInt8) : Bool :=
  dst[6]? = some diagReadRingBuffer ∧ dst[7]? = some diagDataRingBuffer

theorem length_le_scanInside (cur : List UInt8) (b : UInt8) :
    cur.length ≤ (scanInside cur b).1.2.length := by
  rw [scanInside]
  split
  · exact le_rfl
  · exact length_append ▸ Nat.le_add_right _ _

theorem length_le_scanByte (state : DiagParseState) (cur : List UInt8) (b : UInt8) :
    (scanByte state cur b).2 = [cur] ∨ cur.length ≤ (scanByte state cur b).1.2.length := by
  cases state with
  | down => exact .inr le_rfl
  | halt => exact .inr (length_append ▸ Nat.le_add_right _ _)
  | ready =>
    rw [scanByte]
    split
    · exact .inr le_rfl
    · exact .inr (length_le_scanInside cur b)
  | up =>
    rw [scanByte]
    split
    · exact .inl rfl
    · exact .inr (length_le_scanInside cur b)

theorem length_le_of_scan (hclosed : ∀ dst ∈ (scan state cur src).2, dst.length ≤ n)
    (hopen : (scan state cur src).1.length ≤ n) : cur.length ≤ n := by
  induction src generalizing state cur with
  | nil => exact hopen
  | cons b src ih =>
    have hlater : ((scanByte state cur b).1.2).length ≤ n :=
      ih (fun dst hdst => hclosed dst (mem_append_right _ hdst)) hopen
    rcases length_le_scanByte state cur b with hgrow | hgrow
    · have hmem : cur ∈ (scanByte state cur b).2 := hgrow ▸ mem_singleton.mpr rfl
      exact hclosed cur (mem_append_left _ hmem)
    · exact hgrow.trans hlater

namespace DiagStreamParser

theorem keep_spec (c : UInt8)
    (hlen : (p.pool.toList ++ [c]).length ≤ poolSize) :
    ∃ q : DiagStreamParser,
      (p.keep c).map (fun p => (p, ([] : List (List UInt8)))) = some (q, []) ∧
        (q.state, q.pool.toList) = (.up, p.pool.toList ++ [c]) := by
  rw [length_append, length_singleton] at hlen
  obtain ⟨q, hq, hstate, hpool⟩ := keep_of_lt (p := p) (by omega) c
  exact ⟨q, by rw [hq]; rfl, by rw [hstate, hpool]⟩

theorem byte_scanInside (hp : p.Inside) (hb : b ≠ flagByte)
    (hnext : (scanInside p.pool.toList b).1.2.length ≤ poolSize) :
    ∃ q : DiagStreamParser, p.byte b = some (q, (scanInside p.pool.toList b).2) ∧
      (q.state, q.pool.toList) = (scanInside p.pool.toList b).1 := by
  rw [scanInside] at hnext ⊢
  rw [byte_inside hp, if_neg hb]
  split
  · exact ⟨_, rfl, rfl⟩
  case isFalse he =>
    rw [if_neg he] at hnext
    exact keep_spec b hnext

/-- The parser does what the frames of the stream ask for as long as they fit into its pool. -/
theorem byte_scan
    (hnext : (scanByte p.state p.pool.toList b).1.2.length ≤ poolSize) :
    ∃ q : DiagStreamParser, p.byte b = some (q, (scanByte p.state p.pool.toList b).2) ∧
      (q.state, q.pool.toList) = (scanByte p.state p.pool.toList b).1 := by
  cases hs : p.state with
  | down => exact ⟨_, byte_down hs b, rfl⟩
  | halt =>
    rw [hs] at hnext
    rw [byte_halt hs]
    exact keep_spec _ hnext
  | ready =>
    have hp : p.Inside := ⟨by rw [hs]; nofun, by rw [hs]; nofun⟩
    rw [hs, scanByte] at hnext
    rw [scanByte]
    split
    case isTrue hb =>
      refine ⟨p, ?_, by rw [hs]⟩
      rw [byte_inside hp, if_pos hb, if_pos hs]
    case isFalse hb =>
      rw [if_neg hb] at hnext
      exact byte_scanInside hp hb hnext
  | up =>
    have hp : p.Inside := ⟨by rw [hs]; nofun, by rw [hs]; nofun⟩
    rw [hs, scanByte] at hnext
    rw [scanByte]
    split
    case isTrue hb =>
      refine ⟨init, ?_, rfl⟩
      rw [hb, byte_close hp (by rw [hs]; nofun)]
    case isFalse hb =>
      rw [if_neg hb] at hnext
      exact byte_scanInside hp hb hnext

theorem transduce_scan (hclosed : ∀ dst ∈ (scan p.state p.pool.toList src).2, dst.length ≤ poolSize)
    (hopen : (scan p.state p.pool.toList src).1.length ≤ poolSize) :
    ∃ q, transduce byte p src = some (q, (scan p.state p.pool.toList src).2) := by
  induction src generalizing p with
  | nil => exact ⟨p, rfl⟩
  | cons b src ih =>
    have hrest : ∀ dst ∈ (scan (scanByte p.state p.pool.toList b).1.1
        (scanByte p.state p.pool.toList b).1.2 src).2, dst.length ≤ poolSize :=
      fun dst hdst => hclosed dst (mem_append_right _ hdst)
    obtain ⟨q, hbyte, hq⟩ := byte_scan (length_le_of_scan hrest hopen)
    obtain ⟨hstate, hpool⟩ := Prod.ext_iff.mp hq
    rw [← hstate, ← hpool] at hrest
    have hopen' : (scan q.state q.pool.toList src).1.length ≤ poolSize := by
      rw [scan, ← hstate, ← hpool] at hopen
      exact hopen
    obtain ⟨r, hr⟩ := ih hrest hopen'
    refine ⟨r, ?_⟩
    rw [transduce_cons hbyte, hr, scan, ← hstate, ← hpool]
    rfl

end DiagStreamParser

/-! ### The consumer -/

def RingBufSink.frames (writes : Nat → Int) : RingBufSink → List (List UInt8) → Option RingBufSink
  | k, [] => some k
  | k, dst :: dsts =>
    if k.result.isSome then some k else (k.frame writes dst).bind fun k => k.frames writes dsts

theorem RingBufSink.frames_done (h : k.result.isSome = true)
    (writes : Nat → Int) (dsts : List (List UInt8)) : k.frames writes dsts = some k := by
  cases dsts with
  | nil => rfl
  | cons dst dsts => exact if_pos h

theorem RingBufSink.frames_append (writes : Nat → Int) (k : RingBufSink)
    (dsts dsts' : List (List UInt8)) :
    k.frames writes (dsts ++ dsts') =
      (k.frames writes dsts).bind fun k => k.frames writes dsts' := by
  induction dsts generalizing k with
  | nil => rfl
  | cons dst dsts ih =>
    by_cases hk : k.result.isSome = true
    · rw [RingBufSink.frames_done hk, RingBufSink.frames_done hk, bind_some,
        RingBufSink.frames_done hk]
    · rw [cons_append, RingBufSink.frames, RingBufSink.frames, if_neg hk, if_neg hk, bind_assoc]
      exact bind_congr fun k _ => ih k

namespace CpRingBufConsumer

theorem processLoop_frames (writes : Nat → Int)
    (hfuel : src.length ≤ fuel) (hc : c.sink.result.isSome = false)
    (h : transduce DiagStreamParser.byte c.parser src = some (q, dsts)) :
    (processLoop writes fuel c src).map sink = c.sink.frames writes dsts ∧
      ∀ c', processLoop writes fuel c src = some c' → c'.sink.result.isSome = false →
        c'.parser = q := by
  induction fuel generalizing c src dsts with
  | zero =>
    rw [eq_nil_of_length_eq_zero (Nat.le_zero.mp hfuel)] at h
    cases h
    refine ⟨rfl, ?_⟩
    rintro c' ⟨⟩ -
    rfl
  | succ fuel ih =>
    rw [processLoop]
    by_cases hn : src = []
    · subst hn
      cases h
      refine ⟨rfl, ?_⟩
      rintro c' ⟨⟩ -
      rfl
    have hbytes := DiagStreamParser.unescapeLoop_bytes c.parser src
    rw [h] at hbytes
    obtain ⟨⟨p, dst, rest⟩, hloop, hrest⟩ := bind_eq_some_iff.mp hbytes
    obtain ⟨⟨q', later⟩, htrans, heq⟩ := map_eq_some_iff.mp hrest
    obtain ⟨rfl, rfl⟩ := Prod.mk.inj heq
    have hsuffix := DiagStreamParser.unescapeLoop_suffix hloop
    have hdrop : src.drop (src.length - rest.length) = rest :=
      (suffix_iff_eq_drop.mp (hsuffix.trans (tail_suffix src))).symm
    have hlen : rest.length ≤ fuel := by
      have hle := hsuffix.length_le
      have hpos := length_pos_of_ne_nil hn
      rw [length_tail] at hle
      omega
    rw [if_neg hn, DiagStreamParser.unescape, hloop, map_some, bind_some]
    rw [hdrop]
    cases dst with
    | none => exact ih hlen (c := ⟨p, c.sink⟩) hc htrans
    | some dst =>
      dsimp only [toList_some, singleton_append]
      rw [RingBufSink.frames, if_neg (by rw [hc]; decide)]
      cases c.sink.frame writes dst with
      | none => exact ⟨rfl, by rintro c' ⟨⟩⟩
      | some k =>
        rw [bind_some, bind_some]
        by_cases hk : k.result.isSome = true
        · rw [if_pos hk, RingBufSink.frames_done hk]
          refine ⟨rfl, ?_⟩
          rintro c' ⟨⟩ hc'
          exact absurd (hk.symm.trans hc') (by decide)
        · rw [if_neg hk]
          exact ih hlen (c := ⟨p, k⟩) (Bool.eq_false_iff.mpr hk) htrans

theorem processAll_frames (writes : Nat → Int) {c : CpRingBufConsumer}
    (hc : c.sink.result.isSome = false)
    (h : transduce DiagStreamParser.byte c.parser chunks.flatten = some (q, dsts)) :
    (c.processAll writes chunks).map sink = c.sink.frames writes dsts := by
  induction chunks generalizing c dsts with
  | nil =>
    cases h
    rfl
  | cons src chunks ih =>
    rw [flatten_cons, transduce_append] at h
    obtain ⟨⟨p, first⟩, hfirst, hrest⟩ := bind_eq_some_iff.mp h
    obtain ⟨⟨q', later⟩, hlater, heq⟩ := map_eq_some_iff.mp hrest
    obtain ⟨rfl, rfl⟩ := Prod.mk.inj heq
    obtain ⟨hsink, hparser⟩ := processLoop_frames writes le_rfl hc hfirst
    rw [RingBufSink.frames_append, ← hsink, processAll, process, if_neg (by rw [hc]; decide)]
    cases hloop : processLoop writes src.length c src with
    | none => rfl
    | some c' =>
      rw [bind_some, map_some, bind_some]
      by_cases hk : c'.sink.result.isSome = true
      · rw [RingBufSink.frames_done hk]
        have hdone : c'.processAll writes chunks = some c' := by
          clear ih hlater hrest h
          induction chunks with
          | nil => rfl
          | cons src chunks ih => rw [processAll, process, if_pos hk, bind_some, ih]
        rw [hdone]
        rfl
      · have hfalse := Bool.eq_false_iff.mpr hk
        refine ih hfalse ?_
        rw [hparser c' hloop hfalse]
        exact hlater

end CpRingBufConsumer

/-- The frame ends the transfer: it says so, or the file does not take its data. -/
def Ends (writes : Nat → Int) (count : Nat) (dst : List UInt8) : Prop :=
  dst[6]? = some diagReadRingBuffer ∧
    (isData dst = false ∨ writes count ≠ ((dst.length - 8 : Nat) : Int))

theorem isData_of_ne (h : dst[7]? ≠ some diagDataRingBuffer) : isData dst = false :=
  decide_eq_false fun hd => h hd.2

theorem RingBufSink.length_pool (hk : k.pool.length = poolSize)
    (hpool : dst.length ≤ poolSize) : (dst ++ k.pool.drop dst.length).length = poolSize := by
  rw [length_append, length_drop]
  omega

theorem RingBufSink.frame_spec (writes : Nat → Int)
    (hk : k.pool.length = poolSize) (hheader : 8 ≤ dst.length) (hpool : dst.length ≤ poolSize) :
    ∃ k', k.frame writes dst = some k' ∧ k'.pool = dst ++ k.pool.drop dst.length ∧
      k'.written = k.written ++ (if isData dst then [dst.drop 8] else []) ∧
      (k'.result ≠ none → Ends writes k.written.length dst) := by
  have hlen := RingBufSink.length_pool hk hpool
  have hsize : payloadLen dst.length = dst.length - 8 := by
    have hsize : poolSize = 65536 := rfl
    rw [payloadLen]
    omega
  have hsix : (dst ++ k.pool.drop dst.length)[6]? = dst[6]? :=
    getElem?_append_left (by omega)
  have hseven : (dst ++ k.pool.drop dst.length)[7]? = dst[7]? :=
    getElem?_append_left (by omega)
  have hpayload : ((dst ++ k.pool.drop dst.length).drop 8).take (dst.length - 8) = dst.drop 8 := by
    rw [drop_append_of_le_length hheader, take_left' length_drop]
  rw [RingBufSink.frame]
  rw [hsix, hseven, hsize, hpayload]
  split
  case isFalse htype =>
    have hdata : isData dst = false := decide_eq_false fun hd => htype hd.1
    refine ⟨_, rfl, rfl, ?_, fun h => absurd rfl h⟩
    rw [hdata, if_neg Bool.false_ne_true, append_nil]
  case isTrue htype =>
    split
    case isTrue hok =>
      have hdata : isData dst = false := isData_of_ne (by rw [hok]; decide)
      refine ⟨_, rfl, rfl, ?_, fun _ => ⟨htype, .inl hdata⟩⟩
      rw [hdata, if_neg Bool.false_ne_true, append_nil]
    · split
      case isTrue hsub =>
        have hdata : isData dst = true := decide_eq_true ⟨htype, hsub⟩
        rw [if_neg (by omega), hdata, if_pos rfl]
        split
        · exact ⟨_, rfl, rfl, rfl, fun h => absurd rfl h⟩
        case isFalse hwrite => exact ⟨_, rfl, rfl, rfl, fun _ => ⟨htype, .inr hwrite⟩⟩
      case isFalse hsub =>
        have hdata : isData dst = false := isData_of_ne hsub
        refine ⟨_, rfl, rfl, ?_, fun _ => ⟨htype, .inl hdata⟩⟩
        rw [hdata, if_neg Bool.false_ne_true, append_nil]

def payloads (dsts : List (List UInt8)) : List (List UInt8) := (dsts.filter isData).map (·.drop 8)

theorem payloads_cons (dst : List UInt8) (dsts : List (List UInt8)) :
    payloads (dst :: dsts) = (if isData dst then [dst.drop 8] else []) ++ payloads dsts := by
  rw [payloads, filter_cons]
  split <;> rfl

theorem RingBufSink.frames_spec (writes : Nat → Int)
    (hk : k.pool.length = poolSize) (hresult : k.result = none)
    (hheader : ∀ dst ∈ dsts, 8 ≤ dst.length) (hpool : ∀ dst ∈ dsts, dst.length ≤ poolSize) :
    ∃ k' n, k.frames writes dsts = some k' ∧ k'.written = k.written ++ payloads (dsts.take n) ∧
      (k'.result = none ∧ n = dsts.length ∨ ∃ m dst, n = m + 1 ∧ dsts[m]? = some dst ∧
          Ends writes (k.written ++ payloads (dsts.take m)).length dst) := by
  induction dsts generalizing k with
  | nil => exact ⟨k, 0, rfl, (append_nil _).symm, .inl ⟨hresult, rfl⟩⟩
  | cons dst dsts ih =>
    obtain ⟨k₁, hframe, hpool₁, hwritten, hends⟩ :=
      k.frame_spec writes hk (hheader dst (.head dsts)) (hpool dst (.head dsts))
    have hk₁ : k₁.pool.length = poolSize :=
      hpool₁ ▸ RingBufSink.length_pool hk (hpool dst (.head dsts))
    rw [RingBufSink.frames, if_neg (by rw [hresult]; decide), hframe, bind_some]
    by_cases hdone : k₁.result = none
    · obtain ⟨k', n, hframes, hwritten', hend⟩ := ih hk₁ hdone
        (fun d hd => hheader d (.tail dst hd)) (fun d hd => hpool d (.tail dst hd))
      have happend (m : Nat) : k₁.written ++ payloads (dsts.take m) =
          k.written ++ payloads ((dst :: dsts).take (m + 1)) := by
        rw [take_succ_cons, payloads_cons, hwritten, append_assoc]
      refine ⟨k', n + 1, hframes, hwritten'.trans (happend n), ?_⟩
      rcases hend with ⟨hnone, rfl⟩ | ⟨m, d, rfl, hd, hend⟩
      · exact .inl ⟨hnone, rfl⟩
      · exact .inr ⟨m + 1, d, rfl, hd, happend m ▸ hend⟩
    · have hsome : k₁.result.isSome = true := isSome_iff_ne_none.mpr hdone
      refine ⟨k₁, 1, RingBufSink.frames_done hsome writes dsts, ?_, .inr ⟨0, dst, rfl, rfl, ?_⟩⟩
      · rw [hwritten, take_succ_cons, take_zero, payloads_cons]
        exact congrArg _ (append_nil _).symm
      · rw [take_zero]
        exact (append_nil k.written).symm ▸ hends hdone

namespace CpRingBufConsumer

theorem written_payloads (writes : Nat → Int) (pool : List UInt8) (chunks : List (List UInt8))
    (hpool : pool.length = poolSize) (hfits : StreamFits chunks.flatten) :
    ∃ c n, (new pool).processAll writes chunks = some c ∧
      c.sink.written = payloads ((completeFrames chunks.flatten).take n) ∧
      (c.sink.result = none ∧ n = (completeFrames chunks.flatten).length ∨
        ∃ m dst, n = m + 1 ∧ (completeFrames chunks.flatten)[m]? = some dst ∧
          Ends writes (payloads ((completeFrames chunks.flatten).take m)).length dst) := by
  obtain ⟨q, htrans⟩ := DiagStreamParser.transduce_scan (p := .init) hfits.pool hfits.tail
  have hframes := processAll_frames writes (c := new pool) rfl htrans
  obtain ⟨k, n, hk, hwritten, hend⟩ := RingBufSink.frames_spec writes (k := (new pool).sink) hpool
    rfl hfits.header hfits.pool
  obtain ⟨c, hc, hsink⟩ := map_eq_some_iff.mp (hframes.trans hk)
  exact ⟨c, n, hc, hsink ▸ hwritten, hsink ▸ hend⟩

/-- Two data frames and the answer that ends the transfer, the second frame cut in two. -/
theorem two_frames_written : ∃ c n,
    (new (List.replicate poolSize 0)).processAll (fun _ => 2)
      [[0x7e, 0, 0, 0, 0, 10, 0, 58, 100, 1, 2, 0x7e, 0x7e, 0, 0, 0, 0, 10],
        [0, 58, 100, 3, 0x7d, 0x5e, 0x7e], [0x7e, 0, 0, 0, 0, 8, 0, 58, 1, 0x7e, 9]] = some c ∧
      c.sink.written = payloads ([[0, 0, 0, 0, 10, 0, 58, 100, 1, 2],
        [0, 0, 0, 0, 10, 0, 58, 100, 3, 0x7e], [0, 0, 0, 0, 8, 0, 58, 1]].take n) := by
  have hfits : StreamFits
      [[0x7e, 0, 0, 0, 0, 10, 0, 58, 100, 1, 2, 0x7e, 0x7e, 0, 0, 0, 0, 10],
        [0, 58, 100, 3, 0x7d, 0x5e, 0x7e], [0x7e, 0, 0, 0, 0, 8, 0, 58, 1, 0x7e, 9]].flatten :=
    ⟨by decide, by decide, by decide⟩
  obtain ⟨c, n, hc, hwritten, -⟩ :=
    written_payloads (fun _ => 2) _ _ length_replicate hfits
  exact ⟨c, n, hc, hwritten⟩

theorem unescapeLoop_overflow (hp : p.Inside)
    (hlen : poolSize < p.pool.toList.length + n) :
    p.unescapeLoop (List.replicate n 0) = none := by
  induction n generalizing p with
  | zero => exact absurd p.pool.length_le (not_le.mpr hlen)
  | succ n ih =>
    have hstep : p.unescapeLoop (0 :: List.replicate n 0) =
        (p.keep 0).bind fun q => q.unescapeLoop (List.replicate n 0) := by
      rw [DiagStreamParser.unescapeLoop.eq_def]
      dsimp only
      split
      · rename_i hs
        exact absurd hs hp.1
      · rename_i hs
        exact absurd hs hp.2
      · rw [if_neg (by decide), if_neg (by decide)]
    rw [replicate_succ, hstep]
    cases hkeep : p.keep 0 with
    | none => rfl
    | some q =>
      obtain ⟨pool, hpush, rfl⟩ := map_eq_some_iff.mp hkeep
      refine ih ⟨nofun, nofun⟩ ?_
      have hpool := congrArg List.length (Bounded.toList_of_push hpush)
      rw [length_append, length_singleton] at hpool
      dsimp only
      omega

theorem process_overflow {c : CpRingBufConsumer} (hn : poolSize < n) (hp : c.parser = .init)
    (hc : c.sink.result = none) (writes : Nat → Int) :
    c.process writes (0x7e :: List.replicate n 0) = none := by
  have hopen (src : List UInt8) : DiagStreamParser.init.unescapeLoop (0x7e :: src) =
      DiagStreamParser.unescapeLoop ⟨.ready, .empty _ _⟩ src := rfl
  have hloop : DiagStreamParser.init.unescapeLoop (0x7e :: List.replicate n 0) = none := by
    rw [hopen]
    refine unescapeLoop_overflow ⟨nofun, nofun⟩ ?_
    rw [Bounded.empty_toList]
    exact Nat.lt_add_left _ hn
  rw [process, if_neg (by rw [hc]; decide), length_cons, processLoop,
    if_neg (cons_ne_nil _ _), DiagStreamParser.unescape, hp, hloop]
  rfl

/-- Behind a data frame without payload, a frame of one byte is taken for one, with more payload
than the pool has. And a frame that is never closed is stored beyond the pool. -/
theorem short_frame_misread :
    (new (List.replicate poolSize 0)).processAll (fun _ => 0)
        [[0x7e, 0, 0, 0, 0, 8, 0, 58, 100, 0x7e, 0x7e, 7, 0x7e]] = none ∧
      (new (List.replicate poolSize 0)).processAll (fun _ => 0)
        [0x7e :: List.replicate (poolSize + 1) 0] = none := by
  refine ⟨?_, ?_⟩
  · rw [← isNone_iff_eq_none]
    decide +kernel
  · rw [processAll, process_overflow (Nat.lt_succ_self poolSize) rfl rfl]
    rfl

end CpRingBufConsumer

end SprdVendor.SlogModem
