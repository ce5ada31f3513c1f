import Mathlib

namespace SprdVendor.EngMode
open List

def dataExtDiagSize : Nat := 4096 * 4

def diagBufSize : Nat := 20

def getUserDiagBuf (ext : List UInt8) : List UInt8 → List UInt8 × Bool
  | [] => (ext, false)
  | b :: buf =>
    if b = 0x7e ∧ ext = [] then getUserDiagBuf (ext ++ [b]) buf
    else if ext ≠ [] ∧ ext.length < dataExtDiagSize then
      if b = 0x7e then (ext ++ [b], true) else getUserDiagBuf (ext ++ [b]) buf
    else getUserDiagBuf ext buf

inductive DiagStatus where
  | recvToAp
  | recvToCp
deriving DecidableEq, Repr

/-- What the thread asks of other code: whether `eng_diag` has processed a frame, whether
`eng_diag_parse` finds a header to be `CMD_COMMON`, and `g_ap_cali_flag`. -/
structure DiagEnv where
  engDiag : List UInt8 → Bool
  isCommon : List UInt8 → Bool
  apCali : Bool

structure Vdiag where
  ext : List UInt8
  status : DiagStatus
  handled : List (List UInt8)
  toModem : List (List UInt8)
deriving DecidableEq

namespace Vdiag

def init : Vdiag := ⟨[], .recvToAp, [], []⟩

def write (env : DiagEnv) (s : Vdiag) (data : List UInt8) : Vdiag :=
  if env.apCali then s else { s with toModem := s.toModem ++ [data] }

def read (env : DiagEnv) (s : Vdiag) (r : List UInt8) : Vdiag :=
  match s.status with
  | .recvToCp =>
    { s with status := if r.getLast? = some 0x7e then .recvToAp else .recvToCp }.write env r
  | .recvToAp =>
    match getUserDiagBuf s.ext r with
    | (ext, true) =>
      let t : Vdiag := { s with ext := [], handled := s.handled ++ [ext] }
      if env.engDiag ext then t else t.write env ext
    | (ext, false) =>
      if ext = [] then { s with ext := [] }.write env r
      else if dataExtDiagSize / 2 ≤ ext.length then
        if env.isCommon (ext.take diagBufSize) then
          { s with ext := [], status := .recvToCp }.write env ext
        else { s with ext := ext }
      else { s with ext := ext }

def reads (env : DiagEnv) (s : Vdiag) (rs : List (List UInt8)) : Vdiag := rs.foldl (read env) s

end Vdiag

def scanByte (pending : List UInt8) (b : UInt8) : List UInt8 × List (List UInt8) :=
  if pending = [] then (if b = 0x7e then [b] else [], [])
  else if b = 0x7e then ([], [pending ++ [b]])
  else (pending ++ [b], [])

/-- The diag frames of a stream, from one flag to the next, and what is pending at its end. -/
def scan (pending : List UInt8) : List UInt8 → List UInt8 × List (List UInt8)
  | [] => (pending, [])
  | b :: s =>
    ((scan (scanByte pending b).1 s).1, (scanByte pending b).2 ++ (scan (scanByte pending b).1 s).2)

def Waits (env : DiagEnv) (u : List UInt8) : Prop :=
  u.length < dataExtDiagSize / 2 ∨
    env.isCommon (u.take diagBufSize) = false ∧ u.length ≤ dataExtDiagSize

/-- A read behind which nothing is lost: no byte follows the end of a frame in it, that frame fits
the buffer, and the thread waits for the rest of a frame that does not end in it. -/
structure ReadOk (env : DiagEnv) (pending r : List UInt8) : Prop where
  no_tail : ∀ p q, r = p ++ q → q ≠ [] → (scan pending p).2 = []
  fits : ∀ f ∈ (scan pending r).2, f.length ≤ dataExtDiagSize
  waits : Waits env (scan pending r).1

def ReadsOk (env : DiagEnv) (pending : List UInt8) : List (List UInt8) → Prop
  | [] => True
  | r :: rs => ReadOk env pending r ∧ ReadsOk env (scan pending r).1 rs

theorem scan_append (pending s t : List UInt8) :
    scan pending (s ++ t) =
      ((scan (scan pending s).1 t).1, (scan pending s).2 ++ (scan (scan pending s).1 t).2) := by
  induction s generalizing pending with
  | nil => rfl
  | cons b s ih => simp [scan, ih]

theorem scanByte_flag (h : pending ≠ []) : scanByte pending 0x7e = ([], [pending ++ [0x7e]]) := by
  rw [scanByte, if_neg h, if_pos rfl]

theorem scanByte_plain (h : pending ≠ []) (hb : b ≠ 0x7e) :
    scanByte pending b = (pending ++ [b], []) := by
  rw [scanByte, if_neg h, if_neg hb]

theorem getUserDiagBuf_start (buf : List UInt8) :
    getUserDiagBuf [] (0x7e :: buf) = getUserDiagBuf [0x7e] buf := by
  rw [getUserDiagBuf, if_pos ⟨rfl, rfl⟩, nil_append]

theorem getUserDiagBuf_junk (hb : b ≠ 0x7e) (buf : List UInt8) :
    getUserDiagBuf [] (b :: buf) = getUserDiagBuf [] buf := by
  rw [getUserDiagBuf, if_neg (fun h => hb h.1), if_neg (fun h => h.1 rfl)]

theorem getUserDiagBuf_end (h : ext ≠ []) (hlen : ext.length < dataExtDiagSize) (buf : List UInt8) :
    getUserDiagBuf ext (0x7e :: buf) = (ext ++ [0x7e], true) := by
  rw [getUserDiagBuf, if_neg (fun h' => h h'.2), if_pos ⟨h, hlen⟩, if_pos rfl]

theorem getUserDiagBuf_more (h : ext ≠ []) (hlen : ext.length < dataExtDiagSize) (hb : b ≠ 0x7e)
    (buf : List UInt8) : getUserDiagBuf ext (b :: buf) = getUserDiagBuf (ext ++ [b]) buf := by
  rw [getUserDiagBuf, if_neg (fun h' => h h'.2), if_pos ⟨h, hlen⟩, if_neg hb]

theorem getUserDiagBuf_full (h : ext ≠ []) (hlen : ¬ ext.length < dataExtDiagSize) (b : UInt8)
    (buf : List UInt8) : getUserDiagBuf ext (b :: buf) = getUserDiagBuf ext buf := by
  rw [getUserDiagBuf, if_neg (fun h' => h h'.2), if_neg (fun h' => hlen h'.2)]

theorem scan_pending (h : pending ≠ []) (r : List UInt8) :
    scan pending r = (pending ++ r, []) ∨
      ∃ f fs, (scan pending r).2 = f :: fs ∧ pending.length < f.length := by
  induction r generalizing pending with
  | nil => exact .inl (by rw [scan, append_nil])
  | cons b r ih =>
    by_cases hb : b = 0x7e
    · subst hb
      refine .inr ⟨pending ++ [0x7e], (scan [] r).2, ?_, ?_⟩
      · rw [scan, scanByte_flag h]
        rfl
      · rw [length_append, length_singleton]
        omega
    have hne : pending ++ [b] ≠ [] := append_ne_nil_of_left_ne_nil h _
    have hscan : scan pending (b :: r) = scan (pending ++ [b]) r := by
      rw [scan, scanByte_plain h hb]
      rfl
    rw [hscan]
    rcases ih hne with ih | ⟨f, fs, hf, hlen⟩
    · exact .inl (by rw [ih, append_assoc, singleton_append])
    · rw [length_append, length_singleton] at hlen
      exact .inr ⟨f, fs, hf, by omega⟩

theorem no_tail_cons (h : ∀ p q, b :: r = p ++ q → q ≠ [] → (scan pending p).2 = []) :
    ∀ p q, r = p ++ q → q ≠ [] → (scan (scanByte pending b).1 p).2 = [] := by
  intro p q hr hq
  have hp := h (b :: p) q (by rw [hr]; rfl) hq
  rw [scan, append_eq_nil_iff] at hp
  exact hp.2

theorem getUserDiagBuf_eq (r : List UInt8)
    (htail : ∀ p q, r = p ++ q → q ≠ [] → (scan pending p).2 = [])
    (hfits : ∀ f ∈ (scan pending r).2, f.length ≤ dataExtDiagSize)
    (hu : (scan pending r).1.length ≤ dataExtDiagSize) :
    (scan pending r).2 = [] ∧ getUserDiagBuf pending r = ((scan pending r).1, false) ∨
      ∃ f, scan pending r = ([], [f]) ∧ getUserDiagBuf pending r = (f, true) := by
  induction r generalizing pending with
  | nil => exact .inl ⟨rfl, rfl⟩
  | cons b r ih =>
    have htail' := no_tail_cons htail
    by_cases hp : pending = []
    · subst hp
      have hscan : scan [] (b :: r) = scan (scanByte [] b).1 r := by
        rw [scan, scanByte, if_pos rfl]
        rfl
      have hget : getUserDiagBuf [] (b :: r) = getUserDiagBuf (scanByte [] b).1 r := by
        rw [scanByte, if_pos rfl]
        split
        · rename_i hb
          rw [hb, getUserDiagBuf_start]
        · rename_i hb
          rw [getUserDiagBuf_junk hb]
      rw [hscan] at hfits hu ⊢
      rw [hget]
      exact ih htail' hfits hu
    · have hlen : pending.length < dataExtDiagSize := by
        rcases scan_pending hp (b :: r) with h | ⟨f, fs, hf, h⟩
        · rw [h, length_append, length_cons] at hu
          omega
        · have := hfits f (by rw [hf]; exact mem_cons_self)
          omega
      by_cases hb : b = 0x7e
      · subst hb
        have hr : r = [] := by
          by_contra hr
          have h := htail [0x7e] r rfl hr
          rw [scan, scanByte_flag hp] at h
          cases h
        subst hr
        refine .inr ⟨pending ++ [0x7e], ?_, getUserDiagBuf_end hp hlen []⟩
        rw [scan, scanByte_flag hp]
        rfl
      · have hscan : scan pending (b :: r) = scan (pending ++ [b]) r := by
          rw [scan, scanByte_plain hp hb]
          rfl
        rw [scanByte_plain hp hb] at htail'
        rw [hscan] at hfits hu ⊢
        rw [getUserDiagBuf_more hp hlen hb]
        exact ih htail' hfits hu

theorem Waits.length_le (h : Waits env u) : u.length ≤ dataExtDiagSize := by
  rcases h with h | h
  · exact Nat.le_of_lt (Nat.lt_of_lt_of_le h (Nat.div_le_self _ _))
  · exact h.2

namespace Vdiag

@[simp] theorem write_ext (env : DiagEnv) (s : Vdiag) (d : List UInt8) :
    (s.write env d).ext = s.ext := by
  rw [write]
  split <;> rfl

@[simp] theorem write_status (env : DiagEnv) (s : Vdiag) (d : List UInt8) :
    (s.write env d).status = s.status := by
  rw [write]
  split <;> rfl

@[simp] theorem write_handled (env : DiagEnv) (s : Vdiag) (d : List UInt8) :
    (s.write env d).handled = s.handled := by
  rw [write]
  split <;> rfl

theorem read_found (env : DiagEnv) (hs : s.status = .recvToAp) (h : getUserDiagBuf s.ext r = (f, true)) :
    (read env s r).ext = [] ∧ (read env s r).status = .recvToAp ∧
      (read env s r).handled = s.handled ++ [f] := by
  simp only [read, hs, h]
  split <;> simp

theorem read_waiting (hs : s.status = .recvToAp) (h : getUserDiagBuf s.ext r = (u, false))
    (hu : Waits env u) :
    (read env s r).ext = u ∧ (read env s r).status = .recvToAp ∧
      (read env s r).handled = s.handled := by
  simp only [read, hs, h]
  split_ifs with h₁ h₂ h₃
  · simp [h₁]
  · rcases hu with hu | hu
    · omega
    · rw [hu.1] at h₃
      cases h₃
  · exact ⟨rfl, rfl, rfl⟩
  · exact ⟨rfl, rfl, rfl⟩

theorem read_ok (hs : s.status = .recvToAp) (h : ReadOk env s.ext r) :
    (read env s r).ext = (scan s.ext r).1 ∧ (read env s r).status = .recvToAp ∧
      (read env s r).handled = s.handled ++ (scan s.ext r).2 := by
  rcases getUserDiagBuf_eq r h.no_tail h.fits h.waits.length_le with ⟨hscan, hget⟩ | ⟨f, hscan, hget⟩
  · rw [hscan, append_nil]
    exact read_waiting hs hget h.waits
  · rw [hscan]
    exact read_found env hs hget

theorem reads_ok (rs : List (List UInt8)) (hs : s.status = .recvToAp) (h : ReadsOk env s.ext rs) :
    (reads env s rs).handled = s.handled ++ (scan s.ext rs.flatten).2 := by
  induction rs generalizing s with
  | nil => exact (append_nil _).symm
  | cons r rs ih =>
    obtain ⟨hext, hstatus, hhandled⟩ := read_ok hs h.1
    have hrest := ih (s := read env s r) hstatus (by rw [hext]; exact h.2)
    rw [hext, hhandled] at hrest
    rw [flatten_cons, scan_append, ← append_assoc, ← hrest]
    rfl

end Vdiag

theorem length_getUserDiagBuf_le (ext r : List UInt8) :
    (getUserDiagBuf ext r).1.length ≤ ext.length + r.length := by
  induction r generalizing ext with
  | nil => exact le_refl _
  | cons b r ih =>
    have hmore := ih (ext ++ [b])
    have hskip := ih ext
    rw [length_append, length_singleton] at hmore
    rw [getUserDiagBuf, length_cons]
    split_ifs
    · omega
    · rw [length_append, length_singleton]
      omega
    · omega
    · omega

theorem scan_of_stored (r : List UInt8) (hext : ext.length ≤ dataExtDiagSize)
    (h : (getUserDiagBuf ext r).1.length = ext.length + r.length) :
    (∀ p q, r = p ++ q → q ≠ [] → (scan ext p).2 = []) ∧
      (getUserDiagBuf ext r).1.length ≤ dataExtDiagSize ∧
      scan ext r = if (getUserDiagBuf ext r).2 then ([], [(getUserDiagBuf ext r).1])
        else ((getUserDiagBuf ext r).1, []) := by
  induction r generalizing ext with
  | nil =>
    refine ⟨?_, hext, rfl⟩
    intro p q hr hq
    exact absurd (append_eq_nil_iff.mp hr.symm).2 hq
  | cons b r ih =>
    -- the byte `b` goes into the buffer and the search goes on
    have hstep : ∀ e, scanByte ext b = (e, []) → e.length = ext.length + 1 →
        e.length ≤ dataExtDiagSize → getUserDiagBuf ext (b :: r) = getUserDiagBuf e r →
        (∀ p q, b :: r = p ++ q → q ≠ [] → (scan ext p).2 = []) ∧
          (getUserDiagBuf ext (b :: r)).1.length ≤ dataExtDiagSize ∧
          scan ext (b :: r) = if (getUserDiagBuf ext (b :: r)).2
            then ([], [(getUserDiagBuf ext (b :: r)).1])
            else ((getUserDiagBuf ext (b :: r)).1, []) := by
      intro e hbyte hlen hsize hget
      rw [hget] at h ⊢
      rw [length_cons] at h
      obtain ⟨htail, hfits, hscan⟩ := ih hsize (by omega)
      refine ⟨?_, hfits, ?_⟩
      · intro p q hr hq
        cases p with
        | nil => rfl
        | cons c p =>
          obtain ⟨rfl, hr'⟩ := cons.inj hr
          rw [scan, hbyte, htail p q hr' hq]
          rfl
      · rw [← hscan, scan, hbyte]
        rfl
    have hlost := length_getUserDiagBuf_le ext r
    rw [length_cons] at h
    by_cases he : ext = []
    · subst he
      by_cases hb : b = 0x7e
      · subst hb
        exact hstep [0x7e] rfl rfl (by decide) (getUserDiagBuf_start r)
      · rw [getUserDiagBuf_junk hb] at h
        omega
    by_cases hlen : ext.length < dataExtDiagSize
    · by_cases hb : b = 0x7e
      · subst hb
        have hget := getUserDiagBuf_end he hlen r
        rw [hget, length_append, length_singleton] at h
        have hr := eq_nil_of_length_eq_zero (show r.length = 0 by omega)
        subst hr
        rw [hget]
        refine ⟨?_, by rw [length_append, length_singleton]; exact hlen, ?_⟩
        · intro p q hr hq
          cases p with
          | nil => rfl
          | cons c p =>
            have hnil := (cons.inj hr).2
            exact absurd (append_eq_nil_iff.mp hnil.symm).2 hq
        · rw [scan, scanByte_flag he]
          rfl
      · exact hstep (ext ++ [b]) (scanByte_plain he hb) length_append
          (by rw [length_append, length_singleton]; exact hlen)
          (getUserDiagBuf_more he hlen hb r)
    · rw [getUserDiagBuf_full he hlen] at h
      omega

namespace Vdiag

def stored (s : Vdiag) : Nat := (s.handled.map List.length).sum + s.ext.length

theorem stored_read_le (env : DiagEnv) (s : Vdiag) (r : List UInt8) :
    (read env s r).stored ≤ s.stored + r.length := by
  have hlen := length_getUserDiagBuf_le s.ext r
  cases hs : s.status with
  | recvToCp => simp [read, hs, stored]
  | recvToAp =>
    cases hget : getUserDiagBuf s.ext r with
    | mk ext found =>
      rw [hget] at hlen
      dsimp only at hlen
      cases found with
      | true =>
        obtain ⟨hext, -, hhandled⟩ := read_found env hs hget
        rw [stored, hext, hhandled, stored]
        simp
        omega
      | false =>
        simp only [read, hs, hget, stored]
        split_ifs <;> simp <;> omega

theorem readOk_of_stored (env : DiagEnv) (hr : r ≠ []) (hext : s.ext.length ≤ dataExtDiagSize)
    (h : (read env s r).stored = s.stored + r.length) :
    s.status = .recvToAp ∧ ReadOk env s.ext r := by
  have hpos := length_pos_of_ne_nil hr
  cases hs : s.status with
  | recvToCp =>
    simp [read, hs, stored] at h
    exact absurd h hr
  | recvToAp =>
    refine ⟨rfl, ?_⟩
    have hlen := length_getUserDiagBuf_le s.ext r
    have hscan := scan_of_stored r hext
    cases hget : getUserDiagBuf s.ext r with
    | mk ext found =>
      rw [hget] at hlen hscan
      dsimp only at hlen hscan
      cases found with
      | true =>
        obtain ⟨hext', -, hhandled⟩ := read_found env hs hget
        rw [stored, hext', hhandled, stored] at h
        simp only [map_append, map_cons, map_nil, sum_append, sum_singleton, length_nil] at h
        obtain ⟨htail, hfits, heq⟩ := hscan (by omega)
        rw [if_pos rfl] at heq
        refine ⟨htail, ?_, ?_⟩
        · rw [heq]
          intro f hf
          rw [mem_singleton.mp hf]
          exact hfits
        · rw [heq]
          exact .inl (show 0 < dataExtDiagSize / 2 by decide)
      | false =>
        have hwait : ext.length = s.ext.length + r.length → Waits env ext → ReadOk env s.ext r := by
          intro hl hw
          obtain ⟨htail, -, heq⟩ := hscan hl
          rw [if_neg (by decide)] at heq
          refine ⟨htail, ?_, ?_⟩
          · rw [heq]
            exact forall_mem_nil _
          · rw [heq]
            exact hw
        have hsize : ext.length = s.ext.length + r.length → ext.length ≤ dataExtDiagSize :=
          fun hl => (hscan hl).2.1
        simp only [read, hs, hget, stored] at h
        split_ifs at h with h₁ h₂ h₃ <;>
          simp only [write_handled, write_ext, length_nil] at h
        · omega
        · omega
        · have hl : ext.length = s.ext.length + r.length := by omega
          exact hwait hl (.inr ⟨Bool.eq_false_iff.mpr h₃, hsize hl⟩)
        · exact hwait (by omega) (.inl (by omega))

theorem stored_reads_le (env : DiagEnv) (s : Vdiag) (rs : List (List UInt8)) :
    (reads env s rs).stored ≤ s.stored + rs.flatten.length := by
  induction rs generalizing s with
  | nil => exact le_refl _
  | cons r rs ih =>
    have hr := stored_read_le env s r
    have hrest := ih (read env s r)
    rw [flatten_cons, length_append]
    rw [reads, foldl_cons]
    rw [reads] at hrest
    omega

theorem readsOk_of_stored (env : DiagEnv) (s : Vdiag) (rs : List (List UInt8)) (hne : ∀ r ∈ rs, r ≠ [])
    (hext : s.ext.length ≤ dataExtDiagSize)
    (h : (reads env s rs).stored = s.stored + rs.flatten.length) : ReadsOk env s.ext rs := by
  induction rs generalizing s with
  | nil => trivial
  | cons r rs ih =>
    rw [forall_mem_cons] at hne
    have hr := stored_read_le env s r
    have hrest := stored_reads_le env (read env s r) rs
    rw [flatten_cons, length_append, reads, foldl_cons, ← reads] at h
    obtain ⟨hs, hok⟩ := readOk_of_stored env hne.1 hext (by omega)
    obtain ⟨hext', -, -⟩ := read_ok hs hok
    refine ⟨hok, ?_⟩
    rw [← hext']
    exact ih _ hne.2 (by rw [hext']; exact hok.waits.length_le) (by omega)

end Vdiag

structure UserFrame where
  body : List UInt8
  flag_notMem : 0x7e ∉ body

def UserFrame.bytes (f : UserFrame) : List UInt8 := 0x7e :: f.body ++ [0x7e]

theorem scan_body (h : pending ≠ []) (hbody : 0x7e ∉ body) (s : List UInt8) :
    scan pending (body ++ s) = scan (pending ++ body) s := by
  induction body generalizing pending with
  | nil => rw [nil_append, append_nil]
  | cons b body ih =>
    rw [mem_cons, not_or] at hbody
    rw [cons_append, scan, scanByte_plain h (Ne.symm hbody.1),
      ih (append_ne_nil_of_left_ne_nil h _) hbody.2, append_assoc, singleton_append]
    rfl

theorem scan_frame (f : UserFrame) (s : List UInt8) :
    scan [] (f.bytes ++ s) = ((scan [] s).1, f.bytes :: (scan [] s).2) := by
  have hstart : scan [] (f.bytes ++ s) = scan [0x7e] (f.body ++ ([0x7e] ++ s)) := by
    rw [UserFrame.bytes, append_assoc, cons_append]
    rfl
  rw [hstart, scan_body (cons_ne_nil _ _) f.flag_notMem]
  rw [singleton_append, singleton_append, scan, scanByte_flag (cons_ne_nil _ _)]
  rfl

theorem scan_frames (fs : List UserFrame) :
    scan [] (fs.map UserFrame.bytes).flatten = ([], fs.map UserFrame.bytes) := by
  induction fs with
  | nil => rfl
  | cons f fs ih => rw [map_cons, flatten_cons, scan_frame, ih]

/-- Reads behind which nothing is lost give `eng_diag` the frames of the stream; and a stream of
frames is given to it frame by frame only by such reads. -/
theorem frames_handled_iff (env : DiagEnv) (rs : List (List UInt8)) (hne : ∀ r ∈ rs, r ≠ []) :
    (ReadsOk env [] rs → (Vdiag.init.reads env rs).handled = (scan [] rs.flatten).2) ∧
      ∀ fs : List UserFrame, rs.flatten = (fs.map UserFrame.bytes).flatten →
        ((Vdiag.init.reads env rs).handled = fs.map UserFrame.bytes ↔ ReadsOk env [] rs) := by
  have hforward : ReadsOk env [] rs →
      (Vdiag.init.reads env rs).handled = (scan [] rs.flatten).2 := by
    intro h
    exact Vdiag.reads_ok rs rfl h
  refine ⟨hforward, ?_⟩
  intro fs hfs
  constructor
  · intro h
    have hle := Vdiag.stored_reads_le env Vdiag.init rs
    have hlen : rs.flatten.length = ((fs.map UserFrame.bytes).map List.length).sum := by
      rw [hfs, length_flatten]
    have hinit : Vdiag.init.stored = 0 := rfl
    apply Vdiag.readsOk_of_stored env Vdiag.init rs hne (Nat.zero_le _)
    rw [Vdiag.stored, h] at hle ⊢
    omega
  · intro h
    rw [hforward h, hfs, scan_frames]

def sampleDiagEnv : DiagEnv := ⟨fun _ => true, fun _ => true, false⟩

def sampleUserFrames : List UserFrame := [⟨[0x41], by decide⟩, ⟨[0x42, 0x43], by decide⟩]

/-- A frame may be cut by a read as long as no read goes on behind a frame. -/
theorem frames_handled_of_cut_frame :
    ReadsOk sampleDiagEnv [] [[0x7e], [0x41, 0x7e], [0x7e, 0x42], [0x43, 0x7e]] ∧
      (Vdiag.init.reads sampleDiagEnv [[0x7e], [0x41, 0x7e], [0x7e, 0x42], [0x43, 0x7e]]).handled =
        sampleUserFrames.map UserFrame.bytes := by
  have h := (frames_handled_iff sampleDiagEnv [[0x7e], [0x41, 0x7e], [0x7e, 0x42], [0x43, 0x7e]]
    (by decide)).2 sampleUserFrames rfl
  exact ⟨h.mp rfl, rfl⟩

/-- The second of two frames in one read is not handled. -/
theorem second_frame_of_read_is_lost :
    (sampleUserFrames.map UserFrame.bytes).flatten = [0x7e, 0x41, 0x7e, 0x7e, 0x42, 0x43, 0x7e] ∧
      (Vdiag.init.reads sampleDiagEnv [[0x7e, 0x41, 0x7e, 0x7e, 0x42, 0x43, 0x7e]]).handled =
        [[0x7e, 0x41, 0x7e]] ∧
      (Vdiag.init.reads sampleDiagEnv [[0x7e, 0x41, 0x7e, 0x7e, 0x42, 0x43, 0x7e]]).handled ≠
        sampleUserFrames.map UserFrame.bytes :=
  ⟨rfl, rfl, by decide⟩

end SprdVendor.EngMode
