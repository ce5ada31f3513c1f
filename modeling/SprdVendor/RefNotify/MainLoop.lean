import SprdVendor.Lib.Bytes
import SprdVendor.Lib.Run

namespace SprdVendor.RefNotify
open Lib List

/-- The main loop between two reads: the filled bytes of `buf`, what the modem has sent and is not
read yet, the bytes of the dispatched commands, and whether a read has stored bytes behind `buf`. -/
structure MainLoop where
  buf : List UInt8
  stream : List UInt8
  cmds : List (List UInt8)
  overrun : Bool
deriving DecidableEq

def headerSize : Nat := 8

def bufSize : Nat := 128

/-- The field `length` of the header. -/
def cmdLength (buf : List UInt8) : Nat := word buf 4

namespace MainLoop

def start (stream : List UInt8) : MainLoop := ⟨[], stream, [], false⟩

def wanted (s : MainLoop) : Nat :=
  if s.buf.length < headerSize then headerSize else cmdLength s.buf - s.buf.length

/-- A read that returns `num` bytes, or is interrupted and returns none. -/
def read (s : MainLoop) (num : Nat) : Option MainLoop :=
  if s.wanted < num ∨ s.stream.length < num ∨ s.overrun then none
  else
    let buf := s.buf ++ s.stream.take num
    let stream := s.stream.drop num
    if bufSize < buf.length then some ⟨buf, stream, s.cmds, true⟩
    else if buf.length < headerSize ∨ buf.length < cmdLength buf then
      some ⟨buf, stream, s.cmds, false⟩
    else some ⟨[], stream, s.cmds ++ [buf], false⟩

/-- A read of the header takes nothing behind the command. -/
def Inside (s : MainLoop) (num : Nat) : Prop :=
  s.buf.length + num ≤ cmdLength (s.buf ++ s.stream) ∨ num = 0

structure Command (c : List UInt8) : Prop where
  header : headerSize ≤ c.length
  length : cmdLength c = c.length
  fits : c.length ≤ bufSize

structure Inv (sent rest : List (List UInt8)) (s : MainLoop) : Prop where
  split : s.cmds ++ rest = sent
  bytes : s.buf ++ s.stream = rest.flatten
  within : ∀ c ∈ rest.head?, s.buf.length < c.length
  overrun : s.overrun = false

theorem cmdLength_append (h : headerSize ≤ c.length) (l : List UInt8) :
    cmdLength (c ++ l) = cmdLength c := word_append c l h

theorem Inv.read (h : Inv sent rest s) (hc : ∀ c ∈ rest, Command c) (hin : s.Inside num)
    (hr : s.read num = some t) : ∃ rest', rest' <:+ rest ∧ Inv sent rest' t := by
  obtain ⟨buf, stream, done, overrun⟩ := s
  obtain ⟨hcmds, hbytes, hwithin, rfl⟩ := h
  rw [MainLoop.read] at hr
  split at hr
  · cases hr
  rename_i hok
  simp only [not_or, not_lt] at hok
  cases rest with
  | nil =>
    obtain ⟨rfl, rfl⟩ := append_eq_nil_iff.1 hbytes
    have hnum : num = 0 := Nat.le_zero.1 hok.2.1
    subst hnum
    cases hr
    exact ⟨[], suffix_rfl, hcmds, rfl, hwithin, rfl⟩
  | cons c rest =>
    have hcmd := hc c mem_cons_self
    have hlen : buf.length < c.length := hwithin c rfl
    have hnum : buf.length + num ≤ c.length := by
      obtain hin | rfl := hin
      · rwa [hbytes, flatten_cons, cmdLength_append hcmd.header, hcmd.length] at hin
      · exact hlen.le
    -- what is read so far is the beginning of the command
    have hbuf : buf ++ stream.take num = c.take (buf.length + num) := by
      rw [← @take_append_of_le_length _ c rest.flatten _ hnum, ← flatten_cons, ← hbytes,
        take_append, take_of_length_le (Nat.le_add_right _ _), Nat.add_sub_cancel_left]
    have hrest : (buf ++ stream.take num) ++ stream.drop num = (c :: rest).flatten := by
      rw [append_assoc, take_append_drop, hbytes]
    have hsize : (buf ++ stream.take num).length = buf.length + num := by
      rw [hbuf, length_take, min_eq_left hnum]
    have hfits := hcmd.fits
    dsimp only at hr
    rw [hsize, if_neg (by omega)] at hr
    split at hr
    case isTrue hpart =>
      cases hr
      refine ⟨c :: rest, suffix_rfl, hcmds, hrest, fun c' hc' => ?_, rfl⟩
      cases hc'
      rw [hsize]
      by_contra hnot
      rw [hbuf, take_of_length_le (by omega), hcmd.length] at hpart
      have := hcmd.header
      omega
    case isFalse hwhole =>
      cases hr
      have hfull : buf.length + num = c.length := by
        rw [not_or, not_lt, not_lt] at hwhole
        have hlong := cmdLength_append (by rw [hsize]; exact hwhole.1) (stream.drop num)
        rw [hrest, flatten_cons, cmdLength_append hcmd.header, hcmd.length] at hlong
        omega
      rw [hbuf, take_of_length_le hfull.ge] at hrest ⊢
      refine ⟨rest, suffix_cons c rest, ?_, ?_, ?_, rfl⟩
      · rw [append_assoc, singleton_append, hcmds]
      · exact append_cancel_left hrest
      · intro c' hc'
        have := (hc c' (mem_cons_of_mem c (mem_of_mem_head? hc'))).header
        exact Nat.lt_of_lt_of_le (Nat.succ_pos 7) this

theorem commands_dispatched (cmds : List (List UInt8)) (hc : ∀ c ∈ cmds, Command c)
    (h : Run (Guarded Inside MainLoop.read) (start cmds.flatten) reads t) :
    t.cmds <+: cmds ∧ (t.stream = [] → t.cmds = cmds) ∧ t.buf.length ≤ bufSize ∧
      t.overrun = false := by
  have hinv : ∃ rest, rest <:+ cmds ∧ Inv cmds rest t := by
    refine Run.invariant (I := fun _ t => ∃ rest, rest <:+ cmds ∧ Inv cmds rest t) h
      ⟨cmds, suffix_rfl, rfl, rfl, fun c hc' => ?_, rfl⟩ ?_
    · have := (hc c (mem_of_mem_head? hc')).header
      exact Nat.lt_of_lt_of_le (Nat.succ_pos 7) this
    · rintro _ num s t ⟨rest, hsuf, hs⟩ ⟨hr, hin⟩
      obtain ⟨rest', hsuf', ht⟩ := hs.read (fun c hmem => hc c (hsuf.mem hmem)) hin hr
      exact ⟨rest', hsuf'.trans hsuf, ht⟩
  obtain ⟨rest, hsuf, hinv⟩ := hinv
  refine ⟨⟨rest, hinv.split⟩, fun hend => ?_, ?_, hinv.overrun⟩
  · cases rest with
    | nil => rw [← hinv.split, append_nil]
    | cons c rest =>
      -- a command that is not dispatched yet has bytes that are not read
      have hbytes := congrArg length hinv.bytes
      have hlen := hinv.within c rfl
      rw [hend, append_nil, flatten_cons, length_append] at hbytes
      omega
  · cases rest with
    | nil =>
      rw [(append_eq_nil_iff.1 hinv.bytes).1]
      exact Nat.zero_le _
    | cons c rest =>
      have hlen := hinv.within c rfl
      have hfits := (hc c (hsuf.mem mem_cons_self)).fits
      omega

instance (s : MainLoop) (num : Nat) : Decidable (s.Inside num) :=
  inferInstanceAs (Decidable (_ ∨ _))

def setTime : List UInt8 := [1, 0, 0, 0, 12, 0, 0, 0, 30, 59, 23, 0]

def getTime : List UInt8 := [3, 0, 0, 0, 8, 0, 0, 0]

theorem two_commands_dispatched :
    ∃ t, Run (Guarded Inside MainLoop.read) (start [setTime, getTime].flatten) [3, 5, 0, 4, 8] t ∧
      t.cmds = [setTime, getTime] := by
  refine exists_guarded_imp (P := fun t => t.stream = []) ?_ (by decide)
  intro t h hend
  refine (commands_dispatched _ (fun c hc => ?_) h).2.1 hend
  obtain rfl | rfl := mem_pair.1 hc
  · exact ⟨by decide, by decide, by decide⟩
  · exact ⟨by decide, by decide, by decide⟩

/-- A header that comes in two parts takes bytes of the command behind it, and a length over the
buffer is read whole. -/
theorem split_header_swallows :
    (∃ t, Run (Next MainLoop.read) (start (getTime ++ getTime)) [4, 8] t ∧
      t.cmds = [getTime ++ getTime.take 4] ∧ t.stream = getTime.drop 4) ∧
    ∃ t, Run (Next MainLoop.read)
      (start ([1, 0, 0, 0, 200, 0, 0, 0] ++ replicate 192 0)) [8, 192] t ∧ t.overrun = true :=
  ⟨exists_run_of_exec (by decide), exists_run_of_exec (by decide +kernel)⟩

end MainLoop
end SprdVendor.RefNotify
