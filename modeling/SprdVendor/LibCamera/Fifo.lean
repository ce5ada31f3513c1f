import SprdVendor.Lib.Ring
import SprdVendor.LibCamera.Msg

namespace SprdVendor.LibCamera
open Lib List

def CmrMsg.content (m : CmrMsg) : CmrMsg := { m with cmrPriv := none }

/-- The thread accounts for one queued message: it has not yet posted the semaphore for it, or has
been let through by the semaphore and not yet taken it. -/
def Pc.accounts : Pc → Bool
  | .getting _ | .posted _ _ _ => true
  | _ => false

namespace MsgCxt

def cell (s : MsgCxt) (i : Nat) : Option CmrMsg := (s.slots[i]?).map CmrMsgIn.msg

/-- The queue is the ring of the messages posted and not yet received. -/
structure Fifo (s : MsgCxt) : Prop where
  ring : RingLog s.cell s.count s.receivedLog.length s.postedLog
  read_eq : s.read = s.receivedLog.length % s.count
  write_eq : s.write = s.postedLog.length % s.count
  number_eq : s.number + s.receivedLog.length = s.postedLog.length
  received : s.receivedLog.map CmrMsg.content =
    (s.postedLog.take s.receivedLog.length).map CmrMsg.content

/-- The semaphore counts the queued messages that no thread accounts for. -/
def Tokens (s : MsgCxt) : Prop := s.number = s.msgSem + s.threads.countP Pc.accounts

theorem create_fifo (hn : 0 < n) (k : Nat) : (create n k).Fifo where
  ring := RingLog.empty _ (by rw [MsgCxt.count, create, length_replicate]; exact hn)
  read_eq := (Nat.zero_mod _).symm
  write_eq := (Nat.zero_mod _).symm
  number_eq := rfl
  received := rfl

theorem create_tokens (n k : Nat) : (create n k).Tokens := by
  rw [Tokens, create, countP_replicate]
  rfl

theorem count_pos (h : Fifo s) : 0 < s.count := by
  have := h.ring.le
  have := h.ring.room
  omega

theorem cell_modify (slots : List CmrMsgIn) (k i : Nat) (f : CmrMsgIn → CmrMsgIn) :
    ((slots.modify k f)[i]?).map CmrMsgIn.msg =
      if k = i then (slots[i]?).map (fun c => (f c).msg) else (slots[i]?).map CmrMsgIn.msg := by
  rw [getElem?_modify]
  split
  · cases slots[i]? <;> rfl
  · cases slots[i]? <;> rfl

theorem cell_modify_sem (slots : List CmrMsgIn) (k i : Nat) (f : Nat → Nat) :
    ((slots.modify k fun c => { c with sem := f c.sem })[i]?).map CmrMsgIn.msg =
      (slots[i]?).map CmrMsgIn.msg := by
  rw [cell_modify, ite_self]

theorem Fifo.number_lt (h : Fifo s) : s.number < s.count := by
  have := h.ring.room
  have := h.number_eq
  omega

theorem Fifo.next_write (h : Fifo s) : s.next s.write = (s.postedLog.length + 1) % s.count := by
  rw [next, h.write_eq]
  exact ring_next (count_pos h) _

theorem Fifo.next_read (h : Fifo s) : s.next s.read = (s.receivedLog.length + 1) % s.count := by
  rw [next, h.read_eq]
  exact ring_next (count_pos h) _

theorem Fifo.put (h : Fifo s) (hroom : s.number + 1 < s.count) (m : CmrMsg) (ori : Nat) :
    (s.put m ori).Fifo := by
  have hnum := h.number_eq
  have hcount : (s.put m ori).count = s.count := length_modify _ _ _
  have hnext := h.next_write
  have hne : s.next s.write ≠ s.read := by
    rw [hnext, h.read_eq]
    exact Ne.symm (mod_ne_mod (by omega) (by omega))
  have hlt : s.write < s.slots.length := by
    rw [h.write_eq]
    exact Nat.mod_lt _ (count_pos h)
  refine ⟨?_, ?_, ?_, ?_, ?_⟩
  · rw [hcount]
    apply h.ring.push (by omega)
    · rw [← h.write_eq]
      show ((s.slots.modify s.write _)[s.write]?).map CmrMsgIn.msg = _
      rw [cell_modify, if_pos rfl, getElem?_eq_getElem hlt]
      rfl
    intro i hi
    rw [← h.write_eq] at hi
    show ((s.slots.modify s.write _)[i]?).map CmrMsgIn.msg = _
    rw [cell_modify, if_neg (Ne.symm hi)]
    rfl
  · rw [hcount]
    exact h.read_eq
  · show (if s.next s.write = s.read then ori else s.next s.write) = _
    rw [if_neg hne, hnext, hcount]
    show _ = (s.postedLog ++ [m]).length % s.count
    rw [length_append, length_singleton]
  · show s.number + 1 + s.receivedLog.length = (s.postedLog ++ [m]).length
    rw [length_append, length_singleton]
    omega
  · show _ = ((s.postedLog ++ [m]).take s.receivedLog.length).map CmrMsg.content
    rw [take_append_of_le_length h.ring.le]
    exact h.received

theorem Fifo.msgAt_read (h : Fifo s) (hlt : s.receivedLog.length < s.postedLog.length) :
    s.postedLog[s.receivedLog.length]? = some (s.msgAt s.read) := by
  have hcell := h.ring.cells _ _ (le_refl _) (getElem?_eq_getElem hlt)
  rw [← h.read_eq] at hcell
  rw [msgAt, show (s.slots[s.read]?).map CmrMsgIn.msg = _ from hcell, getElem?_eq_getElem hlt]
  rfl

theorem content_taken (s : MsgCxt) (g : Getter) :
    (s.taken g).content = (s.msgAt s.read).content := by
  rw [taken]
  split <;> rfl

theorem Fifo.take (h : Fifo s) (hne : s.number ≠ 0) (g : Getter) : (s.take g).Fifo := by
  have hnum := h.number_eq
  have hcount : (s.take g).count = s.count := length_modify _ _ _
  have hlt : s.receivedLog.length < s.postedLog.length := by omega
  have hlen : (s.take g).receivedLog.length = s.receivedLog.length + 1 := length_append
  refine ⟨?_, ?_, ?_, ?_, ?_⟩
  · rw [hcount, hlen]
    apply h.ring.pop hlt
    intro i hi
    rw [← h.read_eq] at hi
    show ((s.slots.modify s.read _)[i]?).map CmrMsgIn.msg = _
    rw [cell_modify, if_neg (Ne.symm hi)]
    rfl
  · rw [hcount, hlen]
    exact h.next_read
  · rw [hcount]
    exact h.write_eq
  · rw [hlen]
    show s.number - 1 + _ = s.postedLog.length
    omega
  rw [hlen]
  show (s.receivedLog ++ [s.taken g]).map _ = (s.postedLog.take _).map _
  rw [take_add_one, h.msgAt_read hlt, map_append, map_append, h.received]
  simp [content_taken]

theorem Fifo.read_ne_write (h : Fifo s) (hne : s.number ≠ 0) : s.read ≠ s.write := by
  have hnum := h.number_eq
  have hroom := h.ring.room
  rw [h.read_eq, h.write_eq]
  exact mod_ne_mod (by omega) (by omega)

theorem Fifo.of_sem {u : MsgCxt} {f : Nat → Nat} (h : Fifo s)
    (hslots : u.slots = s.slots.modify k fun c => { c with sem := f c.sem })
    (hq : (u.read, u.write, u.number, u.receivedLog, u.postedLog) =
      (s.read, s.write, s.number, s.receivedLog, s.postedLog)) : u.Fifo := by
  simp only [Prod.mk.injEq] at hq
  obtain ⟨hr, hw, hn, hrl, hpl⟩ := hq
  have hcount : u.count = s.count := by rw [count, hslots, length_modify, count]
  refine ⟨?_, ?_, ?_, ?_, ?_⟩
  · rw [hcount, hrl, hpl]
    apply h.ring.congr
    intro i
    rw [cell, hslots, cell_modify_sem, cell]
  · rw [hr, hrl, hcount, h.read_eq]
  · rw [hw, hpl, hcount, h.write_eq]
  · rw [hn, hrl, hpl, h.number_eq]
  · rw [hrl, hpl, h.received]

theorem Moves.fifo (hm : Moves s a pc pc' u) (h : Fifo s) : u.Fifo := by
  cases hm with
  | post => exact h
  | overflow _ => exact h
  | put hroom => exact h.put hroom _ _
  | pass _ => exact h
  | wait _ => exact h
  | wake _ => exact h.of_sem (f := (· - 1)) rfl rfl
  | timeout => exact h
  | underflow _ => exact h
  | take hne _ => exact h.take hne _
  | nothing hne heq => exact absurd heq (h.read_ne_write hne)
  | notify _ => exact h.of_sem rfl rfl
  | silent _ => exact h
  | finish _ => exact h.of_sem rfl rfl
  | finishSilent _ => exact h
  | _ => exact ⟨h.ring, h.read_eq, h.write_eq, h.number_eq, h.received⟩

theorem Fifo.setPc (h : Fifo s) (t : Nat) (pc : Pc) : (s.setPc t pc).Fifo :=
  ⟨h.ring, h.read_eq, h.write_eq, h.number_eq, h.received⟩

theorem Fifo.step (h : Fifo s) (hs : s.step a = some u) : u.Fifo := by
  obtain ⟨pc, pc', v, -, hm, rfl⟩ := step_moves hs
  exact (hm.fifo h).setPc _ _

theorem accounts_handling (g : Getter) (n cur : Nat) (m : CmrMsg) :
    (if g = .routine then Pc.handling n cur m else .idle .success).accounts = false := by
  split <;> rfl

theorem accounts_finished (exit : Bool) :
    (if exit then Pc.exited else .idle .success).accounts = false := by
  split <;> rfl

theorem Moves.tokens (hm : Moves s a pc pc' u) (h : Fifo s)
    (hu : pc.accounts = true → s.number ≠ 0) :
    u.number + s.msgSem + (if pc.accounts then 1 else 0) =
      s.number + u.msgSem + if pc'.accounts then 1 else 0 := by
  cases hm with
  | post => rfl
  | overflow _ => rfl
  | put _ =>
    show s.number + 1 + s.msgSem + 0 = s.number + s.msgSem + 1
    omega
  | signal =>
    show s.number + s.msgSem + 1 = s.number + (s.msgSem + 1) + 0
    omega
  | pass _ => rfl
  | wait _ => rfl
  | wake _ => rfl
  | getWait hpos =>
    show s.number + s.msgSem + 0 = s.number + (s.msgSem - 1) + 1
    omega
  | timeout => rfl
  | underflow hz => exact absurd hz (hu rfl)
  | take hne _ =>
    show s.number - 1 + s.msgSem + 1 = s.number + s.msgSem + 0
    omega
  | nothing hne heq => exact absurd heq (h.read_ne_write hne)
  | callback => rfl
  | finish _ =>
    rw [accounts_finished]
    rfl
  | finishSilent _ =>
    rw [accounts_finished]
    rfl
  | _ =>
    rw [accounts_handling]
    rfl

theorem Tokens.number_ne_zero {t : Nat} (h : Tokens s)
    (ht : s.threads[t]? = some pc) (hpc : pc.accounts = true) : s.number ≠ 0 := by
  have hmem := mem_of_getElem? ht
  have hpos := countP_pos_iff.mpr ⟨pc, hmem, hpc⟩
  rw [Tokens] at h
  omega

theorem Tokens.step (h : Tokens s) (hf : Fifo s) (hs : s.step a = some u) : u.Tokens := by
  obtain ⟨pc, pc', v, ht, hm, rfl⟩ := step_moves hs
  have hmove := hm.tokens hf (h.number_ne_zero ht)
  have hset := countP_set_add Pc.accounts ht pc'
  have htok : s.number = s.msgSem + s.threads.countP Pc.accounts := h
  show v.number = v.msgSem + (v.threads.set a.thread pc').countP Pc.accounts
  rw [hm.threads]
  omega

structure Sound (s : MsgCxt) : Prop where
  fifo : s.Fifo
  tokens : s.Tokens

theorem sound_of_run (hn : 0 < n) (hrun : Run (Next step) (create n k) as s) :
    s.Sound ∧ s.count = n := by
  apply hrun.invariant (I := fun _ s => s.Sound ∧ s.count = n)
  · exact ⟨⟨create_fifo hn k, create_tokens n k⟩, length_replicate⟩
  rintro _ a t u ⟨h, hc⟩ hs
  refine ⟨⟨h.fifo.step hs, h.tokens.step h.fifo hs⟩, ?_⟩
  obtain ⟨pc, pc', v, -, hm, rfl⟩ := step_moves hs
  rw [← hc]
  cases hm <;> first | rfl | exact length_modify _ _ _

def sampleActs : List MsgAct :=
  [.post 0 ⟨1, 0, 0, 0, .none, none⟩, .postLock 0, .postSem 0, .postSync 0,
    .post 0 ⟨2, 0, 0, 0, .none, none⟩, .postLock 0, .getWait 1 .get, .getLock 1]

end MsgCxt

end SprdVendor.LibCamera
