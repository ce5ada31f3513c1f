import SprdVendor.Lib.Run

namespace SprdVendor.LibCamera

inductive SyncFlag where
  | none
  | received
  | processed
deriving DecidableEq, Repr

/-- A message; `cmr_priv` is the slot that it came out of, or `NULL`. -/
structure CmrMsg where
  msgType : Nat
  subMsgType : Nat
  data : Nat
  allocFlag : Nat
  syncFlag : SyncFlag
  cmrPriv : Option Nat
deriving DecidableEq, Repr

def CmrMsg.zero : CmrMsg := ⟨0, 0, 0, 0, .none, none⟩

def cmrThreadInitEvt : Nat := 0x00ffffff

def cmrThreadExitEvt : Nat := 0x01ffffff

structure CmrMsgIn where
  msg : CmrMsg
  sem : Nat
  syncF : SyncFlag
deriving DecidableEq, Repr

inductive CmrRet where
  | success
  | overflow
  | underflow
  | noOtherMsg
deriving DecidableEq, Repr

/-- Who calls for the next message: `cmr_msg_get`, `cmr_msg_timedget`, or `cmr_msg_get` out of
`cmr_common_routine`. -/
inductive Getter where
  | get
  | timedget
  | routine
deriving DecidableEq, Repr

/-- Where a thread stands. A poster holds its message, the number of the message in the order of
posting and its slot; a getter holds the number and the slot of what it received. -/
inductive Pc where
  | idle (ret : CmrRet)
  | posting (m : CmrMsg) (ori : Nat)
  | posted (m : CmrMsg) (n cur : Nat)
  | signalled (m : CmrMsg) (n cur : Nat)
  | waiting (m : CmrMsg) (n cur : Nat)
  | getting (g : Getter)
  | got (g : Getter) (n cur : Nat) (m : CmrMsg)
  | handling (n cur : Nat) (m : CmrMsg)
  | handled (n cur : Nat) (exit : Bool)
  | exited
deriving DecidableEq, Repr

/-- The queue, its threads, and a record: the messages posted and received, how many were processed,
and for which ones a slot semaphore was posted. -/
structure MsgCxt where
  slots : List CmrMsgIn
  number : Nat
  read : Nat
  write : Nat
  msgSem : Nat
  threads : List Pc
  postedLog : List CmrMsg
  receivedLog : List CmrMsg
  processed : Nat
  released : List Nat
deriving DecidableEq

namespace MsgCxt

def create (count threads : Nat) : MsgCxt :=
  ⟨List.replicate count ⟨CmrMsg.zero, 0, .none⟩, 0, 0, 0, 0,
    List.replicate threads (.idle .success), [], [], 0, []⟩

def count (s : MsgCxt) : Nat := s.slots.length

def next (s : MsgCxt) (i : Nat) : Nat := if s.count - 1 < i + 1 then 0 else i + 1

def setPc (s : MsgCxt) (t : Nat) (pc : Pc) : MsgCxt := { s with threads := s.threads.set t pc }

def syncF (s : MsgCxt) (i : Nat) : SyncFlag := ((s.slots[i]?).map CmrMsgIn.syncF).getD .none

def sem (s : MsgCxt) (i : Nat) : Nat := ((s.slots[i]?).map CmrMsgIn.sem).getD 0

def msgAt (s : MsgCxt) (i : Nat) : CmrMsg := ((s.slots[i]?).map CmrMsgIn.msg).getD CmrMsg.zero

def put (s : MsgCxt) (m : CmrMsg) (ori : Nat) : MsgCxt :=
  { s with
    slots := s.slots.modify s.write fun c => { c with msg := m, syncF := m.syncFlag }
    write := if s.next s.write = s.read then ori else s.next s.write
    number := s.number + 1
    postedLog := s.postedLog ++ [m] }

def taken (s : MsgCxt) (g : Getter) : CmrMsg :=
  if g = .timedget then s.msgAt s.read else { s.msgAt s.read with cmrPriv := some s.read }

def take (s : MsgCxt) (g : Getter) : MsgCxt :=
  { s with
    slots := s.slots.modify s.read fun c => { c with msg := CmrMsg.zero }
    read := s.next s.read
    number := s.number - 1
    receivedLog := s.receivedLog ++ [s.taken g] }

def release (s : MsgCxt) (n i : Nat) : MsgCxt :=
  { s with
    slots := s.slots.modify i fun c => { c with sem := c.sem + 1 }
    released := s.released ++ [n] }

def acquire (s : MsgCxt) (i : Nat) : MsgCxt :=
  { s with slots := s.slots.modify i fun c => { c with sem := c.sem - 1 } }

end MsgCxt

inductive MsgAct where
  | post (t : Nat) (m : CmrMsg)
  | postLock (t : Nat)
  | postSem (t : Nat)
  | postSync (t : Nat)
  | postWake (t : Nat)
  | getWait (t : Nat) (g : Getter)
  | getTimeout (t : Nat)
  | getLock (t : Nat)
  | getSync (t : Nat)
  | callback (t : Nat) (exit : Bool)
  | procSync (t : Nat)
deriving DecidableEq, Repr

namespace MsgCxt

def routineExits (m : CmrMsg) (exit : Bool) : Bool :=
  if m.msgType = cmrThreadInitEvt then false
  else if m.msgType = cmrThreadExitEvt then true
  else exit

end MsgCxt

def MsgAct.thread : MsgAct → Nat
  | .post t _ | .postLock t | .postSem t | .postSync t | .postWake t | .getWait t _ | .getTimeout t
  | .getLock t | .getSync t | .callback t _ | .procSync t => t

namespace MsgCxt

/-- What the step of a thread at `pc` does: where it stands then, and the queue. -/
def stepAt (s : MsgCxt) : Pc → MsgAct → Option (Pc × MsgCxt)
  | .idle _, .post _ m => some (.posting m s.write, s)
  | .posting m ori, .postLock _ =>
    if s.count ≤ s.number + 1 then some (.idle .overflow, s)
    else some (.posted m s.postedLog.length s.write, s.put m ori)
  | .posted m n cur, .postSem _ => some (.signalled m n cur, { s with msgSem := s.msgSem + 1 })
  | .signalled m n cur, .postSync _ =>
    some (if s.syncF cur = .none then .idle .success else .waiting m n cur, s)
  | .waiting _ _ cur, .postWake _ =>
    if 0 < s.sem cur then some (.idle .success, s.acquire cur) else none
  | .idle _, .getWait _ g =>
    if 0 < s.msgSem then some (.getting g, { s with msgSem := s.msgSem - 1 }) else none
  | .idle _, .getTimeout _ => some (.idle .noOtherMsg, s)
  | .getting g, .getLock _ =>
    if s.number = 0 then some (if g = .routine then .exited else .idle .underflow, s)
    else if s.read ≠ s.write then
      some (.got g s.receivedLog.length s.read (s.taken g), s.take g)
    else
      some (.idle .success, { s with number := if g = .timedget then s.number - 1 else s.number })
  | .got g n cur m, .getSync _ =>
    some (if g = .routine then .handling n cur m else .idle .success,
      if s.syncF cur = .received then s.release n cur else s)
  | .handling n cur m, .callback _ exit =>
    some (.handled n cur (routineExits m exit), { s with processed := s.processed + 1 })
  | .handled n cur exit, .procSync _ =>
    some (if exit then .exited else .idle .success,
      if s.syncF cur = .processed then s.release n cur else s)
  | _, _ => none

def step (s : MsgCxt) (a : MsgAct) : Option MsgCxt :=
  (s.threads[a.thread]?).bind fun pc =>
    (s.stepAt pc a).map fun r => r.2.setPc a.thread r.1

inductive Moves (s : MsgCxt) : MsgAct → Pc → Pc → MsgCxt → Prop where
  | post : Moves s (.post t m) (.idle r) (.posting m s.write) s
  | overflow (h : s.count ≤ s.number + 1) :
      Moves s (.postLock t) (.posting m ori) (.idle .overflow) s
  | put (h : s.number + 1 < s.count) :
      Moves s (.postLock t) (.posting m ori) (.posted m s.postedLog.length s.write) (s.put m ori)
  | signal :
      Moves s (.postSem t) (.posted m n cur) (.signalled m n cur) { s with msgSem := s.msgSem + 1 }
  | pass (h : s.syncF cur = .none) :
      Moves s (.postSync t) (.signalled m n cur) (.idle .success) s
  | wait (h : s.syncF cur ≠ .none) :
      Moves s (.postSync t) (.signalled m n cur) (.waiting m n cur) s
  | wake (h : 0 < s.sem cur) :
      Moves s (.postWake t) (.waiting m n cur) (.idle .success) (s.acquire cur)
  | getWait (h : 0 < s.msgSem) :
      Moves s (.getWait t g) (.idle r) (.getting g) { s with msgSem := s.msgSem - 1 }
  | timeout : Moves s (.getTimeout t) (.idle r) (.idle .noOtherMsg) s
  | underflow (h : s.number = 0) :
      Moves s (.getLock t) (.getting g) (if g = .routine then .exited else .idle .underflow) s
  | take (h : s.number ≠ 0) (hne : s.read ≠ s.write) :
      Moves s (.getLock t) (.getting g) (.got g s.receivedLog.length s.read (s.taken g)) (s.take g)
  | nothing (h : s.number ≠ 0) (heq : s.read = s.write) :
      Moves s (.getLock t) (.getting g) (.idle .success)
        { s with number := if g = .timedget then s.number - 1 else s.number }
  | notify (h : s.syncF cur = .received) :
      Moves s (.getSync t) (.got g n cur m)
        (if g = .routine then .handling n cur m else .idle .success) (s.release n cur)
  | silent (h : s.syncF cur ≠ .received) :
      Moves s (.getSync t) (.got g n cur m)
        (if g = .routine then .handling n cur m else .idle .success) s
  | callback :
      Moves s (.callback t exit) (.handling n cur m) (.handled n cur (routineExits m exit))
        { s with processed := s.processed + 1 }
  | finish (h : s.syncF cur = .processed) :
      Moves s (.procSync t) (.handled n cur exit) (if exit then .exited else .idle .success)
        (s.release n cur)
  | finishSilent (h : s.syncF cur ≠ .processed) :
      Moves s (.procSync t) (.handled n cur exit) (if exit then .exited else .idle .success) s

theorem stepAt_moves (h : s.stepAt pc a = some (pc', u)) : Moves s a pc pc' u := by
  unfold stepAt at h
  split at h
  · cases h
    exact .post
  · split at h <;> cases h
    · exact .overflow ‹_›
    · exact .put (by omega)
  · cases h
    exact .signal
  · cases h
    split
    · exact .pass ‹_›
    · exact .wait ‹_›
  · split at h <;> cases h
    exact .wake ‹_›
  · split at h <;> cases h
    exact .getWait ‹_›
  · cases h
    exact .timeout
  · split at h
    · cases h
      exact .underflow ‹_›
    · split at h <;> cases h
      · exact .take ‹_› ‹_›
      · exact .nothing ‹_› (not_not.mp ‹_›)
  · rename_i g n cur m t
    cases h
    by_cases hf : s.syncF cur = .received
    · rw [if_pos hf]
      exact .notify hf
    · rw [if_neg hf]
      exact .silent hf
  · cases h
    exact .callback
  · rename_i n cur exit t
    cases h
    by_cases hf : s.syncF cur = .processed
    · rw [if_pos hf]
      exact .finish hf
    · rw [if_neg hf]
      exact .finishSilent hf
  · cases h

theorem step_moves (h : step s a = some u) :
    ∃ pc pc' v, s.threads[a.thread]? = some pc ∧ Moves s a pc pc' v ∧ u = v.setPc a.thread pc' := by
  obtain ⟨pc, hpc, h⟩ := Option.bind_eq_some_iff.mp h
  obtain ⟨⟨pc', v⟩, hstep, rfl⟩ := Option.map_eq_some_iff.mp h
  exact ⟨pc, pc', v, hpc, stepAt_moves hstep, rfl⟩

theorem Moves.threads (h : Moves s a pc pc' v) : v.threads = s.threads := by
  cases h <;> rfl

end MsgCxt

end SprdVendor.LibCamera
