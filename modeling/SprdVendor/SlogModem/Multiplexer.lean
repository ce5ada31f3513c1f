import SprdVendor.Lib.Run

namespace SprdVendor.SlogModem
open Lib List

variable {m : Multiplexer}

structure PollingEntry where
  handler : Nat
  events : BitVec 32
deriving DecidableEq, Repr

structure Multiplexer where
  pollingHdl : List PollingEntry
  dirty : Bool
  currentHandlers : List Nat
deriving DecidableEq, Repr

def maxMultiplexerNum : Nat := 20

def pollIn : BitVec 32 := 1

inductive HdlCall where
  | registerFd (handler : Nat) (events : BitVec 32)
  | unregisterFd (handler : Nat) (events : BitVec 32)
  | delete (handler : Nat) (opened : Bool)
deriving DecidableEq, Repr

def addEvents (h : Nat) (events : BitVec 32) : List PollingEntry → List PollingEntry × Bool
  | [] => ([], false)
  | e :: l =>
    if e.handler = h then
      if e.events &&& events ≠ events then ({ e with events := e.events ||| events } :: l, true)
      else (e :: l, false)
    else
      let r := addEvents h events l
      (e :: r.1, r.2)

def delEvents (h : Nat) (events : BitVec 32) : List PollingEntry → List PollingEntry × Bool
  | [] => ([], false)
  | e :: l =>
    if e.handler = h then
      if e.events &&& events ≠ 0 then
        if e.events &&& ~~~events = 0 then (l, true)
        else ({ e with events := e.events &&& ~~~events } :: l, true)
      else (e :: l, false)
    else
      let r := delEvents h events l
      (e :: r.1, r.2)

namespace Multiplexer

def new : Multiplexer := ⟨[], true, []⟩

def Registered (m : Multiplexer) (h : Nat) : Prop := ∃ e ∈ m.pollingHdl, e.handler = h

instance (m : Multiplexer) (h : Nat) : Decidable (m.Registered h) :=
  inferInstanceAs (Decidable (∃ e ∈ _, _))

def registerFd (h : Nat) (events : BitVec 32) (m : Multiplexer) : Multiplexer :=
  if m.Registered h then
    let r := addEvents h events m.pollingHdl
    { m with pollingHdl := r.1, dirty := m.dirty || r.2 }
  else if m.pollingHdl.length < maxMultiplexerNum then
    { m with pollingHdl := m.pollingHdl ++ [⟨h, events⟩], dirty := true }
  else m

def unregisterFd (h : Nat) (events : BitVec 32) (m : Multiplexer) : Multiplexer :=
  let r := delEvents h events m.pollingHdl
  { m with pollingHdl := r.1, dirty := m.dirty || r.2 }

def call (m : Multiplexer) : HdlCall → Multiplexer
  | .registerFd h events => m.registerFd h events
  | .unregisterFd h events => m.unregisterFd h events
  | .delete h opened => if opened then m.unregisterFd h pollIn else m

def calls (m : Multiplexer) (cs : List HdlCall) : Multiplexer := cs.foldl call m

def preparePollingArray (m : Multiplexer) : Multiplexer :=
  { m with currentHandlers := m.pollingHdl.map PollingEntry.handler }

/-- The loop over the polled descriptors: for each the handler in the array, the reported events,
and what the handler does if it is called. The result lists the called handlers, each with whether
it was registered then. -/
def dispatch : List (Nat × BitVec 16 × List HdlCall) → Multiplexer →
    Multiplexer × List (Nat × Bool)
  | [], m => (m, [])
  | (h, revents, cs) :: rest, m =>
    if revents ≠ 0 then
      let r := dispatch rest (m.calls cs)
      (r.1, (h, decide (m.Registered h)) :: r.2)
    else dispatch rest m

end Multiplexer

/-- One turn of the loop of `run`: what `poll` returns, what the timer callbacks do, and for each
polled descriptor the events and what its handler would do. -/
structure Round where
  err : Int
  timers : List HdlCall
  events : List (BitVec 16 × List HdlCall)

namespace Multiplexer

def round (m : Multiplexer) (r : Round) : Multiplexer × List (Nat × Bool) :=
  let m := if m.dirty then { m.preparePollingArray with dirty := false } else m
  let polled := m.currentHandlers.zip r.events
  let m := m.calls r.timers
  if 0 < r.err then dispatch polled m else (m, [])

end Multiplexer

inductive MuxAct where
  | call (c : HdlCall)
  | round (r : Round)

structure Served where
  mux : Multiplexer
  log : List (Nat × Bool)
deriving DecidableEq, Repr

def Served.next (s : Served) : MuxAct → Option Served
  | .call c => some { s with mux := s.mux.call c }
  | .round r => some ⟨(s.mux.round r).1, s.log ++ (s.mux.round r).2⟩

def HdlCall.Takes (h : Nat) : HdlCall → Prop
  | .registerFd _ _ => False
  | .unregisterFd h' _ => h' = h
  | .delete h' _ => h' = h

/-- No timer callback unregisters or deletes a handler whose event was reported, and no handler
another one whose event is still to be dispatched. -/
def RoundFits (m : Multiplexer) (r : Round) : Prop :=
  let m := if m.dirty then { m.preparePollingArray with dirty := false } else m
  let waiting := (m.currentHandlers.zip r.events).filter (·.2.1 ≠ 0)
  0 < r.err → (∀ p ∈ waiting, ∀ c ∈ r.timers, ¬ c.Takes p.1) ∧
    waiting.Pairwise fun p q => ∀ c ∈ p.2.2, ¬ c.Takes q.1

def Served.Fits (s : Served) : MuxAct → Prop
  | .call _ => True
  | .round r => RoundFits s.mux r

/-! ### The calls -/

theorem addEvents_handlers (h : Nat) (events : BitVec 32) (l : List PollingEntry) :
    (addEvents h events l).1.map PollingEntry.handler = l.map PollingEntry.handler := by
  induction l with
  | nil => rfl
  | cons e l ih =>
    rw [addEvents]
    split
    · split <;> rfl
    · exact congrArg (e.handler :: ·) ih

theorem delEvents_unchanged (hr : (delEvents h events l).2 = false) :
    (delEvents h events l).1 = l := by
  induction l with
  | nil => rfl
  | cons e l ih =>
    rw [delEvents] at hr ⊢
    split at hr
    case isTrue hh =>
      rw [if_pos hh]
      split at hr
      case isTrue => split at hr <;> cases hr
      case isFalse hev => rw [if_neg hev]
    case isFalse hh =>
      rw [if_neg hh]
      exact congrArg (e :: ·) (ih hr)

theorem mem_delEvents (he : e ∈ l) (hne : e.handler ≠ h) : e ∈ (delEvents h events l).1 := by
  induction l with
  | nil => cases he
  | cons p l ih =>
    rw [delEvents]
    rcases mem_cons.mp he with rfl | he
    · rw [if_neg hne]
      exact .head _
    split
    · split
      · split
        · exact he
        · exact .tail _ he
      · exact .tail _ he
    · exact .tail _ (ih he)

namespace Multiplexer

theorem registered_iff (m : Multiplexer) (h : Nat) :
    m.Registered h ↔ h ∈ m.pollingHdl.map PollingEntry.handler := by
  rw [mem_map]
  rfl

theorem Registered.unregisterFd (hm : m.Registered h) (hne : h' ≠ h) :
    (m.unregisterFd h' events).Registered h := by
  obtain ⟨e, he, rfl⟩ := hm
  exact ⟨e, mem_delEvents he hne.symm, rfl⟩

theorem Registered.call (hm : m.Registered h) (hc : ¬ c.Takes h) :
    (m.call c).Registered h := by
  cases c with
  | registerFd h' events =>
    change (m.registerFd h' events).Registered h
    rw [registerFd]
    split
    · rw [registered_iff]
      rw [addEvents_handlers]
      exact (registered_iff m h).mp hm
    split
    · obtain ⟨e, he, heq⟩ := hm
      exact ⟨e, mem_append_left _ he, heq⟩
    · exact hm
  | unregisterFd h' events => exact hm.unregisterFd hc
  | delete h' opened =>
    rw [Multiplexer.call]
    split
    · exact hm.unregisterFd hc
    · exact hm

theorem Registered.calls (hm : m.Registered h)
    (hcs : ∀ c ∈ cs, ¬ c.Takes h) : (m.calls cs).Registered h := by
  induction cs generalizing m with
  | nil => exact hm
  | cons c cs ih =>
    exact ih (hm.call (hcs c (.head cs))) fun c' hc' => hcs c' (.tail c hc')

def Current (m : Multiplexer) : Prop :=
  m.dirty = false → m.currentHandlers = m.pollingHdl.map PollingEntry.handler

theorem Current.of_dirty (h : m.dirty = true) : m.Current :=
  fun hclean => absurd (h.symm.trans hclean) (by decide)

theorem Current.unregisterFd (hm : m.Current) :
    (m.unregisterFd h events).Current := by
  intro hclean
  obtain ⟨hdirty, hsame⟩ := Bool.or_eq_false_iff.mp hclean
  rw [Multiplexer.unregisterFd]
  rw [delEvents_unchanged hsame]
  exact hm hdirty

theorem Current.call (hm : m.Current) (c : HdlCall) : (m.call c).Current := by
  cases c with
  | registerFd h events =>
    change (m.registerFd h events).Current
    rw [registerFd]
    split
    · intro hclean
      obtain ⟨hdirty, -⟩ := Bool.or_eq_false_iff.mp hclean
      rw [addEvents_handlers]
      exact hm hdirty
    · split
      · exact .of_dirty rfl
      · exact hm
  | unregisterFd h events => exact hm.unregisterFd
  | delete h opened =>
    rw [Multiplexer.call]
    split
    · exact hm.unregisterFd
    · exact hm

theorem Current.calls (hm : m.Current) (cs : List HdlCall) :
    (m.calls cs).Current := by
  induction cs generalizing m with
  | nil => exact hm
  | cons c cs ih => exact ih (hm.call c)

/-! ### The loop -/

theorem Current.dispatch (hm : m.Current)
    (polled : List (Nat × BitVec 16 × List HdlCall)) : (dispatch polled m).1.Current := by
  induction polled generalizing m with
  | nil => exact hm
  | cons p polled ih =>
    obtain ⟨h, revents, cs⟩ := p
    rw [Multiplexer.dispatch]
    split
    · exact ih (hm.calls cs)
    · exact ih hm

/-- Every handler that waits for its event is registered, and stays so until its turn. -/
theorem dispatch_registered (hm : ∀ p ∈ polled.filter (·.2.1 ≠ 0), m.Registered p.1)
    (hfits : (polled.filter (·.2.1 ≠ 0)).Pairwise fun p q => ∀ c ∈ p.2.2, ¬ c.Takes q.1) :
    ∀ d ∈ (dispatch polled m).2, d.2 = true := by
  induction polled generalizing m with
  | nil => rintro d ⟨⟩
  | cons p polled ih =>
    obtain ⟨h, revents, cs⟩ := p
    rw [Multiplexer.dispatch]
    by_cases hre : revents ≠ 0
    · rw [filter_cons_of_pos (by simpa using hre)] at hm hfits
      obtain ⟨hlater, hrest⟩ := pairwise_cons.mp hfits
      rw [if_pos hre]
      intro d hd
      rcases mem_cons.mp hd with rfl | hd
      · exact decide_eq_true (hm _ (.head _))
      · refine ih ?_ hrest d hd
        intro q hq
        exact (hm q (.tail _ hq)).calls (hlater q hq)
    · rw [filter_cons_of_neg (by simpa using hre)] at hm hfits
      rw [if_neg hre]
      exact ih hm hfits

theorem Current.round (hm : m.Current) (r : Round) :
    (m.round r).1.Current ∧ (RoundFits m r → ∀ d ∈ (m.round r).2, d.2 = true) := by
  rw [Multiplexer.round, RoundFits]
  -- behind the first statement of the turn the array is that of the registered handlers
  generalize hm₁ : (if m.dirty then { m.preparePollingArray with dirty := false } else m) = m₁
  have harray : m₁.currentHandlers = m₁.pollingHdl.map PollingEntry.handler := by
    rw [← hm₁]
    split
    case isTrue => rfl
    case isFalse hclean => exact hm (Bool.eq_false_iff.mpr hclean)
  have hcalls : (m₁.calls r.timers).Current := Current.calls (fun _ => harray) r.timers
  split
  case isFalse => exact ⟨hcalls, by rintro - d ⟨⟩⟩
  case isTrue herr =>
    refine ⟨hcalls.dispatch _, ?_⟩
    intro hfits
    obtain ⟨htimers, hhandlers⟩ := hfits herr
    refine dispatch_registered ?_ hhandlers
    intro p hp
    have hmem : p.1 ∈ m₁.currentHandlers := (of_mem_zip (mem_filter.mp hp).1).1
    rw [harray, ← registered_iff] at hmem
    exact hmem.calls (htimers p hp)

end Multiplexer

namespace Served

theorem dispatched_registered (hrun : Run (Guarded Fits Served.next) ⟨.new, []⟩ as s) :
    ∀ d ∈ s.log, d.2 = true := by
  have h : s.mux.Current ∧ ∀ d ∈ s.log, d.2 = true := by
    induction hrun with
    | nil => exact ⟨.of_dirty rfl, by rintro d ⟨⟩⟩
    | @snoc as t a u _ hstep ih =>
      obtain ⟨hnext, hfits⟩ := hstep
      cases a with
      | call c =>
        cases hnext
        exact ⟨ih.1.call c, ih.2⟩
      | round r =>
        cases hnext
        obtain ⟨hcurrent, hall⟩ := ih.1.round r
        refine ⟨hcurrent, ?_⟩
        intro d hd
        rcases mem_append.mp hd with hd | hd
        · exact ih.2 d hd
        · exact hall hfits d hd
  exact h.2

instance (h : Nat) : ∀ c, Decidable (HdlCall.Takes h c)
  | .registerFd _ _ => inferInstanceAs (Decidable False)
  | .unregisterFd h' _ => inferInstanceAs (Decidable (h' = h))
  | .delete h' _ => inferInstanceAs (Decidable (h' = h))

instance (m : Multiplexer) (r : Round) : Decidable (RoundFits m r) :=
  inferInstanceAs (Decidable (_ → _ ∧ _))

instance (s : Served) : ∀ a, Decidable (s.Fits a)
  | .call _ => inferInstanceAs (Decidable True)
  | .round r => inferInstanceAs (Decidable (RoundFits s.mux r))

/-- Three handlers have events: the first deletes itself, the second registers a new handler, which
is polled in the next turn. -/
theorem four_handlers_dispatched : ∃ s,
    Run (Guarded Fits Served.next) ⟨.new, []⟩
      [.call (.registerFd 1 pollIn), .call (.registerFd 2 pollIn), .call (.registerFd 3 pollIn),
        .round ⟨3, [], [(1, [.delete 1 true]), (1, [.registerFd 4 pollIn]), (1, [])]⟩,
        .round ⟨1, [.delete 2 true], [(0, []), (0, []), (1, [])]⟩] s ∧
      s.log.map Prod.fst = [1, 2, 3, 4] ∧ ∀ d ∈ s.log, d.2 = true := by
  refine exists_guarded_imp (P := fun s => s.log.map Prod.fst = [1, 2, 3, 4]) ?_
    (by decide +kernel)
  intro s hrun hlog
  exact ⟨hlog, dispatched_registered hrun⟩

/-- The events of a log pipe 1 and of its diag handler 2 come in one poll, and a timer callback or
another handler deletes the diag handler. It is called nevertheless. -/
theorem deleted_handler_called :
    (∃ s, Run (Next Served.next) ⟨.new, []⟩
      [.call (.registerFd 1 pollIn), .call (.registerFd 2 pollIn),
        .round ⟨2, [.delete 2 true], [(1, []), (1, [])]⟩] s ∧
      s.log = [(1, true), (2, false)]) ∧
    ∃ s, Run (Next Served.next) ⟨.new, []⟩
      [.call (.registerFd 1 pollIn), .call (.registerFd 2 pollIn),
        .round ⟨2, [], [(1, [.delete 2 true]), (1, [])]⟩] s ∧
      s.log = [(1, true), (2, false)] := by
  refine ⟨?_, ?_⟩
  · exact exists_run_of_exec (by decide +kernel)
  · exact exists_run_of_exec (by decide +kernel)

end Served

end SprdVendor.SlogModem
