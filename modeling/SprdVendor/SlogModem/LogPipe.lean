import SprdVendor.Lib.Run

namespace SprdVendor.SlogModem
open Lib

inductive CpWorkState where
  | notWorking
  | working
  | dump
  | saveSleepLog
  | saveRingbuf
deriving DecidableEq, Repr

inductive ConsumerKind where
  | dump
  | sleepLog
  | ringbuf
deriving DecidableEq, Repr

def ConsumerKind.workState : ConsumerKind → CpWorkState
  | .dump => .dump
  | .sleepLog => .saveSleepLog
  | .ringbuf => .saveRingbuf

inductive LogProcResult where
  | success
  | failure
deriving DecidableEq, Repr

inductive Lcr where
  | success
  | error
  | inTransaction
  | logDisabled
  | cpAsserted
  | inProgress
deriving DecidableEq, Repr

/-- A `LogPipeHandler`: the two pointers are null or show what their object is for, `transClient` is
the client to be notified, and `lost` are the consumers alive behind an overwritten `m_consumer`. -/
structure LogPipe where
  enable : Bool
  cpState : CpWorkState
  diagHandler : Option ConsumerKind
  consumer : Option ConsumerKind
  transClient : Option Nat
  storage : Bool
  lost : List ConsumerKind
deriving DecidableEq, Repr

/-- What `process_assert` finds out: whether the CP will be reset, whether mini dumps are saved, and
whether the storage can be created, the time be read and the dump be started. -/
structure AssertEnv where
  willReset : Bool
  saveMd : Bool
  storageOk : Bool
  timeOk : Bool
  dumpStarts : Bool
deriving DecidableEq, Repr

structure SaveEnv where
  storageOk : Bool
  starts : Bool
deriving DecidableEq, Repr

namespace LogPipe

def create (enable : Bool) : LogPipe := ⟨enable, .working, none, none, none, false, []⟩

def inTransaction (s : LogPipe) : Bool :=
  match s.cpState with
  | .notWorking | .working => false
  | .dump | .saveSleepLog | .saveRingbuf => true

def start (s : LogPipe) : LogPipe := { s with enable := true }

def stop (s : LogPipe) : LogPipe :=
  { s with enable := false, consumer := none, diagHandler := none }

def openOnAlive (s : LogPipe) : LogPipe := { s with cpState := .working }

def closeOnAssert (s : LogPipe) : LogPipe := { s with cpState := .notWorking }

def startTransaction (s : LogPipe) (k : ConsumerKind) (state : CpWorkState) : LogPipe :=
  { s with
    diagHandler := some k
    consumer := some k
    cpState := state
    lost := s.consumer.toList ++ s.lost }

def stopTransaction (s : LogPipe) (state : CpWorkState) : LogPipe :=
  { s with consumer := none, diagHandler := none, cpState := state }

def startDump (s : LogPipe) (starts : Bool) : Bool × LogPipe :=
  if starts then (true, s.startTransaction .dump .dump) else (false, s)

def assertReset (s : LogPipe) (env : AssertEnv) : LogPipe :=
  if env.saveMd then
    if s.storage || env.storageOk then
      if env.timeOk then { s with storage := true, cpState := .notWorking }
      else { s with storage := true }
    else s
  else { s with cpState := .notWorking }

def assertDump (s : LogPipe) (env : AssertEnv) : LogPipe :=
  if s.enable then
    if (s.startDump env.dumpStarts).1 then { (s.startDump env.dumpStarts).2 with cpState := .dump }
    else (s.startDump env.dumpStarts).2.closeOnAssert
  else s.closeOnAssert

def assertNoReset (s : LogPipe) (env : AssertEnv) : LogPipe :=
  if s.storage || env.storageOk then
    if env.timeOk then { s with storage := true }.assertDump env else { s with storage := true }
  else s

def processAssert (s : LogPipe) (env : AssertEnv) : LogPipe :=
  if s.cpState = .notWorking ∨ s.cpState = .dump then s
  else
    if env.willReset then
      (if s.cpState ≠ .working then s.stopTransaction .working else s).assertReset env
    else (if s.cpState ≠ .working then s.stopTransaction .working else s).assertNoReset env

/-- `start_sleep_log` and `start_ringbuf`; there is no answer when the assertion at their head
fails. -/
def startConsumer (k : ConsumerKind) (s : LogPipe) (starts : Bool) : Option (Bool × LogPipe) :=
  if s.diagHandler = none ∧ s.consumer = none then
    some
      (if starts then (true, { s with diagHandler := some k, consumer := some k }) else (false, s))
  else none

def startSleepLog : LogPipe → Bool → Option (Bool × LogPipe) := startConsumer .sleepLog

def startRingbuf : LogPipe → Bool → Option (Bool × LogPipe) := startConsumer .ringbuf

def save (state : CpWorkState) (start : LogPipe → Bool → Option (Bool × LogPipe)) (s : LogPipe)
    (client : Nat) (env : SaveEnv) : Option (Lcr × LogPipe) :=
  if s.enable = false then some (.logDisabled, s)
  else if s.cpState = .notWorking then some (.cpAsserted, s)
  else if s.cpState ≠ .working then some (.inTransaction, s)
  else if (s.storage || env.storageOk) = false then some (.error, s)
  else
    (start { s with storage := true } env.starts).map fun r =>
      if r.1 then (.inProgress, { r.2 with transClient := some client, cpState := state })
      else (.error, r.2)

def saveSleepLog : LogPipe → Nat → SaveEnv → Option (Lcr × LogPipe) :=
  save .saveSleepLog startSleepLog

def saveRingbuf : LogPipe → Nat → SaveEnv → Option (Lcr × LogPipe) := save .saveRingbuf startRingbuf

def diagTransactionNotify (s : LogPipe) (res : LogProcResult) : Option (Nat × Lcr) × LogPipe :=
  if s.cpState = .saveSleepLog ∨ s.cpState = .saveRingbuf then
    (s.transClient.map fun c => (c, if res = .success then .success else .error),
      { s with cpState := .working, transClient := none, consumer := none, diagHandler := none })
  else (none, s)

def dumpTransactionNotify (s : LogPipe) : LogPipe :=
  if s.cpState = .dump then s.stopTransaction .notWorking else s

def notify (s : LogPipe) (k : ConsumerKind) (res : LogProcResult) : Option (Nat × Lcr) × LogPipe :=
  match k with
  | .dump => (none, s.dumpTransactionNotify)
  | .sleepLog | .ringbuf => s.diagTransactionNotify res

def cancelTransResultNotify (s : LogPipe) (client : Nat) : LogPipe :=
  if s.transClient = some client then { s with transClient := none } else s

end LogPipe

inductive PipeEvent where
  | start
  | stop
  | alive
  | assert (env : AssertEnv)
  | saveSleepLog (client : Nat) (env : SaveEnv)
  | saveRingbuf (client : Nat) (env : SaveEnv)
  | notify (res : LogProcResult)
  | lostNotify (k : ConsumerKind) (res : LogProcResult)
  | cancel (client : Nat)
deriving DecidableEq, Repr

namespace LogPipe

/-- One event; there is no next state when an assertion fails. -/
def step (s : LogPipe) : PipeEvent → Option LogPipe
  | .start => some s.start
  | .stop => some s.stop
  | .alive => some s.openOnAlive
  | .assert env => some (s.processAssert env)
  | .saveSleepLog client env => (s.saveSleepLog client env).map Prod.snd
  | .saveRingbuf client env => (s.saveRingbuf client env).map Prod.snd
  | .notify res => some (s.consumer.elim s fun k => (s.notify k res).2)
  | .lostNotify k res => some (if k ∈ s.lost then (s.notify k res).2 else s)
  | .cancel client => some (s.cancelTransResultNotify client)

/-- The state is one of saving or dumping exactly when the consumer and the diag handler exist. -/
def Consistent (s : LogPipe) : Prop :=
  s.inTransaction = true ↔ s.consumer ≠ none ∧ s.diagHandler ≠ none

instance (s : LogPipe) : Decidable s.Consistent := inferInstanceAs (Decidable (_ ↔ _))

/-- Logging is turned off, and the CP reports that it is alive, only when nothing is being saved. -/
def EventOk (s : LogPipe) : PipeEvent → Prop
  | .stop | .alive => s.inTransaction = false
  | _ => True

end LogPipe

def CpWorkState.kind : CpWorkState → Option ConsumerKind
  | .notWorking | .working => none
  | .dump => some .dump
  | .saveSleepLog => some .sleepLog
  | .saveRingbuf => some .ringbuf

namespace LogPipe

structure Paired (s : LogPipe) : Prop where
  consumer : s.consumer = s.cpState.kind
  diagHandler : s.diagHandler = s.cpState.kind
  lost : s.lost = []

theorem kind_ne_none_iff (s : LogPipe) : s.cpState.kind ≠ none ↔ s.inTransaction = true := by
  rw [inTransaction]
  cases s.cpState <;> simp [CpWorkState.kind]

theorem kind_of_not_inTransaction (h : inTransaction s = false) : s.cpState.kind = none := by
  by_contra hne
  rw [(kind_ne_none_iff s).mp hne] at h
  cases h

namespace Paired

theorem consistent (h : Paired s) : s.Consistent := by
  rw [Consistent, h.consumer, h.diagHandler, and_self, kind_ne_none_iff]

theorem pointers (h : Paired s) (hs : s.inTransaction = false) :
    s.diagHandler = none ∧ s.consumer = none := by
  rw [h.consumer, h.diagHandler, kind_of_not_inTransaction hs]
  exact ⟨rfl, rfl⟩

theorem stop (h : Paired s) (hs : s.inTransaction = false) : s.stop.Paired :=
  ⟨(kind_of_not_inTransaction hs).symm, (kind_of_not_inTransaction hs).symm, h.lost⟩

theorem settle (h : Paired s) (hs : s.inTransaction = false) (hk : state.kind = none) :
    { s with cpState := state }.Paired :=
  ⟨(h.pointers hs).2.trans hk.symm, (h.pointers hs).1.trans hk.symm, h.lost⟩

theorem stopTransaction (h : Paired s) (hk : state.kind = none) :
    (s.stopTransaction state).Paired :=
  ⟨hk.symm, hk.symm, h.lost⟩

theorem ofStorage (h : Paired s) (b : Bool) : { s with storage := b }.Paired :=
  ⟨h.consumer, h.diagHandler, h.lost⟩

theorem startTransaction (h : Paired s) (hs : s.inTransaction = false) (k : ConsumerKind) :
    (s.startTransaction k k.workState).Paired := by
  refine ⟨?_, ?_, ?_⟩
  · cases k <;> rfl
  · cases k <;> rfl
  · show s.consumer.toList ++ s.lost = []
    rw [(h.pointers hs).2, h.lost]
    rfl

theorem assertReset (h : Paired s) (hs : s.cpState = .working) (env : AssertEnv) :
    (s.assertReset env).Paired := by
  have hno : s.inTransaction = false := by rw [inTransaction, hs]
  rw [LogPipe.assertReset]
  split
  · split
    · split
      · exact (h.ofStorage true).settle hno rfl
      · exact h.ofStorage true
    · exact h
  · exact h.settle hno rfl

theorem assertDump (h : Paired s) (hs : s.inTransaction = false) (env : AssertEnv) :
    (s.assertDump env).Paired := by
  rw [LogPipe.assertDump, startDump]
  split
  · cases env.dumpStarts with
    | true => exact h.startTransaction hs .dump
    | false => exact h.settle hs rfl
  · exact h.settle hs rfl

theorem assertNoReset (h : Paired s) (hs : s.cpState = .working) (env : AssertEnv) :
    (s.assertNoReset env).Paired := by
  have hno : s.inTransaction = false := by rw [inTransaction, hs]
  rw [LogPipe.assertNoReset]
  split
  · split
    · exact (h.ofStorage true).assertDump hno env
    · exact h.ofStorage true
  · exact h

theorem processAssert (h : Paired s) (env : AssertEnv) : (s.processAssert env).Paired := by
  have hw : (if s.cpState ≠ .working then s.stopTransaction .working else s).Paired ∧
      (if s.cpState ≠ .working then s.stopTransaction .working else s).cpState = .working := by
    split
    · exact ⟨h.stopTransaction rfl, rfl⟩
    · exact ⟨h, not_not.mp ‹_›⟩
  rw [LogPipe.processAssert]
  split
  · exact h
  · split
    · exact hw.1.assertReset hw.2 env
    · exact hw.1.assertNoReset hw.2 env

theorem save (h : Paired s) (k : ConsumerKind) (client : Nat) (env : SaveEnv) :
    ∃ r, LogPipe.save k.workState (startConsumer k) s client env = some r ∧ r.2.Paired := by
  rw [LogPipe.save]
  split
  · exact ⟨_, rfl, h⟩
  split
  · exact ⟨_, rfl, h⟩
  split
  · exact ⟨_, rfl, h⟩
  split
  · exact ⟨_, rfl, h⟩
  rename_i _ _ hw _
  have hno : s.inTransaction = false := by rw [inTransaction, not_not.mp hw]
  rw [startConsumer, if_pos (h.pointers hno), Option.map_some]
  refine ⟨_, rfl, ?_⟩
  cases env.starts with
  | true =>
    refine ⟨?_, ?_, h.lost⟩
    · cases k <;> rfl
    · cases k <;> rfl
  | false => exact h.ofStorage true

theorem notify (h : Paired s) (k : ConsumerKind) (res : LogProcResult) :
    (s.notify k res).2.Paired := by
  cases k with
  | dump =>
    rw [LogPipe.notify, dumpTransactionNotify]
    split
    · exact h.stopTransaction rfl
    · exact h
  | _ =>
    rw [LogPipe.notify, diagTransactionNotify]
    split
    · exact ⟨rfl, rfl, h.lost⟩
    · exact h

theorem cancel (h : Paired s) (client : Nat) : (s.cancelTransResultNotify client).Paired := by
  rw [cancelTransResultNotify]
  split
  · exact ⟨h.consumer, h.diagHandler, h.lost⟩
  · exact h

theorem step (h : Paired s) (hok : s.EventOk e) : ∃ t, s.step e = some t ∧ t.Paired := by
  cases e with
  | start => exact ⟨_, rfl, h.consumer, h.diagHandler, h.lost⟩
  | stop => exact ⟨_, rfl, h.stop hok⟩
  | alive => exact ⟨_, rfl, h.settle hok rfl⟩
  | assert env => exact ⟨_, rfl, h.processAssert env⟩
  | saveSleepLog client env =>
    obtain ⟨r, hr, hp⟩ := h.save .sleepLog client env
    exact ⟨r.2, congrArg (Option.map Prod.snd) hr, hp⟩
  | saveRingbuf client env =>
    obtain ⟨r, hr, hp⟩ := h.save .ringbuf client env
    exact ⟨r.2, congrArg (Option.map Prod.snd) hr, hp⟩
  | notify res =>
    refine ⟨_, rfl, ?_⟩
    cases s.consumer with
    | none => exact h
    | some k => exact h.notify k res
  | lostNotify k res =>
    refine ⟨_, rfl, ?_⟩
    split
    · exact h.notify k res
    · exact h
  | cancel client => exact ⟨_, rfl, h.cancel client⟩

theorem step_bad (h : Paired s) (hbad : ¬ s.EventOk e) (hs : s.step e = some t) :
    ¬ t.Consistent := by
  intro hc
  cases e with
  | stop =>
    have hin : s.inTransaction = true := Bool.not_eq_false _ ▸ hbad
    cases hs
    exact (hc.mp hin).1 rfl
  | alive =>
    have hin : s.inTransaction = true := Bool.not_eq_false _ ▸ hbad
    have hne := (kind_ne_none_iff s).mpr hin
    cases hs
    have hout : false = true := hc.mpr ⟨h.consumer ▸ hne, h.diagHandler ▸ hne⟩
    cases hout
  | _ => exact hbad trivial

end Paired

/-- No assertion fails and the state agrees with the pointers throughout, exactly when logging is
never turned off, and no CP reports that it is alive, in the middle of a saving or a dump. -/
theorem state_agrees_iff (enable : Bool) (evs : List PipeEvent) :
    Along Consistent step (create enable) evs ↔ StepsOk EventOk step (create enable) evs := by
  have hinit : (create enable).Paired := ⟨rfl, rfl, rfl⟩
  exact along_iff_stepsOk (fun _ h => h.consistent) (fun _ _ h hok => h.step hok)
    (fun _ _ _ h hbad hs => h.step_bad hbad hs) hinit evs

theorem alive_breaks_saving :
    (exec step (create true) [.saveSleepLog 1 ⟨true, true⟩, .alive]).any
      (fun s => ¬ s.Consistent) = true ∧
    exec step (create true)
      [.saveSleepLog 1 ⟨true, true⟩, .alive, .saveRingbuf 1 ⟨true, true⟩] = none ∧
    (exec step (create true) [.saveSleepLog 1 ⟨true, true⟩, .stop]).any
      (fun s => ¬ s.Consistent) = true := by
  decide

end LogPipe

end SprdVendor.SlogModem
