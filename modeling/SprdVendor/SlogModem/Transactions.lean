import SprdVendor.SlogModem.LogPipe

namespace SprdVendor.SlogModem
open Lib

inductive ClientTransType where
  | unknown
  | saveSleepLog
  | saveRingbuf
deriving DecidableEq, Repr

inductive ClientTransState where
  | idle
  | executing
deriving DecidableEq, Repr

structure ClientHandler where
  transType : ClientTransType
  state : ClientTransState
  cp : Option Nat
deriving DecidableEq, Repr

namespace ClientHandler

def create : ClientHandler := ⟨.unknown, .idle, none⟩

def notifyTransResult (c : ClientHandler) : Bool × ClientHandler :=
  if c.state = .executing ∧ c.transType ≠ .unknown then
    (true, { c with state := .idle, cp := none })
  else (false, c)

end ClientHandler

structure CpEntry where
  pipe : LogPipe
  serial : Nat
deriving DecidableEq, Repr

/-- The CPs, the clients (`none` when the connection has been closed), and a record: for each
request accepted, in order, its client and its CP, and the numbers of the requests answered. -/
structure Controller where
  cps : List CpEntry
  clients : List (Option ClientHandler)
  accepted : List (Nat × Nat)
  answered : List Nat
deriving DecidableEq, Repr

namespace Controller

def create (enabled : List Bool) : Controller :=
  ⟨enabled.map fun b => ⟨LogPipe.create b, 0⟩, [], [], []⟩

def client (s : Controller) (c : Nat) : Option ClientHandler := (s.clients[c]?).join

def setPipe (s : Controller) (i : Nat) (pipe : LogPipe) : Controller :=
  { s with cps := s.cps.modify i fun p => { p with pipe := pipe } }

def onPipe (s : Controller) (i : Nat) (f : LogPipe → LogPipe) : Controller :=
  (s.cps[i]?).elim s fun p => s.setPipe i (f p.pipe)

def accept (s : Controller) (type : ClientTransType) (c i : Nat) (pipe : LogPipe) : Controller :=
  { s with
    cps := s.cps.set i ⟨pipe, s.accepted.length⟩
    clients := s.clients.set c (some ⟨type, .executing, some i⟩)
    accepted := s.accepted ++ [(c, i)] }

/-- `proc_sleep_log` and `proc_ringbuf` with valid parameters; every other result than
`LCR_IN_PROGRESS` is sent back at once. -/
def procSave (type : ClientTransType) (save : LogPipe → Nat → SaveEnv → Option (Lcr × LogPipe))
    (s : Controller) (c i : Nat) (env : SaveEnv) : Option Controller :=
  match s.client c, s.cps[i]? with
  | some _, some p =>
    (save p.pipe c env).map fun r =>
      if r.1 = .inProgress then s.accept type c i r.2 else s.setPipe i r.2
  | _, _ => some s

def procSleepLog : Controller → Nat → Nat → SaveEnv → Option Controller :=
  procSave .saveSleepLog LogPipe.saveSleepLog

def procRingbuf : Controller → Nat → Nat → SaveEnv → Option Controller :=
  procSave .saveRingbuf LogPipe.saveRingbuf

def processConnClosed (s : Controller) (c : Nat) : Controller :=
  (s.client c).elim s fun cl =>
    { (if cl.state ≠ .idle then
        cl.cp.elim s fun i => s.onPipe i fun p => p.cancelTransResultNotify c
      else s) with
      clients := s.clients.set c none }

/-- A consumer of kind `k` of CP `i` notifies its handler, and this one its client; there is no next
state when the client has been deleted. -/
def consumerNotify (s : Controller) (i : Nat) (k : ConsumerKind) (res : LogProcResult) :
    Option Controller :=
  (s.cps[i]?).elim (some s) fun p =>
    match (p.pipe.notify k res).1 with
    | none => some (s.setPipe i (p.pipe.notify k res).2)
    | some (c, _) =>
      (s.client c).map fun cl =>
        { s.setPipe i (p.pipe.notify k res).2 with
          clients := s.clients.set c (some cl.notifyTransResult.2)
          answered := if cl.notifyTransResult.1 then s.answered ++ [p.serial] else s.answered }

end Controller

inductive CtrlEvent where
  | connect
  | disconnect (c : Nat)
  | sleepLog (c i : Nat) (env : SaveEnv)
  | ringbuf (c i : Nat) (env : SaveEnv)
  | enableLog (i : Nat)
  | disableLog (i : Nat)
  | cpAlive (i : Nat)
  | cpAssert (i : Nat) (env : AssertEnv)
  | notify (i : Nat) (res : LogProcResult)
  | lostNotify (i : Nat) (k : ConsumerKind) (res : LogProcResult)
deriving DecidableEq, Repr

namespace Controller

/-- One event; there is no next state when an assertion fails or a deleted client is used. -/
def step (s : Controller) : CtrlEvent → Option Controller
  | .connect => some { s with clients := s.clients ++ [some ClientHandler.create] }
  | .disconnect c => some (s.processConnClosed c)
  | .sleepLog c i env => s.procSleepLog c i env
  | .ringbuf c i env => s.procRingbuf c i env
  | .enableLog i => some (s.onPipe i LogPipe.start)
  | .disableLog i => some (s.onPipe i LogPipe.stop)
  | .cpAlive i => some (s.onPipe i LogPipe.openOnAlive)
  | .cpAssert i env => some (s.onPipe i fun p => p.processAssert env)
  | .notify i res =>
    (((s.cps[i]?).bind fun p => p.pipe.consumer)).elim (some s) fun k => s.consumerNotify i k res
  | .lostNotify i k res =>
    if k ∈ (s.cps[i]?).elim [] fun p => p.pipe.lost then s.consumerNotify i k res else some s

/-- A client sends a save request only when it waits for no answer, a CP asserts only when no client
waits for its saving, and logging is turned off, or a CP reports that it is alive, only when nothing
of it is being saved. -/
def EventOk (s : Controller) : CtrlEvent → Prop
  | .sleepLog c _ _ | .ringbuf c _ _ => ∀ cl ∈ s.client c, cl.state = .idle
  | .disableLog i | .cpAlive i => ∀ p ∈ s.cps[i]?, p.pipe.inTransaction = false
  | .cpAssert i _ => ∀ p ∈ s.cps[i]?, p.pipe.transClient = none
  | _ => True

instance (s : Controller) (e : CtrlEvent) : Decidable (s.EventOk e) :=
  match e with
  | .sleepLog c _ _ | .ringbuf c _ _ =>
    inferInstanceAs (Decidable (∀ cl ∈ s.client c, cl.state = .idle))
  | .disableLog i | .cpAlive i =>
    inferInstanceAs (Decidable (∀ p ∈ s.cps[i]?, p.pipe.inTransaction = false))
  | .cpAssert i _ => inferInstanceAs (Decidable (∀ p ∈ s.cps[i]?, p.pipe.transClient = none))
  | .connect | .disconnect _ | .enableLog _ | .notify _ _ | .lostNotify _ _ _ =>
    inferInstanceAs (Decidable True)

end Controller

end SprdVendor.SlogModem
