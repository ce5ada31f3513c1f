import SprdVendor.Lib.Bytes
import SprdVendor.Lib.Run

namespace SprdVendor.Download
open Lib

inductive Command where
  | reboot
  | dump
  | start
  | stop
deriving DecidableEq

namespace Command

def text : Command → String
  | .reboot => "rebootwcn"
  | .dump => "dumpwcn"
  | .start => "startwcn"
  | .stop => "stopwcn"

def response : Command → String
  | .reboot => "rebootwcn-ok"
  | .dump => "dumpwcn-ok"
  | .start => "startwcn-ok"
  | .stop => "stopwcn-ok"

end Command

/-- The `type` of a slot; it is 0 before the slot is used. -/
inductive SocketType where
  | unused
  | slog
  | wcnd
deriving DecidableEq

/-- A `WcnClient`. A free slot has no `sockfd`; `conn` numbers the connections in the order in which
they were accepted, as a descriptor is used again. -/
structure WcnClient where
  sockfd : Option Nat
  type : SocketType
  conn : Nat
deriving DecidableEq

inductive Event where
  | read (conn : Nat) (cmd : Command)
  | sent (conn : Nat) (info : String)
  | powered
  | downloaded
  | dumped
deriving DecidableEq

structure Manager where
  clients : List WcnClient
  flagConnect : Bool
  flag : Command → Bool
  log : List Event

namespace WcnClient

def written (type : SocketType) (broken : List Nat) (c : WcnClient) : Option Nat :=
  match c.sockfd with
  | none => none
  | some fd => if c.type = type ∧ fd ∉ broken then some c.conn else none

def afterNotify (type : SocketType) (broken : List Nat) (c : WcnClient) : WcnClient :=
  match c.sockfd with
  | none => c
  | some fd =>
    if c.type = type ∧ (fd ∈ broken ∨ c.type = .wcnd) then ⟨none, c.type, c.conn⟩ else c

end WcnClient

namespace Manager

def sendNotifyToClient (m : Manager) (info : String) (type : SocketType) (broken : List Nat) :
    Manager :=
  ⟨m.clients.map (WcnClient.afterNotify type broken), m.flagConnect, m.flag,
    m.log ++ (m.clients.filterMap (WcnClient.written type broken)).map fun k => .sent k info⟩

def setFlag (m : Manager) (cmd : Command) (b : Bool) : Manager :=
  ⟨m.clients, m.flagConnect, fun c => if c = cmd then b else m.flag c, m.log⟩

def note (m : Manager) (e : Event) : Manager := ⟨m.clients, m.flagConnect, m.flag, m.log ++ [e]⟩

end Manager

inductive Check where
  | stopFirst
  | startFirst
  | dumpLast
  | rebootLast
  | startLast
deriving DecidableEq

def Check.command : Check → Command
  | .stopFirst => .stop
  | .startFirst => .start
  | .dumpLast => .dump
  | .rebootLast => .reboot
  | .startLast => .start

inductive Pc where
  | test (c : Check)
  | notify (c : Check)
  | clear (c : Check)
  | rebootTest
  | powerOff
  | powerOn
  | openUart
  | connect
  | fdl
  | dumpTest
  | dumpStart
  | dumpMem
  | dumpWait
  | images
deriving DecidableEq

def Pc.onDevice : Pc → Bool
  | .powerOff | .powerOn | .openUart | .connect | .fdl => true
  | .dumpTest | .dumpStart | .dumpMem | .dumpWait | .images => true
  | _ => false

inductive Goto where
  | pc (pc : Pc)
  | ret (ok : Bool)
deriving DecidableEq

def Check.pass : Check → Goto
  | .stopFirst => .pc (.test .startFirst)
  | .startFirst => .pc .rebootTest
  | .dumpLast => .pc (.test .rebootLast)
  | .rebootLast => .pc (.test .startLast)
  | .startLast => .ret true

def Check.behind : Check → Goto
  | .stopFirst => .ret true
  | .startFirst => .ret true
  | c => c.pass

/-- One step of `download_entry`; `ok` is the result of what the step asks of the device (at
`dumpWait`, whether the dump is complete). -/
def downloadEntry (pc : Pc) (ok : Bool) (broken : List Nat) (m : Manager) : Goto × Manager :=
  match pc with
  | .test c => (if m.flag c.command then .pc (.notify c) else c.pass, m)
  | .notify c => (.pc (.clear c), m.sendNotifyToClient c.command.response .wcnd broken)
  | .clear c => (c.behind, m.setFlag c.command false)
  | .rebootTest => (.pc (if m.flag .reboot then .powerOff else .powerOn), m)
  | .powerOff => (.pc .powerOn, m)
  -- the label `reboot_device`
  | .powerOn => (.pc .openUart, m.note .powered)
  | .openUart => (if ok then .pc .connect else .ret false, m)
  | .connect => (.pc (if ok then .fdl else .powerOn), m)
  | .fdl => (.pc (if ok then .dumpTest else .powerOn), m)
  | .dumpTest => (.pc (if m.flag .dump then .dumpStart else .images), m)
  | .dumpStart => (.pc .dumpMem, m.sendNotifyToClient "WCN-EXTERNAL-DUMP" .slog broken)
  | .dumpMem => (.pc .dumpWait, m)
  | .dumpWait => if ok then (.pc (.test .dumpLast), m.note .dumped) else (.pc .dumpWait, m)
  | .images => if ok then (.pc (.test .dumpLast), m.note .downloaded) else (.pc .powerOn, m)

def storeClientFd (flagConnect : Bool) (new : WcnClient) :
    List WcnClient → Option (List WcnClient)
  | [] => none
  | c :: cs =>
    if flagConnect = true ∧ new.type = .slog then
      if c.type = .slog then some (new :: cs)
      else (storeClientFd flagConnect new cs).map (c :: ·)
    else if c.sockfd = none then some (new :: cs)
    else if c.sockfd = new.sockfd then some (c :: cs)
    else (storeClientFd flagConnect new cs).map (c :: ·)

inductive MainPc where
  | entry (pc : Pc)
  | again
  | bootcomp

inductive ListenerPc where
  | select
  | scan (ready : List Nat) (i : Nat) (buffer : List Char)
  | entry (pc : Pc) (ready : List Nat) (i : Nat) (buffer : List Char)

structure State where
  manager : Manager
  main : MainPc
  listener : ListenerPc
  accepted : Nat

def wcnMaxClientNum : Nat := 10

def socketBufferSize : Nat := 128

def State.init : State :=
  ⟨⟨List.replicate wcnMaxClientNum ⟨none, .unused, 0⟩, false, fun _ => false, []⟩,
    .entry (.test .stopFirst), .select, 0⟩

def commandOf (text : List Char) : Option Command :=
  [Command.reboot, .dump, .start, .stop].find? fun cmd =>
    cmd.text.toList = text.takeWhile (· ≠ '\x00')

def fillBuffer (buffer bytes : List Char) : List Char := patch buffer 0 (bytes.take socketBufferSize)

/-- The loop body of `wcn_exception_listen` for one slot, up to the call of `download_entry`. -/
def scanSlot (ready : List Nat) (i : Nat) (buffer bytes : List Char) (m : Manager) :
    ListenerPc × Manager :=
  match m.clients[i]? with
  | none => (.select, m)
  | some c =>
    match c.sockfd with
    | none => (.scan ready (i + 1) buffer, m)
    | some fd =>
      if fd ∈ ready ∧ c.type = .wcnd then
        let m :=
          match commandOf bytes with
          | none => m
          | some cmd => m.note (.read c.conn cmd)
        let buffer := fillBuffer buffer bytes
        match commandOf buffer with
        | none => (.scan ready (i + 1) buffer, m)
        | some cmd => (.entry (.test .stopFirst) ready i buffer, m.setFlag cmd true)
      else (.scan ready (i + 1) buffer, m)

inductive Act where
  | main (ok : Bool) (broken : List Nat)
  | select (ready : List Nat)
  | listen (ok : Bool) (broken : List Nat) (bytes : List Char)
  | accept (fd : Nat) (type : SocketType)

namespace State

def mainStep (s : State) (ok : Bool) (broken : List Nat) : Option State :=
  match s.main with
  | .entry pc =>
    match downloadEntry pc ok broken s.manager with
    | (.pc pc, m) => some ⟨m, .entry pc, s.listener, s.accepted⟩
    | (.ret true, m) => some ⟨m, .bootcomp, s.listener, s.accepted⟩
    | (.ret false, m) => some ⟨m, .again, s.listener, s.accepted⟩
  | .again => some ⟨s.manager, .entry (.test .stopFirst), s.listener, s.accepted⟩
  | .bootcomp => none

def listenStep (s : State) (ok : Bool) (broken : List Nat) (bytes : List Char) : Option State :=
  match s.listener with
  | .select => none
  | .scan ready i buffer =>
    let r := scanSlot ready i buffer bytes s.manager
    some ⟨r.2, s.main, r.1, s.accepted⟩
  | .entry pc ready i buffer =>
    match downloadEntry pc ok broken s.manager with
    | (.pc pc, m) => some ⟨m, s.main, .entry pc ready i buffer, s.accepted⟩
    | (.ret _, m) => some ⟨m, s.main, .scan ready (i + 1) buffer, s.accepted⟩

/-- A client is accepted on a descriptor that is not in use. A table without a slot for it loses its
last client. -/
def acceptStep (s : State) (fd : Nat) (type : SocketType) : Option State :=
  if type = .unused ∨ ∃ c ∈ s.manager.clients, c.sockfd = some fd then none
  else
    let new : WcnClient := ⟨some fd, type, s.accepted⟩
    let clients := (storeClientFd s.manager.flagConnect new s.manager.clients).getD
      (s.manager.clients.dropLast ++ [new])
    some ⟨⟨clients, s.manager.flagConnect || type = .slog, s.manager.flag, s.manager.log⟩,
      s.main, s.listener, s.accepted + 1⟩

def step (s : State) : Act → Option State
  | .main ok broken => s.mainStep ok broken
  | .select ready =>
    match s.listener with
    | .select =>
      some ⟨s.manager, s.main, .scan ready 0 (List.replicate socketBufferSize '\x00'), s.accepted⟩
    | _ => none
  | .listen ok broken bytes => s.listenStep ok broken bytes
  | .accept fd type => s.acceptStep fd type

end State

end SprdVendor.Download
