import SprdVendor.Lib.Slots

namespace SprdVendor.Wcnd
open Lib

inductive Cp2State where
  | started
  | starting
  | stopped
  | stopping
  | assert
  deriving DecidableEq

inductive Radio where
  | bt
  | wifi
  deriving DecidableEq

abbrev BtWifiState := Radio → Bool

namespace BtWifiState

def off : BtWifiState := fun _ => false

def turnOn (s : BtWifiState) (r : Radio) : BtWifiState := fun x => s x || decide (x = r)

def turnOff (s : BtWifiState) (r : Radio) : BtWifiState := fun x => s x && !decide (x = r)

def any (s : BtWifiState) : Bool := s .bt || s .wifi

end BtWifiState

/-- A BT or WIFI command that is none of the four known ones has the event 0. -/
inductive Event where
  | unknown
  | radioOpen (r : Radio)
  | radioClose (r : Radio)
  | cp2Ok
  | cp2Assert
  | cp2Down
  | pendingEvent
  | cp2PowerOnReq
  | cp2PowerOffReq
  deriving DecidableEq

/-- The requests of a client; `other` is a BT or WIFI command that is none of the four. -/
inductive Command where
  | radioOpen (r : Radio)
  | radioClose (r : Radio)
  | powerOn
  | powerOff
  | other
  deriving DecidableEq

def Command.event : Command → Event
  | .radioOpen r => .radioOpen r
  | .radioClose r => .radioClose r
  | .powerOn => .cp2PowerOnReq
  | .powerOff => .cp2PowerOffReq
  | .other => .unknown

/-- The bits of `pending_events`: only open and power-on events are ever put there. -/
structure PendingEvents where
  opens : BtWifiState
  powerOn : Bool

namespace PendingEvents

def clear : PendingEvents := ⟨.off, false⟩

def any (p : PendingEvents) : Bool := p.opens.any || p.powerOn

def add (p : PendingEvents) : Event → PendingEvents
  | .radioOpen r => { p with opens := p.opens.turnOn r }
  | .cp2PowerOnReq => { p with powerOn := true }
  | _ => p

end PendingEvents

inductive ClientType where
  | notify
  | cmd
  | cmdSubtypeClose
  | cmdSubtypeOpen
  | cmdPending
  | sleep
  deriving DecidableEq

def ClientType.mask : ClientType → ClientType
  | .cmdSubtypeClose => .cmd
  | .cmdSubtypeOpen => .cmd
  | t => t

/-- A slot of the client table; it is free while there is no socket. -/
structure WcndClient where
  sockfd : Option Nat
  type : ClientType
  deriving DecidableEq

def WcndClient.free : WcndClient := ⟨none, .notify⟩

def wcndMaxClientNum : Nat := 10

inductive Response where
  | ok
  | fail
  deriving DecidableEq

structure Answer where
  response : Response
  state : Cp2State
  deriving DecidableEq

inductive SelfCmd where
  | startCp2
  | stopCp2
  | pendingEvent
  deriving DecidableEq

structure WcndManager where
  isWcnModemEnabled : Bool
  state : Cp2State
  notifyEnabled : Bool
  btwifiState : BtWifiState
  savedBtwifiState : BtWifiState
  pendingEvents : PendingEvents
  clients : List WcndClient
  /-- What has been written to the sockets of the clients. -/
  sent : List (Nat × Answer)
  /-- What has been written to the daemon's own socket. -/
  selfCmds : List SelfCmd

/-- A message for the state machine; one of the daemon itself has `replyto_fd` -1. -/
structure WcndMessage where
  event : Event
  replytoFd : Option Nat

def ClientType.takes (t notifyType : ClientType) : Bool :=
  t = notifyType || (notifyType = .cmd && t.mask = notifyType)

namespace WcndManager

section notify

/- The sockets that can not be written to. -/
variable (broken : Nat → Bool)

def notified (notifyType : ClientType) (c : WcndClient) : WcndClient :=
  match c.sockfd with
  | none => c
  | some fd =>
    if c.type.takes notifyType then
      if broken fd then .free
      else if notifyType = .cmd || notifyType = .cmdPending || notifyType.mask = .cmd then
        { c with type := .sleep }
      else c
    else c

def written (notifyType : ClientType) (c : WcndClient) : Option Nat :=
  c.sockfd.filter fun fd => c.type.takes notifyType && !broken fd

def sendNotifyToClient (m : WcndManager) (info : Response) (notifyType : ClientType) :
    WcndManager :=
  if notifyType = .notify && !m.notifyEnabled then m
  else
    { m with
      clients := m.clients.map (notified broken notifyType)
      sent := m.sent ++ (m.clients.filterMap (written broken notifyType)).map
        fun fd => (fd, ⟨info, m.state⟩) }

end notify

def sendSelfCmd (m : WcndManager) (cmd : SelfCmd) : WcndManager :=
  { m with selfCmds := m.selfCmds ++ [cmd] }

def setType (m : WcndManager) (fd : Option Nat) (t : ClientType) : WcndManager :=
  { m with clients := modifyFirst (fun c => c.sockfd = fd) ({ · with type := t }) m.clients }

variable (broken : Nat → Bool)

def cp2Stopped (m : WcndManager) (msg : WcndMessage) : WcndManager :=
  let m := { m with notifyEnabled := false }
  match msg.event with
  | .radioOpen r =>
    sendSelfCmd { m with btwifiState := m.btwifiState.turnOn r, state := .starting } .startCp2
  | .radioClose _ => m.sendNotifyToClient broken .ok .cmd
  | .cp2PowerOffReq => m.sendNotifyToClient broken .ok .cmd
  | .pendingEvent =>
    let m := { m with btwifiState := fun r => m.btwifiState r || m.pendingEvents.opens r }
    if m.btwifiState.any || m.pendingEvents.powerOn then
      sendSelfCmd { m with state := .starting } .startCp2
    else m
  | .cp2PowerOnReq => sendSelfCmd { m with state := .starting } .startCp2
  | .cp2Ok => { m with state := .started, notifyEnabled := true }
  | _ => m

def cp2Starting (m : WcndManager) (msg : WcndMessage) : WcndManager :=
  let m := { m with notifyEnabled := false }
  match msg.event with
  | .radioClose _ => m.sendNotifyToClient broken .ok .cmd
  | .radioOpen r => { m with btwifiState := m.btwifiState.turnOn r }
  | .cp2Ok =>
    let m := { m with state := .started }
    let m := m.sendNotifyToClient broken .ok .cmd
    let m := m.sendNotifyToClient broken .ok .cmdPending
    { m with notifyEnabled := true }
  | .cp2Down =>
    let m := { m with state := .stopped }
    let m := m.sendNotifyToClient broken .fail .cmd
    m.sendNotifyToClient broken .fail .cmdPending
  | .cp2PowerOffReq => m.sendNotifyToClient broken .ok .cmd
  | _ => m

def clearBit (s : BtWifiState) : Event → BtWifiState
  | .radioClose r => s.turnOff r
  | _ => s

def setBit (s : BtWifiState) : Event → BtWifiState
  | .radioOpen r => s.turnOn r
  | _ => s

def startedClose (m : WcndManager) (event : Event) : WcndManager :=
  if m.savedBtwifiState.any then
    sendNotifyToClient broken { m with savedBtwifiState := clearBit m.savedBtwifiState event }
      .ok .cmd
  else
    let m := { m with btwifiState := clearBit m.btwifiState event }
    if m.btwifiState.any then m.sendNotifyToClient broken .ok .cmd
    else sendSelfCmd { m with state := .stopping } .stopCp2

def startedOpen (m : WcndManager) (event : Event) : WcndManager :=
  sendNotifyToClient broken { m with btwifiState := setBit m.btwifiState event } .ok .cmd

def cp2Started (m : WcndManager) (msg : WcndMessage) : WcndManager :=
  let m := { m with notifyEnabled := true }
  match msg.event with
  | .radioClose r => m.startedClose broken (.radioClose r)
  | .cp2PowerOffReq => m.startedClose broken .cp2PowerOffReq
  | .radioOpen r => m.startedOpen broken (.radioOpen r)
  | .cp2PowerOnReq => m.startedOpen broken .cp2PowerOnReq
  | .cp2Assert => { m with savedBtwifiState := m.btwifiState, state := .assert }
  | .cp2Down => { m with state := .stopped }
  | _ => m

def cp2Assert (m : WcndManager) (msg : WcndMessage) : WcndManager :=
  let m := { m with notifyEnabled := true }
  match msg.event with
  | .radioClose r =>
    let m := if m.savedBtwifiState.any then
      { m with savedBtwifiState := m.savedBtwifiState.turnOff r } else m
    let m := m.setType msg.replytoFd .cmdSubtypeClose
    m.sendNotifyToClient broken .ok .cmdSubtypeClose
  | .radioOpen r =>
    setType { m with btwifiState := m.btwifiState.turnOn r } msg.replytoFd .cmdSubtypeOpen
  | .cp2Ok => sendNotifyToClient broken { m with state := .started } .ok .cmd
  | .cp2Down => sendNotifyToClient broken { m with state := .stopped } .fail .cmd
  | _ => m

def stoppingOpen (m : WcndManager) (msg : WcndMessage) : WcndManager :=
  let m := m.setType msg.replytoFd .cmdPending
  { m with pendingEvents := m.pendingEvents.add msg.event }

def cp2Stopping (m : WcndManager) (msg : WcndMessage) : WcndManager :=
  let m := { m with notifyEnabled := false }
  match msg.event with
  | .radioOpen _ => m.stoppingOpen msg
  | .cp2PowerOnReq => m.stoppingOpen msg
  | .cp2Down =>
    let m := { m with state := .stopped }
    let m := m.sendNotifyToClient broken .ok .cmd
    if m.pendingEvents.any then m.sendSelfCmd .pendingEvent else m
  | _ => m

def smStep (m : WcndManager) (msg : WcndMessage) : WcndManager :=
  if m.isWcnModemEnabled then
    match m.state with
    | .stopped => m.cp2Stopped broken msg
    | .starting => m.cp2Starting broken msg
    | .started => m.cp2Started broken msg
    | .assert => m.cp2Assert broken msg
    | .stopping => m.cp2Stopping broken msg
  else m

/-- The branches of `wcnd_runcommand` for these requests. The daemon's own socket, which is the
socket of no client, is `none`; only power requests come from there. -/
def runCommand (m : WcndManager) (clientFd : Option Nat) (cmd : Command) : WcndManager :=
  let m := if clientFd.isSome then m.setType clientFd .cmd else m
  if m.isWcnModemEnabled then m.smStep broken ⟨cmd.event, clientFd⟩
  else m.sendNotifyToClient broken .ok .cmd

/-- A new connection goes to the first free slot; in a full table it is closed again. -/
def accept (m : WcndManager) (fd : Nat) : WcndManager :=
  { m with
    clients := modifyFirst (fun c => c.sockfd = none || c.sockfd = some fd)
      (fun c => if c.sockfd = none then ⟨some fd, .notify⟩ else c) m.clients }

def zap (m : WcndManager) (fd : Nat) : WcndManager :=
  { m with clients := modifyFirst (fun c => c.sockfd = some fd) (fun _ => .free) m.clients }

def smInit (isWcnModemEnabled : Bool) : WcndManager where
  isWcnModemEnabled := isWcnModemEnabled
  state := if isWcnModemEnabled then .stopped else .started
  notifyEnabled := !isWcnModemEnabled
  btwifiState := fun _ => !isWcnModemEnabled
  savedBtwifiState := .off
  pendingEvents := .clear
  clients := List.replicate wcndMaxClientNum .free
  sent := []
  selfCmds := []

end WcndManager

end SprdVendor.Wcnd
