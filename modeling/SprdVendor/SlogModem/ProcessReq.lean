import SprdVendor.SlogModem.LogConfig
import SprdVendor.SlogModem.Transactions

namespace SprdVendor.SlogModem
open Lib

/-! ### What a request asks for -/

inductive ResponseErrorCode
  | success | unknownReq | invalParam | failure | inTransaction | logDisabled
  | sleepLogNotSupported | ringbufNotSupported | cpAsserted
deriving DecidableEq, Repr

inductive Request
  | ignore
  | respond (err : ResponseErrorCode)
  | clear
  | reload
  | enableLog (modems : List CpType)
  | disableLog (modems : List CpType)
  | enableMd
  | disableMd
  | miniDump
  | getLogFileSize
  | setLogFileSize (n : Nat)
  | getDataPartSize
  | setDataPartSize (n : Nat)
  | getSdSize
  | setSdSize (n : Nat)
  | getLogOverwrite
  | setLogOverwrite (en : Bool)
  | setDumpNotify (cpt : CpType) (en : Bool)
  | saveSleepLog (cpt : CpType)
  | saveRingbuf (cpt : CpType)
deriving DecidableEq, Repr

def getToken (data : List Char) (len : Nat) : Option (Name × Nat) :=
  (token isBlank (data.take len)).map fun r => (r.1, (data.take len).length - r.2.length)

def getCpType (cp : Name) : Option CpType :=
  [(['T', 'D'], .td), (['W', 'C', 'N'], .wcn), (['W', 'C', 'D', 'M', 'A'], .wcdma),
    (['5', 'M', 'O', 'D', 'E'], .fiveMode), (['T', 'D', 'D', '-', 'L', 'T', 'E'], .threeMode),
    (['F', 'D', 'D', '-', 'L', 'T', 'E'], CpType.fourMode)].lookup cp

/-- The loop of `parse_modem_set` with `left` bytes up to the end of the line; `len` stays what it
was at the start of the loop. -/
def modemLoop (len : Nat) : Nat → List Char → Nat → List CpType → Option (List CpType)
  | 0, _, _, ms => some ms
  | fuel + 1, req, left, ms =>
    if left = 0 then some ms
    else
      match getToken req len with
      | none => some ms
      | some (t, off) =>
        if 5 ≤ ms.length then none
        else
          match getCpType t with
          | none => none
          | some cpt =>
            if cpt ∈ ms then none
            else modemLoop len fuel (req.drop off) (left - off) (ms ++ [cpt])

def parseModemSet (req : List Char) (len : Nat) : Option (List CpType) :=
  modemLoop len len req len []

def procSlogctl (req : List Char) (len : Nat) : Request :=
  match getToken req len with
  | none => .respond .unknownReq
  | some (t, _) =>
    if t = ['c', 'l', 'e', 'a', 'r'] then .clear
    else if t = ['r', 'e', 'l', 'o', 'a', 'd'] then .reload
    else .respond .unknownReq

def procModems (done : List CpType → Request) (req : List Char) (len : Nat) : Request :=
  match parseModemSet req len with
  | none => .respond .invalParam
  | some [] => .respond .invalParam
  | some (cpt :: ms) => done (cpt :: ms)

def procEnableLog : List Char → Nat → Request := procModems .enableLog
def procDisableLog : List Char → Nat → Request := procModems .disableLog

/-- A request about mini dumps. The loop over what follows the token leaves at the first byte, since
none is a space and a tab. -/
def procMd (done : Request) (req : List Char) (len : Nat) : Request :=
  if (req.take len).any (fun c => c ≠ ' ' ∨ c ≠ '\t') then .respond .invalParam else done

def procEnableMd : List Char → Nat → Request := procMd .enableMd
def procDisableMd : List Char → Nat → Request := procMd .disableMd
def procMiniDump : List Char → Nat → Request := procMd .miniDump

def procNumber (done : Nat → Request) (req : List Char) (len : Nat) : Request :=
  match getToken req len with
  | none => .respond .invalParam
  | some (t, off) =>
    match parseFixed t 0 with
    | none => .respond .invalParam
    | some n =>
      if len - off ≠ 0 ∧ (getToken (req.drop off) (len - off)).isSome then .respond .invalParam
      else done n

def procSetLogFileSize : List Char → Nat → Request := procNumber .setLogFileSize
def procSetDataPartSize : List Char → Nat → Request := procNumber .setDataPartSize
def procSetSdSize : List Char → Nat → Request := procNumber .setSdSize

def procPlain (done : Request) (req : List Char) (len : Nat) : Request :=
  if (getToken req len).isSome then .respond .invalParam else done

def procEnableOverwrite : List Char → Nat → Request := procPlain (.setLogOverwrite true)
def procDisableOverwrite : List Char → Nat → Request := procPlain (.setLogOverwrite false)
def procGetLogFileSize : List Char → Nat → Request := procPlain .getLogFileSize
def procGetDataPartSize : List Char → Nat → Request := procPlain .getDataPartSize
def procGetSdSize : List Char → Nat → Request := procPlain .getSdSize
def procGetLogOverwrite : List Char → Nat → Request := procPlain .getLogOverwrite

def procNotify (en : Bool) (req : List Char) (len : Nat) : Request :=
  match getToken req len with
  | none => .respond .invalParam
  | some (t, off) =>
    match getCpType t with
    | none => .respond .invalParam
    | some cpt =>
      match getToken (req.drop off) (len - off) with
      | none => .respond .invalParam
      | some (event, off') =>
        if event ≠ ['D', 'U', 'M', 'P'] then .respond .invalParam
        else if len - off - off' ≠ 0 ∧
            (getToken ((req.drop off).drop off') (len - off - off')).isSome then
          .respond .invalParam
        else .setDumpNotify cpt en

def procSubscribe : List Char → Nat → Request := procNotify true
def procUnsubscribe : List Char → Nat → Request := procNotify false

def procSave (done : CpType → Request) (req : List Char) (len : Nat) : Request :=
  match getToken req len with
  | none => .respond .invalParam
  | some (t, off) =>
    match getCpType t with
    | none => .respond .invalParam
    | some cpt =>
      if (getToken (req.drop off) (len - off)).isSome then .respond .invalParam else done cpt

def procSleepLog : List Char → Nat → Request := procSave .saveSleepLog
def procRingbuf : List Char → Nat → Request := procSave .saveRingbuf

inductive Command
  | slogctl | enableMd | miniDump | subscribe | enableLog | disableMd | disableLog | unsubscribe
  | saveRingbuf | saveSleepLog | getSdMaxSize | setSdMaxSize | getLogOverwrite | getLogFileSize
  | setLogFileSize | getDataMaxSize | setDataMaxSize | enableLogOverwrite | disableLogOverwrite
deriving DecidableEq, Repr

def commands : List (Name × Command) :=
  [(['s', 'l', 'o', 'g', 'c', 't', 'l'], .slogctl),
    (['E', 'N', 'A', 'B', 'L', 'E', '_', 'M', 'D'], .enableMd),
    (['M', 'I', 'N', 'I', '_', 'D', 'U', 'M', 'P'], .miniDump),
    (['S', 'U', 'B', 'S', 'C', 'R', 'I', 'B', 'E'], .subscribe),
    (['E', 'N', 'A', 'B', 'L', 'E', '_', 'L', 'O', 'G'], .enableLog),
    (['D', 'I', 'S', 'A', 'B', 'L', 'E', '_', 'M', 'D'], .disableMd),
    (['D', 'I', 'S', 'A', 'B', 'L', 'E', '_', 'L', 'O', 'G'], .disableLog),
    (['U', 'N', 'S', 'U', 'B', 'S', 'C', 'R', 'I', 'B', 'E'], .unsubscribe),
    (['S', 'A', 'V', 'E', '_', 'R', 'I', 'N', 'G', 'B', 'U', 'F'], .saveRingbuf),
    (['S', 'A', 'V', 'E', '_', 'S', 'L', 'E', 'E', 'P', '_', 'L', 'O', 'G'], .saveSleepLog),
    (['G', 'E', 'T', '_', 'S', 'D', '_', 'M', 'A', 'X', '_', 'S', 'I', 'Z', 'E'], .getSdMaxSize),
    (['S', 'E', 'T', '_', 'S', 'D', '_', 'M', 'A', 'X', '_', 'S', 'I', 'Z', 'E'], .setSdMaxSize),
    (['G', 'E', 'T', '_', 'L', 'O', 'G', '_', 'O', 'V', 'E', 'R', 'W', 'R', 'I', 'T', 'E'],
      .getLogOverwrite),
    (['G', 'E', 'T', '_', 'L', 'O', 'G', '_', 'F', 'I', 'L', 'E', '_', 'S', 'I', 'Z', 'E'],
      .getLogFileSize),
    (['S', 'E', 'T', '_', 'L', 'O', 'G', '_', 'F', 'I', 'L', 'E', '_', 'S', 'I', 'Z', 'E'],
      .setLogFileSize),
    (['G', 'E', 'T', '_', 'D', 'A', 'T', 'A', '_', 'M', 'A', 'X', '_', 'S', 'I', 'Z', 'E'],
      .getDataMaxSize),
    (['S', 'E', 'T', '_', 'D', 'A', 'T', 'A', '_', 'M', 'A', 'X', '_', 'S', 'I', 'Z', 'E'],
      .setDataMaxSize),
    (['E', 'N', 'A', 'B', 'L', 'E', '_', 'L', 'O', 'G', '_', 'O', 'V', 'E', 'R', 'W', 'R', 'I',
      'T', 'E'], .enableLogOverwrite),
    (['D', 'I', 'S', 'A', 'B', 'L', 'E', '_', 'L', 'O', 'G', '_', 'O', 'V', 'E', 'R', 'W', 'R',
      'I', 'T', 'E'], .disableLogOverwrite)]

def Command.proc : Command → List Char → Nat → Request
  | .slogctl => procSlogctl
  | .enableMd => procEnableMd
  | .miniDump => procMiniDump
  | .subscribe => procSubscribe
  | .enableLog => procEnableLog
  | .disableMd => procDisableMd
  | .disableLog => procDisableLog
  | .unsubscribe => procUnsubscribe
  | .saveRingbuf => procRingbuf
  | .saveSleepLog => procSleepLog
  | .getSdMaxSize => procGetSdSize
  | .setSdMaxSize => procSetSdSize
  | .getLogOverwrite => procGetLogOverwrite
  | .getLogFileSize => procGetLogFileSize
  | .setLogFileSize => procSetLogFileSize
  | .getDataMaxSize => procGetDataPartSize
  | .setDataMaxSize => procSetDataPartSize
  | .enableLogOverwrite => procEnableOverwrite
  | .disableLogOverwrite => procDisableOverwrite

/-- `process_req` up to the calls of the controller; `req` is the memory from the start of the line
on. -/
def parseReq (req : List Char) (len : Nat) : Request :=
  match getToken req len with
  | none => .ignore
  | some (t, off) =>
    match commands.lookup t with
    | none => .respond .unknownReq
    | some c => c.proc (req.drop off) (len - off)

/-! ### What is done -/

structure ControllerOps (σ : Type u) where
  clearLog : σ → Int × σ
  reloadSlogConf : σ → Int × σ
  enableLog : List CpType → σ → Int × σ
  disableLog : List CpType → σ → Int × σ
  enableMd : σ → Int × σ
  disableMd : σ → Int × σ
  miniDump : σ → Int × σ
  getLogFileSize : σ → Nat
  setLogFileSize : Nat → σ → σ
  getDataPartSize : σ → Nat
  setDataPartSize : Nat → σ → σ
  getSdSize : σ → Nat
  setSdSize : Nat → σ → σ
  getLogOverwrite : σ → Bool
  setLogOverwrite : Bool → σ → σ
  /-- Whether `get_cp` finds the CP. -/
  getCp : CpType → σ → Bool
  saveSleepLog : CpType → σ → Int × σ
  saveRingbuf : CpType → σ → Int × σ

/-- A client connection with the controller behind it; `sent` is what was written to the socket and
`events` says that `POLLIN` is on. -/
structure ClientConn (σ : Type u) where
  controller : σ
  sent : List Char
  cpDumpNotify : CpType → Bool
  transType : ClientTransType
  state : ClientTransState
  cp : Option CpType
  events : Bool

namespace ResponseErrorCode

def code : ResponseErrorCode → Nat
  | success => 0
  | unknownReq => 1
  | invalParam => 2
  | failure => 3
  | inTransaction => 4
  | logDisabled => 5
  | sleepLogNotSupported => 6
  | ringbufNotSupported => 7
  | cpAsserted => 8

def text (err : ResponseErrorCode) : List Char :=
  if err = success then ['O', 'K', '\n']
  else ['E', 'R', 'R', 'O', 'R', ' '] ++ Nat.toDigits 10 err.code ++ ['\n']

end ResponseErrorCode

def plainResult (ret : Int) : ResponseErrorCode := if ret = 0 then .success else .failure

def clearResult (ret : Int) : ResponseErrorCode :=
  if ret = 0 then .success else if ret = -2 then .inTransaction else .failure

def transResultToReqResult (ret : Int) : ResponseErrorCode :=
  if ret = 0 then .success
  else if ret = -2 then .inTransaction
  else if ret = -3 then .logDisabled
  else if ret = -4 then .sleepLogNotSupported
  else if ret = -5 then .ringbufNotSupported
  else if ret = -6 then .cpAsserted
  else .failure

namespace ClientConn

variable {σ : Type u}

def sendResponse (s : ClientConn σ) (err : ResponseErrorCode) : ClientConn σ :=
  { s with sent := s.sent ++ err.text }

def sendValue (s : ClientConn σ) (value : List Char) : ClientConn σ :=
  { s with sent := s.sent ++ (['O', 'K', ' '] ++ value ++ ['\n']) }

def call (s : ClientConn σ) (f : σ → Int × σ) (result : Int → ResponseErrorCode) : ClientConn σ :=
  { s with controller := (f s.controller).2 }.sendResponse (result (f s.controller).1)

def assign (s : ClientConn σ) (f : σ → σ) : ClientConn σ :=
  { s with controller := f s.controller }.sendResponse .success

def startTrans (ops : ControllerOps σ) (s : ClientConn σ) (type : ClientTransType)
    (f : CpType → σ → Int × σ) (cpt : CpType) : ClientConn σ :=
  if ops.getCp cpt s.controller = false then s.sendResponse .invalParam
  else if (f cpt s.controller).1 = 1 then
    { s with
      controller := (f cpt s.controller).2
      events := false
      transType := type
      state := .executing
      cp := some cpt }
  else s.call (f cpt) transResultToReqResult

def perform (ops : ControllerOps σ) (s : ClientConn σ) : Request → ClientConn σ
  | .ignore => s
  | .respond err => s.sendResponse err
  | .clear => s.call ops.clearLog clearResult
  | .reload => s.call ops.reloadSlogConf plainResult
  | .enableLog ms => s.call (ops.enableLog ms) plainResult
  | .disableLog ms => s.call (ops.disableLog ms) plainResult
  | .enableMd => s.call ops.enableMd plainResult
  | .disableMd => s.call ops.disableMd plainResult
  | .miniDump => s.call ops.miniDump plainResult
  | .getLogFileSize => s.sendValue (LogConfig.printUnsigned (ops.getLogFileSize s.controller))
  | .setLogFileSize n => s.assign (ops.setLogFileSize n)
  | .getDataPartSize => s.sendValue (LogConfig.printUnsigned (ops.getDataPartSize s.controller))
  | .setDataPartSize n => s.assign (ops.setDataPartSize n)
  | .getSdSize => s.sendValue (LogConfig.printUnsigned (ops.getSdSize s.controller))
  | .setSdSize n => s.assign (ops.setSdSize n)
  | .getLogOverwrite =>
    s.sendValue (if ops.getLogOverwrite s.controller then ['E', 'N', 'A', 'B', 'L', 'E']
      else ['D', 'I', 'S', 'A', 'B', 'L', 'E'])
  | .setLogOverwrite en => s.assign (ops.setLogOverwrite en)
  | .setDumpNotify cpt en =>
    { s with cpDumpNotify := Function.update s.cpDumpNotify cpt en }.sendResponse .success
  | .saveSleepLog cpt => startTrans ops s .saveSleepLog ops.saveSleepLog cpt
  | .saveRingbuf cpt => startTrans ops s .saveRingbuf ops.saveRingbuf cpt

def processReq (ops : ControllerOps σ) (s : ClientConn σ) (req : List Char) (len : Nat) :
    ClientConn σ :=
  s.perform ops (parseReq req len)

end ClientConn

end SprdVendor.SlogModem
