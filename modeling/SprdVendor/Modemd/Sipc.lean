import SprdVendor.Lib.Run

namespace SprdVendor.Modemd
open Lib List

inductive Modem where
  | td
  | w
  | lte
  | lf
  | tl
deriving DecidableEq, Repr

inductive ModemState where
  | ready
  | assert
  | reset
deriving DecidableEq, Repr

def Modem.type : Modem → String
  | .td => "TD"
  | .w => "W"
  | .lte => "L"
  | .lf => "LF"
  | .tl => "TL"

def Modem.hang : Modem → String
  | .td => "TD Modem Hang"
  | .w => "W Modem Hang"
  | .tl => "TL Modem Hang"
  | .lf => "LF Modem Hang"
  | .lte => "LTE Modem Hang"

inductive Note where
  | broadcast (stat : String) (info : String)
  | inform (text : String)
  | stopService (m : Modem)
  | loadImages (m : Modem)
  | startService (m : Modem)
  | minidump
  | resetCommand
  | reloadMessage
deriving DecidableEq, Repr

/-- The recorded states of the modems, the variable `is_assert` of a thread, and what was done. -/
structure Daemon where
  state : Modem → ModemState
  isAssert : Bool
  notes : List Note

structure Env where
  /-- `persist.sys.sprd.modemreset` -/
  reset : Bool
  /-- `ro.modem.external.enable` -/
  external : Bool
  /-- `persist.radio.ssda.mode` is svlte -/
  svlte : Bool
  /-- `persist.radio.ssda.testmode` is that of SVLTE -/
  testSvlte : Bool
  /-- the log and the diag channel open -/
  logOpens : Bool
  diagOpens : Bool

def strstr (text needle : String) : Bool := decide (needle.toList <:+: text.toList)

namespace Daemon

def note (ns : List Note) (s : Daemon) : Daemon := { s with notes := s.notes ++ ns }

def setState (m : Modem) (v : ModemState) (s : Daemon) : Daemon :=
  { s with state := Function.update s.state m v }

def setAssert (b : Bool) (s : Daemon) : Daemon := { s with isAssert := b }

def aliveNotes (m : Modem) : List Note :=
  [.broadcast "modem_alive" (m.type ++ " Modem Alive"), .inform (m.type ++ " Modem Alive")]

def loadSipcModemImg (m : Modem) (s : Daemon) : Daemon :=
  let s := s.note [.loadImages m]
  let s := if s.isAssert then s.note (aliveNotes m) else s
  (s.note [.startService m]).setState m .ready

def startExternalModem (env : Env) (s : Daemon) : Daemon :=
  if env.svlte then
    let s := (s.note [.startService .td]).setState .td .ready
    if env.testSvlte then (s.note [.startService .lte]).setState .lte .ready else s
  else (s.note [.startService .lte]).setState .lte .ready

def loadModemImage (env : Env) (s : Daemon) : Daemon :=
  (s.note [.reloadMessage]).startExternalModem env

def blockedModem (buf : String) : Option Modem :=
  if strstr buf "TD Modem Blocked" then some .td
  else if strstr buf "W Modem Blocked" then some .w
  else if strstr buf "L Modem Blocked" then some .lte
  else if strstr buf "TL Modem Blocked" then some .tl
  else if strstr buf "LF Modem Blocked" then some .lf
  else none

/-- A round of `detect_modem_blocked` of the modem `m` with the text it has read. Whatever comes of
the loop device, `raw_reset` follows. -/
def detectModemBlocked (env : Env) (m : Modem) (buf : String) (s : Daemon) : Daemon :=
  match blockedModem buf with
  | none => s
  | some b =>
    if s.state b = .ready then
      let s := s.setState b .assert
      let s := if env.external ∧ b ≠ .w then s else s.setAssert true
      let s := s.note [.broadcast "modem_block" buf, .inform buf, .stopService m]
      if env.reset then
        if env.external then s.loadModemImage env else (s.loadSipcModemImg m).setAssert false
      else s
    else s

def handleSipc (env : Env) (m : Modem) (buf : String) (s : Daemon) : Daemon :=
  if strstr buf "Modem Reset" then
    let s := (s.setState m .reset).note [.broadcast "modem_reset" buf, .inform buf]
    (((s.setAssert true).note [.stopService m]).loadSipcModemImg m).setAssert false
  else if strstr buf "Modem Assert" ∨ strstr buf "wdtirq" then
    let s := s.setState m .assert
    let s :=
      if strstr buf "wdtirq" then s.note [.inform m.hang]
      else s.note [.broadcast "modem_assert" buf, .inform buf]
    let s := (s.setAssert true).note [.stopService m, .minidump]
    -- no image is loaded here: the modem is told to reset itself
    if env.reset ∧ env.logOpens ∧ env.diagOpens then s.note [.resetCommand] else s
  else s

end Daemon

inductive Device where
  | assert
  | watchdog
deriving DecidableEq, Repr

/-- The loop of `detect_sipc_modem`: the messages that wait on each device, the set `rfds` as the
next `select` gets it, and the daemon. -/
structure Sipc where
  pending : Device → List String
  rfds : Device → Bool
  daemon : Daemon
  /-- the messages read of each device -/
  taken : Device → List String
  /-- some `select` has returned while the device had no message -/
  idle : Device → Bool

inductive SipcEvent where
  | arrive (d : Device) (msg : String)
  | turn (env : Env)

namespace Sipc

def ready (s : Sipc) (d : Device) : Bool := s.rfds d && !(s.pending d).isEmpty

/-- The device that is read: `FD_ISSET` is asked for the assert device first. -/
def chosen (s : Sipc) : Option Device :=
  if s.ready .assert then some .assert else if s.ready .watchdog then some .watchdog else none

/-- One step: a message arrives, or `select` returns and a message is read and handled. There is no
turn while `select` waits. -/
def next (m : Modem) (s : Sipc) : SipcEvent → Option Sipc
  | .arrive d msg =>
    if msg = "" then none
    else some { s with pending := Function.update s.pending d (s.pending d ++ [msg]) }
  | .turn env =>
    match s.chosen with
    | none => none
    | some d =>
      match s.pending d with
      | [] => none
      | msg :: rest => some {
          pending := Function.update s.pending d rest
          rfds := s.ready
          daemon := s.daemon.handleSipc env m msg
          taken := Function.update s.taken d (s.taken d ++ [msg])
          idle := fun d => s.idle d || (s.pending d).isEmpty }

def start (daemon : Daemon) : Sipc :=
  ⟨fun _ => [], fun _ => true, daemon, fun _ => [], fun _ => false⟩

end Sipc

def Modem.blocked (m : Modem) : String := m.type ++ " Modem Blocked"

/-- The modem has a state variable of its own that is set back when the reload is over. -/
def Own (env : Env) (m : Modem) : Prop :=
  if env.external then m = .td ∧ env.svlte ∨ m = .lte ∧ (env.svlte → env.testSvlte) else m ≠ .tl

instance : Decidable (Own env m) :=
  inferInstanceAs (Decidable (if env.external then
    m = .td ∧ env.svlte ∨ m = .lte ∧ (env.svlte → env.testSvlte) else m ≠ .tl))

/-- A report of a blocked modem was announced and followed by a reload. -/
structure Served (env : Env) (m : Modem) (s t : Daemon) : Prop where
  notes : ∃ ns, t.notes = s.notes ++
    [.broadcast "modem_block" m.blocked, .inform m.blocked, .stopService m] ++
      (if env.external then .reloadMessage else .loadImages m) :: ns
  ready : t.state m = .ready

def rounds (m : Modem) (envs : List Env) (s : Daemon) : Daemon :=
  envs.foldl (fun s env => s.detectModemBlocked env m m.blocked) s

namespace Daemon

@[simp] theorem note_notes (ns : List Note) (s : Daemon) :
    (s.note ns).notes = s.notes ++ ns := rfl

@[simp] theorem note_state (ns : List Note) (s : Daemon) : (s.note ns).state = s.state := rfl

@[simp] theorem setState_notes (m : Modem) (v : ModemState) (s : Daemon) :
    (s.setState m v).notes = s.notes := rfl

@[simp] theorem setState_state (m : Modem) (v : ModemState) (s : Daemon) :
    (s.setState m v).state = Function.update s.state m v := rfl

@[simp] theorem setAssert_notes (b : Bool) (s : Daemon) : (s.setAssert b).notes = s.notes := rfl

@[simp] theorem setAssert_state (b : Bool) (s : Daemon) : (s.setAssert b).state = s.state := rfl

theorem loadSipcModemImg_notes (m : Modem) (s : Daemon) :
    ∃ ns, (s.loadSipcModemImg m).notes = s.notes ++ .loadImages m :: ns := by
  rw [loadSipcModemImg]
  split
  · exact ⟨aliveNotes m ++ [.startService m], by simp⟩
  · exact ⟨[.startService m], by simp⟩

theorem loadSipcModemImg_state (m : Modem) (s : Daemon) :
    (s.loadSipcModemImg m).state m = .ready := by
  rw [loadSipcModemImg, setState_state, Function.update_self]

theorem startExternalModem_notes (env : Env) (s : Daemon) :
    ∃ ns, (s.startExternalModem env).notes = s.notes ++ ns := by
  rw [startExternalModem]
  split
  · split
    · exact ⟨[.startService .td, .startService .lte], by simp⟩
    · exact ⟨[.startService .td], rfl⟩
  · exact ⟨[.startService .lte], rfl⟩

theorem startExternalModem_state (s : Daemon) (hext : env.external = true) (hm : Own env m) :
    (s.startExternalModem env).state m = .ready := by
  rw [Own, if_pos hext] at hm
  rw [startExternalModem]
  rcases hm with ⟨rfl, hsvlte⟩ | ⟨rfl, htest⟩
  · rw [if_pos hsvlte]
    split <;> simp [Function.update]
  split
  case isTrue hsvlte =>
    rw [if_pos (htest hsvlte), setState_state, Function.update_self]
  · rw [setState_state, Function.update_self]

theorem blockedModem_blocked (hm : m ≠ .tl) : blockedModem m.blocked = some m := by
  cases m with
  | tl => exact absurd rfl hm
  | _ => decide

end Daemon

theorem Own.ne_tl (hm : Own env m) : m ≠ .tl := by
  rw [Own] at hm
  split at hm
  · rcases hm with ⟨rfl, -⟩ | ⟨rfl, -⟩ <;> decide
  · exact hm

theorem served_of_ready (hm : Own env m) (hreset : env.reset = true)
    (hs : s.state m = .ready) : Served env m s (s.detectModemBlocked env m m.blocked) := by
  simp only [Daemon.detectModemBlocked, Daemon.blockedModem_blocked hm.ne_tl, if_pos hs,
    if_pos hreset]
  generalize hu : Daemon.note _ _ = u
  have hnotes : u.notes = s.notes ++
      [.broadcast "modem_block" m.blocked, .inform m.blocked, .stopService m] := by
    rw [← hu]
    split <;> rfl
  by_cases hext : env.external = true
  · rw [if_pos hext]
    obtain ⟨ns, hns⟩ := (u.note [.reloadMessage]).startExternalModem_notes env
    apply Served.mk
    · refine ⟨ns, ?_⟩
      rw [Daemon.loadModemImage, hns, Daemon.note_notes, hnotes, if_pos hext, append_assoc]
      rfl
    · exact Daemon.startExternalModem_state _ hext hm
  · rw [if_neg hext]
    obtain ⟨ns, hns⟩ := u.loadSipcModemImg_notes m
    apply Served.mk
    · refine ⟨ns, ?_⟩
      rw [Daemon.setAssert_notes, hns, hnotes, if_neg hext]
    · exact u.loadSipcModemImg_state m

theorem rounds_ready (hok : ∀ env ∈ envs, env.reset = true ∧ Own env m)
    (hs : s.state m = .ready) : (rounds m envs s).state m = .ready := by
  induction envs generalizing s with
  | nil => exact hs
  | cons env envs ih =>
    obtain ⟨hreset, hm⟩ := hok env mem_cons_self
    apply ih
    · intro env' henv
      exact hok env' (mem_cons_of_mem env henv)
    · exact (served_of_ready hm hreset hs).ready

def working : Daemon := ⟨fun _ => .ready, false, []⟩

def internal : Env := ⟨true, false, false, false, true, true⟩

namespace Sipc

def arrived (d : Device) (evs : List SipcEvent) : List String :=
  evs.filterMap fun
    | .arrive d' msg => if d' = d then some msg else none
    | .turn _ => none

/-- A message arrives only on a device that has had a message whenever `select` returned. -/
def Heard (s : Sipc) : SipcEvent → Prop
  | .arrive d _ => s.idle d = false
  | .turn _ => True

instance (s : Sipc) : DecidablePred (Heard s) := fun
  | .arrive d _ => inferInstanceAs (Decidable (s.idle d = false))
  | .turn _ => inferInstanceAs (Decidable True)

theorem next_turn (h : next m s (.turn env) = some t) :
    ∃ d msg rest, s.pending d = msg :: rest ∧ t.pending = Function.update s.pending d rest ∧
      t.taken = Function.update s.taken d (s.taken d ++ [msg]) ∧ t.rfds = s.ready ∧
      t.idle = fun d => s.idle d || (s.pending d).isEmpty := by
  simp only [next] at h
  split at h
  · cases h
  case h_2 d _ =>
    split at h
    · cases h
    case h_2 msg rest hpending =>
      cases h
      exact ⟨d, msg, rest, hpending, rfl, rfl, rfl, rfl⟩

theorem next_arrive (h : next m s (.arrive d msg) = some t) :
    t.pending = Function.update s.pending d (s.pending d ++ [msg]) ∧ t.taken = s.taken ∧
      t.rfds = s.rfds ∧ t.idle = s.idle := by
  simp only [next] at h
  split at h
  · cases h
  · cases h
    exact ⟨rfl, rfl, rfl, rfl⟩

/-- A device is watched as long as it has never been idle, and one that has been idle has nothing to
read. -/
structure Listening (evs : List SipcEvent) (s : Sipc) : Prop where
  balance : ∀ d, s.taken d ++ s.pending d = arrived d evs
  watched : ∀ d, s.rfds d = !s.idle d
  silent : ∀ d, s.idle d = true → s.pending d = []

theorem listening_start (daemon : Daemon) : Listening [] (start daemon) :=
  ⟨fun _ => rfl, fun _ => rfl, fun _ h => by cases h⟩

theorem arrived_append (d : Device) (evs evs' : List SipcEvent) :
    arrived d (evs ++ evs') = arrived d evs ++ arrived d evs' := filterMap_append

theorem Listening.turn (hs : Listening evs s) (h : next m s (.turn env) = some t) :
    Listening (evs ++ [.turn env]) t := by
  obtain ⟨d, msg, rest, hpending, htp, htt, htr, hti⟩ := next_turn h
  have hsilent (d' : Device) (hidle : s.idle d' = true ∨ s.pending d' = []) : d' ≠ d := by
    rintro rfl
    rcases hidle with hidle | hempty
    · rw [hs.silent d' hidle] at hpending
      cases hpending
    · rw [hempty] at hpending
      cases hpending
  apply Listening.mk
  · intro d'
    have harrived : arrived d' (evs ++ [.turn env]) = arrived d' evs := by
      rw [arrived_append]
      exact append_nil _
    rw [harrived, ← hs.balance d', htp, htt]
    by_cases hd : d' = d
    · subst hd
      rw [Function.update_self, Function.update_self, hpending, append_assoc]
      rfl
    · rw [Function.update_of_ne hd, Function.update_of_ne hd]
  · intro d'
    rw [htr, hti, ready, hs.watched]
    exact (Bool.not_or _ _).symm
  intro d' hidle
  rw [hti] at hidle
  have hor : s.idle d' = true ∨ s.pending d' = [] := by simpa using hidle
  rw [htp, Function.update_of_ne (hsilent d' hor)]
  exact hor.elim (hs.silent d') id

theorem Listening.arrive (hs : Listening evs s) (h : next m s (.arrive d msg) = some t)
    (hd : s.idle d = false) : Listening (evs ++ [.arrive d msg]) t := by
  obtain ⟨htp, htt, htr, hti⟩ := next_arrive h
  apply Listening.mk
  · intro d'
    rw [arrived_append, ← hs.balance d', htp, htt, append_assoc]
    congr 1
    by_cases hd' : d' = d
    · subst hd'
      rw [Function.update_self]
      simp [arrived]
    · rw [Function.update_of_ne hd']
      simp [arrived, Ne.symm hd']
  · intro d'
    rw [htr, hti, hs.watched]
  intro d' hidle
  rw [hti] at hidle
  have hne : d' ≠ d := by
    rintro rfl
    rw [hd] at hidle
    cases hidle
  rw [htp, Function.update_of_ne hne, hs.silent d' hidle]

theorem Listening.run (hrun : Run (Guarded Heard (next m)) (start d₀) evs s) : Listening evs s := by
  apply hrun.invariant (I := Listening) (listening_start d₀)
  intro evs e s t hs hst
  cases e with
  | arrive d msg => exact hs.arrive hst.1 hst.2
  | turn env => exact hs.turn hst.1

theorem chosen_of_ready {s : Sipc} (h : s.ready d = true) :
    ∃ d', s.chosen = some d' ∧ s.ready d' = true := by
  unfold chosen
  by_cases hassert : s.ready .assert = true
  · exact ⟨_, if_pos hassert, hassert⟩
  rw [if_neg hassert]
  cases d with
  | assert => exact absurd h hassert
  | watchdog => exact ⟨_, if_pos h, h⟩

theorem Listening.waiting (hs : Listening evs s) (hwait : next m s (.turn env) = none)
    (d : Device) : s.pending d = [] := by
  by_contra hne
  have hidle : s.idle d = false := by
    by_contra hidle
    exact hne (hs.silent d (Bool.eq_true_of_not_eq_false hidle))
  have hready : s.ready d = true := by
    rw [ready, hs.watched, hidle, isEmpty_eq_false_iff.2 hne]
    rfl
  obtain ⟨d', hd', hready'⟩ := chosen_of_ready hready
  simp only [next, hd'] at hwait
  split at hwait
  case h_1 hempty =>
    rw [ready, hempty, isEmpty_nil, Bool.not_true, Bool.and_false] at hready'
    cases hready'
  · cases hwait

def backlog (s : Sipc) : Nat := (s.pending .assert).length + (s.pending .watchdog).length

theorem backlog_turn (h : next m s (.turn env) = some t) : t.backlog + 1 = s.backlog := by
  obtain ⟨d, msg, rest, hpending, htp, -⟩ := next_turn h
  have hlen : (s.pending d).length = rest.length + 1 := by rw [hpending, length_cons]
  rw [backlog, backlog, htp]
  cases d with
  | _ =>
    rw [Function.update_self, Function.update_of_ne (by decide)]
    omega

theorem Listening.drain (hs : Listening evs s) (env : Env) : ∃ n t,
    exec (next m) s (List.replicate n (.turn env)) = some t ∧ ∀ d, t.taken d = arrived d evs := by
  induction hk : s.backlog generalizing s evs with
  | zero =>
    have hall (d : Device) : s.pending d = [] := by
      rw [backlog] at hk
      cases d with
      | _ => exact length_eq_zero_iff.1 (by omega)
    refine ⟨0, s, rfl, fun d => ?_⟩
    rw [← hs.balance d, hall d, append_nil]
  | succ k ih =>
    cases hnext : next m s (.turn env) with
    | none =>
      rw [backlog, hs.waiting hnext .assert, hs.waiting hnext .watchdog] at hk
      cases hk
    | some u =>
      have hu := hs.turn hnext
      have hk' : u.backlog = k := by
        have := backlog_turn hnext
        omega
      obtain ⟨n, t, ht, htaken⟩ := ih hu hk'
      refine ⟨n + 1, t, ?_, fun d => ?_⟩
      · rw [replicate_succ, exec, hnext, Option.bind_some, ht]
      · rw [htaken d, arrived_append]
        exact append_nil _

end Sipc

end SprdVendor.Modemd
