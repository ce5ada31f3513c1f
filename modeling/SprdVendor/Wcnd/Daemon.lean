import SprdVendor.Lib.Run
import SprdVendor.Wcnd.Control

namespace SprdVendor.Wcnd
open Lib List Option

structure Daemon where
  manager : WcndManager
  /-- The sockets whose peer is gone. -/
  hungUp : Nat → Bool
  requests : List (Asked Nat Command Answer)

inductive Notice where
  | cp2Ok
  | cp2Assert
  | cp2Down
  | pendingEvent
  deriving DecidableEq

def Notice.event : Notice → Event
  | .cp2Ok => .cp2Ok
  | .cp2Assert => .cp2Assert
  | .cp2Down => .cp2Down
  | .pendingEvent => .pendingEvent

inductive Act where
  | connect (fd : Nat)
  | hangUp (fd : Nat)
  | zap (fd : Nat)
  | request (fd : Nat) (cmd : Command)
  | ownPower (on : Bool)
  | notice (n : Notice)
  deriving DecidableEq

namespace Daemon

def init (isWcnModemEnabled : Bool) : Daemon :=
  ⟨.smInit isWcnModemEnabled, fun _ => false, []⟩

def waits (d : Daemon) (fd : Nat) : Bool := (d.manager.typeOf fd).any ClientType.waits

def quiet (d : Daemon) : Daemon := { d with manager := { d.manager with sent := [] } }

def handle (d : Daemon) (f : WcndManager → WcndManager) : Daemon :=
  let m := f d.quiet.manager
  { d with manager := m, requests := deliver m.sent d.requests }

def canAsk (d : Daemon) (fd : Nat) : Bool :=
  (d.manager.typeOf fd).isSome && !d.waits fd && !d.hungUp fd

def powerCommand (on : Bool) : Command := if on then .powerOn else .powerOff

/-- A client connects under a number that is free, sends its request when it has an answer to the
one before, and does not hang up before it is answered. -/
def step (d : Daemon) : Act → Daemon
  | .connect fd =>
    if (d.manager.typeOf fd).isSome then d
    else { d with manager := d.manager.accept fd, hungUp := Function.update d.hungUp fd false }
  | .hangUp fd =>
    if d.waits fd then d else { d with hungUp := Function.update d.hungUp fd true }
  | .zap fd => if d.hungUp fd then { d with manager := d.manager.zap fd } else d
  | .request fd cmd =>
    if d.canAsk fd then
      handle { d with requests := ⟨fd, cmd, []⟩ :: d.requests }
        (·.runCommand d.hungUp (some fd) cmd)
    else d
  | .ownPower on => d.handle (·.runCommand d.hungUp none (powerCommand on))
  | .notice n => d.handle (·.smStep d.hungUp ⟨n.event, none⟩)

def message (d : Daemon) : Act → Option Event
  | .request fd cmd => if d.canAsk fd then some cmd.event else none
  | .ownPower on => some (powerCommand on).event
  | .notice n => some n.event
  | _ => none

def next (d : Daemon) (a : Act) : Option Daemon := some (d.step a)

/-- A client waits exactly when its last request has no answer. While the message `e` of the client
`fd?` is handled, that client has the type `cmd`. -/
structure Handling (d : Daemon) (fd? : Option Nat) (e : Event) : Prop where
  apart : d.manager.Apart
  reachable : d.manager.Reachable d.hungUp
  mine : ∀ fd, fd? = some fd → d.manager.typeOf fd = some .cmd ∧
    ∃ r, latest d.requests fd = some r ∧ r.answers = [] ∧ e = r.kind.event
  asked : ∀ fd t, fd? ≠ some fd → d.manager.typeOf fd = some t → t.waits = true →
    ∃ r, latest d.requests fd = some r ∧ r.answers = [] ∧ Suits d.manager.state t r.kind
  once : ∀ r ∈ d.requests, r.answers.length ≤ 1
  settled : Settled d.requests
  waiting : ∀ r ∈ d.requests, r.answers = [] → d.waits r.client = true
  idle : d.manager.isWcnModemEnabled = false → d.manager.state = .started

def Tracked (d : Daemon) : Prop := d.Handling none .unknown

theorem Handling.anyEvent {d : Daemon} (h : d.Handling none e) (e' : Event) :
    d.Handling none e' :=
  { h with mine := fun _ hfd => by cases hfd }

section handling

variable {d : Daemon} {o : Outcome} {m : WcndManager} (h : d.Handling fd? e)
include h

theorem Handling.asked_of_waits (ht : d.manager.typeOf fd = some t) (hw : t.waits = true) :
    ∃ r, latest d.requests fd = some r ∧ r.answers = [] := by
  by_cases hfd : fd? = some fd
  · obtain ⟨-, r, hr, ha, -⟩ := h.mine fd hfd
    exact ⟨r, hr, ha⟩
  · obtain ⟨r, hr, ha, -⟩ := h.asked fd t hfd ht hw
    exact ⟨r, hr, ha⟩

variable (hc : WcndManager.Carries d.hungUp d.manager fd? o m)
  (hmv : Moves d.manager.state e o.control.state o.park o.infos) (hsent : d.manager.sent = [])
include hc hmv

theorem Handling.spec : m.Apart ∧ ∀ fd,
    m.typeOf fd = (d.manager.typeOf fd).map (o.typeAfter (fd? = some fd)) ∧
      sentTo fd m.sent = sentTo fd d.manager.sent ++
        ((d.manager.typeOf fd).bind (o.reply (fd? = some fd))).toList.map
          fun i => ⟨i, o.control.state⟩ := by
  apply hc.spec h.apart h.reachable hmv.infos_wait
  intro k hk
  exact h.reachable k .cmd (h.mine k hk).1 rfl

theorem Handling.of_waits (ht : m.typeOf fd = some t) (hw : t.waits = true) :
    ∃ t₀, d.manager.typeOf fd = some t₀ ∧ t₀.waits = true ∧
      o.reply (fd? = some fd) t₀ = none ∧ t = o.parked (fd? = some fd) t₀ := by
  rw [((h.spec hc hmv).2 fd).1, map_eq_some_iff] at ht
  obtain ⟨t₀, ht₀, rfl⟩ := ht
  rw [Outcome.typeAfter] at hw ⊢
  cases hreply : o.reply (fd? = some fd) t₀ with
  | some i =>
    rw [hreply] at hw
    cases hw
  | none =>
    rw [hreply] at hw
    refine ⟨t₀, ht₀, ?_, hreply, rfl⟩
    by_cases hfd : fd? = some fd
    · rw [(h.mine fd hfd).1] at ht₀
      cases ht₀
      rfl
    · have hpark : o.parked (fd? = some fd) t₀ = t₀ := by simp [Outcome.parked, hfd]
      rw [hpark] at hw
      exact hw

include hsent

theorem Handling.sentTo_cases (fd : Nat) :
    sentTo fd m.sent = [] ∧ (∀ t, d.manager.typeOf fd = some t →
        o.reply (fd? = some fd) t = none) ∨
      ∃ t i, d.manager.typeOf fd = some t ∧ t.waits = true ∧ o.reply (fd? = some fd) t = some i ∧
        sentTo fd m.sent = [⟨i, o.control.state⟩] := by
  have hs := ((h.spec hc hmv).2 fd).2
  rw [hsent] at hs
  cases ht : d.manager.typeOf fd with
  | none =>
    rw [ht] at hs
    exact .inl ⟨hs, fun t h => by cases h⟩
  | some t =>
    rw [ht, bind_some] at hs
    cases hreply : o.reply (fd? = some fd) t with
    | none =>
      rw [hreply] at hs
      refine .inl ⟨hs, ?_⟩
      rintro t' ⟨⟩
      exact hreply
    | some i =>
      rw [hreply] at hs
      refine .inr ⟨t, i, rfl, ?_, hreply, hs⟩
      by_cases hfd : fd? = some fd
      · rw [(h.mine fd hfd).1] at ht
        cases ht
        rfl
      have hpark : o.parked (fd? = some fd) t = t := by simp [Outcome.parked, hfd]
      obtain ⟨⟨i', ty⟩, hi, rfl⟩ := map_eq_some_iff.mp hreply
      have htk : (o.parked (fd? = some fd) t).takes ty = true := by
        have hp := find?_some hi
        exact hp
      rw [hpark] at htk
      exact WcndManager.waits_of_takes (hmv.infos_wait _ (mem_of_find?_eq_some hi)) htk

theorem Handling.answered (henabled : m.isWcnModemEnabled = false → m.state = .started) :
    Tracked { d with manager := m, requests := deliver m.sent d.requests } := by
  have hstate : m.state = o.control.state := congrArg Control.state hc.control
  have hcases := h.sentTo_cases hc hmv hsent
  have hsettled : Settled (deliver m.sent d.requests) := h.settled.deliver
  refine ⟨(h.spec hc hmv).1, ?_, (fun _ hfd => by cases hfd), ?_, ?_, hsettled, ?_, henabled⟩
  · intro fd t ht hw
    obtain ⟨t₀, ht₀, hw₀, -, -⟩ := h.of_waits hc hmv ht hw
    exact h.reachable fd t₀ ht₀ hw₀
  · intro fd t _ ht hw
    obtain ⟨t₀, ht₀, hw₀, hreply, rfl⟩ := h.of_waits hc hmv ht hw
    obtain ⟨hnone, -⟩ | ⟨t₁, i, ht₁, -, hsome, -⟩ := hcases fd
    · have hl : ∀ r, latest d.requests fd = some r →
          latest (deliver m.sent d.requests) fd = some r := by
        intro r hr
        rw [latest_deliver, hr, hnone, map_some, Asked.add, append_nil]
      rw [hstate]
      by_cases hfd : fd? = some fd
      · obtain ⟨hcmd, r, hr, ha, he⟩ := h.mine fd hfd
        rw [hcmd] at ht₀
        cases ht₀
        rw [decide_eq_true hfd] at hreply ⊢
        exact ⟨r, hl r hr, ha, (hmv.suits_mine he hreply).1⟩
      · obtain ⟨r, hr, ha, hs⟩ := h.asked fd t₀ hfd ht₀ hw₀
        rw [decide_eq_false hfd] at hreply ⊢
        exact ⟨r, hl r hr, ha, hmv.suits_other hw₀ hs hreply⟩
    · rw [ht₀] at ht₁
      cases ht₁
      rw [hreply] at hsome
      cases hsome
  · intro r' hr'
    obtain ⟨r, hr, -, -, ha | ⟨hl, ha⟩⟩ := mem_deliver hr'
    · rw [ha]
      exact h.once r hr
    rw [ha]
    obtain ⟨hnone, -⟩ | ⟨t, i, ht, hw, -, hsome⟩ := hcases r.client
    · rw [hnone, append_nil]
      exact h.once r hr
    obtain ⟨r₁, hr₁, ha₁⟩ := h.asked_of_waits ht hw
    rw [hl] at hr₁
    cases hr₁
    rw [hsome, ha₁]
    exact le_rfl
  · intro r' hr' ha'
    have hl' := hsettled.latest_eq hr' ha'
    rw [latest_deliver, map_eq_some_iff] at hl'
    obtain ⟨r, hl, he⟩ := hl'
    rw [← he] at ha'
    obtain ⟨ha, hnone⟩ := append_eq_nil_iff.mp ha'
    have hw := h.waiting r (latest_mem hl) ha
    rw [latest_client hl] at hw
    obtain ⟨t, ht, hw⟩ := (Option.any_eq_true ..).mp hw
    have hno : o.reply (fd? = some r'.client) t = none := by
      obtain ⟨-, hno⟩ | ⟨_, _, _, _, _, hsome⟩ := hcases r'.client
      · exact hno t ht
      · rw [hnone] at hsome
        cases hsome
    have hpark : (o.parked (fd? = some r'.client) t).waits = true := by
      by_cases hfd : fd? = some r'.client
      · obtain ⟨hcmd, r, -, -, he⟩ := h.mine _ hfd
        rw [hcmd] at ht
        cases ht
        rw [decide_eq_true hfd] at hno ⊢
        exact (hmv.suits_mine he hno).2
      · rwa [decide_eq_false hfd]
    have htype := ((h.spec hc hmv).2 r'.client).1
    rw [ht, map_some, Outcome.typeAfter, hno] at htype
    rw [waits, htype]
    exact hpark

end handling

def asking (d : Daemon) (fd : Nat) (cmd : Command) : Daemon where
  manager := d.manager.setType (some fd) .cmd
  hungUp := d.hungUp
  requests := ⟨fd, cmd, []⟩ :: d.requests

section messages

variable {d : Daemon} (h : d.Tracked)
include h

theorem Tracked.asking (hty : d.manager.typeOf fd = some t) (hnot : t.waits = false)
    (hup : d.hungUp fd = false) (cmd : Command) :
    (d.quiet.asking fd cmd).Handling (some fd) cmd.event := by
  have htypes : ∀ k, (d.quiet.asking fd cmd).manager.typeOf k =
      (d.manager.typeOf k).map fun t' => if k = fd then .cmd else t' :=
    fun k => WcndManager.typeOf_setType h.apart fd k .cmd
  have hwas : d.waits fd = false := by
    rw [waits, hty]
    exact hnot
  refine ⟨h.apart.setType (some fd) .cmd, ?_, ?_, ?_, ?_, ?_, ?_, h.idle⟩
  · intro k t' ht' hw
    obtain ⟨t₀, ht₀, rfl⟩ := map_eq_some_iff.mp ((htypes k).symm.trans ht')
    by_cases hk : k = fd
    · rw [hk]
      exact hup
    · rw [if_neg hk] at hw
      exact h.reachable k t₀ ht₀ hw
  · rintro k ⟨⟩
    refine ⟨?_, ⟨fd, cmd, []⟩, latest_cons_self rfl, rfl, rfl⟩
    rw [htypes fd, hty, map_some, if_pos rfl]
  · intro k t' hk ht' hw
    have hk : k ≠ fd := fun he => hk (congrArg some he.symm)
    obtain ⟨t₀, ht₀, rfl⟩ := map_eq_some_iff.mp ((htypes k).symm.trans ht')
    rw [if_neg hk] at hw ⊢
    obtain ⟨r, hr, hs⟩ := h.asked k t₀ (fun he => by cases he) ht₀ hw
    exact ⟨r, (latest_cons_ne fun he => hk he.symm).trans hr, hs⟩
  · intro r hr
    obtain rfl | hr := mem_cons.mp hr
    · exact Nat.zero_le 1
    · exact h.once r hr
  · refine .cons ?_ h.settled
    intro r hr hc ha
    have hw := h.waiting r hr ha
    rw [← hc, hwas] at hw
    cases hw
  intro r hr ha
  rw [waits, htypes]
  by_cases hk : r.client = fd
  · rw [hk, hty, map_some, if_pos rfl]
    rfl
  obtain rfl | hr := mem_cons.mp hr
  · exact absurd rfl hk
  · simp only [hk, if_false, Option.map_id']
    exact h.waiting r hr ha

theorem Tracked.typeOf_asking (hty : d.manager.typeOf fd = some t) (hnot : t.waits = false)
    (hr : r ∈ d.requests) (ha : r.answers = []) :
    some fd ≠ some r.client ∧
      (d.quiet.asking fd cmd).manager.typeOf r.client = d.manager.typeOf r.client := by
  have hne : r.client ≠ fd := by
    intro he
    have hw := h.waiting r hr ha
    rw [he, waits, hty] at hw
    exact absurd (hnot.symm.trans hw) Bool.false_ne_true
  refine ⟨fun he => hne (Option.some.inj he).symm, ?_⟩
  refine (WcndManager.typeOf_setType (m := d.quiet.manager) h.apart fd r.client .cmd).trans ?_
  simp only [hne, if_false, Option.map_id']
  rfl

theorem Tracked.table (hapart : m.Apart) (hcontrol : m.control = d.manager.control)
    (henabled : m.isWcnModemEnabled = d.manager.isWcnModemEnabled)
    (htypes : ∀ fd t, t.waits = true → (m.typeOf fd = some t ↔ d.manager.typeOf fd = some t))
    (hup : ∀ fd, d.waits fd = true → up fd = false) :
    Tracked { d with manager := m, hungUp := up } := by
  have hstate : m.state = d.manager.state := congrArg Control.state hcontrol
  refine ⟨hapart, ?_, (fun _ hfd => by cases hfd), ?_, h.once, h.settled, ?_, ?_⟩
  · intro fd t ht hw
    apply hup
    rw [waits, (htypes fd t hw).mp ht]
    exact hw
  · intro fd t hfd ht hw
    rw [hstate]
    exact h.asked fd t hfd ((htypes fd t hw).mp ht) hw
  · intro r hr ha
    obtain ⟨t, ht, hw⟩ := (Option.any_eq_true ..).mp (h.waiting r hr ha)
    rw [waits, (htypes r.client t hw).mpr ht]
    exact hw
  · rw [henabled, hstate]
    exact h.idle

theorem Tracked.quiet : d.quiet.Tracked :=
  ⟨h.apart, h.reachable, h.mine, h.asked, h.once, h.settled, h.waiting, h.idle⟩

end messages

def isRadio : Event → Bool
  | .radioOpen _ => true
  | .radioClose _ => true
  | _ => false

structure Decides (m : WcndManager) (e : Event) (o : Outcome) : Prop where
  moves : Moves m.state e o.control.state o.park o.infos
  enabled : m.isWcnModemEnabled = true → o = m.control.step e
  disabled : m.isWcnModemEnabled = false → o.control = m.control

inductive Does (d : Daemon) : Act → Daemon → Prop where
  | table : m.control = d.manager.control → m.isWcnModemEnabled = d.manager.isWcnModemEnabled →
      (∀ fd t, t.waits = true → (m.typeOf fd = some t ↔ d.manager.typeOf fd = some t)) →
      (∀ fd, d.waits fd = true → up fd = false) → m.Apart → d.message a = none →
      Does d a { d with manager := m, hungUp := up }
  | asked (hty : d.manager.typeOf fd = some t) (hnot : t.waits = false)
      (hup : d.hungUp fd = false) :
      WcndManager.Carries d.hungUp (d.quiet.asking fd cmd).manager (some fd) o m →
      Decides d.manager cmd.event o → d.message (.request fd cmd) = some cmd.event →
      Does d (.request fd cmd)
        { d with manager := m, requests := deliver m.sent (⟨fd, cmd, []⟩ :: d.requests) }
  | told : d.message a = some e → isRadio e = false →
      WcndManager.Carries d.hungUp d.quiet.manager none o m → Decides d.manager e o →
      Does d a { d with manager := m, requests := deliver m.sent d.requests }


theorem canAsk_iff (d : Daemon) (fd : Nat) : d.canAsk fd = true ↔
    ∃ t, d.manager.typeOf fd = some t ∧ t.waits = false ∧ d.hungUp fd = false := by
  rw [canAsk, waits]
  cases d.manager.typeOf fd with
  | _ => simp

def typed (m : WcndManager) (fd? : Option Nat) : WcndManager :=
  if fd?.isSome then m.setType fd? .cmd else m

theorem runCommand_carries (broken : Nat → Bool) (m : WcndManager) (fd? : Option Nat)
    (cmd : Command) (hidle : m.isWcnModemEnabled = false → m.state = .started) :
    ∃ o, WcndManager.Carries broken (typed m fd?) fd? o (m.runCommand broken fd? cmd) ∧
      Decides m cmd.event o := by
  have henabled : (typed m fd?).isWcnModemEnabled = m.isWcnModemEnabled := by
    rw [typed]
    split <;> rfl
  have hcontrol : (typed m fd?).control = m.control := by
    rw [typed]
    split <;> rfl
  have hrun : m.runCommand broken fd? cmd =
      if (typed m fd?).isWcnModemEnabled then (typed m fd?).smStep broken ⟨cmd.event, fd?⟩
      else (typed m fd?).sendNotifyToClient broken .ok .cmd := rfl
  rw [hrun, henabled]
  cases hm : m.isWcnModemEnabled with
  | true =>
    have hc := WcndManager.smStep_carries broken (typed m fd?) ⟨cmd.event, fd?⟩
      (henabled.trans hm)
    rw [hcontrol] at hc
    exact ⟨_, hc, m.control.step_moves cmd.event, fun _ => rfl,
      fun he => absurd (hm.symm.trans he) Bool.false_ne_true.symm⟩
  | false =>
    have hs := hidle hm
    refine ⟨⟨(typed m fd?).control, none, [(.ok, .cmd)]⟩, ⟨rfl, rfl, rfl, rfl⟩, ?_,
      fun he => absurd (hm.symm.trans he) Bool.false_ne_true, fun _ => hcontrol⟩
    rw [hcontrol, hs]
    have hstate : m.control.state = .started := hs
    rw [hstate]
    exact .served

theorem smStep_notice (broken : Nat → Bool) (m : WcndManager) (n : Notice) :
    ∃ o, WcndManager.Carries broken m none o (m.smStep broken ⟨n.event, none⟩) ∧
      Decides m n.event o := by
  cases hm : m.isWcnModemEnabled with
  | true =>
    exact ⟨_, WcndManager.smStep_carries broken m ⟨n.event, none⟩ hm,
      m.control.step_moves n.event, fun _ => rfl,
      fun he => absurd (hm.symm.trans he) Bool.false_ne_true.symm⟩
  | false =>
    refine ⟨⟨m.control, none, []⟩, ?_, ?_,
      fun he => absurd (hm.symm.trans he) Bool.false_ne_true, fun _ => rfl⟩
    · rw [WcndManager.smStep, if_neg (by rw [hm]; exact Bool.false_ne_true)]
      exact ⟨rfl, rfl, rfl, rfl⟩
    · cases n <;> exact .quiet rfl rfl

section steps

variable {d : Daemon} (h : d.Tracked)
include h

theorem Tracked.not_hungUp (hw : d.waits fd = true) : d.hungUp fd = false := by
  obtain ⟨t, ht, hw⟩ := (Option.any_eq_true ..).mp hw
  exact h.reachable fd t ht hw

theorem Tracked.does (a : Act) : d.Does a (d.step a) := by
  have hsame : d.message a = none → d.Does a d :=
    .table rfl rfl (fun _ _ _ => .rfl) (fun _ => h.not_hungUp) h.apart
  cases a with
  | connect fd =>
    rw [step]
    split
    · exact hsame rfl
    rename_i hno
    have hno : d.manager.typeOf fd = none := not_isSome_iff_eq_none.mp hno
    obtain ⟨hapart, htypes⟩ := WcndManager.accept_spec h.apart fd hno
    refine .table rfl rfl ?_ ?_ hapart rfl
    · intro k t hw
      obtain htypes | htypes := htypes
      · rw [htypes]
      rw [htypes]
      split
      · rename_i he
        rw [he, hno]
        refine ⟨?_, fun hn => by cases hn⟩
        rintro ⟨⟩
        cases hw
      · exact .rfl
    · intro k hw
      by_cases he : k = fd
      · rw [he, Function.update_self]
      · rw [Function.update_of_ne he]
        exact h.not_hungUp hw
  | hangUp fd =>
    rw [step]
    split
    · exact hsame rfl
    rename_i hno
    refine .table rfl rfl (fun _ _ _ => .rfl) ?_ h.apart rfl
    intro k hw
    by_cases he : k = fd
    · exact absurd (he ▸ hw) hno
    · rw [Function.update_of_ne he]
      exact h.not_hungUp hw
  | zap fd =>
    rw [step]
    split
    · rename_i hup
      obtain ⟨hapart, htypes⟩ := WcndManager.zap_spec h.apart fd
      refine .table rfl rfl ?_ (fun _ => h.not_hungUp) hapart rfl
      intro k t hw
      rw [htypes]
      split
      · rename_i he
        refine ⟨(fun hn => by cases hn), fun ht => ?_⟩
        rw [he] at ht
        rw [h.reachable fd t ht hw] at hup
        cases hup
      · exact .rfl
    · exact hsame rfl
  | request fd cmd =>
    rw [step]
    split
    · rename_i hcan
      obtain ⟨t, hty, hnot, hup⟩ := (d.canAsk_iff fd).mp hcan
      obtain ⟨o, hc, ho⟩ := runCommand_carries d.hungUp d.quiet.manager (some fd) cmd h.idle
      have hmsg : d.message (.request fd cmd) = some cmd.event := by rw [message, if_pos hcan]
      exact .asked hty hnot hup hc ⟨ho.moves, ho.enabled, ho.disabled⟩ hmsg
    · rename_i hcan
      apply hsame
      rw [message, if_neg hcan]
  | ownPower on =>
    obtain ⟨o, hc, ho⟩ :=
      runCommand_carries d.hungUp d.quiet.manager none (powerCommand on) h.idle
    refine .told rfl ?_ hc ⟨ho.moves, ho.enabled, ho.disabled⟩
    cases on <;> rfl
  | notice n =>
    obtain ⟨o, hc, ho⟩ := smStep_notice d.hungUp d.quiet.manager n
    refine .told rfl ?_ hc ⟨ho.moves, ho.enabled, ho.disabled⟩
    cases n <;> rfl

end steps

theorem Does.tracked {d d' : Daemon} (hd : d.Does a d') (h : d.Tracked) : d'.Tracked := by
  have hidle : ∀ {e o} {m : WcndManager}, Decides d.manager e o →
      m.isWcnModemEnabled = d.manager.isWcnModemEnabled → m.control = o.control →
      m.isWcnModemEnabled = false → m.state = .started := by
    intro e o m ho hm hcontrol hoff
    have hd := hm.symm.trans hoff
    have hstate := congrArg Control.state (hcontrol.trans (ho.disabled hd))
    exact hstate.trans (h.idle hd)
  cases hd with
  | table hcontrol henabled htypes hup hapart _ =>
    exact h.table hapart hcontrol henabled htypes hup
  | asked hty hnot hup hc ho _ =>
    exact (h.asking hty hnot hup _).answered hc ho.moves rfl (hidle ho hc.enabled hc.control)
  | told _ _ hc ho =>
    exact (h.quiet.anyEvent _).answered hc ho.moves rfl (hidle ho hc.enabled hc.control)

theorem Tracked.control_step {d : Daemon} (h : d.Tracked) (a : Act) :
    (d.step a).manager.control = d.manager.control ∨ ∃ e, d.message a = some e ∧
      (d.step a).manager.control = (d.manager.control.step e).control := by
  have hdecided : ∀ {e o} {m : WcndManager}, Decides d.manager e o → m.control = o.control →
      d.message a = some e → m.control = d.manager.control ∨ ∃ e, d.message a = some e ∧
        m.control = (d.manager.control.step e).control := by
    intro e o m ho hcontrol hmsg
    rw [hcontrol]
    cases hm : d.manager.isWcnModemEnabled with
    | true => exact .inr ⟨e, hmsg, by rw [ho.enabled hm]⟩
    | false => exact .inl (ho.disabled hm)
  generalize hd : d.step a = d'
  cases hd ▸ h.does a with
  | table hcontrol => exact .inl hcontrol
  | asked _ _ _ hc ho hmsg => exact hdecided ho hc.control hmsg
  | told hmsg _ hc ho => exact hdecided ho hc.control hmsg

theorem tracked_init (enabled : Bool) : (init enabled).Tracked := by
  have hnone : ∀ fd, (init enabled).manager.typeOf fd = none := fun _ => rfl
  refine ⟨nodup_nil, ?_, (fun _ hfd => by cases hfd), ?_, forall_mem_nil _, .nil,
    forall_mem_nil _, ?_⟩
  · intro fd t ht
    rw [hnone] at ht
    cases ht
  · intro fd t _ ht
    rw [hnone] at ht
    cases ht
  · intro henabled
    cases henabled
    rfl

end Daemon

end SprdVendor.Wcnd
