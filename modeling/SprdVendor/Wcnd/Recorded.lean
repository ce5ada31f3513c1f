import SprdVendor.Wcnd.Daemon

namespace SprdVendor.Wcnd
open Lib List

def Command.radio : Command → Option Radio
  | .radioOpen r => some r
  | .radioClose r => some r
  | _ => none

def lastFor (p : Asked Nat Command Answer → Bool) (rad : Radio)
    (rs : List (Asked Nat Command Answer)) : Option Command :=
  (rs.find? fun r => r.kind.radio = some rad && p r).map Asked.kind

def answeredOk (r : Asked Nat Command Answer) : Bool := r.answers.any (·.response = .ok)

def live (r : Asked Nat Command Answer) : Bool := r.answers.all (·.response = .ok)

theorem lastFor_congr (h : List.Forall₂ (fun r r' => r'.kind = r.kind ∧
      (r.kind.radio = some rad → q r' = p r)) rs rs') : lastFor q rad rs' = lastFor p rad rs := by
  induction h with
  | nil => rfl
  | @cons r r' rs rs' hr _ ih =>
    obtain ⟨hk, hp⟩ := hr
    rw [lastFor, find?_cons, lastFor, find?_cons, hk]
    by_cases hrad : r.kind.radio = some rad
    · rw [hp hrad]
      cases hpr : (decide (r.kind.radio = some rad) && p r) with
      | true => exact congrArg some hk
      | false => exact ih
    · rw [decide_eq_false hrad, Bool.false_and, Bool.false_and]
      exact ih

theorem lastFor_cons_self (hr : r.kind.radio = some rad) (hp : p r = true) :
    lastFor p rad (r :: rs) = some r.kind := by
  rw [lastFor, find?_cons_of_pos (by simp [hr, hp])]
  rfl

theorem lastFor_cons_ne (hr : r.kind.radio ≠ some rad) :
    lastFor p rad (r :: rs) = lastFor p rad rs := by
  rw [lastFor, find?_cons_of_neg (by simp [hr])]
  rfl

namespace Control

/-- No radio is asked for while CP2 is stopping, CP2 goes down while it is stopping or with both
radios off, and a radio that is on is closed only while CP2 is started with nothing saved from a
crash. -/
def recordOk (c : Control) : Event → Bool
  | .radioOpen _ => c.state ≠ .stopping
  | .radioClose r => !c.btwifi r || (c.state = .started && !c.saved.any)
  | .cp2Down => c.state = .stopping || !c.btwifi.any
  | _ => true

def wanted (s : BtWifiState) (e : Event) : BtWifiState :=
  WcndManager.clearBit (WcndManager.setBit s e) e

structure OffAtRest (c : Control) : Prop where
  rest : c.state = .stopped ∨ c.state = .stopping → ∀ r, c.btwifi r = false
  opens : ∀ r, c.pending.opens r = false

theorem any_eq_false_iff (s : BtWifiState) : s.any = false ↔ ∀ r, s r = false := by
  rw [BtWifiState.any, Bool.or_eq_false_iff]
  constructor
  · rintro ⟨hb, hw⟩ r
    cases r with
    | bt => exact hb
    | wifi => exact hw
  · intro h
    exact ⟨h .bt, h .wifi⟩

theorem turnOff_of_off {s : BtWifiState} (h : s r = false) : s.turnOff r = s := by
  funext x
  rw [BtWifiState.turnOff]
  by_cases hx : x = r
  · rw [hx, h, Bool.false_and]
  · rw [decide_eq_false hx, Bool.not_false, Bool.and_true]

theorem close_cases {c : Control} (hok : c.recordOk (.radioClose r) = true) :
    c.btwifi.turnOff r = c.btwifi ∨ c.state = .started ∧ c.saved.any = false := by
  simp only [recordOk, Bool.or_eq_true, Bool.not_eq_true', Bool.and_eq_true,
    decide_eq_true_eq] at hok
  obtain hoff | ⟨hs, hsaved⟩ := hok
  · exact .inl (turnOff_of_off hoff)
  · exact .inr ⟨hs, hsaved⟩

theorem startedClose_btwifi {c : Control} (e : Event) :
    (c.startedClose e).control.btwifi =
      if c.saved.any then c.btwifi else WcndManager.clearBit c.btwifi e := by
  rw [startedClose]
  split
  · rfl
  dsimp only
  split
  · rfl
  · rfl

section step

variable {c : Control} (h : c.OffAtRest) (hok : c.recordOk e = true)
include h hok

theorem OffAtRest.btwifi_step : (c.step e).control.btwifi = wanted c.btwifi e := by
  obtain ⟨state, btwifi, saved, pending⟩ := c
  cases e with
  | radioOpen r =>
    cases state with
    | stopping => cases hok
    | _ => rfl
  | radioClose r =>
    have hcases := close_cases hok
    cases state with
    | started =>
      refine (startedClose_btwifi _).trans ?_
      obtain hoff | ⟨-, hsaved⟩ := hcases
      · split
        · exact hoff.symm
        · rfl
      · rw [hsaved]
        rfl
    | assert =>
      obtain hoff | ⟨hs, -⟩ := hcases
      · simp only [step, asserted]
        split
        · exact hoff.symm
        · exact hoff.symm
      · cases hs
    | _ =>
      obtain hoff | ⟨hs, -⟩ := hcases
      · exact hoff.symm
      · cases hs
  | pendingEvent =>
    cases state with
    | stopped =>
      have hsame : (fun r => btwifi r || pending.opens r) = btwifi := by
        funext r
        rw [h.opens, Bool.or_false]
      simp only [step, stopped, hsame]
      split
      · rfl
      · rfl
    | _ => rfl
  | cp2PowerOffReq =>
    cases state with
    | started =>
      refine (startedClose_btwifi _).trans ?_
      split
      · rfl
      · rfl
    | _ => rfl
  | _ => cases state <;> rfl

theorem OffAtRest.opens_step (r : Radio) : (c.step e).control.pending.opens r = false := by
  have hopens := h.opens r
  obtain ⟨state, btwifi, saved, pending⟩ := c
  have hclose : ∀ e, (startedClose ⟨state, btwifi, saved, pending⟩ e).control.pending = pending := by
    intro e
    rw [startedClose]
    split
    · rfl
    dsimp only
    split
    · rfl
    · rfl
  cases state with
  | stopping =>
    cases e with
    | radioOpen r => cases hok
    | _ => exact hopens
  | started =>
    cases e with
    | radioClose r =>
      rw [step]
      simp only [started, hclose]
      exact hopens
    | cp2PowerOffReq =>
      rw [step]
      simp only [started, hclose]
      exact hopens
    | _ => exact hopens
  | stopped =>
    cases e with
    | pendingEvent =>
      simp only [step, stopped]
      split
      · exact hopens
      · exact hopens
    | _ => exact hopens
  | assert =>
    cases e with
    | radioClose r =>
      simp only [step, asserted]
      split
      · exact hopens
      · exact hopens
    | _ => exact hopens
  | starting => cases e <;> exact hopens

theorem OffAtRest.step : (c.step e).control.OffAtRest := by
  refine ⟨?_, h.opens_step hok⟩
  intro hrest
  -- Nothing but an open request turns a radio on.
  have hoff : (∀ r, c.btwifi r = false) → (∀ r, e ≠ .radioOpen r) →
      ∀ r, (c.step e).control.btwifi r = false := by
    intro hall hne r
    rw [h.btwifi_step hok]
    cases e with
    | radioOpen r' => exact absurd rfl (hne r')
    | radioClose r' => exact Bool.and_eq_false_imp.mpr fun ht => absurd ((hall r).symm.trans ht) Bool.false_ne_true
    | _ => exact hall r
  have hdown : e = .cp2Down → c.state ≠ .stopping → ∀ r, (c.step e).control.btwifi r = false := by
    rintro rfl hs
    apply hoff
    · apply (any_eq_false_iff _).mp
      simpa [recordOk, hs] using hok
    · intro r he
      cases he
  have hmv := c.step_moves e
  generalize hst : c.state = st at hmv
  generalize hst' : (c.step e).control.state = st' at hmv hrest
  generalize (c.step e).park = park at hmv
  generalize (c.step e).infos = infos at hmv
  cases hmv with
  | ignored hstarts _ =>
    apply hoff (h.rest (hst ▸ hrest))
    rintro r rfl
    obtain rfl | rfl := hstarts rfl
    · obtain hr | hr := hrest <;> cases hr
    · obtain hr | hr := hrest <;> cases hr
  | closed hstop =>
    apply hoff (h.rest (.inl hst))
    rintro r rfl
    cases hstop
  | failed => exact hdown rfl (fun he => by cases hst.symm.trans he)
  | lost => exact hdown rfl (fun he => by cases hst.symm.trans he)
  | resetFailed => exact hdown rfl (fun he => by cases hst.symm.trans he)
  | stop _ =>
    have hs : c.state ≠ .stopping := fun he => by cases hst.symm.trans he
    exact (any_eq_false_iff _).mp (step_stopping hs hst').1
  | deferred _ =>
    apply hoff (h.rest (.inr hst))
    rintro r rfl
    simp [recordOk, hst] at hok
  | down =>
    apply hoff (h.rest (.inr hst))
    intro r he
    cases he
  | _ => obtain hr | hr := hrest <;> cases hr

end step

end Control

namespace Daemon

/-- The record in every state of a run: the last request for a radio that has not failed is an open
exactly when the radio is recorded as on. -/
structure Kept (d : Daemon) : Prop where
  tracked : d.Tracked
  enabled : d.manager.isWcnModemEnabled = true
  off : d.manager.control.OffAtRest
  held : ∀ r ∈ d.requests, r.answers = [] → ∀ rad, r.kind = .radioOpen rad →
    d.manager.btwifiState rad = true ∧ d.manager.typeOf r.client ≠ some .cmdPending
  record : ∀ rad, d.manager.btwifiState rad = true ↔
    lastFor live rad d.requests = some (.radioOpen rad)

section handling

variable {d : Daemon} {m : WcndManager} {e : Event} (h : d.Handling fd? e)
  (hc : WcndManager.Carries d.hungUp d.manager fd? (d.manager.control.step e) m)
  (hsent : d.manager.sent = []) (hok : d.manager.control.recordOk e = true)
  (hheld : ∀ r ∈ d.requests, fd? ≠ some r.client → r.answers = [] → ∀ rad,
    r.kind = .radioOpen rad →
      d.manager.btwifiState rad = true ∧ d.manager.typeOf r.client ≠ some .cmdPending)
include h hc hsent hok hheld

omit hc hsent in
theorem Handling.radio_ok (hr : r ∈ d.requests) (ha : r.answers = []) (hrad : r.kind.radio = some rad)
    (ht : d.manager.typeOf r.client = some t) (hw : t.waits = true)
    (hreply : (d.manager.control.step e).reply (fd? = some r.client) t = some i) : i = .ok := by
  cases i with
  | ok => rfl
  | fail =>
    obtain ⟨he, hs⟩ := (d.manager.control.step_moves e).reply_fail hreply
    have hl := h.settled.latest_eq hr ha
    by_cases hfd : fd? = some r.client
    · obtain ⟨-, r₁, -, -, he₁⟩ := h.mine _ hfd
      rw [he] at he₁
      cases hk : r₁.kind <;> rw [hk] at he₁ <;> cases he₁
    obtain ⟨r₁, hr₁, -, hsuits⟩ := h.asked _ t hfd ht hw
    rw [hl] at hr₁
    cases hr₁
    have hoff : ∀ x, d.manager.btwifiState x = false := by
      apply (Control.any_eq_false_iff d.manager.control.btwifi).mp
      have hs' : d.manager.control.state ≠ .stopping := hs
      simpa [he, Control.recordOk, hs'] using hok
    cases hk : r.kind with
    | radioOpen x =>
      have hon := (hheld r hr hfd ha x hk).1
      exact absurd ((hoff x).symm.trans hon) Bool.false_ne_true
    | radioClose x =>
      rw [hk] at hsuits
      cases t with
      | cmdPending => cases hsuits
      | cmdSubtypeClose => exact hsuits.elim
      | _ => exact absurd (hsuits.2 rfl) hs
    | _ =>
      rw [hk] at hrad
      cases hrad

theorem Handling.lastFor_live (rad : Radio) :
    lastFor live rad (deliver m.sent d.requests) = lastFor live rad d.requests := by
  apply lastFor_congr
  refine (deliver_forall₂ d.requests m.sent).imp ?_
  rintro r r' ⟨-, hk, ha⟩
  refine ⟨hk, fun hrad => ?_⟩
  obtain ha | ⟨hl, ha⟩ := ha
  · rw [live, ha, live]
  obtain ⟨hnone, -⟩ | ⟨t, i, ht, hw, hreply, hone⟩ :=
    h.sentTo_cases hc (d.manager.control.step_moves e) hsent r.client
  · rw [live, ha, hnone, append_nil, live]
  obtain ⟨r₁, hr₁, hempty⟩ := h.asked_of_waits ht hw
  rw [hl] at hr₁
  cases hr₁
  cases h.radio_ok hok hheld (latest_mem hl) hempty hrad ht hw hreply
  rw [live, ha, hone, hempty, live, hempty]
  rfl

omit hsent in
theorem Handling.held (hoff : d.manager.control.OffAtRest) (hr : r ∈ deliver m.sent d.requests)
    (ha : r.answers = []) (hk : r.kind = .radioOpen rad) :
    m.btwifiState rad = true ∧ m.typeOf r.client ≠ some .cmdPending := by
  have hmv := d.manager.control.step_moves e
  have hbits : m.btwifiState rad = Control.wanted d.manager.btwifiState e rad := by
    have hb : m.btwifiState = (d.manager.control.step e).control.btwifi :=
      congrArg Control.btwifi hc.control
    rw [hb, hoff.btwifi_step hok]
    rfl
  have hr₀ := mem_of_mem_deliver hr ha
  obtain ⟨t₀, ht₀, hw₀⟩ := (Option.any_eq_true ..).mp (h.waiting r hr₀ ha)
  have hl := h.settled.latest_eq hr₀ ha
  by_cases hfd : fd? = some r.client
  · obtain ⟨hcmd, r₁, hr₁, -, he⟩ := h.mine _ hfd
    rw [hl] at hr₁
    cases hr₁
    rw [hk] at he
    obtain rfl : e = .radioOpen rad := he
    refine ⟨?_, ?_⟩
    · rw [hbits]
      simp [Control.wanted, WcndManager.setBit, WcndManager.clearBit, BtWifiState.turnOn]
    intro hp
    obtain ⟨t, ht, -, -, hpark⟩ := h.of_waits hc hmv hp rfl
    rw [hcmd] at ht
    cases ht
    rw [decide_eq_true hfd, Outcome.parked, if_pos rfl] at hpark
    cases hpk : (d.manager.control.step (.radioOpen rad)).park with
    | none =>
      rw [hpk] at hpark
      cases hpark
    | some p =>
      rw [hpk] at hpark
      cases hpark
      simp [Control.recordOk, hmv.park_pending hpk] at hok
  · obtain ⟨hon, hne⟩ := hheld r hr₀ hfd ha rad hk
    refine ⟨?_, ?_⟩
    · rw [hbits]
      cases e with
      | radioOpen x => exact Bool.or_eq_true_iff.mpr (.inl hon)
      | radioClose x =>
        refine Bool.and_eq_true_iff.mpr ⟨hon, ?_⟩
        by_cases hx : rad = x
        · -- The radio is closed while CP2 is started, when no open request waits.
          cases hx
          obtain hsame | ⟨hs, -⟩ := Control.close_cases hok
          · have hbit := congrFun hsame rad
            simp only [BtWifiState.turnOff, decide_true, Bool.not_true, Bool.and_false] at hbit
            exact absurd (hbit.trans hon) Bool.false_ne_true
          obtain ⟨r₁, hr₁, -, hsuits⟩ := h.asked _ t₀ hfd ht₀ hw₀
          rw [hl] at hr₁
          cases hr₁
          rw [hk] at hsuits
          have hs : d.manager.state = .started := hs
          rw [hs] at hsuits
          cases t₀ with
          | cmdPending => exact absurd ht₀ hne
          | cmdSubtypeClose => exact hsuits.elim
          | _ => obtain hst | hst := hsuits.1 rfl <;> cases hst
        · rw [decide_eq_false hx]
          rfl
      | _ => exact hon
    · intro hp
      obtain ⟨t, ht, -, -, hpark⟩ := h.of_waits hc hmv hp rfl
      rw [decide_eq_false hfd] at hpark
      exact hne (ht.trans (congrArg some hpark.symm))

theorem Handling.kept (hoff : d.manager.control.OffAtRest)
    (henabled : m.isWcnModemEnabled = true)
    (hrecord : ∀ rad, Control.wanted d.manager.btwifiState e rad = true ↔
      lastFor live rad d.requests = some (.radioOpen rad)) :
    Kept { d with manager := m, requests := deliver m.sent d.requests } := by
  have hmv := d.manager.control.step_moves e
  refine ⟨h.answered hc hmv hsent ?_, henabled, ?_, ?_, ?_⟩
  · intro hno
    exact absurd (henabled.symm.trans hno) Bool.false_ne_true.symm
  · have hcontrol : m.control = _ := hc.control
    rw [hcontrol]
    exact hoff.step hok
  · intro r hr ha rad hk
    exact h.held hc hok hheld hoff hr ha hk
  intro rad
  have hb : m.btwifiState = (d.manager.control.step e).control.btwifi :=
    congrArg Control.btwifi hc.control
  rw [h.lastFor_live hc hsent hok hheld rad, hb, hoff.btwifi_step hok]
  exact hrecord rad

end handling

def RecordOk (d : Daemon) (a : Act) : Prop := (d.message a).all d.manager.control.recordOk = true

instance (d : Daemon) (a : Act) : Decidable (d.RecordOk a) :=
  inferInstanceAs (Decidable (_ = true))

section step

variable {d : Daemon} (h : d.Kept)
include h

theorem Kept.wanted_asked (fd : Nat) (cmd : Command) (rad : Radio) :
    Control.wanted d.manager.btwifiState cmd.event rad = true ↔
      lastFor live rad (⟨fd, cmd, []⟩ :: d.requests) = some (.radioOpen rad) := by
  by_cases hrad : cmd.radio = some rad
  · rw [lastFor_cons_self (r := ⟨fd, cmd, []⟩) hrad rfl]
    cases cmd with
    | radioOpen x =>
      cases hrad
      simp [Control.wanted, Command.event, WcndManager.setBit, WcndManager.clearBit,
        BtWifiState.turnOn]
    | radioClose x =>
      cases hrad
      simp [Control.wanted, Command.event, WcndManager.setBit, WcndManager.clearBit,
        BtWifiState.turnOff]
    | _ => cases hrad
  · rw [lastFor_cons_ne (r := ⟨fd, cmd, []⟩) hrad, ← h.record rad]
    cases cmd with
    | radioOpen x =>
      have hx : rad ≠ x := fun he => hrad (congrArg some he.symm)
      simp [Control.wanted, Command.event, WcndManager.setBit, WcndManager.clearBit,
        BtWifiState.turnOn, hx]
    | radioClose x =>
      have hx : rad ≠ x := fun he => hrad (congrArg some he.symm)
      simp [Control.wanted, Command.event, WcndManager.setBit, WcndManager.clearBit,
        BtWifiState.turnOff, hx]
    | _ => exact .rfl

theorem Kept.step (hok : d.RecordOk a) : (d.step a).Kept := by
  have hmessage : ∀ e, d.message a = some e → d.manager.control.recordOk e = true := by
    intro e he
    rwa [RecordOk, he] at hok
  generalize hd : d.step a = d'
  cases hd ▸ h.tracked.does a with
  | table hcontrol henabled htypes hup hapart _ =>
    have hbits := congrArg Control.btwifi hcontrol
    refine ⟨h.tracked.table hapart hcontrol henabled htypes hup, henabled.trans h.enabled, ?_, ?_, ?_⟩
    · rw [hcontrol]
      exact h.off
    · intro r hr ha rad hk
      obtain ⟨hon, hne⟩ := h.held r hr ha rad hk
      refine ⟨(congrFun hbits rad).trans hon, fun hp => ?_⟩
      exact hne ((htypes _ _ rfl).mp hp)
    · intro rad
      rw [← h.record rad]
      exact iff_of_eq (congrArg (· = true) (congrFun hbits rad))
  | asked hty hnot hup hc ho hmsg =>
    cases ho.enabled h.enabled
    refine (h.tracked.asking hty hnot hup _).kept hc rfl (hmessage _ hmsg) ?_ h.off
      (hc.enabled.trans h.enabled) (h.wanted_asked _ _)
    intro r hr hfd ha rad hk
    obtain rfl | hr := mem_cons.mp hr
    · exact absurd rfl hfd
    obtain ⟨hon, hne⟩ := h.held r hr ha rad hk
    refine ⟨hon, ?_⟩
    rw [(h.tracked.typeOf_asking hty hnot hr ha).2]
    exact hne
  | @told a e o m hmsg hrad hc ho =>
    cases ho.enabled h.enabled
    refine (h.tracked.quiet.anyEvent e).kept hc rfl (hmessage _ hmsg) ?_ h.off
      (hc.enabled.trans h.enabled) ?_
    · intro r hr _ ha rad hk
      exact h.held r hr ha rad hk
    intro rad
    refine .trans ?_ (h.record rad)
    cases e with
    | radioOpen x => cases hrad
    | radioClose x => cases hrad
    | _ => exact .rfl

end step

theorem kept_init : (init true).Kept := by
  refine ⟨tracked_init true, rfl, ⟨fun _ _ => rfl, fun _ => rfl⟩, forall_mem_nil _, ?_⟩
  intro rad
  exact ⟨(fun h => by cases h), fun h => by cases h⟩

def NoneWaits (d : Daemon) : Prop :=
  ∀ c ∈ d.manager.clients, c.sockfd.isSome = true → c.type.waits = false

/-- While no request waits, a radio is recorded as on exactly when the last of its open and close
requests that was answered OK is an open, and nothing is recorded as on while CP2 is stopped or
stopping. -/
def Recorded (d : Daemon) : Prop :=
  (d.NoneWaits → ∀ rad, d.manager.btwifiState rad = true ↔
    lastFor answeredOk rad d.requests = some (.radioOpen rad)) ∧
  (d.manager.state = .stopped ∨ d.manager.state = .stopping →
    ∀ rad, d.manager.btwifiState rad = false)

theorem Tracked.lastFor_answeredOk {d : Daemon} (h : d.Tracked) (hnone : d.NoneWaits) (rad : Radio) :
    lastFor answeredOk rad d.requests = lastFor live rad d.requests := by
  apply lastFor_congr
  apply forall₂_same.mpr
  intro r hr
  refine ⟨rfl, fun _ => ?_⟩
  have hone := h.once r hr
  rw [answeredOk, live]
  cases ha : r.answers with
  | nil =>
    obtain ⟨t, ht, hw⟩ := (Option.any_eq_true ..).mp (h.waiting r hr ha)
    obtain ⟨c, hc, rfl⟩ := Option.map_eq_some_iff.mp ht
    have hno := hnone c (slot?_mem hc) (by rw [slot?_key hc]; rfl)
    exact absurd (hno.symm.trans hw) Bool.false_ne_true
  | cons a as =>
    rw [ha, length_cons] at hone
    obtain rfl : as = [] := length_eq_zero_iff.mp (by omega)
    rw [any_cons, all_cons]
    simp

/-- Under these conditions the record is right in every state. -/
theorem record_right (hrun : Run (Guarded RecordOk next) (init true) as d) : d.Recorded := by
  have hkept : d.Kept := by
    refine hrun.invariant (I := fun _ d => d.Kept) kept_init ?_
    rintro _ a d _ hd ⟨⟨⟩, hok⟩
    exact hd.step hok
  refine ⟨fun hnone rad => ?_, hkept.off.rest⟩
  rw [hkept.tracked.lastFor_answeredOk hnone, hkept.record]

instance (d : Daemon) : Decidable d.NoneWaits :=
  inferInstanceAs (Decidable (∀ c ∈ d.manager.clients, _ → _))

/-- Bluetooth is recorded as on: both radios are opened, and WiFi is closed again. -/
theorem record_right_bt : ∃ d, Run (Guarded RecordOk next) (init true)
    [.connect 1, .request 1 (.radioOpen .bt), .notice .cp2Ok, .request 1 (.radioOpen .wifi),
      .request 1 (.radioClose .wifi)] d ∧ d.NoneWaits ∧ d.manager.btwifiState .bt = true ∧
    d.Recorded := by
  refine exists_guarded_imp
    (P := fun d => d.NoneWaits ∧ d.manager.btwifiState .bt = true) ?_ (by decide)
  rintro d hd ⟨hnone, hon⟩
  exact ⟨hnone, hon, record_right hd⟩

theorem not_recorded_of_stopped {d : Daemon} (hs : d.manager.state = .stopped)
    (hon : d.manager.btwifiState .bt = true) : ¬ d.Recorded := by
  intro h
  exact absurd ((h.2 (.inl hs) .bt).symm.trans hon) Bool.false_ne_true

theorem not_recorded_of_closed {d : Daemon} (hnone : d.NoneWaits)
    (hon : d.manager.btwifiState .bt = true)
    (hlast : lastFor answeredOk .bt d.requests = some (.radioClose .bt)) : ¬ d.Recorded := by
  intro h
  have hopen := (h.1 hnone .bt).mp hon
  cases hlast.symm.trans hopen

/-- A start that fails leaves Bluetooth recorded as on while CP2 is stopped; a close request while
CP2 is starting is answered OK and changes nothing; and a close request after a crash clears the
saved bit only. -/
theorem record_wrong :
    (∃ d, Run (Next next) (init true)
      [.connect 1, .request 1 (.radioOpen .bt), .notice .cp2Down] d ∧ ¬ d.Recorded) ∧
    (∃ d, Run (Next next) (init true) [.connect 1, .connect 2, .request 1 (.radioOpen .bt),
      .request 2 (.radioClose .bt), .notice .cp2Ok] d ∧ ¬ d.Recorded) ∧
    (∃ d, Run (Next next) (init true) [.connect 1, .request 1 (.radioOpen .bt), .notice .cp2Ok,
      .notice .cp2Assert, .notice .cp2Ok, .request 1 (.radioClose .bt)] d ∧ ¬ d.Recorded) := by
  have hclosed (d : Daemon) (h : d.NoneWaits ∧ d.manager.btwifiState .bt = true ∧
      lastFor answeredOk .bt d.requests = some (.radioClose .bt)) : ¬ d.Recorded :=
    not_recorded_of_closed h.1 h.2.1 h.2.2
  refine ⟨?_, exists_run_imp (fun d _ => hclosed d) (by decide),
    exists_run_imp (fun d _ => hclosed d) (by decide)⟩
  exact exists_run_imp (fun d _ (h : d.manager.state = .stopped ∧
    d.manager.btwifiState .bt = true) => not_recorded_of_stopped h.1 h.2) (by decide)

end Daemon

end SprdVendor.Wcnd
