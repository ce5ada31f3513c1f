import SprdVendor.Wcnd.Daemon

namespace SprdVendor.Wcnd
open Lib List

namespace Daemon

/-- Every request is answered at most once, and an open or power-on request is answered OK only
while CP2 is started. -/
def Fair (d : Daemon) : Prop :=
  ∀ r ∈ d.requests, r.answers.length ≤ 1 ∧
    (r.kind.starts = true → ∀ a ∈ r.answers, a.response = .ok → a.state = .started)

instance (d : Daemon) : Decidable d.Fair :=
  inferInstanceAs (Decidable (∀ r ∈ d.requests, r.answers.length ≤ 1 ∧
    (r.kind.starts = true → ∀ a ∈ r.answers, a.response = .ok → a.state = .started)))

/-- While CP2 is starting, a close or power-off request finds no open or power-on request waiting,
other than those that wait since CP2 was stopping. -/
def ReleaseOk (d : Daemon) (a : Act) : Prop :=
  ∀ e, d.message a = some e → e.stops = true → d.manager.state = .starting →
    ∀ r ∈ d.requests, r.kind.starts = true → r.answers = [] →
      d.manager.typeOf r.client = some .cmdPending

section handling

variable {d : Daemon} {o : Outcome} {m : WcndManager} (h : d.Handling fd? e)
  (hc : WcndManager.Carries d.hungUp d.manager fd? o m)
  (hmv : Moves d.manager.state e o.control.state o.park o.infos) (hsent : d.manager.sent = [])
include h hc hmv hsent

theorem Handling.fair (hfair : d.Fair)
    (hok : e.stops = true → d.manager.state = .starting → ∀ r ∈ d.requests, fd? ≠ some r.client →
      r.kind.starts = true → r.answers = [] → d.manager.typeOf r.client = some .cmdPending)
    (htracked : Tracked { d with manager := m, requests := deliver m.sent d.requests }) :
    Fair { d with manager := m, requests := deliver m.sent d.requests } := by
  intro r' hr'
  refine ⟨htracked.once r' hr', ?_⟩
  intro hst a ha hresp
  obtain ⟨r, hr, hclient, hkind, hans⟩ := mem_deliver hr'
  rw [hkind] at hst
  obtain hans | ⟨hl, hans⟩ := hans
  · rw [hans] at ha
    exact (hfair r hr).2 hst a ha hresp
  rw [hans] at ha
  obtain ha | ha := mem_append.mp ha
  · exact (hfair r hr).2 hst a ha hresp
  -- The answer is a new one: the client had the decision on this event.
  obtain ⟨hnone, -⟩ | ⟨t, i, ht, hw, hreply, hone⟩ := h.sentTo_cases hc hmv hsent r.client
  · rw [hnone] at ha
    cases ha
  rw [hone] at ha
  obtain rfl := mem_singleton.mp ha
  cases hresp
  by_cases hfd : fd? = some r.client
  · obtain ⟨hcmd, r₁, hr₁, -, he⟩ := h.mine _ hfd
    rw [hcmd] at ht
    cases ht
    rw [hl] at hr₁
    cases hr₁
    rw [decide_eq_true hfd] at hreply
    exact hmv.ok_mine he hst hreply
  · obtain ⟨r₁, hr₁, hempty, hsuits⟩ := h.asked _ t hfd ht hw
    rw [hl] at hr₁
    cases hr₁
    rw [decide_eq_false hfd] at hreply
    obtain hup | ⟨hs, hstop, hne⟩ := hmv.ok_other hsuits hst hreply
    · exact hup
    · rw [hok hstop hs r hr hfd hst hempty] at ht
      cases ht
      exact absurd rfl hne

theorem Handling.unfair (hstop : e.stops = true) (hs : d.manager.state = .starting)
    (hr : r ∈ d.requests) (hfd : fd? ≠ some r.client) (hst : r.kind.starts = true)
    (ha : r.answers = []) (hne : d.manager.typeOf r.client ≠ some .cmdPending) :
    ¬ Fair { d with manager := m, requests := deliver m.sent d.requests } := by
  intro hfair
  have hl := h.settled.latest_eq hr ha
  obtain ⟨t, ht, hw⟩ := (Option.any_eq_true ..).mp (h.waiting r hr ha)
  obtain ⟨r₁, hr₁, -, hsuits⟩ := h.asked _ t hfd ht hw
  rw [hl] at hr₁
  cases hr₁
  have hreply := hmv.releases hs hstop hw fun he => hne (he ▸ ht)
  obtain ⟨-, hno⟩ | ⟨t₁, i, ht₁, -, hreply₁, hone⟩ := h.sentTo_cases hc hmv hsent r.client
  · have hr' := hno t ht
    rw [decide_eq_false hfd, hreply.1] at hr'
    cases hr'
  rw [ht] at ht₁
  cases ht₁
  rw [decide_eq_false hfd, hreply.1] at hreply₁
  cases hreply₁
  have hl' : latest (deliver m.sent d.requests) r.client = some (r.add [⟨.ok, .starting⟩]) := by
    rw [latest_deliver, hl, hone, hreply.2]
    rfl
  have hbad := (hfair _ (latest_mem hl')).2 hst ⟨.ok, .starting⟩
    (mem_append_right _ mem_cons_self) rfl
  cases hbad

end handling

section step

variable {d : Daemon} (h : d.Tracked)
include h

theorem Tracked.fair_step (hfair : d.Fair) (hok : d.ReleaseOk a) : (d.step a).Fair := by
  have htracked := (h.does a).tracked h
  generalize hd : d.step a = d' at htracked
  cases hd ▸ h.does a with
  | table => exact hfair
  | asked hty hnot hup hc ho hmsg =>
    refine (h.asking hty hnot hup _).fair hc ho.moves rfl ?_ ?_ htracked
    · intro r hr
      obtain rfl | hr := mem_cons.mp hr
      · exact ⟨Nat.zero_le 1, fun _ => forall_mem_nil _⟩
      · exact hfair r hr
    intro hstop hs r hr hfd hst ha
    obtain rfl | hr := mem_cons.mp hr
    · exact absurd rfl hfd
    · rw [(h.typeOf_asking hty hnot hr ha).2]
      exact hok _ hmsg hstop hs r hr hst ha
  | told hmsg _ hc ho =>
    refine (h.quiet.anyEvent _).fair hc ho.moves rfl hfair ?_ htracked
    intro hstop hs r hr _ hst ha
    exact hok _ hmsg hstop hs r hr hst ha

theorem Tracked.unfair_step (hbad : ¬ d.ReleaseOk a) : ¬ (d.step a).Fair := by
  simp only [ReleaseOk, not_forall] at hbad
  obtain ⟨e, hmsg, hstop, hs, r, hr, hst, ha, hne⟩ := hbad
  generalize hd : d.step a = d'
  cases hd ▸ h.does a with
  | table _ _ _ _ _ hno =>
    rw [hno] at hmsg
    cases hmsg
  | asked hty hnot hup hc ho hmsg' =>
    cases hmsg'.symm.trans hmsg
    obtain ⟨hfd, htype⟩ := h.typeOf_asking hty hnot hr ha
    refine (h.asking hty hnot hup _).unfair hc ho.moves rfl hstop hs (mem_cons_of_mem _ hr)
      hfd hst ha ?_
    rwa [htype]
  | told hmsg' _ hc ho =>
    cases hmsg'.symm.trans hmsg
    exact (h.quiet.anyEvent _).unfair hc ho.moves rfl hstop hs hr (fun he => by cases he) hst ha hne

end step

/-- Every request is answered at most once, and an open or power-on request is answered OK only
while CP2 is started, exactly when no close or power-off request is handled while CP2 is starting
and such a request waits that did not come in while CP2 was stopping. -/
theorem requests_answered_iff (enabled : Bool) (as : List Act) :
    Along Fair next (init enabled) as ↔ StepsOk ReleaseOk next (init enabled) as := by
  have hinit : (init enabled).Tracked ∧ (init enabled).Fair :=
    ⟨tracked_init enabled, forall_mem_nil _⟩
  refine along_iff_stepsOk (I := fun d : Daemon => d.Tracked ∧ d.Fair) (fun _ h => h.2) ?_ ?_ hinit as
  · rintro d a ⟨ht, hf⟩ hok
    exact ⟨_, rfl, (ht.does a).tracked ht, ht.fair_step hf hok⟩
  · rintro d a d' ⟨ht, -⟩ hbad ⟨⟩
    exact ht.unfair_step hbad

/-- The second client's power-off request answers OK to the first one, which waits for Bluetooth
while CP2 is starting. -/
theorem power_off_answers_open :
    (exec next (init true) [.connect 1, .connect 2, .request 1 (.radioOpen .bt),
      .request 2 .powerOff]).any (fun d => ¬ d.Fair) = true := by
  decide

/-- An unanswered close waits for CP2 to stop, an unanswered open or power-on for CP2 to start or be
reset, unless it came in while CP2 was stopping. -/
def WaitsForCp2 (d : Daemon) : Prop :=
  ∀ r ∈ d.requests, r.answers = [] → (r.kind.closes = true → d.manager.state = .stopping) ∧
    (r.kind.starts = true → d.manager.state = .starting ∨ d.manager.state = .assert ∨
      d.manager.typeOf r.client = some .cmdPending)

theorem unanswered_wait_for_cp2 (as : List Act) :
    (as.foldl step (init enabled)).WaitsForCp2 := by
  have h : (as.foldl step (init enabled)).Tracked :=
    foldlRecOn as step (tracked_init enabled) fun d hd a _ => (hd.does a).tracked hd
  intro r hr ha
  obtain ⟨t, ht, hw⟩ := (Option.any_eq_true ..).1 (h.waiting r hr ha)
  obtain ⟨r', hl, -, hs⟩ := h.asked r.client t (fun hn => by cases hn) ht hw
  cases (h.settled.latest_eq hr ha).symm.trans hl
  rw [ht]
  cases t with
  | cmdPending =>
    refine ⟨fun hc => ?_, fun _ => .inr (.inr rfl)⟩
    cases hk : r.kind with
    | radioClose rad =>
      rw [hk] at hs
      cases hs
    | _ =>
      rw [hk] at hc
      cases hc
  | cmdSubtypeClose => exact hs.elim
  | _ => exact ⟨hs.2, fun hst => (hs.1 hst).imp_right .inl⟩

end Daemon

end SprdVendor.Wcnd
