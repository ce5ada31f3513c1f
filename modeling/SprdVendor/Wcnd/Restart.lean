import SprdVendor.Wcnd.Daemon

namespace SprdVendor.Wcnd
open Lib

namespace Control

structure Resting (c : Control) : Prop where
  state : c.state = .stopping ∨ c.state = .stopped
  btwifi : c.btwifi.any = false
  pending : c.pending.any = false

theorem Resting.pending_opens {c : Control} (h : c.Resting) (r : Radio) :
    c.pending.opens r = false := by
  have hp := h.pending
  rw [PendingEvents.any, Bool.or_eq_false_iff, BtWifiState.any, Bool.or_eq_false_iff] at hp
  cases r with
  | bt => exact hp.1.1
  | wifi => exact hp.1.2

theorem Resting.step {c : Control} (h : c.Resting) (he : e.starts = false)
    (hok : e = .cp2Ok → c.state ≠ .stopped) : (c.step e).control.Resting := by
  have hopens := h.pending_opens
  obtain ⟨state, btwifi, saved, pending⟩ := c
  obtain ⟨hs, hb, hp⟩ := h
  have hon : pending.powerOn = false := (Bool.or_eq_false_iff.mp hp).2
  obtain rfl | rfl := hs
  · cases e with
    | radioOpen r => cases he
    | cp2PowerOnReq => cases he
    | cp2Down => exact ⟨.inr rfl, hb, hp⟩
    | _ => exact ⟨.inl rfl, hb, hp⟩
  cases e with
  | radioOpen r => cases he
  | cp2PowerOnReq => cases he
  | cp2Ok => exact absurd rfl (hok rfl)
  | pendingEvent =>
    have hsame : (fun r => btwifi r || pending.opens r) = btwifi := by
      funext r
      rw [hopens, Bool.or_false]
    have hany : btwifi.any = false := hb
    simp only [Control.step, stopped, hsame, hany, hon, Bool.or_self, Bool.false_eq_true, if_false]
    exact ⟨.inr rfl, hb, hp⟩
  | _ => exact ⟨.inr rfl, hb, hp⟩

end Control

namespace Daemon

def Asks (d : Daemon) (a : Act) : Prop := (d.message a).any Event.starts = true

instance (d : Daemon) (a : Act) : Decidable (d.Asks a) :=
  inferInstanceAs (Decidable ((d.message a).any Event.starts = true))

/-- CP2 begins to stop only while `pending_events` is empty, and does not report on its own that it
runs while it is stopped. -/
def RestartOk (d : Daemon) (a : Act) : Prop :=
  (d.manager.state ≠ .stopping → (d.step a).manager.state = .stopping →
    d.manager.pendingEvents.any = false) ∧
  (d.message a = some .cp2Ok → d.manager.state ≠ .stopped)

instance (d : Daemon) (a : Act) : Decidable (d.RestartOk a) :=
  inferInstanceAs (Decidable (_ ∧ _))

def UnaskedOk (d : Daemon) (a : Act) : Prop := d.RestartOk a ∧ ¬ d.Asks a

instance (d : Daemon) (a : Act) : Decidable (d.UnaskedOk a) :=
  inferInstanceAs (Decidable (_ ∧ _))

/-- Once CP2 has begun to stop, it is stopping or stopped until an open or power-on request arrives,
provided no stop begins with events left in `pending_events` and CP2 does not report on its own that
it runs. -/
theorem stays_stopped (hrun : Run (Guarded RestartOk next) (init enabled) as d₀)
    (hstop : Guarded RestartOk next d₀ a d₁) (h₀ : d₀.manager.state ≠ .stopping)
    (h₁ : d₁.manager.state = .stopping)
    (hquiet : Run (Guarded UnaskedOk next) d₁ bs d₂) :
    d₂.manager.state = .stopping ∨ d₂.manager.state = .stopped := by
  have htracked : d₀.Tracked := by
    refine hrun.invariant (I := fun _ d => d.Tracked) (tracked_init enabled) ?_
    rintro _ a d _ ht ⟨⟨⟩, -⟩
    exact (ht.does a).tracked ht
  have hbegin : d₁.Tracked ∧ d₁.manager.control.Resting := by
    obtain ⟨⟨⟩, hok, -⟩ := hstop
    refine ⟨(htracked.does a).tracked htracked, ?_⟩
    obtain he | ⟨e, -, he⟩ := htracked.control_step a
    · have hs : (d₀.step a).manager.state = d₀.manager.state := congrArg Control.state he
      exact absurd (hs.symm.trans h₁) h₀
    have hpending : d₀.manager.control.pending.any = false := hok h₀ h₁
    have hs : (d₀.manager.control.step e).control.state = .stopping := he ▸ h₁
    obtain ⟨hb, hp⟩ := Control.step_stopping (c := d₀.manager.control) h₀ hs
    rw [he]
    exact ⟨.inl hs, hb, hp ▸ hpending⟩
  have hend : d₂.Tracked ∧ d₂.manager.control.Resting := by
    refine hquiet.invariant (I := fun _ d => d.Tracked ∧ d.manager.control.Resting) hbegin ?_
    rintro _ a d _ ⟨ht, hrest⟩ ⟨⟨⟩, ⟨-, hok⟩, hasks⟩
    refine ⟨(ht.does a).tracked ht, ?_⟩
    obtain he | ⟨e, hmsg, he⟩ := ht.control_step a
    · rw [he]
      exact hrest
    rw [he]
    refine hrest.step ?_ ?_
    · rw [Asks, hmsg] at hasks
      exact Bool.not_eq_true _ ▸ hasks
    · rintro rfl
      exact hok hmsg
  exact hend.2.state

theorem first_stop_rests : ∃ d₀ d₂,
    Run (Guarded RestartOk next) (init true)
      [.connect 1, .request 1 (.radioOpen .bt), .notice .cp2Ok] d₀ ∧
    Run (Guarded UnaskedOk next) (d₀.step (.request 1 (.radioClose .bt)))
      [.notice .cp2Down, .notice .pendingEvent] d₂ ∧
    (d₂.manager.state = .stopping ∨ d₂.manager.state = .stopped) := by
  have hstart : ∃ d₀, Run (Guarded RestartOk next) (init true)
      [.connect 1, .request 1 (.radioOpen .bt), .notice .cp2Ok] d₀ ∧
      d₀.RestartOk (.request 1 (.radioClose .bt)) ∧ d₀.manager.state ≠ .stopping ∧
      (d₀.step (.request 1 (.radioClose .bt))).manager.state = .stopping ∧
      (exec (fun d a => if UnaskedOk d a then next d a else none)
        (d₀.step (.request 1 (.radioClose .bt)))
        [.notice .cp2Down, .notice .pendingEvent]).isSome :=
    exists_guarded_of_exec (by decide)
  obtain ⟨d₀, hrun, hok, h₀, h₁, hrest⟩ := hstart
  obtain ⟨d₂, hd₂⟩ := Option.isSome_iff_exists.mp hrest
  have hquiet := guarded_of_exec hd₂
  exact ⟨d₀, d₂, hrun, hquiet, stays_stopped hrun ⟨rfl, hok⟩ h₀ h₁ hquiet⟩

def secondStop : List Act :=
  [.connect 1, .request 1 (.radioOpen .bt), .notice .cp2Ok, .request 1 (.radioClose .bt),
    .connect 2, .request 2 (.radioOpen .wifi), .notice .cp2Down, .notice .pendingEvent,
    .notice .cp2Ok, .request 2 (.radioClose .wifi)]

/-- The WiFi request of the first stop has been served; behind the second stop it starts CP2 again
although nobody has asked for anything. -/
theorem served_request_starts_again :
    ((exec next (init true) secondStop).any (fun d => d.manager.state = .stopping) &&
      (exec next (init true) (secondStop ++ [.notice .cp2Down])).any
        (fun d => d.manager.state = .stopped) &&
      (exec next (init true) (secondStop ++ [.notice .cp2Down, .notice .pendingEvent])).any
        (fun d => d.manager.state = .starting)) = true := by
  decide

end Daemon

end SprdVendor.Wcnd
