import SprdVendor.Lib.Ledger
import SprdVendor.Wcnd.Sm

namespace SprdVendor.Wcnd
open Lib List Option

structure Control where
  state : Cp2State
  btwifi : BtWifiState
  saved : BtWifiState
  pending : PendingEvents

def WcndManager.control (m : WcndManager) : Control :=
  ⟨m.state, m.btwifiState, m.savedBtwifiState, m.pendingEvents⟩

/-- What an event does: the control behind it, the new type of the client that sent it, and the
notifications, all of which are sent in the new state. -/
structure Outcome where
  control : Control
  park : Option ClientType := none
  infos : List (Response × ClientType) := []

namespace Control

def stopped (c : Control) : Event → Outcome
  | .radioOpen r => ⟨{ c with btwifi := c.btwifi.turnOn r, state := .starting }, none, []⟩
  | .radioClose _ => ⟨c, none, [(.ok, .cmd)]⟩
  | .cp2PowerOffReq => ⟨c, none, [(.ok, .cmd)]⟩
  | .pendingEvent =>
    let c := { c with btwifi := fun r => c.btwifi r || c.pending.opens r }
    if c.btwifi.any || c.pending.powerOn then ⟨{ c with state := .starting }, none, []⟩
    else ⟨c, none, []⟩
  | .cp2PowerOnReq => ⟨{ c with state := .starting }, none, []⟩
  | .cp2Ok => ⟨{ c with state := .started }, none, []⟩
  | _ => ⟨c, none, []⟩

def starting (c : Control) : Event → Outcome
  | .radioClose _ => ⟨c, none, [(.ok, .cmd)]⟩
  | .radioOpen r => ⟨{ c with btwifi := c.btwifi.turnOn r }, none, []⟩
  | .cp2Ok => ⟨{ c with state := .started }, none, [(.ok, .cmd), (.ok, .cmdPending)]⟩
  | .cp2Down => ⟨{ c with state := .stopped }, none, [(.fail, .cmd), (.fail, .cmdPending)]⟩
  | .cp2PowerOffReq => ⟨c, none, [(.ok, .cmd)]⟩
  | _ => ⟨c, none, []⟩

def startedClose (c : Control) (e : Event) : Outcome :=
  if c.saved.any then
    ⟨{ c with saved := WcndManager.clearBit c.saved e }, none, [(.ok, .cmd)]⟩
  else
    let c := { c with btwifi := WcndManager.clearBit c.btwifi e }
    if c.btwifi.any then ⟨c, none, [(.ok, .cmd)]⟩
    else ⟨{ c with state := .stopping }, none, []⟩

def startedOpen (c : Control) (e : Event) : Outcome :=
  ⟨{ c with btwifi := WcndManager.setBit c.btwifi e }, none, [(.ok, .cmd)]⟩

def started (c : Control) : Event → Outcome
  | .radioClose r => c.startedClose (.radioClose r)
  | .cp2PowerOffReq => c.startedClose .cp2PowerOffReq
  | .radioOpen r => c.startedOpen (.radioOpen r)
  | .cp2PowerOnReq => c.startedOpen .cp2PowerOnReq
  | .cp2Assert => ⟨{ c with saved := c.btwifi, state := .assert }, none, []⟩
  | .cp2Down => ⟨{ c with state := .stopped }, none, []⟩
  | _ => ⟨c, none, []⟩

def asserted (c : Control) : Event → Outcome
  | .radioClose r =>
    ⟨if c.saved.any then { c with saved := c.saved.turnOff r } else c,
      some .cmdSubtypeClose, [(.ok, .cmdSubtypeClose)]⟩
  | .radioOpen r => ⟨{ c with btwifi := c.btwifi.turnOn r }, some .cmdSubtypeOpen, []⟩
  | .cp2Ok => ⟨{ c with state := .started }, none, [(.ok, .cmd)]⟩
  | .cp2Down => ⟨{ c with state := .stopped }, none, [(.fail, .cmd)]⟩
  | _ => ⟨c, none, []⟩

def stopping (c : Control) : Event → Outcome
  | .radioOpen r => ⟨{ c with pending := c.pending.add (.radioOpen r) }, some .cmdPending, []⟩
  | .cp2PowerOnReq => ⟨{ c with pending := c.pending.add .cp2PowerOnReq }, some .cmdPending, []⟩
  | .cp2Down => ⟨{ c with state := .stopped }, none, [(.ok, .cmd)]⟩
  | _ => ⟨c, none, []⟩

def step (c : Control) (e : Event) : Outcome :=
  match c.state with
  | .stopped => c.stopped e
  | .starting => c.starting e
  | .started => c.started e
  | .assert => c.asserted e
  | .stopping => c.stopping e

end Control

def ClientType.waits : ClientType → Bool
  | .notify => false
  | .sleep => false
  | _ => true

namespace WcndManager

def typeOf (m : WcndManager) (fd : Nat) : Option ClientType :=
  (slot? WcndClient.sockfd m.clients fd).map WcndClient.type

def Apart (m : WcndManager) : Prop := Distinct WcndClient.sockfd m.clients

def Reachable (broken : Nat → Bool) (m : WcndManager) : Prop :=
  ∀ fd t, m.typeOf fd = some t → t.waits = true → broken fd = false

theorem typeOf_setType_none (m : WcndManager) (t : ClientType) (fd : Nat) :
    (m.setType none t).typeOf fd = m.typeOf fd := by
  obtain he | ⟨pre, a, post, hl, ha, he⟩ :=
    modifyFirst_cases (fun c => c.sockfd = none) ({ · with type := t }) m.clients
  · rw [typeOf, WcndManager.setType, he, typeOf]
  · have ha : a.sockfd = none := of_decide_eq_true ha
    rw [typeOf, WcndManager.setType, he, typeOf, hl,
      slot?_replace_free ha (b := { a with type := t }) ha]

section table

variable {m : WcndManager} (h : m.Apart)
include h

theorem Apart.setType (fd : Option Nat) (t : ClientType) : (m.setType fd t).Apart := by
  rw [Apart, WcndManager.setType]
  cases fd with
  | none =>
    obtain he | ⟨pre, a, post, hl, ha, he⟩ :=
      modifyFirst_cases (fun c => c.sockfd = none) ({ · with type := t }) m.clients
    · rw [he]
      exact h
    have ha : a.sockfd = none := of_decide_eq_true ha
    have hd : Distinct WcndClient.sockfd (pre ++ a :: post) := hl ▸ h
    rw [he]
    exact hd.replace_free ha ha
  | some fd =>
    rw [modifyFirst_eq_map _ h]
    apply Distinct.map h
    intro c
    left
    split <;> rfl

theorem typeOf_setType (fd fd' : Nat) (t : ClientType) :
    (m.setType (some fd) t).typeOf fd' =
      (m.typeOf fd').map fun t' => if fd' = fd then t else t' := by
  rw [typeOf, WcndManager.setType, modifyFirst_eq_map _ h, slot?_map h, typeOf]
  · cases hs : slot? WcndClient.sockfd m.clients fd' with
    | none => rfl
    | some c =>
      have hc := slot?_key hs
      by_cases he : fd' = fd
      · simp [hc, he]
      · simp [hc, he]
  · intro c
    left
    split <;> rfl

theorem zap_spec (fd : Nat) :
    (m.zap fd).Apart ∧ ∀ k, (m.zap fd).typeOf k = if k = fd then none else m.typeOf k := by
  have hkey : ∀ c : WcndClient,
      (if c.sockfd = some fd then WcndClient.free else c).sockfd = c.sockfd ∨
        (if c.sockfd = some fd then WcndClient.free else c).sockfd = none := by
    intro c
    split
    · exact .inr rfl
    · exact .inl rfl
  refine ⟨?_, fun k => ?_⟩
  · rw [Apart, zap, modifyFirst_eq_map _ h]
    exact Distinct.map h hkey
  rw [typeOf, zap, modifyFirst_eq_map _ h, slot?_map h hkey, typeOf]
  cases hs : slot? WcndClient.sockfd m.clients k with
  | none => simp
  | some c =>
    have hc := slot?_key hs
    by_cases he : k = fd
    · simp [hc, he, WcndClient.free]
    · simp [hc, he]

/-- A socket that is in no slot gets the type `notify`, or none if there is no free slot. -/
theorem accept_spec (fd : Nat) (hno : m.typeOf fd = none) :
    (m.accept fd).Apart ∧ ((∀ k, (m.accept fd).typeOf k = m.typeOf k) ∨
      ∀ k, (m.accept fd).typeOf k = if k = fd then some .notify else m.typeOf k) := by
  have hfd : ∀ c ∈ m.clients, c.sockfd ≠ some fd := by
    intro c hc he
    rw [typeOf, slot?_of_mem h hc he] at hno
    cases hno
  obtain he | ⟨pre, a, post, hl, ha, he⟩ :=
    modifyFirst_cases (fun c : WcndClient => c.sockfd = none || c.sockfd = some fd)
      (fun c => if c.sockfd = none then ⟨some fd, .notify⟩ else c) m.clients
  · refine ⟨?_, .inl fun k => ?_⟩
    · rw [Apart, accept, he]
      exact h
    · rw [typeOf, accept, he, typeOf]
  have hfree : a.sockfd = none := by
    have hne := hfd a (hl ▸ mem_append_right _ mem_cons_self)
    simpa [hne] using ha
  have hnot : fd ∉ (pre ++ a :: post).filterMap WcndClient.sockfd := by
    intro hm
    obtain ⟨c, hc, hk⟩ := mem_filterMap.mp hm
    exact hfd c (hl ▸ hc) hk
  rw [if_pos hfree] at he
  have hd : Distinct WcndClient.sockfd (pre ++ a :: post) := hl ▸ h
  refine ⟨?_, .inr fun k => ?_⟩
  · rw [Apart, accept, he]
    exact hd.store hfree rfl hnot
  rw [typeOf, accept, he, slot?_store hfree rfl hnot, typeOf, hl]
  split
  · rfl
  · rfl

variable {ty : ClientType} (hty : ty.waits = true)
include hty

omit h in
theorem waits_of_takes {t : ClientType} (ht : t.takes ty = true) : t.waits = true := by
  simp only [ClientType.takes, Bool.or_eq_true, Bool.and_eq_true, decide_eq_true_eq] at ht
  obtain rfl | ⟨rfl, hm⟩ := ht
  · exact hty
  cases t with
  | notify => cases hm
  | sleep => cases hm
  | _ => rfl

omit h in
theorem sleeps_of_waits : (ty = .cmd ∨ ty = .cmdPending) ∨ ty.mask = .cmd := by
  cases ty with
  | notify => cases hty
  | sleep => cases hty
  | cmdPending => exact .inl (.inr rfl)
  | _ => exact .inr rfl

omit h hty in
theorem notified_key (broken : Nat → Bool) (ty : ClientType) (c : WcndClient) :
    (notified broken ty c).sockfd = c.sockfd ∨ (notified broken ty c).sockfd = none := by
  rw [notified]
  split
  · exact .inl rfl
  split
  · split
    · exact .inr rfl
    split
    · exact .inl rfl
    · exact .inl rfl
  · exact .inl rfl

omit h in
theorem sendNotifyToClient_eq (broken : Nat → Bool) (m : WcndManager) (info : Response) :
    m.sendNotifyToClient broken info ty =
      { m with
        clients := m.clients.map (notified broken ty)
        sent := m.sent ++ (m.clients.filterMap (written broken ty)).map
          fun fd => (fd, ⟨info, m.state⟩) } := by
  rw [sendNotifyToClient, if_neg]
  intro hn
  cases ty with
  | notify => cases hty
  | _ => cases hn

theorem Apart.sendNotifyToClient (broken : Nat → Bool) (info : Response) :
    (m.sendNotifyToClient broken info ty).Apart := by
  rw [sendNotifyToClient_eq hty]
  exact Distinct.map h (notified_key broken ty)

variable {broken : Nat → Bool} (hr : m.Reachable broken)
include hr

theorem typeOf_sendNotifyToClient (info : Response) (fd : Nat) :
    (m.sendNotifyToClient broken info ty).typeOf fd =
      (m.typeOf fd).map fun t => if t.takes ty then .sleep else t := by
  have ht : ∀ t, m.typeOf fd = some t → t.waits = true → broken fd = false := hr fd
  rw [sendNotifyToClient_eq hty, typeOf, slot?_map h (notified_key broken ty)]
  rw [typeOf] at ht ⊢
  cases hs : slot? WcndClient.sockfd m.clients fd with
  | none => rfl
  | some c =>
    have hc := slot?_key hs
    rw [hs] at ht
    by_cases htk : c.type.takes ty = true
    · have hb := ht c.type rfl (waits_of_takes hty htk)
      simp [notified, hc, htk, hb, sleeps_of_waits hty]
    · simp [notified, hc, htk]

theorem sentTo_sendNotifyToClient (info : Response) (fd : Nat) :
    sentTo fd (m.sendNotifyToClient broken info ty).sent =
      sentTo fd m.sent ++
        ((m.typeOf fd).filter (·.takes ty)).toList.map fun _ => ⟨info, m.state⟩ := by
  have ht : ∀ t, m.typeOf fd = some t → t.waits = true → broken fd = false := hr fd
  have hw : ∀ c k, written broken ty c = some k → c.sockfd = some k := by
    intro c k hk
    exact (Option.filter_eq_some_iff.mp hk).1
  have hf := filter_filterMap h hw fd
  rw [sendNotifyToClient_eq hty]
  rw [typeOf] at ht ⊢
  rw [sentTo, List.filter_append, List.map_append, List.filter_map, List.map_map]
  have hkey : (fun p : Nat × Answer => decide (p.1 = fd)) ∘
      (fun fd => (fd, (⟨info, m.state⟩ : Answer))) = fun k => decide (k = fd) := rfl
  rw [hkey, hf, sentTo]
  congr 1
  cases hs : slot? WcndClient.sockfd m.clients fd with
  | none => rfl
  | some c =>
    have hc := slot?_key hs
    rw [hs] at ht
    by_cases htk : c.type.takes ty = true
    · have hb := ht c.type rfl (waits_of_takes hty htk)
      simp [written, hc, htk, hb, Option.filter_some]
    · simp [written, hc, htk, Option.filter_some]

end table

def reply (infos : List (Response × ClientType)) (t : ClientType) : Option Response :=
  (infos.find? fun i => t.takes i.2).map Prod.fst

theorem reply_sleep (infos : List (Response × ClientType)) (h : ∀ i ∈ infos, i.2.waits = true) :
    reply infos .sleep = none := by
  rw [reply, map_eq_none_iff, find?_eq_none]
  intro i hi htk
  cases waits_of_takes (h i hi) htk

def sendAll (broken : Nat → Bool) (m : WcndManager) (infos : List (Response × ClientType)) :
    WcndManager :=
  infos.foldl (fun m i => m.sendNotifyToClient broken i.1 i.2) m

section sendAll

variable {broken : Nat → Bool}

theorem Reachable.sendNotifyToClient {m : WcndManager} (h : m.Apart) (hr : m.Reachable broken)
    (hty : ty.waits = true) (info : Response) :
    (m.sendNotifyToClient broken info ty).Reachable broken := by
  intro fd t ht hw
  rw [typeOf_sendNotifyToClient h hty hr, map_eq_some_iff] at ht
  obtain ⟨t', ht', rfl⟩ := ht
  split at hw
  · cases hw
  · exact hr fd t' ht' hw

theorem sendAll_spec {m : WcndManager} (h : m.Apart)
    (hr : m.Reachable broken) (hinfos : ∀ i ∈ infos, i.2.waits = true) :
    (m.sendAll broken infos).Apart ∧ (m.sendAll broken infos).state = m.state ∧
      ∀ fd, (m.sendAll broken infos).typeOf fd =
          (m.typeOf fd).map (fun t => if (reply infos t).isSome then .sleep else t) ∧
        sentTo fd (m.sendAll broken infos).sent = sentTo fd m.sent ++
          ((m.typeOf fd).bind (reply infos)).toList.map fun i => ⟨i, m.state⟩ := by
  induction infos generalizing m with
  | nil =>
    refine ⟨h, rfl, fun fd => ⟨?_, ?_⟩⟩
    · exact map_id'.symm
    · cases hm : m.typeOf fd with
      | _ => exact (append_nil _).symm
  | cons i infos ih =>
    obtain ⟨hi, hrest⟩ := forall_mem_cons.mp hinfos
    have h' := h.sendNotifyToClient hi broken i.1
    have hr' := Reachable.sendNotifyToClient h hr hi i.1
    have hstate : (m.sendNotifyToClient broken i.1 i.2).state = m.state := by
      rw [sendNotifyToClient_eq hi]
    obtain ⟨ha, hs, hfd⟩ := ih h' hr' hrest
    refine ⟨ha, hs.trans hstate, fun fd => ?_⟩
    obtain ⟨hty, hsent⟩ := hfd fd
    have hmt := typeOf_sendNotifyToClient h hi hr i.1 fd
    have hms := sentTo_sendNotifyToClient h hi hr i.1 fd
    rw [hmt] at hty hsent
    rw [hms, hstate] at hsent
    cases hm : m.typeOf fd with
    | none =>
      rw [hm] at hty hsent
      refine ⟨hty, hsent.trans ?_⟩
      exact append_nil _
    | some t =>
      rw [hm] at hty hsent
      by_cases htk : t.takes i.2 = true
      · have hreply : reply (i :: infos) t = some i.1 := by simp [reply, htk]
        simp only [map_some, htk, if_true, reply_sleep infos hrest, bind_some, filter_some,
          toList_some, toList_none, map_nil, append_nil, map_cons] at hty hsent
        refine ⟨hty.trans ?_, hsent.trans ?_⟩
        · rw [map_some, hreply]
          rfl
        · rw [bind_some, hreply]
          rfl
      · have hreply : reply (i :: infos) t = reply infos t := by simp [reply, htk]
        simp only [map_some, htk, Bool.false_eq_true, if_false, bind_some,
          filter_some, toList_none, map_nil, append_nil] at hty hsent
        refine ⟨hty.trans ?_, hsent.trans ?_⟩
        · rw [map_some, hreply]
        · rw [bind_some, hreply]

end sendAll

def prepare (m : WcndManager) (fd : Option Nat) (o : Outcome) : WcndManager :=
  match o.park with
  | some t => { m.setType fd t with state := o.control.state }
  | none => { m with state := o.control.state }

def perform (broken : Nat → Bool) (m : WcndManager) (fd : Option Nat) (o : Outcome) :
    WcndManager :=
  sendAll broken (m.prepare fd o) o.infos

end WcndManager

def Outcome.parked (o : Outcome) (mine : Bool) (t : ClientType) : ClientType :=
  if mine then o.park.getD t else t

def Outcome.reply (o : Outcome) (mine : Bool) (t : ClientType) : Option Response :=
  WcndManager.reply o.infos (o.parked mine t)

def Outcome.typeAfter (o : Outcome) (mine : Bool) (t : ClientType) : ClientType :=
  if (o.reply mine t).isSome then .sleep else o.parked mine t

namespace WcndManager

structure Carries (broken : Nat → Bool) (m : WcndManager) (fd : Option Nat) (o : Outcome)
    (m' : WcndManager) : Prop where
  enabled : m'.isWcnModemEnabled = m.isWcnModemEnabled
  control : m'.control = o.control
  clients : m'.clients = (m.perform broken fd o).clients
  sent : m'.sent = (m.perform broken fd o).sent

theorem prepare_spec {m : WcndManager} (h : m.Apart)
    (hr : m.Reachable broken) (hmine : ∀ k, fd? = some k → broken k = false) (o : Outcome) :
    (m.prepare fd? o).Apart ∧ (m.prepare fd? o).Reachable broken ∧
      (m.prepare fd? o).state = o.control.state ∧ (m.prepare fd? o).sent = m.sent ∧
      ∀ fd, (m.prepare fd? o).typeOf fd = (m.typeOf fd).map (o.parked (fd? = some fd)) := by
  obtain ⟨control, park, infos⟩ := o
  cases park with
  | none =>
    refine ⟨h, hr, rfl, rfl, fun fd => ?_⟩
    have hid : Outcome.parked ⟨control, none, infos⟩ (fd? = some fd) = fun t => t := by
      funext t
      simp [Outcome.parked]
    rw [hid]
    exact map_id'.symm
  | some p =>
    have hty : ∀ fd, (m.setType fd? p).typeOf fd =
        (m.typeOf fd).map (Outcome.parked ⟨control, some p, infos⟩ (fd? = some fd)) := by
      intro fd
      cases fd? with
      | none =>
        rw [typeOf_setType_none]
        exact map_id'.symm
      | some k =>
        rw [typeOf_setType h]
        cases hm : m.typeOf fd with
        | none => rfl
        | some t =>
          by_cases he : fd = k
          · simp [Outcome.parked, he]
          · have he' : ¬ k = fd := fun hk => he hk.symm
            simp [Outcome.parked, he, he']
    refine ⟨h.setType fd? p, ?_, rfl, rfl, hty⟩
    intro fd t ht hw
    obtain ⟨t', ht', rfl⟩ := map_eq_some_iff.mp ((hty fd).symm.trans ht)
    by_cases he : fd? = some fd
    · exact hmine fd he
    · rw [Outcome.parked, if_neg (by simpa using he)] at hw
      exact hr fd t' ht' hw

theorem Carries.spec {m m' : WcndManager}
    (hc : Carries broken m fd? o m') (h : m.Apart) (hr : m.Reachable broken)
    (hinfos : ∀ i ∈ o.infos, i.2.waits = true) (hmine : ∀ k, fd? = some k → broken k = false) :
    m'.Apart ∧ ∀ fd, m'.typeOf fd = (m.typeOf fd).map (o.typeAfter (fd? = some fd)) ∧
      sentTo fd m'.sent = sentTo fd m.sent ++
        ((m.typeOf fd).bind (o.reply (fd? = some fd))).toList.map fun i => ⟨i, o.control.state⟩ := by
  obtain ⟨hp, hpr, hstate, hps, hpt⟩ := prepare_spec h hr hmine o
  obtain ⟨ha, -, hfd⟩ := sendAll_spec hp hpr hinfos
  refine ⟨?_, fun fd => ?_⟩
  · rw [Apart, hc.clients]
    exact ha
  obtain ⟨hty, hsent⟩ := hfd fd
  rw [hpt] at hty hsent
  rw [hps, hstate, bind_map] at hsent
  refine ⟨?_, ?_⟩
  · rw [typeOf, hc.clients]
    refine hty.trans ?_
    rw [Option.map_map]
    rfl
  · rw [hc.sent]
    exact hsent

theorem startedClose_carries (broken : Nat → Bool) (m : WcndManager) (fd : Option Nat) (e : Event)
    (hs : m.state = .started) :
    Carries broken m fd (m.control.startedClose e)
      (startedClose broken { m with notifyEnabled := true } e) := by
  obtain ⟨enabled, state, notify, btwifi, saved, pending, clients, sent, selfCmds⟩ := m
  cases hs
  cases hsaved : saved.any with
  | true =>
    simp only [startedClose, WcndManager.control, Control.startedClose, hsaved, if_true]
    exact ⟨rfl, rfl, rfl, rfl⟩
  | false =>
    cases hany : (clearBit btwifi e).any with
    | true =>
      simp only [startedClose, WcndManager.control, Control.startedClose, hsaved, hany, if_true,
        Bool.false_eq_true, if_false]
      exact ⟨rfl, rfl, rfl, rfl⟩
    | false =>
      simp only [startedClose, WcndManager.control, Control.startedClose, hsaved, hany,
        Bool.false_eq_true, if_false]
      exact ⟨rfl, rfl, rfl, rfl⟩

theorem smStep_carries (broken : Nat → Bool) (m : WcndManager) (msg : WcndMessage)
    (henabled : m.isWcnModemEnabled = true) :
    Carries broken m msg.replytoFd (m.control.step msg.event) (m.smStep broken msg) := by
  have hclose := startedClose_carries broken m msg.replytoFd
  obtain ⟨enabled, state, notify, btwifi, saved, pending, clients, sent, selfCmds⟩ := m
  obtain ⟨event, fd⟩ := msg
  cases henabled
  rw [smStep, if_pos rfl]
  cases state with
  | stopped =>
    cases event with
    | pendingEvent =>
      cases hany : (BtWifiState.any fun r => btwifi r || pending.opens r) || pending.powerOn with
      | true =>
        simp only [cp2Stopped, WcndManager.control, Control.step, Control.stopped, hany, if_true]
        exact ⟨rfl, rfl, rfl, rfl⟩
      | false =>
        simp only [cp2Stopped, WcndManager.control, Control.step, Control.stopped, hany,
          Bool.false_eq_true, if_false]
        exact ⟨rfl, rfl, rfl, rfl⟩
    | _ => exact ⟨rfl, rfl, rfl, rfl⟩
  | starting => cases event <;> exact ⟨rfl, rfl, rfl, rfl⟩
  | started =>
    cases event with
    | radioClose r => exact hclose (.radioClose r) rfl
    | cp2PowerOffReq => exact hclose .cp2PowerOffReq rfl
    | _ => exact ⟨rfl, rfl, rfl, rfl⟩
  | assert =>
    cases event with
    | radioClose r =>
      cases hsaved : saved.any with
      | true =>
        simp only [cp2Assert, WcndManager.control, Control.step, Control.asserted, hsaved, if_true]
        exact ⟨rfl, rfl, rfl, rfl⟩
      | false =>
        simp only [cp2Assert, WcndManager.control, Control.step, Control.asserted, hsaved,
          Bool.false_eq_true, if_false]
        exact ⟨rfl, rfl, rfl, rfl⟩
    | _ => exact ⟨rfl, rfl, rfl, rfl⟩
  | stopping =>
    cases event with
    | cp2Down =>
      rw [cp2Stopping]
      dsimp only
      split
      · exact ⟨rfl, rfl, rfl, rfl⟩
      · exact ⟨rfl, rfl, rfl, rfl⟩
    | _ => exact ⟨rfl, rfl, rfl, rfl⟩

end WcndManager

def Event.starts : Event → Bool
  | .radioOpen _ => true
  | .cp2PowerOnReq => true
  | _ => false

def Event.stops : Event → Bool
  | .radioClose _ => true
  | .cp2PowerOffReq => true
  | _ => false

inductive Moves : Cp2State → Event → Cp2State → Option ClientType →
    List (Response × ClientType) → Prop where
  | ignored : (e.starts = true → s = .starting ∨ s = .assert) →
      (e.stops = true → s = .stopping ∨ s = .assert ∧ e = .cp2PowerOffReq) → Moves s e s none []
  | start : e.stops = false → Moves .stopped e .starting none []
  | running : Moves .stopped .cp2Ok .started none []
  | closed : e.stops = true → Moves .stopped e .stopped none [(.ok, .cmd)]
  | released : e.stops = true → Moves .starting e .starting none [(.ok, .cmd)]
  | up : Moves .starting .cp2Ok .started none [(.ok, .cmd), (.ok, .cmdPending)]
  | failed : Moves .starting .cp2Down .stopped none [(.fail, .cmd), (.fail, .cmdPending)]
  | served : Moves .started e .started none [(.ok, .cmd)]
  | stop : e.stops = true → Moves .started e .stopping none []
  | crash : Moves .started .cp2Assert .assert none []
  | lost : Moves .started .cp2Down .stopped none []
  | closedCrashed : Moves .assert (.radioClose r) .assert (some .cmdSubtypeClose)
      [(.ok, .cmdSubtypeClose)]
  | openedCrashed : Moves .assert (.radioOpen r) .assert (some .cmdSubtypeOpen) []
  | recovered : Moves .assert .cp2Ok .started none [(.ok, .cmd)]
  | resetFailed : Moves .assert .cp2Down .stopped none [(.fail, .cmd)]
  | deferred : e.starts = true → Moves .stopping e .stopping (some .cmdPending) []
  | down : Moves .stopping .cp2Down .stopped none [(.ok, .cmd)]

theorem Moves.quiet (hs : e.starts = false) (ht : e.stops = false) : Moves s e s none [] :=
  .ignored (fun h => absurd (hs.symm.trans h) Bool.false_ne_true)
    fun h => absurd (ht.symm.trans h) Bool.false_ne_true

namespace Control

theorem startedClose_moves (c : Control) (e : Event) (hs : c.state = .started)
    (he : e.stops = true) :
    Moves .started e (c.startedClose e).control.state (c.startedClose e).park
      (c.startedClose e).infos := by
  obtain ⟨state, btwifi, saved, pending⟩ := c
  cases hs
  rw [startedClose]
  split
  · exact .served
  dsimp only
  split
  · exact .served
  · exact .stop he

theorem step_moves (c : Control) (e : Event) :
    Moves c.state e (c.step e).control.state (c.step e).park (c.step e).infos := by
  have hclose := startedClose_moves c
  obtain ⟨state, btwifi, saved, pending⟩ := c
  cases state with
  | stopped =>
    cases e with
    | radioOpen r => exact .start rfl
    | radioClose r => exact .closed rfl
    | cp2PowerOffReq => exact .closed rfl
    | cp2PowerOnReq => exact .start rfl
    | cp2Ok => exact .running
    | pendingEvent =>
      simp only [step, stopped]
      split
      · exact .start rfl
      · exact .quiet rfl rfl
    | _ => exact .quiet rfl rfl
  | starting =>
    cases e with
    | radioOpen r => exact .ignored (fun _ => .inl rfl) (fun h => by cases h)
    | radioClose r => exact .released rfl
    | cp2Ok => exact .up
    | cp2Down => exact .failed
    | cp2PowerOnReq => exact .ignored (fun _ => .inl rfl) (fun h => by cases h)
    | cp2PowerOffReq => exact .released rfl
    | _ => exact .quiet rfl rfl
  | started =>
    cases e with
    | radioOpen r => exact .served
    | radioClose r => exact hclose (.radioClose r) rfl rfl
    | cp2PowerOnReq => exact .served
    | cp2PowerOffReq => exact hclose .cp2PowerOffReq rfl rfl
    | cp2Assert => exact .crash
    | cp2Down => exact .lost
    | _ => exact .quiet rfl rfl
  | assert =>
    cases e with
    | radioOpen r => exact .openedCrashed
    | radioClose r =>
      simp only [step, asserted]
      split
      · exact .closedCrashed
      · exact .closedCrashed
    | cp2Ok => exact .recovered
    | cp2Down => exact .resetFailed
    | cp2PowerOnReq => exact .ignored (fun _ => .inr rfl) (fun h => by cases h)
    | cp2PowerOffReq => exact .ignored (fun h => by cases h) fun _ => .inr ⟨rfl, rfl⟩
    | _ => exact .quiet rfl rfl
  | stopping =>
    cases e with
    | radioOpen r => exact .deferred rfl
    | cp2PowerOnReq => exact .deferred rfl
    | radioClose r => exact .ignored (fun h => by cases h) fun _ => .inl rfl
    | cp2PowerOffReq => exact .ignored (fun h => by cases h) fun _ => .inl rfl
    | cp2Down => exact .down
    | _ => exact .quiet rfl rfl


theorem startedClose_stopping {c : Control} (hs : c.state = .started)
    (h : (c.startedClose e).control.state = .stopping) :
    (c.startedClose e).control.btwifi.any = false ∧
      (c.startedClose e).control.pending = c.pending := by
  obtain ⟨state, btwifi, saved, pending⟩ := c
  cases hs
  rw [startedClose] at h ⊢
  split at h
  · cases h
  rename_i hsaved
  rw [if_neg hsaved]
  dsimp only at h ⊢
  split at h
  · cases h
  · rename_i hany
    rw [if_neg hany]
    exact ⟨Bool.not_eq_true _ ▸ hany, rfl⟩

theorem step_stopping {c : Control} (hs : c.state ≠ .stopping)
    (h : (c.step e).control.state = .stopping) :
    (c.step e).control.btwifi.any = false ∧ (c.step e).control.pending = c.pending := by
  have hmv := c.step_moves e
  generalize hst : c.state = st at hs hmv
  rw [h] at hmv
  generalize (c.step e).park = park at hmv
  generalize (c.step e).infos = infos at hmv
  cases hmv with
  | stop hstop =>
    rw [step, hst] at h ⊢
    cases e with
    | radioClose r => exact startedClose_stopping hst h
    | cp2PowerOffReq => exact startedClose_stopping hst h
    | _ => cases hstop
  | _ => exact absurd rfl hs

end Control

def Command.starts (cmd : Command) : Bool := cmd.event.starts

def Command.closes : Command → Bool
  | .radioClose _ => true
  | _ => false

def Suits (state : Cp2State) : ClientType → Command → Prop
  | .cmdPending, cmd => cmd.starts = true
  | .cmdSubtypeClose, _ => False
  | _, cmd => (cmd.starts = true → state = .starting ∨ state = .assert) ∧
      (cmd.closes = true → state = .stopping)

section moves

variable {o : Outcome} (h : Moves s e o.control.state o.park o.infos)
include h

theorem Moves.infos_wait : ∀ i ∈ o.infos, i.2.waits = true := by
  obtain ⟨⟨state, btwifi, saved, pending⟩, park, infos⟩ := o
  cases h <;> simp [ClientType.waits]

theorem Moves.suits_other (ht : t.waits = true) (hs : Suits s t cmd)
    (hno : o.reply false t = none) : Suits o.control.state t cmd := by
  obtain ⟨⟨state, btwifi, saved, pending⟩, park, infos⟩ := o
  cases h <;> cases t <;>
    simp_all [Suits, Outcome.reply, Outcome.parked, WcndManager.reply, ClientType.takes,
      ClientType.mask, ClientType.waits]

theorem Moves.suits_mine (he : e = cmd.event) (hno : o.reply true .cmd = none) :
    Suits o.control.state (o.parked true .cmd) cmd ∧ (o.parked true .cmd).waits = true := by
  obtain ⟨⟨state, btwifi, saved, pending⟩, park, infos⟩ := o
  cases h <;> cases cmd <;>
    simp_all [Suits, Outcome.reply, Outcome.parked, WcndManager.reply, ClientType.takes,
      ClientType.mask, ClientType.waits, Command.starts, Command.closes, Command.event,
      Event.starts, Event.stops]

/-- An open or power-on request is answered OK when CP2 is up, or because somebody else's request
releases all that wait while CP2 is starting. -/
theorem Moves.ok_other (hs : Suits s t cmd) (hst : cmd.starts = true)
    (hok : o.reply false t = some .ok) :
    o.control.state = .started ∨ s = .starting ∧ e.stops = true ∧ t ≠ .cmdPending := by
  obtain ⟨⟨state, btwifi, saved, pending⟩, park, infos⟩ := o
  cases h <;> cases t <;>
    simp_all [Suits, Outcome.reply, Outcome.parked, WcndManager.reply, ClientType.takes,
      ClientType.mask]

theorem Moves.releases (hs : s = .starting) (hstop : e.stops = true) (ht : t.waits = true)
    (hne : t ≠ .cmdPending) : o.reply false t = some .ok ∧ o.control.state = .starting := by
  obtain ⟨⟨state, btwifi, saved, pending⟩, park, infos⟩ := o
  cases hs
  cases h with
  | ignored _ hs =>
    obtain he | ⟨he, -⟩ := hs hstop
    · cases he
    · cases he
  | released _ =>
    refine ⟨?_, rfl⟩
    cases t with
    | notify => cases ht
    | sleep => cases ht
    | cmdPending => exact absurd rfl hne
    | _ => rfl
  | _ => cases hstop

theorem Moves.reply_fail (hfail : o.reply mine t = some .fail) : e = .cp2Down ∧ s ≠ .stopping := by
  obtain ⟨⟨state, btwifi, saved, pending⟩, park, infos⟩ := o
  have hmem : ∃ ty, (Response.fail, ty) ∈ infos := by
    obtain ⟨⟨_, ty⟩, hi, rfl⟩ := map_eq_some_iff.mp hfail
    exact ⟨ty, mem_of_find?_eq_some hi⟩
  cases h with
  | failed => exact ⟨rfl, fun he => by cases he⟩
  | resetFailed => exact ⟨rfl, fun he => by cases he⟩
  | _ => simp at hmem

theorem Moves.park_pending (hpark : o.park = some .cmdPending) : s = .stopping := by
  obtain ⟨⟨state, btwifi, saved, pending⟩, park, infos⟩ := o
  cases hpark
  cases h
  rfl

theorem Moves.ok_mine {cmd : Command} (he : e = cmd.event) (hst : cmd.starts = true)
    (hok : o.reply true .cmd = some .ok) : o.control.state = .started := by
  obtain ⟨⟨state, btwifi, saved, pending⟩, park, infos⟩ := o
  cases h <;> cases cmd <;>
    simp_all [Outcome.reply, Outcome.parked, WcndManager.reply, ClientType.takes,
      ClientType.mask, Command.starts, Command.event, Event.starts, Event.stops]

end moves

end SprdVendor.Wcnd
