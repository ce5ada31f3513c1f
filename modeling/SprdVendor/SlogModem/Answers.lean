import SprdVendor.SlogModem.Transactions

namespace SprdVendor.SlogModem
open Lib List Option

namespace LogPipe

def Saving (s : LogPipe) : Prop := s.cpState = .saveSleepLog ∨ s.cpState = .saveRingbuf

theorem Saving.inTransaction (h : Saving s) : s.inTransaction = true := by
  rcases h with h | h <;> rw [LogPipe.inTransaction, h]

theorem assertReset_transClient (s : LogPipe) (env : AssertEnv) :
    (s.assertReset env).transClient = s.transClient := by
  rw [assertReset]
  split
  · split
    · split <;> rfl
    · rfl
  · rfl

theorem assertDump_transClient (s : LogPipe) (env : AssertEnv) :
    (s.assertDump env).transClient = s.transClient := by
  rw [assertDump, startDump]
  split
  · cases env.dumpStarts <;> rfl
  · rfl

theorem assertNoReset_transClient (s : LogPipe) (env : AssertEnv) :
    (s.assertNoReset env).transClient = s.transClient := by
  rw [assertNoReset]
  split
  · split
    · rw [assertDump_transClient]
    · rfl
  · rfl

theorem processAssert_transClient (s : LogPipe) (env : AssertEnv) :
    (s.processAssert env).transClient = s.transClient := by
  have hstop : (if s.cpState ≠ .working then s.stopTransaction .working else s).transClient =
      s.transClient := by
    split <;> rfl
  rw [processAssert]
  split
  · rfl
  · split
    · rw [assertReset_transClient, hstop]
    · rw [assertNoReset_transClient, hstop]

theorem saving_or_dump (h : (cpState s).kind = some k) : s.Saving ∨ s.cpState = .dump := by
  rw [Saving]
  cases hs : s.cpState <;> rw [hs] at h <;> simp_all [CpWorkState.kind]

theorem notify_saving (hs : Saving s) (h : s.cpState.kind = some k) (res : LogProcResult) :
    s.notify k res = (s.transClient.map fun c => (c, if res = .success then .success else .error),
      { s with
        cpState := .working, transClient := none, consumer := none, diagHandler := none }) := by
  rw [Saving] at hs
  have hk : k = .sleepLog ∨ k = .ringbuf := by
    rcases hs with hs | hs <;> rw [hs] at h <;> cases h
    · exact .inl rfl
    · exact .inr rfl
  rcases hk with rfl | rfl
  · rw [notify, diagTransactionNotify, if_pos hs]
  · rw [notify, diagTransactionNotify, if_pos hs]

theorem notify_dump (hs : cpState s = .dump) (h : s.cpState.kind = some k) (res : LogProcResult) :
    s.notify k res = (none, s.stopTransaction .notWorking) := by
  have hk : k = .dump := by
    rw [hs] at h
    cases h
    rfl
  subst hk
  rw [notify, dumpTransactionNotify, if_pos hs]

/-- A save request is accepted by a working CP, which then saves for this client, or it leaves the
state and the client to be notified as they are. -/
theorem save_cases (h : save k.workState (startConsumer k) s c env = some r) :
    (r.1 = .inProgress ∧ s.cpState = .working ∧ r.2.transClient = some c ∧
      r.2.cpState = k.workState) ∨
    (r.1 ≠ .inProgress ∧ r.2.transClient = s.transClient ∧ r.2.cpState = s.cpState) := by
  rw [save] at h
  split at h
  · cases h
    exact .inr ⟨fun he => Lcr.noConfusion he, rfl, rfl⟩
  split at h
  · cases h
    exact .inr ⟨fun he => Lcr.noConfusion he, rfl, rfl⟩
  split at h
  · cases h
    exact .inr ⟨fun he => Lcr.noConfusion he, rfl, rfl⟩
  split at h
  · cases h
    exact .inr ⟨fun he => Lcr.noConfusion he, rfl, rfl⟩
  rename_i _ _ hw _
  rw [startConsumer] at h
  split at h
  · rw [map_some] at h
    cases hstart : env.starts with
    | true =>
      rw [hstart] at h
      cases h
      exact .inl ⟨rfl, not_not.mp hw, rfl, rfl⟩
    | false =>
      rw [hstart] at h
      cases h
      exact .inr ⟨fun he => Lcr.noConfusion he, rfl, rfl⟩
  · cases h

end LogPipe

def ClientHandler.Executes (c : ClientHandler) (i : Nat) : Prop :=
  c.state = .executing ∧ c.transType ≠ .unknown ∧ c.cp = some i

namespace Controller

/-- Clients and CPs refer to each other for exactly the requests that have not been answered. -/
structure Answering (s : Controller) : Prop where
  paired : ∀ (i : Nat) p, s.cps[i]? = some p → p.pipe.Paired
  saving : ∀ (i : Nat) p c, s.cps[i]? = some p → p.pipe.transClient = some c → p.pipe.Saving
  link : ∀ (i : Nat) p c, s.cps[i]? = some p → p.pipe.transClient = some c →
    ∃ cl, s.client c = some cl ∧ cl.Executes i ∧ s.accepted[p.serial]? = some (c, i) ∧
      p.serial ∉ s.answered
  unanswered : ∀ (n : Nat) c i, s.accepted[n]? = some (c, i) → s.client c ≠ none →
    n ∉ s.answered → ∃ p, s.cps[i]? = some p ∧ p.pipe.transClient = some c ∧ p.serial = n
  known : ∀ (n : Nat) c i, s.accepted[n]? = some (c, i) → c < s.clients.length
  lt : ∀ n ∈ s.answered, n < s.accepted.length
  nodup : s.answered.Nodup

section

variable {s : Controller} {p q : CpEntry} {pipe : LogPipe} {i j : Nat}

theorem cps_setPipe (hp : s.cps[i]? = some p) :
    (s.setPipe i pipe).cps[j]? = some q ↔
      j = i ∧ q = ⟨pipe, p.serial⟩ ∨ j ≠ i ∧ s.cps[j]? = some q := by
  rw [setPipe]
  by_cases hj : j = i
  · subst hj
    rw [getElem?_modify_eq, hp]
    simp [eq_comm]
  · rw [getElem?_modify]
    simp [hj, Ne.symm hj]

theorem cps_onPipe (s : Controller) (i j : Nat) (f : LogPipe → LogPipe) :
    (s.onPipe i f).cps[j]? =
      if j = i then (s.cps[j]?).map fun p => { p with pipe := f p.pipe } else s.cps[j]? := by
  rw [onPipe]
  split
  · subst j
    cases hp : s.cps[i]? with
    | none => exact hp
    | some p => exact (cps_setPipe hp).mpr (.inl ⟨rfl, rfl⟩)
  rename_i hj
  cases hp : s.cps[i]? with
  | none => rfl
  | some p =>
    show (s.cps.modify i _)[j]? = _
    simp [Ne.symm hj]

theorem Answering.transClient_none (h : Answering s) (hp : s.cps[i]? = some p)
    (hs : p.pipe.inTransaction = false) : p.pipe.transClient = none := by
  cases ht : p.pipe.transClient with
  | none => rfl
  | some c =>
    rw [(h.saving i p c hp ht).inTransaction] at hs
    cases hs

theorem Answering.setPipe (h : Answering s) (hp : s.cps[i]? = some p) (hpaired : pipe.Paired)
    (hsame : pipe.transClient = p.pipe.transClient)
    (hsaving : ∀ c, pipe.transClient = some c → pipe.Saving) : (s.setPipe i pipe).Answering where
  paired := by
    intro j q hq
    rcases (cps_setPipe hp).mp hq with ⟨-, rfl⟩ | ⟨-, hq⟩
    · exact hpaired
    · exact h.paired j q hq
  saving := by
    intro j q c hq hc
    rcases (cps_setPipe hp).mp hq with ⟨-, rfl⟩ | ⟨-, hq⟩
    · exact hsaving c hc
    · exact h.saving j q c hq hc
  link := by
    intro j q c hq hc
    rcases (cps_setPipe hp).mp hq with ⟨rfl, rfl⟩ | ⟨-, hq⟩
    · exact h.link j p c hp (hsame.symm.trans hc)
    · exact h.link j q c hq hc
  unanswered := by
    intro n c j hn hc hans
    obtain ⟨q, hq, hqc, hqn⟩ := h.unanswered n c j hn hc hans
    by_cases hj : j = i
    · subst hj
      cases hp.symm.trans hq
      exact ⟨⟨pipe, p.serial⟩, (cps_setPipe hp).mpr (.inl ⟨rfl, rfl⟩), hsame.trans hqc, hqn⟩
    · exact ⟨q, (cps_setPipe hp).mpr (.inr ⟨hj, hq⟩), hqc, hqn⟩
  known := h.known
  lt := h.lt
  nodup := h.nodup

theorem Answering.onPipe (h : Answering s) (f : LogPipe → LogPipe)
    (hf : ∀ p, s.cps[i]? = some p → (f p.pipe).Paired ∧
      (f p.pipe).transClient = p.pipe.transClient ∧
      ∀ c, (f p.pipe).transClient = some c → (f p.pipe).Saving) : (s.onPipe i f).Answering := by
  rw [Controller.onPipe]
  cases hp : s.cps[i]? with
  | none => exact h
  | some p =>
    obtain ⟨hpaired, hsame, hsaving⟩ := hf p hp
    exact h.setPipe hp hpaired hsame hsaving

end

theorem client_lt (h : client s c = some cl) : c < s.clients.length := by
  by_contra hge
  rw [client, getElem?_eq_none (by omega)] at h
  cases h

theorem client_set_self {s v : Controller} (hv : v.clients = s.clients.set c x)
    (hc : c < s.clients.length) : v.client c = x := by
  rw [client, hv, getElem?_set_self hc]
  rfl

theorem client_set_ne {s v : Controller} (hv : v.clients = s.clients.set c x) (hd : d ≠ c) :
    v.client d = s.client d := by
  rw [client, hv, getElem?_set_ne (Ne.symm hd), client]

theorem executes_inj (h : ClientHandler.Executes cl i) (h' : cl.Executes j) : i = j :=
  Option.some.inj (h.2.2.symm.trans h'.2.2)

theorem notifyTransResult_executes (h : ClientHandler.Executes cl i) :
    cl.notifyTransResult.1 = true := by
  rw [ClientHandler.notifyTransResult, if_pos ⟨h.1, h.2.1⟩]

theorem Answering.answer (h : Answering s) (hp : s.cps[i]? = some p)
    (hc : p.pipe.transClient = some c) (hcl : s.client c = some cl) (hpaired : pipe.Paired)
    (hnone : pipe.transClient = none) :
    Answering { s.setPipe i pipe with
      clients := s.clients.set c (some cl.notifyTransResult.2)
      answered := s.answered ++ [p.serial] } := by
  obtain ⟨cl', hcl', hex, hacc, hnew⟩ := h.link i p c hp hc
  cases hcl.symm.trans hcl'
  have hlt := client_lt hcl
  refine ⟨?_, ?_, ?_, ?_, ?_, ?_, ?_⟩
  · intro j q hq
    rcases (cps_setPipe hp).mp hq with ⟨-, rfl⟩ | ⟨-, hq⟩
    · exact hpaired
    · exact h.paired j q hq
  · intro j q d hq hd
    rcases (cps_setPipe hp).mp hq with ⟨-, rfl⟩ | ⟨-, hq⟩
    · cases hnone.symm.trans hd
    · exact h.saving j q d hq hd
  · intro j q d hq hd
    rcases (cps_setPipe hp).mp hq with ⟨-, rfl⟩ | ⟨hj, hq⟩
    · cases hnone.symm.trans hd
    obtain ⟨cl₁, hcl₁, hex₁, hacc₁, hnew₁⟩ := h.link j q d hq hd
    have hdc : d ≠ c := by
      intro he
      subst he
      cases hcl.symm.trans hcl₁
      exact hj (executes_inj hex₁ hex)
    refine ⟨cl₁, (client_set_ne rfl hdc).trans hcl₁, hex₁, hacc₁, ?_⟩
    intro hmem
    rcases mem_append.mp hmem with hmem | hmem
    · exact hnew₁ hmem
    · rw [mem_singleton.mp hmem, hacc] at hacc₁
      cases hacc₁
      exact hj rfl
  · intro n d j hn hd hans
    have hold : n ∉ s.answered := fun hmem => hans (mem_append_left _ hmem)
    have hd' : s.client d ≠ none := by
      by_cases hdc : d = c
      · subst hdc
        rw [hcl]
        exact some_ne_none _
      · exact fun he => hd ((client_set_ne rfl hdc).trans he)
    obtain ⟨q, hq, hqd, hqn⟩ := h.unanswered n d j hn hd' hold
    refine ⟨q, (cps_setPipe hp).mpr (.inr ⟨?_, hq⟩), hqd, hqn⟩
    intro hj
    subst hj
    cases hp.symm.trans hq
    exact hans (mem_append_right _ (mem_singleton.mpr hqn.symm))
  · intro n d j hn
    rw [length_set]
    exact h.known n d j hn
  · intro n hn
    rcases mem_append.mp hn with hn | hn
    · exact h.lt n hn
    · rw [mem_singleton.mp hn]
      exact (List.getElem?_eq_some_iff.mp hacc).1
  rw [nodup_append]
  refine ⟨h.nodup, nodup_singleton _, ?_⟩
  intro a ha b hb he
  rw [mem_singleton] at hb
  exact hnew (hb ▸ he ▸ ha)

theorem Answering.accept (h : Answering s) (hp : s.cps[i]? = some p)
    (hfree : p.pipe.transClient = none) (hcl : s.client c = some cl) (hidle : cl.state = .idle)
    (htype : type ≠ .unknown) (hpaired : pipe.Paired) (hc : pipe.transClient = some c)
    (hsaving : pipe.Saving) : (s.accept type c i pipe).Answering := by
  have hlt := client_lt hcl
  have hi : i < s.cps.length := (List.getElem?_eq_some_iff.mp hp).1
  have hcps : ∀ {j q}, (s.accept type c i pipe).cps[j]? = some q ↔
      j = i ∧ q = ⟨pipe, s.accepted.length⟩ ∨ j ≠ i ∧ s.cps[j]? = some q := by
    intro j q
    rw [Controller.accept]
    by_cases hj : j = i
    · subst hj
      rw [getElem?_set_self hi]
      simp [eq_comm]
    · rw [getElem?_set_ne (Ne.symm hj)]
      simp [hj]
  have hacc : (s.accept type c i pipe).accepted[s.accepted.length]? = some (c, i) :=
    getElem?_concat_length
  refine ⟨?_, ?_, ?_, ?_, ?_, ?_, h.nodup⟩
  · intro j q hq
    rcases hcps.mp hq with ⟨-, rfl⟩ | ⟨-, hq⟩
    · exact hpaired
    · exact h.paired j q hq
  · intro j q d hq hd
    rcases hcps.mp hq with ⟨-, rfl⟩ | ⟨-, hq⟩
    · exact hsaving
    · exact h.saving j q d hq hd
  · intro j q d hq hd
    rcases hcps.mp hq with ⟨rfl, rfl⟩ | ⟨hj, hq⟩
    · cases hc.symm.trans hd
      refine ⟨_, client_set_self rfl hlt, ⟨rfl, htype, rfl⟩, hacc, ?_⟩
      exact fun hmem => lt_irrefl _ (h.lt _ hmem)
    obtain ⟨cl₁, hcl₁, hex₁, hacc₁, hnew₁⟩ := h.link j q d hq hd
    have hdc : d ≠ c := by
      intro he
      subst he
      cases hcl.symm.trans hcl₁
      cases hidle.symm.trans hex₁.1
    refine ⟨cl₁, (client_set_ne rfl hdc).trans hcl₁, hex₁, ?_, hnew₁⟩
    show (s.accepted ++ [(c, i)])[q.serial]? = _
    rw [List.getElem?_append_left (List.getElem?_eq_some_iff.mp hacc₁).1]
    exact hacc₁
  · intro n d j hn hd hans
    rcases getElem?_concat_cases hn with ⟨-, hn⟩ | ⟨rfl, he⟩
    · have hd' : s.client d ≠ none := by
        by_cases hdc : d = c
        · subst hdc
          rw [hcl]
          exact some_ne_none _
        · exact fun he => hd ((client_set_ne rfl hdc).trans he)
      obtain ⟨q, hq, hqd, hqn⟩ := h.unanswered n d j hn hd' hans
      refine ⟨q, hcps.mpr (.inr ⟨?_, hq⟩), hqd, hqn⟩
      intro hj
      subst hj
      cases hp.symm.trans hq
      cases hfree.symm.trans hqd
    · cases he
      exact ⟨⟨pipe, s.accepted.length⟩, hcps.mpr (.inl ⟨rfl, rfl⟩), hc, rfl⟩
  · intro n d j hn
    show d < (s.clients.set c _).length
    rw [length_set]
    rcases getElem?_concat_cases hn with ⟨-, hn⟩ | ⟨-, he⟩
    · exact h.known n d j hn
    · cases he
      exact hlt
  · intro n hn
    show n < (s.accepted ++ [(c, i)]).length
    rw [length_append]
    exact Nat.lt_add_right _ (h.lt n hn)

def CpEntry.cancel (c : Nat) (p : CpEntry) : CpEntry :=
  { p with pipe := p.pipe.cancelTransResultNotify c }

theorem cancel_of_ne (h : p.pipe.transClient ≠ some c) : CpEntry.cancel c p = p := by
  rw [CpEntry.cancel, LogPipe.cancelTransResultNotify, if_neg h]

theorem cancel_transClient (h : (CpEntry.cancel c p).pipe.transClient = some d) :
    p.pipe.transClient = some d ∧ d ≠ c := by
  rw [CpEntry.cancel, LogPipe.cancelTransResultNotify] at h
  split at h
  · cases h
  refine ⟨h, ?_⟩
  intro he
  subst he
  contradiction

theorem Answering.cps_closed (h : Answering s) (hcl : s.client c = some cl) :
    (s.processConnClosed c).cps = s.cps.map (CpEntry.cancel c) := by
  have hother : ∀ (j : Nat) q, s.cps[j]? = some q → ¬ cl.Executes j → CpEntry.cancel c q = q := by
    intro j q hq hno
    apply cancel_of_ne
    intro hc
    obtain ⟨cl', hcl', hex, -⟩ := h.link j q c hq hc
    cases hcl.symm.trans hcl'
    exact hno hex
  have hkeep : ∀ j : Nat, ¬ cl.Executes j → s.cps[j]? = (s.cps[j]?).map (CpEntry.cancel c) := by
    intro j hno
    cases hq : s.cps[j]? with
    | none => rfl
    | some q => rw [map_some, hother j q hq hno]
  apply ext_getElem?
  intro j
  rw [processConnClosed, hcl, getElem?_map]
  dsimp only [Option.elim]
  split
  · cases hcp : cl.cp with
    | none =>
      apply hkeep j
      intro hex
      cases hcp.symm.trans hex.2.2
    | some i =>
      rw [cps_onPipe]
      split
      · rfl
      apply hkeep j
      intro hex
      cases hcp.symm.trans hex.2.2
      contradiction
  · rename_i hidle
    exact hkeep j fun hex => hidle (by rw [hex.1]; decide)

theorem Answering.disconnect (h : Answering s) (c : Nat) : (s.processConnClosed c).Answering := by
  cases hcl : s.client c with
  | none =>
    rw [processConnClosed, hcl]
    exact h
  | some cl =>
    have hcps := h.cps_closed hcl
    have hlt := client_lt hcl
    have hclients : (s.processConnClosed c).clients = s.clients.set c none := by
      rw [processConnClosed, hcl]
      rfl
    have hrest : (s.processConnClosed c).accepted = s.accepted ∧
        (s.processConnClosed c).answered = s.answered := by
      rw [processConnClosed, hcl]
      dsimp only [Option.elim]
      split
      · cases cl.cp with
        | none => exact ⟨rfl, rfl⟩
        | some i =>
          dsimp only [Controller.onPipe]
          cases s.cps[i]? <;> exact ⟨rfl, rfl⟩
      · exact ⟨rfl, rfl⟩
    have hget : ∀ {j : Nat} {q}, (s.processConnClosed c).cps[j]? = some q →
        ∃ p, s.cps[j]? = some p ∧ q = CpEntry.cancel c p := by
      intro j q hq
      rw [hcps, getElem?_map, map_eq_some_iff] at hq
      obtain ⟨p, hp, rfl⟩ := hq
      exact ⟨p, hp, rfl⟩
    refine ⟨?_, ?_, ?_, ?_, ?_, ?_, ?_⟩
    · intro j q hq
      obtain ⟨p, hp, rfl⟩ := hget hq
      exact (h.paired j p hp).cancel c
    · intro j q d hq hd
      obtain ⟨p, hp, rfl⟩ := hget hq
      obtain ⟨hd, hdc⟩ := cancel_transClient hd
      rw [cancel_of_ne (fun he => hdc (Option.some.inj (hd.symm.trans he)))]
      exact h.saving j p d hp hd
    · intro j q d hq hd
      obtain ⟨p, hp, rfl⟩ := hget hq
      obtain ⟨hd, hdc⟩ := cancel_transClient hd
      obtain ⟨cl₁, hcl₁, hex₁, hacc₁, hnew₁⟩ := h.link j p d hp hd
      rw [hrest.1, hrest.2]
      exact ⟨cl₁, (client_set_ne hclients hdc).trans hcl₁, hex₁, hacc₁, hnew₁⟩
    · intro n d j hn hd hans
      rw [hrest.1] at hn
      rw [hrest.2] at hans
      have hdc : d ≠ c := by
        intro he
        subst he
        exact hd (client_set_self hclients hlt)
      rw [client_set_ne hclients hdc] at hd
      obtain ⟨q, hq, hqd, hqn⟩ := h.unanswered n d j hn hd hans
      have hsame := cancel_of_ne (c := c) fun he => hdc (Option.some.inj (hqd.symm.trans he))
      refine ⟨q, ?_, hqd, hqn⟩
      rw [hcps, getElem?_map, hq, map_some, hsame]
    · intro n d j hn
      rw [hrest.1] at hn
      rw [hclients, length_set]
      exact h.known n d j hn
    · rw [hrest.1, hrest.2]
      exact h.lt
    · rw [hrest.2]
      exact h.nodup

theorem Answering.connect (h : Answering s) :
    Answering { s with clients := s.clients ++ [some ClientHandler.create] } := by
  have hsame : ∀ d, d < s.clients.length →
      { s with clients := s.clients ++ [some ClientHandler.create] }.client d = s.client d := by
    intro d hd
    rw [client, client, getElem?_append_left hd]
  refine ⟨h.paired, h.saving, ?_, ?_, ?_, h.lt, h.nodup⟩
  · intro j q d hq hd
    obtain ⟨cl, hcl, hrest⟩ := h.link j q d hq hd
    exact ⟨cl, (hsame d (client_lt hcl)).trans hcl, hrest⟩
  · intro n d j hn hd hans
    rw [hsame d (h.known n d j hn)] at hd
    exact h.unanswered n d j hn hd hans
  intro n d j hn
  rw [length_append]
  exact Nat.lt_add_right _ (h.known n d j hn)

theorem Answering.procSave (h : Answering s) (htype : type ≠ .unknown)
    (hk : k.workState = .saveSleepLog ∨ k.workState = .saveRingbuf)
    (hidle : ∀ cl ∈ s.client c, cl.state = .idle)
    (hs : s.procSave type (LogPipe.save k.workState (LogPipe.startConsumer k)) c i env = some u) :
    u.Answering := by
  rw [Controller.procSave] at hs
  cases hcl : s.client c with
  | none =>
    rw [hcl] at hs
    cases hs
    exact h
  | some cl =>
    cases hp : s.cps[i]? with
    | none =>
      rw [hcl, hp] at hs
      cases hs
      exact h
    | some p =>
      rw [hcl, hp] at hs
      obtain ⟨r, hr, rfl⟩ := map_eq_some_iff.mp hs
      obtain ⟨r', hr', hpaired⟩ := (h.paired i p hp).save k c env
      cases hr.symm.trans hr'
      rcases LogPipe.save_cases hr with ⟨hin, hwork, hc, hstate⟩ | ⟨hno, hc, hstate⟩
      · have hfree := h.transClient_none hp (by rw [LogPipe.inTransaction, hwork])
        rw [if_pos hin]
        have hsaving : r.2.Saving := by rwa [LogPipe.Saving, hstate]
        exact h.accept hp hfree hcl (hidle cl hcl) htype hpaired hc hsaving
      rw [if_neg hno]
      apply h.setPipe hp hpaired hc
      intro d hd
      rw [LogPipe.Saving, hstate]
      exact h.saving i p d hp (hc.symm.trans hd)

theorem Answering.notify (h : Answering s) (hp : s.cps[i]? = some p) (hk : p.pipe.consumer = some k)
    (hs : s.consumerNotify i k res = some u) : u.Answering := by
  have hpaired := h.paired i p hp
  have hkind : p.pipe.cpState.kind = some k := hpaired.consumer.symm.trans hk
  have hafter := hpaired.notify k res
  rw [consumerNotify, hp] at hs
  dsimp only [Option.elim] at hs
  rcases LogPipe.saving_or_dump hkind with hsaving | hdump
  · rw [LogPipe.notify_saving hsaving hkind res] at hs hafter
    cases hc : p.pipe.transClient with
    | none =>
      rw [hc] at hs
      cases hs
      apply h.setPipe hp hafter hc.symm
      intro d hd
      cases hd
    | some c =>
      rw [hc] at hs
      obtain ⟨cl, hcl, rfl⟩ := map_eq_some_iff.mp hs
      obtain ⟨cl', hcl', hex, -⟩ := h.link i p c hp hc
      cases hcl.symm.trans hcl'
      rw [notifyTransResult_executes hex]
      exact h.answer hp hc hcl hafter rfl
  · have hfree : p.pipe.transClient = none := by
      cases hc : p.pipe.transClient with
      | none => rfl
      | some c =>
        rcases h.saving i p c hp hc with hs | hs <;> cases hdump.symm.trans hs
    rw [LogPipe.notify_dump hdump hkind res] at hs hafter
    cases hs
    apply h.setPipe hp hafter rfl
    intro d hd
    cases hfree.symm.trans hd

theorem Answering.step (h : Answering s) (hok : s.EventOk e)
    (hs : s.step e = some u) : u.Answering := by
  cases e with
  | connect =>
    cases hs
    exact h.connect
  | disconnect c =>
    cases hs
    exact h.disconnect c
  | sleepLog c i env => exact h.procSave (k := .sleepLog) (by decide) (.inl rfl) hok hs
  | ringbuf c i env => exact h.procSave (k := .ringbuf) (by decide) (.inr rfl) hok hs
  | enableLog i =>
    cases hs
    apply h.onPipe
    intro p hp
    have hpaired := h.paired i p hp
    exact ⟨⟨hpaired.consumer, hpaired.diagHandler, hpaired.lost⟩, rfl,
      fun c hc => h.saving i p c hp hc⟩
  | disableLog i =>
    cases hs
    apply h.onPipe
    intro p hp
    have hfree := h.transClient_none hp (hok p hp)
    refine ⟨(h.paired i p hp).stop (hok p hp), rfl, ?_⟩
    intro c hc
    cases hfree.symm.trans hc
  | cpAlive i =>
    cases hs
    apply h.onPipe
    intro p hp
    have hfree := h.transClient_none hp (hok p hp)
    refine ⟨(h.paired i p hp).settle (hok p hp) rfl, rfl, ?_⟩
    intro c hc
    cases hfree.symm.trans hc
  | cpAssert i env =>
    cases hs
    apply h.onPipe
    intro p hp
    have hsame := LogPipe.processAssert_transClient p.pipe env
    refine ⟨(h.paired i p hp).processAssert env, hsame, ?_⟩
    intro c hc
    cases ((hsame.trans (hok p hp)).symm.trans hc)
  | notify i res =>
    rw [Controller.step] at hs
    cases hk : (s.cps[i]?).bind fun p => p.pipe.consumer with
    | none =>
      rw [hk] at hs
      cases hs
      exact h
    | some k =>
      rw [hk] at hs
      obtain ⟨p, hp, hk⟩ := bind_eq_some_iff.mp hk
      exact h.notify hp hk hs
  | lostNotify i k res =>
    rw [Controller.step, if_neg] at hs
    · cases hs
      exact h
    cases hp : s.cps[i]? with
    | none => exact not_mem_nil
    | some p =>
      dsimp only [Option.elim]
      rw [(h.paired i p hp).lost]
      exact not_mem_nil

theorem create_answering (enabled : List Bool) : (create enabled).Answering := by
  have hcps : ∀ {i : Nat} {p}, (create enabled).cps[i]? = some p →
      ∃ b, p = ⟨LogPipe.create b, 0⟩ := by
    intro i p hp
    obtain ⟨b, -, rfl⟩ := mem_map.mp (mem_of_getElem? hp)
    exact ⟨b, rfl⟩
  refine ⟨?_, ?_, ?_, ?_, ?_, ?_, nodup_nil⟩
  · intro i p hp
    obtain ⟨b, rfl⟩ := hcps hp
    exact ⟨rfl, rfl, rfl⟩
  · intro i p c hp hc
    obtain ⟨b, rfl⟩ := hcps hp
    cases hc
  · intro i p c hp hc
    obtain ⟨b, rfl⟩ := hcps hp
    cases hc
  · intro n c i hn
    cases hn
  · intro n c i hn
    cases hn
  · intro n hn
    cases hn

theorem Answering.completion_answers (h : Answering s)
    (hn : s.accepted[n]? = some (c, i)) (hc : s.client c ≠ none) (hans : n ∉ s.answered)
    (res : LogProcResult) :
    ∃ u, s.step (.notify i res) = some u ∧ u.answered = s.answered ++ [n] := by
  obtain ⟨p, hp, hpc, rfl⟩ := h.unanswered n c i hn hc hans
  obtain ⟨cl, hcl, hex, -⟩ := h.link i p c hp hpc
  have hsaving := h.saving i p c hp hpc
  obtain ⟨k, hkind⟩ := ne_none_iff_exists'.mp
    ((LogPipe.kind_ne_none_iff p.pipe).mpr hsaving.inTransaction)
  have hk := (h.paired i p hp).consumer.trans hkind
  rw [Controller.step, hp, bind_some, hk]
  dsimp only [Option.elim]
  rw [consumerNotify, hp]
  dsimp only [Option.elim]
  rw [LogPipe.notify_saving hsaving hkind res, hpc]
  dsimp only [Option.map]
  rw [hcl]
  refine ⟨_, rfl, ?_⟩
  rw [notifyTransResult_executes hex]
  rfl

/-- When no event comes at a bad moment, every accepted request of a connected client has been
answered once, or the completion of its saving will answer it; and no CP refers to a client that is
not connected. -/
theorem requests_are_answered (enabled : List Bool)
    (hrun : Run (Guarded EventOk step) (create enabled) es s) :
    (∀ n c i, s.accepted[n]? = some (c, i) → s.client c ≠ none →
      s.answered.count n = 1 ∨ s.answered.count n = 0 ∧
        ∀ res, ∃ u, s.step (.notify i res) = some u ∧ u.answered.count n = 1) ∧
    (∀ n, s.answered.count n ≤ 1) ∧
    ∀ p ∈ s.cps, ∀ c, p.pipe.transClient = some c → s.client c ≠ none := by
  have h : s.Answering := by
    apply hrun.invariant (I := fun _ s => s.Answering)
    · exact create_answering enabled
    · intro _ a t u ht hs
      exact ht.step hs.2 hs.1
  refine ⟨?_, nodup_iff_count_le_one.mp h.nodup, ?_⟩
  · intro n c i hn hc
    by_cases hans : n ∈ s.answered
    · exact .inl (count_eq_one_of_mem h.nodup hans)
    refine .inr ⟨count_eq_zero_of_not_mem hans, ?_⟩
    intro res
    obtain ⟨u, hu, hlog⟩ := h.completion_answers hn hc hans res
    refine ⟨u, hu, ?_⟩
    rw [hlog, count_append, count_eq_zero_of_not_mem hans, count_singleton_self]
  · intro p hp c hc
    obtain ⟨i, hi⟩ := getElem?_of_mem hp
    obtain ⟨cl, hcl, -⟩ := h.link i p c hi hc
    rw [hcl]
    exact some_ne_none _

def savedEvents : List CtrlEvent :=
  [.connect, .sleepLog 0 0 ⟨true, true⟩, .notify 0 .success, .ringbuf 0 1 ⟨true, true⟩]

theorem requests_are_answered_one_by_one :
    ∃ s, Run (Guarded EventOk step) (create [true, true]) savedEvents s ∧
      s.accepted = [(0, 0), (0, 1)] ∧ s.answered.count 0 ≤ 1 ∧
      ∀ p ∈ s.cps, ∀ c, p.pipe.transClient = some c → s.client c ≠ none := by
  refine exists_guarded_imp (P := fun s => s.accepted = [(0, 0), (0, 1)]) ?_ (by decide)
  intro s hrun hs
  have h := requests_are_answered [true, true] hrun
  exact ⟨hs, h.2.1 0, h.2.2⟩

def twoRequests : List CtrlEvent :=
  [.connect, .sleepLog 0 0 ⟨true, true⟩, .sleepLog 0 1 ⟨true, true⟩, .notify 0 .success,
    .disconnect 0]

def assertedSaving : List CtrlEvent :=
  [.connect, .sleepLog 0 0 ⟨true, true⟩, .cpAssert 0 ⟨true, false, true, true, true⟩]

theorem request_without_answer :
    ((exec step (create [true, true]) twoRequests).any fun s =>
      s.cps[1]?.any (fun p => p.pipe.transClient = some 0) && s.client 0 = none) = true ∧
    exec step (create [true, true]) (twoRequests ++ [.notify 1 .success]) = none ∧
    ((exec step (create [true]) assertedSaving).any fun s =>
      s.accepted = [(0, 0)] ∧ s.client 0 ≠ none ∧ s.answered = [] ∧
        s.step (.notify 0 .success) = some s) = true := by
  decide

end Controller

end SprdVendor.SlogModem
