import SprdVendor.LibCamera.Fifo

namespace SprdVendor.LibCamera
open Lib List Option

def Pc.inside : Pc → Option (CmrMsg × Nat × Nat)
  | .posted m n cur | .signalled m n cur | .waiting m n cur => some (m, n, cur)
  | _ => none

def Pc.slot (pc : Pc) : Option Nat := pc.inside.map fun p => p.2.2

def Pc.untold : Pc → Option Nat
  | .got _ n _ _ => some n
  | _ => none

def Pc.unreported : Pc → Option Nat
  | .handled n _ _ => some n
  | _ => none

/-- Thread 0 runs `cmr_common_routine`, the other threads post. -/
def MsgAct.OneConsumer : MsgAct → Prop
  | .post t _ => t ≠ 0
  | .getWait t g => t = 0 ∧ g = .routine
  | .getTimeout _ => False
  | _ => True

instance : DecidablePred MsgAct.OneConsumer := fun a =>
  match a with
  | .post t _ => inferInstanceAs (Decidable (t ≠ 0))
  | .getWait t g => inferInstanceAs (Decidable (t = 0 ∧ g = .routine))
  | .getTimeout _ => inferInstanceAs (Decidable False)
  | .postLock _ | .postSem _ | .postSync _ | .postWake _ | .getLock _ | .getSync _
  | .callback _ _ | .procSync _ => inferInstanceAs (Decidable True)

namespace MsgCxt

/-- The slot that the next message goes into is not one that an earlier poster still looks at. -/
def FreshSlot (s : MsgCxt) : MsgAct → Prop
  | .postLock _ => ∀ pc ∈ s.threads, pc.slot ≠ some s.write
  | _ => True

instance (s : MsgCxt) : DecidablePred s.FreshSlot := fun a =>
  match a with
  | .postLock _ => inferInstanceAs (Decidable (∀ pc ∈ s.threads, pc.slot ≠ some s.write))
  | .post _ _ | .postSem _ | .postSync _ | .postWake _ | .getWait _ _ | .getTimeout _ | .getLock _
  | .getSync _ | .callback _ _ | .procSync _ => inferInstanceAs (Decidable True)

/-- The steps of one routine and any posters in which no slot is reused too early. -/
def SyncOk (s : MsgCxt) (a : MsgAct) : Prop := a.OneConsumer ∧ s.FreshSlot a

instance (s : MsgCxt) (a : MsgAct) : Decidable (s.SyncOk a) :=
  inferInstanceAs (Decidable (_ ∧ _))

def Inside (s : MsgCxt) (t : Nat) (m : CmrMsg) (n cur : Nat) : Prop :=
  (s.threads[t]?).bind Pc.inside = some (m, n, cur)

def ConsumerOk (s : MsgCxt) : Pc → Prop
  | .idle _ | .exited => s.processed = s.receivedLog.length
  | .getting g => g = .routine ∧ s.processed = s.receivedLog.length
  | .got g n cur _ =>
    g = .routine ∧ n + 1 = s.receivedLog.length ∧ cur = n % s.count ∧ s.processed = n
  | .handling n cur _ => n + 1 = s.receivedLog.length ∧ cur = n % s.count ∧ s.processed = n
  | .handled n cur _ => n + 1 = s.receivedLog.length ∧ cur = n % s.count ∧ s.processed = n + 1
  | _ => False

/-- A poster inside `cmr_msg_post` holds a message whose slot no later message has taken. -/
def Holds (s : MsgCxt) (m : CmrMsg) (n cur : Nat) : Prop :=
  s.postedLog[n]? = some m ∧ cur = n % s.count ∧ s.postedLog.length ≤ n + s.count

def PosterOk (s : MsgCxt) : Pc → Prop
  | .idle _ | .posting _ _ => True
  | .posted m n cur | .signalled m n cur => s.Holds m n cur
  | .waiting m n cur => s.Holds m n cur ∧ m.syncFlag ≠ .none
  | _ => False

/-- The routine at `c` is past the point at which it releases the poster of message `n`. -/
def Passed (s : MsgCxt) (c : Pc) (m : CmrMsg) (n : Nat) : Prop :=
  match m.syncFlag with
  | .none => False
  | .received => n < s.receivedLog.length ∧ c.untold ≠ some n
  | .processed => n < s.processed ∧ c.unreported ≠ some n

structure Ordered (s : MsgCxt) (c : Pc) : Prop where
  fifo : s.Fifo
  tokens : s.Tokens
  thread : s.threads[0]? = some c
  consumer : s.ConsumerOk c
  posters : ∀ t pc, t ≠ 0 → s.threads[t]? = some pc → s.PosterOk pc
  distinct : ∀ t t' m m' n cur cur', s.Inside t m n cur → s.Inside t' m' n cur' → t = t'
  flags : ∀ n m, s.postedLog[n]? = some m → s.postedLog.length ≤ n + s.count →
    s.syncF (n % s.count) = m.syncFlag
  released_iff : ∀ n m, s.postedLog[n]? = some m → (n ∈ s.released ↔ s.Passed c m n)
  released_lt : ∀ n ∈ s.released, n < s.postedLog.length
  nodup : s.released.Nodup

/-- The semaphore of a slot is up exactly for a poster that has been released and has not left. -/
structure Synced (s : MsgCxt) (c : Pc) : Prop extends Ordered s c where
  sems : ∀ t m n cur, s.Inside t m n cur → s.sem cur = if n ∈ s.released then 1 else 0
  free : ∀ i, i < s.count → (∀ t m n, ¬ s.Inside t m n i) → s.sem i = 0
  held : ∀ n m, s.postedLog[n]? = some m → m.syncFlag ≠ .none → n ∉ s.released →
    ∃ t cur, s.Inside t m n cur

theorem inside_of_get (h : s.threads[t]? = some pc) :
    Inside s t m n cur ↔ pc.inside = some (m, n, cur) := by
  rw [Inside, h, bind_some]

section setPc

variable {s v : MsgCxt} {t i : Nat} {pc pc' : Pc}

theorem threads_setPc_self (hv : v.threads = s.threads) (h : s.threads[t]? = some pc) :
    (v.setPc t pc').threads[t]? = some pc' := by
  rw [setPc, hv]
  exact List.getElem?_set_self (List.getElem?_eq_some_iff.mp h).1

theorem threads_setPc_ne (hv : v.threads = s.threads) (hne : i ≠ t) :
    (v.setPc t pc').threads[i]? = s.threads[i]? := by
  rw [setPc, hv]
  exact getElem?_set_ne (Ne.symm hne)

theorem inside_setPc_self (hv : v.threads = s.threads) (h : s.threads[t]? = some pc) :
    (v.setPc t pc').Inside t m n cur ↔ pc'.inside = some (m, n, cur) :=
  inside_of_get (threads_setPc_self hv h)

theorem inside_setPc_ne (hv : v.threads = s.threads) (hne : i ≠ t) :
    (v.setPc t pc').Inside i m n cur ↔ s.Inside i m n cur := by
  rw [Inside, Inside, threads_setPc_ne hv hne]

theorem inside_setPc (hv : v.threads = s.threads) (h : s.threads[t]? = some pc)
    (hin : pc'.inside = pc.inside) :
    (v.setPc t pc').Inside i m n cur ↔ s.Inside i m n cur := by
  by_cases hi : i = t
  · subst hi
    rw [inside_setPc_self hv h, hin, inside_of_get h]
  · exact inside_setPc_ne hv hi

theorem inside_setPc_out (hv : v.threads = s.threads) (h : s.threads[t]? = some pc)
    (hin : pc'.inside = none) :
    (v.setPc t pc').Inside i m n cur ↔ i ≠ t ∧ s.Inside i m n cur := by
  by_cases hi : i = t
  · subst hi
    rw [inside_setPc_self hv h, hin]
    simp
  · rw [inside_setPc_ne hv hi]
    simp [hi]

end setPc

theorem PosterOk.holds (h : PosterOk s pc) (hin : pc.inside = some (m, n, cur)) :
    s.Holds m n cur := by
  cases pc <;> simp only [Pc.inside, reduceCtorEq, Option.some.injEq, Prod.mk.injEq] at hin
  all_goals
    obtain ⟨rfl, rfl, rfl⟩ := hin
    first | exact h | exact h.1

theorem ConsumerOk.inside (h : ConsumerOk s c) : c.inside = none := by
  cases c <;> first | rfl | exact h.elim

theorem ConsumerOk.processed_le (h : ConsumerOk s c) : s.processed ≤ s.receivedLog.length := by
  cases c <;> simp only [ConsumerOk] at h <;> omega

namespace Ordered

theorem thread_ne_zero (h : Ordered s c) (hin : s.Inside t m n cur) : t ≠ 0 := by
  intro ht
  subst ht
  rw [inside_of_get h.thread, h.consumer.inside] at hin
  cases hin

theorem holds (h : Ordered s c) (hin : s.Inside t m n cur) : s.Holds m n cur := by
  have ht := h.thread_ne_zero hin
  obtain ⟨pc, hpc, hi⟩ := bind_eq_some_iff.mp hin
  exact (h.posters t pc ht hpc).holds hi

theorem slot_ne (h : Ordered s c) (hin : s.Inside t m n cur) (hin' : s.Inside t' m' n' cur')
    (hne : n ≠ n') : cur ≠ cur' := by
  obtain ⟨hn, hcur, hwin⟩ := h.holds hin
  obtain ⟨hn', hcur', hwin'⟩ := h.holds hin'
  have hlt := (List.getElem?_eq_some_iff.mp hn).1
  have hlt' := (List.getElem?_eq_some_iff.mp hn').1
  rw [hcur, hcur']
  rcases Nat.lt_or_gt_of_ne hne with hlt'' | hlt''
  · exact mod_ne_mod hlt'' (by omega)
  · exact Ne.symm (mod_ne_mod hlt'' (by omega))

theorem syncF_eq (h : Ordered s c) (hin : s.Inside t m n cur) : s.syncF cur = m.syncFlag := by
  obtain ⟨hn, hcur, hwin⟩ := h.holds hin
  rw [hcur]
  exact h.flags n m hn hwin

theorem latest (h : Ordered s c) (hn : n + 1 = s.receivedLog.length) :
    ∃ m, s.postedLog[n]? = some m ∧ s.syncF (n % s.count) = m.syncFlag := by
  have hle := h.fifo.ring.le
  have hroom := h.fifo.ring.room
  have hget : s.postedLog[n]? = some _ := getElem?_eq_getElem (by omega)
  exact ⟨_, hget, h.flags n _ hget (by omega)⟩

end Ordered

structure Agrees (v s : MsgCxt) : Prop where
  threads : v.threads = s.threads
  posted : v.postedLog = s.postedLog
  count : v.count = s.count
  syncF : ∀ i, v.syncF i = s.syncF i

theorem Agrees.flags (ag : Agrees v s)
    (h : ∀ n m, s.postedLog[n]? = some m → s.postedLog.length ≤ n + s.count →
      s.syncF (n % s.count) = m.syncFlag) :
    ∀ n m, v.postedLog[n]? = some m → v.postedLog.length ≤ n + v.count →
      v.syncF (n % v.count) = m.syncFlag := by
  intro n m hm hwin
  rw [ag.posted] at hm hwin
  rw [ag.count] at hwin ⊢
  rw [ag.syncF]
  exact h n m hm hwin

theorem map_modify {k i : Nat} (g : CmrMsgIn → β)
    (hg : ∀ c, g (f c) = g c) (slots : List CmrMsgIn) :
    ((slots.modify k f)[i]?).map g = (slots[i]?).map g := by
  rw [getElem?_modify]
  split <;> cases slots[i]? <;> simp [hg]

theorem agrees_msgSem (s : MsgCxt) (k : Nat) : Agrees { s with msgSem := k } s :=
  ⟨rfl, rfl, rfl, fun _ => rfl⟩

theorem agrees_modify {s v : MsgCxt} (hv : v.slots = s.slots.modify k f)
    (hf : ∀ c, (f c).syncF = c.syncF) (ht : v.threads = s.threads)
    (hp : v.postedLog = s.postedLog) : Agrees v s where
  threads := ht
  posted := hp
  count := by rw [count, hv, length_modify, count]
  syncF := by
    intro i
    rw [MsgCxt.syncF, hv, map_modify CmrMsgIn.syncF hf, MsgCxt.syncF]

theorem sem_modify_ne {s v : MsgCxt} (hv : v.slots = s.slots.modify k f) (hi : i ≠ k) :
    v.sem i = s.sem i := by
  rw [sem, hv, getElem?_modify]
  simp [sem, Ne.symm hi]

theorem sem_modify_self {s v : MsgCxt} {g : Nat → Nat}
    (hv : v.slots = s.slots.modify k fun c => { c with sem := g c.sem }) (hk : k < s.count) :
    v.sem k = g (s.sem k) := by
  rw [sem, hv, getElem?_modify_eq, sem, getElem?_eq_getElem hk]
  rfl

theorem ConsumerOk.congr (h : ConsumerOk s c) (hp : v.processed = s.processed)
    (hr : v.receivedLog = s.receivedLog) (hc : v.count = s.count) : ConsumerOk v c := by
  cases c <;> simp only [ConsumerOk, hp, hr, hc] at h ⊢ <;> exact h

theorem PosterOk.congr (h : PosterOk s pc) (hp : v.postedLog = s.postedLog)
    (hc : v.count = s.count) : PosterOk v pc := by
  cases pc <;> simp only [PosterOk, Holds, hp, hc] at h ⊢ <;> exact h

theorem Passed.congr (hp : v.processed = s.processed) (hr : v.receivedLog = s.receivedLog) :
    Passed v c m n ↔ Passed s c m n := by
  rw [Passed, Passed, hp, hr]

theorem not_passed (h : Ordered s c) (hn : s.postedLog.length ≤ n) : ¬ Passed s c m n := by
  have hr := h.fifo.ring.le
  have hp := h.consumer.processed_le
  rw [Passed]
  split
  · exact id
  · intro hpass
    omega
  · intro hpass
    omega

section posters

variable {s v : MsgCxt} {c pc pc' : Pc} {t : Nat}

theorem Ordered.poster (h : Ordered s c) (ht : t ≠ 0) (hpc : s.threads[t]? = some pc)
    (ag : Agrees v s)
    (hq : (v.processed, v.receivedLog, v.released) = (s.processed, s.receivedLog, s.released))
    (hok : s.PosterOk pc')
    (hins : ∀ i m n cur, (v.setPc t pc').Inside i m n cur → s.Inside i m n cur)
    (hf : (v.setPc t pc').Fifo) (htok : (v.setPc t pc').Tokens) : Ordered (v.setPc t pc') c := by
  simp only [Prod.mk.injEq] at hq
  obtain ⟨hproc, hrec, hrel⟩ := hq
  refine ⟨hf, htok, ?_, h.consumer.congr hproc hrec ag.count, ?_, ?_, ?_, ?_, ?_, ?_⟩
  · rw [threads_setPc_ne ag.threads (Ne.symm ht)]
    exact h.thread
  · intro i pc₁ hi hpc₁
    by_cases hit : i = t
    · subst hit
      rw [threads_setPc_self ag.threads hpc] at hpc₁
      cases hpc₁
      exact hok.congr ag.posted ag.count
    · rw [threads_setPc_ne ag.threads hit] at hpc₁
      exact (h.posters i pc₁ hi hpc₁).congr ag.posted ag.count
  · intro t₁ t₂ m₁ m₂ n cur₁ cur₂ h₁ h₂
    exact h.distinct _ _ _ _ _ _ _ (hins _ _ _ _ h₁) (hins _ _ _ _ h₂)
  · exact ag.flags h.flags
  · intro n m hm
    show n ∈ v.released ↔ v.Passed c m n
    rw [Passed.congr (s := s) hproc hrec, hrel]
    exact h.released_iff n m (ag.posted ▸ hm)
  · show ∀ n ∈ v.released, n < v.postedLog.length
    rw [hrel, ag.posted]
    exact h.released_lt
  · show v.released.Nodup
    rw [hrel]
    exact h.nodup

theorem Synced.stay (h : Synced s c) (ht : t ≠ 0) (hpc : s.threads[t]? = some pc)
    (k : Nat) (hf : ({ s with msgSem := k }.setPc t pc').Fifo)
    (htok : ({ s with msgSem := k }.setPc t pc').Tokens) (hin : pc'.inside = pc.inside)
    (hok : s.PosterOk pc') :
    Synced ({ s with msgSem := k }.setPc t pc') c := by
  have hins : ∀ {i m n cur}, ({ s with msgSem := k }.setPc t pc').Inside i m n cur ↔
      s.Inside i m n cur := inside_setPc rfl hpc hin
  refine ⟨h.toOrdered.poster ht hpc (agrees_msgSem s k) rfl hok (fun _ _ _ _ => hins.mp) hf htok,
    ?_, ?_, ?_⟩
  · intro t₁ m n cur h₁
    exact h.sems t₁ m n cur (hins.mp h₁)
  · intro i hi hnone
    exact h.free i hi fun t₁ m n h₁ => hnone t₁ m n (hins.mpr h₁)
  · intro n m hm hflag hrel
    obtain ⟨t₁, cur, h₁⟩ := h.held n m hm hflag hrel
    exact ⟨t₁, cur, hins.mpr h₁⟩

theorem Synced.leave (h : Synced s c) (ht : t ≠ 0) (hpc : s.threads[t]? = some pc)
    (hin : pc.inside = some (m, n, cur)) (ag : Agrees v s)
    (hq : (v.processed, v.receivedLog, v.released) = (s.processed, s.receivedLog, s.released))
    (hgone : m.syncFlag = .none ∨ n ∈ s.released)
    (hcur : v.sem cur = 0) (hsem : ∀ i, i ≠ cur → v.sem i = s.sem i)
    (hf : (v.setPc t (.idle .success)).Fifo) (htok : (v.setPc t (.idle .success)).Tokens) :
    Synced (v.setPc t (.idle .success)) c := by
  have hrel : v.released = s.released := congrArg (·.2.2) hq
  have hself : s.Inside t m n cur := (inside_of_get hpc).mpr hin
  have hins : ∀ {i m n cur}, (v.setPc t (.idle .success)).Inside i m n cur ↔
      i ≠ t ∧ s.Inside i m n cur := inside_setPc_out ag.threads hpc rfl
  refine ⟨h.toOrdered.poster ht hpc ag hq trivial (fun _ _ _ _ h₁ => (hins.mp h₁).2) hf htok,
    ?_, ?_, ?_⟩
  · intro t₁ m₁ n₁ cur₁ h₁
    obtain ⟨hne, h₁⟩ := hins.mp h₁
    have hn : n₁ ≠ n := by
      intro he
      subst he
      exact hne (h.distinct _ _ _ _ _ _ _ h₁ hself)
    show v.sem cur₁ = if n₁ ∈ v.released then 1 else 0
    rw [hsem cur₁ (h.slot_ne h₁ hself hn), hrel]
    exact h.sems t₁ m₁ n₁ cur₁ h₁
  · intro i hi hnone
    show v.sem i = 0
    by_cases hic : i = cur
    · subst hic
      exact hcur
    rw [hsem i hic]
    apply h.free i (ag.count ▸ hi)
    intro t₁ m₁ n₁ h₁
    apply hnone t₁ m₁ n₁
    apply hins.mpr
    refine ⟨?_, h₁⟩
    intro hit
    subst hit
    rw [inside_of_get hpc, hin] at h₁
    cases h₁
    exact hic rfl
  · intro n₁ m₁ hm₁ hflag hnot
    have hm₀ : s.postedLog[n₁]? = some m₁ := ag.posted ▸ hm₁
    have hnot₀ : n₁ ∉ s.released := hrel ▸ hnot
    obtain ⟨t₁, cur₁, h₁⟩ := h.held n₁ m₁ hm₀ hflag hnot₀
    refine ⟨t₁, cur₁, hins.mpr ⟨?_, h₁⟩⟩
    intro hit
    subst hit
    rw [inside_of_get hpc, hin] at h₁
    cases h₁
    exact hgone.elim hflag hnot₀

end posters

section routine

variable {s v : MsgCxt} {c c' : Pc}

theorem Ordered.routine (h : Ordered s c) (ag : Agrees v s) (hok : v.ConsumerOk c')
    (hrel : ∀ n m, s.postedLog[n]? = some m → (n ∈ v.released ↔ v.Passed c' m n))
    (hlt : ∀ n ∈ v.released, n < s.postedLog.length) (hnd : v.released.Nodup)
    (hf : (v.setPc 0 c').Fifo) (htok : (v.setPc 0 c').Tokens) : Ordered (v.setPc 0 c') c' := by
  have hins : ∀ {i m n cur}, (v.setPc 0 c').Inside i m n cur ↔ s.Inside i m n cur :=
    inside_setPc ag.threads h.thread (hok.inside.trans h.consumer.inside.symm)
  refine ⟨hf, htok, threads_setPc_self ag.threads h.thread, hok.congr rfl rfl rfl, ?_, ?_,
    ag.flags h.flags, ?_, ?_, hnd⟩
  · intro i pc₁ hi hpc₁
    rw [threads_setPc_ne ag.threads hi] at hpc₁
    exact (h.posters i pc₁ hi hpc₁).congr ag.posted ag.count
  · intro t₁ t₂ m₁ m₂ n cur₁ cur₂ h₁ h₂
    exact h.distinct _ _ _ _ _ _ _ (hins.mp h₁) (hins.mp h₂)
  · intro n m hm
    exact hrel n m (ag.posted ▸ hm)
  · intro n hn
    exact ag.posted ▸ hlt n hn

theorem Synced.quiet (h : Synced s c) (ag : Agrees v s) (hrel : v.released = s.released)
    (hsem : ∀ i, v.sem i = s.sem i) (hok : v.ConsumerOk c')
    (hpass : ∀ n m, s.postedLog[n]? = some m → (v.Passed c' m n ↔ s.Passed c m n))
    (hf : (v.setPc 0 c').Fifo) (htok : (v.setPc 0 c').Tokens) : Synced (v.setPc 0 c') c' := by
  have hins : ∀ {i m n cur}, (v.setPc 0 c').Inside i m n cur ↔ s.Inside i m n cur :=
    inside_setPc ag.threads h.thread (hok.inside.trans h.consumer.inside.symm)
  refine ⟨h.toOrdered.routine ag hok ?_ (hrel ▸ h.released_lt) (hrel ▸ h.nodup) hf htok, ?_, ?_, ?_⟩
  · intro n m hm
    rw [hrel, hpass n m hm]
    exact h.released_iff n m hm
  · intro t₁ m n cur h₁
    show v.sem cur = if n ∈ v.released then 1 else 0
    rw [hsem, hrel]
    exact h.sems t₁ m n cur (hins.mp h₁)
  · intro i hi hnone
    show v.sem i = 0
    rw [hsem]
    exact h.free i (ag.count ▸ hi) fun t₁ m n h₁ => hnone t₁ m n (hins.mpr h₁)
  · intro n m hm hflag hnot
    obtain ⟨t₁, cur, h₁⟩ := h.held n m (ag.posted ▸ hm) hflag (hrel ▸ hnot)
    exact ⟨t₁, cur, hins.mpr h₁⟩

theorem agrees_release (s : MsgCxt) (n i : Nat) : Agrees (s.release n i) s :=
  agrees_modify rfl (fun _ => rfl) rfl rfl

theorem Synced.releases (h : Synced s c) (hm : s.postedLog[n]? = some m)
    (hflag : m.syncFlag ≠ .none) (hnot : ¬ s.Passed c m n)
    (hok : s.ConsumerOk c')
    (hpass : ∀ n' m', s.postedLog[n']? = some m' → (s.Passed c' m' n' ↔ s.Passed c m' n' ∨ n' = n))
    (hf : ((s.release n (n % s.count)).setPc 0 c').Fifo)
    (htok : ((s.release n (n % s.count)).setPc 0 c').Tokens) :
    Synced ((s.release n (n % s.count)).setPc 0 c') c' := by
  have ag := agrees_release s n (n % s.count)
  have hok' : (s.release n (n % s.count)).ConsumerOk c' := hok.congr rfl rfl ag.count
  have hins : ∀ {i m n' cur}, ((s.release n (n % s.count)).setPc 0 c').Inside i m n' cur ↔
      s.Inside i m n' cur :=
    inside_setPc ag.threads h.thread (hok.inside.trans h.consumer.inside.symm)
  have hfresh : n ∉ s.released := fun hmem => hnot ((h.released_iff n m hm).mp hmem)
  have hmem : ∀ {n'}, n' ∈ (s.release n (n % s.count)).released ↔ n' ∈ s.released ∨ n' = n := by
    intro n'
    show n' ∈ s.released ++ [n] ↔ _
    rw [mem_append, mem_singleton]
  obtain ⟨t, cur, hin⟩ := h.held n m hm hflag hfresh
  obtain ⟨-, rfl, -⟩ := h.holds hin
  refine ⟨h.toOrdered.routine ag hok' ?_ ?_ ?_ hf htok, ?_, ?_, ?_⟩
  · intro n' m' hm'
    rw [hmem, h.released_iff n' m' hm', ← hpass n' m' hm']
    exact (Passed.congr rfl rfl).symm
  · intro n' hn'
    rcases hmem.mp hn' with hn' | rfl
    · exact h.released_lt n' hn'
    · exact (List.getElem?_eq_some_iff.mp hm).1
  · show (s.released ++ [n]).Nodup
    rw [nodup_append]
    refine ⟨h.nodup, nodup_singleton n, ?_⟩
    intro a ha b hb he
    rw [mem_singleton] at hb
    exact hfresh (hb ▸ he ▸ ha)
  · intro t₁ m₁ n₁ cur₁ h₁
    replace h₁ := hins.mp h₁
    show (s.release n (n % s.count)).sem cur₁ = _
    by_cases hn₁ : n₁ = n
    · subst hn₁
      obtain ⟨-, rfl, -⟩ := h.holds h₁
      have hup : (s.release n₁ (n₁ % s.count)).sem (n₁ % s.count) = s.sem (n₁ % s.count) + 1 :=
        sem_modify_self rfl (Nat.mod_lt _ (count_pos h.fifo))
      rw [hup, h.sems _ _ _ _ h₁, if_neg hfresh]
      exact (if_pos (hmem.mpr (.inr rfl))).symm
    have hsame : (s.release n (n % s.count)).sem cur₁ = s.sem cur₁ :=
      sem_modify_ne rfl (h.slot_ne h₁ hin hn₁)
    rw [hsame, h.sems _ _ _ _ h₁]
    apply if_congr _ rfl rfl
    exact ⟨fun hr => hmem.mpr (.inl hr), fun hr => (hmem.mp hr).resolve_right hn₁⟩
  · intro i hi hnone
    have hi' : i ≠ n % s.count := by
      intro he
      subst he
      exact hnone t m n (hins.mpr hin)
    have hsame : (s.release n (n % s.count)).sem i = s.sem i := sem_modify_ne rfl hi'
    show (s.release n (n % s.count)).sem i = 0
    rw [hsame]
    exact h.free i (ag.count ▸ hi) fun t₁ m n h₁ => hnone t₁ m n (hins.mpr h₁)
  · intro n' m' hm' hflag' hnot'
    obtain ⟨t₁, cur, h₁⟩ := h.held n' m' hm' hflag' fun hr => hnot' (hmem.mpr (.inl hr))
    exact ⟨t₁, cur, hins.mpr h₁⟩

end routine

theorem sem_put (s : MsgCxt) (m : CmrMsg) (ori i : Nat) : (s.put m ori).sem i = s.sem i := by
  show (((s.slots.modify s.write fun c => { c with msg := m, syncF := m.syncFlag })[i]?).map
    CmrMsgIn.sem).getD 0 = _
  rw [map_modify CmrMsgIn.sem, sem]
  intro c
  rfl

theorem syncF_put_ne (m : CmrMsg) (ori : Nat) (hi : i ≠ s.write) :
    (put s m ori).syncF i = s.syncF i := by
  show (((s.slots.modify s.write _)[i]?).map CmrMsgIn.syncF).getD .none = _
  simp [syncF, Ne.symm hi]

theorem syncF_put_self (m : CmrMsg) (ori : Nat) (hw : s.write < s.count) :
    (put s m ori).syncF s.write = m.syncFlag := by
  show (((s.slots.modify s.write _)[s.write]?).map CmrMsgIn.syncF).getD .none = _
  rw [getElem?_modify_eq, getElem?_eq_getElem hw]
  rfl

theorem count_put (s : MsgCxt) (m : CmrMsg) (ori : Nat) : (s.put m ori).count = s.count :=
  length_modify _ _ _

theorem Holds.put (h : Holds s m n cur) (hw : s.write = s.postedLog.length % s.count)
    (hne : cur ≠ s.write) (m' : CmrMsg) (ori : Nat) : (s.put m' ori).Holds m n cur := by
  obtain ⟨hm, hcur, hwin⟩ := h
  have hlt := (List.getElem?_eq_some_iff.mp hm).1
  have hnew : s.postedLog.length ≠ n + s.count := by
    intro he
    apply hne
    rw [hw, he, Nat.add_mod_right, hcur]
  refine ⟨?_, ?_, ?_⟩
  · show (s.postedLog ++ [m'])[n]? = some m
    rw [List.getElem?_append_left hlt]
    exact hm
  · rw [count_put]
    exact hcur
  · show (s.postedLog ++ [m']).length ≤ _
    rw [count_put, List.length_append, List.length_singleton]
    omega

theorem PosterOk.put (h : PosterOk s pc) (hw : s.write = s.postedLog.length % s.count)
    (hne : pc.slot ≠ some s.write) (m : CmrMsg) (ori : Nat) : (s.put m ori).PosterOk pc := by
  cases pc with
  | idle r => trivial
  | posting m' ori' => trivial
  | waiting m' n cur => exact ⟨Holds.put h.1 hw (fun he => hne (congrArg some he)) m ori, h.2⟩
  | getting g => exact h.elim
  | got g n cur m' => exact h.elim
  | handling n cur m' => exact h.elim
  | handled n cur exit => exact h.elim
  | exited => exact h.elim
  | _ => exact Holds.put h hw (fun he => hne (congrArg some he)) m ori

section put

variable {s : MsgCxt} {c : Pc} {t ori : Nat} {m : CmrMsg}

theorem inside_put (hpc : s.threads[t]? = some (.posting m ori)) :
    ((s.put m ori).setPc t (.posted m s.postedLog.length s.write)).Inside i m' n cur ↔
      s.Inside i m' n cur ∨ i = t ∧ m = m' ∧ s.postedLog.length = n ∧ s.write = cur := by
  by_cases hi : i = t
  · subst hi
    rw [inside_setPc_self (v := s.put m ori) rfl hpc, inside_of_get hpc]
    simp [Pc.inside]
  · rw [inside_setPc_ne (s := s) (v := s.put m ori) rfl hi]
    simp [hi]

theorem Ordered.put (h : Ordered s c) (ht : t ≠ 0) (hpc : s.threads[t]? = some (.posting m ori))
    (hfresh : ∀ pc ∈ s.threads, pc.slot ≠ some s.write)
    (hf : ((s.put m ori).setPc t (.posted m s.postedLog.length s.write)).Fifo)
    (htok : ((s.put m ori).setPc t (.posted m s.postedLog.length s.write)).Tokens) :
    Ordered ((s.put m ori).setPc t (.posted m s.postedLog.length s.write)) c := by
  have hcount := count_pos h.fifo
  have hw := h.fifo.write_eq
  have hlt : s.write < s.count := hw ▸ Nat.mod_lt _ hcount
  have hold : ∀ {i m' n cur}, s.Inside i m' n cur → n < s.postedLog.length := by
    intro i m' n cur h₁
    exact (List.getElem?_eq_some_iff.mp (h.holds h₁).1).1
  refine ⟨hf, htok, ?_, h.consumer.congr rfl rfl (count_put s m ori), ?_, ?_, ?_, ?_, ?_, h.nodup⟩
  · rw [threads_setPc_ne (v := s.put m ori) rfl (Ne.symm ht)]
    exact h.thread
  · intro i pc₁ hi hpc₁
    by_cases hit : i = t
    · subst hit
      rw [threads_setPc_self (v := s.put m ori) rfl hpc] at hpc₁
      cases hpc₁
      refine ⟨getElem?_concat_length, ?_, ?_⟩
      · show s.write = s.postedLog.length % (s.put m ori).count
        rw [count_put]
        exact hw
      · show (s.postedLog ++ [m]).length ≤ s.postedLog.length + (s.put m ori).count
        rw [count_put, length_append, length_singleton]
        omega
    · rw [threads_setPc_ne (v := s.put m ori) rfl hit] at hpc₁
      have hok := (h.posters i pc₁ hi hpc₁).put hw (hfresh pc₁ (mem_of_getElem? hpc₁)) m ori
      exact hok.congr rfl rfl
  · intro t₁ t₂ m₁ m₂ n cur₁ cur₂ h₁ h₂
    rcases (inside_put hpc).mp h₁ with h₁ | ⟨hi₁, -, hn₁, -⟩
    · rcases (inside_put hpc).mp h₂ with h₂ | ⟨-, -, hn₂, -⟩
      · exact h.distinct _ _ _ _ _ _ _ h₁ h₂
      · exact absurd (hold h₁) (hn₂ ▸ lt_irrefl _)
    · rcases (inside_put hpc).mp h₂ with h₂ | ⟨hi₂, -, -, -⟩
      · exact absurd (hold h₂) (hn₁ ▸ lt_irrefl _)
      · exact hi₁.trans hi₂.symm
  · show ∀ n m', (s.postedLog ++ [m])[n]? = some m' →
      (s.postedLog ++ [m]).length ≤ n + (s.put m ori).count →
      (s.put m ori).syncF (n % (s.put m ori).count) = m'.syncFlag
    rw [count_put, length_append, length_singleton]
    intro n m' hm hwin
    rcases getElem?_concat_cases hm with ⟨hn, hm⟩ | ⟨rfl, rfl⟩
    · rw [syncF_put_ne m ori (hw ▸ mod_ne_mod hn (by omega))]
      exact h.flags n m' hm (by omega)
    · rw [← hw]
      exact syncF_put_self m ori hlt
  · intro n m' hm
    rcases getElem?_concat_cases hm with ⟨-, hm⟩ | ⟨rfl, rfl⟩
    · exact h.released_iff n m' hm
    · show _ ∈ s.released ↔ s.Passed c m _
      exact iff_of_false (fun hmem => lt_irrefl _ (h.released_lt _ hmem))
        (not_passed h (le_refl _))
  intro n hn
  show n < (s.postedLog ++ [m]).length
  rw [length_append]
  exact Nat.lt_add_right _ (h.released_lt n hn)

theorem Synced.put (h : Synced s c) (ht : t ≠ 0) (hpc : s.threads[t]? = some (.posting m ori))
    (hfresh : ∀ pc ∈ s.threads, pc.slot ≠ some s.write)
    (hf : ((s.put m ori).setPc t (.posted m s.postedLog.length s.write)).Fifo)
    (htok : ((s.put m ori).setPc t (.posted m s.postedLog.length s.write)).Tokens) :
    Synced ((s.put m ori).setPc t (.posted m s.postedLog.length s.write)) c := by
  have hlt : s.write < s.count := h.fifo.write_eq ▸ Nat.mod_lt _ (count_pos h.fifo)
  refine ⟨h.toOrdered.put ht hpc hfresh hf htok, ?_, ?_, ?_⟩
  · intro t₁ m₁ n cur h₁
    show (s.put m ori).sem cur = if n ∈ s.released then 1 else 0
    rw [sem_put]
    rcases (inside_put hpc).mp h₁ with h₁ | ⟨rfl, rfl, rfl, rfl⟩
    · exact h.sems t₁ m₁ n cur h₁
    rw [if_neg fun hmem => lt_irrefl _ (h.released_lt _ hmem)]
    apply h.free _ hlt
    intro t₂ m₂ n₂ h₂
    obtain ⟨pc, hget, hin⟩ := bind_eq_some_iff.mp h₂
    apply hfresh pc (mem_of_getElem? hget)
    rw [Pc.slot, hin, map_some]
  · intro i hi hnone
    show (s.put m ori).sem i = 0
    rw [sem_put]
    apply h.free i ((count_put s m ori) ▸ hi)
    intro t₁ m₁ n₁ h₁
    exact hnone t₁ m₁ n₁ ((inside_put hpc).mpr (.inl h₁))
  intro n m' hm hflag hnot
  rcases getElem?_concat_cases hm with ⟨-, hm⟩ | ⟨rfl, rfl⟩
  · obtain ⟨t₁, cur, h₁⟩ := h.held n m' hm hflag hnot
    exact ⟨t₁, cur, (inside_put hpc).mpr (.inl h₁)⟩
  · exact ⟨t, s.write, (inside_put hpc).mpr (.inr ⟨rfl, rfl, rfl, rfl⟩)⟩

end put

theorem passed_handling (hn : n + 1 = s.receivedLog.length) :
    Passed s (.handling n cur m) m' n' ↔
      Passed s (.got g n cur m) m' n' ∨ n' = n ∧ m'.syncFlag = .received := by
  rw [Passed, Passed]
  split <;> simp_all [Pc.untold, Pc.unreported]
  omega

theorem passed_finished (hn : n < s.processed) (exit' : Bool) :
    Passed s (if exit' then .exited else .idle .success) m' n' ↔
      Passed s (.handled n cur exit) m' n' ∨ n' = n ∧ m'.syncFlag = .processed := by
  rw [Passed, Passed]
  cases exit' <;> split <;> simp_all [Pc.untold, Pc.unreported] <;> omega

section answer

variable {s : MsgCxt} {c c' : Pc} {n : Nat} {f : SyncFlag}

theorem Synced.answer (h : Synced s c) (hn : n + 1 = s.receivedLog.length)
    (hflag : s.syncF (n % s.count) = f) (hne : f ≠ .none) (hok : s.ConsumerOk c')
    (hpass : ∀ n' m', s.Passed c' m' n' ↔ s.Passed c m' n' ∨ n' = n ∧ m'.syncFlag = f)
    (hnot : ∀ m, m.syncFlag = f → ¬ s.Passed c m n)
    (hf : ((s.release n (n % s.count)).setPc 0 c').Fifo)
    (htok : ((s.release n (n % s.count)).setPc 0 c').Tokens) :
    Synced ((s.release n (n % s.count)).setPc 0 c') c' := by
  obtain ⟨m, hm, hmf⟩ := h.latest hn
  have hmf' : m.syncFlag = f := hmf.symm.trans hflag
  apply h.releases hm (hmf' ▸ hne) (hnot m hmf') hok _ hf htok
  intro n' m' hm'
  rw [hpass n' m']
  apply or_congr Iff.rfl
  constructor
  · exact And.left
  intro he
  subst he
  cases hm.symm.trans hm'
  exact ⟨rfl, hmf'⟩

theorem Synced.noAnswer (h : Synced s c) (hn : n + 1 = s.receivedLog.length)
    (hflag : s.syncF (n % s.count) ≠ f) (hok : s.ConsumerOk c')
    (hpass : ∀ n' m', s.Passed c' m' n' ↔ s.Passed c m' n' ∨ n' = n ∧ m'.syncFlag = f)
    (hf : (s.setPc 0 c').Fifo) (htok : (s.setPc 0 c').Tokens) : Synced (s.setPc 0 c') c' := by
  obtain ⟨m, hm, hmf⟩ := h.latest hn
  apply h.quiet (agrees_msgSem s s.msgSem) rfl (fun _ => rfl) hok _ hf htok
  intro n' m' hm'
  rw [hpass n' m']
  apply or_iff_left
  rintro ⟨rfl, hf'⟩
  cases hm.symm.trans hm'
  exact hflag (hmf.trans hf')

end answer

namespace Synced

theorem ne_zero (h : Synced s c) (hpc : s.threads[t]? = some pc) (hno : ¬ s.ConsumerOk pc) :
    t ≠ 0 := by
  intro ht
  subst ht
  cases h.thread.symm.trans hpc
  exact hno h.consumer

theorem eq_zero (h : Synced s c) (hpc : s.threads[t]? = some pc) (hno : ¬ s.PosterOk pc) :
    t = 0 := by
  by_contra ht
  exact hno (h.posters t pc ht hpc)

theorem mem_released (h : Synced s c) (hin : s.Inside t m n cur) (hpos : 0 < s.sem cur) :
    n ∈ s.released := by
  by_contra hnot
  rw [h.sems _ _ _ _ hin, if_neg hnot] at hpos
  exact lt_irrefl _ hpos

theorem step (h : Synced s c) (hok : s.SyncOk a) (hs : s.step a = some u) : ∃ c', Synced u c' := by
  have hf := h.fifo.step hs
  have htok := h.tokens.step h.fifo hs
  obtain ⟨pc, pc', v, hpc, hm, rfl⟩ := step_moves hs
  cases hm with
  | post => exact ⟨c, h.stay hok.1 hpc s.msgSem hf htok rfl trivial⟩
  | overflow _ => exact ⟨c, h.stay (h.ne_zero hpc id) hpc s.msgSem hf htok rfl trivial⟩
  | put _ => exact ⟨c, h.put (h.ne_zero hpc id) hpc hok.2 hf htok⟩
  | signal =>
    have ht := h.ne_zero hpc id
    exact ⟨c, h.stay ht hpc (s.msgSem + 1) hf htok rfl
      (h.holds ((inside_of_get hpc).mpr rfl))⟩
  | pass hnone =>
    have ht := h.ne_zero hpc id
    have hin := (inside_of_get hpc).mpr rfl
    have hflag := (h.syncF_eq hin).symm.trans hnone
    have hnot := mt (h.released_iff _ _ (h.holds hin).1).mp (by rw [Passed, hflag]; exact id)
    refine ⟨c, h.leave ht hpc rfl (agrees_msgSem s s.msgSem) rfl (.inl hflag) ?_ (fun _ _ => rfl)
      hf htok⟩
    rw [h.sems _ _ _ _ hin, if_neg hnot]
  | wait hsync =>
    have ht := h.ne_zero hpc id
    have hin := (inside_of_get hpc).mpr rfl
    exact ⟨c, h.stay ht hpc s.msgSem hf htok rfl ⟨h.holds hin, h.syncF_eq hin ▸ hsync⟩⟩
  | wake hpos =>
    have ht := h.ne_zero hpc id
    have hin := (inside_of_get hpc).mpr rfl
    have hmem := h.mem_released hin hpos
    obtain ⟨-, hcur, -⟩ := h.holds hin
    refine ⟨c, h.leave ht hpc rfl (agrees_modify rfl (fun _ => rfl) rfl rfl) rfl (.inr hmem) ?_
      (fun _ => sem_modify_ne rfl) hf htok⟩
    have hdown : (s.acquire _).sem _ = _ :=
      sem_modify_self (g := (· - 1)) rfl (hcur ▸ Nat.mod_lt _ (count_pos h.fifo))
    rw [hdown, h.sems _ _ _ _ hin, if_pos hmem]
  | getWait _ =>
    obtain ⟨rfl, rfl⟩ := hok.1
    cases h.thread.symm.trans hpc
    exact ⟨_, h.quiet (agrees_msgSem s _) rfl (fun _ => rfl) ⟨rfl, h.consumer⟩
      (fun _ _ _ => Iff.rfl) hf htok⟩
  | timeout => exact hok.1.elim
  | underflow hz => exact absurd hz (h.tokens.number_ne_zero hpc rfl)
  | take hne _ =>
    have ht := h.eq_zero hpc id
    subst ht
    cases h.thread.symm.trans hpc
    obtain ⟨rfl, hproc⟩ := h.consumer
    have ag : Agrees (s.take .routine) s := agrees_modify rfl (fun _ => rfl) rfl rfl
    refine ⟨_, h.quiet ag rfl ?_ ⟨rfl, ?_, ?_, hproc⟩ ?_ hf htok⟩
    · intro i
      show (((s.slots.modify s.read fun c => { c with msg := CmrMsg.zero })[i]?).map
        CmrMsgIn.sem).getD 0 = _
      rw [map_modify CmrMsgIn.sem, sem]
      intro c
      rfl
    · exact (congrArg _ length_singleton).symm.trans length_append.symm
    · rw [ag.count]
      exact h.fifo.read_eq
    intro n m _
    have hlen : (s.take .routine).receivedLog.length = s.receivedLog.length + 1 :=
      length_append
    rw [Passed, Passed, hlen]
    split <;> simp [Pc.untold, Pc.unreported, MsgCxt.take]
    omega
  | nothing hne heq => exact absurd heq (h.fifo.read_ne_write hne)
  | notify hflag =>
    have ht := h.eq_zero hpc id
    subst ht
    cases h.thread.symm.trans hpc
    obtain ⟨rfl, hn, rfl, hproc⟩ := h.consumer
    refine ⟨_, h.answer hn hflag (by decide) ⟨hn, rfl, hproc⟩ (fun _ _ => passed_handling hn) ?_ hf
      htok⟩
    intro m hm
    rw [Passed, hm]
    exact fun hp => hp.2 rfl
  | silent hflag =>
    have ht := h.eq_zero hpc id
    subst ht
    cases h.thread.symm.trans hpc
    obtain ⟨rfl, hn, rfl, hproc⟩ := h.consumer
    exact ⟨_, h.noAnswer hn hflag ⟨hn, rfl, hproc⟩ (fun _ _ => passed_handling hn) hf htok⟩
  | callback =>
    have ht := h.eq_zero hpc id
    subst ht
    cases h.thread.symm.trans hpc
    obtain ⟨hn, rfl, hproc⟩ := h.consumer
    refine ⟨_, h.quiet ⟨rfl, rfl, rfl, fun _ => rfl⟩ rfl (fun _ => rfl) ⟨hn, rfl, ?_⟩ ?_ hf htok⟩
    · show s.processed + 1 = _
      rw [hproc]
    intro n' m' _
    rw [Passed, Passed]
    split <;> simp [Pc.untold, Pc.unreported]
    omega
  | finish hflag =>
    have ht := h.eq_zero hpc id
    subst ht
    cases h.thread.symm.trans hpc
    obtain ⟨hn, rfl, hproc⟩ := h.consumer
    refine ⟨_, h.answer hn hflag (by decide) ?_ (fun _ _ => passed_finished (by omega) _) ?_ hf
      htok⟩
    · split <;> exact hproc.trans hn
    · intro m hm
      rw [Passed, hm]
      exact fun hp => hp.2 rfl
  | finishSilent hflag =>
    have ht := h.eq_zero hpc id
    subst ht
    cases h.thread.symm.trans hpc
    obtain ⟨hn, rfl, hproc⟩ := h.consumer
    refine ⟨_, h.noAnswer hn hflag ?_ (fun _ _ => passed_finished (by omega) _) hf htok⟩
    split <;> exact hproc.trans hn

end Synced

theorem create_synced (hn : 0 < n) (k : Nat) : (create n (k + 1)).Synced (.idle .success) := by
  have hins : ∀ t m i cur, ¬ (create n (k + 1)).Inside t m i cur := by
    intro t m i cur h
    obtain ⟨pc, hpc, hin⟩ := bind_eq_some_iff.mp h
    have hidle := eq_of_mem_replicate (mem_of_getElem? hpc)
    subst hidle
    cases hin
  refine ⟨⟨create_fifo hn _, create_tokens _ _, rfl, rfl, ?_, ?_, ?_, ?_, ?_, nodup_nil⟩, ?_,
    ?_, ?_⟩
  · intro t pc _ hpc
    have hidle := eq_of_mem_replicate (mem_of_getElem? hpc)
    subst hidle
    trivial
  · intro t t' m m' i cur cur' h
    exact (hins _ _ _ _ h).elim
  · intro i m h
    cases h
  · intro i m h
    cases h
  · intro i h
    cases h
  · intro t m i cur h
    exact (hins _ _ _ _ h).elim
  · intro i hi _
    rw [count, create, length_replicate] at hi
    rw [sem, create, getElem?_replicate, if_pos hi]
    rfl
  · intro i m h
    cases h

theorem synced_of_run (hn : 0 < n) (hrun : Run (Guarded SyncOk step) (create n (k + 1)) as s) :
    ∃ c, s.Synced c := by
  apply hrun.invariant (I := fun _ s => ∃ c, s.Synced c)
  · exact ⟨_, create_synced hn k⟩
  · rintro _ a t u ⟨c, h⟩ ⟨hs, hok⟩
    exact h.step hok hs

def Returns (s u : MsgCxt) (t : Nat) (m : CmrMsg) (n : Nat) : Prop :=
  (∃ cur, s.Inside t m n cur) ∧ u.threads[t]? = some (.idle .success)

theorem Moves.returns (hm : Moves s a pc pc' v) (hin : pc.inside = some (m, n, cur))
    (hout : pc' = .idle .success) : s.syncF cur = .none ∨ 0 < s.sem cur := by
  cases hm with
  | signal => cases hout
  | pass h =>
    cases hin
    exact .inl h
  | wait => cases hout
  | wake h =>
    cases hin
    exact .inr h
  | _ => cases hin

theorem returns_cases (hs : step s a = some u) (hin : s.Inside t m n cur)
    (hout : u.threads[t]? = some (.idle .success)) : s.syncF cur = .none ∨ 0 < s.sem cur := by
  obtain ⟨pc, pc', v, hpc, hm, rfl⟩ := step_moves hs
  by_cases ht : t = a.thread
  · subst ht
    rw [threads_setPc_self hm.threads hpc] at hout
    exact hm.returns ((inside_of_get hpc).mp hin) (Option.some.inj hout)
  · rw [threads_setPc_ne hm.threads ht] at hout
    rw [Inside, hout] at hin
    cases hin

theorem Synced.returns (h : Synced s c) (hs : s.step a = some u) (hret : s.Returns u t m n) :
    s.postedLog[n]? = some m ∧ (m.syncFlag ≠ .none → n ∈ s.released ∧ s.Passed c m n) := by
  obtain ⟨⟨cur, hin⟩, hout⟩ := hret
  have hm := (h.holds hin).1
  refine ⟨hm, ?_⟩
  intro hflag
  have hrel : n ∈ s.released := by
    rcases returns_cases hs hin hout with hnone | hpos
    · exact absurd ((h.syncF_eq hin).symm.trans hnone) hflag
    · exact h.mem_released hin hpos
  exact ⟨hrel, (h.released_iff n m hm).mp hrel⟩

theorem Fifo.received_get (h : Fifo s) (hm : s.postedLog[n]? = some m)
    (hn : n < s.receivedLog.length) :
    ∃ m', s.receivedLog[n]? = some m' ∧ m'.content = m.content := by
  refine ⟨_, getElem?_eq_getElem hn, ?_⟩
  have hget := congrArg (·[n]?) h.received
  simp only [getElem?_map, getElem?_take, if_pos hn, hm, getElem?_eq_getElem hn,
    map_some, Option.some.injEq] at hget
  exact hget

/-- When no slot is reused too early: only a synchronous poster waits, and it returns after the
routine has received or processed its message and posted the semaphore for it exactly once. -/
theorem sync_posts_are_answered {s : MsgCxt} (hn : 0 < n)
    (hrun : Run (Guarded SyncOk step) (create n (k + 1)) as s) :
    (∀ (t : Nat) m i cur, s.threads[t]? = some (.waiting m i cur) → m.syncFlag ≠ .none) ∧
    (∀ a u t m i, Guarded SyncOk step s a u → s.Returns u t m i →
      s.postedLog[i]? = some m ∧
      (m.syncFlag ≠ .none → s.released.count i = 1 ∧
        ∃ m', s.receivedLog[i]? = some m' ∧ m'.content = m.content) ∧
      (m.syncFlag = .processed → i < s.processed)) ∧
    (∀ i, s.released.count i ≤ 1) ∧
    ∀ i, i < n → (∀ t m j, ¬ s.Inside t m j i) → s.sem i = 0 := by
  obtain ⟨c, h⟩ := synced_of_run hn hrun
  have hall : Run (Next step) (create n (k + 1)) as s := hrun.mono fun _ _ _ hs => hs.1
  have hcount : s.count = n := (sound_of_run hn hall).2
  refine ⟨?_, ?_, nodup_iff_count_le_one.mp h.nodup, ?_⟩
  · intro t m i cur hpc
    have ht := h.ne_zero hpc id
    exact (h.posters t _ ht hpc).2
  · intro a u t m i hs hret
    obtain ⟨hm, hflag⟩ := h.returns hs.1 hret
    refine ⟨hm, ?_, ?_⟩
    · intro hne
      obtain ⟨hmem, hpass⟩ := hflag hne
      refine ⟨count_eq_one_of_mem h.nodup hmem, h.fifo.received_get hm ?_⟩
      have hle := h.consumer.processed_le
      rw [Passed] at hpass
      split at hpass
      · exact hpass.elim
      · exact hpass.1
      · omega
    · intro hproc
      obtain ⟨-, hpass⟩ := hflag (by rw [hproc]; decide)
      rw [Passed, hproc] at hpass
      exact hpass.1
  · intro i hi
    exact h.free i (hcount ▸ hi)

def sampleMsg (f : SyncFlag) : CmrMsg := ⟨1, 0, 0, 0, f, none⟩

def postActs (t : Nat) (f : SyncFlag) : List MsgAct :=
  [.post t (sampleMsg f), .postLock t, .postSem t]

def routineActs : List MsgAct :=
  [.getWait 0 .routine, .getLock 0, .getSync 0, .callback 0 false, .procSync 0]

theorem sync_posts_are_answered_processed :
    ∃ s u, Run (Guarded SyncOk step) (create 2 2)
        (postActs 1 .processed ++ [.postSync 1] ++ routineActs) s ∧
      Guarded SyncOk step s (.postWake 1) u ∧ s.Returns u 1 (sampleMsg .processed) 0 ∧
      s.released.count 0 = 1 ∧ 0 < s.processed := by
  obtain ⟨s, hrun, hin, hok⟩ := exists_guarded_of_exec
    (P := fun s : MsgCxt => s.threads[1]? = some (.waiting (sampleMsg .processed) 0 0) ∧
      (s.step (.postWake 1)).any fun u => u.threads[1]? = some (.idle .success))
    (show (exec (fun s a => if SyncOk s a then step s a else none) (create 2 2)
      (postActs 1 .processed ++ [.postSync 1] ++ routineActs)).any _ = true by decide)
  obtain ⟨u, hu, hidle⟩ := (any_eq_true _ _).1 hok
  have hstep : Guarded SyncOk step s (.postWake 1) u := ⟨hu, trivial, trivial⟩
  have hret : s.Returns u 1 (sampleMsg .processed) 0 :=
    ⟨⟨0, (inside_of_get hin).mpr rfl⟩, of_decide_eq_true hidle⟩
  have h := (sync_posts_are_answered (by decide) hrun).2.1 _ u 1 _ 0 hstep hret
  exact ⟨s, u, hrun, hstep, hret, (h.2.1 (by decide)).1, h.2.2 rfl⟩

/-- Thread 1 is slow behind the semaphore of the queue: its slot is used again, for a message that
wants an answer, before it looks at the flag. -/
def reusedSlot : List MsgAct :=
  postActs 1 .none ++ routineActs ++ postActs 2 .none ++ routineActs ++ postActs 3 .processed ++
    [.postSync 1]

/-- Thread 1 wants an answer, and its slot is used again, for a message that wants none, before it
looks at the flag: the answer stays in the semaphore. -/
def staleAnswer : List MsgAct :=
  postActs 1 .processed ++ routineActs ++ postActs 2 .none ++ routineActs ++ postActs 3 .none ++
    [.postSync 1] ++ routineActs ++ [.postSync 2] ++ postActs 2 .none ++ routineActs ++
    postActs 1 .processed ++ [.postSync 1, .postWake 1]

theorem reused_slot_confuses_posters :
    (∃ s, Run (Next step) (create 2 4) reusedSlot s ∧ (∀ a ∈ reusedSlot, a.OneConsumer) ∧
      s.threads[1]? = some (.waiting (sampleMsg .none) 0 0)) ∧
    ∃ s, Run (Next step) (create 2 4) staleAnswer s ∧ (∀ a ∈ staleAnswer, a.OneConsumer) ∧
      s.postedLog[4]? = some (sampleMsg .processed) ∧ s.threads[1]? = some (.idle .success) ∧
      s.receivedLog.length = 4 ∧ s.processed = 4 := by
  constructor
  · exact exists_run_imp (fun _ _ h => ⟨by decide, h⟩) (by decide)
  · exact exists_run_imp (fun _ _ h => ⟨by decide, h⟩) (by decide)

end MsgCxt

end SprdVendor.LibCamera
