import SprdVendor.Download.Book

namespace SprdVendor.Download
open List hiding after
open Lib Option

def only (o : Option Command) (cmd : Command) : Bool := o = some cmd

def path : Option Command → List Pc
  | none => [.test .stopFirst, .test .startFirst, .rebootTest, .powerOn, .openUart, .connect, .fdl,
      .dumpTest, .images, .test .dumpLast, .test .rebootLast, .test .startLast]
  | some .stop => [.test .stopFirst, .notify .stopFirst]
  | some .start => [.test .stopFirst, .test .startFirst, .notify .startFirst]
  | some .reboot => [.test .stopFirst, .test .startFirst, .rebootTest, .powerOff, .powerOn,
      .openUart, .connect, .fdl, .dumpTest, .images, .test .dumpLast, .test .rebootLast,
      .notify .rebootLast]
  | some .dump => [.test .stopFirst, .test .startFirst, .rebootTest, .powerOn, .openUart, .connect,
      .fdl, .dumpTest, .dumpStart, .dumpMem, .dumpWait, .test .dumpLast, .notify .dumpLast]

def Pc.isPowered : Pc → Bool
  | .openUart | .connect | .fdl | .dumpTest | .dumpStart | .dumpMem | .dumpWait | .images => true
  | _ => false

def Pc.isFinished : Pc → Bool
  | .test .dumpLast | .test .rebootLast | .test .startLast => true
  | .notify .dumpLast | .notify .rebootLast => true
  | _ => false

def lastEvent : Option Command → Event
  | some .dump => .dumped
  | _ => .downloaded

structure Stage (o : Option Command) (pc : Pc) (evs : List Event) : Prop where
  path : pc ∈ path o
  powered : pc.isPowered = true → .powered ∈ evs
  finished : pc.isFinished = true → [.powered, lastEvent o].Sublist evs

theorem Stage.first (o : Option Command) (evs : List Event) : Stage o (.test .stopFirst) evs := by
  apply Stage.mk
  · rcases o with _ | _ | _ | _ | _ <;> decide
  · exact fun h => absurd h (by decide)
  · exact fun h => absurd h (by decide)

theorem Stage.append {evs new : List Event} (h : Stage o pc evs) : Stage o pc (evs ++ new) :=
  ⟨h.path, fun hp => mem_append_left _ (h.powered hp),
    fun hf => (h.finished hf).trans (sublist_append_left _ _)⟩

theorem Stage.goOn (h : Stage o pc evs) (hpath : pc' ∈ Download.path o)
    (hpowered : pc'.isPowered = true → pc.isPowered = true)
    (hfinished : pc'.isFinished = true → pc.isFinished = true) : Stage o pc' evs :=
  ⟨hpath, fun hp => h.powered (hpowered hp), fun hf => h.finished (hfinished hf)⟩

def steps : List (Pc × Pc) :=
  [(.powerOff, .powerOn), (.powerOn, .openUart), (.openUart, .connect), (.connect, .fdl),
    (.connect, .powerOn), (.fdl, .dumpTest), (.fdl, .powerOn), (.images, .powerOn),
    (.images, .test .dumpLast), (.dumpStart, .dumpMem), (.dumpMem, .dumpWait),
    (.dumpWait, .test .dumpLast)]

theorem path_step (h : (pc, pc') ∈ steps) (hpc : pc ∈ path o) : pc' ∈ path o := by
  have hall : ∀ p ∈ steps, p.1 ∈ path o → p.2 ∈ path o := by
    rcases o with _ | _ | _ | _ | _ <;> decide
  exact hall _ h hpc

theorem path_dump (h : pc ∈ [.dumpStart, .dumpMem, .dumpWait]) (hpc : pc ∈ path o) :
    o = some .dump := by
  have hall : ∀ p ∈ [Pc.dumpStart, .dumpMem, .dumpWait], p ∈ path o → o = some .dump := by
    rcases o with _ | _ | _ | _ | _ <;> decide
  exact hall _ h hpc

inductive Move (o : Option Command) (evs : List Event) (m : Manager) (ok : Bool)
    (broken : List Nat) : Pc → Goto × Manager → Prop where
  | silent : Stage o pc' evs → Move o evs m ok broken pc (.pc pc', m)
  | noted : (∀ k, about k e = false) → Stage o pc' (evs ++ [e]) →
      Move o evs m ok broken pc (.pc pc', m.note e)
  | dumping : o = some .dump → Stage o .dumpMem evs → Move o evs m ok broken .dumpStart
      (.pc .dumpMem, m.sendNotifyToClient "WCN-EXTERNAL-DUMP" .slog broken)
  | answering : o = some c.command → Move o evs m ok broken (.notify c)
      (.pc (.clear c), m.sendNotifyToClient c.command.response .wcnd broken)
  | failing : ok = false → Move o evs m ok broken .openUart (.ret false, m)
  | ending : o = none → Move o evs m ok broken (.test .startLast) (.ret true, m)

theorem move_test {m : Manager} (hflag : m.flag = only o) (h : Stage o (.test c) evs) :
    Move o evs m ok broken (.test c) (downloadEntry (.test c) ok broken m) := by
  have hpath := h.path
  rw [downloadEntry]
  by_cases hset : o = some c.command
  · rw [if_pos (by rw [hflag]; exact decide_eq_true hset)]
    subst hset
    apply Move.silent
    cases c with
    | startLast => exact absurd hpath (by decide)
    | _ => exact h.goOn (by decide) (by decide) (by decide)
  rw [if_neg (by rw [hflag]; simpa [only] using hset)]
  cases c with
  | stopFirst =>
    apply Move.silent
    apply h.goOn _ (by decide) (by decide)
    rcases o with _ | _ | _ | _ | _ <;> revert hset <;> decide
  | startLast =>
    apply Move.ending
    rcases o with _ | _ | _ | _ | _ <;> revert hpath <;> decide
  | _ =>
    apply Move.silent
    apply h.goOn _ (by decide) (by decide)
    rcases o with _ | _ | _ | _ | _ <;> revert hset hpath <;> decide

theorem downloadEntry_move {m : Manager} (hflag : m.flag = only o) (h : Stage o pc evs) :
    Move o evs m ok broken pc (downloadEntry pc ok broken m) := by
  have hpath := h.path
  cases pc with
  | test c => exact move_test hflag h
  | notify c =>
    apply Move.answering
    cases c <;> rcases o with _ | _ | _ | _ | _ <;> revert hpath <;> decide
  | clear c =>
    exfalso
    cases c <;> rcases o with _ | _ | _ | _ | _ <;> revert hpath <;> decide
  | rebootTest =>
    rw [downloadEntry]
    by_cases hset : o = some .reboot
    · rw [if_pos (by rw [hflag]; exact decide_eq_true hset)]
      subst hset
      exact .silent (h.goOn (by decide) (by decide) (by decide))
    rw [if_neg (by rw [hflag]; simpa [only] using hset)]
    apply Move.silent
    apply h.goOn _ (by decide) (by decide)
    rcases o with _ | _ | _ | _ | _ <;> revert hset hpath <;> decide
  | powerOff => exact .silent (h.goOn (path_step (by decide) hpath) (by decide) (by decide))
  | powerOn =>
    apply Move.noted (fun _ => rfl)
    apply Stage.mk (path_step (by decide) hpath)
    · exact fun _ => mem_append_right _ mem_cons_self
    · exact fun hf => absurd hf (by decide)
  | openUart =>
    rw [downloadEntry]
    cases ok with
    | false => exact .failing rfl
    | true => exact .silent (h.goOn (path_step (by decide) hpath) (by decide) (by decide))
  | dumpTest =>
    rw [downloadEntry]
    by_cases hset : o = some .dump
    · rw [if_pos (by rw [hflag]; exact decide_eq_true hset)]
      subst hset
      exact .silent (h.goOn (by decide) (by decide) (by decide))
    rw [if_neg (by rw [hflag]; simpa [only] using hset)]
    apply Move.silent
    apply h.goOn _ (by decide) (by decide)
    rcases o with _ | _ | _ | _ | _ <;> revert hset hpath <;> decide
  | dumpStart =>
    exact .dumping (path_dump (by decide) hpath)
      (h.goOn (path_step (by decide) hpath) (by decide) (by decide))
  | dumpMem => exact .silent (h.goOn (path_step (by decide) hpath) (by decide) (by decide))
  | dumpWait =>
    cases path_dump (by decide) hpath
    rw [downloadEntry]
    cases ok with
    | false => exact .silent h
    | true =>
      apply Move.noted (fun _ => rfl)
      apply Stage.mk (path_step (by decide) hpath)
      · exact fun hp => absurd hp (by decide)
      · exact fun _ =>
          (singleton_sublist.2 (h.powered rfl)).append (List.Sublist.refl [Event.dumped])
  | images =>
    rw [downloadEntry]
    cases ok with
    | false => exact .silent (h.goOn (path_step (by decide) hpath) (by decide) (by decide))
    | true =>
      have hlast : lastEvent o = .downloaded := by
        rcases o with _ | _ | _ | _ | _ <;> revert hpath <;> decide
      apply Move.noted (fun _ => rfl)
      apply Stage.mk (path_step (by decide) hpath)
      · exact fun hp => absurd hp (by decide)
      intro _
      rw [hlast]
      exact (singleton_sublist.2 (h.powered rfl)).append
        (List.Sublist.refl [Event.downloaded])
  | _ =>
    rw [downloadEntry]
    cases ok with
    | _ => exact .silent (h.goOn (path_step (by decide) hpath) (by decide) (by decide))

inductive Leaving (flag : Command → Bool) : Pc → Prop where
  | clear : flag = only (some c.command) → Leaving flag (.clear c)
  | test : flag = only none → c = .rebootLast ∨ c = .startLast → Leaving flag (.test c)

theorem setFlag_only (m : Manager) (h : m.flag = only (some cmd)) :
    (m.setFlag cmd false).flag = only none := by
  funext c
  by_cases hc : c = cmd
  · simp [Manager.setFlag, hc, only]
  · simp [Manager.setFlag, hc, h, only, Ne.symm hc]

theorem setFlag_none (m : Manager) (h : m.flag = only none) (cmd : Command) :
    (m.setFlag cmd true).flag = only (some cmd) := by
  funext c
  by_cases hc : c = cmd
  · simp [Manager.setFlag, hc, only]
  · simp [Manager.setFlag, hc, h, only, Ne.symm hc]

theorem downloadEntry_leaving (h : Leaving m.flag pc) :
    ∃ g m', downloadEntry pc ok broken m = (g, m') ∧ m'.clients = m.clients ∧ m'.log = m.log ∧
      (g = .ret true ∧ m'.flag = only none ∨ ∃ pc', g = .pc pc' ∧ Leaving m'.flag pc') := by
  cases h with
  | @clear c hflag =>
    refine ⟨_, _, rfl, rfl, rfl, ?_⟩
    have hnone := setFlag_only m hflag
    cases c with
    | dumpLast => exact .inr ⟨_, rfl, .test hnone (.inl rfl)⟩
    | rebootLast => exact .inr ⟨_, rfl, .test hnone (.inr rfl)⟩
    | _ => exact .inl ⟨rfl, hnone⟩
  | @test c hflag hc =>
    refine ⟨c.pass, m, ?_, rfl, rfl, ?_⟩
    · rw [downloadEntry, if_neg (by rw [hflag]; simp [only])]
    · rcases hc with rfl | rfl
      · exact .inr ⟨_, rfl, .test hflag (.inr rfl)⟩
      · exact .inl ⟨rfl, hflag⟩

def ListenerPc.idle : ListenerPc → Bool
  | .entry _ _ _ _ => false
  | _ => true

structure Serving (s : State) (cmd : Command) (c : WcnClient) (pc : Pc) : Prop where
  main : s.main = .bootcomp
  slot : ∃ ready i buffer, s.listener = .entry pc ready i buffer ∧ s.manager.clients[i]? = some c
  type : c.type = .wcnd
  key : c.key = some c.conn
  flag : s.manager.flag = only (some cmd)
  log : ∃ before after, s.manager.log = before ++ after ∧ .downloaded ∈ before ∧
    Stage (some cmd) pc after ∧
    (.read c.conn cmd ∈ s.manager.log → ∃ first, before = first ++ [.read c.conn cmd])

def Unanswered (log : List Event) (k : Nat) (cmd : Command) : Prop :=
  log.filter (about k) = [.read k cmd]

def State.Book (s : State) (waiting : Nat → Command → Prop) : Prop :=
  Download.Book s.manager.clients s.manager.log s.accepted waiting

inductive Inv (s : State) : Prop where
  | booting (idle : s.listener.idle = true) (flag : s.manager.flag = only none)
      (main : s.main = .again ∨ ∃ pc, s.main = .entry pc ∧ Stage none pc s.manager.log)
      (book : s.Book fun _ _ => False)
  | resting (idle : s.listener.idle = true) (flag : s.manager.flag = only none)
      (main : s.main = .bootcomp) (done : .downloaded ∈ s.manager.log)
      (book : s.Book fun _ _ => False)
  | serving (serving : Serving s cmd c pc)
      (book : s.Book fun k cmd' => k = c.conn ∧ cmd' = cmd ∧ Unanswered s.manager.log k cmd)
  | leaving (main : s.main = .bootcomp) (done : .downloaded ∈ s.manager.log)
      (entry : ∃ pc ready i buffer, s.listener = .entry pc ready i buffer ∧
        Leaving s.manager.flag pc)
      (book : s.Book fun _ _ => False)

theorem inv_init : Inv State.init := by
  apply Inv.booting rfl rfl (.inr ⟨_, rfl, Stage.first none _⟩)
  refine ⟨?_, ?_, ?_, ?_, ?_⟩
  · exact (by decide : (State.init.manager.clients.filterMap WcnClient.key).Nodup)
  · exact fun k hk => absurd hk (by
      rw [show State.init.manager.clients.filterMap WcnClient.key = [] from rfl]
      exact not_mem_nil)
  · exact fun k _ => rfl
  · exact fun c _ _ k _ info hmem => by cases hmem
  · exact fun k cmd hmem => by cases hmem

def MainPc.isBootcomp : MainPc → Bool
  | .bootcomp => true
  | _ => false

/-- A command is read when the initial download is complete, and with its NUL; the UART opens, and
the client that is served can be written to. -/
def ListenerPc.ok (s : State) (ok : Bool) (broken : List Nat) (bytes : List Char) :
    ListenerPc → Prop
  | .select => True
  | .scan _ _ buffer =>
    ((commandOf (fillBuffer buffer bytes)).isSome → s.main.isBootcomp) ∧
      ((commandOf bytes).isSome → '\x00' ∈ bytes)
  | .entry pc _ i _ =>
    (pc = .openUart → ok = true) ∧
      ∀ fd ∈ (s.manager.clients[i]?).bind WcnClient.sockfd, fd ∉ broken

def Ok (s : State) : Act → Prop
  | .main _ _ => True
  | .select _ => True
  | .accept fd type =>
    (storeClientFd s.manager.flagConnect ⟨some fd, type, s.accepted⟩ s.manager.clients).isSome
  | .listen ok broken bytes => s.listener.ok s ok broken bytes

instance (s : State) (ok : Bool) (broken : List Nat) (bytes : List Char) :
    (l : ListenerPc) → Decidable (l.ok s ok broken bytes)
  | .select => isTrue trivial
  | .scan _ _ _ => inferInstanceAs (Decidable (_ ∧ _))
  | .entry _ _ _ _ => inferInstanceAs (Decidable (_ ∧ _))

instance (s : State) : (a : Act) → Decidable (Ok s a)
  | .main _ _ => isTrue trivial
  | .select _ => isTrue trivial
  | .accept _ _ => inferInstanceAs (Decidable (_ = true))
  | .listen ok broken bytes => inferInstanceAs (Decidable (s.listener.ok s ok broken bytes))

theorem length_text_lt (cmd : Command) : cmd.text.toList.length < socketBufferSize := by
  cases cmd <;> decide +kernel

theorem takeWhile_take_append {l : List Char} (hlen : (l.takeWhile p).length < n)
    (hne : l.takeWhile p ≠ l) (r : List Char) : (l.take n ++ r).takeWhile p = l.takeWhile p := by
  induction l generalizing n with
  | nil => exact absurd rfl hne
  | cons a l ih =>
    obtain ⟨n, rfl⟩ := Nat.exists_eq_succ_of_ne_zero (Nat.ne_zero_of_lt hlen)
    rw [take_succ_cons, cons_append]
    by_cases ha : p a = true
    · rw [takeWhile_cons_of_pos ha] at hlen hne ⊢
      rw [takeWhile_cons_of_pos ha, ih]
      · exact Nat.lt_of_succ_lt_succ hlen
      · exact fun he => hne (congrArg (a :: ·) he)
    · rw [takeWhile_cons_of_neg ha, takeWhile_cons_of_neg ha]

theorem commandOf_fillBuffer {bytes : List Char} (h : commandOf bytes = some cmd)
    (hnul : '\x00' ∈ bytes) (buffer : List Char) :
    commandOf (fillBuffer buffer bytes) = some cmd := by
  have htext : cmd.text.toList = bytes.takeWhile (· ≠ '\x00') := by
    have hfound := find?_some h
    exact of_decide_eq_true hfound
  have hlen : (bytes.takeWhile (· ≠ '\x00')).length < socketBufferSize := by
    rw [← htext]
    exact length_text_lt cmd
  have hne : bytes.takeWhile (· ≠ '\x00') ≠ bytes := by
    intro he
    rw [← he] at hnul
    exact absurd (mem_takeWhile_imp hnul) (by decide)
  rw [commandOf, fillBuffer, patch_zero, takeWhile_take_append hlen hne]
  exact h

theorem scanSlot_cases (hnul : (commandOf bytes).isSome → '\x00' ∈ bytes) :
    ((scanSlot ready i buffer bytes m).1.idle = true ∧ (scanSlot ready i buffer bytes m).2 = m) ∨
      ∃ c cmd m', m.clients[i]? = some c ∧ c.type = .wcnd ∧ c.key = some c.conn ∧
        commandOf (fillBuffer buffer bytes) = some cmd ∧ (m' = m ∨ m' = m.note (.read c.conn cmd)) ∧
        scanSlot ready i buffer bytes m =
          (.entry (.test .stopFirst) ready i (fillBuffer buffer bytes), m'.setFlag cmd true) := by
  rw [scanSlot]
  cases hc : m.clients[i]? with
  | none => exact .inl ⟨rfl, rfl⟩
  | some c =>
    cases hfd : c.sockfd with
    | none => exact .inl ⟨by simp [hfd, ListenerPc.idle], by simp [hfd]⟩
    | some fd =>
      simp only [hfd]
      split
      case isFalse => exact .inl ⟨rfl, rfl⟩
      case isTrue hready =>
        have hkey : c.key = some c.conn := by
          rw [WcnClient.key, hfd]
          rfl
        cases hread : commandOf bytes with
        | none =>
          cases hcmd : commandOf (fillBuffer buffer bytes) with
          | none => exact .inl ⟨rfl, rfl⟩
          | some cmd => exact .inr ⟨c, cmd, m, rfl, hready.2, hkey, rfl, .inl rfl, rfl⟩
        | some cmd =>
          have hcmd := commandOf_fillBuffer hread (hnul (by rw [hread]; rfl)) buffer
          rw [hcmd]
          exact .inr ⟨c, cmd, _, rfl, hready.2, hkey, rfl, .inr rfl, rfl⟩

theorem Unanswered.append (h : Unanswered log k cmd)
    (hnew : new.filter (about k) = []) : Unanswered (log ++ new) k cmd := by
  rw [Unanswered, filter_append, h, hnew]
  rfl

theorem Unanswered.mem (h : Unanswered log k cmd) : .read k cmd ∈ log := by
  have hmem := mem_singleton_self (Event.read k cmd)
  rw [← h] at hmem
  exact (mem_filter.1 hmem).1

theorem Inv.mainStep {s s' : State} (h : Inv s) (hs : s.mainStep ok broken = some s') : Inv s' := by
  rw [State.mainStep] at hs
  cases h with
  | booting idle flag main book =>
    rcases main with hm | ⟨pc, hm, hstage⟩
    · rw [hm] at hs
      cases hs
      exact .booting idle flag (.inr ⟨_, rfl, Stage.first none _⟩) book
    simp only [hm] at hs
    have hmove := @downloadEntry_move _ _ _ ok broken s.manager flag hstage
    generalize downloadEntry pc ok broken s.manager = r at hs hmove
    cases hmove with
    | silent hstage' =>
      cases hs
      exact .booting idle flag (.inr ⟨_, rfl, hstage'⟩) book
    | noted he hstage' =>
      cases hs
      exact .booting idle flag (.inr ⟨_, rfl, hstage'⟩) (Book.note book he)
    | dumping ho => cases ho
    | answering ho => cases ho
    | failing =>
      cases hs
      exact .booting idle flag (.inl rfl) book
    | ending =>
      cases hs
      have hdone : Event.downloaded ∈ s.manager.log :=
        (hstage.finished rfl).subset (mem_cons_of_mem _ mem_cons_self)
      exact .resting idle flag rfl hdone book
  | resting idle flag main => rw [main] at hs; cases hs
  | serving serving => rw [serving.main] at hs; cases hs
  | leaving main => rw [main] at hs; cases hs

theorem Inv.dispatch {s : State} (hmain : s.main = .bootcomp) (flag : s.manager.flag = only none)
    (done : .downloaded ∈ s.manager.log) (book : s.Book fun _ _ => False)
    (hc : s.manager.clients[i]? = some c) (htype : c.type = .wcnd) (hkey : c.key = some c.conn)
    (hm' : m' = s.manager ∨ m' = s.manager.note (.read c.conn cmd)) (ready : List Nat)
    (buffer : List Char) :
    Inv ⟨m'.setFlag cmd true, s.main, .entry (.test .stopFirst) ready i buffer, s.accepted⟩ := by
  have hmem := mem_of_getElem? hc
  have hnone : s.manager.log.filter (about c.conn) = [] :=
    Book.untouched book hmem htype hkey fun _ => id
  rcases hm' with rfl | rfl
  · apply @Inv.serving _ cmd c (.test .stopFirst)
    · refine ⟨hmain, ⟨ready, i, buffer, rfl, hc⟩, htype, hkey, setFlag_none _ flag cmd,
        s.manager.log, [], (append_nil _).symm, done, Stage.first _ _, ?_⟩
      intro hread
      have hin : Event.read c.conn cmd ∈ s.manager.log.filter (about c.conn) :=
        mem_filter.2 ⟨hread, decide_eq_true rfl⟩
      rw [hnone] at hin
      cases hin
    · exact Book.mono book fun _ _ => False.elim
  · apply @Inv.serving _ cmd c (.test .stopFirst)
    · exact ⟨hmain, ⟨ready, i, buffer, rfl, hc⟩, htype, hkey, setFlag_none _ flag cmd,
        _, [], (append_nil _).symm, mem_append_left _ done, Stage.first _ _,
        fun _ => ⟨_, rfl⟩⟩
    apply Book.mono (Book.noteRead book hmem hkey cmd)
    rintro k cmd' (hw | ⟨rfl, rfl⟩)
    · exact hw.elim
    refine ⟨rfl, rfl, ?_⟩
    have hfilter : [Event.read c.conn cmd'].filter (about c.conn) = [.read c.conn cmd'] := by
      simp [about]
    have hlog : (((s.manager.note (.read c.conn cmd')).setFlag cmd' true).log) =
        s.manager.log ++ [.read c.conn cmd'] := rfl
    rw [Unanswered, hlog, filter_append, hnone, hfilter]
    rfl

theorem Stage.complete (h : Stage (some cmd) (.notify c) after) (hc : c.command = cmd)
    (hdone : Event.downloaded ∈ before) : Complete cmd before after := by
  subst hc
  have hpath := h.path
  cases c with
  | stopFirst => trivial
  | startFirst => exact mem_append_left _ hdone
  | startLast => exact absurd hpath (by decide)
  | _ => exact h.finished rfl

theorem Serving.listen {s s' : State} (h : Serving s cmd c pc)
    (book : s.Book fun k cmd' => k = c.conn ∧ cmd' = cmd ∧ Unanswered s.manager.log k cmd)
    (hok : Ok s (.listen ok broken bytes)) (hs : s.listenStep ok broken bytes = some s') :
    Inv s' := by
  obtain ⟨ready, i, buffer, hl, hc⟩ := h.slot
  obtain ⟨before, after, hlog, hdone, hstage, hfirst⟩ := h.log
  have hmem := mem_of_getElem? hc
  simp only [State.listenStep, hl] at hs
  simp only [Ok, hl, ListenerPc.ok, hc, bind_some] at hok
  have hmove := @downloadEntry_move _ _ _ ok broken s.manager h.flag hstage
  generalize downloadEntry pc ok broken s.manager = r at hs hmove
  cases hmove with
  | silent hstage' =>
    cases hs
    exact .serving ⟨h.main, ⟨ready, i, buffer, rfl, hc⟩, h.type, h.key, h.flag, before, after, hlog,
      hdone, hstage', hfirst⟩ book
  | @noted e _ _ he hstage' =>
    cases hs
    have hnew (k : Nat) : [e].filter (about k) = [] := by simp [he k]
    apply Inv.serving
    · refine ⟨h.main, ⟨ready, i, buffer, rfl, hc⟩, h.type, h.key, h.flag, before, after ++ [e], ?_,
        hdone, hstage', ?_⟩
      · rw [Manager.note, hlog, append_assoc]
      intro hread
      rcases mem_append.1 hread with hread | hread
      · exact hfirst hread
      · cases mem_singleton.1 hread
        have := he c.conn
        simp [about] at this
    · apply Book.mono (Book.note book he)
      rintro k cmd' ⟨rfl, rfl, hw⟩
      exact ⟨rfl, rfl, hw.append (hnew _)⟩
  | dumping _ hstage' =>
    cases hs
    have hne : c.type ≠ .slog := by
      rw [h.type]
      decide
    have hnew : (sentAll s.manager.clients "WCN-EXTERNAL-DUMP" .slog broken).filter
        (about c.conn) = [] := by
      rw [filter_sentAll book.distinct, slot?_of_mem book.distinct hmem h.key, bind_some,
        WcnClient.written_of_ne hne]
      rfl
    apply Inv.serving
    · refine ⟨h.main, ⟨ready, i, buffer, rfl, ?_⟩, h.type, h.key, h.flag, before,
        after ++ sentAll s.manager.clients "WCN-EXTERNAL-DUMP" .slog broken, ?_, hdone,
        hstage'.append, ?_⟩
      · rw [Manager.sendNotifyToClient, getElem?_map, hc, map_some, WcnClient.afterNotify_of_ne hne]
      · rw [Manager.sendNotifyToClient, hlog, append_assoc]
        rfl
      intro hread
      rcases mem_append.1 hread with hread | hread
      · exact hfirst hread
      · exact absurd hread Book.not_read_sentAll
    · apply Book.mono (Book.notifySlog book _ broken)
      rintro k cmd' ⟨rfl, rfl, hw⟩
      exact ⟨rfl, rfl, hw.append hnew⟩
  | @answering ch ho =>
    cases hs
    have hch : ch.command = cmd := (Option.some.inj ho).symm
    apply Inv.leaving
    · exact h.main
    · rw [Manager.sendNotifyToClient, hlog, append_assoc]
      exact mem_append_left _ hdone
    · exact ⟨_, ready, i, buffer, rfl, .clear (hch ▸ h.flag)⟩
    rw [hch]
    apply Book.notifyWcnd book broken cmd
    rintro k cmd' ⟨rfl, rfl, hw⟩
    obtain ⟨first, rfl⟩ := hfirst hw.mem
    have hdone' : Event.downloaded ∈ first := by
      rcases mem_append.1 hdone with hd | hd
      · exact hd
      · cases mem_singleton.1 hd
    obtain ⟨fd, hfd, -⟩ := WcnClient.key_eq_some h.key
    refine ⟨rfl, hw, ⟨first, after, ?_, hstage.complete hch hdone'⟩, c, hmem, h.type, h.key, ?_⟩
    · rw [hlog, append_assoc]
      rfl
    · rw [WcnClient.written, hfd]
      exact if_pos ⟨h.type, hok.2 fd hfd⟩
  | failing hfail =>
    have := hok.1 rfl
    rw [hfail] at this
    cases this
  | ending ho => cases ho

theorem Inv.listenStep (h : Inv s) (hok : Ok s (.listen ok broken bytes))
    (hs : s.listenStep ok broken bytes = some s') : Inv s' := by
  cases h with
  | booting idle flag main book =>
    cases hl : s.listener with
    | select => rw [State.listenStep, hl] at hs; cases hs
    | entry pc ready i buffer => rw [hl] at idle; cases idle
    | scan ready i buffer =>
      simp only [Ok, hl, ListenerPc.ok] at hok
      rw [State.listenStep, hl] at hs
      cases hs
      rcases @scanSlot_cases bytes ready i buffer s.manager hok.2 with
        ⟨hidle, hm⟩ | ⟨c, cmd, m', -, -, -, hcmd, -, -⟩
      · rw [hm]
        exact .booting hidle flag main book
      have hboot := hok.1 (by rw [hcmd]; rfl)
      rcases main with hm | ⟨pc, hm, -⟩
      · rw [hm] at hboot; cases hboot
      · rw [hm] at hboot; cases hboot
  | resting idle flag main done book =>
    cases hl : s.listener with
    | select => rw [State.listenStep, hl] at hs; cases hs
    | entry pc ready i buffer => rw [hl] at idle; cases idle
    | scan ready i buffer =>
      simp only [Ok, hl, ListenerPc.ok] at hok
      rw [State.listenStep, hl] at hs
      cases hs
      rcases @scanSlot_cases bytes ready i buffer s.manager hok.2 with
        ⟨hidle, hm⟩ | ⟨c, cmd, m', hc, htype, hkey, -, hm', hr⟩
      · rw [hm]
        exact .resting hidle flag main done book
      · rw [hr]
        exact .dispatch main flag done book hc htype hkey hm' ready _
  | serving serving book => exact serving.listen book hok hs
  | leaving main done entry book =>
    obtain ⟨pc, ready, i, buffer, hl, hleaving⟩ := entry
    obtain ⟨g, m', hr, hclients, hlog, hnext⟩ := @downloadEntry_leaving _ ok broken _ hleaving
    have hbook : Download.Book m'.clients m'.log s.accepted fun _ _ => False := by
      rw [hclients, hlog]
      exact book
    rw [State.listenStep, hl] at hs
    simp only [hr] at hs
    rcases hnext with ⟨rfl, hflag⟩ | ⟨pc', rfl, hleaving'⟩
    · cases hs
      exact .resting rfl hflag main (hlog ▸ done) hbook
    · cases hs
      exact .leaving main (hlog ▸ done) ⟨pc', ready, i, buffer, rfl, hleaving'⟩ hbook

theorem Inv.acceptStep (h : Inv s) (hok : Ok s (.accept fd type))
    (hs : s.acceptStep fd type = some s') : Inv s' := by
  obtain ⟨clients, hclients⟩ := isSome_iff_exists.1 hok
  rw [State.acceptStep] at hs
  split at hs
  · cases hs
  simp only [hclients, getD_some] at hs
  cases hs
  have hbook {waiting : Nat → Command → Prop} (book : s.Book waiting) :
      Download.Book clients s.manager.log (s.accepted + 1) waiting := by
    rcases storeClientFd_cases hclients with rfl | ⟨pre, a, post, hold, rfl, -⟩
    · refine ⟨book.distinct, fun k hk => Nat.lt_succ_of_lt (book.bound k hk),
        fun k hk => book.fresh k (Nat.le_of_succ_le hk), book.quiet, book.read⟩
    · exact Book.store book hold rfl
  cases h with
  | booting idle flag main book => exact .booting idle flag main (hbook book)
  | resting idle flag main done book => exact .resting idle flag main done (hbook book)
  | serving serving book =>
    obtain ⟨ready, i, buffer, hl, hc⟩ := serving.slot
    obtain ⟨fd', hfd', -⟩ := WcnClient.key_eq_some serving.key
    have hslot := getElem?_storeClientFd hclients hc (by simp [hfd']) serving.type
    exact .serving ⟨serving.main, ⟨ready, i, buffer, hl, hslot⟩, serving.type, serving.key,
      serving.flag, serving.log⟩ (hbook book)
  | leaving main done entry book => exact .leaving main done entry (hbook book)

theorem Inv.select (h : Inv s) (hs : s.step (.select ready) = some s') : Inv s' := by
  rw [State.step] at hs
  split at hs
  case h_1 hl =>
    cases hs
    cases h with
    | booting idle flag main book => exact .booting rfl flag main book
    | resting idle flag main done book => exact .resting rfl flag main done book
    | serving serving =>
      obtain ⟨_, _, _, he, -⟩ := serving.slot
      cases hl.symm.trans he
    | leaving main done entry =>
      obtain ⟨_, _, _, _, he, -⟩ := entry
      cases hl.symm.trans he
  case h_2 => cases hs

theorem Inv.step (h : Inv s) (hok : Ok s a) (hs : s.step a = some s') : Inv s' := by
  cases a with
  | main ok broken => exact h.mainStep hs
  | select ready => exact h.select hs
  | listen ok broken bytes => exact h.listenStep hok hs
  | accept fd type => exact h.acceptStep hok hs

theorem inv_of_run (h : Inv s) (hr : Run (Guarded Ok State.step) s acts t) : Inv t := by
  induction hr with
  | nil => exact h
  | snoc _ hstep ih => exact ih.step hstep.2 hstep.1

/-- How many steps of `download_entry` are left at most when the device does what it is asked. -/
def Pc.rank : Pc → Nat
  | .test .stopFirst => 26
  | .notify .stopFirst => 25
  | .clear .stopFirst => 24
  | .test .startFirst => 23
  | .notify .startFirst => 22
  | .clear .startFirst => 21
  | .rebootTest => 20
  | .powerOff => 19
  | .powerOn => 18
  | .openUart => 17
  | .connect => 16
  | .fdl => 15
  | .dumpTest => 14
  | .dumpStart => 13
  | .dumpMem => 12
  | .dumpWait => 11
  | .images => 10
  | .test .dumpLast => 9
  | .notify .dumpLast => 8
  | .clear .dumpLast => 7
  | .test .rebootLast => 6
  | .notify .rebootLast => 5
  | .clear .rebootLast => 4
  | .test .startLast => 3
  | .notify .startLast => 2
  | .clear .startLast => 1

theorem downloadEntry_rank (pc : Pc) (m : Manager) :
    (∃ b m', downloadEntry pc true [] m = (.ret b, m')) ∨
      ∃ pc' m', downloadEntry pc true [] m = (.pc pc', m') ∧ pc'.rank < pc.rank := by
  have hpass (c : Check) : c.pass = .ret true ∨ ∃ pc', c.pass = .pc pc' ∧
      pc'.rank < (Pc.test c).rank := by
    cases c with
    | startLast => exact .inl rfl
    | _ => exact .inr ⟨_, rfl, by decide⟩
  cases pc with
  | test c =>
    rw [downloadEntry]
    split
    · refine .inr ⟨_, _, rfl, ?_⟩
      cases c <;> decide
    · rcases hpass c with he | ⟨pc', he, hlt⟩
      · exact .inl ⟨_, _, by rw [he]⟩
      · exact .inr ⟨pc', _, by rw [he], hlt⟩
  | notify c =>
    refine .inr ⟨_, _, rfl, ?_⟩
    cases c <;> decide
  | clear c =>
    cases c with
    | dumpLast => exact .inr ⟨_, _, rfl, by decide⟩
    | rebootLast => exact .inr ⟨_, _, rfl, by decide⟩
    | _ => exact .inl ⟨_, _, rfl⟩
  | rebootTest =>
    refine .inr ⟨_, _, rfl, ?_⟩
    split <;> decide
  | dumpTest =>
    refine .inr ⟨_, _, rfl, ?_⟩
    split <;> decide
  | _ => exact .inr ⟨_, _, rfl, by decide⟩

theorem log_downloadEntry (pc : Pc) (ok : Bool) (broken : List Nat) (m : Manager) :
    ∃ new, (downloadEntry pc ok broken m).2.log = m.log ++ new := by
  cases pc with
  | notify c => exact ⟨_, rfl⟩
  | powerOn => exact ⟨_, rfl⟩
  | dumpStart => exact ⟨_, rfl⟩
  | dumpWait =>
    cases ok with
    | true => exact ⟨_, rfl⟩
    | false => exact ⟨[], (append_nil _).symm⟩
  | images =>
    cases ok with
    | true => exact ⟨_, rfl⟩
    | false => exact ⟨[], (append_nil _).symm⟩
  | _ => exact ⟨[], (append_nil _).symm⟩

theorem entry_returns (hrun : Run (Guarded Ok State.step) s₀ acts s)
    (hl : s.listener = .entry pc ready i buffer) (he : e ∈ s.manager.log) :
    ∃ more t, Run (Guarded Ok State.step) s₀ (acts ++ more) t ∧ t.listener.idle = true ∧
      e ∈ t.manager.log := by
  induction hn : pc.rank using Nat.strong_induction_on generalizing acts s pc with
  | _ n ih =>
    have hok : Ok s (.listen true [] []) := by
      simp [Ok, hl, ListenerPc.ok]
    have hlog : e ∈ (downloadEntry pc true [] s.manager).2.log := by
      obtain ⟨new, hnew⟩ := log_downloadEntry pc true [] s.manager
      rw [hnew]
      exact mem_append_left _ he
    rcases downloadEntry_rank pc s.manager with ⟨b, m', hr⟩ | ⟨pc', m', hr, hlt⟩
    · have hstep : s.step (.listen true [] []) =
          some ⟨m', s.main, .scan ready (i + 1) buffer, s.accepted⟩ := by
        simp only [State.step, State.listenStep, hl, hr]
      rw [hr] at hlog
      exact ⟨[.listen true [] []], _, .snoc hrun ⟨hstep, hok⟩, rfl, hlog⟩
    have hstep : s.step (.listen true [] []) =
        some ⟨m', s.main, .entry pc' ready i buffer, s.accepted⟩ := by
      simp only [State.step, State.listenStep, hl, hr]
    rw [hr] at hlog
    obtain ⟨more, t, hrun', hidle, hmem⟩ :=
      ih pc'.rank (hn ▸ hlt) (.snoc hrun ⟨hstep, hok⟩) rfl hlog rfl
    refine ⟨.listen true [] [] :: more, t, ?_, hidle, hmem⟩
    rwa [append_assoc] at hrun'

def State.overlap (s : State) : Bool :=
  match s.main, s.listener with
  | .entry p, .entry q _ _ _ => p.onDevice && q.onDevice
  | _, _ => false

theorem Inv.overlap (h : Inv s) : s.overlap = false := by
  rw [State.overlap]
  cases h with
  | booting idle =>
    split
    case h_1 hm hl => rw [hl] at idle; cases idle
    case h_2 => rfl
  | resting idle flag main => rw [main]
  | serving serving => rw [serving.main]
  | leaving main => rw [main]

theorem Inv.answered (h : Inv s) (hread : .read k cmd ∈ s.manager.log) :
    Answered s.manager.log k cmd ∨ Unanswered s.manager.log k cmd ∧
      ∃ pc ready i buffer, s.listener = .entry pc ready i buffer := by
  cases h with
  | booting _ _ _ book => exact .inl ((book.read k cmd hread).resolve_right id).1
  | resting _ _ _ _ book => exact .inl ((book.read k cmd hread).resolve_right id).1
  | leaving _ _ _ book => exact .inl ((book.read k cmd hread).resolve_right id).1
  | serving serving book =>
    obtain ⟨ready, i, buffer, hl, -⟩ := serving.slot
    rcases book.read k cmd hread with ⟨ha, -⟩ | ⟨rfl, rfl, hw⟩
    · exact .inl ha
    · exact .inr ⟨hw, _, ready, i, buffer, hl⟩

/-- When commands are read only after the initial download, the downloads never overlap, and every
command is answered once, with its own response, when its operation is complete. -/
theorem commands_served {s : State} (h : Run (Guarded Ok State.step) State.init acts s) :
    s.overlap = false ∧ ∀ k cmd, .read k cmd ∈ s.manager.log →
      Answered s.manager.log k cmd ∨
        Unanswered s.manager.log k cmd ∧
          (∃ pc ready i buffer, s.listener = .entry pc ready i buffer) ∧
          ∃ more t, Run (Guarded Ok State.step) State.init (acts ++ more) t ∧
            Answered t.manager.log k cmd := by
  have hinv := inv_of_run inv_init h
  refine ⟨hinv.overlap, ?_⟩
  intro k cmd hread
  refine (hinv.answered hread).imp_right ?_
  rintro ⟨hun, pc, ready, i, buffer, hl⟩
  refine ⟨hun, ⟨pc, ready, i, buffer, hl⟩, ?_⟩
  obtain ⟨more, t, hrun, hidle, hmem⟩ := entry_returns h hl hread
  refine ⟨more, t, hrun, ?_⟩
  rcases (inv_of_run inv_init hrun).answered hmem with ha | ⟨-, _, _, _, _, he⟩
  · exact ha
  · rw [he] at hidle
    cases hidle

def rebootRun : List Act :=
  List.replicate 12 (.main true []) ++ [.accept 5 .wcnd, .select [5],
    .listen true [] "rebootwcn\x00".toList] ++ List.replicate 15 (.listen true [] [])

theorem reboot_served :
    ∃ s, Run (Guarded Ok State.step) State.init rebootRun s ∧ s.overlap = false ∧
      Answered s.manager.log 0 .reboot := by
  refine exists_guarded_imp (P := fun s => .read 0 .reboot ∈ s.manager.log ∧
    s.listener.idle = true) ?_ (by decide +kernel)
  rintro s hrun ⟨hread, hidle⟩
  obtain ⟨hoverlap, hserved⟩ := commands_served hrun
  refine ⟨hoverlap, (hserved 0 .reboot hread).resolve_right ?_⟩
  rintro ⟨-, ⟨_, _, _, _, hl⟩, -⟩
  rw [hl] at hidle
  cases hidle

def earlyCommand (steps : Nat) (text : String) (rest : Nat) : List Act :=
  .accept 5 .wcnd :: List.replicate steps (.main true []) ++
    [.select [5], .listen true [] (text.toList ++ ['\x00'])] ++
    List.replicate rest (.listen true [] [])

/-- A reboot command during the initial download starts a second download on the device, and a start
command is answered before any download is complete. -/
theorem commands_during_download :
    (∃ s, Run (Next State.step) State.init (earlyCommand 3 "rebootwcn" 3) s ∧ s.overlap = true) ∧
      ∃ s, Run (Next State.step) State.init (earlyCommand 4 "startwcn" 3) s ∧
        s.manager.log = [.powered, .read 0 .start, .sent 0 "startwcn-ok"] := by
  constructor
  · exact exists_run_of_exec (by decide +kernel)
  · exact exists_run_of_exec (by decide +kernel)

end SprdVendor.Download
