import SprdVendor.Lib.Run

namespace SprdVendor.Agps
open Lib List Option

variable {s : AtChannel}

abbrev Line := List Char

def strStartsWith (line prefixed : Line) : Bool := prefixed.isPrefixOf line

def finalResponsesError : List Line :=
  ["ERROR".toList, "+CMS ERROR:".toList, "+CME ERROR:".toList, "NO CARRIER".toList,
    "NO ANSWER".toList, "NO DIALTONE".toList]

def finalResponsesSuccess : List Line := ["OK".toList, "CONNECT".toList]

def isFinalResponseError (line : Line) : Bool := finalResponsesError.any (strStartsWith line)

def isFinalResponseSuccess (line : Line) : Bool := finalResponsesSuccess.any (strStartsWith line)

def isFinalResponse (line : Line) : Bool := isFinalResponseSuccess line || isFinalResponseError line

/-- Where a thread is in a synchronous `atc_send`; `timed` says that its `timeout_ms` is not 0. -/
inductive Pc where
  | idle
  /-- It holds `s_command_mutex` and is about to write. -/
  | locked (timed : Bool)
  /-- It has written its command and is about to take `response_cond_mutex`. -/
  | sent (cmd : Nat) (timed : Bool)
  /-- It waits on `response_cond`. -/
  | waiting (cmd : Nat) (timed signalled : Bool)
  deriving DecidableEq

structure AtChannel where
  /-- The owner of `s_command_mutex`. -/
  commandMutex : Option Nat
  pc : Nat → Pc
  finalResponse : Option Line
  success : Bool
  /-- A final response that the reader has noted in `success` and has yet to store. -/
  reader : Option Line
  /-- The number of commands written; a command is named by its place among them. -/
  written : Nat
  /-- The commands that the modem has still to answer. -/
  outstanding : List Nat
  /-- What the modem has sent and the reader has not read. -/
  lines : List Line
  /-- The final response of the modem to a command. -/
  answerOf : Nat → Option Line
  /-- The commands of the synchronous calls that have returned, and their return values; there is no
  command if it could not be written. -/
  returned : List (Option Nat × Int)

inductive Act where
  | lock (i : Nat) (timed : Bool)
  /-- `writeline` succeeds, or fails with -1, -2 or -3. -/
  | write (i : Nat) (result : Int)
  | writeAsync (result : Int)
  | check (i : Nat)
  | wake (i : Nat)
  | timeOut (i : Nat)
  /-- The modem answers its first command with a final response. -/
  | answer (line : Line)
  | unsolicited (line : Line)
  | read
  | store

namespace AtChannel

def init : AtChannel where
  commandMutex := none
  pc := fun _ => .idle
  finalResponse := none
  success := false
  reader := none
  written := 0
  outstanding := []
  lines := []
  answerOf := fun _ => none
  returned := []

def setPc (s : AtChannel) (i : Nat) (p : Pc) : AtChannel := { s with pc := Function.update s.pc i p }

def leave (s : AtChannel) (i : Nat) (cmd : Option Nat) (ret : Int) : AtChannel :=
  { s.setPc i .idle with commandMutex := none, returned := s.returned ++ [(cmd, ret)] }

def send (s : AtChannel) : AtChannel :=
  { s with written := s.written + 1, outstanding := s.outstanding ++ [s.written] }

def take (s : AtChannel) (i cmd : Nat) : AtChannel :=
  leave { s with finalResponse := none } i (some cmd) (if s.success then 0 else -3)

def signal : Pc → Pc
  | .waiting cmd timed _ => .waiting cmd timed true
  | p => p

/-- The first half of `processLine`, and the second half of `handleFinalResponse`. -/
def processLine (s : AtChannel) (line : Line) : AtChannel :=
  if isFinalResponseSuccess line then { s with success := true, reader := some line }
  else if isFinalResponseError line then { s with success := false, reader := some line }
  else s

def handleFinalResponse (s : AtChannel) (line : Line) : AtChannel :=
  { s with finalResponse := some line, reader := none, pc := fun i => signal (s.pc i) }

def next (s : AtChannel) : Act → Option AtChannel
  | .lock i timed =>
    if s.pc i = .idle ∧ s.commandMutex = none then
      some { s.setPc i (.locked timed) with commandMutex := some i }
    else none
  | .write i result =>
    match s.pc i with
    | .locked timed =>
      if result < 0 then some (s.leave i none result)
      else some (s.send.setPc i (.sent s.written timed))
    | _ => none
  | .writeAsync result => if result < 0 then some s else some s.send
  | .check i =>
    match s.pc i with
    | .sent cmd timed =>
      if s.finalResponse.isSome then some (s.take i cmd)
      else some (s.setPc i (.waiting cmd timed false))
    | _ => none
  | .wake i =>
    match s.pc i with
    | .waiting cmd _ _ => some (s.take i cmd)
    | _ => none
  | .timeOut i =>
    match s.pc i with
    | .waiting cmd true _ => some (s.leave i (some cmd) (-2))
    | _ => none
  | .answer line =>
    match s.outstanding with
    | [] => none
    | cmd :: rest =>
      if isFinalResponse line then
        some { s with
          outstanding := rest
          lines := s.lines ++ [line]
          answerOf := Function.update s.answerOf cmd (some line) }
      else none
  | .unsolicited line =>
    if isFinalResponse line then none else some { s with lines := s.lines ++ [line] }
  | .read =>
    match s.lines, s.reader with
    | line :: rest, none => some (processLine { s with lines := rest } line)
    | _, _ => none
  | .store =>
    match s.reader with
    | some line => some (s.handleFinalResponse line)
    | none => none

/-- A synchronous call that returns 0 or -3 returns the verdict of the final response to its own
command. -/
def Right (s : AtChannel) : Prop :=
  ∀ p ∈ s.returned, p.2 = 0 ∨ p.2 = -3 →
    ∃ cmd line, p.1 = some cmd ∧ s.answerOf cmd = some line ∧
      (p.2 = 0 ↔ isFinalResponseSuccess line = true)

def finals (s : AtChannel) : List Line := s.lines.filter isFinalResponse

def command : Pc → Option Nat
  | .sent cmd _ => some cmd
  | .waiting cmd _ _ => some cmd
  | _ => none

/-- A synchronous command is written only when nothing else is under way and no other one before its
call has returned, no wait ends without a signal, and no write fails with the value of an error
response. -/
def stepOk (s : AtChannel) : Act → Bool
  | .write _ result =>
    (result < 0 || (s.finalResponse.isNone && s.outstanding.isEmpty && s.finals.isEmpty &&
      s.reader.isNone)) && result ≠ -3
  | .writeAsync result =>
    result < 0 || s.commandMutex.all fun i => (command (s.pc i)).isNone
  | .wake i =>
    match s.pc i with
    | .waiting _ _ signalled => signalled
    | _ => true
  | _ => true

def StepOk (s : AtChannel) (a : Act) : Prop := s.stepOk a = true

inductive Stage (s : AtChannel) (cmd : Nat) : Prop where
  | asked : s.outstanding = [cmd] → s.finals = [] → s.reader = none → s.finalResponse = none →
      Stage s cmd
  | answered : s.answerOf cmd = some line → s.outstanding = [] → s.finals = [line] →
      s.reader = none → s.finalResponse = none → Stage s cmd
  | noted : s.answerOf cmd = some line → s.outstanding = [] → s.finals = [] →
      s.reader = some line → s.finalResponse = none →
      s.success = isFinalResponseSuccess line → Stage s cmd
  | stored : s.answerOf cmd = some line → s.outstanding = [] → s.finals = [] →
      s.reader = none → s.finalResponse = some line →
      s.success = isFinalResponseSuccess line → Stage s cmd

structure Books (s : AtChannel) : Prop where
  fresh : ∀ n, s.written ≤ n → s.answerOf n = none
  owed : ∀ n ∈ s.outstanding, n < s.written ∧ s.answerOf n = none
  nodup : s.outstanding.Nodup
  right : s.Right

structure Flow (s : AtChannel) : Prop extends s.Books where
  owner : ∀ i, s.pc i ≠ .idle → s.commandMutex = some i
  stage : ∀ i cmd, command (s.pc i) = some cmd → s.Stage cmd
  signalled : ∀ i cmd timed sig, s.pc i = .waiting cmd timed sig → sig = s.finalResponse.isSome

theorem Stage.stored_of_isSome (h : s.Stage cmd)
    (hf : s.finalResponse.isSome = true) :
    ∃ line, s.answerOf cmd = some line ∧ s.success = isFinalResponseSuccess line := by
  cases h with
  | stored ha _ _ _ _ hs => exact ⟨_, ha, hs⟩
  | asked _ _ _ hn =>
    rw [hn] at hf
    cases hf
  | answered _ _ _ _ hn =>
    rw [hn] at hf
    cases hf
  | noted _ _ _ _ hn _ =>
    rw [hn] at hf
    cases hf

theorem setPc_self (s : AtChannel) (i : Nat) (p : Pc) : (s.setPc i p).pc i = p := by
  simp [setPc]

theorem setPc_ne (s : AtChannel) (p : Pc) (hj : j ≠ i) : (s.setPc i p).pc j = s.pc j := by
  simp [setPc, hj]

theorem Books.flow_of_idle (h : s.Books) (hidle : ∀ i, s.pc i = .idle) : s.Flow := by
  refine ⟨h, ?_, ?_, ?_⟩
  · intro i hi
    exact absurd (hidle i) hi
  · intro i cmd hi
    rw [hidle i] at hi
    cases hi
  · intro i cmd timed sig hi
    rw [hidle i] at hi
    cases hi

theorem Books.flow_of_only (h : s.Books) (hm : s.commandMutex = some i)
    (hidle : ∀ j, j ≠ i → s.pc j = .idle)
    (hstage : ∀ cmd, command (s.pc i) = some cmd → s.Stage cmd)
    (hsig : ∀ cmd timed sig, s.pc i = .waiting cmd timed sig → sig = s.finalResponse.isSome) :
    s.Flow := by
  refine ⟨h, ?_, ?_, ?_⟩
  · intro j hj
    by_cases he : j = i
    · rw [he, hm]
    · exact absurd (hidle j he) hj
  · intro j cmd hj
    by_cases he : j = i
    · exact hstage cmd (he ▸ hj)
    · rw [hidle j he] at hj
      cases hj
  intro j cmd timed sig hj
  by_cases he : j = i
  · exact hsig cmd timed sig (he ▸ hj)
  · rw [hidle j he] at hj
    cases hj

section flow

variable (h : s.Flow)
include h

theorem Flow.others_idle (hi : s.pc i ≠ .idle) (hj : j ≠ i) : s.pc j = .idle := by
  by_contra hne
  have hij := (h.owner i hi).symm.trans (h.owner j hne)
  exact hj (Option.some.inj hij).symm

theorem Flow.setPc_idle (hi : s.pc i ≠ .idle) (p : Pc) (hj : j ≠ i) :
    (s.setPc i p).pc j = .idle :=
  (s.setPc_ne p hj).trans (h.others_idle hi hj)

theorem Flow.leave (hi : s.pc i ≠ .idle) (f : Option Line)
    (hret : ret = 0 ∨ ret = -3 → ∃ cmd line, c = some cmd ∧ s.answerOf cmd = some line ∧
      (ret = 0 ↔ isFinalResponseSuccess line = true)) :
    Flow (AtChannel.leave { s with finalResponse := f } i c ret) := by
  apply Books.flow_of_idle
  · refine ⟨h.fresh, h.owed, h.nodup, ?_⟩
    intro p hp
    obtain hp | hp := mem_append.mp hp
    · exact h.right p hp
    · obtain rfl := mem_singleton.mp hp
      exact hret
  intro j
  by_cases hj : j = i
  · rw [hj]
    exact s.setPc_self i .idle
  · exact h.setPc_idle hi .idle hj

theorem Flow.take (hc : command (s.pc i) = some cmd) (hf : s.finalResponse.isSome = true) :
    (s.take i cmd).Flow := by
  have hi : s.pc i ≠ .idle := by
    intro he
    rw [he] at hc
    cases hc
  obtain ⟨line, ha, hs⟩ := (h.stage i cmd hc).stored_of_isSome hf
  apply h.leave hi
  intro _
  refine ⟨cmd, line, rfl, ha, ?_⟩
  rw [hs]
  cases isFinalResponseSuccess line with
  | _ => simp

theorem Flow.lock (hm : s.commandMutex = none) (timed : Bool) :
    Flow { s.setPc i (.locked timed) with commandMutex := some i } := by
  have hpi := s.setPc_self i (.locked timed)
  refine Books.flow_of_only (i := i) ⟨h.fresh, h.owed, h.nodup, h.right⟩ rfl ?_ ?_ ?_
  · intro j hj
    refine (s.setPc_ne _ hj).trans ?_
    by_contra hne
    cases hm.symm.trans (h.owner j hne)
  · intro cmd hc
    cases (congrArg command hpi).symm.trans hc
  · intro cmd timed' sig hp
    cases hpi.symm.trans hp

theorem Flow.send : s.send.Books := by
  refine ⟨fun n hn => h.fresh n (Nat.le_of_succ_le hn), ?_, ?_, h.right⟩
  · intro n hn
    obtain hn | hn := mem_append.mp hn
    · obtain ⟨hlt, ha⟩ := h.owed n hn
      exact ⟨Nat.lt_succ_of_lt hlt, ha⟩
    · obtain rfl := mem_singleton.mp hn
      exact ⟨Nat.lt_succ_self _, h.fresh _ le_rfl⟩
  apply nodup_append.mpr
  refine ⟨h.nodup, nodup_singleton _, ?_⟩
  intro n hn m hm he
  obtain rfl := mem_singleton.mp hm
  exact absurd (h.owed n hn).1 (he ▸ lt_irrefl _)

theorem Flow.write (hi : s.pc i = .locked timed) (hf : s.finalResponse = none)
    (ho : s.outstanding = []) (hl : s.finals = []) (hr : s.reader = none) :
    Flow (s.send.setPc i (.sent s.written timed)) := by
  have hne : s.pc i ≠ .idle := fun he => by cases hi.symm.trans he
  have hpi := s.send.setPc_self i (.sent s.written timed)
  have hb := h.send
  refine Books.flow_of_only (i := i) ⟨hb.fresh, hb.owed, hb.nodup, hb.right⟩ (h.owner i hne)
    ?_ ?_ ?_
  · intro j hj
    exact h.setPc_idle hne (.sent s.written timed) hj
  · intro cmd hc
    cases (congrArg command hpi).symm.trans hc
    refine .asked ?_ hl hr hf
    exact congrArg (· ++ [s.written]) ho
  · intro cmd timed' sig hp
    cases hpi.symm.trans hp

theorem Flow.writeAsync (hc : ∀ i, command (s.pc i) = none) : s.send.Flow := by
  refine ⟨h.send, h.owner, ?_, h.signalled⟩
  intro i cmd hi
  cases (hc i).symm.trans hi

theorem Flow.wait (hi : s.pc i = .sent cmd timed) (hf : s.finalResponse = none) :
    Flow (s.setPc i (.waiting cmd timed false)) := by
  have hne : s.pc i ≠ .idle := fun he => by cases hi.symm.trans he
  have hpi := s.setPc_self i (.waiting cmd timed false)
  refine Books.flow_of_only (i := i) ⟨h.fresh, h.owed, h.nodup, h.right⟩ (h.owner i hne) ?_ ?_ ?_
  · intro j hj
    exact h.setPc_idle hne _ hj
  · intro cmd' hc
    cases (congrArg command hpi).symm.trans hc
    cases h.stage i cmd (congrArg command hi) with
    | asked ho hl hr hf => exact .asked ho hl hr hf
    | answered ha ho hl hr hf => exact .answered ha ho hl hr hf
    | noted ha ho hl hr hf hs => exact .noted ha ho hl hr hf hs
    | stored ha ho hl hr hf hs => exact .stored ha ho hl hr hf hs
  · intro cmd' timed' sig hp
    cases hpi.symm.trans hp
    exact (congrArg isSome hf).symm

theorem Flow.answer (ho : s.outstanding = n :: rest) (hline : isFinalResponse line = true) :
    Flow { s with
      outstanding := rest
      lines := s.lines ++ [line]
      answerOf := Function.update s.answerOf n (some line) } := by
  obtain ⟨hn, hrest⟩ := nodup_cons.mp (ho ▸ h.nodup)
  obtain ⟨hlt, hnone⟩ := h.owed n (ho ▸ mem_cons_self)
  have hother : ∀ m, m ≠ n → Function.update s.answerOf n (some line) m = s.answerOf m :=
    fun m hm => Function.update_of_ne hm _ _
  refine ⟨⟨?_, ?_, hrest, ?_⟩, h.owner, ?_, h.signalled⟩
  · intro m hm
    have hne : m ≠ n := fun he => absurd hlt (by rw [← he]; exact not_lt.mpr hm)
    exact (hother m hne).trans (h.fresh m hm)
  · intro m hm
    obtain ⟨hlt, ha⟩ := h.owed m (ho ▸ mem_cons_of_mem n hm)
    have hne : m ≠ n := fun he => hn (he ▸ hm)
    exact ⟨hlt, (hother m hne).trans ha⟩
  · intro p hp hret
    obtain ⟨cmd, l, hc, ha, hv⟩ := h.right p hp hret
    have hne : cmd ≠ n := fun he => by cases hnone.symm.trans (he ▸ ha)
    exact ⟨cmd, l, hc, (hother cmd hne).trans ha, hv⟩
  intro i cmd hi
  have hfin : (s.lines ++ [line]).filter isFinalResponse = s.finals ++ [line] := by
    rw [filter_append, filter_cons_of_pos hline]
    rfl
  cases h.stage i cmd hi with
  | asked ho' hl hr hf =>
    obtain ⟨rfl, rfl⟩ := cons.inj (ho.symm.trans ho')
    refine .answered (Function.update_self n _ _) rfl ?_ hr hf
    rw [finals, hfin, hl]
    rfl
  | answered _ ho' => cases ho.symm.trans ho'
  | noted _ ho' => cases ho.symm.trans ho'
  | stored _ ho' => cases ho.symm.trans ho'

theorem Flow.lines (ls : List Line) (hl : ls.filter isFinalResponse = s.finals) :
    Flow { s with lines := ls } := by
  refine ⟨⟨h.fresh, h.owed, h.nodup, h.right⟩, h.owner, ?_, h.signalled⟩
  intro i cmd hi
  cases h.stage i cmd hi with
  | asked ho hf hr hn => exact .asked ho (hl.trans hf) hr hn
  | answered ha ho hf hr hn => exact .answered ha ho (hl.trans hf) hr hn
  | noted ha ho hf hr hn hs => exact .noted ha ho (hl.trans hf) hr hn hs
  | stored ha ho hf hr hn hs => exact .stored ha ho (hl.trans hf) hr hn hs

theorem Flow.note (hl : s.lines = line :: rest)
    (hline : isFinalResponse line = true) (hv : v = isFinalResponseSuccess line) :
    Flow { s with lines := rest, success := v, reader := some line } := by
  have hfin : s.finals = line :: rest.filter isFinalResponse := by
    rw [finals, hl, filter_cons_of_pos hline]
  refine ⟨⟨h.fresh, h.owed, h.nodup, h.right⟩, h.owner, ?_, h.signalled⟩
  intro i cmd hi
  cases h.stage i cmd hi with
  | asked _ hf => cases hfin.symm.trans hf
  | answered ha ho hf _ hn =>
    obtain ⟨rfl, hrest⟩ := cons.inj (hfin.symm.trans hf)
    exact .noted ha ho hrest rfl hn hv
  | noted _ _ hf => cases hfin.symm.trans hf
  | stored _ _ hf => cases hfin.symm.trans hf

theorem Flow.store (hr : s.reader = some line) : (s.handleFinalResponse line).Flow := by
  have hcommand : ∀ p, command (signal p) = command p := by
    intro p
    cases p <;> rfl
  refine ⟨⟨h.fresh, h.owed, h.nodup, h.right⟩, ?_, ?_, ?_⟩
  · intro i hi
    apply h.owner i
    intro he
    apply hi
    exact congrArg signal he
  · intro i cmd hi
    cases h.stage i cmd ((hcommand _).symm.trans hi) with
    | noted ha ho hf hr' hn hs =>
      cases hr.symm.trans hr'
      exact .stored ha ho hf rfl rfl hs
    | asked _ _ hr' => cases hr.symm.trans hr'
    | answered _ _ _ hr' => cases hr.symm.trans hr'
    | stored _ _ _ hr' => cases hr.symm.trans hr'
  · intro i cmd timed sig hi
    have hsig : signal (s.pc i) = .waiting cmd timed sig := hi
    cases hp : s.pc i <;> rw [hp] at hsig <;> cases hsig
    rfl

end flow

theorem flow_init : init.Flow :=
  Books.flow_of_idle ⟨fun _ _ => rfl, forall_mem_nil _, nodup_nil, forall_mem_nil _⟩
    fun _ => rfl

theorem Flow.next {s t : AtChannel} (h : s.Flow) (hok : s.StepOk a) (hs : s.next a = some t) :
    t.Flow := by
  cases a with
  | lock i timed =>
    rw [AtChannel.next, Option.ite_none_right_eq_some] at hs
    obtain ⟨⟨-, hm⟩, ⟨⟩⟩ := hs
    exact h.lock hm timed
  | write i result =>
    rw [AtChannel.next] at hs
    split at hs
    · rename_i timed hi
      simp only [StepOk, stepOk, Bool.and_eq_true, Bool.or_eq_true, decide_eq_true_eq,
        Option.isNone_iff_eq_none, List.isEmpty_iff] at hok
      obtain ⟨hclear, hne⟩ := hok
      split at hs
      · rename_i hneg
        cases hs
        apply h.leave (fun he => by cases hi.symm.trans he) s.finalResponse
        rintro (rfl | rfl)
        · exact absurd hneg (lt_irrefl 0)
        · exact absurd rfl hne
      rename_i hpos
      cases hs
      obtain hneg | ⟨⟨⟨hf, ho⟩, hl⟩, hr⟩ := hclear
      · exact absurd hneg hpos
      · exact h.write hi hf ho hl hr
    · cases hs
  | writeAsync result =>
    rw [AtChannel.next] at hs
    split at hs
    · cases hs
      exact h
    rename_i hpos
    cases hs
    apply h.writeAsync
    intro i
    cases hc : command (s.pc i) with
    | none => rfl
    | some cmd =>
      have hi : s.pc i ≠ .idle := fun he => by cases (congrArg command he).symm.trans hc
      simp [StepOk, stepOk, hpos, h.owner i hi, hc] at hok
  | check i =>
    rw [AtChannel.next] at hs
    split at hs
    · rename_i cmd timed hi
      split at hs
      · rename_i hf
        cases hs
        exact h.take (congrArg command hi) hf
      · rename_i hf
        cases hs
        exact h.wait hi (Option.not_isSome_iff_eq_none.mp hf)
    · cases hs
  | wake i =>
    rw [AtChannel.next] at hs
    split at hs
    · rename_i cmd timed sig hi
      cases hs
      apply h.take (congrArg command hi)
      have hsig := h.signalled i cmd timed sig hi
      rw [StepOk, stepOk, hi] at hok
      exact hsig.symm.trans hok
    · cases hs
  | timeOut i =>
    rw [AtChannel.next] at hs
    split at hs
    · rename_i cmd sig hi
      cases hs
      apply h.leave (fun he => by cases hi.symm.trans he) s.finalResponse
      rintro (hret | hret)
      · cases hret
      · cases hret
    · cases hs
  | answer line =>
    rw [AtChannel.next] at hs
    split at hs
    · cases hs
    rename_i ho
    rw [Option.ite_none_right_eq_some] at hs
    obtain ⟨hline, ⟨⟩⟩ := hs
    exact h.answer ho hline
  | unsolicited line =>
    rw [AtChannel.next, Option.ite_none_left_eq_some] at hs
    obtain ⟨hline, ⟨⟩⟩ := hs
    apply h.lines
    rw [List.filter_append, List.filter_cons_of_neg hline, List.filter_nil, List.append_nil]
    rfl
  | read =>
    rw [AtChannel.next] at hs
    split at hs
    · rename_i line rest hl hr
      cases hs
      rw [processLine]
      split
      · rename_i hsucc
        refine h.note hl ?_ hsucc.symm
        rw [isFinalResponse, hsucc, Bool.true_or]
      rename_i hsucc
      split
      · rename_i herr
        refine h.note hl ?_ (Bool.not_eq_true _ ▸ hsucc).symm
        rw [isFinalResponse, herr, Bool.or_true]
      rename_i herr
      apply h.lines
      have hline : ¬ isFinalResponse line = true := by
        rw [isFinalResponse, Bool.or_eq_true, not_or]
        exact ⟨hsucc, herr⟩
      rw [finals, hl, List.filter_cons_of_neg hline]
    · cases hs
  | store =>
    rw [AtChannel.next] at hs
    split at hs
    · rename_i line hr
      cases hs
      exact h.store hr
    · cases hs

/-- Under these conditions a synchronous call that returns 0 or -3 returns the verdict of the final
response to its own command. -/
theorem verdict_right (hrun : Run (Guarded StepOk next) init as s) : s.Right := by
  have hflow : s.Flow := by
    refine hrun.invariant (I := fun _ s => s.Flow) flow_init ?_
    rintro _ a s t h ⟨hs, hok⟩
    exact h.next hok hs
  exact hflow.right

instance (s : AtChannel) (a : Act) : Decidable (s.StepOk a) :=
  inferInstanceAs (Decidable (_ = true))

/-- Two calls one after the other, the first one succeeds and the second one fails. -/
theorem verdict_right_twice : ∃ s, Run (Guarded StepOk next) init
    [.lock 1 true, .write 1 0, .check 1, .answer "OK".toList, .read, .store, .wake 1,
      .lock 2 false, .write 2 0, .answer "+CME ERROR: 3".toList, .read, .store, .check 2] s ∧
    s.returned = [(some 0, 0), (some 1, -3)] ∧ s.Right := by
  refine exists_guarded_imp (P := fun s => s.returned = [(some 0, 0), (some 1, -3)]) ?_
    (by decide)
  intro s hs hret
  exact ⟨hret, verdict_right hs⟩

theorem not_right (hret : (some cmd, -3) ∈ s.returned)
    (ha : s.answerOf cmd = some line) (hok : isFinalResponseSuccess line = true) : ¬ s.Right := by
  intro h
  obtain ⟨c, l, hc, hl, hv⟩ := h _ hret (.inr rfl)
  cases hc
  cases ha.symm.trans hl
  have hzero : (-3 : Int) = 0 := hv.mpr hok
  cases hzero

/-- The answer to an asynchronous command, and the late answer to a command that has timed out, are
taken for the answer to the next synchronous command. -/
theorem other_answer_taken :
    (∃ s, Run (Next next) init [.writeAsync 0, .answer "ERROR".toList, .read, .store, .lock 1 true,
      .write 1 0, .check 1, .answer "OK".toList] s ∧ ¬ s.Right) ∧
    (∃ s, Run (Next next) init [.lock 1 true, .write 1 0, .check 1, .timeOut 1,
      .answer "ERROR".toList, .read, .store, .lock 1 true, .write 1 0, .check 1,
      .answer "OK".toList] s ∧ ¬ s.Right) := by
  have hwrong (s : AtChannel)
      (h : (some 1, -3) ∈ s.returned ∧ s.answerOf 1 = some "OK".toList) : ¬ s.Right :=
    not_right h.1 h.2 (by decide)
  exact ⟨exists_run_imp (fun s _ => hwrong s) (by decide),
    exists_run_imp (fun s _ => hwrong s) (by decide)⟩

end AtChannel

end SprdVendor.Agps
