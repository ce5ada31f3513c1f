import SprdVendor.Lib.Run
import SprdVendor.Lib.Slots

namespace SprdVendor.Alarm
open Lib List

def daySecs : Int := 24 * 60 * 60
def weekSecs : Int := 7 * daySecs

/-- A second of the week, from Monday on. -/
abbrev WeekTime := Fin 604800

/-- A row of the alarm database; `dayofweek` is 0 for an alarm that rings once. -/
structure AlarmDb where
  id : Nat
  enable : Bool
  hour : Fin 24
  min : Fin 60
  dayofweek : Nat

/-- An `alarm_sec`; `day` is -1 for an alarm that rings once. -/
structure AlarmSec where
  secs : Int
  day : Int
  dbId : Nat
deriving DecidableEq

def AlarmDb.secsOfDay (a : AlarmDb) : Int := a.hour * 60 * 60 + a.min * 60

def checkAlarmDay (now : WeekTime) (secs : Int) : Nat :=
  let today : Int := (now.val % 86400 : Nat)
  let weekday := now.val / 86400 + if today - 40 > secs then 1 else 0
  if weekday = 7 then 0 else weekday

def AlarmDb.items (now : WeekTime) (a : AlarmDb) : List AlarmSec :=
  if a.enable = false then []
  else if a.dayofweek = 0 then
    [⟨a.secsOfDay + checkAlarmDay now a.secsOfDay * daySecs, -1, a.id⟩]
  else ((List.range 7).filter a.dayofweek.testBit).map fun dayth : Nat =>
    ⟨dayth * daySecs + a.secsOfDay, dayth, a.id⟩

/-- The list, the static flags of `get_latest_alarm_time` and `alarm_cur`. -/
structure Alarms where
  list : List AlarmSec
  firstRing : Bool
  firstAlarm : Bool
  cur : Option AlarmSec

/-- The time and the alarm of the delay file. -/
def addRingFileTime (db : List AlarmDb) (delay : Option (WeekTime × Nat)) : List AlarmSec :=
  (delay.filter fun r => db.any (·.id = r.2)).toList.map fun r =>
    ⟨r.1, (r.1.val / 86400 : Nat), r.2⟩

def creatAlarmSecList (db : List AlarmDb) (now : WeekTime) (delay : Option (WeekTime × Nat)) :
    Alarms :=
  ⟨db.flatMap (AlarmDb.items now) ++ addRingFileTime db delay, false, false, none⟩

/-- `update_alarm_sec_list`. -/
def updateAlarmSecList (l : List AlarmSec) (fired : Int) (now : WeekTime) (snooze : Int) :
    List AlarmSec :=
  modifyFirst (fun a => a.secs = fired) (fun a => { a with secs := now + snooze }) l

/-- The variables of the loop of `get_latest_alarm_time`. -/
structure Scan where
  min : Int
  cur : Option AlarmSec
  firstAlarm : Bool

def Scan.next (now : WeekTime) (s : Scan) (a : AlarmSec) : Scan :=
  let d := a.secs - now
  let graced := d < 0 ∧ ¬ (s.firstAlarm ∨ d < -60)
  let tmp := if d < 0 ∧ ¬ graced then d + weekSecs else d
  let firstAlarm := if graced then true else s.firstAlarm
  if s.min = -1 ∨ s.min > tmp then ⟨tmp, some a, firstAlarm⟩ else ⟨s.min, s.cur, firstAlarm⟩

/-- `get_latest_alarm_time`; the rest of the week is `weekSecs - now`. -/
def getLatestAlarmTime (now : WeekTime) (s : Alarms) : Int × Alarms :=
  if s.list = [] then (-1, s)
  else
    let r := s.list.foldl (Scan.next now) ⟨-1, s.cur, s.firstAlarm⟩
    let t : Alarms := { s with cur := r.cur, firstAlarm := r.firstAlarm }
    if r.min < 0 then
      if s.firstRing then (r.min + (weekSecs - now), t) else (0, { t with firstRing := true })
    else (r.min, t)

/-- A snooze of the alarm that was due at `fired`, or a call of `get_latest_alarm_time`. -/
inductive Op where
  | snooze (fired : Int) (now : WeekTime) (time : Int)
  | latest (now : WeekTime)

def step (s : Alarms) : Op → Option Alarms
  | .snooze fired now time => some { s with list := updateAlarmSecList s.list fired now time }
  | .latest now => some (getLatestAlarmTime now s).2

/-- No snooze passes the end of the week. -/
def SnoozeInWeek (_ : Alarms) : Op → Prop
  | .snooze _ now time => 0 ≤ now + time ∧ now + time < weekSecs
  | .latest _ => True

/-- The time until an alarm, counted round the week. -/
def AlarmSec.distance (now : WeekTime) (a : AlarmSec) : Int := (a.secs - now) % weekSecs

/-- An alarm that was due in the last 60 seconds. -/
def AlarmSec.missed (now : WeekTime) (a : AlarmSec) : Bool :=
  -60 ≤ a.secs - now ∧ a.secs - now < 0

/-- The alarm that may still ring although it was missed. -/
def Alarms.graced (now : WeekTime) (s : Alarms) : Option AlarmSec :=
  if s.firstAlarm then none else s.list.find? (AlarmSec.missed now)

def InWeek (l : List AlarmSec) : Prop := ∀ a ∈ l, 0 ≤ a.secs ∧ a.secs < weekSecs

structure Alarms.Sound (s : Alarms) : Prop where
  inWeek : InWeek s.list
  flags : s.firstRing = true → s.firstAlarm = true

theorem weekSecs_eq : weekSecs = 604800 := rfl

variable {a : AlarmSec} {s : Scan}

theorem distance_eq (now : WeekTime) (h : 0 ≤ a.secs ∧ a.secs < weekSecs) :
    a.distance now = if a.secs - now < 0 then a.secs - now + weekSecs else a.secs - now := by
  have := now.isLt
  rw [weekSecs_eq] at *
  rw [AlarmSec.distance, weekSecs_eq]
  split <;> omega

theorem distance_nonneg (now : WeekTime) (a : AlarmSec) : 0 ≤ a.distance now :=
  Int.emod_nonneg _ (by decide)

/-- What a round does with an alarm that gets no second chance. -/
theorem next_plain (now : WeekTime) (h : 0 ≤ a.secs ∧ a.secs < weekSecs)
    (hplain : s.firstAlarm = true ∨ a.missed now = false) :
    Scan.next now s a = if s.min = -1 ∨ s.min > a.distance now then
      ⟨a.distance now, some a, s.firstAlarm⟩ else s := by
  have hno : ¬ (a.secs - now < 0 ∧ ¬ (s.firstAlarm = true ∨ a.secs - now < -60)) := by
    rintro ⟨hneg, hlate⟩
    obtain hflag | hmiss := hplain
    · exact hlate (.inl hflag)
    · exact hlate (.inr (by
        rw [AlarmSec.missed, decide_eq_false_iff_not] at hmiss
        omega))
  rw [Scan.next, distance_eq now h, if_neg hno]
  simp only [hno, not_false_eq_true, and_true]

theorem next_missed (hflag : s.firstAlarm = false) (hmiss : a.missed now = true) :
    Scan.next now s a = if s.min = -1 ∨ s.min > a.secs - now then ⟨a.secs - now, some a, true⟩
      else ⟨s.min, s.cur, true⟩ := by
  rw [AlarmSec.missed, decide_eq_true_iff] at hmiss
  have hgrace : a.secs - now < 0 ∧ ¬ (s.firstAlarm = true ∨ a.secs - now < -60) := by
    rw [hflag]
    exact ⟨hmiss.2, by simpa using hmiss.1⟩
  rw [Scan.next, if_pos hgrace]
  simp [hgrace]

/-- The scan has found the nearest of some alarms. -/
def Found (now : WeekTime) (l : List AlarmSec) (s : Scan) : Prop :=
  ∃ a ∈ l, s.cur = some a ∧ s.min = a.distance now ∧ ∀ b ∈ l, s.min ≤ b.distance now

theorem Found.next (h : v = [] ∧ s.min = -1 ∨ Found now v s) (a : AlarmSec) :
    Found now (v ++ [a]) (if s.min = -1 ∨ s.min > a.distance now then
      ⟨a.distance now, some a, s.firstAlarm⟩ else s) := by
  obtain ⟨rfl, hmin⟩ | ⟨b, hb, hcur, hmin, hle⟩ := h
  · rw [if_pos (.inl hmin)]
    exact ⟨a, by simp, rfl, rfl, by simp⟩
  have := distance_nonneg now b
  split
  · refine ⟨a, by simp, rfl, rfl, ?_⟩
    intro c hc
    obtain hc | hc := mem_append.mp hc
    · have := hle c hc
      dsimp only
      omega
    · rw [mem_singleton.mp hc]
  · refine ⟨b, mem_append_left _ hb, hcur, hmin, ?_⟩
    intro c hc
    obtain hc | hc := mem_append.mp hc
    · exact hle c hc
    · rw [mem_singleton.mp hc]
      omega

theorem foldl_plain (hin : InWeek l)
    (hplain : ∀ a ∈ l, s.firstAlarm = true ∨ a.missed now = false)
    (h : v = [] ∧ s.min = -1 ∨ Found now v s) :
    (l.foldl (Scan.next now) s).firstAlarm = s.firstAlarm ∧
      (v ++ l = [] ∧ (l.foldl (Scan.next now) s).min = -1 ∨
        Found now (v ++ l) (l.foldl (Scan.next now) s)) := by
  induction l generalizing s v with
  | nil =>
    rw [append_nil]
    exact ⟨rfl, h⟩
  | cons a l ih =>
    have hfound := Found.next h a
    rw [← next_plain now (hin a mem_cons_self) (hplain a mem_cons_self)] at hfound
    have hflag : (Scan.next now s a).firstAlarm = s.firstAlarm := by
      rw [next_plain now (hin a mem_cons_self) (hplain a mem_cons_self)]
      split <;> rfl
    rw [foldl_cons, append_cons, ← hflag]
    refine ih (fun b hb => hin b (mem_cons_of_mem a hb)) ?_ (.inr hfound)
    intro b hb
    rw [hflag]
    exact hplain b (mem_cons_of_mem a hb)

/-- No later alarm replaces a missed one. -/
theorem foldl_missed (hin : InWeek l) (hflag : s.firstAlarm = true) (hneg : s.min < -1) :
    l.foldl (Scan.next now) s = s := by
  induction l with
  | nil => rfl
  | cons a l ih =>
    have := distance_nonneg now a
    rw [foldl_cons, next_plain now (hin a mem_cons_self) (.inl hflag), if_neg (by omega)]
    exact ih fun b hb => hin b (mem_cons_of_mem a hb)

theorem foldl_graced (hin : InWeek l) (hflag : s.firstAlarm = false) (hs : s.min = -1)
    (h : l.find? (AlarmSec.missed now) = some a) (hne : a.secs - now ≠ -1) :
    l.foldl (Scan.next now) s = ⟨a.secs - now, some a, true⟩ ∧ a.secs - now < 0 := by
  obtain ⟨hmiss, before, after, rfl, hb⟩ := find?_eq_some_iff_append.mp h
  have hneg : -60 ≤ a.secs - now ∧ a.secs - now < 0 := of_decide_eq_true hmiss
  have hbefore := foldl_plain (v := []) (fun b hm => hin b (mem_append_left _ hm))
    (fun b hm => .inr (by simpa using hb b hm)) (.inl ⟨rfl, hs⟩)
  rw [foldl_append, foldl_cons]
  generalize before.foldl (Scan.next now) s = t at hbefore
  obtain ⟨ht, hfound⟩ := hbefore
  have hmin : t.min = -1 ∨ t.min > a.secs - now := by
    obtain ⟨-, hmin⟩ | ⟨b, -, -, hmin, -⟩ := hfound
    · exact .inl hmin
    · have := distance_nonneg now b
      omega
  rw [next_missed (ht.trans hflag) hmiss, if_pos hmin]
  refine ⟨foldl_missed (fun b hm => hin b ?_) rfl ?_, hneg.2⟩
  · exact mem_append_right _ (mem_cons_of_mem a hm)
  · dsimp only
    omega

theorem items_inWeek (now : WeekTime) (a : AlarmDb) : InWeek (a.items now) := by
  have hday : 0 ≤ a.secsOfDay ∧ a.secsOfDay < 86400 := by
    have := a.hour.isLt
    have := a.min.isLt
    rw [AlarmDb.secsOfDay]
    omega
  have hweek : ∀ d : Nat, d < 7 → 0 ≤ d * daySecs + a.secsOfDay ∧
      d * daySecs + a.secsOfDay < weekSecs := by
    intro d hd
    rw [weekSecs_eq, show daySecs = 86400 from rfl]
    omega
  have hcheck : checkAlarmDay now a.secsOfDay < 7 := by
    have := now.isLt
    rw [checkAlarmDay]
    split <;> split <;> omega
  intro b hb
  rw [AlarmDb.items] at hb
  split at hb
  · cases hb
  split at hb
  · rw [mem_singleton.mp hb, add_comm]
    exact hweek _ hcheck
  · obtain ⟨d, hd, rfl⟩ := mem_map.mp hb
    exact hweek d (mem_range.mp (mem_of_mem_filter hd))

theorem creatAlarmSecList_sound (db : List AlarmDb) (now : WeekTime)
    (delay : Option (WeekTime × Nat)) : (creatAlarmSecList db now delay).Sound := by
  refine ⟨?_, nofun⟩
  intro b hb
  obtain hb | hb := mem_append.mp hb
  · obtain ⟨a, -, hb⟩ := mem_flatMap.mp hb
    exact items_inWeek now a b hb
  obtain ⟨r, -, rfl⟩ := mem_map.mp hb
  have := r.1.isLt
  rw [weekSecs_eq]
  dsimp only
  omega

/-- A negative minimum was a missed alarm. -/
theorem next_flag (now : WeekTime) (h : 0 ≤ a.secs ∧ a.secs < weekSecs)
    (hs : s.min = -1 ∨ 0 ≤ s.min ∨ s.firstAlarm = true) :
    0 ≤ (Scan.next now s a).min ∨ (Scan.next now s a).firstAlarm = true := by
  by_cases hplain : s.firstAlarm = true ∨ a.missed now = false
  · have := distance_nonneg now a
    rw [next_plain now h hplain]
    split
    · exact .inl this
    · exact hs.resolve_left (by omega)
  rw [not_or, Bool.not_eq_true, Bool.not_eq_false] at hplain
  rw [next_missed hplain.1 hplain.2]
  right
  split <;> rfl

theorem foldl_flag (hin : InWeek l) (hs : 0 ≤ s.min ∨ s.firstAlarm = true) :
    0 ≤ (l.foldl (Scan.next now) s).min ∨ (l.foldl (Scan.next now) s).firstAlarm = true := by
  induction l generalizing s with
  | nil => exact hs
  | cons a l ih =>
    rw [foldl_cons]
    exact ih (fun b hb => hin b (mem_cons_of_mem a hb))
      (next_flag now (hin a mem_cons_self) (.inr hs))

section runs

variable {s t : Alarms}

theorem latest_sound (h : s.Sound) (now : WeekTime) : (getLatestAlarmTime now s).2.Sound := by
  rw [getLatestAlarmTime]
  split
  · exact h
  rename_i hne
  have hmin : 0 ≤ (s.list.foldl (Scan.next now) ⟨-1, s.cur, s.firstAlarm⟩).min ∨
      (s.list.foldl (Scan.next now) ⟨-1, s.cur, s.firstAlarm⟩).firstAlarm = true := by
    obtain ⟨a, l, hl⟩ := exists_cons_of_ne_nil hne
    have hin := h.inWeek
    rw [hl] at hin
    rw [hl, foldl_cons]
    exact foldl_flag (fun b hb => hin b (mem_cons_of_mem a hb))
      (next_flag now (hin a mem_cons_self) (.inl rfl))
  have hkeep : s.firstAlarm = true →
      (s.list.foldl (Scan.next now) ⟨-1, s.cur, s.firstAlarm⟩).firstAlarm = true := by
    intro ht
    rw [(foldl_plain (v := []) h.inWeek (fun _ _ => .inl ht) (.inl ⟨rfl, rfl⟩)).1]
    exact ht
  dsimp only
  split
  · rename_i hneg
    split
    · exact ⟨h.inWeek, fun hr => hkeep (h.flags hr)⟩
    · exact ⟨h.inWeek, fun _ => hmin.resolve_left (by omega)⟩
  · exact ⟨h.inWeek, fun hr => hkeep (h.flags hr)⟩

theorem Alarms.Sound.step (h : s.Sound) (hs : Guarded SnoozeInWeek step s op t) : t.Sound := by
  obtain ⟨hs, hok⟩ := hs
  cases op with
  | snooze fired now time =>
    cases hs
    refine ⟨?_, h.flags⟩
    obtain he | ⟨before, a, after, hl, -, he⟩ :=
      modifyFirst_cases (·.secs = fired) (fun a => { a with secs := now + time }) s.list
    · intro b hb
      rw [updateAlarmSecList, he] at hb
      exact h.inWeek b hb
    intro b hb
    rw [updateAlarmSecList, he] at hb
    have hin := h.inWeek
    rw [hl] at hin
    obtain hb | hb := mem_append.mp hb
    · exact hin b (mem_append_left _ hb)
    · obtain rfl | hb := mem_cons.mp hb
      · exact hok
      · exact hin b (mem_append_right _ (mem_cons_of_mem a hb))
  | latest now =>
    cases hs
    exact latest_sound h now

end runs

/-- A Monday alarm at midnight and one at 00:02. -/
def midnightAlarms : List AlarmDb := [⟨1, true, 0, 0, 1⟩, ⟨2, true, 0, 2, 1⟩]

end SprdVendor.Alarm
