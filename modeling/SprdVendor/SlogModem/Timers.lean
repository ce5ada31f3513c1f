import SprdVendor.Lib.Insertion
import SprdVendor.Lib.Run

namespace SprdVendor.SlogModem
open Lib List

structure Timespec where
  sec : Int
  nsec : Int
  deriving DecidableEq, Repr

def toInt32 (x : Int) : Int := (x + 2 ^ 31) % 2 ^ 32 - 2 ^ 31

namespace Timespec

/-- The sum with a number of milliseconds, which `operator +` takes as an `int`. -/
def add (t : Timespec) (interval : Nat) : Timespec :=
  let ms := toInt32 interval
  let nsec := t.nsec + ms.tmod 1000 * 1000000
  if 1000000000 ≤ nsec then ⟨t.sec + ms.tdiv 1000 + 1, nsec - 1000000000⟩
  else ⟨t.sec + ms.tdiv 1000, nsec⟩

def sub (t u : Timespec) : Int :=
  toInt32 ((t.nsec - u.nsec).tdiv 1000000 + toInt32 (toInt32 (t.sec - u.sec) * 1000))

def lt (t u : Timespec) : Prop := t.sec < u.sec ∨ t.sec = u.sec ∧ t.nsec < u.nsec

instance (t u : Timespec) : Decidable (t.lt u) := inferInstanceAs (Decidable (_ ∨ _))

theorem lt_asymm {t u : Timespec} (h : t.lt u) : ¬ u.lt t := by
  rw [lt] at *
  omega

theorem not_lt_trans {t u v : Timespec} (h : ¬ u.lt t) (h' : ¬ v.lt u) : ¬ v.lt t := by
  rw [lt] at *
  omega

end Timespec

structure Timer where
  id : Nat
  due : Timespec
  cb : Nat
  param : Nat
  deriving DecidableEq, Repr

structure TimerManager where
  timers : List Timer
  nextId : Nat
  deriving DecidableEq, Repr

/-- The calls of the clients and of the callbacks; `now` is what `clock_gettime` answers. -/
inductive TimerOp where
  | create (interval cb param : Nat) (now : Option Timespec)
  | setNewDueTime (id interval : Nat) (now : Option Timespec)
  | delTimer (id : Nat)
  | delCallback (cb : Nat)
  deriving DecidableEq, Repr

def insertTimer (t : Timer) : List Timer → List Timer
  | [] => [t]
  | p :: l => if t.due.lt p.due then t :: p :: l else p :: insertTimer t l

def rearm (id : Nat) (due : Timespec) : List Timer → List Timer
  | [] => []
  | t :: l => if t.id = id then insertTimer { t with due := due } l else t :: rearm id due l

namespace TimerManager

def apply (s : TimerManager) : TimerOp → TimerManager
  | .create interval cb param now =>
    match now with
    | none => s
    | some now =>
      ⟨insertTimer ⟨s.nextId, now.add interval, cb, param⟩ s.timers, s.nextId + 1⟩
  | .setNewDueTime id interval now =>
    match now with
    | none => s
    | some now => { s with timers := rearm id (now.add interval) s.timers }
  | .delTimer id => { s with timers := s.timers.eraseP (·.id = id) }
  | .delCallback cb => { s with timers := s.timers.filter (·.cb ≠ cb) }

def freed (s : TimerManager) : TimerOp → List Nat
  | .create _ _ _ _ => []
  | .setNewDueTime id _ now => if now.isSome then [id] else []
  | .delTimer id => [id]
  | .delCallback cb => (s.timers.filter (·.cb = cb)).map Timer.id

def applyAll : TimerManager → List TimerOp → TimerManager × List Nat
  | s, [] => (s, [])
  | s, op :: ops =>
    let r := applyAll (s.apply op) ops
    (r.1, s.freed op ++ r.2)

def from? (s : TimerManager) : Option Nat → List Timer
  | none => []
  | some id => s.timers.dropWhile (·.id ≠ id)

/-- The loop of `run` with the iterator at `it`: the manager, the timers that fired, and those whose
nodes the callbacks freed. There is no result when a callback frees the node of the iterator. -/
def runLoop (tnow : Timespec) : List (List TimerOp) → TimerManager → Option Nat →
    Option (TimerManager × List Timer × List Nat)
  | [], s, it =>
    match s.from? it with
    | [] => some (s, [], [])
    | p :: _ => if tnow.lt p.due then some (s, [], []) else none
  | ops :: script, s, it =>
    match s.from? it with
    | [] => some (s, [], [])
    | p :: rest =>
      if tnow.lt p.due then some (s, [], [])
      else
        let next := rest.head?.map Timer.id
        let r := applyAll { s with timers := s.timers.eraseP (·.id = p.id) } ops
        if ∃ id ∈ r.2, next = some id then none
        else (runLoop tnow script r.1 next).map fun q => (q.1, p :: q.2.1, r.2 ++ q.2.2)

def run (s : TimerManager) (tnow : Option Timespec) (script : List (List TimerOp)) :
    Option (TimerManager × List Timer × List Nat) :=
  match tnow with
  | none => some (s, [], [])
  | some tnow => runLoop tnow script s (s.timers.head?.map Timer.id)

def nextTime (s : TimerManager) (now : Option Timespec) : Option Int :=
  match s.timers with
  | [] => some (-1)
  | p :: _ => now.map fun now => if p.due.sub now < 0 then 0 else p.due.sub now

/-- A re-armed timer is not due before a timer that stands in front of it. -/
def Fits (s : TimerManager) : TimerOp → Prop
  | .setNewDueTime id interval (some now) =>
    (∃ t ∈ s.timers, t.id = id) →
      ∀ t ∈ s.timers.takeWhile (·.id ≠ id), ¬ (now.add interval).lt t.due
  | _ => True

def AllFit : TimerManager → List TimerOp → Prop
  | _, [] => True
  | s, op :: ops => s.Fits op ∧ AllFit (s.apply op) ops

/-- The callbacks of a run re-arm in order, and none frees the node of the timer behind its own. -/
def LoopFits (tnow : Timespec) : List (List TimerOp) → TimerManager → Option Nat → Prop
  | [], s, it => ∀ p ∈ (s.from? it).head?, tnow.lt p.due
  | ops :: script, s, it =>
    ∀ p ∈ (s.from? it).head?, tnow.lt p.due ∨
      let next := (s.from? it).tail.head?.map Timer.id
      let s := { s with timers := s.timers.eraseP (·.id = p.id) }
      s.AllFit ops ∧ (∀ id ∈ (s.applyAll ops).2, next ≠ some id) ∧
        LoopFits tnow script (s.applyAll ops).1 next

end TimerManager

/-! ### The list -/

def InOrder (t u : Timer) : Prop := ¬ u.due.lt t.due

instance (t u : Timer) : Decidable (InOrder t u) := inferInstanceAs (Decidable (¬ _))

theorem InOrder.trans (h : InOrder t u) (h' : InOrder u v) : InOrder t v :=
  Timespec.not_lt_trans h h'

instance : IsTrans Timer InOrder := ⟨fun _ _ _ => InOrder.trans⟩

theorem insertTimer_eq (t : Timer) (l : List Timer) :
    insertTimer t l = l.orderedInsert (fun t p => t.due.lt p.due) t := by
  induction l with
  | nil => rfl
  | cons p l ih => rw [insertTimer, orderedInsert_cons, ih]

theorem insertTimer_perm (t : Timer) (l : List Timer) : (insertTimer t l).Perm (t :: l) := by
  rw [insertTimer_eq]
  exact perm_orderedInsert _ t l

theorem insertTimer_inOrder (t : Timer) (h : l.Pairwise InOrder) :
    (insertTimer t l).Pairwise InOrder := by
  rw [insertTimer_eq]
  exact pairwise_orderedInsert (fun _ _ hlt => Timespec.lt_asymm hlt) (fun _ _ hnot => hnot) h

theorem rearm_ids (id : Nat) (due : Timespec) (l : List Timer) :
    ((rearm id due l).map Timer.id).Perm (l.map Timer.id) := by
  induction l with
  | nil => exact .refl _
  | cons t l ih =>
    rw [rearm]
    split
    · exact (insertTimer_perm _ l).map Timer.id
    · exact ih.cons t.id

theorem mem_rearm (h : x ∈ rearm i due l) : x.id = i ∧ x.due = due ∨ x ∈ l := by
  induction l with
  | nil => cases h
  | cons t l ih =>
    rw [rearm] at h
    split at h
    · rename_i ht
      rcases mem_cons.mp ((insertTimer_perm _ l).mem_iff.mp h) with rfl | h
      · exact .inl ⟨ht, rfl⟩
      · exact .inr (.tail t h)
    · rcases mem_cons.mp h with rfl | h
      · exact .inr (.head l)
      · exact (ih h).imp_right (.tail t)

theorem mem_rearm_of_ne (hx : x.id ≠ i) (h : x ∈ l) : x ∈ rearm i due l := by
  induction l with
  | nil => cases h
  | cons t l ih =>
    rw [rearm]
    split
    · rename_i ht
      rcases mem_cons.mp h with rfl | h
      · exact absurd ht hx
      · exact (insertTimer_perm _ l).mem_iff.mpr (.tail _ h)
    · rcases mem_cons.mp h with rfl | h
      · exact .head _
      · exact .tail t (ih h)

theorem rearm_inOrder (h : l.Pairwise InOrder)
    (hfits : (∃ t ∈ l, t.id = i) → ∀ t ∈ l.takeWhile (·.id ≠ i), ¬ due.lt t.due) :
    (rearm i due l).Pairwise InOrder := by
  induction l with
  | nil => exact .nil
  | cons p l ih =>
    obtain ⟨hp, hl⟩ := pairwise_cons.mp h
    rw [rearm]
    split
    · exact insertTimer_inOrder _ hl
    rename_i hne
    have htake : (p :: l).takeWhile (·.id ≠ i) = p :: l.takeWhile (·.id ≠ i) :=
      takeWhile_cons_of_pos (by simpa using hne)
    rw [htake] at hfits
    refine pairwise_cons.mpr ⟨?_, ih hl ?_⟩
    · intro u hu
      rcases mem_rearm hu with ⟨hid, hdue⟩ | hu
      · have hmem : ∃ t ∈ p :: l, t.id = i := by
          have hids : i ∈ l.map Timer.id :=
            (rearm_ids i due l).mem_iff.mp (mem_map.mpr ⟨u, hu, hid⟩)
          obtain ⟨t, ht, hid⟩ := mem_map.mp hids
          exact ⟨t, .tail p ht, hid⟩
        rw [InOrder, hdue]
        exact hfits hmem p (.head _)
      · exact hp u hu
    · rintro ⟨t, ht, hid⟩ u hu
      exact hfits ⟨t, .tail p ht, hid⟩ u (.tail p hu)

theorem eraseP_id_eq_filter {l : List Timer} (h : (l.map Timer.id).Nodup) (id : Nat) :
    l.eraseP (·.id = id) = l.filter (·.id ≠ id) := by
  induction l with
  | nil => rfl
  | cons t l ih =>
    obtain ⟨ht, hl⟩ := nodup_cons.mp h
    by_cases hid : t.id = id
    · have hall : ∀ u ∈ l, decide (u.id ≠ id) = true := by
        intro u hu
        rw [decide_eq_true_iff]
        rintro rfl
        exact ht (mem_map.mpr ⟨u, hu, hid.symm⟩)
      rw [eraseP_cons_of_pos (by simpa using hid),
        filter_cons_of_neg (by simpa using hid), filter_eq_self.mpr hall]
    · rw [eraseP_cons_of_neg (by simpa using hid), filter_cons_of_pos (by simpa using hid), ih hl]

/-! What stands at and behind the timer `n` stays there. -/

theorem mem_behind_insertTimer (hn : t.id ≠ n)
    (h : x ∈ l.dropWhile (·.id ≠ n)) : x ∈ (insertTimer t l).dropWhile (·.id ≠ n) := by
  induction l with
  | nil => cases h
  | cons p l ih =>
    rw [insertTimer]
    split
    · rwa [dropWhile_cons_of_pos (by simpa using hn)]
    by_cases hp : p.id = n
    · rw [dropWhile_cons_of_neg (by simpa using hp)] at h ⊢
      rcases mem_cons.mp h with rfl | h
      · exact .head _
      · exact .tail p ((insertTimer_perm t l).mem_iff.mpr (.tail t h))
    · rw [dropWhile_cons_of_pos (by simpa using hp)] at h ⊢
      exact ih h

theorem mem_behind_rearm (hn : i ≠ n) (hx : x.id ≠ i)
    (h : x ∈ l.dropWhile (·.id ≠ n)) : x ∈ (rearm i due l).dropWhile (·.id ≠ n) := by
  induction l with
  | nil => cases h
  | cons p l ih =>
    rw [rearm]
    by_cases hp : p.id = n
    · have hid : p.id ≠ i := fun h => hn (h.symm.trans hp)
      rw [if_neg hid, dropWhile_cons_of_neg (by simpa using hp)]
      rw [dropWhile_cons_of_neg (by simpa using hp)] at h
      rcases mem_cons.mp h with rfl | h
      · exact .head _
      · exact .tail p (mem_rearm_of_ne hx h)
    rw [dropWhile_cons_of_pos (by simpa using hp)] at h
    split
    · rename_i hid
      exact mem_behind_insertTimer (fun he => hn (hid.symm.trans he)) h
    · rw [dropWhile_cons_of_pos (by simpa using hp)]
      exact ih h

theorem mem_behind_filter {l : List Timer}
    (hn : ∀ t ∈ l, t.id = n → keep t = true) (hx : keep x = true)
    (h : x ∈ l.dropWhile (·.id ≠ n)) : x ∈ (l.filter keep).dropWhile (·.id ≠ n) := by
  induction l with
  | nil => cases h
  | cons p l ih =>
    by_cases hp : p.id = n
    · rw [filter_cons_of_pos (hn p (.head l) hp), dropWhile_cons_of_neg (by simpa using hp)]
      rw [dropWhile_cons_of_neg (by simpa using hp)] at h
      rcases mem_cons.mp h with rfl | h
      · exact .head _
      · exact .tail p (mem_filter.mpr ⟨h, hx⟩)
    rw [dropWhile_cons_of_pos (by simpa using hp)] at h
    have hbehind := ih (fun t ht => hn t (.tail p ht)) h
    rw [filter_cons]
    split
    · rwa [dropWhile_cons_of_pos (by simpa using hp)]
    · exact hbehind

/-! ### The calls -/

namespace TimerManager

structure Ordered (s : TimerManager) : Prop where
  inOrder : s.timers.Pairwise InOrder
  ids : (s.timers.map Timer.id).Nodup
  fresh : ∀ t ∈ s.timers, t.id < s.nextId

variable {s : TimerManager} {gone gone' : List Nat}

theorem Ordered.not_mem_nextId (h : s.Ordered) : s.nextId ∉ s.timers.map Timer.id := by
  intro hmem
  obtain ⟨t, ht, hid⟩ := mem_map.mp hmem
  exact absurd hid (h.fresh t ht).ne

theorem Ordered.eq_of_id (h : s.Ordered) (ht : t ∈ s.timers) (hu : u ∈ s.timers)
    (hid : t.id = u.id) : t = u :=
  inj_on_of_nodup_map h.ids ht hu hid

theorem Ordered.sublist (h : s.Ordered) (hl : l.Sublist s.timers) :
    Ordered { s with timers := l } :=
  ⟨h.inOrder.sublist hl, h.ids.sublist (hl.map Timer.id), fun t ht => h.fresh t (hl.subset ht)⟩

theorem Ordered.apply (h : s.Ordered) (hfits : s.Fits op) : (s.apply op).Ordered := by
  cases op with
  | create interval cb param now =>
    cases now with
    | none => exact h
    | some now =>
      refine ⟨insertTimer_inOrder _ h.inOrder, ?_, ?_⟩
      · have hperm :=
          (insertTimer_perm ⟨s.nextId, now.add interval, cb, param⟩ s.timers).map Timer.id
        exact hperm.nodup_iff.mpr (nodup_cons.mpr ⟨h.not_mem_nextId, h.ids⟩)
      intro t ht
      rcases mem_cons.mp ((insertTimer_perm _ _).mem_iff.mp ht) with rfl | ht
      · exact Nat.lt_succ_self _
      · exact (h.fresh t ht).trans (Nat.lt_succ_self _)
  | setNewDueTime id interval now =>
    cases now with
    | none => exact h
    | some now =>
      refine ⟨rearm_inOrder h.inOrder hfits, (rearm_ids _ _ _).nodup_iff.mpr h.ids, ?_⟩
      intro t ht
      obtain ⟨u, hu, hid⟩ :=
        mem_map.mp ((rearm_ids _ _ _).mem_iff.mp (mem_map_of_mem ht))
      exact lt_of_eq_of_lt hid.symm (h.fresh u hu)
  | delTimer id => exact h.sublist eraseP_sublist
  | delCallback cb => exact h.sublist filter_sublist

theorem nextId_le_apply (s : TimerManager) (op : TimerOp) : s.nextId ≤ (s.apply op).nextId := by
  cases op with
  | create interval cb param now =>
    cases now with
    | none => exact le_rfl
    | some now => exact Nat.le_succ _
  | setNewDueTime id interval now =>
    cases now with
    | _ => exact le_rfl
  | _ => exact le_rfl

def Known (s : TimerManager) (gone : List Nat) (x : Timer) : Prop :=
  (x ∈ s.timers ∨ x.id ∈ gone ∧ x.id ∈ s.timers.map Timer.id) ∨ s.nextId ≤ x.id

theorem Known.id_mem (h : s.Known gone x) : x.id ∈ s.timers.map Timer.id ∨ s.nextId ≤ x.id := by
  rcases h with (hx | ⟨-, hid⟩) | hnew
  · exact .inl (mem_map_of_mem hx)
  · exact .inl hid
  · exact .inr hnew

theorem Known.trans {s' : TimerManager} (h : s'.Known gone' x)
    (hs : ∀ y ∈ s'.timers, s.Known gone y) (hle : s.nextId ≤ s'.nextId) :
    s.Known (gone ++ gone') x := by
  rcases h with (hx | ⟨hlater, hid⟩) | hnew
  · exact (hs x hx).imp_left fun hx => hx.imp_right fun hx => ⟨mem_append_left _ hx.1, hx.2⟩
  · obtain ⟨y, hy, hid⟩ := mem_map.mp hid
    have hy := (hs y hy).id_mem
    rw [hid] at hy
    exact hy.imp_left fun hy => .inr ⟨mem_append_right _ hlater, hy⟩
  · exact .inr (hle.trans hnew)

theorem mem_apply (h : x ∈ (s.apply op).timers) : s.Known (s.freed op) x := by
  cases op with
  | create interval cb param now =>
    cases now with
    | none => exact .inl (.inl h)
    | some now =>
      rcases mem_cons.mp ((insertTimer_perm _ _).mem_iff.mp h) with rfl | h
      · exact .inr le_rfl
      · exact .inl (.inl h)
  | setNewDueTime id interval now =>
    cases now with
    | none => exact .inl (.inl h)
    | some now =>
      rcases mem_rearm h with ⟨hid, -⟩ | hx
      · have hids := (rearm_ids _ _ _).mem_iff.mp (mem_map_of_mem h)
        exact .inl (.inr ⟨mem_singleton.mpr hid, hids⟩)
      · exact .inl (.inl hx)
  | delTimer id => exact .inl (.inl (mem_of_mem_eraseP h))
  | delCallback cb => exact .inl (.inl (mem_filter.mp h).1)

theorem Ordered.mem_from_apply (h : s.Ordered) {op : TimerOp} (hn : n ∉ s.freed op)
    (hlt : n < s.nextId) (hx : x ∈ s.from? (some n)) :
    x.id ∈ s.freed op ∨ x ∈ (s.apply op).from? (some n) := by
  have hmem : x ∈ s.timers := (dropWhile_sublist _).subset hx
  cases op with
  | create interval cb param now =>
    cases now with
    | none => exact .inr hx
    | some now => exact .inr (mem_behind_insertTimer hlt.ne' hx)
  | setNewDueTime id interval now =>
    cases now with
    | none => exact .inr hx
    | some now =>
      by_cases hid : x.id = id
      · exact .inl (mem_singleton.mpr hid)
      · exact .inr (mem_behind_rearm (fun he => hn (mem_singleton.mpr he.symm)) hid hx)
  | delTimer id =>
    by_cases hid : x.id = id
    · exact .inl (mem_singleton.mpr hid)
    refine .inr ?_
    rw [from?, TimerManager.apply, eraseP_id_eq_filter h.ids]
    refine mem_behind_filter ?_ (decide_eq_true hid) hx
    rintro t - rfl
    exact decide_eq_true fun he => hn (mem_singleton.mpr he)
  | delCallback cb =>
    by_cases hcb : x.cb = cb
    · exact .inl (mem_map_of_mem (mem_filter.mpr ⟨hmem, decide_eq_true hcb⟩))
    refine .inr (mem_behind_filter ?_ (decide_eq_true hcb) hx)
    rintro t ht rfl
    refine decide_eq_true fun he => hn ?_
    exact mem_map_of_mem (mem_filter.mpr ⟨ht, decide_eq_true he⟩)

theorem Ordered.applyAll (h : s.Ordered) (hfits : s.AllFit ops) : (s.applyAll ops).1.Ordered := by
  induction ops generalizing s with
  | nil => exact h
  | cons op ops ih => exact ih (h.apply hfits.1) hfits.2

theorem nextId_le_applyAll (s : TimerManager) (ops : List TimerOp) :
    s.nextId ≤ (s.applyAll ops).1.nextId := by
  induction ops generalizing s with
  | nil => exact le_rfl
  | cons op ops ih => exact (s.nextId_le_apply op).trans (ih _)

theorem mem_applyAll (h : x ∈ (s.applyAll ops).1.timers) : s.Known (s.applyAll ops).2 x := by
  induction ops generalizing s with
  | nil => exact .inl (.inl h)
  | cons op ops ih => exact (ih h).trans (fun _ => mem_apply) (s.nextId_le_apply op)

theorem Ordered.mem_from_applyAll (h : s.Ordered) (hfits : s.AllFit ops)
    (hn : n ∉ (s.applyAll ops).2) (hlt : n < s.nextId) (hx : x ∈ s.from? (some n)) :
    x.id ∈ (s.applyAll ops).2 ∨ x ∈ (s.applyAll ops).1.from? (some n) := by
  induction ops generalizing s with
  | nil => exact .inr hx
  | cons op ops ih =>
    have hfreed : (s.applyAll (op :: ops)).2 = s.freed op ++ ((s.apply op).applyAll ops).2 := rfl
    rw [hfreed] at hn ⊢
    obtain ⟨hop, hops⟩ := not_or.mp (fun h => hn (mem_append.mpr h))
    rcases h.mem_from_apply hop hlt hx with hx | hx
    · exact .inl (mem_append_left _ hx)
    · have hlater := ih (h.apply hfits.1) hfits.2 hops (hlt.trans_le (s.nextId_le_apply op)) hx
      exact hlater.imp_left (mem_append_right _)

/-! ### The loop -/

/-- What the loop of `run` did from the iterator on: `fired` are the timers it fired, and `gone`
those that its callbacks deleted or re-armed. -/
structure Fired (tnow : Timespec) (s : TimerManager) (it : Option Nat) (s' : TimerManager)
    (fired : List Timer) (gone : List Nat) : Prop where
  ordered : s'.Ordered
  inOrder : fired.Pairwise InOrder
  behind : ∀ q ∈ fired, ∃ p ∈ (s.from? it).head?, InOrder p q
  due : ∀ p ∈ fired, ¬ tnow.lt p.due
  once : (fired.map Timer.id).Nodup
  known : ∀ p ∈ fired, s.Known gone p
  all : ∀ p ∈ s.from? it, ¬ tnow.lt p.due → p ∈ fired ∨ p.id ∈ gone

theorem from?_split (hit : s.from? it = p :: rest) : ∃ l, s.timers = l ++ p :: rest := by
  cases it with
  | none => cases hit
  | some n =>
    refine ⟨s.timers.takeWhile (·.id ≠ n), ?_⟩
    rw [← hit]
    exact takeWhile_append_dropWhile.symm

theorem id_of_head_from? (h : p ∈ (s.from? (some n)).head?) : p.id = n := by
  have hhead := head?_dropWhile_not (fun t : Timer => decide (t.id ≠ n)) s.timers
  rw [from?, Option.mem_def] at h
  rw [h] at hhead
  simpa using hhead

theorem Fired.none (h : s.Ordered) (hlate : ∀ p ∈ (s.from? it).head?, tnow.lt p.due) :
    Fired tnow s it s [] [] := by
  refine ⟨h, .nil, ?_, ?_, .nil, ?_, ?_⟩
  · rintro q ⟨⟩
  · rintro p ⟨⟩
  · rintro p ⟨⟩
  intro p hp hdue
  cases hit : s.from? it with
  | nil =>
    rw [hit] at hp
    cases hp
  | cons y rest =>
    rw [hit] at hp hlate
    have hy : tnow.lt y.due := hlate y rfl
    rcases mem_cons.mp hp with rfl | hp
    · exact absurd hy hdue
    obtain ⟨l, hl⟩ := from?_split hit
    have hin := h.inOrder
    rw [hl] at hin
    have hyp : InOrder y p := rel_of_pairwise_cons (pairwise_append.mp hin).2.1 hp
    exact absurd hy (Timespec.not_lt_trans hyp hdue)

theorem Ordered.erase_from (h : s.Ordered) (hl : s.timers = l ++ p :: rest) :
    s.timers.eraseP (·.id = p.id) = l ++ rest := by
  have hids := h.ids
  rw [hl, map_append, map_cons, nodup_append] at hids
  rw [hl, eraseP_append_right _ ?_, eraseP_cons_of_pos (by simp)]
  intro t ht
  rw [decide_eq_true_iff]
  exact hids.2.2 t.id (mem_map_of_mem ht) p.id (.head _)

theorem Ordered.mem_from_next (h : s.Ordered) (hl : s.timers = l ++ y :: rest)
    (hx : x ∈ y :: rest) : x ∈ s.from? (some y.id) := by
  have hids := h.ids
  rw [hl, map_append, map_cons, nodup_append] at hids
  rw [from?, hl, dropWhile_append_of_pos ?_, dropWhile_cons_of_neg (by simp)]
  · exact hx
  · intro t ht
    rw [decide_eq_true_iff]
    exact hids.2.2 t.id (mem_map_of_mem ht) y.id (.head _)

/-- One round of the loop: the timer at the iterator fires, and its callback does not free the node
the iterator has moved to. -/
theorem Fired.cons (h : s.Ordered) (hit : s.from? it = p :: rest) (hdue : ¬ tnow.lt p.due)
    (h₁ : s₁ = { s with timers := s.timers.eraseP (·.id = p.id) }) (hfits : s₁.AllFit ops)
    (hnext : ∀ id ∈ (s₁.applyAll ops).2, rest.head?.map Timer.id ≠ some id)
    (hrest : Fired tnow (s₁.applyAll ops).1 (rest.head?.map Timer.id) s' fired gone) :
    Fired tnow s it s' (p :: fired) ((s₁.applyAll ops).2 ++ gone) := by
  obtain ⟨l, hl⟩ := from?_split hit
  have hs₁ : s₁.timers = l ++ rest := by rw [h₁, ← h.erase_from hl]
  have hid₁ : s₁.nextId = s.nextId := by rw [h₁]
  have hin := h.inOrder
  have hids := h.ids
  rw [hl] at hin hids
  have hord₁ : s₁.Ordered := by
    rw [h₁]
    exact h.sublist eraseP_sublist
  have hknown : ∀ q ∈ fired, s₁.Known ((s₁.applyAll ops).2 ++ gone) q := fun q hq =>
    (hrest.known q hq).trans (fun _ => mem_applyAll) (nextId_le_applyAll s₁ ops)
  -- the next timer is where it was, with the due time it had
  have hstays : ∀ x ∈ rest, x.id ∈ (s₁.applyAll ops).2 ∨
      x ∈ (s₁.applyAll ops).1.from? (rest.head?.map Timer.id) := by
    intro x hx
    cases rest with
    | nil => cases hx
    | cons y rest =>
      have hy : y.id ∉ (s₁.applyAll ops).2 := fun hy => hnext y.id hy rfl
      have hlt : y.id < s₁.nextId := hord₁.fresh y (hs₁ ▸ mem_append_right l (.head rest))
      exact hord₁.mem_from_applyAll hfits hy hlt (hord₁.mem_from_next hs₁ hx)
  have hbehind : ∀ q ∈ fired, InOrder p q := by
    intro q hq
    obtain ⟨z, hz, hzq⟩ := hrest.behind q hq
    cases rest with
    | nil => cases hz
    | cons y rest =>
      have hy : y ∈ (s₁.applyAll ops).1.from? (some y.id) :=
        (hstays y (.head rest)).resolve_left fun hy => hnext y.id hy rfl
      have hzy : z = y := by
        refine (hord₁.applyAll hfits).eq_of_id ?_ ?_ (id_of_head_from? hz)
        · exact (dropWhile_sublist _).subset (mem_of_mem_head? hz)
        · exact (dropWhile_sublist _).subset hy
      have hpy : InOrder p y :=
        rel_of_pairwise_cons (pairwise_append.mp hin).2.1 (.head rest)
      exact hpy.trans (hzy ▸ hzq)
  constructor
  case ordered => exact hrest.ordered
  case inOrder => exact pairwise_cons.mpr ⟨hbehind, hrest.inOrder⟩
  case behind =>
    intro q hq
    refine ⟨p, by rw [hit]; rfl, ?_⟩
    rcases mem_cons.mp hq with rfl | hq
    · exact fun hlt => Timespec.lt_asymm hlt hlt
    · exact hbehind q hq
  case due =>
    intro q hq
    rcases mem_cons.mp hq with rfl | hq
    · exact hdue
    · exact hrest.due q hq
  case once =>
    refine nodup_cons.mpr ⟨?_, hrest.once⟩
    intro hmem
    obtain ⟨q, hq, hid⟩ := mem_map.mp hmem
    rcases (hknown q hq).id_mem with hmem | hnew
    · rw [hid, hs₁] at hmem
      have hperm : ((l ++ p :: rest).map Timer.id).Perm (p.id :: (l ++ rest).map Timer.id) :=
        perm_middle.map Timer.id
      exact (nodup_cons.mp (hperm.nodup_iff.mp hids)).1 hmem
    · rw [hid, hid₁] at hnew
      exact absurd (h.fresh p (hl ▸ mem_append_right l (.head rest))) (not_lt.mpr hnew)
  case known =>
    intro q hq
    rcases mem_cons.mp hq with rfl | hq
    · exact .inl (.inl (hl ▸ mem_append_right l (.head rest)))
    have hsub : ∀ t ∈ s₁.timers, t ∈ s.timers := by
      rw [h₁]
      exact fun t ht => mem_of_mem_eraseP ht
    rcases hknown q hq with (hq | ⟨hfreed, hid⟩) | hnew
    · exact .inl (.inl (hsub q hq))
    · exact .inl (.inr ⟨hfreed, map_subset Timer.id hsub hid⟩)
    · exact .inr (hid₁ ▸ hnew)
  case all =>
    intro x hx hxdue
    rw [hit] at hx
    rcases mem_cons.mp hx with rfl | hx
    · exact .inl (.head fired)
    · rcases hstays x hx with hfreed | hx
      · exact .inr (mem_append_left _ hfreed)
      · exact (hrest.all x hx hxdue).imp (.tail p) (mem_append_right _)

theorem LoopFits.fired (h : s.Ordered) (hfits : s.LoopFits tnow script it) :
    ∃ s' fired gone, s.runLoop tnow script it = some (s', fired, gone) ∧
      Fired tnow s it s' fired gone := by
  induction script generalizing s it with
  | nil =>
    refine ⟨s, [], [], ?_, Fired.none h hfits⟩
    rw [runLoop]
    cases hit : s.from? it with
    | nil => rfl
    | cons p rest =>
      rw [LoopFits, hit] at hfits
      exact if_pos (hfits p rfl)
  | cons ops script ih =>
    rw [LoopFits] at hfits
    rw [runLoop]
    cases hit : s.from? it with
    | nil => exact ⟨s, [], [], rfl, Fired.none h (by rw [hit]; rintro p ⟨⟩)⟩
    | cons p rest =>
      rw [hit] at hfits
      replace hfits := hfits p rfl
      dsimp only [tail_cons] at hfits ⊢
      by_cases hlt : tnow.lt p.due
      · refine ⟨s, [], [], if_pos hlt, Fired.none h ?_⟩
        rw [hit]
        rintro q ⟨⟩
        exact hlt
      obtain ⟨hall, hnext, hloop⟩ := hfits.resolve_left hlt
      obtain ⟨s', fired, gone, hrun, hfired⟩ :=
        ih ((h.sublist eraseP_sublist).applyAll hall) hloop
      refine ⟨s', p :: fired, _ ++ gone, ?_, Fired.cons h hit hlt rfl hall hnext hfired⟩
      have hkept : ¬ ∃ id ∈ (applyAll { s with timers := s.timers.eraseP (·.id = p.id) } ops).2,
          rest.head?.map Timer.id = some id := fun ⟨id, hid, he⟩ => hnext id hid he
      rw [if_neg hlt, if_neg hkept, hrun]
      rfl

/-! ### Runs -/

inductive Act where
  | call (op : TimerOp)
  | run (tnow : Option Timespec) (script : List (List TimerOp))

def next (s : TimerManager) : Act → Option TimerManager
  | .call op => some (s.apply op)
  | .run tnow script => (s.run tnow script).map Prod.fst

def ActFits (s : TimerManager) : Act → Prop
  | .call op => s.Fits op
  | .run none _ => True
  | .run (some tnow) script => s.LoopFits tnow script (s.timers.head?.map Timer.id)

theorem from?_first (s : TimerManager) : s.from? (s.timers.head?.map Timer.id) = s.timers := by
  rw [from?.eq_def]
  cases hs : s.timers with
  | nil => rfl
  | cons p l => exact dropWhile_cons_of_neg (by simp)

theorem Ordered.next (h : s.Ordered) (hfits : s.ActFits a)
    (hnext : s.next a = some s') : s'.Ordered := by
  cases a with
  | call op =>
    cases hnext
    exact h.apply hfits
  | run tnow script =>
    cases tnow with
    | none =>
      cases hnext
      exact h
    | some tnow =>
      obtain ⟨s₁, fired, gone, hrun, hfired⟩ := LoopFits.fired h hfits
      rw [TimerManager.next, TimerManager.run, hrun] at hnext
      cases hnext
      exact hfired.ordered

theorem Ordered.run (hrun : Run (Guarded ActFits TimerManager.next) ⟨[], 0⟩ as s) :
    s.Ordered := by
  induction hrun with
  | nil => exact ⟨.nil, .nil, by rintro t ⟨⟩⟩
  | snoc _ hstep ih => exact ih.next hstep.2 hstep.1

theorem nextTime_eq (hs : s.timers = p :: l) (now : Option Timespec) :
    s.nextTime now = now.map fun now => max 0 (p.due.sub now) := by
  rw [nextTime, hs]
  refine congrArg (Option.map · now) (funext fun now => ?_)
  split
  · omega
  · omega

instance (s : TimerManager) : ∀ op, Decidable (s.Fits op)
  | .create _ _ _ _ => inferInstanceAs (Decidable True)
  | .setNewDueTime _ _ none => inferInstanceAs (Decidable True)
  | .setNewDueTime _ _ (some _) => inferInstanceAs (Decidable (_ → _))
  | .delTimer _ => inferInstanceAs (Decidable True)
  | .delCallback _ => inferInstanceAs (Decidable True)

instance decidableAllFit : ∀ (ops : List TimerOp) (s : TimerManager), Decidable (s.AllFit ops)
  | [], _ => inferInstanceAs (Decidable True)
  | op :: ops, s =>
    have := decidableAllFit ops (s.apply op)
    inferInstanceAs (Decidable (_ ∧ _))

instance decidableLoopFits (tnow : Timespec) : ∀ (script : List (List TimerOp))
    (s : TimerManager) (it : Option Nat), Decidable (s.LoopFits tnow script it)
  | [], _, _ => inferInstanceAs (Decidable (∀ p ∈ _, _))
  | _ :: script, _, _ =>
    have := decidableLoopFits tnow script
    inferInstanceAs (Decidable (∀ p ∈ _, _))

instance (s : TimerManager) : ∀ a, Decidable (s.ActFits a)
  | .call op => inferInstanceAs (Decidable (s.Fits op))
  | .run none _ => inferInstanceAs (Decidable True)
  | .run (some tnow) script => inferInstanceAs (Decidable (s.LoopFits tnow script _))

end TimerManager

end SprdVendor.SlogModem
