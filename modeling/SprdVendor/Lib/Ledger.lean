import Mathlib

namespace SprdVendor.Lib
open List

/-- What a client has asked, and the answers it has had since. -/
structure Asked (ι : Type u) (κ : Type v) (α : Type w) where
  client : ι
  kind : κ
  answers : List α

def Asked.add (r : Asked ι κ α) (as : List α) : Asked ι κ α :=
  { r with answers := r.answers ++ as }

variable {ι : Type u} {κ : Type v} {α : Type w} [DecidableEq ι]

def latest (rs : List (Asked ι κ α)) (i : ι) : Option (Asked ι κ α) := rs.find? (·.client = i)

def sentTo (i : ι) (sent : List (ι × α)) : List α := (sent.filter (·.1 = i)).map Prod.snd

/-- A client takes what is sent to it for the answer to its last request. -/
def deliver : List (ι × α) → List (Asked ι κ α) → List (Asked ι κ α)
  | _, [] => []
  | sent, r :: rs =>
    r.add (sentTo r.client sent) :: deliver (sent.filter (·.1 ≠ r.client)) rs

variable {rs : List (Asked ι κ α)} {r : Asked ι κ α} {i : ι} {sent : List (ι × α)}

theorem latest_client (h : latest rs i = some r) : r.client = i := by
  have hd := find?_some h
  exact of_decide_eq_true hd

theorem latest_mem (h : latest rs i = some r) : r ∈ rs := mem_of_find?_eq_some h

theorem latest_cons_self (h : r.client = i) : latest (r :: rs) i = some r :=
  find?_cons_of_pos (decide_eq_true h)

theorem latest_cons_ne (h : r.client ≠ i) : latest (r :: rs) i = latest rs i :=
  find?_cons_of_neg fun hd => h (of_decide_eq_true hd)

theorem sentTo_filter_ne (h : i ≠ j) (sent : List (ι × α)) :
    sentTo j (sent.filter (·.1 ≠ i)) = sentTo j sent := by
  rw [sentTo, filter_filter, sentTo]
  congr 1
  apply filter_congr
  intro p _
  by_cases hp : p.1 = j
  · simp [hp, h.symm]
  · simp [hp]

theorem latest_deliver (rs : List (Asked ι κ α)) (sent : List (ι × α)) (i : ι) :
    latest (deliver sent rs) i = (latest rs i).map fun r => r.add (sentTo i sent) := by
  induction rs generalizing sent with
  | nil => rfl
  | cons r rs ih =>
    rw [deliver]
    by_cases hr : r.client = i
    · rw [latest_cons_self (r := r.add _) hr, latest_cons_self hr, Option.map_some, hr]
    · rw [latest_cons_ne (r := r.add _) hr, latest_cons_ne hr, ih, sentTo_filter_ne hr]

/-- Each request stays as it is, or is the last one of its client and has what was sent to it. -/
theorem deliver_forall₂ (rs : List (Asked ι κ α)) (sent : List (ι × α)) :
    List.Forall₂ (fun r r' => r'.client = r.client ∧ r'.kind = r.kind ∧
      (r'.answers = r.answers ∨ latest rs r.client = some r ∧
        r'.answers = r.answers ++ sentTo r.client sent)) rs (deliver sent rs) := by
  induction rs generalizing sent with
  | nil => exact .nil
  | cons r rs ih =>
    rw [deliver]
    refine .cons ⟨rfl, rfl, .inr ⟨latest_cons_self rfl, rfl⟩⟩ ((ih _).imp ?_)
    rintro a b ⟨hc, hk, ha⟩
    refine ⟨hc, hk, ?_⟩
    obtain ha | ⟨hl, ha⟩ := ha
    · exact .inl ha
    by_cases hr : r.client = a.client
    · left
      have hnone : sentTo a.client (sent.filter (·.1 ≠ r.client)) = [] := by
        rw [hr, sentTo, filter_filter]
        simp
      rw [ha, hnone, append_nil]
    · rw [sentTo_filter_ne hr] at ha
      exact .inr ⟨(latest_cons_ne hr).trans hl, ha⟩

theorem mem_deliver (h : r' ∈ deliver sent rs) :
    ∃ r ∈ rs, r'.client = r.client ∧ r'.kind = r.kind ∧
      (r'.answers = r.answers ∨ latest rs r.client = some r ∧
        r'.answers = r.answers ++ sentTo r.client sent) := by
  obtain ⟨n, hn, rfl⟩ := getElem_of_mem h
  have hall := deliver_forall₂ rs sent
  have hn' : n < rs.length := hall.length_eq ▸ hn
  exact ⟨rs[n], getElem_mem hn', hall.get hn' hn⟩

theorem mem_of_mem_deliver (h : r ∈ deliver sent rs) (ha : r.answers = []) : r ∈ rs := by
  obtain ⟨⟨client, kind, answers⟩, hr, rfl, rfl, hans⟩ := mem_deliver h
  obtain ⟨client, kind, _⟩ := r
  cases ha
  obtain rfl | ⟨-, hans⟩ := hans
  · exact hr
  · obtain ⟨rfl, -⟩ := append_eq_nil_iff.mp hans.symm
    exact hr

def Settled (rs : List (Asked ι κ α)) : Prop :=
  rs.Pairwise fun newer older => newer.client = older.client → older.answers ≠ []

theorem Settled.deliver (h : Settled rs) : Settled (deliver sent rs) := by
  induction h generalizing sent with
  | nil => exact .nil
  | cons hr _ ih =>
    refine .cons ?_ ih
    intro older' ho hc
    obtain ⟨older, ho, hc', -, ha⟩ := mem_deliver ho
    have hne := hr older ho (hc.trans hc')
    obtain ha | ⟨-, ha⟩ := ha
    · rwa [ha]
    · rw [ha]
      exact append_ne_nil_of_left_ne_nil hne _

theorem Settled.latest_eq (h : Settled rs) (hr : r ∈ rs) (ha : r.answers = []) :
    latest rs r.client = some r := by
  induction h with
  | nil => cases hr
  | cons hall _ ih =>
    obtain rfl | hr := mem_cons.mp hr
    · exact latest_cons_self rfl
    · rw [latest_cons_ne, ih hr]
      intro hc
      exact hall r hr hc ha

end SprdVendor.Lib
