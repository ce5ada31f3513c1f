import SprdVendor.Download.Entry
import SprdVendor.Lib.Run

namespace SprdVendor.Download
open Lib List

/-- The table of clients with `flag_connect`, and the clients that were accepted and not closed. -/
structure Clients where
  table : List WcnClient
  flagConnect : Bool
  accepted : Nat
  live : List WcnClient

namespace Clients

inductive Event where
  | accept (fd : Nat) (type : SocketType)
  | notify (type : SocketType) (broken : List Nat)

def start : Clients := ⟨List.replicate wcnMaxClientNum ⟨none, .unused, 0⟩, false, 0, []⟩

def step (c : Clients) : Event → Option Clients
  | .accept fd type =>
    if type = .unused ∨ some fd ∈ c.live.map WcnClient.sockfd then none
    else
      let new : WcnClient := ⟨some fd, type, c.accepted⟩
      let table := (storeClientFd c.flagConnect new c.table).getD (c.table.dropLast ++ [new])
      some ⟨table, c.flagConnect || type = .slog, c.accepted + 1, new :: c.live⟩
  | .notify type broken =>
    some ⟨c.table.map (WcnClient.afterNotify type broken), c.flagConnect, c.accepted,
      c.live.filter fun a => a ∉ c.table ∨ (a.afterNotify type broken).sockfd.isSome⟩

/-- Where the search of `store_client_fd` ends: after the first client of the type SLOG, the search
for another one looks at the types only. -/
def stopsAt (flagConnect : Bool) (fd : Nat) (type : SocketType) (c : WcnClient) : Bool :=
  if flagConnect = true ∧ type = .slog then c.type = .slog
  else c.sockfd = none ∨ c.sockfd = some fd

def FindsFree (c : Clients) : Event → Prop
  | .accept fd type => (c.table.find? (stopsAt c.flagConnect fd type)).any (·.sockfd = none) = true
  | .notify _ _ => True

structure Inv (c : Clients) : Prop where
  perm : c.live.Perm (c.table.filter (·.sockfd.isSome))
  nodup : (c.live.map WcnClient.sockfd).Nodup

theorem storeClientFd_free {flagConnect : Bool} {table : List WcnClient} (conn : Nat)
    (h : (table.find? (stopsAt flagConnect fd type)).any (·.sockfd = none) = true) :
    ∃ before s after, table = before ++ s :: after ∧ s.sockfd = none ∧
      storeClientFd flagConnect ⟨some fd, type, conn⟩ table =
        some (before ++ ⟨some fd, type, conn⟩ :: after) := by
  induction table with
  | nil => cases h
  | cons c cs ih =>
    cases hstop : stopsAt flagConnect fd type c with
    | true =>
      rw [find?_cons_of_pos hstop, Option.any_some] at h
      have hfree : c.sockfd = none := of_decide_eq_true h
      refine ⟨[], c, cs, rfl, hfree, ?_⟩
      rw [stopsAt] at hstop
      rw [storeClientFd]
      split
      · rw [if_pos ‹_›] at hstop
        exact if_pos (of_decide_eq_true hstop)
      · rfl
    | false =>
      rw [find?_cons_of_neg (by rw [hstop]; decide)] at h
      obtain ⟨before, s, after, rfl, hfree, hstore⟩ := ih h
      refine ⟨c :: before, s, after, rfl, hfree, ?_⟩
      rw [stopsAt] at hstop
      rw [storeClientFd, hstore]
      split
      · rw [if_pos ‹_›] at hstop
        exact if_neg (of_decide_eq_false hstop)
      · rw [if_neg ‹_›, decide_eq_false_iff_not, not_or] at hstop
        rw [if_neg hstop.1, if_neg hstop.2]
        rfl

theorem afterNotify_cases (type : SocketType) (broken : List Nat) (a : WcnClient) :
    a.afterNotify type broken = a ∨ (a.afterNotify type broken).sockfd = none := by
  rw [WcnClient.afterNotify]
  split
  · exact .inl rfl
  · split
    · exact .inr rfl
    · exact .inl rfl

theorem filter_afterNotify (type : SocketType) (broken : List Nat) (table : List WcnClient) :
    (table.map (WcnClient.afterNotify type broken)).filter (·.sockfd.isSome) =
      (table.filter (·.sockfd.isSome)).filter (·.afterNotify type broken |>.sockfd.isSome) := by
  rw [filter_filter, filter_map]
  induction table with
  | nil => rfl
  | cons a table ih =>
    rw [filter_cons, filter_cons, Function.comp_apply]
    obtain he | he := afterNotify_cases type broken a
    · rw [he, Bool.and_self]
      split
      · rw [map_cons, he, ih]
      · exact ih
    · rw [he]
      exact ih

theorem Inv.step (h : Inv c) (hok : c.FindsFree e) (hs : c.step e = some c') : Inv c' := by
  cases e with
  | accept fd type =>
    rw [Clients.step] at hs
    split at hs
    · cases hs
    rename_i hnew
    cases hs
    obtain ⟨before, s, after, htable, hfree, hstore⟩ := storeClientFd_free c.accepted hok
    refine ⟨?_, nodup_cons.mpr ⟨fun hm => hnew (.inr hm), h.nodup⟩⟩
    have hperm := h.perm
    rw [htable, filter_append, filter_cons_of_neg (by simp [hfree])] at hperm
    rw [hstore, Option.getD_some, filter_append, filter_cons_of_pos rfl]
    exact (hperm.cons _).trans perm_middle.symm
  | notify type broken =>
    cases hs
    refine ⟨?_, h.nodup.sublist (filter_sublist.map _)⟩
    have hlive : ∀ a ∈ c.live, (decide (a ∉ c.table ∨
        (a.afterNotify type broken).sockfd.isSome = true)) =
          (a.afterNotify type broken).sockfd.isSome := by
      intro a ha
      have hmem : a ∈ c.table := mem_of_mem_filter (h.perm.subset ha)
      simp [hmem]
    rw [filter_afterNotify, filter_congr hlive]
    exact h.perm.filter _

end Clients
end SprdVendor.Download
