import SprdVendor.Download.Entry
import SprdVendor.Lib.Slots

namespace SprdVendor.Download
open Lib List Option

def about (k : Nat) : Event → Bool
  | .read k' _ => k' = k
  | .sent k' _ => k' = k
  | _ => false

/-- What the command asks for is complete: `before` are the events before it was read and `after`
those since. Nothing is done for `stop`. -/
def Complete : Command → List Event → List Event → Prop
  | .start, before, after => .downloaded ∈ before ++ after
  | .stop, _, _ => True
  | .reboot, _, after => [.powered, .downloaded].Sublist after
  | .dump, _, after => [.powered, .dumped].Sublist after

def Answered (log : List Event) (k : Nat) (cmd : Command) : Prop :=
  log.filter (about k) = [.read k cmd, .sent k cmd.response] ∧
    ∃ before after rest,
      log = before ++ .read k cmd :: (after ++ .sent k cmd.response :: rest) ∧
      Complete cmd before after

theorem Complete.mono {after new : List Event} (h : Complete cmd before after) :
    Complete cmd before (after ++ new) := by
  cases cmd with
  | stop => trivial
  | start =>
    have h : Event.downloaded ∈ before ++ after := h
    have hmem : Event.downloaded ∈ before ++ after ++ new := mem_append_left _ h
    rwa [append_assoc] at hmem
  | _ => exact List.Sublist.trans h (sublist_append_left _ _)

theorem Answered.append {log new : List Event} (h : Answered log k cmd)
    (hnew : new.filter (about k) = []) : Answered (log ++ new) k cmd := by
  obtain ⟨hfilter, before, after, rest, rfl, hc⟩ := h
  refine ⟨by rw [filter_append, hfilter, hnew]; rfl, before, after, rest ++ new, ?_, hc⟩
  simp

namespace WcnClient

def key (c : WcnClient) : Option Nat := c.sockfd.map fun _ => c.conn

theorem key_eq_some (h : key c = some k) : ∃ fd, c.sockfd = some fd ∧ c.conn = k :=
  map_eq_some_iff.1 h

theorem key_of_written {ty : SocketType} (h : written ty broken c = some k) : key c = some k := by
  rw [written] at h
  split at h
  · cases h
  case h_2 fd hfd =>
    split at h
    · cases h
      rw [key, hfd]
      rfl
    · cases h

theorem written_of_ne {ty : SocketType} (h : c.type ≠ ty) : written ty broken c = none := by
  rw [written]
  split
  · rfl
  · exact if_neg fun hc => h hc.1

theorem key_afterNotify (ty : SocketType) (broken : List Nat) (c : WcnClient) :
    key (afterNotify ty broken c) = key c ∨ key (afterNotify ty broken c) = none := by
  rw [afterNotify]
  split
  · exact .inl rfl
  · split
    · exact .inr rfl
    · exact .inl rfl

theorem type_afterNotify (ty : SocketType) (broken : List Nat) (c : WcnClient) :
    (afterNotify ty broken c).type = c.type := by
  rw [afterNotify]
  split
  · rfl
  · split <;> rfl

theorem afterNotify_of_ne {ty : SocketType} (h : c.type ≠ ty) : afterNotify ty broken c = c := by
  rw [afterNotify]
  split
  · rfl
  · exact if_neg fun hc => h hc.1

theorem key_afterNotify_wcnd (h : c.type = .wcnd) : key (afterNotify .wcnd broken c) = none := by
  rw [afterNotify]
  split
  case h_1 hfd => rw [key, hfd]; rfl
  · rw [if_pos ⟨h, .inr h⟩]; rfl

end WcnClient

def sentAll (clients : List WcnClient) (info : String) (type : SocketType) (broken : List Nat) :
    List Event :=
  (clients.filterMap (WcnClient.written type broken)).map fun k => .sent k info

theorem filter_sentAll {clients : List WcnClient} (h : Distinct WcnClient.key clients)
    (info : String) (type : SocketType) (broken : List Nat) (k : Nat) :
    (sentAll clients info type broken).filter (about k) =
      ((slot? WcnClient.key clients k).bind (WcnClient.written type broken)).toList.map
        fun k => .sent k info := by
  have hkey := filter_filterMap h (fun c k => @WcnClient.key_of_written broken c k type) k
  have hfilter : (about k ∘ fun k => Event.sent k info) = fun k' => decide (k' = k) := rfl
  rw [sentAll, List.filter_map, hfilter, hkey]

theorem filter_sentAll_eq_nil {clients : List WcnClient} (h : Distinct WcnClient.key clients)
    (hk : ∀ c ∈ clients, c.key = some k → c.type ≠ type) :
    (sentAll clients info type broken).filter (about k) = [] := by
  rw [filter_sentAll h]
  cases hs : slot? WcnClient.key clients k with
  | none => rfl
  | some c =>
    rw [bind_some, WcnClient.written_of_ne (hk c (slot?_mem hs) (slot?_key hs))]
    rfl

theorem filter_sentAll_of_slot {clients : List WcnClient} (h : Distinct WcnClient.key clients)
    (hc : c ∈ clients) (hk : c.key = some k) (hw : c.written type broken = some k) :
    (sentAll clients info type broken).filter (about k) = [.sent k info] := by
  rw [filter_sentAll h, slot?_of_mem h hc hk, bind_some, hw]
  rfl

/-- The books of the daemon: what the table and the log say of each connection; `waiting` are the
commands that have been read and not answered. -/
structure Book (clients : List WcnClient) (log : List Event) (accepted : Nat)
    (waiting : Nat → Command → Prop) : Prop where
  distinct : Distinct WcnClient.key clients
  bound : ∀ k ∈ clients.filterMap WcnClient.key, k < accepted
  fresh : ∀ k, accepted ≤ k → log.filter (about k) = []
  quiet : ∀ c ∈ clients, c.type = .wcnd → ∀ k, c.key = some k → ∀ info, .sent k info ∉ log
  read : ∀ k cmd, .read k cmd ∈ log →
    Answered log k cmd ∧ k ∉ clients.filterMap WcnClient.key ∨ waiting k cmd

namespace Book

variable {clients : List WcnClient} {log : List Event} {accepted : Nat}
  {waiting waiting' : Nat → Command → Prop} (h : Book clients log accepted waiting)
include h

theorem mono (hw : ∀ k cmd, waiting k cmd → waiting' k cmd) :
    Book clients log accepted waiting' := by
  refine ⟨h.distinct, h.bound, h.fresh, h.quiet, ?_⟩
  intro k cmd hmem
  exact (h.read k cmd hmem).imp_right (hw k cmd)

theorem note (he : ∀ k, about k e = false) : Book clients (log ++ [e]) accepted waiting := by
  have hfilter (k : Nat) : [e].filter (about k) = [] := by simp [he k]
  refine ⟨h.distinct, h.bound, ?_, ?_, ?_⟩
  · intro k hk
    rw [filter_append, h.fresh k hk, hfilter]
    rfl
  · intro c hc htype k hk info hmem
    rcases mem_append.1 hmem with hmem | hmem
    · exact h.quiet c hc htype k hk info hmem
    · cases mem_singleton.1 hmem
      have := he k
      simp [about] at this
  intro k cmd hmem
  rcases mem_append.1 hmem with hmem | hmem
  · exact (h.read k cmd hmem).imp_left fun ha => ⟨ha.1.append (hfilter k), ha.2⟩
  · cases mem_singleton.1 hmem
    have := he k
    simp [about] at this

theorem not_mem_of_le (hk : accepted ≤ k) : k ∉ clients.filterMap WcnClient.key := by
  intro hmem
  have := h.bound k hmem
  omega

omit h in
theorem not_mem_keys (hk : k ∉ clients.filterMap WcnClient.key) :
    ∀ c ∈ clients, c.key = some k → c.type ≠ type :=
  fun c hc hkey => absurd (mem_filterMap.2 ⟨c, hc, hkey⟩) hk

theorem unsent (hk : k ∉ clients.filterMap WcnClient.key) :
    (sentAll clients info type broken).filter (about k) = [] :=
  filter_sentAll_eq_nil h.distinct (not_mem_keys hk)

omit h in
theorem not_read_sentAll : .read k cmd ∉ sentAll clients info type broken := by
  intro hmem
  obtain ⟨k', -, hk'⟩ := mem_map.1 hmem
  cases hk'

omit h in
theorem mem_keys_afterNotify
    (hk : k ∈ (clients.map (WcnClient.afterNotify type broken)).filterMap WcnClient.key) :
    k ∈ clients.filterMap WcnClient.key :=
  mem_filterMap_map (WcnClient.key_afterNotify type broken) hk

theorem notifySlog (info : String) (broken : List Nat) :
    Book (clients.map (WcnClient.afterNotify .slog broken))
      (log ++ sentAll clients info .slog broken) accepted waiting := by
  refine ⟨h.distinct.map (WcnClient.key_afterNotify .slog broken), ?_, ?_, ?_, ?_⟩
  · intro k hk
    exact h.bound k (mem_keys_afterNotify hk)
  · intro k hk
    rw [filter_append, h.fresh k hk, h.unsent (h.not_mem_of_le hk)]
    rfl
  · intro c' hc' htype k hk info' hmem
    obtain ⟨c, hc, rfl⟩ := mem_map.1 hc'
    rw [WcnClient.type_afterNotify] at htype
    have hne : c.type ≠ .slog := by
      rw [htype]
      decide
    rw [WcnClient.afterNotify_of_ne hne] at hk
    rcases mem_append.1 hmem with hmem | hmem
    · exact h.quiet c hc htype k hk info' hmem
    have hmem : Event.sent k info' ∈ (sentAll clients info .slog broken).filter (about k) :=
      mem_filter.2 ⟨hmem, decide_eq_true rfl⟩
    have hslot := slot?_of_mem h.distinct hc hk
    rw [filter_sentAll h.distinct, hslot, bind_some, WcnClient.written_of_ne hne] at hmem
    cases hmem
  · intro k cmd hmem
    rcases mem_append.1 hmem with hmem | hmem
    · rcases h.read k cmd hmem with ⟨ha, hk⟩ | hw
      · exact .inl ⟨ha.append (h.unsent hk), fun hk' => hk (mem_keys_afterNotify hk')⟩
      · exact .inr hw
    · exact absurd hmem not_read_sentAll

theorem notifyWcnd (broken : List Nat) (cmd : Command)
    (hw : ∀ k cmd', waiting k cmd' → cmd' = cmd ∧ log.filter (about k) = [.read k cmd] ∧
      (∃ before after, log = before ++ .read k cmd :: after ∧ Complete cmd before after) ∧
      ∃ c ∈ clients, c.type = .wcnd ∧ c.key = some k ∧ c.written .wcnd broken = some k) :
    Book (clients.map (WcnClient.afterNotify .wcnd broken))
      (log ++ sentAll clients cmd.response .wcnd broken) accepted fun _ _ => False := by
  refine ⟨h.distinct.map (WcnClient.key_afterNotify .wcnd broken), ?_, ?_, ?_, ?_⟩
  · intro k hk
    exact h.bound k (mem_keys_afterNotify hk)
  · intro k hk
    rw [filter_append, h.fresh k hk, h.unsent (h.not_mem_of_le hk)]
    rfl
  · intro c' hc' htype k hk
    obtain ⟨c, hc, rfl⟩ := mem_map.1 hc'
    rw [WcnClient.type_afterNotify] at htype
    rw [WcnClient.key_afterNotify_wcnd htype] at hk
    cases hk
  intro k cmd' hmem
  rcases mem_append.1 hmem with hmem | hmem
  · rcases h.read k cmd' hmem with ⟨ha, hk⟩ | hwait
    · exact .inl ⟨ha.append (h.unsent hk), fun hk' => hk (mem_keys_afterNotify hk')⟩
    obtain ⟨rfl, hfilter, ⟨before, after, rfl, hcomplete⟩, c, hc, htype, hkey, hwritten⟩ :=
      hw k cmd' hwait
    have hsent := @filter_sentAll_of_slot _ _ _ _ cmd'.response _ h.distinct hc hkey hwritten
    refine .inl ⟨⟨?_, ?_⟩, ?_⟩
    · rw [filter_append, hfilter, hsent]
      rfl
    · have hmem : Event.sent k cmd'.response ∈ sentAll clients cmd'.response .wcnd broken := by
        have := mem_singleton_self (Event.sent k cmd'.response)
        rw [← hsent] at this
        exact (mem_filter.1 this).1
      obtain ⟨l, r, hsplit⟩ := append_of_mem hmem
      refine ⟨before, after ++ l, r, ?_, hcomplete.mono⟩
      simp [hsplit]
    · intro hk
      obtain ⟨c', hc', hk'⟩ := mem_filterMap.1 hk
      obtain ⟨a, ha, rfl⟩ := mem_map.1 hc'
      have hka : a.key = some k := by
        rcases WcnClient.key_afterNotify .wcnd broken a with he | he
        · rw [← he, hk']
        · rw [he] at hk'
          cases hk'
      have hac := (slot?_of_mem h.distinct ha hka).symm.trans (slot?_of_mem h.distinct hc hkey)
      cases hac
      rw [WcnClient.key_afterNotify_wcnd htype] at hk'
      cases hk'
  · exact absurd hmem not_read_sentAll

theorem store (hclients : clients = pre ++ a :: post)
    (hnew : new.key = some accepted) : Book (pre ++ new :: post) log (accepted + 1) waiting := by
  have hmem {k : Nat} (hk : k ∈ (pre ++ new :: post).filterMap WcnClient.key) :
      k = accepted ∨ k ∈ clients.filterMap WcnClient.key := by
    obtain ⟨c, hc, hck⟩ := mem_filterMap.1 hk
    rcases mem_append.1 hc with hc | hc
    · exact .inr (mem_filterMap.2 ⟨c, by simp [hclients, hc], hck⟩)
    · rcases mem_cons.1 hc with rfl | hc
      · exact .inl (Option.some.inj (hck.symm.trans hnew))
      · exact .inr (mem_filterMap.2 ⟨c, by simp [hclients, hc], hck⟩)
  refine ⟨?_, ?_, ?_, ?_, ?_⟩
  · have hsub : ((pre ++ post).filterMap WcnClient.key).Sublist
        (clients.filterMap WcnClient.key) := by
      rw [hclients]
      exact ((sublist_cons_self a post).append_left pre).filterMap _
    have hfresh : accepted ∉ (pre ++ post).filterMap WcnClient.key := by
      intro hk
      exact h.not_mem_of_le le_rfl (hsub.subset hk)
    rw [Distinct, filterMap_append, filterMap_cons_some hnew, nodup_middle, ← filterMap_append]
    exact nodup_cons.2 ⟨hfresh, List.Nodup.sublist hsub h.distinct⟩
  · intro k hk
    rcases hmem hk with rfl | hk
    · omega
    · have := h.bound k hk
      omega
  · intro k hk
    exact h.fresh k (by omega)
  · intro c hc htype k hk info hsent
    have hin : .sent k info ∈ log.filter (about k) :=
      mem_filter.2 ⟨hsent, decide_eq_true rfl⟩
    rcases mem_append.1 hc with hc | hc
    · exact h.quiet c (by simp [hclients, hc]) htype k hk info hsent
    rcases mem_cons.1 hc with rfl | hc
    · cases hnew.symm.trans hk
      rw [h.fresh accepted le_rfl] at hin
      cases hin
    · exact h.quiet c (by simp [hclients, hc]) htype k hk info hsent
  · intro k cmd hread
    refine (h.read k cmd hread).imp_left fun ha => ⟨ha.1, ?_⟩
    intro hk
    rcases hmem hk with rfl | hk
    · have hin : .read k cmd ∈ log.filter (about k) :=
        mem_filter.2 ⟨hread, decide_eq_true rfl⟩
      rw [h.fresh k le_rfl] at hin
      cases hin
    · exact ha.2 hk

theorem untouched (hc : c ∈ clients) (htype : c.type = .wcnd)
    (hk : c.key = some k) (hw : ∀ cmd, ¬ waiting k cmd) : log.filter (about k) = [] := by
  apply filter_eq_nil_iff.2
  intro e he habout
  cases e with
  | read k' cmd =>
    cases of_decide_eq_true habout
    rcases h.read k cmd he with ha | hwait
    · exact ha.2 (mem_filterMap.2 ⟨c, hc, hk⟩)
    · exact hw cmd hwait
  | sent k' info =>
    cases of_decide_eq_true habout
    exact h.quiet c hc htype k hk info he
  | _ => cases habout

theorem noteRead (hc : c ∈ clients) (hk : c.key = some k) (cmd : Command) :
    Book clients (log ++ [.read k cmd]) accepted
      fun k' cmd' => waiting k' cmd' ∨ k' = k ∧ cmd' = cmd := by
  have hmem := mem_filterMap.2 ⟨c, hc, hk⟩
  have hne {k' : Nat} (h' : k' ≠ k) : [Event.read k cmd].filter (about k') = [] := by
    simp [about, Ne.symm h']
  refine ⟨h.distinct, h.bound, ?_, ?_, ?_⟩
  · intro k' hk'
    have := h.bound k hmem
    rw [filter_append, h.fresh k' hk', hne (by omega)]
    rfl
  · intro c' hc' htype k' hk' info hsent
    rcases mem_append.1 hsent with hsent | hsent
    · exact h.quiet c' hc' htype k' hk' info hsent
    · cases mem_singleton.1 hsent
  intro k' cmd' hread
  rcases mem_append.1 hread with hread | hread
  · rcases h.read k' cmd' hread with ha | hw
    · refine .inl ⟨ha.1.append (hne ?_), ha.2⟩
      rintro rfl
      exact ha.2 hmem
    · exact .inr (.inl hw)
  · cases mem_singleton.1 hread
    exact .inr (.inr ⟨rfl, rfl⟩)

end Book

theorem storeClientFd_cases (h : storeClientFd flagConnect new clients = some clients') :
    clients' = clients ∨ ∃ pre a post, clients = pre ++ a :: post ∧ clients' = pre ++ new :: post ∧
      (a.sockfd = none ∨ a.type = .slog) := by
  induction clients generalizing clients' with
  | nil => cases h
  | cons c cs ih =>
    have hrest (h : (storeClientFd flagConnect new cs).map (c :: ·) = some clients') :
        clients' = c :: cs ∨ ∃ pre a post, c :: cs = pre ++ a :: post ∧
          clients' = pre ++ new :: post ∧ (a.sockfd = none ∨ a.type = .slog) := by
      obtain ⟨cs', hcs', rfl⟩ := map_eq_some_iff.1 h
      rcases ih hcs' with rfl | ⟨pre, a, post, rfl, rfl, ha⟩
      · exact .inl rfl
      · exact .inr ⟨c :: pre, a, post, rfl, rfl, ha⟩
    rw [storeClientFd] at h
    split at h
    · split at h
      case isTrue htype =>
        cases h
        exact .inr ⟨[], c, cs, rfl, rfl, .inr htype⟩
      · exact hrest h
    split at h
    case isTrue hfree =>
      cases h
      exact .inr ⟨[], c, cs, rfl, rfl, .inl hfree⟩
    · split at h
      · cases h
        exact .inl rfl
      · exact hrest h

theorem getElem?_storeClientFd {i : Nat}
    (h : storeClientFd flagConnect new clients = some clients') (hc : clients[i]? = some c)
    (hfd : c.sockfd ≠ none) (htype : c.type = .wcnd) : clients'[i]? = some c := by
  rcases storeClientFd_cases h with rfl | ⟨pre, a, post, rfl, rfl, ha⟩
  · exact hc
  by_cases hi : i < pre.length
  · rw [getElem?_append_left hi] at hc ⊢
    exact hc
  rw [getElem?_append_right (by omega)] at hc ⊢
  cases hn : i - pre.length with
  | zero =>
    rw [hn] at hc
    cases hc
    rcases ha with ha | ha
    · exact absurd ha hfd
    · rw [htype] at ha
      cases ha
  | succ n =>
    rw [hn] at hc
    exact hc

end SprdVendor.Download
