import SprdVendor.NvItem.Sync

namespace SprdVendor.NvItem
open Lib Option

def magicNum : Nat := 0x524d4e56

def packetHeadSize : Nat := 20

def packetSize : Nat := 1024

def i32 (n : Nat) : Int := if n < 2 ^ 31 then n else n - 2 ^ 32

inductive Packet where
  | start (payload : List UInt8)
  | cont (payload : List UInt8)
  | skip
  | fail
deriving DecidableEq

/-- The `sizeOfPacket` bytes from the packet body on. A size beyond the buffer exposes what
`beyond` finds behind it in memory. -/
def payload (b : List UInt8) (beyond : Nat → UInt8) : List UInt8 :=
  (b.drop packetHeadSize ++ (List.range (word b 16 - packetSize)).map beyond).take (word b 16)

/-- The function `_getPacket` on the bytes that one `read` of the channel returned; `channel_read` answers
failure unless the read filled the buffer. -/
def getPacket (nv : Nv) (b : List UInt8) (beyond : Nat → UInt8) : Packet × Nv :=
  if b.length < packetHeadSize + packetSize then (.fail, nv)
  else if b.length < packetHeadSize then (.skip, nv)
  else if word b 0 ≠ magicNum then (.skip, nv)
  else if (b.length : Int) < i32 (u32 (packetHeadSize + word b 16)) then (.skip, nv)
  else if nv.idxGrp = word b 8 then
    if u32 (nv.idxSub + 1) = word b 12 then
      (.cont (payload b beyond), { nv with idxSub := u32 (nv.idxSub + 1) })
    else (.skip, nv)
  else if word b 12 = 0 then
    (.start (payload b beyond), { nv with idxGrp := word b 8, idxSub := 0 })
  else (.skip, nv)

theorem getPacket_nv (nv : Nv) (b : List UInt8) (beyond : Nat → UInt8) :
    (getPacket nv b beyond).2.ctl = nv.ctl ∧ (getPacket nv b beyond).2.sync = nv.sync := by
  unfold getPacket
  repeat' split
  all_goals exact ⟨rfl, rfl⟩

def packetBytes (grp sub : Nat) (p : List UInt8) : List UInt8 :=
  toLe 4 magicNum ++ toLe 4 0 ++ toLe 4 grp ++ toLe 4 sub ++ toLe 4 p.length ++ p ++
    List.replicate (packetSize - p.length) 0

def initPacket (nv : Nv) : Nv := { nv with idxGrp := 2 ^ 32 - 1, idxSub := 0 }

def Nv.init [Target] (ctl : List Part) : Nv :=
  initPacket ⟨ctl, ⟨.head, false, 0, List.replicate (Target.ptrSize * reqSize) 0, 0, none, 0, 0⟩,
    0, 0⟩

def oneSector [Target] : Nv := .init (initBuf [(⟨1, 512⟩, List.replicate 516 0)])

def fillSector (b : UInt8) : List UInt8 :=
  tokenBytes syncReqHead 1 1 0 0 ++ tokenBytes syncReqBody 2 1 0 1 ++ List.replicate 512 b ++
    tokenBytes syncReqTail 3 1 0 0

inductive Accept where
  | again (nv : Nv) (evs : List Ev)
  | parse (nv : Nv) (buf : List UInt8)
deriving DecidableEq

def Nv.setBusy (nv : Nv) : Nv := { nv with sync := { nv.sync with busy := true } }

/-- The branches of `syncAnalyzer` on the verdict. After a channel failure the analyzer returns
and `main` opens the channel again. -/
def accept (nv : Nv) : Packet → Option Accept
  | .fail => (syncFailReset nv).map fun nv =>
      .again { initPacket nv with sync := nv.sync.init } []
  | .start buf =>
    if nv.sync.busy then (syncFailReset nv).map fun nv => .parse nv.setBusy buf
    else some (.parse nv.setBusy buf)
  | .cont buf => if nv.sync.busy then some (.parse nv.setBusy buf) else some (.again nv [.rsp 0])
  | .skip => some (.again nv [])

inductive Takes (nv : Nv) : Packet → Option Accept → Prop where
  | fail : Takes nv .fail ((syncFailReset nv).map fun nv =>
      .again { initPacket nv with sync := nv.sync.init } [])
  | skip : Takes nv .skip (some (.again nv []))
  | restart (hb : nv.sync.busy = true) :
      Takes nv (.start buf) ((syncFailReset nv).map fun nv => .parse nv.setBusy buf)
  | start (hb : nv.sync.busy = false) : Takes nv (.start buf) (some (.parse nv.setBusy buf))
  | cont (hb : nv.sync.busy = true) : Takes nv (.cont buf) (some (.parse nv.setBusy buf))
  | stray (hb : nv.sync.busy = false) : Takes nv (.cont buf) (some (.again nv [.rsp 0]))

theorem accept_takes (nv : Nv) (p : Packet) : Takes nv p (accept nv p) := by
  cases p with
  | fail => exact .fail
  | skip => exact .skip
  | start buf =>
    cases hb : nv.sync.busy with
    | true =>
      rw [accept, if_pos hb]
      exact .restart hb
    | false =>
      rw [accept, if_neg (by rw [hb]; exact nofun)]
      exact .start hb
  | cont buf =>
    cases hb : nv.sync.busy with
    | true =>
      rw [accept, if_pos hb]
      exact .cont hb
    | false =>
      rw [accept, if_neg (by rw [hb]; exact nofun)]
      exact .stray hb

/-- Bounds the turns the loop of the analyzer has left. A full token buffer counts, because
`__getToken` then answers without taking a byte. -/
def loopBound (nv : Nv) (buf : List UInt8) : Nat :=
  2 * buf.length + (if nv.sync.state = .data then 1 else 0) +
    if reqSize ≤ nv.sync.ofst then 2 else 0

theorem getToken_true [Target] (h : getToken s buf = (true, s', buf')) :
    s'.ofst = 0 ∧ 2 * buf'.length + 2 ≤ 2 * buf.length + if reqSize ≤ s.ofst then 2 else 0 := by
  unfold getToken at h
  split at h
  · split at h <;> cases h
  split at h
  · cases h
    rw [if_pos (by omega)]
    exact ⟨rfl, le_refl _⟩
  · cases h
    rw [if_neg (by omega), List.length_drop]
    exact ⟨rfl, by omega⟩

theorem syncGetHead_next [Target] (h : syncGetHead nv buf = (.next, nv', buf')) :
    ∃ s, getToken nv.sync buf = (true, s, buf') ∧ nv'.sync.ofst = s.ofst := by
  unfold syncGetHead at h
  rcases hg : getToken nv.sync buf with ⟨b, s, r⟩
  rw [hg] at h
  cases b with
  | false => cases h
  | true =>
    dsimp only at h
    split at h
    · cases h
    · simp only [Prod.mk.injEq] at h
      obtain ⟨-, hn, hb⟩ := h
      exact ⟨s, by rw [hb], by rw [← hn]⟩

theorem syncGetBody_next [Target] (h : syncGetBody nv buf = some (.next, nv', buf', evs)) :
    ∃ s, getToken nv.sync buf = (true, s, buf') ∧ nv'.sync.ofst = s.ofst := by
  unfold syncGetBody at h
  rcases hg : getToken nv.sync buf with ⟨b, s, r⟩
  rw [hg] at h
  cases b with
  | false => cases h
  | true =>
    dsimp only at h
    split at h
    · split at h
      · cases h
      obtain ⟨ctl, -, hn⟩ := map_eq_some_iff.1 h
      simp only [Prod.mk.injEq] at hn
      obtain ⟨-, hn, hb, -⟩ := hn
      exact ⟨s, by rw [hb], by rw [← hn]⟩
    · split at h
      · split at h <;> cases h
      · cases h

theorem syncGetData_next (h : syncGetData nv buf = some (.next, nv', buf', evs)) :
    buf' = buf.drop nv.sync.len ∧ nv'.sync.ofst = nv.sync.ofst := by
  unfold syncGetData at h
  dsimp only at h
  split at h
  · obtain ⟨ctl, -, hn⟩ := map_eq_some_iff.1 h
    simp only [Prod.mk.injEq] at hn
    obtain ⟨-, hn, hb, -⟩ := hn
    exact ⟨hb.symm, by rw [← hn]⟩
  · obtain ⟨ctl, -, hn⟩ := map_eq_some_iff.1 h
    simp only [Prod.mk.injEq, reduceCtorEq, false_and] at hn

theorem failBreak_ne_next : failBreak nv ≠ some (.next nv' buf evs) := by
  intro h
  obtain ⟨n, -, hn⟩ := map_eq_some_iff.1 h
  cases hn

theorem iter_next_lt [Target] (h : iter nv buf = some (.next nv' buf' evs)) :
    loopBound nv' buf' < loopBound nv buf := by
  unfold iter at h
  split at h
  · rename_i hst
    rcases hh : syncGetHead nv buf with ⟨r, n, b⟩
    rw [hh] at h
    cases r with
    | fail => exact (failBreak_ne_next h).elim
    | next =>
      cases h
      obtain ⟨s, hg, ho⟩ := syncGetHead_next hh
      obtain ⟨hs, hb⟩ := getToken_true hg
      simp only [loopBound, Nv.setState, ho, hs, hst, reqSize, reduceCtorEq, if_false,
        Nat.reduceLeDiff] at hb ⊢
      omega
    | _ => cases h
  · rename_i hst
    rcases hh : syncGetBody nv buf with _ | ⟨r, n, b, e⟩
    · rw [hh] at h
      cases h
    rw [hh] at h
    cases r with
    | fail => exact (failBreak_ne_next h).elim
    | next =>
      cases h
      obtain ⟨s, hg, ho⟩ := syncGetBody_next hh
      obtain ⟨hs, hb⟩ := getToken_true hg
      simp only [loopBound, Nv.setState, ho, hs, hst, reqSize, reduceCtorEq, if_false,
        if_true, Nat.reduceLeDiff] at hb ⊢
      omega
    | _ => cases h
  · rename_i hst
    rcases hh : syncGetData nv buf with _ | ⟨r, n, b, e⟩
    · rw [hh] at h
      cases h
    rw [hh] at h
    cases r with
    | next =>
      cases h
      obtain ⟨hb, ho⟩ := syncGetData_next hh
      simp only [loopBound, Nv.setState, ho, hb, hst, reduceCtorEq, if_false, if_true,
        List.length_drop]
      omega
    | _ => cases h

/-- The loop of `syncAnalyzer` over the bytes of one packet, for a number of turns. `wr` answers for
`ramDisk_Write` in calibration mode. There is no result when memory is left. -/
def turns [Target] (cali : Bool) (wr : Nat → Bool) :
    Nat → Nv → List UInt8 → Option (Nv × List Ev)
  | 0, nv, _ => some (nv, [])
  | n + 1, nv, buf =>
    if buf = [] then some (nv, [])
    else
      match iter nv buf with
      | none => none
      | some (.next nv buf evs) => (turns cali wr n nv buf).map fun r => (r.1, evs ++ r.2)
      | some (.brk nv evs) => some (nv, evs)
      | some (.done nv) =>
        (backupData cali wr nv.ctl nv.sync.id).map fun ctl =>
          ({ nv with ctl := ctl, sync := nv.sync.init }, [.commit (nv.sync.id.getD 0), .rsp 1])

def analyze [Target] (cali : Bool) (wr : Nat → Bool) (nv : Nv) (buf : List UInt8) :
    Option (Nv × List Ev) :=
  turns cali wr (loopBound nv buf + 1) nv buf

/-- Turns beyond the bound are never taken. -/
theorem turns_eq_analyze [Target] (h : loopBound nv buf < n) :
    turns cali wr n nv buf = analyze cali wr nv buf := by
  have he (m : Nat) : ∀ n nv buf, loopBound nv buf < n → loopBound nv buf < m →
      turns cali wr n nv buf = turns cali wr m nv buf := by
    induction m with
    | zero => exact fun _ _ _ _ h => (Nat.not_lt_zero _ h).elim
    | succ m ih =>
      intro n nv buf hn hm
      cases n with
      | zero => exact (Nat.not_lt_zero _ hn).elim
      | succ n =>
        rw [turns, turns]
        cases hi : iter nv buf with
        | none => rfl
        | some o =>
          cases o with
          | next nv' buf' evs =>
            have hlt := iter_next_lt hi
            dsimp only
            rw [ih n nv' buf' (by omega) (by omega)]
          | _ => rfl
  exact he _ _ _ _ h (Nat.lt_succ_self _)

theorem analyze_nil [Target] : analyze cali wr nv [] = some (nv, []) := by
  rw [analyze, turns, if_pos rfl]

theorem analyze_next [Target] (hb : buf ≠ []) (h : iter nv buf = some (.next nv' buf' evs)) :
    analyze cali wr nv buf = (analyze cali wr nv' buf').map fun r => (r.1, evs ++ r.2) := by
  rw [analyze, turns, if_neg hb, h]
  dsimp only
  rw [turns_eq_analyze (iter_next_lt h)]

theorem analyze_brk [Target] (hb : buf ≠ []) (h : iter nv buf = some (.brk nv' evs)) :
    analyze cali wr nv buf = some (nv', evs) := by
  rw [analyze, turns, if_neg hb, h]

theorem analyze_done [Target] (hb : buf ≠ []) (h : iter nv buf = some (.done nv')) :
    analyze cali wr nv buf = (backupData cali wr nv'.ctl nv'.sync.id).map fun ctl =>
      ({ nv' with ctl := ctl, sync := nv'.sync.init }, [.commit (nv'.sync.id.getD 0), .rsp 1]) := by
  rw [analyze, turns, if_neg hb, h]

theorem analyze_none [Target] (hb : buf ≠ []) (h : iter nv buf = none) :
    analyze cali wr nv buf = none := by
  rw [analyze, turns, if_neg hb, h]

def handle [Target] (cali : Bool) (wr : Nat → Bool) (nv : Nv) (p : Packet) :
    Option (Nv × List Ev) :=
  (accept nv p).bind fun
    | .again nv evs => some (nv, evs)
    | .parse nv buf => analyze cali wr nv buf

end SprdVendor.NvItem
