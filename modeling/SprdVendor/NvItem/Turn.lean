import SprdVendor.NvItem.Packet

namespace SprdVendor.NvItem
open Lib Option

def Sync.load (s : Sync) (buf : List UInt8) : Sync :=
  { s with reqBuf := patch s.reqBuf 0 (buf.take reqSize), ofst := 0 }

theorem word_load (s : Sync) (hl : reqSize ≤ buf.length) (hi : i + 4 ≤ reqSize) :
    word (s.load buf).reqBuf i = word buf i := by
  have ht : (buf.take reqSize).length = reqSize := by rw [List.length_take]; omega
  rw [Sync.load, patch_zero, word_append _ _ (by omega),
    ← word_append _ (buf.drop reqSize) (by omega), List.take_append_drop]

theorem load_fields (s : Sync) (hl : reqSize ≤ buf.length) :
    packetType (s.load buf).reqBuf = packetType buf ∧ reqIdx (s.load buf).reqBuf = reqIdx buf ∧
      tokPartId (s.load buf).reqBuf = tokPartId buf ∧
      bodyStart (s.load buf).reqBuf = bodyStart buf ∧ bodyNum (s.load buf).reqBuf = bodyNum buf :=
  ⟨word_load s hl (by decide : 0 + 4 ≤ 20), word_load s hl (by decide : 4 + 4 ≤ 20),
    word_load s hl (by decide : 8 + 4 ≤ 20), word_load s hl (by decide : 12 + 4 ≤ 20),
    word_load s hl (by decide : 16 + 4 ≤ 20)⟩

variable [Target] {nv : Nv} {buf : List UInt8}

theorem getToken_short (ho : s.ofst = 0) (hb : buf ≠ []) (hl : buf.length < reqSize) :
    getToken s buf = (false, s, buf) := by
  have hb' : buf.length ≠ 0 := fun h => hb (List.eq_nil_of_length_eq_zero h)
  rw [getToken, ho, Nat.sub_zero, if_pos hl, if_pos hb']

theorem getToken_full (ho : s.ofst = 0) (hl : reqSize ≤ buf.length) :
    getToken s buf = (true, s.load buf, buf.drop reqSize) := by
  have hr : ¬reqSize = 0 := by decide
  rw [getToken, ho, Nat.sub_zero, if_neg (by omega), if_neg hr, Nat.mul_zero, Sync.load]

inductive Turn (nv : Nv) (buf : List UInt8) : Option Iter → Prop where
  | short (hs : nv.sync.state ≠ .data) (hl : buf.length < reqSize) :
      Turn nv buf (some (.brk nv [.rsp 1]))
  | head (i : Nat) (hs : nv.sync.state = .head) (hl : reqSize ≤ buf.length)
      (ht : packetType buf = syncReqHead) (hi : getCtlId nv.ctl (tokPartId buf) = some i) :
      Turn nv buf (some (.next { nv with
        sync := { nv.sync.load buf with state := .body, reqFrame := reqIdx buf, id := some i } }
        (buf.drop reqSize) []))
  | badHead (hs : nv.sync.state = .head) (hl : reqSize ≤ buf.length)
      (hb : packetType buf ≠ syncReqHead ∨ getCtlId nv.ctl (tokPartId buf) = none) :
      Turn nv buf (some (.brk { nv with sync := (nv.sync.load buf).init } [.fail, .rsp 0]))
  | body (hs : nv.sync.state = .body) (hl : reqSize ≤ buf.length)
      (ht : packetType buf = syncReqBody) (hi : reqIdx buf = u32 (nv.sync.reqFrame + 1)) :
      Turn nv buf ((onPart nv.ctl nv.sync.id fun p =>
        p.markDirtyInfo (bodyStart buf) (bodyNum buf)).map fun ctl => .next { nv with
          ctl := ctl
          sync := { nv.sync.load buf with
            state := .data, reqFrame := u32 (nv.sync.reqFrame + 1)
            start := u32 (bodyStart buf * sectSize), len := u32 (bodyNum buf * sectSize) } }
          (buf.drop reqSize) [.mark (nv.sync.id.getD 0) (bodyStart buf) (bodyNum buf)])
  | tail (hs : nv.sync.state = .body) (hl : reqSize ≤ buf.length)
      (ht : packetType buf = syncReqTail) (hi : reqIdx buf = u32 (nv.sync.reqFrame + 1)) :
      Turn nv buf (some (.done { nv with
        sync := { nv.sync.load buf with reqFrame := u32 (nv.sync.reqFrame + 1) } }))
  | badBody (hs : nv.sync.state = .body) (hl : reqSize ≤ buf.length)
      (hb : packetType buf ≠ syncReqBody ∧ packetType buf ≠ syncReqTail ∨
        reqIdx buf ≠ u32 (nv.sync.reqFrame + 1)) :
      Turn nv buf ((onPart nv.ctl nv.sync.id fun p => some p.restoreData).map fun ctl =>
        .brk { nv with ctl := ctl, sync := (nv.sync.load buf).init } [.fail, .rsp 0])
  | dataAll (hs : nv.sync.state = .data) (hl : nv.sync.len ≤ buf.length) :
      Turn nv buf ((onPart nv.ctl nv.sync.id fun p =>
        p.writeData nv.sync.start (buf.take nv.sync.len)).map fun ctl => .next { nv with
          ctl := ctl
          sync := { nv.sync with
            state := .body, start := u32 (nv.sync.start + nv.sync.len), len := 0 } }
          (buf.drop nv.sync.len)
          (copies nv.ctl nv.sync.id nv.sync.start (buf.take nv.sync.len)))
  | dataSome (hs : nv.sync.state = .data) (hl : buf.length < nv.sync.len) :
      Turn nv buf ((onPart nv.ctl nv.sync.id fun p =>
        p.writeData nv.sync.start buf).map fun ctl => .brk { nv with
          ctl := ctl
          sync := { nv.sync with
            start := u32 (nv.sync.start + buf.length), len := nv.sync.len - buf.length } }
          (copies nv.ctl nv.sync.id nv.sync.start buf ++ [.rsp 1]))

theorem turn_head (hs : nv.sync.state = .head) (ho : nv.sync.ofst = 0)
    (hl : reqSize ≤ buf.length) : Turn nv buf (iter nv buf) := by
  obtain ⟨h₀, h₁, h₂, -, -⟩ := load_fields nv.sync hl
  have hr : (nv.sync.load buf).state = .head := hs
  rw [iter, hs, syncGetHead, getToken_full ho hl]
  dsimp only
  rw [h₀, h₁, h₂]
  by_cases ht : packetType buf = syncReqHead
  · rw [if_neg (fun h => h ht)]
    cases hi : getCtlId nv.ctl (tokPartId buf) with
    | none =>
      simp only [isNone_none, if_true, failBreak, syncFailReset, hr, map_some]
      exact .badHead hs hl (.inr hi)
    | some i => exact .head i hs hl ht hi
  · rw [if_pos ht]
    simp only [failBreak, syncFailReset, hr, if_true, map_some]
    exact .badHead hs hl (.inl ht)

theorem turn_bad_body (hs : nv.sync.state = .body) (hl : reqSize ≤ buf.length)
    (hg : syncGetBody nv buf =
      some (.fail, { nv with sync := nv.sync.load buf }, buf.drop reqSize, []))
    (hb : packetType buf ≠ syncReqBody ∧ packetType buf ≠ syncReqTail ∨
      reqIdx buf ≠ u32 (nv.sync.reqFrame + 1)) : Turn nv buf (iter nv buf) := by
  have hr : (nv.sync.load buf).state = .body := hs
  rw [iter, hs, hg]
  simp only [failBreak, syncFailReset, hr, reduceCtorEq, if_false, map_map]
  exact .badBody hs hl hb

theorem turn_body (hs : nv.sync.state = .body) (ho : nv.sync.ofst = 0)
    (hl : reqSize ≤ buf.length) : Turn nv buf (iter nv buf) := by
  obtain ⟨h₀, h₁, -, h₃, h₄⟩ := load_fields nv.sync hl
  have hf : (nv.sync.load buf).reqFrame = nv.sync.reqFrame := rfl
  have hd : (nv.sync.load buf).id = nv.sync.id := rfl
  obtain ⟨x, hg⟩ : ∃ x, syncGetBody nv buf = x := ⟨_, rfl⟩
  have hx := hg
  rw [syncGetBody, getToken_full ho hl] at hx
  dsimp only at hx
  rw [h₀, h₁, h₃, h₄, hf, hd] at hx
  by_cases hi : reqIdx buf = u32 (nv.sync.reqFrame + 1)
  · have hi' : ¬ u32 (nv.sync.reqFrame + 1) ≠ reqIdx buf := not_not.2 hi.symm
    by_cases ht : packetType buf = syncReqBody
    · convert Turn.body hs hl ht hi using 1
      rw [iter, hs, hg, ← hx, if_pos ht, if_neg hi']
      cases onPart nv.ctl nv.sync.id fun p => p.markDirtyInfo (bodyStart buf) (bodyNum buf) <;> rfl
    rw [if_neg ht] at hx
    by_cases ht' : packetType buf = syncReqTail
    · rw [iter, hs, hg, ← hx, if_pos ht', if_neg hi']
      exact .tail hs hl ht' hi
    · rw [if_neg ht'] at hx
      exact turn_bad_body hs hl (hg.trans hx.symm) (.inl ⟨ht, ht'⟩)
  · rw [if_pos (Ne.symm hi), if_pos (Ne.symm hi), ite_self, ite_self] at hx
    exact turn_bad_body hs hl (hg.trans hx.symm) (.inr hi)

theorem turn_data (hs : nv.sync.state = .data) : Turn nv buf (iter nv buf) := by
  by_cases hl : nv.sync.len ≤ buf.length
  · convert Turn.dataAll hs hl using 1
    simp only [iter, hs, syncGetData, if_pos hl]
    cases onPart nv.ctl nv.sync.id fun p => p.writeData nv.sync.start (buf.take nv.sync.len) <;> rfl
  · convert Turn.dataSome hs (Nat.lt_of_not_le hl) using 1
    simp only [iter, hs, syncGetData, if_neg hl]
    cases onPart nv.ctl nv.sync.id fun p => p.writeData nv.sync.start buf <;> rfl

theorem iter_turn (ho : nv.sync.ofst = 0) (hb : buf ≠ []) : Turn nv buf (iter nv buf) := by
  have hshort (hs : nv.sync.state ≠ .data) (hl : ¬ reqSize ≤ buf.length)
      (h : iter nv buf = some (.brk nv [.rsp 1])) : Turn nv buf (iter nv buf) := by
    rw [h]
    exact .short hs (Nat.lt_of_not_le hl)
  cases hs : nv.sync.state with
  | head =>
    by_cases hl : reqSize ≤ buf.length
    · exact turn_head hs ho hl
    · refine hshort (by rw [hs]; exact nofun) hl ?_
      rw [iter, hs, syncGetHead, getToken_short ho hb (Nat.lt_of_not_le hl)]
  | body =>
    by_cases hl : reqSize ≤ buf.length
    · exact turn_body hs ho hl
    · refine hshort (by rw [hs]; exact nofun) hl ?_
      rw [iter, hs, syncGetBody, getToken_short ho hb (Nat.lt_of_not_le hl)]
  | data => exact turn_data hs

end SprdVendor.NvItem
