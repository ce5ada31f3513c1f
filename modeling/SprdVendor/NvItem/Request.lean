import SprdVendor.NvItem.Turn
import SprdVendor.NvItem.BufSound

namespace SprdVendor.NvItem
open Lib List

variable {r : Reader}

/-- A completely received request: a partition and the bytes stored there, in order. -/
structure Request where
  id : Nat
  ws : List (Nat × UInt8)
deriving DecidableEq

inductive Phase where
  | idle
  | head (frag : List UInt8)
  | body (id frame : Nat) (frag : List UInt8)
  | data (id frame pos left : Nat)
deriving DecidableEq

def Phase.inToken : Phase → Bool
  | .head _ | .body _ _ _ => true
  | _ => false

def Phase.frag : Phase → List UInt8
  | .head frag | .body _ _ frag => frag
  | _ => []

def Phase.grow (p : List UInt8) : Phase → Phase
  | .head frag => .head (frag ++ p)
  | .body i f frag => .body i f (frag ++ p)
  | ph => ph

/-- The reference reader of request streams. It takes one byte at a time, so it cannot see how
the stream was cut into packets. -/
structure Reader where
  phase : Phase
  ws : List (Nat × UInt8)
  ranges : List (Nat × Nat × Nat)
  log : List Request
deriving DecidableEq

def Reader.token (ids : Nat → Option Nat) (r : Reader) (t : List UInt8) : Reader :=
  match r.phase with
  | .head _ =>
    if packetType t = syncReqHead then
      match ids (tokPartId t) with
      | some i => { r with phase := .body i (reqIdx t) [] }
      | none => { r with phase := .idle }
    else { r with phase := .idle }
  | .body i f _ =>
    if reqIdx t = u32 (f + 1) then
      if packetType t = syncReqBody then
        { r with
          ranges := r.ranges ++ [(i, bodyStart t, bodyNum t)]
          phase := if bodyNum t = 0 then .body i (reqIdx t) []
            else .data i (reqIdx t) (bodyStart t * sectSize) (bodyNum t * sectSize) }
      else if packetType t = syncReqTail then
        { r with phase := .idle, log := r.log ++ [⟨i, r.ws⟩] }
      else { r with phase := .idle }
    else { r with phase := .idle }
  | _ => r

def Reader.init : Reader := ⟨.idle, [], [], []⟩

def Reader.feed (ids : Nat → Option Nat) (r : Reader) (b : UInt8) : Reader :=
  match r.phase with
  | .idle => r
  | .data i f pos left =>
    { r with
      ws := r.ws ++ [(pos, b)]
      phase := if left ≤ 1 then .body i f [] else .data i f (pos + 1) (left - 1) }
  | ph =>
    if ph.frag.length + 1 < reqSize then { r with phase := ph.grow [b] }
    else r.token ids (ph.frag ++ [b])

def Reader.read (ids : Nat → Option Nat) (r : Reader) (p : List UInt8) : Reader :=
  p.foldl (Reader.feed ids) r

/-- A group of packets carries one request: a new group drops the request in progress, and after
the end of a request the rest of its group is ignored. -/
def Reader.packet (ids : Nat → Option Nat) (r : Reader) : Packet → Reader
  | .start p => Reader.read ids { r with phase := .head [], ws := [] } p
  | .cont p => r.read ids p
  | .skip => r
  | .fail => { r with phase := .idle }

def Reader.Whole (r : Reader) : Prop := r.phase.frag = []
deriving Decidable

def imageAfter (img : List UInt8) (log : List Request) (i : Nat) : List UInt8 :=
  log.foldl (fun img q => if q.id = i then store img q.ws else img) img

theorem Reader.read_append (ids : Nat → Option Nat) (r : Reader) (p q : List UInt8) :
    r.read ids (p ++ q) = (r.read ids p).read ids q :=
  foldl_append

theorem Reader.read_idle (h : r.phase = .idle) (p : List UInt8) :
    r.read ids p = r := by
  induction p with
  | nil => rfl
  | cons b p ih =>
    have hf : r.feed ids b = r := by rw [Reader.feed, h]
    rw [Reader.read, foldl_cons, hf]
    exact ih

theorem Reader.feed_token (h : r.phase.inToken) (b : UInt8) :
    r.feed ids b = if r.phase.frag.length + 1 < reqSize then { r with phase := r.phase.grow [b] }
      else r.token ids (r.phase.frag ++ [b]) := by
  unfold Reader.feed
  cases hp : r.phase with
  | head => rfl
  | body => rfl
  | _ => rw [hp] at h; cases h

theorem Phase.inToken_grow (ph : Phase) (p : List UInt8) : (ph.grow p).inToken = ph.inToken := by
  cases ph <;> rfl

theorem Phase.grow_grow (ph : Phase) (p q : List UInt8) : (ph.grow p).grow q = ph.grow (p ++ q) := by
  cases ph <;> simp only [Phase.grow, append_assoc]

theorem Phase.frag_grow {ph : Phase} (h : ph.inToken) (p : List UInt8) :
    (ph.grow p).frag = ph.frag ++ p := by
  cases ph with
  | head => rfl
  | body => rfl
  | _ => cases h

theorem Reader.read_short (h : r.phase.inToken)
    (hl : r.phase.frag.length + p.length < reqSize) :
    r.read ids p = { r with phase := r.phase.grow p } := by
  induction p generalizing r with
  | nil =>
    have hg : r.phase.grow [] = r.phase := by
      cases r.phase <;> simp only [Phase.grow, append_nil]
    rw [hg]
    rfl
  | cons b p ih =>
    rw [length_cons] at hl
    rw [Reader.read, foldl_cons, Reader.feed_token h, if_pos (by omega)]
    refine (ih (r := { r with phase := r.phase.grow [b] }) ?_ ?_).trans ?_
    · rwa [Phase.inToken_grow]
    · rw [Phase.frag_grow h, length_append, length_singleton]
      omega
    · rw [Phase.grow_grow]
      rfl

theorem Reader.token_grow (h : r.phase.inToken) (p t : List UInt8) :
    Reader.token ids { r with phase := r.phase.grow p } t = r.token ids t := by
  unfold Reader.token
  cases hp : r.phase with
  | head => rfl
  | body => rfl
  | _ => rw [hp] at h; cases h

theorem Reader.read_token (h : r.phase.inToken) (hw : r.Whole)
    (hl : p.length = reqSize) : r.read ids p = r.token ids p := by
  have hp : p ≠ [] := by
    intro h
    rw [h] at hl
    cases hl
  obtain ⟨q, b, rfl⟩ : ∃ q b, p = q ++ [b] :=
    ⟨p.dropLast, p.getLast hp, (dropLast_append_getLast hp).symm⟩
  rw [length_append, length_singleton] at hl
  have hw' : r.phase.frag = [] := hw
  have hs : r.phase.frag.length + q.length < reqSize := by
    rw [hw', length_nil]
    omega
  rw [Reader.read_append, Reader.read_short h hs, Reader.read, foldl_cons, foldl_nil,
    Reader.feed_token (by rwa [Phase.inToken_grow]), Phase.frag_grow h, hw', nil_append,
    if_neg (by omega), Reader.token_grow h]

theorem Reader.read_data_some (ids : Nat → Option Nat) (h : r.phase = .data i f pos left)
    (hl : p.length < left) :
    r.read ids p = { r with
      ws := r.ws ++ stamp pos p, phase := .data i f (pos + p.length) (left - p.length) } := by
  induction p generalizing r pos left with
  | nil =>
    simp only [stamp, append_nil, length_nil, Nat.add_zero, Nat.sub_zero, ← h]
    rfl
  | cons b p ih =>
    rw [length_cons] at hl
    have hf : r.feed ids b = { r with
        ws := r.ws ++ [(pos, b)], phase := .data i f (pos + 1) (left - 1) } := by
      rw [Reader.feed, h]
      dsimp only
      rw [if_neg (by omega)]
    rw [Reader.read, foldl_cons, hf]
    refine (ih rfl (by omega)).trans ?_
    rw [stamp, length_cons, ← append_cons, Nat.sub_sub, Nat.add_assoc, Nat.add_comm 1 p.length]

theorem Reader.read_data_all (ids : Nat → Option Nat) (h : r.phase = .data i f pos left)
    (hl : p.length = left) (hp : 0 < left) :
    r.read ids p = { r with ws := r.ws ++ stamp pos p, phase := .body i f [] } := by
  obtain ⟨q, b, rfl⟩ : ∃ q b, p = q ++ [b] := by
    have hp : p ≠ [] := length_pos_iff.1 (by omega)
    exact ⟨p.dropLast, p.getLast hp, (dropLast_append_getLast hp).symm⟩
  rw [length_append, length_singleton] at hl
  rw [Reader.read_append, Reader.read_data_some ids h (by omega)]
  rw [Reader.read, foldl_cons, foldl_nil, Reader.feed]
  dsimp only
  rw [if_pos (by omega), stamp_append, append_assoc]
  rfl

theorem Reader.feed_ranges (ids : Nat → Option Nat) (r : Reader) (b : UInt8) :
    r.ranges <+: (r.feed ids b).ranges := by
  have ht (t : List UInt8) : r.ranges <+: (r.token ids t).ranges := by
    unfold Reader.token
    split
    · split
      · split <;> exact prefix_refl _
      · exact prefix_refl _
    · split
      · split
        · exact prefix_append _ _
        · split <;> exact prefix_refl _
      · exact prefix_refl _
    · exact prefix_refl _
  unfold Reader.feed
  split
  · exact prefix_refl _
  · exact prefix_refl _
  · split
    · exact prefix_refl _
    · exact ht _

theorem Reader.read_ranges (ids : Nat → Option Nat) (r : Reader) (p : List UInt8) :
    r.ranges <+: (r.read ids p).ranges := by
  induction p generalizing r with
  | nil => exact prefix_refl _
  | cons b p ih => exact (r.feed_ranges ids b).trans (ih _)

end SprdVendor.NvItem
