import SprdVendor.Lib.Run

namespace SprdVendor.LibDm
open Lib List

def maxTagCount : Nat := 50

def maxXmlCount : Nat := 20

def maxTagBufSize : Nat := 1024

def maxXmlBufSize : Nat := 1024 * 12

def maxLocalPoolLen : Nat := 512 * 1024

def full : Nat := 0xff

/-- Pointers, `size_t` and `unsigned int` have 32 bits. -/
def wrap (n : Int) : Nat := (n % 2 ^ 32).toNat

/-- `max_tag_count` with `first_tag`, or `max_xml_count` with `first_xml`. -/
structure SlotTable where
  count : List UInt8
  first : Nat
deriving DecidableEq

def scanFree (count : List UInt8) (i : Nat) : Nat := i + (count.drop i).findIdx (· = 0)

/-- The slot that is given out; there is none when the flag at the cached index is set. -/
def SlotTable.take (t : SlotTable) : Option (Nat × SlotTable) :=
  if t.count[t.first]? = some 0 then
    let count := t.count.set t.first 1
    let i := scanFree count t.first
    some (t.first, ⟨count, if i < count.length then i else full⟩)
  else none

def SlotTable.release (t : SlotTable) (i : Nat) : SlotTable :=
  ⟨t.count.set i 0, if i < t.first then i else t.first⟩

structure Session where
  memptr : Nat
  tagMemptr : Nat
  xmlMemptr : Nat
  othMemptr : Nat
  memSize : Nat
  memUsed : Nat
  tags : SlotTable
  xmls : SlotTable
deriving DecidableEq

def Session.fresh (p : Nat) : Session where
  memptr := p
  tagMemptr := p
  xmlMemptr := p + maxTagCount * maxTagBufSize
  othMemptr := p + maxTagCount * maxTagBufSize + maxXmlCount * maxXmlBufSize
  memSize := maxLocalPoolLen
  memUsed := 0
  tags := ⟨List.replicate maxTagCount 0, 0⟩
  xmls := ⟨List.replicate maxXmlCount 0, 0⟩

/-- `MMIDM_setSessionId`, where `malloc` returns `p`: the memory is cleared before the pointer is
checked. -/
def setSessionId (p : Nat) : Option Session := if p = 0 then none else some (.fresh p)

inductive Answer where
  | refused
  | pool (p : Nat)
  | malloc (size : Nat)
deriving DecidableEq

/-- `memset` may write only into the pool. -/
def Session.clears (s : Session) (p len : Nat) : Bool :=
  s.memptr ≤ p && p + len ≤ s.memptr + s.memSize

def Session.giveSlot (s : Session) (memptr bufSize found : Nat) : Option (Answer × Session) :=
  if s.clears (memptr + bufSize * found) bufSize then
    some (.pool (memptr + bufSize * found), s)
  else none

def sciAlloca (s : Session) (size : Int) : Option (Answer × Session) :=
  if s.memptr = 0 then some (.malloc (wrap size), s)
  else if size = maxTagBufSize ∧ s.tags.first ≠ full then
    match s.tags.take with
    | none => some (.refused, s)
    | some (found, tags) =>
      Session.giveSlot { s with tags := tags } s.tagMemptr maxTagBufSize found
  else if size = maxXmlBufSize ∧ s.xmls.first ≠ full then
    match s.xmls.take with
    | none => some (.refused, s)
    | some (found, xmls) =>
      Session.giveSlot { s with xmls := xmls } s.xmlMemptr maxXmlBufSize found
  else if wrap (s.othMemptr + size + 1 + s.memUsed) < wrap (s.memptr + s.memSize) then
    if s.clears (s.othMemptr + s.memUsed) (wrap (size + 1)) then
      let used := wrap (s.memUsed + (size + 1))
      some (.pool (wrap (s.othMemptr + used - size - 1)), { s with memUsed := used })
    else none
  else some (.malloc (wrap size), s)

def sciFreeaa (s : Session) (ptr : Nat) : Session × Bool :=
  if s.tagMemptr ≤ ptr ∧ ptr < s.xmlMemptr then
    let i := (ptr - s.tagMemptr) / maxTagBufSize
    if ptr ≠ s.tagMemptr + i * maxTagBufSize then (s, false)
    else ({ s with tags := s.tags.release i }, false)
  else if s.xmlMemptr ≤ ptr ∧ ptr < s.othMemptr then
    let i := (ptr - s.xmlMemptr) / maxXmlBufSize
    if ptr ≠ s.xmlMemptr + i * maxXmlBufSize then (s, false)
    else ({ s with xmls := s.xmls.release i }, false)
  else if s.othMemptr ≤ ptr ∧ ptr < s.memSize + s.tagMemptr then (s, false)
  else (s, true)

structure Block where
  addr : Nat
  size : Nat
deriving DecidableEq

/-- The blocks are disjoint; one without bytes has an address of its own, too. -/
def Block.Apart (a b : Block) : Prop :=
  a.addr + max a.size 1 ≤ b.addr ∨ b.addr + max b.size 1 ≤ a.addr

instance (a b : Block) : Decidable (a.Apart b) := inferInstanceAs (Decidable (_ ∨ _))

/-- The variables with the blocks that `malloc` has given to `SCI_ALLOCA`, and the blocks that the
callers hold. -/
structure World where
  session : Session
  heap : List Block
  live : List Block

def World.Fresh (w : World) (p size : Nat) : Prop :=
  p = 0 ∨ ∀ b ∈ ⟨w.session.memptr, w.session.memSize⟩ :: w.heap, Block.Apart ⟨p, size⟩ b

instance (w : World) (p size : Nat) : Decidable (w.Fresh p size) :=
  inferInstanceAs (Decidable (_ ∨ _))

inductive PoolCall where
  | alloca (size : Int) (p : Nat)
  | freeaa (b : Block)

def World.answer (w : World) (size : Int) (p : Nat) (s : Session) : Answer → Option World
  | .refused => some { w with session := s }
  | .pool q => some ⟨s, w.heap, ⟨q, size.toNat⟩ :: w.live⟩
  | .malloc n =>
    if w.Fresh p n then
      if p = 0 then some { w with session := s }
      else some ⟨s, ⟨p, n⟩ :: w.heap, ⟨p, size.toNat⟩ :: w.live⟩
    else none

/-- One call; only live blocks are given back, and `free` gets only what `malloc` has returned. -/
def World.next (w : World) : PoolCall → Option World
  | .alloca size p => (sciAlloca w.session size).bind fun (a, s) => w.answer size p s a
  | .freeaa b =>
    if b ∈ w.live then
      match sciFreeaa w.session b.addr with
      | (s, false) => some ⟨s, w.heap, w.live.erase b⟩
      | (s, true) =>
        if w.heap.any (·.addr = b.addr) then
          some ⟨s, w.heap.filter (·.addr ≠ b.addr), w.live.erase b⟩
        else none
    else none

section Slots

variable {t : SlotTable}

/-- The cached index is the lowest free slot, or marks that there is none. -/
def SlotTable.Exact (t : SlotTable) (n : Nat) : Prop :=
  t.count.length = n ∧
    (t.count[t.first]? = some 0 ∧ (∀ j < t.first, t.count[j]? ≠ some 0) ∨
      t.first = full ∧ ∀ j : Nat, t.count[j]? ≠ some 0)

theorem scanFree_spec (count : List UInt8) (i : Nat) :
    (∀ j, i ≤ j → j < scanFree count i → count[j]? ≠ some 0) ∧
      (scanFree count i < count.length → count[scanFree count i]? = some 0) := by
  constructor
  · intro j hle hlt hfree
    have hidx : j - i < (count.drop i).findIdx (· = 0) := by
      rw [scanFree] at hlt
      omega
    have hnot := not_of_lt_findIdx hidx
    have hget : (count.drop i)[j - i]? = some 0 := by
      rw [getElem?_drop, Nat.add_sub_cancel' hle, hfree]
    rw [getElem?_eq_getElem (by exact hidx.trans_le findIdx_le_length)] at hget
    simp only [Option.some.injEq] at hget
    simp [hget] at hnot
  · intro hlt
    rw [scanFree] at hlt ⊢
    have hidx : (count.drop i).findIdx (· = 0) < (count.drop i).length := by
      rw [length_drop]
      omega
    have hfound := findIdx_getElem (w := hidx)
    rw [← getElem?_drop, getElem?_eq_getElem hidx]
    exact congrArg some (of_decide_eq_true hfound)

theorem SlotTable.Exact.take (h : t.Exact n) (hfirst : t.first ≠ full) :
    ∃ t', t.take = some (t.first, t') ∧ t.first < n ∧ t.count[t.first]? = some 0 ∧
      t'.count = t.count.set t.first 1 ∧ t'.Exact n := by
  obtain ⟨hlen, hfree, hbelow⟩ : t.count.length = n ∧ t.count[t.first]? = some 0 ∧
      ∀ j < t.first, t.count[j]? ≠ some 0 := by
    obtain ⟨hlen, hcase | ⟨hfull, -⟩⟩ := h
    · exact ⟨hlen, hcase⟩
    · exact absurd hfull hfirst
  have hlt : t.first < n := by
    rw [← hlen]
    exact (List.getElem?_eq_some_iff.1 hfree).1
  have hlen' : (t.count.set t.first 1).length = n := by rw [length_set, hlen]
  obtain ⟨hskip, hstop⟩ := scanFree_spec (t.count.set t.first 1) t.first
  have htaken : ∀ j < scanFree (t.count.set t.first 1) t.first,
      (t.count.set t.first 1)[j]? ≠ some 0 := by
    intro j hj
    by_cases hlow : j < t.first
    · rw [getElem?_set_ne hlow.ne']
      exact hbelow j hlow
    · exact hskip j (by omega) hj
  refine ⟨_, if_pos hfree, hlt, hfree, rfl, hlen', ?_⟩
  by_cases hend : scanFree (t.count.set t.first 1) t.first < (t.count.set t.first 1).length
  case pos =>
    simp only [if_pos hend]
    exact .inl ⟨hstop hend, htaken⟩
  case neg =>
    refine .inr ⟨if_neg hend, fun j hj => ?_⟩
    have hj' : j < (t.count.set t.first 1).length := (List.getElem?_eq_some_iff.1 hj).1
    exact htaken j (by omega) hj

theorem SlotTable.Exact.release (h : t.Exact n) (hn : n ≤ full) (hi : i < n) :
    (t.release i).Exact n := by
  obtain ⟨hlen, hcase⟩ := h
  have hbelow : ∀ j < t.first, t.count[j]? ≠ some 0 := by
    obtain ⟨-, hbelow⟩ | ⟨-, hall⟩ := hcase
    · exact hbelow
    · exact fun j _ => hall j
  refine ⟨by rw [SlotTable.release, length_set, hlen], .inl ?_⟩
  simp only [SlotTable.release]
  by_cases hlow : i < t.first
  case pos =>
    rw [if_pos hlow, getElem?_set_self (by omega)]
    refine ⟨rfl, fun j hj => ?_⟩
    rw [getElem?_set_ne hj.ne']
    exact hbelow j (by omega)
  case neg =>
    rw [if_neg hlow]
    obtain ⟨hfree, -⟩ | ⟨hfull, -⟩ := hcase
    · constructor
      · by_cases heq : i = t.first
        · rw [heq, getElem?_set_self (by omega)]
        · rw [getElem?_set_ne heq, hfree]
      · intro j hj
        rw [getElem?_set_ne (by omega)]
        exact hbelow j hj
    · omega

end Slots

section Session

variable {s : Session} {w : World} {b : Block}

structure Opened (p : Nat) (s : Session) : Prop where
  memptr : s.memptr = p
  tagMemptr : s.tagMemptr = p
  xmlMemptr : s.xmlMemptr = p + 51200
  othMemptr : s.othMemptr = p + 296960
  memSize : s.memSize = 524288
  memUsed : s.memUsed < 227328
  tags : s.tags.Exact maxTagCount
  xmls : s.xmls.Exact maxXmlCount

theorem exact_fresh (n : Nat) : SlotTable.Exact ⟨List.replicate (n + 1) 0, 0⟩ (n + 1) :=
  ⟨length_replicate, .inl ⟨rfl, fun j hj => absurd hj (Nat.not_lt_zero j)⟩⟩

theorem Opened.start (h : setSessionId p = some s) : 0 < p ∧ Opened p s := by
  rw [setSessionId] at h
  split at h
  case isTrue => cases h
  case isFalse hp =>
    cases h
    refine ⟨pos_of_ne_zero hp, rfl, rfl, ?_, ?_, ?_, ?_, ?_, ?_⟩
    · simp [Session.fresh, maxTagCount, maxTagBufSize]
    · simp only [Session.fresh, maxTagCount, maxTagBufSize, maxXmlCount, maxXmlBufSize, Nat.reduceMul,
        Nat.add_assoc, Nat.reduceAdd]
    · simp [Session.fresh, maxLocalPoolLen]
    · exact Nat.zero_lt_of_ne_zero (by decide)
    · exact exact_fresh 49
    · exact exact_fresh 19

inductive Held (w : World) (b : Block) : Prop where
  | tag (i : Nat) (haddr : b.addr = w.session.tagMemptr + 1024 * i) (hsize : b.size = 1024)
      (htaken : w.session.tags.count[i]? = some 1)
  | xml (i : Nat) (haddr : b.addr = w.session.xmlMemptr + 12288 * i) (hsize : b.size = 12288)
      (htaken : w.session.xmls.count[i]? = some 1)
  | oth (hlow : w.session.othMemptr ≤ b.addr)
      (hhigh : b.addr + b.size + 1 ≤ w.session.othMemptr + w.session.memUsed)
  | heap (hmem : b ∈ w.heap)

def Backed (w : World) (b : Block) : Prop :=
  (w.session.memptr ≤ b.addr ∧
    b.addr + b.size ≤ w.session.memptr + w.session.memSize) ∨ b ∈ w.heap

theorem slot_lt {t : SlotTable} (h : t.Exact n) (hi : t.count[i]? = some c) : i < n := by
  rw [← h.1]
  exact (List.getElem?_eq_some_iff.1 hi).1

theorem Held.inside (h : Held w b) (ho : Opened p w.session) :
    p ≤ b.addr ∧ b.addr + max b.size 1 ≤ p + 524288 ∨ b ∈ w.heap := by
  obtain ⟨hm, ht, hx, hoth, hsize, hused, htags, hxmls⟩ := ho
  cases h with
  | tag i haddr hbsize htaken =>
    have hi : i < 50 := slot_lt htags htaken
    exact .inl (by omega)
  | xml i haddr hbsize htaken =>
    have hi : i < 20 := slot_lt hxmls htaken
    exact .inl (by omega)
  | oth hlow hhigh => exact .inl (by omega)
  | heap hmem => exact .inr hmem

theorem Held.backed (h : Held w b) (ho : Opened p w.session) : Backed w b := by
  have hm := ho.memptr
  have hms := ho.memSize
  obtain hin | hmem := h.inside ho
  · exact .inl (by omega)
  · exact .inr hmem

theorem wrap_of_lt (h₀ : 0 ≤ n) (h : n < 2 ^ 32) : wrap n = n.toNat := by
  rw [wrap, Int.emod_eq_of_lt h₀ h]

theorem clears_of_le (h₁ : s.memptr ≤ p) (h₂ : p + len ≤ s.memptr + s.memSize) :
    s.clears p len = true := by
  rw [Session.clears, decide_eq_true h₁, decide_eq_true h₂, Bool.and_self]

theorem giveSlot_eq (h₁ : s.memptr ≤ memptr + bufSize * found)
    (h₂ : memptr + bufSize * found + bufSize ≤ s.memptr + s.memSize) :
    s.giveSlot memptr bufSize found = some (.pool (memptr + bufSize * found), s) :=
  if_pos (clears_of_le h₁ h₂)

theorem Opened.giveTag (ho : Opened p s) (hp : 0 < p) (hfirst : s.tags.first ≠ full) :
    ∃ tags, s.tags.first < 50 ∧ s.tags.count[s.tags.first]? = some 0 ∧
      tags.count = s.tags.count.set s.tags.first 1 ∧ tags.Exact maxTagCount ∧
      sciAlloca s 1024 =
        some (.pool (s.tagMemptr + 1024 * s.tags.first), { s with tags := tags }) := by
  obtain ⟨tags, htake, hlt, hfree, hcount, hexact⟩ := ho.tags.take hfirst
  have hlt : s.tags.first < 50 := hlt
  refine ⟨tags, hlt, hfree, hcount, hexact, ?_⟩
  have hm := ho.memptr
  have ht := ho.tagMemptr
  have hsize := ho.memSize
  rw [sciAlloca, if_neg (by omega), if_pos ⟨rfl, hfirst⟩, htake]
  apply giveSlot_eq
  · simp only [maxTagBufSize]
    omega
  · simp only [maxTagBufSize]
    omega

theorem Opened.giveXml (ho : Opened p s) (hp : 0 < p) (hfirst : s.xmls.first ≠ full) :
    ∃ xmls, s.xmls.first < 20 ∧ s.xmls.count[s.xmls.first]? = some 0 ∧
      xmls.count = s.xmls.count.set s.xmls.first 1 ∧ xmls.Exact maxXmlCount ∧
      sciAlloca s 12288 =
        some (.pool (s.xmlMemptr + 12288 * s.xmls.first), { s with xmls := xmls }) := by
  obtain ⟨xmls, htake, hlt, hfree, hcount, hexact⟩ := ho.xmls.take hfirst
  have hlt : s.xmls.first < 20 := hlt
  refine ⟨xmls, hlt, hfree, hcount, hexact, ?_⟩
  have hm := ho.memptr
  have hx := ho.xmlMemptr
  have hsize := ho.memSize
  have htag : ¬ ((12288 : Int) = maxTagBufSize ∧ s.tags.first ≠ full) := fun h => by
    exact absurd h.1 (by decide)
  rw [sciAlloca, if_neg (by omega), if_neg htag, if_pos ⟨rfl, hfirst⟩, htake]
  apply giveSlot_eq
  · simp only [maxXmlBufSize]
    omega
  · simp only [maxXmlBufSize]
    omega

theorem Opened.giveOther (ho : Opened p s) (hp : 0 < p) {size : Int} (hsize : 0 ≤ size)
    (hroom : p + 524288 + size < 2 ^ 32)
    (htag : ¬ (size = maxTagBufSize ∧ s.tags.first ≠ full))
    (hxml : ¬ (size = maxXmlBufSize ∧ s.xmls.first ≠ full)) :
    (s.memUsed + size + 1 < 227328 ∧ sciAlloca s size =
      some (.pool (s.othMemptr + s.memUsed), { s with memUsed := s.memUsed + size.toNat + 1 })) ∨
    sciAlloca s size = some (.malloc size.toNat, s) := by
  obtain ⟨hm, ht, hx, hoth, hms, hused, -, -⟩ := ho
  have hsum : wrap (s.othMemptr + size + 1 + s.memUsed) = s.othMemptr + s.memUsed + size.toNat + 1 := by
    rw [wrap_of_lt (by omega) (by omega)]
    omega
  have hend : wrap (s.memptr + s.memSize) = s.memptr + s.memSize := by
    rw [wrap_of_lt (by omega) (by omega)]
    omega
  rw [sciAlloca, if_neg (by omega), if_neg htag, if_neg hxml, hsum, hend]
  by_cases hfits : s.othMemptr + s.memUsed + size.toNat + 1 < s.memptr + s.memSize
  case pos =>
    have hlen : wrap (size + 1) = size.toNat + 1 := by
      rw [wrap_of_lt (by omega) (by omega)]
      omega
    have hnew : wrap (s.memUsed + (size + 1)) = s.memUsed + size.toNat + 1 := by
      rw [wrap_of_lt (by omega) (by omega)]
      omega
    have haddr : wrap (s.othMemptr + (s.memUsed + size.toNat + 1 : Nat) - size - 1) =
        s.othMemptr + s.memUsed := by
      rw [wrap_of_lt (by omega) (by omega)]
      omega
    have hclears : s.clears (s.othMemptr + s.memUsed) (size.toNat + 1) = true :=
      clears_of_le (by omega) (by omega)
    left
    refine ⟨by omega, ?_⟩
    rw [if_pos hfits, hlen, if_pos hclears]
    simp only [hnew, haddr]
  case neg =>
    right
    rw [if_neg hfits, wrap_of_lt hsize (by omega)]

structure Tidy (p : Nat) (w : World) : Prop where
  pos : 0 < p
  opened : Opened p w.session
  heap : ∀ b ∈ w.heap, Block.Apart ⟨p, 524288⟩ b
  live : w.live.Pairwise Block.Apart
  held : ∀ b ∈ w.live, Held w b

theorem Tidy.apart_fresh (h : Tidy p w) (hpool : Block.Apart a ⟨p, 524288⟩)
    (hheap : ∀ b ∈ w.heap, Block.Apart a b) (hb : b ∈ w.live) : Block.Apart a b := by
  obtain hin | hmem := (h.held b hb).inside h.opened
  · simp only [Block.Apart] at *
    omega
  · exact hheap b hmem

theorem Tidy.apart_heap (h : Tidy p w) (hmem : b ∈ w.heap) (hlow : p ≤ a.addr)
    (hhigh : a.addr + max a.size 1 ≤ p + 524288) : Block.Apart a b := by
  have hpool := h.heap b hmem
  simp only [Block.Apart] at *
  omega

theorem Tidy.apart_tag (h : Tidy p w) (hi : i < 50)
    (hfree : w.session.tags.count[i]? = some 0) (hb : b ∈ w.live) :
    Block.Apart ⟨w.session.tagMemptr + 1024 * i, 1024⟩ b := by
  obtain ⟨hm, ht, hx, hoth, hms, hused, htags, hxmls⟩ := h.opened
  cases h.held b hb with
  | tag j haddr hsize htaken =>
    have hne : i ≠ j := by
      rintro rfl
      rw [hfree] at htaken
      cases htaken
    simp only [Block.Apart]
    omega
  | heap hmem => exact h.apart_heap hmem (by simp only; omega) (by simp only; omega)
  | _ =>
    simp only [Block.Apart]
    omega

theorem Tidy.apart_xml (h : Tidy p w) (hi : i < 20)
    (hfree : w.session.xmls.count[i]? = some 0) (hb : b ∈ w.live) :
    Block.Apart ⟨w.session.xmlMemptr + 12288 * i, 12288⟩ b := by
  obtain ⟨hm, ht, hx, hoth, hms, hused, htags, hxmls⟩ := h.opened
  cases h.held b hb with
  | tag j haddr hsize htaken =>
    have hj : j < 50 := slot_lt htags htaken
    simp only [Block.Apart]
    omega
  | xml j haddr hsize htaken =>
    have hne : i ≠ j := by
      rintro rfl
      rw [hfree] at htaken
      cases htaken
    simp only [Block.Apart]
    omega
  | oth hlow hhigh =>
    simp only [Block.Apart]
    omega
  | heap hmem => exact h.apart_heap hmem (by simp only; omega) (by simp only; omega)

theorem Tidy.apart_other (h : Tidy p w) (hsize : w.session.memUsed + size + 1 < 227328)
    (hb : b ∈ w.live) : Block.Apart ⟨w.session.othMemptr + w.session.memUsed, size⟩ b := by
  obtain ⟨hm, ht, hx, hoth, hms, hused, htags, hxmls⟩ := h.opened
  cases h.held b hb with
  | tag j haddr hbsize htaken =>
    have hj : j < 50 := slot_lt htags htaken
    simp only [Block.Apart]
    omega
  | xml j haddr hbsize htaken =>
    have hj : j < 20 := slot_lt hxmls htaken
    simp only [Block.Apart]
    omega
  | oth hlow hhigh =>
    simp only [Block.Apart]
    omega
  | heap hmem => exact h.apart_heap hmem (by simp only; omega) (by simp only; omega)

structure Keeps (w w' : World) : Prop where
  tagMemptr : w'.session.tagMemptr = w.session.tagMemptr
  xmlMemptr : w'.session.xmlMemptr = w.session.xmlMemptr
  othMemptr : w'.session.othMemptr = w.session.othMemptr
  memUsed : w.session.memUsed ≤ w'.session.memUsed
  tags : ∀ i : Nat, w.session.tags.count[i]? = some 1 → w'.session.tags.count[i]? = some 1
  xmls : ∀ i : Nat, w.session.xmls.count[i]? = some 1 → w'.session.xmls.count[i]? = some 1
  heap : w.heap ⊆ w'.heap

theorem Held.mono (h : Held w b) (hk : Keeps w w') : Held w' b := by
  obtain ⟨ht, hx, ho, hu, htags, hxmls, hheap⟩ := hk
  cases h with
  | tag i haddr hsize htaken => exact .tag i (ht ▸ haddr) hsize (htags i htaken)
  | xml i haddr hsize htaken => exact .xml i (hx ▸ haddr) hsize (hxmls i htaken)
  | oth hlow hhigh => exact .oth (ho ▸ hlow) (by omega)
  | heap hmem => exact .heap (hheap hmem)

theorem Tidy.add (h : Tidy p w) (hk : Keeps w ⟨s, blocks, b :: w.live⟩) (ho : Opened p s)
    (hheap : ∀ c ∈ blocks, Block.Apart ⟨p, 524288⟩ c) (hapart : ∀ c ∈ w.live, b.Apart c)
    (hb : Held ⟨s, blocks, b :: w.live⟩ b) : Tidy p ⟨s, blocks, b :: w.live⟩ := by
  refine ⟨h.pos, ho, hheap, pairwise_cons.2 ⟨hapart, h.live⟩, ?_⟩
  intro c hc
  rcases mem_cons.1 hc with rfl | hc
  · exact hb
  · exact (h.held c hc).mono hk

theorem taken_set {l : List UInt8} {i : Nat} (j : Nat) (h : l[i]? = some 1) :
    (l.set j 1)[i]? = some 1 := by
  by_cases hij : j = i
  · rw [hij, List.getElem?_set_self (List.getElem?_eq_some_iff.1 h).1]
  · rw [getElem?_set_ne hij, h]

theorem Tidy.giveTag (h : Tidy p w) (hfirst : w.session.tags.first ≠ full) :
    ∃ q s, sciAlloca w.session 1024 = some (.pool q, s) ∧
      Tidy p ⟨s, w.heap, ⟨q, 1024⟩ :: w.live⟩ := by
  obtain ⟨tags, hlt, hfree, hcount, hexact, hcall⟩ := h.opened.giveTag h.pos hfirst
  have ho := h.opened
  refine ⟨_, _, hcall, h.add ?_ ?_ h.heap (fun c hc => h.apart_tag hlt hfree hc) ?_⟩
  · refine ⟨rfl, rfl, rfl, le_rfl, fun i hi => ?_, fun i hi => hi, fun c hc => hc⟩
    simp only [hcount]
    exact taken_set _ hi
  · exact ⟨ho.memptr, ho.tagMemptr, ho.xmlMemptr, ho.othMemptr, ho.memSize, ho.memUsed, hexact,
      ho.xmls⟩
  · apply Held.tag w.session.tags.first rfl rfl
    simp only [hcount]
    exact List.getElem?_set_self (List.getElem?_eq_some_iff.1 hfree).1

theorem Tidy.giveXml (h : Tidy p w) (hfirst : w.session.xmls.first ≠ full) :
    ∃ q s, sciAlloca w.session 12288 = some (.pool q, s) ∧
      Tidy p ⟨s, w.heap, ⟨q, 12288⟩ :: w.live⟩ := by
  obtain ⟨xmls, hlt, hfree, hcount, hexact, hcall⟩ := h.opened.giveXml h.pos hfirst
  have ho := h.opened
  refine ⟨_, _, hcall, h.add ?_ ?_ h.heap (fun c hc => h.apart_xml hlt hfree hc) ?_⟩
  · refine ⟨rfl, rfl, rfl, le_rfl, fun i hi => hi, fun i hi => ?_, fun c hc => hc⟩
    simp only [hcount]
    exact taken_set _ hi
  · exact ⟨ho.memptr, ho.tagMemptr, ho.xmlMemptr, ho.othMemptr, ho.memSize, ho.memUsed, ho.tags,
      hexact⟩
  · apply Held.xml w.session.xmls.first rfl rfl
    simp only [hcount]
    exact List.getElem?_set_self (List.getElem?_eq_some_iff.1 hfree).1

/-- The requests that the session serves: not negative, and not so long that a pointer behind the
pool wraps. -/
def Fits (p : Nat) (size : Int) : Prop := 0 ≤ size ∧ p + maxLocalPoolLen + size < 2 ^ 32

instance (p : Nat) (size : Int) : Decidable (Fits p size) := inferInstanceAs (Decidable (_ ∧ _))

theorem Tidy.alloca (h : Tidy p w) (hfits : Fits p size) :
    (∃ q s, sciAlloca w.session size = some (.pool q, s) ∧
      Tidy p ⟨s, w.heap, ⟨q, size.toNat⟩ :: w.live⟩) ∨
    sciAlloca w.session size = some (.malloc size.toNat, w.session) := by
  have ho := h.opened
  by_cases htag : size = maxTagBufSize ∧ w.session.tags.first ≠ full
  · obtain ⟨rfl, hfirst⟩ := htag
    exact .inl (h.giveTag hfirst)
  by_cases hxml : size = maxXmlBufSize ∧ w.session.xmls.first ≠ full
  · obtain ⟨rfl, hfirst⟩ := hxml
    exact .inl (h.giveXml hfirst)
  obtain ⟨hsize, hcall⟩ | hcall := ho.giveOther h.pos hfits.1 hfits.2 htag hxml
  · have hsize' : w.session.memUsed + size.toNat + 1 < 227328 := by
      have := hfits.1
      omega
    refine .inl ⟨_, _, hcall, h.add ?_ ?_ h.heap (fun c hc => h.apart_other hsize' hc) ?_⟩
    · refine ⟨rfl, rfl, rfl, ?_, fun i hi => hi, fun i hi => hi, fun c hc => hc⟩
      simp only
      omega
    · exact ⟨ho.memptr, ho.tagMemptr, ho.xmlMemptr, ho.othMemptr, ho.memSize, hsize', ho.tags,
        ho.xmls⟩
    apply Held.oth
    · exact Nat.le_add_right _ _
    · simp only
      omega
  · exact .inr hcall

theorem Tidy.next_alloca (h : Tidy p w) (hfits : Fits p size)
    (hnext : w.next (.alloca size q) = some w') : Tidy p w' := by
  obtain ⟨r, s, hcall, htidy⟩ | hcall := h.alloca hfits
  · simp only [World.next, hcall, Option.bind_some, World.answer, Option.some.injEq] at hnext
    exact hnext ▸ htidy
  simp only [World.next, hcall, Option.bind_some, World.answer] at hnext
  split at hnext
  case isFalse => cases hnext
  case isTrue hfresh =>
    split at hnext
    case isTrue =>
      cases hnext
      exact h
    case isFalse hq =>
      cases hnext
      have hfresh := hfresh.resolve_left hq
      rw [h.opened.memptr, h.opened.memSize] at hfresh
      have hpool := hfresh _ mem_cons_self
      have hheap : ∀ c ∈ w.heap, Block.Apart ⟨q, size.toNat⟩ c :=
        fun c hc => hfresh c (mem_cons_of_mem _ hc)
      refine h.add ⟨rfl, rfl, rfl, le_rfl, fun i hi => hi, fun i hi => hi, ?_⟩ h.opened ?_
        (fun c hc => h.apart_fresh hpool hheap hc) (.heap mem_cons_self)
      · exact subset_cons_self _ _
      intro c hc
      rcases mem_cons.1 hc with rfl | hc
      · exact hpool.symm
      · exact h.heap c hc

theorem apart_of_mem_erase (h : w.live.Pairwise Block.Apart) (hb : b ∈ w.live)
    (hc : c ∈ w.live.erase b) : b.Apart c := by
  have hperm := perm_cons_erase hb
  have hcons := hperm.pairwise h fun {x y} hxy => Or.symm hxy
  exact (pairwise_cons.1 hcons).1 c hc

theorem Tidy.remove (h : Tidy p w) (hb : b ∈ w.live) (ho : Opened p s) (hheap : blocks ⊆ w.heap)
    (hkeep : ∀ c, b.Apart c → Held w c → Held ⟨s, blocks, w.live.erase b⟩ c) :
    Tidy p ⟨s, blocks, w.live.erase b⟩ := by
  refine ⟨h.pos, ho, fun c hc => h.heap c (hheap hc), h.live.sublist erase_sublist, ?_⟩
  intro c hc
  exact hkeep c (apart_of_mem_erase h.live hb hc) (h.held c (mem_of_mem_erase hc))

theorem Tidy.freeaa (h : Tidy p w) (hb : b ∈ w.live) :
    ∃ w', w.next (.freeaa b) = some w' ∧ Tidy p w' := by
  have ho := h.opened
  obtain ⟨hm, ht, hx, hoth, hms, hused, htags, hxmls⟩ := h.opened
  simp only [World.next, if_pos hb]
  cases h.held b hb with
  | tag i haddr hsize htaken =>
    have hi : i < 50 := slot_lt htags htaken
    have hindex : (b.addr - w.session.tagMemptr) / maxTagBufSize = i := by
      rw [haddr, maxTagBufSize]
      omega
    have hcall : sciFreeaa w.session b.addr =
        ({ w.session with tags := w.session.tags.release i }, false) := by
      rw [sciFreeaa, if_pos (by omega), hindex]
      exact if_neg (by rw [maxTagBufSize]; omega)
    rw [hcall]
    refine ⟨_, rfl, h.remove hb ?_ (fun c hc => hc) fun c hapart hc => ?_⟩
    · exact ⟨hm, ht, hx, hoth, hms, hused, htags.release (by decide) hi, hxmls⟩
    cases hc with
    | tag j hj hjsize hjtaken =>
      refine .tag j hj hjsize ?_
      have hne : i ≠ j := by
        rintro rfl
        simp only [Block.Apart] at hapart
        omega
      exact (getElem?_set_ne hne).trans hjtaken
    | xml j hj hjsize hjtaken => exact .xml j hj hjsize hjtaken
    | oth hlow hhigh => exact .oth hlow hhigh
    | heap hmem => exact .heap hmem
  | xml i haddr hsize htaken =>
    have hi : i < 20 := slot_lt hxmls htaken
    have hindex : (b.addr - w.session.xmlMemptr) / maxXmlBufSize = i := by
      rw [haddr, maxXmlBufSize]
      omega
    have hcall : sciFreeaa w.session b.addr =
        ({ w.session with xmls := w.session.xmls.release i }, false) := by
      rw [sciFreeaa, if_neg (by omega), if_pos (by omega), hindex]
      exact if_neg (by rw [maxXmlBufSize]; omega)
    rw [hcall]
    refine ⟨_, rfl, h.remove hb ?_ (fun c hc => hc) fun c hapart hc => ?_⟩
    · exact ⟨hm, ht, hx, hoth, hms, hused, htags, hxmls.release (by decide) hi⟩
    cases hc with
    | tag j hj hjsize hjtaken => exact .tag j hj hjsize hjtaken
    | xml j hj hjsize hjtaken =>
      refine .xml j hj hjsize ?_
      have hne : i ≠ j := by
        rintro rfl
        simp only [Block.Apart] at hapart
        omega
      exact (getElem?_set_ne hne).trans hjtaken
    | oth hlow hhigh => exact .oth hlow hhigh
    | heap hmem => exact .heap hmem
  | oth hlow hhigh =>
    have hcall : sciFreeaa w.session b.addr = (w.session, false) := by
      rw [sciFreeaa, if_neg (by omega), if_neg (by omega), if_pos (by omega)]
    rw [hcall]
    refine ⟨_, rfl, h.remove hb ho (fun c hc => hc) fun c _ hc => ?_⟩
    exact hc.mono ⟨rfl, rfl, rfl, le_rfl, fun i hi => hi, fun i hi => hi, fun c hc => hc⟩
  | heap hmem =>
    have hpool := h.heap b hmem
    have hcall : sciFreeaa w.session b.addr = (w.session, true) := by
      simp only [Block.Apart] at hpool
      rw [sciFreeaa, if_neg (by omega), if_neg (by omega), if_neg (by omega)]
    have hany : w.heap.any (·.addr = b.addr) = true :=
      any_eq_true.2 ⟨b, hmem, decide_eq_true rfl⟩
    simp only [hcall, if_pos hany]
    refine ⟨_, rfl, h.remove hb ho (filter_subset_self _) fun c hapart hc => ?_⟩
    cases hc with
    | tag j hj hjsize hjtaken => exact .tag j hj hjsize hjtaken
    | xml j hj hjsize hjtaken => exact .xml j hj hjsize hjtaken
    | oth hlow hhigh => exact .oth hlow hhigh
    | heap hc =>
      have hne : c.addr ≠ b.addr := by
        simp only [Block.Apart] at hapart
        omega
      exact .heap (mem_filter.2 ⟨hc, decide_eq_true hne⟩)

/-- With an exact index the refusal is not reached, whatever is asked for. -/
theorem Opened.not_refused (ho : Opened p s) (hp : 0 < p) (size : Int) (s' : Session) :
    sciAlloca s size ≠ some (.refused, s') := by
  intro h
  have hm := ho.memptr
  rw [sciAlloca, if_neg (by omega)] at h
  split at h
  case isTrue htag =>
    obtain ⟨tags, htake, -⟩ := ho.tags.take htag.2
    simp only [htake, Session.giveSlot] at h
    split at h
    · cases h
    · cases h
  case isFalse =>
    split at h
    case isTrue hxml =>
      obtain ⟨xmls, htake, -⟩ := ho.xmls.take hxml.2
      simp only [htake, Session.giveSlot] at h
      split at h
      · cases h
      · cases h
    case isFalse =>
      split at h
      · split at h
        · cases h
        · cases h
      · cases h

end Session

def CallFits (p : Nat) : PoolCall → Prop
  | .alloca size _ => Fits p size
  | .freeaa _ => True

/-- Over every run of calls that meet the condition the live blocks are disjoint and large enough,
the cached indexes are exact, and the next such call returns. -/
theorem pools_sound (p : Nat) (s : Session) (hstart : setSessionId p = some s)
    (calls : List PoolCall) (w : World)
    (hrun : Run (Guarded (fun _ c => CallFits p c) World.next) ⟨s, [], []⟩ calls w) :
    w.live.Pairwise Block.Apart ∧ (∀ b ∈ w.live, Backed w b) ∧
      w.session.tags.Exact maxTagCount ∧ w.session.xmls.Exact maxXmlCount ∧
      (∀ size s', sciAlloca w.session size ≠ some (.refused, s')) ∧
      (∀ size, Fits p size → ∃ w', w.next (.alloca size 0) = some w') ∧
      ∀ b ∈ w.live, ∃ w', w.next (.freeaa b) = some w' := by
  obtain ⟨hp, ho⟩ := Opened.start hstart
  have htidy : Tidy p w := by
    apply hrun.invariant (I := fun _ w => Tidy p w)
    · exact ⟨hp, ho, fun b hb => absurd hb not_mem_nil, .nil,
        fun b hb => absurd hb not_mem_nil⟩
    rintro - c t u ht ⟨hnext, hfits⟩
    cases c with
    | alloca size q => exact ht.next_alloca hfits hnext
    | freeaa b =>
      have hb : b ∈ t.live := by
        by_contra hb
        simp only [World.next, if_neg hb] at hnext
        cases hnext
      obtain ⟨u', hu', htidy⟩ := ht.freeaa hb
      cases hu'.symm.trans hnext
      exact htidy
  have ho := htidy.opened
  refine ⟨htidy.live, fun b hb => (htidy.held b hb).backed ho, ho.tags, ho.xmls,
    ho.not_refused hp, fun size hfits => ?_, fun b hb => ?_⟩
  · obtain ⟨q, s', hcall, -⟩ | hcall := htidy.alloca hfits
    · exact ⟨_, by rw [World.next, hcall]; rfl⟩
    · refine ⟨w, ?_⟩
      have hfresh : w.Fresh 0 size.toNat := .inl rfl
      simp [World.next, hcall, World.answer, if_pos hfresh]
  · obtain ⟨w', hw', -⟩ := htidy.freeaa hb
    exact ⟨w', hw'⟩

instance (p : Nat) (c : PoolCall) : Decidable (CallFits p c) :=
  match c with
  | .alloca size _ => inferInstanceAs (Decidable (Fits p size))
  | .freeaa _ => isTrue trivial

/-- A tag, a document, another block and one of `malloc`, and the tag is given back. -/
theorem four_blocks_sound :
    ∃ w, Run (Guarded (fun _ c => CallFits 0x40000000 c) World.next)
        ⟨.fresh 0x40000000, [], []⟩
        [.alloca 1024 0, .alloca 12288 0, .alloca 20 0, .alloca 300000 0x50000000,
          .freeaa ⟨0x40000000, 1024⟩] w ∧
      w.live.length = 3 ∧ w.live.Pairwise Block.Apart ∧ w.session.tags.Exact maxTagCount := by
  refine exists_guarded_imp (P := fun w => w.live.length = 3) ?_ (by decide +kernel)
  intro w hrun hlen
  have hsound := pools_sound 0x40000000 _ rfl _ w hrun
  exact ⟨hlen, hsound.1, hsound.2.2.1⟩

/-- Requests that write behind the pool: a negative one, and one for which the pointer in the test
wraps. -/
theorem wrapping_requests_overrun :
    ((setSessionId 0xB6000000).bind fun s => sciAlloca s (-2)) = none ∧
      ((setSessionId 0xB6000000).bind fun s => sciAlloca s 0x4A000000) = none := by
  decide +kernel

end SprdVendor.LibDm
