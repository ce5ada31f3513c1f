import SprdVendor.Lib.Run
import SprdVendor.Lib.Text

namespace SprdVendor.LibEfuse
open Lib

abbrev Word := BitVec 32

def hashBlockStart : Nat := 2

def secureBootBlock : Nat := 1

def secureBootBit : Nat := 18

def hashBit : Word := 0x80000000

inductive Access where
  | burn (blk : Nat) (val : Word)
  | read (blk : Nat) (val : Word)
  deriving DecidableEq

abbrev Hash := Nat → Char

structure Efuse where
  blocks : Nat → Word
  writeOkFlag : Bool
  /-- The hash of the last call of `efuse_hash_write`, a null pointer included. -/
  last : Option Hash
  /-- The accesses to the device since the last call of `efuse_hash_write` began. -/
  accesses : List Access

/-- How an access goes: it works, or it fails; a write that fails may have burnt some of the bits it
was to burn. -/
abbrev Fault := Option Word

namespace Efuse

def burnBits (s : Efuse) (blk : Nat) (val : Word) : Efuse :=
  { s with blocks := Function.update s.blocks blk (s.blocks blk ||| val) }

def note (s : Efuse) (a : Access) : Efuse := { s with accesses := s.accesses ++ [a] }

def setFlag (s : Efuse) (b : Bool) : Efuse := { s with writeOkFlag := b }

@[simp] theorem burnBits_blocks_self (s : Efuse) (blk : Nat) (val : Word) :
    (s.burnBits blk val).blocks blk = s.blocks blk ||| val :=
  Function.update_self ..

theorem burnBits_blocks_of_ne (s : Efuse) (val : Word) (h : b ≠ blk) :
    (s.burnBits blk val).blocks b = s.blocks b :=
  Function.update_of_ne h ..

@[simp] theorem note_blocks (s : Efuse) (a : Access) : (s.note a).blocks = s.blocks := rfl

def write (s : Efuse) (fault : Fault) (blk : Nat) (val : Word) : Int × Efuse :=
  match fault with
  | none => (4, (s.burnBits blk val).note (.burn blk val))
  | some bits => (-5, s.burnBits blk (val &&& bits))

def read (s : Efuse) (fault : Fault) (blk : Nat) : Option Word × Efuse :=
  match fault with
  | none => (some (s.blocks blk), s.note (.read blk (s.blocks blk)))
  | some _ => (none, s)

end Efuse

def group (hash : Hash) (i : Nat) : List Char :=
  ((List.range 8).map fun k => hash (8 * i + k)).takeWhile (· ≠ '\x00')

/-- The value burnt for a group: the top bit of a block is its lock. -/
def hashValue (hash : Hash) (i : Nat) : Word :=
  BitVec.ofNat 32 (strtoul 32 16 (group hash i)) &&& 0x7fffffff

/-- One round of the loop of `efuse_hash_write`: a code to leave the function with, or the number of
bytes written. -/
def hashRound (hash : Hash) (fault : Nat → Fault) (i : Nat) (s : Efuse) : Except Int Int × Efuse :=
  let j := hashBlockStart + i
  let value := hashValue hash i
  match s.write (fault (3 * i)) j value with
  | (ret, s) =>
    if ret ≤ 0 then (.error (-2), s)
    else
      match s.read (fault (3 * i + 1)) j with
      | (none, s) => (.error (-3), s)
      | (some v, s) =>
        if v ≠ value then (.error (-4), s)
        else
          match s.write (fault (3 * i + 2)) j hashBit with
          | (lock, s) => if lock < 0 then (.error (-5), s) else (.ok ret, s)

def hashLoop (hash : Hash) (fault : Nat → Fault) : Nat → Nat → Efuse → Int → Int × Efuse
  | 0, _, s, len => (len, s.setFlag true)
  | n + 1, i, s, len =>
    match hashRound hash fault i s with
    | (.error code, s) => (code, s)
    | (.ok ret, s) => hashLoop hash fault n (i + 1) s (len + ret)

/-- `efuse_hash_write`; a null pointer or a count below 1 is refused before the flag is cleared. -/
def efuseHashWrite (hash : Option Hash) (count : Int) (fault : Nat → Fault) (s : Efuse) :
    Int × Efuse :=
  let s := { s with last := hash, accesses := [] }
  match hash with
  | none => (-1, s)
  | some p =>
    if count < 1 then (-1, s)
    else hashLoop p fault (((min count 40).toNat + 7) / 8) 0 (s.setFlag false) 0

def efuseSecureEnable (fault : Fault) (s : Efuse) : Int × Efuse :=
  if s.writeOkFlag = false then (-1, s)
  else
    match s.write fault secureBootBlock (1#32 <<< secureBootBit) with
    | (ret, s) => (if ret ≤ 0 then -2 else 0, s)

inductive Call where
  | hashWrite (hash : Option Hash) (count : Int) (fault : Nat → Fault)
  | secureEnable (fault : Fault)

def Efuse.next (s : Efuse) : Call → Option Efuse
  | .hashWrite hash count fault => some (efuseHashWrite hash count fault s).2
  | .secureEnable fault => some (efuseSecureEnable fault s).2

def Efuse.secure (s : Efuse) : Bool := (s.blocks secureBootBlock).getLsbD secureBootBit

def hashWord (hash : Hash) (i : Nat) : Word :=
  BitVec.ofNat 32 (ofDigits 16 ((List.range 8).map fun k => hash (8 * i + k))) &&& 0x7fffffff

def burnt (hash : Hash) (i : Nat) : List Access :=
  [.burn (hashBlockStart + i) (hashWord hash i), .read (hashBlockStart + i) (hashWord hash i),
    .burn (hashBlockStart + i) hashBit]

/-- The five hash blocks were burnt with the last hash, read back equal to it and then locked, and
they hold it. -/
def HashBurnt (s : Efuse) : Prop :=
  ∃ hash, s.last = some hash ∧ (List.range 5).flatMap (burnt hash) <+: s.accesses ∧
    ∀ i < 5, s.blocks (hashBlockStart + i) = hashWord hash i ||| hashBit

/-- A hash of 40 hexadecimal digits, given with a count that covers the last of its five groups. -/
def Call.Proper : Call → Prop
  | .hashWrite hash count _ => 33 ≤ count ∧ ∃ p, hash = some p ∧ ∀ k < 40, digitVal (p k) < 16
  | .secureEnable _ => True

theorem hashValue_eq {hash : Hash} (h : ∀ k < 40, digitVal (hash k) < 16) (hi : i < 5) :
    hashValue hash i = hashWord hash i := by
  have hdigit : ∀ c ∈ (List.range 8).map fun k => hash (8 * i + k), digitVal c < 16 := by
    intro c hc
    obtain ⟨k, hk, rfl⟩ := List.mem_map.1 hc
    have hk := List.mem_range.1 hk
    exact h _ (by omega)
  have hgroup : group hash i = (List.range 8).map fun k => hash (8 * i + k) := by
    apply List.takeWhile_eq_self_iff.2
    intro c hc
    apply decide_eq_true
    rintro rfl
    exact absurd (hdigit _ hc) (by decide)
  rw [hashValue, hashWord, hgroup, strtoul_of_digits hdigit (by simp)]

def roundAccesses (hash : Hash) (i : Nat) : List Access :=
  [.burn (hashBlockStart + i) (hashValue hash i), .read (hashBlockStart + i) (hashValue hash i),
    .burn (hashBlockStart + i) hashBit]

structure RoundDone (hash : Hash) (i : Nat) (s t : Efuse) : Prop where
  flag : t.writeOkFlag = s.writeOkFlag
  last : t.last = s.last
  accesses : t.accesses = s.accesses ++ roundAccesses hash i
  block : t.blocks (hashBlockStart + i) = hashValue hash i ||| hashBit
  others : ∀ b, b ≠ hashBlockStart + i → t.blocks b = s.blocks b

theorem hashRound_cases (hash : Hash) (fault : Nat → Fault) (i : Nat) (s : Efuse) :
    (∃ code t, hashRound hash fault i s = (.error code, t) ∧ t.writeOkFlag = s.writeOkFlag ∧
        ∀ b, b ≠ hashBlockStart + i → t.blocks b = s.blocks b) ∨
      ∃ ret t, hashRound hash fault i s = (.ok ret, t) ∧ RoundDone hash i s t := by
  have hne {u : Efuse} {val : Word} : ∀ b, b ≠ hashBlockStart + i →
      (u.burnBits (hashBlockStart + i) val).blocks b = u.blocks b :=
    fun b hb => u.burnBits_blocks_of_ne val hb
  unfold hashRound Efuse.write Efuse.read
  cases fault (3 * i) with
  | some bits => exact .inl ⟨_, _, rfl, rfl, hne⟩
  | none =>
    cases fault (3 * i + 1) with
    | some bits => exact .inl ⟨_, _, rfl, rfl, fun b hb => hne b hb⟩
    | none =>
      by_cases hv : s.blocks (hashBlockStart + i) ||| hashValue hash i = hashValue hash i
      case neg =>
        simp only [Efuse.note_blocks, Efuse.burnBits_blocks_self, ne_eq, hv, not_false_eq_true,
          if_true]
        exact .inl ⟨_, _, rfl, rfl, fun b hb => hne b hb⟩
      case pos =>
        simp only [Efuse.note_blocks, Efuse.burnBits_blocks_self, ne_eq, hv, not_true_eq_false,
          if_false]
        cases fault (3 * i + 2) with
        | some bits =>
          exact .inl ⟨_, _, rfl, rfl, fun b hb => (hne b hb).trans (hne b hb)⟩
        | none =>
          refine .inr ⟨_, _, rfl, rfl, rfl, ?_, ?_, fun b hb => ?_⟩
          · simp [Efuse.note, Efuse.burnBits, roundAccesses]
          · simp only [Efuse.note_blocks, Efuse.burnBits_blocks_self, hv]
          · exact (hne b hb).trans (hne b hb)

structure LoopDone (hash : Hash) (i n : Nat) (s t : Efuse) : Prop where
  last : t.last = s.last
  accesses : t.accesses = s.accesses ++ (List.range' i n).flatMap (roundAccesses hash)
  block : ∀ k, i ≤ k → k < i + n → t.blocks (hashBlockStart + k) = hashValue hash k ||| hashBit
  others : ∀ b < hashBlockStart + i, t.blocks b = s.blocks b

theorem hashLoop_done {hash : Hash} (hs : s.writeOkFlag = false)
    (h : (hashLoop hash fault n i s len).2.writeOkFlag = true) :
    LoopDone hash i n s (hashLoop hash fault n i s len).2 := by
  induction n generalizing i s len with
  | zero =>
    refine ⟨rfl, (List.append_nil _).symm, fun k h₁ h₂ => ?_, fun _ _ => rfl⟩
    omega
  | succ n ih =>
    unfold hashLoop at h ⊢
    obtain ⟨code, t, hround, hflag, -⟩ | ⟨ret, t, hround, hdone⟩ := hashRound_cases hash fault i s
    · simp only [hround, hflag, hs] at h
      cases h
    simp only [hround] at h ⊢
    have hrest := ih (hdone.flag.trans hs) h
    refine ⟨hrest.last.trans hdone.last, ?_, fun k h₁ h₂ => ?_, fun b hb => ?_⟩
    · rw [hrest.accesses, hdone.accesses, List.append_assoc, List.range'_succ, List.flatMap_cons]
    · obtain rfl | hlt := eq_or_lt_of_le h₁
      · rw [hrest.others _ (by omega), hdone.block]
      · exact hrest.block k hlt (by omega)
    · rw [hrest.others b (by omega), hdone.others b (by omega)]

/-- The blocks before the hash blocks are left alone, however the loop ends. -/
theorem hashLoop_blocks {hash : Hash} (hb : b < hashBlockStart) :
    (hashLoop hash fault n i s len).2.blocks b = s.blocks b := by
  induction n generalizing i s len with
  | zero => rfl
  | succ n ih =>
    unfold hashLoop
    obtain ⟨code, t, hround, -, hothers⟩ | ⟨ret, t, hround, hdone⟩ :=
      hashRound_cases hash fault i s
    · simp only [hround]
      exact hothers b (by omega)
    · simp only [hround]
      rw [ih, hdone.others b (by omega)]

theorem hashWrite_blocks {hash : Option Hash} (hb : b < hashBlockStart) :
    (efuseHashWrite hash count fault s).2.blocks b = s.blocks b := by
  unfold efuseHashWrite
  cases hash with
  | none => rfl
  | some p =>
    simp only
    split
    · rfl
    · exact hashLoop_blocks hb

theorem hashWrite_burnt {p : Hash} (hcount : 33 ≤ count) (hp : ∀ k < 40, digitVal (p k) < 16)
    (h : (efuseHashWrite (some p) count fault s).2.writeOkFlag = true) :
    HashBurnt (efuseHashWrite (some p) count fault s).2 := by
  have hgroups : ((min count 40).toNat + 7) / 8 = 5 := by omega
  simp only [efuseHashWrite, if_neg (show ¬ count < 1 by omega), hgroups] at h ⊢
  have hdone := hashLoop_done rfl h
  refine ⟨p, hdone.last, ?_, fun i hi => ?_⟩
  · have hrounds : (List.range' 0 5).flatMap (roundAccesses p) =
        (List.range' 0 5).flatMap (burnt p) := by
      apply List.flatMap_congr
      intro i hi
      have hi : i < 5 := by simpa using List.mem_range'.1 hi
      rw [burnt, roundAccesses, hashValue_eq hp hi]
    rw [hdone.accesses, List.range_eq_range', hrounds]
    exact List.prefix_rfl
  · rw [hdone.block i (Nat.zero_le i) (by omega), hashValue_eq hp hi]

def Vouched (s : Efuse) : Prop := s.writeOkFlag = true → HashBurnt s

theorem HashBurnt.write (hs : HashBurnt s) (hb : b < hashBlockStart) (fault : Fault) (val : Word) :
    HashBurnt (s.write fault b val).2 := by
  obtain ⟨hash, hlast, haccesses, hblocks⟩ := hs
  have hne (i : Nat) : hashBlockStart + i ≠ b := by omega
  unfold Efuse.write
  cases fault with
  | none =>
    refine ⟨hash, hlast, haccesses.trans (List.prefix_append _ _), fun i hi => ?_⟩
    exact (s.burnBits_blocks_of_ne val (hne i)).trans (hblocks i hi)
  | some bits =>
    refine ⟨hash, hlast, haccesses, fun i hi => ?_⟩
    exact (s.burnBits_blocks_of_ne _ (hne i)).trans (hblocks i hi)

theorem secureEnable_vouched (hs : Vouched s) : Vouched (efuseSecureEnable fault s).2 := by
  unfold efuseSecureEnable
  split
  case isTrue => exact hs
  case isFalse hon =>
    intro _
    exact (hs (Bool.eq_true_of_not_eq_false hon)).write (by decide) fault _

theorem Vouched.next (hs : Vouched s) (hc : c.Proper) (h : s.next c = some t) : Vouched t := by
  cases c with
  | hashWrite hash count fault =>
    obtain ⟨hcount, p, rfl, hp⟩ := hc
    cases h
    exact hashWrite_burnt hcount hp
  | secureEnable fault =>
    cases h
    exact secureEnable_vouched hs

/-- When all calls give 40 digits, the secure-boot bit is burnt only after the five hash blocks have
been burnt with the last hash, read back and locked. -/
theorem secure_burnt_after_hash (h₀ : s₀.writeOkFlag = false)
    (hrun : Run (Guarded (fun _ c => Call.Proper c) Efuse.next) s₀ calls s)
    (hnext : s.next c = some t) (hoff : s.secure = false) (hon : t.secure = true) :
    (∃ fault, c = .secureEnable fault) ∧ HashBurnt s := by
  have hs : Vouched s := by
    apply hrun.invariant (I := fun _ s => Vouched s)
    · intro hflag
      rw [h₀] at hflag
      cases hflag
    · intro _ c u v hu huv
      exact hu.next huv.2 huv.1
  cases c with
  | hashWrite hash count fault =>
    cases hnext
    rw [Efuse.secure, hashWrite_blocks (by decide)] at hon
    rw [Efuse.secure, hon] at hoff
    cases hoff
  | secureEnable fault =>
    refine ⟨⟨fault, rfl⟩, hs ?_⟩
    by_contra hflag
    have hflag := Bool.eq_false_of_not_eq_true hflag
    simp only [Efuse.next, efuseSecureEnable, if_pos hflag] at hnext
    cases hnext
    rw [hon] at hoff
    cases hoff

def blank : Efuse := ⟨fun _ => 0, false, none, []⟩

def sound : Nat → Fault := fun _ => none

theorem secure_burnt_after_zeros : ∃ s t,
    Run (Guarded (fun _ c => Call.Proper c) Efuse.next) blank
      [.hashWrite (some fun _ => '0') 40 sound] s ∧
    s.next (.secureEnable none) = some t ∧ t.secure = true ∧ HashBurnt s := by
  have hc : Call.Proper (.hashWrite (some fun _ => '0') 40 sound) :=
    ⟨by decide, _, rfl, fun _ _ => by decide⟩
  have hrun : Run (Guarded (fun _ c => Call.Proper c) Efuse.next) blank
      ([] ++ [.hashWrite (some fun _ => '0') 40 sound])
      (efuseHashWrite (some fun _ => '0') 40 sound blank).2 := .snoc .nil ⟨rfl, hc⟩
  have hnext : ((efuseHashWrite (some fun _ => '0') 40 sound blank).2).next (.secureEnable none) =
    some (efuseSecureEnable none (efuseHashWrite (some fun _ => '0') 40 sound blank).2).2 := rfl
  have hburnt := secure_burnt_after_hash rfl hrun hnext (by decide) (by decide)
  exact ⟨_, _, hrun, hnext, by decide, hburnt.2⟩

/-- With a count of 8 a single block is burnt before the secure-boot bit; and a call refused for its
count leaves the flag of the call before it. -/
theorem secure_burnt_after_one_block :
    (∃ s t, Run (Next Efuse.next) blank [.hashWrite (some fun _ => '1') 8 sound] s ∧
      s.next (.secureEnable none) = some t ∧ s.secure = false ∧ t.secure = true ∧
      ∀ i < 5, 1 ≤ i → s.blocks (hashBlockStart + i) = 0) ∧
    ∃ s t, Run (Next Efuse.next) blank
        [.hashWrite (some fun _ => '1') 40 sound, .hashWrite (some fun _ => '2') 0 sound] s ∧
      s.next (.secureEnable none) = some t ∧ s.secure = false ∧ t.secure = true ∧
      s.accesses = [] := by
  refine ⟨⟨_, _, run_of_exec rfl, rfl, ?_, ?_, ?_⟩, _, _, run_of_exec rfl, rfl, ?_, ?_, ?_⟩
  all_goals decide

end SprdVendor.LibEfuse
