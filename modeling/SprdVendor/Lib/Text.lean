import Mathlib

namespace SprdVendor.Lib
open List

/-- The value of a character as a digit; 36 where it is no digit in any base. -/
def digitVal (c : Char) : Nat :=
  if '0' ≤ c ∧ c ≤ '9' then c.toNat - 48
  else if 'a' ≤ c ∧ c ≤ 'z' then c.toNat - 87
  else if 'A' ≤ c ∧ c ≤ 'Z' then c.toNat - 55
  else 36

def digits (b : Nat) (s : List Char) : List Char := s.takeWhile (digitVal · < b)

def ofDigits (b : Nat) (s : List Char) : Nat := s.foldl (fun n c => b * n + digitVal c) 0

def isSpace (c : Char) : Bool := c = ' ' ∨ ('\t' ≤ c ∧ c ≤ '\r')

def takeSign : List Char → Bool × List Char
  | '-' :: s => (true, s)
  | '+' :: s => (false, s)
  | s => (false, s)

/-- The base of the digits that follow: 16 may be announced by `0x`, and base 0 lets the text
choose. -/
def takeBase (base : Nat) : List Char → Nat × List Char
  | '0' :: x :: c :: s =>
    if (base = 0 ∨ base = 16) ∧ (x = 'x' ∨ x = 'X') ∧ digitVal c < 16 then (16, c :: s)
    else (if base = 0 then 8 else base, '0' :: x :: c :: s)
  | '0' :: s => (if base = 0 then 8 else base, '0' :: s)
  | s => (if base = 0 then 10 else base, s)

def scanNumber (base : Nat) (s : List Char) : Bool × Nat :=
  let signed := takeSign (s.dropWhile isSpace)
  let based := takeBase base signed.2
  (signed.1, ofDigits based.1 (digits based.1 based.2))

/-- Where `strtol` and `strtoul` stop; a text without a number is not used up at all. -/
def scanEnd (base : Nat) (s : List Char) : List Char :=
  let based := takeBase base (takeSign (s.dropWhile isSpace)).2
  if digits based.1 based.2 = [] then s else based.2.dropWhile (digitVal · < based.1)

def strtol (w base : Nat) (s : List Char) : Int :=
  let n := scanNumber base s
  max (-2 ^ (w - 1)) (min (2 ^ (w - 1) - 1) (if n.1 then -(n.2 : Int) else n.2))

def strtoul (w base : Nat) (s : List Char) : Nat :=
  let n := scanNumber base s
  if 2 ^ w ≤ n.2 then 2 ^ w - 1 else if n.1 then (2 ^ w - n.2) % 2 ^ w else n.2

theorem digitVal_digitChar (h : n < 16) : digitVal n.digitChar = n := by
  have hall : ∀ n : Fin 16, digitVal (Nat.digitChar n) = n := by decide
  exact hall ⟨n, h⟩

theorem exists_digit_of_mem_toDigits (hb : 1 < b)
    (h : c ∈ Nat.toDigits b n) : ∃ d < b, c = d.digitChar := by
  induction n using Nat.strong_induction_on with
  | h n ih =>
    rw [Nat.toDigits_eq_if hb] at h
    split at h
    case isTrue hlt => exact ⟨n, hlt, mem_singleton.1 h⟩
    case isFalse hge =>
      obtain h | h := mem_append.1 h
      · exact ih (n / b) (Nat.div_lt_self (by omega) hb) h
      · exact ⟨n % b, Nat.mod_lt n (by omega), mem_singleton.1 h⟩

theorem digitVal_lt_of_mem_toDigits (hb : 1 < b) (hb' : b ≤ 16)
    (h : c ∈ Nat.toDigits b n) : digitVal c < b := by
  obtain ⟨d, hd, rfl⟩ := exists_digit_of_mem_toDigits hb h
  rwa [digitVal_digitChar (by omega)]

theorem ofDigits_snoc (b : Nat) (s : List Char) (c : Char) :
    ofDigits b (s ++ [c]) = b * ofDigits b s + digitVal c := by
  simp [ofDigits]

theorem ofDigits_toDigits (hb : 1 < b) (hb' : b ≤ 16) : ofDigits b (Nat.toDigits b n) = n := by
  induction n using Nat.strong_induction_on with
  | h n ih =>
    rw [Nat.toDigits_eq_if hb]
    split
    case isTrue hlt =>
      simp only [ofDigits, foldl_cons, foldl_nil, mul_zero, zero_add]
      exact digitVal_digitChar (by omega)
    case isFalse hge =>
      have hdiv := ih (n / b) (Nat.div_lt_self (by omega) hb)
      have hmod : n % b < 16 := (Nat.mod_lt n (by omega)).trans_le hb'
      rw [ofDigits_snoc, hdiv, digitVal_digitChar hmod]
      exact Nat.div_add_mod n b

theorem digits_toDigits_append (hb : 1 < b) (hb' : b ≤ 16) (hs : ∀ c ∈ s.head?, b ≤ digitVal c) :
    digits b (Nat.toDigits b n ++ s) = Nat.toDigits b n := by
  have hall : ∀ c ∈ Nat.toDigits b n, decide (digitVal c < b) = true := by
    intro c hc
    exact decide_eq_true (digitVal_lt_of_mem_toDigits hb hb' hc)
  rw [digits, takeWhile_append_of_pos hall]
  cases s with
  | nil => rw [takeWhile_nil, append_nil]
  | cons c s =>
    have hc : ¬ digitVal c < b := not_lt.2 (hs c rfl)
    rw [takeWhile_cons_of_neg (by simpa using hc), append_nil]

theorem ofDigits_lt (h : ∀ c ∈ s, digitVal c < b) : ofDigits b s < b ^ s.length := by
  induction s using reverseRecOn with
  | nil => exact one_pos
  | append_singleton s c ih =>
    have hs := ih fun d hd => h d (mem_append_left [c] hd)
    have hc := h c (mem_append_right s mem_cons_self)
    rw [ofDigits_snoc, length_append, length_singleton, Nat.pow_succ, Nat.mul_comm _ b]
    calc b * ofDigits b s + digitVal c < b * (ofDigits b s + 1) := by
          rw [Nat.mul_succ]
          omega
      _ ≤ b * b ^ s.length := Nat.mul_le_mul_left b hs

theorem digitVal_of_lt (h : c < '0') : digitVal c = 36 := by
  have ha : ¬ 'a' ≤ c := not_le.2 (h.trans (by decide))
  have hA : ¬ 'A' ≤ c := not_le.2 (h.trans (by decide))
  simp [digitVal, not_le.2 h, ha, hA]

theorem isSpace_of_digit (h : digitVal c < 36) : isSpace c = false := by
  have h₀ : '0' ≤ c := by
    by_contra hlt
    rw [digitVal_of_lt (not_le.1 hlt)] at h
    exact lt_irrefl _ h
  have h₁ : c ≠ ' ' := by
    rintro rfl
    exact absurd h₀ (by decide)
  have h₂ : ¬ c ≤ '\r' := not_le.2 (lt_of_lt_of_le (by decide) h₀)
  simp [isSpace, h₁, h₂]

theorem takeSign_of_digit (h : ∀ c ∈ s.head?, digitVal c < 36) :
    takeSign (s.dropWhile isSpace) = (false, s) := by
  cases s with
  | nil => rfl
  | cons c s =>
    have hc := h c rfl
    have hspace : (c :: s).dropWhile isSpace = c :: s := by
      apply dropWhile_cons_of_neg
      rw [isSpace_of_digit hc]
      decide
    rw [hspace]
    unfold takeSign
    split
    case h_1 heq =>
      cases heq
      exact absurd hc (by decide)
    case h_2 heq =>
      cases heq
      exact absurd hc (by decide)
    · rfl

theorem takeBase_of_digits (h : ∀ c ∈ s, digitVal c < 16) : takeBase 16 s = (16, s) := by
  unfold takeBase
  split
  case h_1 x c s =>
    have hx : ¬ (x = 'x' ∨ x = 'X') := by
      have hlt := h x (mem_cons_of_mem _ mem_cons_self)
      rintro (rfl | rfl)
      · exact absurd hlt (by decide)
      · exact absurd hlt (by decide)
    rw [if_neg fun hc => hx hc.2.1]
    rfl
  · rfl
  · rfl

theorem toDigits_cons_of_pos (hb : 1 < b) (hn : 0 < n) :
    ∃ d t, Nat.toDigits b n = d.digitChar :: t ∧ 0 < d ∧ d < b := by
  induction n using Nat.strong_induction_on with
  | h n ih =>
    rw [Nat.toDigits_eq_if hb]
    split
    case isTrue hlt => exact ⟨n, [], rfl, hn, hlt⟩
    case isFalse hge =>
      obtain ⟨d, t, ht, hd⟩ :=
        ih (n / b) (Nat.div_lt_self hn hb) (Nat.div_pos (Nat.not_lt.1 hge) (by omega))
      exact ⟨d, t ++ [(n % b).digitChar], by rw [ht, cons_append], hd⟩

theorem scanNumber_hex (hb : base = 0 ∨ base = 16) (n : Nat)
    (hs : ∀ c ∈ s.head?, 16 ≤ digitVal c) :
    scanNumber base ('0' :: 'x' :: (Nat.toDigits 16 n ++ s)) = (false, n) := by
  obtain ⟨c, t, hct⟩ := exists_cons_of_ne_nil (Nat.toDigits_ne_nil (n := n) (b := 16))
  have hc : digitVal c < 16 :=
    digitVal_lt_of_mem_toDigits (by decide) le_rfl (hct ▸ mem_cons_self)
  have hbase : takeBase base ('0' :: 'x' :: (Nat.toDigits 16 n ++ s)) =
      (16, Nat.toDigits 16 n ++ s) := by
    rw [hct]
    exact if_pos ⟨hb, .inl rfl, hc⟩
  have hspace : ('0' :: 'x' :: (Nat.toDigits 16 n ++ s)).dropWhile isSpace =
      '0' :: 'x' :: (Nat.toDigits 16 n ++ s) := dropWhile_cons_of_neg (by decide)
  have hsign : takeSign ('0' :: 'x' :: (Nat.toDigits 16 n ++ s)) =
      (false, '0' :: 'x' :: (Nat.toDigits 16 n ++ s)) := rfl
  simp only [scanNumber, hspace, hsign, hbase, digits_toDigits_append (by decide) le_rfl hs,
    ofDigits_toDigits (b := 16) (by decide) le_rfl]

theorem takeBase_zero (hs : ∀ c ∈ s.head?, digitVal c = 36) :
    takeBase 0 ('0' :: s) = (8, '0' :: s) := by
  unfold takeBase
  split
  case h_1 x c s' h =>
    obtain ⟨-, rfl⟩ := cons.inj h
    have hx : ¬ (x = 'x' ∨ x = 'X') := by
      have h36 := hs x rfl
      rintro (rfl | rfl)
      · exact absurd h36 (by decide)
      · exact absurd h36 (by decide)
    rw [if_neg fun hc => hx hc.2.1]
    rfl
  case h_2 s' _ h =>
    obtain ⟨-, rfl⟩ := cons.inj h
    rfl
  case h_3 h => exact absurd rfl (h s)

theorem takeBase_of_ne (h : c ≠ '0') (s : List Char) : takeBase 0 (c :: s) = (10, c :: s) := by
  unfold takeBase
  split
  case h_1 heq => exact absurd (cons.inj heq).1 h
  case h_2 heq => exact absurd (cons.inj heq).1 h
  · rfl

theorem exists_takeBase_dec (n : Nat) (hs : ∀ c ∈ s.head?, digitVal c = 36) :
    ∃ b, 1 < b ∧ b ≤ 10 ∧
      takeBase 0 (Nat.toDigits 10 n ++ s) = (b, Nat.toDigits b n ++ s) := by
  rcases eq_zero_or_pos n with rfl | hn
  · exact ⟨8, by decide, by decide, takeBase_zero hs⟩
  refine ⟨10, by decide, by decide, ?_⟩
  obtain ⟨d, t, ht, hd, hlt⟩ := toDigits_cons_of_pos (b := 10) (by decide) hn
  have hne : d.digitChar ≠ '0' := by
    intro h
    have := congrArg digitVal h
    rw [digitVal_digitChar (by omega)] at this
    exact absurd this (by simp [digitVal]; omega)
  rw [ht, cons_append, takeBase_of_ne hne]

theorem takeBase_dec (n : Nat) (hs : ∀ c ∈ s.head?, digitVal c = 36) :
    ofDigits (takeBase 0 (Nat.toDigits 10 n ++ s)).1
      (digits (takeBase 0 (Nat.toDigits 10 n ++ s)).1 (takeBase 0 (Nat.toDigits 10 n ++ s)).2) =
      n := by
  obtain ⟨b, hb, hb', hbase⟩ := exists_takeBase_dec n hs
  have hle : ∀ c ∈ s.head?, b ≤ digitVal c := by
    intro c hc
    rw [hs c hc]
    omega
  rw [hbase]
  simp only [digits_toDigits_append hb (hb'.trans (by decide)) hle]
  exact ofDigits_toDigits hb (hb'.trans (by decide))

theorem head_toDigits_append (n : Nat) (s : List Char) :
    ∀ d ∈ (Nat.toDigits 10 n ++ s).head?, digitVal d < 36 := by
  intro d hd
  obtain ⟨c, t, hct⟩ := exists_cons_of_ne_nil (Nat.toDigits_ne_nil (n := n) (b := 10))
  have hmem : d ∈ Nat.toDigits 10 n := by
    rw [hct] at hd ⊢
    cases hd
    exact mem_cons_self
  exact (digitVal_lt_of_mem_toDigits (by decide) (by decide) hmem).trans (by decide)

theorem scanNumber_dec (n : Nat) (hs : ∀ c ∈ s.head?, digitVal c = 36) :
    scanNumber 0 (Nat.toDigits 10 n ++ s) = (false, n) := by
  simp only [scanNumber, takeSign_of_digit (head_toDigits_append n s), takeBase_dec n hs]

theorem scanNumber_space (h : isSpace c = true) (base : Nat) (s : List Char) :
    scanNumber base (c :: s) = scanNumber base s := by
  rw [scanNumber, scanNumber, dropWhile_cons_of_pos h]

theorem scanEnd_space (h : isSpace c = true) (base : Nat)
    (hs : scanEnd base s ≠ s) : scanEnd base (c :: s) = scanEnd base s := by
  rw [scanEnd] at hs
  rw [scanEnd, scanEnd, dropWhile_cons_of_pos h]
  split at hs
  · exact absurd rfl hs
  · rename_i hd
    rw [if_neg hd, if_neg hd]

theorem scanEnd_dec (n : Nat) (hs : ∀ c ∈ s.head?, digitVal c = 36) :
    scanEnd 0 (Nat.toDigits 10 n ++ s) = s := by
  obtain ⟨b, hb, hb', hbase⟩ := exists_takeBase_dec n hs
  have hle : ∀ c ∈ s.head?, b ≤ digitVal c := by
    intro c hc
    rw [hs c hc]
    omega
  have hdigits := digits_toDigits_append (n := n) hb (hb'.trans (by decide)) hle
  have hdrop : (Nat.toDigits b n ++ s).dropWhile (digitVal · < b) = s := by
    have hsplit := takeWhile_append_dropWhile (p := (digitVal · < b))
      (l := Nat.toDigits b n ++ s)
    rw [digits] at hdigits
    rw [hdigits] at hsplit
    exact append_cancel_left hsplit
  have hhead : ∀ d ∈ (Nat.toDigits 10 n ++ s).head?, digitVal d < 36 := head_toDigits_append n s
  rw [scanEnd, takeSign_of_digit hhead]
  rw [hbase]
  rw [hdigits, if_neg Nat.toDigits_ne_nil, hdrop]

theorem scan_letter (h : 10 ≤ digitVal c) (hspace : isSpace c = false)
    (hsign : c ≠ '-' ∧ c ≠ '+') (hpre : ∀ d ∈ pre, isSpace d = true) (s : List Char) :
    scanNumber 0 (pre ++ c :: s) = (false, 0) ∧ scanEnd 0 (pre ++ c :: s) = pre ++ c :: s := by
  have hskip : (pre ++ c :: s).dropWhile isSpace = c :: s := by
    rw [dropWhile_append_of_pos hpre]
    exact dropWhile_cons_of_neg (by rw [hspace]; decide)
  have htake : takeSign (c :: s) = (false, c :: s) := by
    unfold takeSign
    split
    case h_1 heq => exact absurd (cons.inj heq).1 hsign.1
    case h_2 heq => exact absurd (cons.inj heq).1 hsign.2
    · rfl
  have hzero : c ≠ '0' := by
    rintro rfl
    exact absurd h (by decide)
  have hdigits : digits 10 (c :: s) = [] :=
    takeWhile_cons_of_neg (by simpa using h)
  constructor
  · rw [scanNumber, hskip, htake]
    rw [takeBase_of_ne hzero]
    rw [hdigits]
    rfl
  rw [scanEnd, hskip, htake]
  rw [takeBase_of_ne hzero]
  rw [hdigits, if_pos rfl]

theorem scanNumber_neg (n : Nat) (hs : ∀ c ∈ s.head?, digitVal c = 36) :
    scanNumber 0 ('-' :: (Nat.toDigits 10 n ++ s)) = (true, n) := by
  have hspace : ('-' :: (Nat.toDigits 10 n ++ s)).dropWhile isSpace =
      '-' :: (Nat.toDigits 10 n ++ s) := dropWhile_cons_of_neg (by decide)
  have hsign : takeSign ('-' :: (Nat.toDigits 10 n ++ s)) = (true, Nat.toDigits 10 n ++ s) := rfl
  simp only [scanNumber, hspace, hsign, takeBase_dec n hs]

theorem strtol_of_scan (h : scanNumber base s = (false, n)) :
    strtol w base s = min (2 ^ (w - 1) - 1) (n : Int) := by
  have hpos : (0 : Int) < 2 ^ (w - 1) := Int.pow_pos (by decide)
  simp only [strtol, h, Bool.false_eq_true, if_false]
  omega

theorem strtol_of_scan_neg (h : scanNumber base s = (true, n))
    (hn : (n : Int) ≤ 2 ^ (w - 1)) : strtol w base s = -n := by
  have hpos : (0 : Int) < 2 ^ (w - 1) := Int.pow_pos (by decide)
  simp only [strtol, h, if_true]
  omega

theorem strtoul_of_scan (h : scanNumber base s = (false, n)) (hn : n < 2 ^ w) :
    strtoul w base s = n := by
  simp [strtoul, h, if_neg (not_le.2 hn)]

theorem strtoul_of_digits (h : ∀ c ∈ s, digitVal c < 16)
    (hlen : 16 ^ s.length ≤ 2 ^ w) : strtoul w 16 s = ofDigits 16 s := by
  have hlt : ofDigits 16 s < 2 ^ w := (ofDigits_lt h).trans_le hlen
  have h36 : ∀ c ∈ s.head?, digitVal c < 36 :=
    fun c hc => (h c (mem_of_mem_head? hc)).trans (by decide)
  have hdigits : digits 16 s = s :=
    takeWhile_eq_self_iff.2 fun c hc => decide_eq_true (h c hc)
  have hscan : scanNumber 16 s = (false, ofDigits 16 s) := by
    simp only [scanNumber, takeSign_of_digit h36, takeBase_of_digits h, hdigits]
  simp [strtoul, hscan, if_neg (not_le.2 hlt)]

end SprdVendor.Lib
