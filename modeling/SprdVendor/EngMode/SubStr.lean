import SprdVendor.Lib.Tokens

namespace SprdVendor.EngMode
open Lib List

/-- What the parsers do with the memory: a byte of the text is read, a byte of the text becomes a
terminator, a byte of an argument buffer is written. -/
inductive Access where
  | load (pos : Nat)
  | cut (pos : Nat)
  | store (arg i : Nat)
deriving DecidableEq

def loads (pos n : Nat) : List Access := (range' pos n).map .load

def stores (arg n : Nat) : List Access := (range n).map (.store arg)

def strncpy (arg pos len n : Nat) : List Access := loads pos (min (len + 1) n) ++ stores arg n

/-- The loop over `strtok`, with the number of arguments that are left. -/
def copyTokens (tok : Char) (text : List Char) (substrMaxLen : Nat) :
    Nat → Nat → List Char → List Access
  | left, index, rest =>
    match token (· = tok) rest with
    | none => loads (text.length - rest.length) (rest.length + 1)
    | some (w, tail) =>
      loads (text.length - rest.length) (rest.length - tail.length + 1) ++
      (if tail = [] then [] else [.cut (text.length - tail.length)]) ++
      match left with
      | 0 => []
      | left + 1 =>
        strncpy index (text.length - (w ++ tail).length) w.length substrMaxLen ++
          copyTokens tok text substrMaxLen left (index + 1) (tail.drop 1)

/-- The common text of both functions, which differ in the separator of `strtok`; `memcpy` takes
the difference of the two places as an unsigned number of 32 bits. -/
def subStr (tok : Char) (buf : List Char) (a delim : Char) (count substrMaxLen : Nat) :
    List Access :=
  loads 0 (buf.length + 1) ++
  match buf.findIdx? (· = a), buf.findIdx? (· = delim) with
  | some start, some substr =>
    let len := (((substr : Int) - start - 1) % 2 ^ 32).toNat
    loads (start + 1) len ++ stores 0 len ++
      copyTokens tok buf substrMaxLen (count - 1) 1 (buf.drop (substr + 1))
  | _, _ => []

def getSubStr (buf : List Char) (a delim : Char) (count substrMaxLen : Nat) : List Access :=
  subStr delim buf a delim count substrMaxLen

def getSubStrColon (buf : List Char) (a delim : Char) (count substrMaxLen : Nat) : List Access :=
  subStr ':' buf a delim count substrMaxLen

def engAtdiagEuthdlr (buf : List Char) : List Access := getSubStr buf '=' ',' 4 32

def gpsEutParse (buf : List Char) : List Access := getSubStrColon buf '=' ',' 4 32

/-- Reads stay in the text with its terminator, writes in the four buffers or on a separator. -/
def Access.Within (buf : List Char) (tok : Char) : Access → Prop
  | .load pos => pos ≤ buf.length
  | .cut pos => buf[pos]? = some tok
  | .store arg i => arg < 4 ∧ i < 33

variable {buf : List Char} {tok : Char}

theorem loads_within (h : pos + n ≤ buf.length + 1) : ∀ a ∈ loads pos n, a.Within buf tok := by
  intro a ha
  obtain ⟨p, hp, rfl⟩ := mem_map.1 ha
  obtain ⟨i, hi, rfl⟩ := mem_range'.1 hp
  rw [Access.Within]
  omega

theorem stores_within (harg : arg < 4) (h : n ≤ 33) : ∀ a ∈ stores arg n, a.Within buf tok := by
  intro a ha
  obtain ⟨i, hi, rfl⟩ := mem_map.1 ha
  exact ⟨harg, (mem_range.1 hi).trans_le h⟩

theorem strtok_within {tail : List Char} (hrest : rest <:+ buf)
    (h : token (· = tok) rest = some (w, tail)) :
    w ++ tail <:+ buf ∧ ∀ a ∈ loads (buf.length - rest.length) (rest.length - tail.length + 1) ++
      (if tail = [] then [] else [.cut (buf.length - tail.length)]), a.Within buf tok := by
  obtain ⟨heq, -, -, hsep⟩ := eq_of_token h
  have htok : w ++ tail <:+ buf := IsSuffix.trans ⟨_, heq.symm⟩ hrest
  have hlen := hrest.length_le
  refine ⟨htok, forall_mem_append.2 ⟨loads_within (by omega), ?_⟩⟩
  obtain ⟨pre, rfl⟩ := (suffix_append w tail).trans htok
  cases tail with
  | nil => exact fun a ha => absurd ha not_mem_nil
  | cons c tail =>
    -- the token ends at a separator, which becomes its terminator
    rw [if_neg (cons_ne_nil c tail), forall_mem_singleton, length_append, Nat.add_sub_cancel,
      Access.Within, getElem?_append_right (Nat.le_refl _), Nat.sub_self]
    exact congrArg some (of_decide_eq_true (hsep c rfl))

theorem copyTokens_within (hrest : rest <:+ buf) (hindex : index + left ≤ 4) :
    ∀ a ∈ copyTokens tok buf 32 left index rest, a.Within buf tok := by
  have hend := hrest.length_le
  induction left generalizing index rest with
  | zero =>
    rw [copyTokens]
    split
    · exact loads_within (by omega)
    · rw [append_nil]
      exact (strtok_within hrest ‹_›).2
  | succ left ih =>
    rw [copyTokens]
    split
    · exact loads_within (by omega)
    rename_i w tail htok
    obtain ⟨hsuf, hscan⟩ := strtok_within hrest htok
    have hlen := hsuf.length_le
    have hnext : tail.drop 1 <:+ buf :=
      (drop_suffix 1 tail).trans ((suffix_append w tail).trans hsuf)
    refine forall_mem_append.2 ⟨hscan, forall_mem_append.2 ⟨forall_mem_append.2 ⟨?_, ?_⟩, ?_⟩⟩
    · rw [length_append] at hlen ⊢
      exact loads_within (by omega)
    · exact stores_within (by omega) (by decide)
    · exact ih hnext (by omega) hnext.length_le

def NameFits (buf : List Char) : Prop :=
  ∀ start substr, buf.findIdx? (· = '=') = some start → buf.findIdx? (· = ',') = some substr →
    start < substr ∧ substr - start - 1 ≤ 33

theorem subStr_within (h : NameFits buf) :
    ∀ a ∈ subStr tok buf '=' ',' 4 32, a.Within buf tok := by
  rw [subStr]
  refine forall_mem_append.2 ⟨loads_within (by omega), ?_⟩
  split
  · rename_i start substr hstart hsubstr
    obtain ⟨hlt, hfits⟩ := h start substr hstart hsubstr
    obtain ⟨hend, -⟩ := findIdx?_eq_some_iff_getElem.1 hsubstr
    have hlen : (((substr : Int) - start - 1) % 2 ^ 32).toNat = substr - start - 1 := by omega
    rw [hlen]
    refine forall_mem_append.2 ⟨forall_mem_append.2 ⟨loads_within (by omega), ?_⟩, ?_⟩
    · exact stores_within (by decide) hfits
    · exact copyTokens_within (drop_suffix _ _) (by decide)
  · exact fun a ha => absurd ha not_mem_nil

theorem mem_stores (h : i < n) : .store arg i ∈ stores arg n := mem_map_of_mem (mem_range.2 h)

end SprdVendor.EngMode
