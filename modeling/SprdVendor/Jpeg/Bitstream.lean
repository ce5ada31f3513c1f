import SprdVendor.Lib.Dialogue

namespace SprdVendor.Jpeg
open Lib

inductive Request where
  | getChar
  | extraMemAlloc (size : Nat)
  /-- The bytes that now follow go to the handler of this marker: a note in a log, not a request
  the source makes. -/
  | handle (marker : UInt8)

def Answer : Request → Type
  | .getChar => Option UInt8
  | .extraMemAlloc _ => Unit
  | .handle _ => Unit

/-- The unread bytes of the buffer, `s_jremain_byte_num` of them from `s_inter_buf_ptr` on, and the
pieces the `read` callback has still to deliver. -/
structure Bitstream where
  buffer : List UInt8
  pieces : List (List UInt8)
  nonempty : ∀ p ∈ pieces, p ≠ []

namespace Bitstream

def refill : Bitstream → Bitstream
  | ⟨[], p :: ps, h⟩ => ⟨p, ps, fun q hq => h q (.tail p hq)⟩
  | b => b

def getChar (b : Bitstream) : Option UInt8 × Bitstream :=
  match b.refill with
  | ⟨[], ps, h⟩ => (none, ⟨[], ps, h⟩)
  | ⟨c :: cs, ps, h⟩ => (some c, ⟨cs, ps, h⟩)

def skipNByte (n : Nat) (b : Bitstream) : Option Bitstream :=
  if n ≤ b.buffer.length then some { b with buffer := b.buffer.drop n } else none

def bytes (b : Bitstream) : List UInt8 := b.buffer ++ b.pieces.flatten

theorem refill_bytes (b : Bitstream) : b.refill.bytes = b.bytes := by
  obtain ⟨_ | ⟨c, cs⟩, _ | ⟨p, ps⟩, h⟩ := b
  · rfl
  · simp [refill, bytes]
  · rfl
  · rfl

theorem refill_buffer_nil {b : Bitstream} (h : b.refill.buffer = []) : b.refill.bytes = [] := by
  obtain ⟨_ | ⟨c, cs⟩, _ | ⟨p, ps⟩, hne⟩ := b
  · rfl
  · exact absurd h (hne p (.head ps))
  · cases h
  · cases h

theorem getChar_bytes (b : Bitstream) :
    b.getChar.1 = b.bytes.head? ∧ b.getChar.2.bytes = b.bytes.tail := by
  have hnil := @refill_buffer_nil b
  unfold getChar
  rw [← refill_bytes b]
  generalize b.refill = r at hnil ⊢
  obtain ⟨_ | ⟨c, cs⟩, ps, h⟩ := r
  · rw [hnil rfl]
    exact ⟨rfl, rfl⟩
  · exact ⟨rfl, rfl⟩

theorem skipNByte_bytes {b b' : Bitstream} (h : b.skipNByte n = some b') :
    b'.bytes = b.bytes.drop n := by
  unfold skipNByte at h
  split at h
  case isTrue hn =>
    cases h
    exact (List.drop_append_of_le_length hn).symm
  · cases h

end Bitstream

structure Device where
  bitstream : Bitstream
  usedExtraMem : Nat
  extraMemSize : Nat
  calls : List (UInt8 × List UInt8)

/-- `JpegDec_ExtraMemAlloc` only asserts that the request fits, and the assertion is compiled out:
behind a request that does not fit nothing is known of the run. -/
def Device.answer : (q : Request) → Device → Option (Answer q × Device)
  | .getChar, d => some (d.bitstream.getChar.1, { d with bitstream := d.bitstream.getChar.2 })
  | .extraMemAlloc size, d =>
    let memSize := (size + 3) / 4 * 4
    if memSize ≤ d.extraMemSize - d.usedExtraMem then
      some ((), { d with usedExtraMem := d.usedExtraMem + memSize })
    else none
  | .handle marker, d => some ((), { d with calls := d.calls ++ [(marker, d.bitstream.bytes)] })

/-- The surroundings as the format sees them: the bytes to come, and memory without end. -/
structure Plain where
  rest : List UInt8
  calls : List (UInt8 × List UInt8)

def Plain.answer : (q : Request) → Plain → Option (Answer q × Plain)
  | .getChar, p => some (p.rest.head?, { p with rest := p.rest.tail })
  | .extraMemAlloc _, p => some ((), p)
  | .handle marker, p => some ((), { p with calls := p.calls ++ [(marker, p.rest)] })

def Device.plain (d : Device) : Plain := ⟨d.bitstream.bytes, d.calls⟩

theorem Device.answer_plain (h : Device.answer q d = some (a, d')) :
    Plain.answer q d.plain = some (a, d'.plain) := by
  cases q with
  | getChar =>
    obtain ⟨hc, hb⟩ := d.bitstream.getChar_bytes
    cases h
    simp only [Plain.answer, plain, hc, hb]
  | extraMemAlloc size =>
    simp only [answer] at h
    split at h
    · cases h
      rfl
    · cases h
  | handle marker =>
    cases h
    rfl

theorem Device.run_plain {x : Dialogue Request Answer ρ}
    (h : x.run Device.answer d = some (r, d')) :
    x.run Plain.answer d.plain = some (r, d'.plain) := by
  have hanswer : ∀ q d p a d', p = Device.plain d → Device.answer q d = some (a, d') →
      ∃ p', Plain.answer q p = some (a, p') ∧ p' = d'.plain := by
    rintro q d p a d' rfl ha
    exact ⟨_, answer_plain ha, rfl⟩
  obtain ⟨k, hk, rfl⟩ := x.run_simulates hanswer rfl h
  exact hk

theorem Plain.answer_isSome (q : Request) (p : Plain) : (Plain.answer q p).isSome := by
  cases q with
  | _ => rfl

theorem Device.run_isSome_of_large (x : Dialogue Request Answer ρ) (d : Device) :
    ∃ n, ∀ size, n ≤ size →
      (x.run Device.answer { d with extraMemSize := size }).isSome := by
  induction x generalizing d with
  | done r => exact ⟨0, fun _ _ => rfl⟩
  | ask q k ih =>
    cases q with
    | getChar =>
      exact ih d.bitstream.getChar.1 { d with bitstream := d.bitstream.getChar.2 }
    | extraMemAlloc size =>
      obtain ⟨n, hn⟩ :=
        ih () { d with usedExtraMem := d.usedExtraMem + (size + 3) / 4 * 4 }
      refine ⟨max n (d.usedExtraMem + (size + 3) / 4 * 4), fun size' hsize => ?_⟩
      have hfits : (size + 3) / 4 * 4 ≤ size' - d.usedExtraMem := by omega
      simp only [Dialogue.run, answer, if_pos hfits, Option.bind_some]
      exact hn size' (by omega)
    | handle marker => exact ih () { d with calls := d.calls ++ [(marker, d.bitstream.bytes)] }

end SprdVendor.Jpeg
