import SprdVendor.Jpeg.Recorded

namespace SprdVendor.Jpeg
open Lib List Option
open SprdVendor.Lib.Procedure

def resId : List UInt8 := [0x53, 0x4a, 0x50, 0x47]

/-- The identifier of a resource file can be seen at once: it is in the first piece, or it is not
there. -/
def Delivery.Recognised : Delivery → Prop
  | .whole _ _ => True
  | .pieces ps _ => 4 ≤ (ps.headD []).length ∨ ¬ resId <+: ps.flatten

def parseBytes (fuel : Nat) (input : DecInput) (bytes : List UInt8) :
    Option (Outcome Stop Header Unit × Plain) :=
  if resId <+: bytes then (parseHeadRes { input := input }).run Plain.answer ⟨bytes.drop 4, []⟩
  else (parseHead fuel { input := input }).run Plain.answer ⟨bytes, []⟩

theorem isResJpgFile_iff (h : 4 ≤ b.buffer.length) (behind : Nat → UInt8) :
    isResJpgFile b behind = true ↔ resId <+: b.buffer := by
  obtain ⟨buffer, pieces, hne⟩ := b
  obtain _ | ⟨b₀, _ | ⟨b₁, _ | ⟨b₂, _ | ⟨b₃, rest⟩⟩⟩⟩ := buffer
  · cases h
  · simp at h
  · simp at h
  · simp at h
  have hpeek : isResJpgFile ⟨b₀ :: b₁ :: b₂ :: b₃ :: rest, pieces, hne⟩ behind =
    ([b₀, b₁, b₂, b₃] == resId) := rfl
  rw [hpeek, beq_iff_eq]
  constructor
  · intro he
    rw [← he]
    exact ⟨rest, rfl⟩
  · rintro ⟨rest', he⟩
    exact (congrArg (List.take 4) he).symm

theorem isResJpgFile_short (h : b.buffer.length < 4) : isResJpgFile b (fun _ => 0) = false := by
  obtain ⟨buffer, pieces, hne⟩ := b
  obtain _ | ⟨b₀, _ | ⟨b₁, _ | ⟨b₂, _ | ⟨b₃, rest⟩⟩⟩⟩ := buffer
  · rfl
  · simp [isResJpgFile, range_succ]
  · simp [isResJpgFile, range_succ]
  · simp [isResJpgFile, range_succ]
  · simp at h
    omega

theorem parseHead_fuel (h : Stops Plain.answer (parseHead fuel) s i e s' i')
    (hfuel : i.rest.length < fuel) : e ≠ .noFuel := by
  obtain hsoi | ⟨_, t, j, hsoi, hbody⟩ := stops_bind.1 h
  · rintro rfl
    obtain he | ⟨-, hle⟩ := (findSoi_stops hsoi).2
    · cases he
    · omega
  obtain ⟨-, -, hlen⟩ := findSoi_runs hsoi
  obtain htables | ⟨c, _, _, htables, hbody⟩ := stops_bind.1 hbody
  · rintro rfl
    obtain he | he | ⟨-, hle⟩ := processTables_stops htables
    · cases he
    · cases he
    · omega
  split at hbody
  case isFalse =>
    rw [← (stops_halt.1 hbody).1]
    decide
  case isTrue hsos =>
  subst hsos
  obtain hnote | ⟨_, _, _, hnote, hscan⟩ := stops_bind.1 hbody
  · exact absurd hnote stops_handle
  rintro rfl
  obtain he | ⟨-, k, he⟩ := (getSos_stops hscan).2
  · cases he
  · cases he

theorem processTables_short (hlen : i.rest.length < 2) :
    (¬ Runs Plain.answer (processTables fuel n) s i c s' i') ∧
      (Stops Plain.answer (processTables fuel n) s i e s' i' → i.rest.length < fuel →
        i.rest.length < n → s' = s ∧ e = .failed) := by
  cases n with
  | zero => exact ⟨runs_halt, fun _ _ hn => absurd hn (Nat.not_lt_zero _)⟩
  | succ n =>
    have hnone {m : UInt8} {t : Header} {j : Plain}
        (h : Runs Plain.answer (getNextMarker fuel) s i m t j) : False := by
      obtain ⟨-, -, hmarker, -⟩ := getNextMarkerFrom_runs h
      omega
    refine ⟨fun h => ?_, fun h hfuel hn => ?_⟩
    · obtain ⟨m, t, j, hnext, -⟩ := runs_bind.1 h
      exact hnone hnext
    obtain hnext | ⟨m, t, j, hnext, -⟩ := stops_bind.1 h
    · obtain ⟨hs, he | ⟨-, hle⟩⟩ := getNextMarkerFrom_stops hnext
      · exact ⟨hs, he⟩
      · omega
    · exact (hnone hnext).elim

theorem parseHead_short (h : (parseHead fuel s).run Plain.answer i = some (o, i'))
    (hlen : i.rest.length < 4) (hfuel : i.rest.length < fuel) : o = .stop .failed s := by
  cases o with
  | ok u s' =>
    obtain ⟨_, t, j, hsoi, hbody⟩ := runs_bind.1 h
    obtain ⟨c, _, _, htables, -⟩ := runs_bind.1 hbody
    obtain ⟨-, -, hshort⟩ := findSoi_runs hsoi
    exact absurd htables (processTables_short (e := .failed) (by omega)).1
  | stop e s' =>
    obtain hsoi | ⟨_, t, j, hsoi, hbody⟩ := stops_bind.1 h
    · obtain ⟨rfl, rfl | ⟨-, hle⟩⟩ := findSoi_stops hsoi
      · rfl
      · omega
    obtain ⟨rfl, -, hshort⟩ := findSoi_runs hsoi
    obtain htables | ⟨c, _, _, htables, -⟩ := stops_bind.1 hbody
    · obtain ⟨rfl, rfl⟩ := (processTables_short (c := 0) (by omega)).2 htables (by omega) (by omega)
      rfl
    · exact absurd htables (processTables_short (e := .failed) (by omega)).1

theorem parseBytes_not_res (h : ¬ resId <+: bytes) :
    parseBytes fuel input bytes =
      (parseHead fuel { input := input }).run Plain.answer ⟨bytes, []⟩ := if_neg h

theorem runRes_eq (hlen : 4 ≤ d.bitstream.buffer.length)
    (hcalls : d.calls = []) (hres : resId <+: d.bitstream.bytes)
    (h : runRes { input := input } d = some (o, d')) :
    parseBytes fuel input d.bitstream.bytes = some (o, d'.plain) := by
  have hskip : d.bitstream.skipNByte 4 =
      some { d.bitstream with buffer := d.bitstream.buffer.drop 4 } := if_pos hlen
  rw [runRes, hskip] at h
  have hrun := Device.run_plain h
  rw [parseBytes, if_pos hres]
  rw [Device.plain, Bitstream.skipNByte_bytes hskip, hcalls] at hrun
  exact hrun

theorem initBitream_bytes {x : Delivery} (h : x.initBitream size = some d) :
    d.bitstream.bytes = x.bytes := by
  cases x with
  | whole bs behind =>
    cases h
    exact append_nil bs
  | pieces ps hps =>
    simp only [Delivery.initBitream] at h
    split at h
    · cases h
      exact Bitstream.refill_bytes _
    · cases h

theorem resId_prefix_bytes {b : Bitstream} (h : 4 ≤ b.buffer.length) :
    resId <+: b.bytes ↔ resId <+: b.buffer := by
  constructor
  · intro hp
    exact prefix_of_prefix_length_le hp (prefix_append _ _) h
  · intro hp
    exact hp.trans (prefix_append _ _)

theorem Delivery.Recognised.buffer {x : Delivery} (hx : x.Recognised)
    (h : x.initBitream size = some d) (hshort : d.bitstream.buffer.length < 4) :
    ¬ resId <+: x.bytes ∧ (x.bytes.length < 4 ∨ x.behind = fun _ => 0) := by
  cases x with
  | whole bs behind =>
    cases h
    refine ⟨fun hp => ?_, .inl hshort⟩
    have hlen : resId.length ≤ bs.length := hp.length_le
    exact absurd hlen (not_le.2 hshort)
  | pieces ps hps =>
    simp only [Delivery.initBitream] at h
    split at h
    case isFalse => cases h
    cases h
    refine ⟨?_, .inr rfl⟩
    cases ps with
    | nil => exact fun hp => absurd (prefix_nil.1 hp) (by decide)
    | cons p ps => exact hx.resolve_left (not_le.2 hshort)

theorem jpegFwParseHead_eq {x : Delivery} (hx : x.Recognised) (hfuel : x.bytes.length < fuel)
    (h : jpegFwParseHead fuel size input x = some (o, d)) :
    ∃ i, parseBytes fuel input x.bytes = some (o, i) := by
  obtain ⟨d₀, hd₀, h⟩ := bind_eq_some_iff.1 h
  have hcalls := initBitream_calls hd₀
  have hbytes := initBitream_bytes hd₀
  have hplain : d₀.plain = ⟨x.bytes, []⟩ := by rw [Device.plain, hbytes, hcalls]
  have hparse (h : (parseHead fuel { input := input }).run Device.answer d₀ = some (o, d))
      (hres : ¬ resId <+: x.bytes) : ∃ i, parseBytes fuel input x.bytes = some (o, i) := by
    have hrun := Device.run_plain h
    rw [hplain] at hrun
    exact ⟨_, (parseBytes_not_res hres).trans hrun⟩
  by_cases hlen : 4 ≤ d₀.bitstream.buffer.length
  · have hiff := isResJpgFile_iff hlen x.behind
    rw [← resId_prefix_bytes hlen, hbytes] at hiff
    split at h
    case isTrue hres =>
      rw [← hbytes]
      exact ⟨_, runRes_eq hlen hcalls (hbytes ▸ hiff.1 hres) h⟩
    case isFalse hres => exact hparse h (mt hiff.2 hres)
  · have hshort := not_le.1 hlen
    obtain ⟨hres, hbehind⟩ := hx.buffer hd₀ hshort
    split at h
    case isFalse => exact hparse h hres
    case isTrue hpeek =>
      obtain hfew | hbehind := hbehind
      · -- what lies behind the stream completes the identifier, and skipping it fails
        have hskip : d₀.bitstream.skipNByte 4 = none := if_neg hlen
        rw [runRes, hskip] at h
        cases h
        obtain ⟨⟨o, i⟩, hrun⟩ := isSome_iff_exists.1
          (Dialogue.run_isSome Plain.answer_isSome (parseHead fuel { input := input }) ⟨x.bytes, []⟩)
        obtain rfl := parseHead_short hrun hfew hfuel
        exact ⟨i, (parseBytes_not_res hres).trans hrun⟩
      · rw [hbehind, isResJpgFile_short hshort] at hpeek
        cases hpeek

theorem parseBytes_fuel (h : parseBytes fuel input bytes = some (o, i))
    (hfuel : bytes.length < fuel) : ∀ s, o ≠ .stop .noFuel s := by
  rintro s rfl
  unfold parseBytes at h
  split at h
  · cases parseHeadRes_stops h
  · exact parseHead_fuel h hfuel rfl

theorem initBitream_of_large (x : Delivery) :
    ∃ d : Device, ∀ size, 3072 ≤ size →
      x.initBitream size = some { d with extraMemSize := size } := by
  cases x with
  | whole bs behind => exact ⟨⟨⟨bs, [], by simp⟩, 0, 0, []⟩, fun _ _ => rfl⟩
  | pieces ps hps =>
    exact ⟨⟨Bitstream.refill ⟨[], ps, fun p hp => (hps p hp).1⟩, 3072, 0, []⟩,
      fun _ hsize => if_pos hsize⟩

theorem runRes_isSome_of_large (s : Header) (d : Device) :
    ∃ n, ∀ size, n ≤ size → (runRes s { d with extraMemSize := size }).isSome := by
  simp only [runRes]
  cases d.bitstream.skipNByte 4 with
  | none => exact ⟨0, fun _ _ => rfl⟩
  | some b => exact Device.run_isSome_of_large (parseHeadRes s) { d with bitstream := b }

theorem jpegFwParseHead_isSome_of_large (fuel : Nat) (input : DecInput) (x : Delivery) :
    ∃ n, ∀ size, n ≤ size → (jpegFwParseHead fuel size input x).isSome := by
  obtain ⟨d, hd⟩ := initBitream_of_large x
  have hparse : ∃ n, ∀ size, n ≤ size →
      (if isResJpgFile d.bitstream x.behind then
        runRes { input := input } { d with extraMemSize := size }
      else (parseHead fuel { input := input }).run Device.answer
        { d with extraMemSize := size }).isSome := by
    split
    · exact runRes_isSome_of_large _ d
    · exact Device.run_isSome_of_large _ d
  obtain ⟨n, hn⟩ := hparse
  refine ⟨max n 3072, fun size hsize => ?_⟩
  rw [jpegFwParseHead, hd size (by omega), bind_some]
  exact hn size (by omega)

def threeComponentsCut : Delivery :=
  .pieces [threeComponents.take 4, (threeComponents.drop 4).take 7, threeComponents.drop 11]
    (by decide)

end SprdVendor.Jpeg
