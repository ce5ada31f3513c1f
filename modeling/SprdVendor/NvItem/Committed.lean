import SprdVendor.NvItem.System
import SprdVendor.NvItem.Simulation

namespace SprdVendor.NvItem
open Lib List Option

def Reader.packets (ids : Nat → Option Nat) (ps : List Packet) : Reader :=
  ps.foldl (Reader.packet ids) .init

theorem Reader.packets_snoc (ids : Nat → Option Nat) (ps : List Packet) (p : Packet) :
    Reader.packets ids (ps ++ [p]) = (Reader.packets ids ps).packet ids p :=
  foldl_append

def Packet.behind (n : Nat) : Packet → Packet
  | .start p => .start (p.take (p.length - n))
  | .cont p => .cont (p.take (p.length - n))
  | p => p

/-- The packets received so far; of the one that is being parsed, the bytes parsed so far. -/
def Sys.seen (s : Sys) : List Packet :=
  match s.pc with
  | .parse buf => s.hist.dropLast ++ (s.hist.getLast?.map (Packet.behind buf.length)).toList
  | _ => s.hist

inductive Parsing (ids : Nat → Option Nat) (hist : List Packet) (buf : List UInt8) (r : Reader) :
    Prop where
  | start (ps : List Packet) (c : List UInt8) (hh : hist = ps ++ [.start (c ++ buf)])
      (hr : r = (Reader.packets ids ps).begin.read ids c)
  | cont (ps : List Packet) (c : List UInt8) (hh : hist = ps ++ [.cont (c ++ buf)])
      (hr : r = (Reader.packets ids ps).read ids c)

theorem Parsing.all (h : Parsing ids hist buf r) :
    Reader.packets ids hist = r.read ids buf := by
  cases h with
  | start ps c hh hr =>
    rw [hh, hr, Reader.packets_snoc, ← Reader.read_append]
    rfl
  | cont ps c hh hr =>
    rw [hh, hr, Reader.packets_snoc, ← Reader.read_append]
    rfl

theorem Parsing.next (h : Parsing ids hist (d ++ buf) r) :
    Parsing ids hist buf (r.read ids d) := by
  cases h with
  | start ps c hh hr =>
    refine .start ps (c ++ d) (by rw [hh, append_assoc]) ?_
    rw [hr, Reader.read_append]
  | cont ps c hh hr =>
    refine .cont ps (c ++ d) (by rw [hh, append_assoc]) ?_
    rw [hr, Reader.read_append]

theorem Parsing.seen {s : Sys} (h : Parsing ids s.hist buf r) (hp : s.pc = .parse buf) :
    Reader.packets ids s.seen = r := by
  have ht (c : List UInt8) : (c ++ buf).take ((c ++ buf).length - buf.length) = c := by
    rw [length_append, Nat.add_sub_cancel, take_left]
  rw [Sys.seen, hp]
  dsimp only
  cases h with
  | start ps c hh hr =>
    rw [hh, dropLast_concat, getLast?_concat, map_some, Packet.behind, ht,
      toList_some, Reader.packets_snoc, hr]
    rfl
  | cont ps c hh hr =>
    rw [hh, dropLast_concat, getLast?_concat, map_some, Packet.behind, ht,
      toList_some, Reader.packets_snoc, hr]
    rfl

def Sys.Agrees (imgs : Nat → List UInt8) (keys : List (Nat × Nat)) (s : Sys) : Prop :=
  match s.pc with
  | .poll => Tracks imgs keys (.packets (ctlIds keys) s.hist) s.nv
  | .parse buf => ∃ r, Parsing (ctlIds keys) s.hist buf r ∧ Tracks imgs keys r s.nv ∧
      r.phase ≠ .idle ∧ (r.read (ctlIds keys) buf).Whole ∧ (r.read (ctlIds keys) buf).Fits keys
  | .notify | .save _ | .finish => Store imgs keys (.packets (ctlIds keys) s.hist) s.nv.ctl ∧
      (Reader.packets (ctlIds keys) s.hist).phase = .idle ∧ s.nv.sync.busy = true
  | .crashed => False

/-- The verdict of `_getPacket` on the next packet ends no token in the middle, and its body
ranges fit. -/
def Sys.ReadOk (keys : List (Nat × Nat)) (s : Sys) : Act → Prop
  | .read b beyond =>
    let r := Reader.packets (ctlIds keys) (s.hist ++ [(getPacket s.nv b beyond).1])
    r.Whole ∧ r.Fits keys
  | _ => True

variable {imgs : Nat → List UInt8} {keys : List (Nat × Nat)} {s s' : Sys}

theorem Tracks.getPacket (h : Tracks imgs keys r nv) (b : List UInt8) (beyond : Nat → UInt8) :
    Tracks imgs keys r (getPacket nv b beyond).2 := by
  obtain ⟨hc, hs⟩ := getPacket_nv nv b beyond
  exact ⟨by rw [hs]; exact h.ofst, by rw [hc]; exact h.store, by rw [hs]; exact h.phase⟩

theorem Sys.Agrees.readStep (h : s.Agrees imgs keys) (hp : s.pc = .poll)
    (ho : s.ReadOk keys (.read b beyond)) : (s.readStep b beyond).Agrees imgs keys := by
  rw [Sys.Agrees, hp] at h
  obtain ⟨a, ha, hacc⟩ := accept_accepts (h.getPacket b beyond) (NvItem.getPacket s.nv b beyond).1
  unfold Sys.readStep
  dsimp only
  rw [ha]
  cases hacc with
  | again ht =>
    rw [← Reader.packets_snoc] at ht
    rw [Sys.Agrees, hp]
    exact ht
  | start hpk ht =>
    have hpar : Parsing (ctlIds keys) (s.hist ++ [(NvItem.getPacket s.nv b beyond).1]) _
        (Reader.packets (ctlIds keys) s.hist).begin :=
      .start s.hist [] (by rw [hpk, nil_append]) rfl
    refine ⟨_, hpar, ht, nofun, ?_⟩
    rw [← hpar.all]
    exact ho
  | cont hpk hr ht =>
    have hpar : Parsing (ctlIds keys) (s.hist ++ [(NvItem.getPacket s.nv b beyond).1]) _
        (Reader.packets (ctlIds keys) s.hist) :=
      .cont s.hist [] (by rw [hpk, nil_append]) rfl
    refine ⟨_, hpar, ht, hr, ?_⟩
    rw [← hpar.all]
    exact ho

theorem Sys.Agrees.turn [Target] (h : s.Agrees imgs keys) (hp : s.pc = .parse buf) :
    (s.turn buf).Agrees imgs keys := by
  rw [Sys.Agrees, hp] at h
  obtain ⟨r, hpar, ht, hr, hw, hf⟩ := h
  unfold Sys.turn
  by_cases hb : buf = []
  · rw [if_pos hb]
    have hall := hpar.all
    rw [hb] at hall
    change Tracks imgs keys (.packets (ctlIds keys) s.hist) s.nv
    rw [hall]
    exact ht
  rw [if_neg hb]
  obtain ⟨o, ho, hfo⟩ := iter_follows ht hr hb hw hf
  rw [ho]
  cases hfo with
  | next c hbc ht' ha =>
    subst hbc
    rw [Reader.read_append] at hw hf
    exact ⟨_, hpar.next, ht', ha, hw, hf⟩
  | brk ht' =>
    change Tracks imgs keys (.packets (ctlIds keys) s.hist) _
    rw [hpar.all]
    exact ht'
  | done hbz hi hid hs hown hrd =>
    have hown' : (r.read (ctlIds keys) buf).phase.owner = none := by
      rw [hrd]
      rfl
    obtain ⟨ctl', hc, hs'⟩ := hs.commit hi hown hown' (by rw [hrd])
    dsimp only
    rw [hid, hc]
    exact ⟨by rw [hpar.all]; exact hs', by rw [hpar.all, hrd], hbz⟩

theorem Store.set_kept (h : Store imgs keys r ctl) (hi : ctl[i]? = some p) (hk : p.Kept p') :
    Store imgs keys r (ctl.set i p') :=
  h.set hi hk.key ((h.parts i p hi).of_kept hk) fun _ _ _ hq => hq

theorem Store.passStep (h : Store imgs keys r ctl) (p : Pass) (w : WriteRes × WriteRes)
    (disk : Nat → Disk) : Store imgs keys r (p.step w ctl disk).ctl := by
  cases p with
  | check id =>
    rw [Pass.step]
    split <;> exact h
  | get id =>
    rw [Pass.step]
    split
    · exact h
    · rename_i p hi
      exact h.set_kept hi (h.parts id p hi).sound.kept_getData
  | write id =>
    rw [Pass.step]
    split
    · exact h
    rename_i p hi
    split
    · exact h.set_kept hi ((h.parts id p hi).sound.kept_written _)
    · exact h

theorem Sys.Agrees.passStep (h : s.Agrees imgs keys) (p : Pass) (w : WriteRes × WriteRes)
    (disk' : Nat → Disk) (saver' : Saver) (wrote' : List Nat) :
    Sys.Agrees imgs keys { s with
      nv := { s.nv with ctl := (p.step w s.nv.ctl s.disk).ctl }
      disk := disk', saver := saver', wrote := wrote' } := by
  unfold Sys.Agrees at h ⊢
  dsimp only
  split at h
  · exact ⟨h.ofst, h.store.passStep p w s.disk, h.phase⟩
  · obtain ⟨r, hpar, ht, hr⟩ := h
    exact ⟨r, hpar, ⟨ht.ofst, ht.store.passStep p w s.disk, ht.phase⟩, hr⟩
  · exact ⟨h.1.passStep p w s.disk, h.2⟩
  · exact ⟨h.1.passStep p w s.disk, h.2⟩
  · exact ⟨h.1.passStep p w s.disk, h.2⟩
  · exact h

theorem Sys.Moves.agrees [Target] (hm : s.Moves cali a s') (ho : s.ReadOk keys a)
    (h : s.Agrees imgs keys) : s'.Agrees imgs keys := by
  have hrest (hn : s.pc = .notify ∨ (∃ p, s.pc = .save p) ∨ s.pc = .finish) :
      Store imgs keys (.packets (ctlIds keys) s.hist) s.nv.ctl ∧
        (Reader.packets (ctlIds keys) s.hist).phase = .idle ∧ s.nv.sync.busy = true := by
    unfold Sys.Agrees at h
    rcases hn with hn | ⟨p, hn⟩ | hn <;> rw [hn] at h <;> exact h
  cases hm with
  | read b beyond hp => exact h.readStep hp ho
  | turn buf hp => exact h.turn hp
  | saveNow hp => exact hrest (.inl hp)
  | signal hp => exact hrest (.inl hp)
  | saveHere p pc hp hn =>
    obtain ⟨hs, hi⟩ := hrest (.inr (.inl ⟨p, hp⟩))
    rcases hn with rfl | ⟨p', rfl⟩
    · exact ⟨hs.passStep p _ s.disk, hi⟩
    · exact ⟨hs.passStep p _ s.disk, hi⟩
  | finish hp =>
    obtain ⟨hs, hi, -⟩ := hrest (.inr (.inr hp))
    refine ⟨rfl, hs, ?_⟩
    rw [PhaseAt, hi]
    exact ⟨rfl, rfl⟩
  | save p p' => exact h.passStep p _ _ _ _
  | _ => exact h

instance (keys : List (Nat × Nat)) (s : Sys) : (a : Act) → Decidable (s.ReadOk keys a)
  | .read _ _ => inferInstanceAs (Decidable (_ ∧ _))
  | .sync _ | .saver _ | .wake => inferInstanceAs (Decidable True)

def loaded (boots : List Boot) (i : Nat) : List UInt8 := (boots[i]?.map fun b => b.read.1).getD []

theorem start_agrees [Target] (hb : ∀ b ∈ boots, b.cfg.imageSize % sectSize = 0) :
    (Sys.start boots).Agrees (loaded boots) (bootKeys boots) := by
  have ht := (init_ready (boots_fit hb)).tracks
  have hi : (Sys.start boots).nv.backupImage = loaded boots := by
    funext i
    simp only [Sys.start, Nv.init, initPacket, Nv.backupImage, initBuf, getElem?_map,
      Option.map_map, loaded]
    cases hbi : boots[i]? with
    | none => rfl
    | some b => exact b.backupImage_initPart (hb b (mem_of_getElem? hbi))
  rw [← start_keys, ← hi]
  exact ht

theorem Sys.agrees_of_run [Target]
    (hb : ∀ b ∈ boots, b.cfg.imageSize % sectSize = 0)
    (h : Run (Guarded (Sys.ReadOk (bootKeys boots)) (Sys.step cali)) (Sys.start boots) acts s) :
    s.Agrees (loaded boots) (bootKeys boots) :=
  h.invariant (I := fun _ s => s.Agrees (loaded boots) (bootKeys boots)) (start_agrees hb)
    fun _ _ _ _ hs hst => (Sys.step_moves hst.1).agrees hst.2 hs

/-- In every run in which no packet ends inside a token and the body ranges fit, the backup image is
the loaded image with exactly the completely received requests applied, and between two requests the
image from the channel is the same. -/
theorem backup_holds_complete_requests [Target] (cali : Bool) (boots : List Boot)
    (acts : List Act) (s : Sys) (hb : ∀ b ∈ boots, b.cfg.imageSize % sectSize = 0)
    (h : Run (Guarded (Sys.ReadOk (bootKeys boots)) (Sys.step cali)) (Sys.start boots) acts s) :
    s.pc ≠ .crashed ∧ ∀ i p, s.nv.ctl[i]? = some p →
      p.backupImage = imageAfter (loaded boots i)
        (Reader.packets (ctlIds (bootKeys boots)) s.seen).log i ∧
      (s.nv.sync.busy = false → p.fromImage = p.backupImage) := by
  have ha := Sys.agrees_of_run hb h
  have htracks {r : Reader} (ht : Tracks (loaded boots) (bootKeys boots) r s.nv)
      (i : Nat) (p : Part) (hi : s.nv.ctl[i]? = some p) :
      p.backupImage = imageAfter (loaded boots i) r.log i ∧
        (s.nv.sync.busy = false → p.fromImage = p.backupImage) := by
    have hp := ht.store.parts i p hi
    refine ⟨hp.backup, ?_⟩
    intro hbusy
    rw [ht.busy, decide_eq_false_iff_not, not_not] at hbusy
    rw [hp.shadow, hbusy, if_neg nofun]
  unfold Sys.Agrees at ha
  cases hp : s.pc with
  | poll =>
    rw [hp] at ha
    refine ⟨nofun, ?_⟩
    rw [Sys.seen, hp]
    exact htracks ha
  | parse buf =>
    rw [hp] at ha
    obtain ⟨r, hpar, ht, -⟩ := ha
    refine ⟨nofun, ?_⟩
    rw [hpar.seen hp]
    exact htracks ht
  | crashed =>
    rw [hp] at ha
    exact ha.elim
  | _ =>
    rw [hp] at ha
    refine ⟨nofun, fun i p hi => ⟨?_, ?_⟩⟩
    · rw [Sys.seen, hp]
      exact (ha.1.parts i p hi).backup
    · rw [ha.2.2]
      exact nofun

theorem backup_holds_filled_sector : ∃ s,
    Run (Guarded (Sys.ReadOk (bootKeys [oneSectorBoot])) (@Sys.step arm32 false))
      (@Sys.start arm32 [oneSectorBoot])
      (.read (packetBytes 1 0 (fillSector 7)) (fun _ => 0) :: List.replicate 6 syncAct) s ∧
    s.pc ≠ .crashed ∧ ∀ i p, s.nv.ctl[i]? = some p →
      p.backupImage = imageAfter (loaded [oneSectorBoot] i)
        (Reader.packets (ctlIds (bootKeys [oneSectorBoot])) s.seen).log i ∧
      (s.nv.sync.busy = false → p.fromImage = p.backupImage) := by
  refine exists_guarded_imp (P := fun _ => True) ?_ (by decide +kernel)
  intro s hr _
  exact @backup_holds_complete_requests arm32 false [oneSectorBoot] _ s (by decide +kernel) hr

/-- A request whose head is cut by the end of a packet has been received, and is not applied. -/
theorem cut_request_is_not_applied : ∃ s,
    Run (Next (@Sys.step arm32 false)) (@Sys.start arm32 [oneSectorBoot])
      [.read (packetBytes 1 0 ((fillSector 7).take 8)) (fun _ => 0), syncAct,
        .read (packetBytes 1 1 ((fillSector 7).drop 8)) (fun _ => 0), syncAct] s ∧
    s.pc = .poll ∧ (Reader.packets (ctlIds (bootKeys [oneSectorBoot])) s.seen).Fits
      (bootKeys [oneSectorBoot]) ∧
    (Reader.packets (ctlIds (bootKeys [oneSectorBoot])) s.seen).log =
      [⟨0, stamp 0 (List.replicate 512 7)⟩] ∧
    s.nv.ctl.map Part.backupImage = [List.replicate 512 0] := by
  exact exists_run_of_exec (by decide +kernel)

end SprdVendor.NvItem
