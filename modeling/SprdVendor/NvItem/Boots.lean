import SprdVendor.Lib.Run
import SprdVendor.NvItem.Fs

namespace SprdVendor.NvItem
open Lib

inductive Cut where
  | bak (n : Nat)
  | between
  | image (n : Nat)
deriving DecidableEq

def crashWrite (c : Cut) (d : Disk) (buf : List UInt8) : Disk :=
  match c with
  | .bak n => (ramDiskWrite (cutAt n) .noOpen d buf).1
  | .between => (ramDiskWrite (wholeFile buf) .noOpen d buf).1
  | .image n => (ramDiskWrite (wholeFile buf) (cutAt n) d buf).1

/-- A partition over many boots: its files, whether the daemon runs, the image loaded or last
completely written, and the one whose write the last crash interrupted. -/
structure Boots where
  disk : Disk
  up : Bool
  cur : List UInt8
  cut : Option (List UInt8)
deriving DecidableEq

def Boots.init (img : List UInt8) : Boots :=
  ⟨⟨some (stored img), some (stored img)⟩, false, img, none⟩

inductive BootAct where
  | boot (firstName : Name)
  | crashInBoot (firstName : Name) (repair : WriteRes)
  | write (img : List UInt8)
  | crash
  | crashInWrite (c : Cut) (img : List UInt8)
deriving DecidableEq

def Boots.loads (size : Nat) (s : Boots) (firstName : Name) : List UInt8 :=
  (ramDiskRead firstName .noOpen size s.disk).1

/-- The repair that a boot makes is complete, unless a crash interrupts it. -/
def Boots.step (size : Nat) (s : Boots) : BootAct → Option Boots
  | .boot firstName =>
    if s.up then none
    else
      let img := s.loads size firstName
      some ⟨(ramDiskRead firstName (wholeFile img) size s.disk).2, true, img, none⟩
  | .crashInBoot firstName repair =>
    if s.up then none
    else some { s with disk := (ramDiskRead firstName repair size s.disk).2 }
  | .write img =>
    if s.up ∧ img.length = size then
      some { s with disk := (ramDiskWrite (wholeFile img) (wholeFile img) s.disk img).1, cur := img }
    else none
  | .crash => if s.up then some { s with up := false, cut := none } else none
  | .crashInWrite c img =>
    if s.up ∧ img.length = size then
      some { s with disk := crashWrite c s.disk img, up := false, cut := some img }
    else none

/-- A boot that reads the backup first finds it incomplete, or the same as the image. -/
def OrderOk (size : Nat) (d : Disk) (firstName : Name) : Prop :=
  firstName = .imageBak → (∃ f, d.imageBak = some f ∧ (readCopy size f).valid size = true) →
    d.image = d.imageBak

def Boots.Ordered (size : Nat) (s : Boots) : BootAct → Prop
  | .boot firstName => OrderOk size s.disk firstName
  | .crashInBoot firstName repair =>
    OrderOk size s.disk firstName ∧ (repair = .noOpen ∨ ∃ n, repair = cutAt n)
  | _ => True

/-- The image file holds the current image; or a crash interrupted the writing of the image file,
and the backup holds what was being written. -/
inductive Boots.Settled (s : Boots) : Prop where
  | image (h : s.disk.image = some (stored s.cur))
  | backup (b : List UInt8) (n : Nat) (hc : s.cut = some b) (hl : b.length = s.cur.length)
      (hb : s.disk.imageBak = some (stored b)) (hi : s.disk.image = some ((stored b).take n))

theorem ramDiskRead_image (h : d.image = some (stored img)) (ho : OrderOk img.length d name) :
    (ramDiskRead name w img.length d).1 = img ∧
      (ramDiskRead name w img.length d).2.image = some (stored img) := by
  have hv := valid_stored img
  have hb : (readCopy img.length (stored img)).buf = img := by rw [readCopy_stored]
  cases name with
  | image =>
    rw [ramDiskRead_first .image h hv]
    exact ⟨hb, h⟩
  | imageBak =>
    by_cases hvb : ∃ f, d.imageBak = some f ∧ (readCopy img.length f).valid img.length = true
    · have hbak : d.imageBak = some (stored img) := (ho rfl hvb).symm.trans h
      rw [ramDiskRead_first .imageBak hbak hv]
      exact ⟨hb, h⟩
    have hf (f : List UInt8) (hf : d.get .imageBak = some f) :
        (readCopy img.length f).valid img.length = false :=
      Bool.eq_false_iff.2 fun hv => hvb ⟨f, hf, hv⟩
    rw [ramDiskRead_second .imageBak hf h hv]
    exact ⟨hb, h⟩

theorem ramDiskRead_backup (hb : d.imageBak = some (stored img))
    (hi : d.image = some ((stored img).take n)) (ho : OrderOk img.length d name) :
    (ramDiskRead name w img.length d).1 = img ∧
      (ramDiskRead name w img.length d).2.imageBak = some (stored img) ∧
      ((ramDiskRead name w img.length d).2.image = d.image ∨
        (ramDiskRead name w img.length d).2.image = writeFile w (nvHeader img) img d.image) ∧
      (w = wholeFile img → (ramDiskRead name w img.length d).2.image = some (stored img)) := by
  have hv := valid_stored img
  have hbuf : (readCopy img.length (stored img)).buf = img := by rw [readCopy_stored]
  have hwhole (hi : d.image = some (stored img)) : (d.image = d.image ∨ d.image =
      writeFile w (nvHeader img) img d.image) ∧
      (w = wholeFile img → d.image = some (stored img)) :=
    ⟨.inl rfl, fun _ => hi⟩
  cases name with
  | image =>
    by_cases hn : sectSize + img.length ≤ n
    · rw [List.take_of_length_le (by rw [length_stored]; exact hn)] at hi
      rw [ramDiskRead_first .image hi hv]
      exact ⟨hbuf, hb, hwhole hi⟩
    have hf (f : List UInt8) (hf : d.get .image = some f) :
        (readCopy img.length f).valid img.length = false := by
      cases hf.symm.trans hi
      apply not_valid_of_length_lt
      rw [List.length_take, length_stored]
      omega
    rw [ramDiskRead_second .image hf hb hv, readCopy_stored]
    refine ⟨rfl, hb, .inr rfl, ?_⟩
    intro hw
    rw [hw]
    exact writeFile_wholeFile img d.image
  | imageBak =>
    have hi' : d.image = some (stored img) := (ho rfl ⟨_, hb, hv⟩).trans hb
    rw [ramDiskRead_first .imageBak hb hv]
    exact ⟨hbuf, hb, hwhole hi'⟩

/-- In a settled state a boot loads the current image or the one whose write was interrupted, and
with a complete repair the image file holds it. -/
theorem Boots.Settled.loads {s : Boots} (h : s.Settled) (ho : OrderOk s.cur.length s.disk name) :
    (s.loads s.cur.length name = s.cur ∨ some (s.loads s.cur.length name) = s.cut) ∧
      (s.loads s.cur.length name).length = s.cur.length ∧
      (ramDiskRead name (wholeFile (s.loads s.cur.length name)) s.cur.length s.disk).2.image =
        some (stored (s.loads s.cur.length name)) := by
  cases h with
  | image h =>
    have hl : s.loads s.cur.length name = s.cur := (ramDiskRead_image h ho).1
    rw [hl]
    exact ⟨.inl rfl, rfl, (ramDiskRead_image h ho).2⟩
  | backup b n hc hlen hb hi =>
    rw [← hlen] at ho ⊢
    have hl : s.loads b.length name = b := (ramDiskRead_backup hb hi ho).1
    rw [hl]
    exact ⟨.inr hc.symm, rfl, (ramDiskRead_backup hb hi ho).2.2.2 rfl⟩

theorem Boots.Settled.crashInBoot {s : Boots} (h : s.Settled)
    (ho : OrderOk s.cur.length s.disk name) (hr : w = .noOpen ∨ ∃ n, w = cutAt n) :
    Boots.Settled { s with disk := (ramDiskRead name w s.cur.length s.disk).2 } := by
  cases h with
  | image h => exact .image (ramDiskRead_image h ho).2
  | backup b n hc hlen hb hi =>
    rw [← hlen] at ho ⊢
    obtain ⟨-, hb', hi', -⟩ := ramDiskRead_backup (w := w) hb hi ho
    rcases hi' with hi' | hi'
    · exact .backup b n hc hlen hb' (hi'.trans hi)
    · rcases hr with rfl | ⟨m, rfl⟩
      · exact .backup b n hc hlen hb' (hi'.trans hi)
      · exact .backup b m hc hlen hb' (hi'.trans (writeFile_cutAt b m _))

theorem crashWrite_settled (h : d.image = some (stored cur))
    (hl : img.length = cur.length) (c : Cut) :
    Boots.Settled ⟨crashWrite c d img, false, cur, some img⟩ := by
  cases c with
  | image n =>
    exact .backup img n rfl hl (writeFile_wholeFile img d.imageBak)
      (writeFile_cutAt img n d.image)
  | _ => exact .image h

structure Boots.Inv (size : Nat) (s : Boots) : Prop where
  length : s.cur.length = size
  settled : s.Settled
  up : s.up = true → s.disk.image = some (stored s.cur)

theorem Boots.Inv.step {s s' : Boots} (hs : s.Inv size) (hstep : s.step size a = some s')
    (hok : s.Ordered size a) : s'.Inv size := by
  have hlen := hs.length
  cases a with
  | boot firstName =>
    rw [Boots.step] at hstep
    split at hstep
    · cases hstep
    cases hstep
    subst hlen
    obtain ⟨-, hl, hi⟩ := hs.settled.loads hok
    exact ⟨hl, .image hi, fun _ => hi⟩
  | crashInBoot firstName repair =>
    rw [Boots.step] at hstep
    split at hstep
    · cases hstep
    rename_i hup
    cases hstep
    subst hlen
    exact ⟨rfl, hs.settled.crashInBoot hok.1 hok.2, fun h => (hup h).elim⟩
  | write img =>
    rw [Boots.step] at hstep
    split at hstep
    · rename_i hw
      cases hstep
      have hi := writeFile_wholeFile img s.disk.image
      exact ⟨hw.2, .image hi, fun _ => hi⟩
    · cases hstep
  | crash =>
    rw [Boots.step] at hstep
    split at hstep
    · rename_i hup
      cases hstep
      exact ⟨hlen, .image (hs.up hup), nofun⟩
    · cases hstep
  | crashInWrite c img =>
    rw [Boots.step] at hstep
    split at hstep
    · rename_i hw
      cases hstep
      exact ⟨hlen, crashWrite_settled (hs.up hw.1) (hw.2.trans hlen.symm) c, nofun⟩
    · cases hstep

theorem Boots.inv_of_run
    (h : Run (Guarded (Boots.Ordered img.length) (Boots.step img.length)) (Boots.init img) acts s) :
    s.Inv img.length := by
  refine h.invariant (I := fun _ s => Boots.Inv img.length s) ?_ fun _ _ _ _ hs h => hs.step h.1 h.2
  exact ⟨rfl, .image rfl, nofun⟩

/-- Over any number of boots that meet `OrderOk`, writes and crashes, the next boot loads the image
loaded or last written completely, or the one whose write was interrupted. -/
theorem next_boot_loads_current (img : List UInt8) (acts : List BootAct) (s : Boots)
    (firstName : Name)
    (h : Run (Guarded (Boots.Ordered img.length) (Boots.step img.length)) (Boots.init img) acts s)
    (ho : OrderOk img.length s.disk firstName) :
    s.loads img.length firstName = s.cur ∨ some (s.loads img.length firstName) = s.cut := by
  have hi := Boots.inv_of_run h
  rw [← hi.length] at ho ⊢
  exact (hi.settled.loads ho).1

theorem next_boot_after_cut_write :
    let s : Boots := ⟨crashWrite .between (Boots.init [1]).disk [2], false, [1], some [2]⟩
    s.loads 1 .image = s.cur ∨ some (s.loads 1 .image) = s.cut := by
  have hboot : Guarded (Boots.Ordered 1) (Boots.step 1) (Boots.init [1]) (.boot .image)
      ⟨(Boots.init [1]).disk, true, [1], none⟩ := ⟨by decide +kernel, nofun⟩
  have hcut : Guarded (Boots.Ordered 1) (Boots.step 1)
      ⟨(Boots.init [1]).disk, true, [1], none⟩ (.crashInWrite .between [2])
      ⟨crashWrite .between (Boots.init [1]).disk [2], false, [1], some [2]⟩ :=
    ⟨by decide +kernel, trivial⟩
  exact next_boot_loads_current [1] _ _ .image (.snoc (.snoc .nil hboot) hcut) nofun

/-- A crash between the two files leaves the new image in the backup only: a boot that reads the
backup first loads it and repairs nothing, and the next one loads the old image again. -/
theorem older_image_comes_back : ∃ s,
    Run (Next (Boots.step 1)) (Boots.init [1])
      [.boot .image, .crashInWrite .between [2], .boot .imageBak, .crash] s ∧
    s.cur = [2] ∧ s.cut = none ∧ s.loads 1 .image = [1] :=
  exists_run_of_exec (by decide +kernel)

end SprdVendor.NvItem
