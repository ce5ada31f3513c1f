import SprdVendor.HwComposer.LayerList
import SprdVendor.Lib.Backlink

namespace SprdVendor.HwComposer
open List hiding count format
open Lib

def SprdHWLayer.isMarked (t : LayerType) (l : SprdHWLayer) : Bool := l.initCheck ∧ l.layerType = t

def SprdHWLayer.isSource (l : SprdHWLayer) : Bool :=
  l.android.compositionType ≠ .framebufferTarget

def SprdHWLayer.place (t : LayerType) (l : SprdHWLayer) : Option Nat :=
  if l.isMarked t then l.sprdLayerIndex else none

def SprdHWLayer.Recorded (l : SprdHWLayer) : Prop :=
  l.initCheck = true → (l.layerType = .osd ∨ l.layerType = .overlay) ∧ l.sprdLayerIndex.isSome

/-- The lists hold the marked layers at their recorded indices, and the counters count them and the
layers that are left to the framebuffer. -/
structure LayerList.Consistent (s : LayerList) : Prop where
  osd : ∀ i j : Nat, s.osdLayerList[i]? = some (some j) ↔
    ∃ l, s.layers[j]? = some l ∧ l.isMarked .osd = true ∧ l.sprdLayerIndex = some i
  video : ∀ i j : Nat, s.videoLayerList[i]? = some (some j) ↔
    ∃ l, s.layers[j]? = some l ∧ l.isMarked .overlay = true ∧ l.sprdLayerIndex = some i
  marked : ∀ l ∈ s.layers, l.Recorded
  osdCount : s.osdLayerCount = s.layers.countP (·.isMarked .osd)
  videoCount : s.videoLayerCount = s.layers.countP (·.isMarked .overlay)
  fbCount : s.fbLayerCount = s.layers.countP fun l => l.isSource && !l.initCheck

namespace SprdHWLayer

theorem place_eq_some {l : SprdHWLayer} :
    l.place t = some i ↔ l.isMarked t = true ∧ l.sprdLayerIndex = some i := by
  rw [place]
  split
  · simp_all
  · simp_all

theorem isMarked_eq_true {l : SprdHWLayer} :
    l.isMarked t = true ↔ l.initCheck = true ∧ l.layerType = t := by
  simp [isMarked]

end SprdHWLayer

namespace LayerList
open SprdHWLayer

variable {s s' : LayerList} {l l' : SprdHWLayer} {i j n : Nat}

structure Side (t : LayerType) (n : Nat) (layers : List SprdHWLayer) (list : List (Option Nat))
    (count : Int) : Prop where
  linked : Linked (place t) layers list
  count : count = layers.countP (·.isMarked t)
  length : list.length = n

namespace Side

variable {t : LayerType} {layers : List SprdHWLayer} {list : List (Option Nat)} {count : Int}
  (h : Side t n layers list count)
include h

theorem keep (hl : layers[j]? = some l) (hm : l'.isMarked t = l.isMarked t)
    (hx : l'.sprdLayerIndex = l.sprdLayerIndex) : Side t n (layers.set j l') list count := by
  have hplace : l'.place t = l.place t := by rw [place, place, hm, hx]
  refine ⟨h.linked.set hl hplace, ?_, h.length⟩
  rw [countP_set_of_getElem? hl, hm, h.count]
  omega

theorem keepUnmarked (hl : layers[j]? = some l) (hm : l.isMarked t = false)
    (hm' : l'.isMarked t = false) : Side t n (layers.set j l') list count := by
  have hplace : l'.place t = l.place t := by simp [place, hm, hm']
  refine ⟨h.linked.set hl hplace, ?_, h.length⟩
  rw [countP_set_of_getElem? hl, hm, hm', h.count]
  simp

theorem concat (hm : l.isMarked t = false) : Side t n (layers ++ [l]) list count := by
  refine ⟨h.linked.concat (by simp [place, hm]), ?_, h.length⟩
  rw [countP_append, countP_singleton, hm, h.count]
  simp

theorem put (hl : layers[j]? = some l) (hm : l.isMarked t = false) (hm' : l'.isMarked t = true)
    (hx : l'.sprdLayerIndex = some i) (hslot : list[i]? = some none) :
    Side t n (layers.set j l') (list.set i (some j)) (count + 1) := by
  refine ⟨h.linked.put hl (by simp [place, hm]) (by simp [place, hm', hx]) hslot, ?_, ?_⟩
  · rw [countP_set_of_getElem? hl, hm, hm', h.count]
    simp
  · rw [length_set, h.length]

theorem remove (hl : layers[j]? = some l) (hm : l.isMarked t = true) (hm' : l'.isMarked t = false)
    (hx : l.sprdLayerIndex = some i) :
    Side t n (layers.set j l') (list.set i none) (count - 1) := by
  refine ⟨h.linked.remove hl (by simp [place, hm, hx]) (by simp [place, hm']), ?_, ?_⟩
  · rw [countP_set_of_getElem? hl, hm, hm', h.count]
    simp
  · rw [length_set, h.length]

theorem entry (hij : list[i]? = some (some j)) :
    ∃ l, layers[j]? = some l ∧ l.initCheck = true ∧ l.layerType = t ∧
      l.sprdLayerIndex = some i := by
  obtain ⟨l, hl, hp⟩ := (h.linked i j).1 hij
  obtain ⟨hm, hx⟩ := place_eq_some.1 hp
  obtain ⟨hi, ht⟩ := isMarked_eq_true.1 hm
  exact ⟨l, hl, hi, ht, hx⟩

theorem nonneg : 0 ≤ count := by
  rw [h.count]
  exact Int.natCast_nonneg _

end Side

structure Inv (n : Nat) (s : LayerList) : Prop where
  osd : Side .osd n s.layers s.osdLayerList s.osdLayerCount
  video : Side .overlay n s.layers s.videoLayerList s.videoLayerCount
  marked : ∀ l ∈ s.layers, l.Recorded
  fbCount : s.fbLayerCount = n - s.osdLayerCount - s.videoLayerCount

theorem countP_initCheck {ls : List SprdHWLayer}
    (h : ∀ l ∈ ls, l.Recorded) :
    ls.countP initCheck = ls.countP (·.isMarked .osd) + ls.countP (·.isMarked .overlay) := by
  induction ls with
  | nil => rfl
  | cons l ls ih =>
    have ih := ih fun l' hl' => h l' (mem_cons_of_mem l hl')
    have hl := h l mem_cons_self
    simp only [countP_cons, ih, isMarked]
    cases hi : l.initCheck with
    | false => simp
    | true =>
      rcases (hl hi).1 with ht | ht
      · simp [ht]
        omega
      · simp [ht]
        omega

theorem countP_source (ls : List SprdHWLayer) :
    ls.countP isSource = ls.countP initCheck + ls.countP fun l => l.isSource && !l.initCheck := by
  induction ls with
  | nil => rfl
  | cons l ls ih =>
    simp only [countP_cons, ih]
    cases hi : l.initCheck with
    | false =>
      simp
      omega
    | true =>
      have hs : l.isSource = true := by
        rw [initCheck] at hi
        simp [isSource, of_decide_eq_true hi]
      simp [hs]
      omega

theorem Inv.consistent (h : Inv n s) (hn : s.layers.countP isSource = n) : s.Consistent := by
  have hall := countP_initCheck h.marked
  have hsource := countP_source s.layers
  have hosd := h.osd.count
  have hvideo := h.video.count
  have hfb := h.fbCount
  refine ⟨?_, ?_, h.marked, hosd, hvideo, by omega⟩
  · intro i j
    rw [h.osd.linked i j]
    simp only [place_eq_some]
  · intro i j
    rw [h.video.linked i j]
    simp only [place_eq_some]

theorem Inv.room (h : Inv n s) (hn : s.layers.countP isSource ≤ n)
    (hl : s.layers[j]? = some l) (hsource : l.isSource = true) (hfree : l.initCheck = false) :
    s.osdLayerCount < n ∧ s.videoLayerCount < n := by
  have hall := countP_initCheck h.marked
  have hparts := countP_source s.layers
  have hpos : 0 < s.layers.countP fun l => l.isSource && !l.initCheck :=
    countP_pos_iff.2 ⟨l, mem_of_getElem? hl, by simp [hsource, hfree]⟩
  have hosd := h.osd.count
  have hvideo := h.video.count
  omega

theorem isMarked_congr (hi : l'.initCheck = l.initCheck)
    (ht : l.initCheck = true → l'.layerType = l.layerType) (t : LayerType) :
    l'.isMarked t = l.isMarked t := by
  cases hc : l.initCheck with
  | false => simp [isMarked, hi, hc]
  | true => simp [isMarked, hi, hc, ht hc]

theorem isMarked_of_not_initCheck (h : l.initCheck = false) (t : LayerType) :
    l.isMarked t = false := by
  simp [isMarked, h]

theorem recorded_set {ls : List SprdHWLayer} (h : ∀ l ∈ ls, l.Recorded) (h' : l'.Recorded) :
    ∀ l ∈ ls.set j l', l.Recorded := by
  intro a ha
  rcases mem_or_eq_of_mem_set ha with ha | rfl
  · exact h a ha
  · exact h'

theorem Inv.setLayer (h : Inv n s) (hl : s.layers[j]? = some l)
    (hi : l'.initCheck = l.initCheck) (ht : l.initCheck = true → l'.layerType = l.layerType)
    (hx : l'.sprdLayerIndex = l.sprdLayerIndex) : Inv n (s.setLayers (s.layers.set j l')) := by
  have hm := isMarked_congr hi ht
  refine ⟨h.osd.keep hl (hm _) hx, h.video.keep hl (hm _) hx, recorded_set h.marked ?_, h.fbCount⟩
  intro hc
  rw [hi] at hc
  rw [ht hc, hx]
  exact h.marked l (mem_of_getElem? hl) hc

theorem Inv.modifyLayer (h : Inv n s) (hf : ∀ l, (f l).initCheck = l.initCheck ∧
    (l.initCheck = true → (f l).layerType = l.layerType) ∧
    (f l).sprdLayerIndex = l.sprdLayerIndex) (j : Nat) : Inv n (s.modifyLayer j f) := by
  rw [LayerList.modifyLayer]
  cases hl : s.layers[j]? with
  | none => exact h
  | some l => exact h.setLayer hl (hf l).1 (hf l).2.1 (hf l).2.2

theorem Inv.setAccelerator (h : Inv n s) (a : Accelerator) (j : Nat) :
    Inv n (s.modifyLayer j (·.setLayerAccelerator a)) := by
  apply h.modifyLayer
  exact fun _ => ⟨rfl, fun _ => rfl, rfl⟩

theorem Inv.giveUp (h : Inv n s) (hl : s.layers[j]? = some l) (hi : l.initCheck = true) :
    Inv n (s.giveUp j) := by
  obtain ⟨htype, hx⟩ := h.marked l (mem_of_getElem? hl) hi
  obtain ⟨i, hx⟩ := Option.isSome_iff_exists.1 hx
  have hfree : (l.setCompositionType .framebuffer).initCheck = false := rfl
  have hmark := isMarked_of_not_initCheck hfree
  have hfb := h.fbCount
  rw [LayerList.giveUp, resetOverlayFlag, hl]
  simp only [hx]
  rcases htype with ht | ht
  · have hm : l.isMarked .osd = true := isMarked_eq_true.2 ⟨hi, ht⟩
    have hm' : l.isMarked .overlay = false := by simp [isMarked, ht]
    simp only [ht]
    refine ⟨h.osd.remove hl hm (hmark _) hx, h.video.keepUnmarked hl hm' (hmark _),
      recorded_set h.marked (fun hc => absurd hc (by simp [hfree])), ?_⟩
    simp only [setLayers, setOsd, setFb]
    omega
  · have hm : l.isMarked .overlay = true := isMarked_eq_true.2 ⟨hi, ht⟩
    have hm' : l.isMarked .osd = false := by simp [isMarked, ht]
    simp only [ht]
    refine ⟨h.osd.keepUnmarked hl hm' (hmark _), h.video.remove hl hm (hmark _) hx,
      recorded_set h.marked (fun hc => absurd hc (by simp [hfree])), ?_⟩
    simp only [setLayers, setVideo, setFb]
    omega

theorem Inv.mark (h : Inv n s) (hl : s.layers[j]? = some l) (hi : l.initCheck = false)
    (ht : l.layerType = .osd ∧ s.osdLayerList[s.osdLayerCount.toNat]? = some none ∨
      l.layerType = .overlay ∧ s.videoLayerList[s.videoLayerCount.toNat]? = some none) :
    Inv n ((s.setOverlayFlag j).setFb (s.fbLayerCount - 1)) := by
  have hmark := isMarked_of_not_initCheck hi
  have hfb := h.fbCount
  rw [setOverlayFlag, hl]
  rcases ht with ⟨ht, hslot⟩ | ⟨ht, hslot⟩
  · simp only [ht]
    refine ⟨h.osd.put hl (hmark _) ?_ rfl hslot, h.video.keepUnmarked hl (hmark _) ?_,
      recorded_set h.marked (fun _ => ⟨.inl ht, rfl⟩), ?_⟩
    · exact isMarked_eq_true.2 ⟨rfl, ht⟩
    · simp [isMarked, SprdHWLayer.setLayerIndex, SprdHWLayer.setCompositionType,
        SprdHWLayer.setSprdLayerIndex, ht]
    · simp only [setLayers, setOsd, setFb]
      omega
  · simp only [ht]
    refine ⟨h.osd.keepUnmarked hl (hmark _) ?_, h.video.put hl (hmark _) ?_ rfl hslot,
      recorded_set h.marked (fun _ => ⟨.inr ht, rfl⟩), ?_⟩
    · simp [isMarked, SprdHWLayer.setLayerIndex, SprdHWLayer.setCompositionType,
        SprdHWLayer.setSprdLayerIndex, ht]
    · exact isMarked_eq_true.2 ⟨rfl, ht⟩
    · simp only [setLayers, setVideo, setFb]
      omega

structure Kept (s s' : LayerList) : Prop where
  layers : s'.layers = s.layers
  osdList : s'.osdLayerList = s.osdLayerList
  videoList : s'.videoLayerList = s.videoLayerList
  osdCount : s'.osdLayerCount = s.osdLayerCount
  videoCount : s'.videoLayerCount = s.videoLayerCount

theorem Kept.trans (h : Kept s s') (h' : Kept s' s'') : Kept s s'' :=
  ⟨h'.layers.trans h.layers, h'.osdList.trans h.osdList, h'.videoList.trans h.videoList,
    h'.osdCount.trans h.osdCount, h'.videoCount.trans h.videoCount⟩

theorem Inv.of_kept (h : Inv n s) (hk : Kept s s') (hfb : s'.fbLayerCount = s.fbLayerCount) :
    Inv n s' := by
  refine ⟨?_, ?_, ?_, ?_⟩
  · rw [hk.layers, hk.osdList, hk.osdCount]
    exact h.osd
  · rw [hk.layers, hk.videoList, hk.videoCount]
    exact h.video
  · rw [hk.layers]
    exact h.marked
  · rw [hfb, hk.osdCount, hk.videoCount]
    exact h.fbCount

structure Alike (l l' : SprdHWLayer) : Prop where
  android : l'.android = l.android
  type : l'.layerType = l.layerType
  index : l'.sprdLayerIndex = l.sprdLayerIndex

theorem Alike.trans (h : Alike l l') (h' : Alike l' l'') : Alike l l'' :=
  ⟨h'.android.trans h.android, h'.type.trans h.type, h'.index.trans h.index⟩

theorem alike_prepareForGXP (cfg : Config) (l : SprdHWLayer) : Alike l (l.prepareForGXP cfg).1 := by
  rw [prepareForGXP]
  split
  · exact ⟨rfl, rfl, rfl⟩
  · exact ⟨rfl, rfl, rfl⟩

structure Prepared (t : LayerType) (ok : Prop) (s : LayerList) (l : SprdHWLayer)
    (p : LayerList × SprdHWLayer) : Prop where
  kept : Kept s p.1
  android : p.2.android = l.android
  index : p.2.sprdLayerIndex = l.sprdLayerIndex
  taken : p.2.layerType = l.layerType ∧ p.1.fbLayerCount = s.fbLayerCount ∨
    p.2.layerType = t ∧ p.1.fbLayerCount = s.fbLayerCount - 1 ∧ ok

theorem Prepared.left (hk : Kept s s') (hfb : s'.fbLayerCount = s.fbLayerCount) (ha : Alike l l') :
    Prepared t ok s l (s', l') :=
  ⟨hk, ha.android, ha.index, .inl ⟨ha.type, hfb⟩⟩

theorem prepareOSDLayer_prepared (cfg : Config) (s : LayerList) (l : SprdHWLayer) :
    Prepared .osd (l.checkRGBLayerFormat = true) s l (s.prepareOSDLayer cfg l) := by
  have hs : Kept s s := ⟨rfl, rfl, rfl, rfl, rfl⟩
  rw [prepareOSDLayer]
  split
  · exact .left hs rfl ⟨rfl, rfl, rfl⟩
  case h_2 h _ =>
    split
    · exact .left hs rfl ⟨rfl, rfl, rfl⟩
    case isFalse hrgb =>
      have hrgb : l.checkRGBLayerFormat = true := by simpa using hrgb
      simp only
      split
      · exact .left hs rfl ⟨rfl, rfl, rfl⟩
      split
      · exact .left hs rfl ⟨rfl, rfl, rfl⟩
      -- the layer with its rectangles, perhaps switched to the OverlayComposer
      generalize hl₁ : (l.setLayerAccelerator _).setRects cfg h = l₁
      have h₁ : Alike l l₁ := by
        rw [← hl₁]
        exact ⟨rfl, rfl, rfl⟩
      generalize hl₂ : (if l₁.accelerator = .gspIommu ∨ l₁.accelerator = .gsp then
        (l₁.prepareForGXP cfg).1 else l₁) = l₂
      have h₂ : Alike l l₂ := by
        rw [← hl₂]
        split
        · exact h₁.trans (alike_prepareForGXP cfg l₁)
        · exact h₁
      have haccept : Prepared .osd (l.checkRGBLayerFormat = true) s l (s.acceptOSD l₂) :=
        ⟨⟨rfl, rfl, rfl, rfl, rfl⟩, h₂.android, h₂.index, .inr ⟨rfl, rfl, hrgb⟩⟩
      split
      · split
        · exact haccept
        · exact .left ⟨rfl, rfl, rfl, rfl, rfl⟩ rfl ⟨h₂.android, h₂.type, h₂.index⟩
      · exact haccept

theorem prepareVideoLayer_prepared (cfg : Config) (s : LayerList) (l : SprdHWLayer) :
    Prepared .overlay (∃ h, l.android.handle = some h ∧
      (h.format.isYUV = true ∨ h.isProtected = true)) s l (s.prepareVideoLayer cfg l) := by
  rw [prepareVideoLayer]
  split
  · exact .left ⟨rfl, rfl, rfl, rfl, rfl⟩ rfl ⟨rfl, rfl, rfl⟩
  case h_2 h hh =>
    simp only
    split
    · exact .left ⟨rfl, rfl, rfl, rfl, rfl⟩ rfl ⟨rfl, rfl, rfl⟩
    case isFalse hformat =>
      have hok : ∃ h, l.android.handle = some h ∧
          (h.format.isYUV = true ∨ h.isProtected = true) := by
        refine ⟨h, hh, ?_⟩
        simp only [checkYUVLayerFormat, setProtectedFlag, hh, Option.any_some, not_and,
          Bool.not_eq_true] at hformat
        cases hyuv : h.format.isYUV with
        | true => exact .inl rfl
        | false => exact .inr (by simpa using hformat hyuv)
      have hs : Kept s (s.setYuvCount (s.yuvLayerCount + 1)) := ⟨rfl, rfl, rfl, rfl, rfl⟩
      have haccept {l' : SprdHWLayer} (ha : Alike l l') : Prepared .overlay (∃ h,
          l.android.handle = some h ∧ (h.format.isYUV = true ∨ h.isProtected = true)) s l
          ((s.setYuvCount (s.yuvLayerCount + 1)).acceptVideo l') :=
        ⟨⟨rfl, rfl, rfl, rfl, rfl⟩, ha.android, ha.index, .inr ⟨rfl, rfl, hok⟩⟩
      split
      · exact .left hs rfl ⟨rfl, rfl, rfl⟩
      split
      · exact .left hs rfl ⟨rfl, rfl, rfl⟩
      split
      · exact .left hs rfl ⟨rfl, rfl, rfl⟩
      split
      · exact .left hs rfl ⟨rfl, rfl, rfl⟩
      -- the layer with its rectangles, in a format of the OverlayComposer or not
      generalize hl₁ : (if h.format = .yv12 ∨ h.bt709Narrow = true then _ else _) = l₁
      have h₁ : Alike l l₁ := by
        rw [← hl₁]
        split
        · exact ⟨rfl, rfl, rfl⟩
        · exact ⟨rfl, rfl, rfl⟩
      have h₂ := h₁.trans (alike_prepareForGXP cfg l₁)
      split
      · split
        · exact haccept h₂
        · exact .left hs rfl h₂
      · split
        · exact .left hs rfl ⟨h₁.android, h₁.type, h₁.index⟩
        · exact haccept h₁

theorem setOverlayFlag_setFb (s : LayerList) (j : Nat) (x : Int) :
    (s.setFb x).setOverlayFlag j = (s.setOverlayFlag j).setFb x := by
  rw [setOverlayFlag, setOverlayFlag]
  cases hl : s.layers[j]? with
  | none => simp only [setFb, hl]
  | some l =>
    cases ht : l.layerType with
    | _ => simp only [setFb, hl, ht]; rfl

theorem Inv.concat (h : Inv n s) (hl : l.initCheck = false) :
    Inv n (s.setLayers (s.layers ++ [l])) := by
  have hm := isMarked_of_not_initCheck hl
  refine ⟨h.osd.concat (hm _), h.video.concat (hm _), ?_, h.fbCount⟩
  intro a ha
  rcases mem_append.1 ha with ha | ha
  · exact h.marked a ha
  · cases mem_singleton.1 ha
    exact fun hc => absurd hc (by simp [hl])

structure Open (n k : Nat) (s : LayerList) : Prop where
  inv : Inv n s
  osdBelow : Below s.osdLayerList s.osdLayerCount
  videoBelow : Below s.videoLayerList s.videoLayerCount
  sources : s.layers.countP isSource = k

structure Loaded (n k : Nat) (s : LayerList) : Prop extends Open n k s where
  osdFilled : Filled s.osdLayerList 0 s.osdLayerCount
  videoFilled : Filled s.videoLayerList 0 s.videoLayerCount

theorem setOverlayFlag_osd (hl : s.layers[j]? = some l) (ht : l.layerType = .osd) :
    s.setOverlayFlag j = (s.setLayers (s.layers.set j (((l.setSprdLayerIndex
      s.osdLayerCount.toNat).setCompositionType .overlay).setLayerIndex j))).setOsd
      (s.osdLayerList.set s.osdLayerCount.toNat (some j)) (s.osdLayerCount + 1) := by
  rw [setOverlayFlag, hl]
  simp only [ht]

theorem setOverlayFlag_video (hl : s.layers[j]? = some l) (ht : l.layerType = .overlay) :
    s.setOverlayFlag j = (s.setLayers (s.layers.set j (((l.setSprdLayerIndex
      s.videoLayerCount.toNat).setCompositionType .overlay).setLayerIndex j))).setVideo
      (s.videoLayerList.set s.videoLayerCount.toNat (some j)) (s.videoLayerCount + 1) := by
  rw [setOverlayFlag, hl]
  simp only [ht]

theorem Open.osd_lt (h : Open n k s) (hk : k ≤ n) (hl : s.layers[j]? = some l)
    (hs : l.isSource = true) (hi : l.initCheck = false) :
    s.osdLayerCount < s.osdLayerList.length ∧ s.videoLayerCount < s.videoLayerList.length := by
  rw [h.inv.osd.length, h.inv.video.length]
  exact h.inv.room (h.sources.trans_le hk) hl hs hi

theorem sources_set (hl : s.layers[j]? = some l) (hs : l'.isSource = l.isSource) :
    (s.layers.set j l').countP isSource = s.layers.countP isSource := by
  have := @countP_set_of_getElem? _ _ _ _ isSource hl l'
  rw [hs] at this
  omega

theorem Open.mark (h : Open n k s) (hk : k ≤ n) (hl : s.layers[j]? = some l)
    (hs : l.isSource = true) (hi : l.initCheck = false)
    (ht : l.layerType = .osd ∨ l.layerType = .overlay) :
    Open n k ((s.setOverlayFlag j).setFb (s.fbLayerCount - 1)) := by
  obtain ⟨hosd, hvideo⟩ := h.osd_lt hk hl hs hi
  have hosdSlot := h.osdBelow.free h.inv.osd.nonneg hosd
  have hvideoSlot := h.videoBelow.free h.inv.video.nonneg hvideo
  have hinv := h.inv.mark hl hi (ht.imp (⟨·, hosdSlot⟩) (⟨·, hvideoSlot⟩))
  rcases ht with ht | ht
  · rw [setOverlayFlag_osd hl ht] at hinv ⊢
    exact ⟨hinv, h.osdBelow.put h.inv.osd.nonneg j, h.videoBelow,
      (sources_set hl (by rw [hs]; rfl)).trans h.sources⟩
  · rw [setOverlayFlag_video hl ht] at hinv ⊢
    exact ⟨hinv, h.osdBelow, h.videoBelow.put h.inv.video.nonneg j,
      (sources_set hl (by rw [hs]; rfl)).trans h.sources⟩

theorem Loaded.mark (h : Loaded n k s) (hk : k ≤ n) (hl : s.layers[j]? = some l)
    (hs : l.isSource = true) (hi : l.initCheck = false)
    (ht : l.layerType = .osd ∨ l.layerType = .overlay) :
    Loaded n k ((s.setOverlayFlag j).setFb (s.fbLayerCount - 1)) := by
  obtain ⟨hosd, hvideo⟩ := h.osd_lt hk hl hs hi
  have hopen := h.toOpen.mark hk hl hs hi ht
  rcases ht with ht | ht
  · rw [setOverlayFlag_osd hl ht] at hopen ⊢
    exact ⟨hopen, h.osdFilled.put h.inv.osd.nonneg hosd j, h.videoFilled⟩
  · rw [setOverlayFlag_video hl ht] at hopen ⊢
    exact ⟨hopen, h.osdFilled, h.videoFilled.put h.inv.video.nonneg hvideo j⟩

theorem Loaded.concat (h : Loaded n k s) (hl : l.initCheck = false) :
    Loaded n (k + if l.isSource then 1 else 0) (s.setLayers (s.layers ++ [l])) := by
  refine ⟨⟨h.inv.concat hl, h.osdBelow, h.videoBelow, ?_⟩, h.osdFilled, h.videoFilled⟩
  simp [setLayers, h.sources]

theorem Loaded.of_kept (h : Loaded n k s) (hk : Kept s s')
    (hfb : s'.fbLayerCount = s.fbLayerCount) : Loaded n k s' := by
  refine ⟨⟨h.inv.of_kept hk hfb, ?_, ?_, ?_⟩, ?_, ?_⟩
  · rw [hk.osdList, hk.osdCount]
    exact h.osdBelow
  · rw [hk.videoList, hk.videoCount]
    exact h.videoBelow
  · rw [hk.layers]
    exact h.sources
  · rw [hk.osdList, hk.osdCount]
    exact h.osdFilled
  · rw [hk.videoList, hk.videoCount]
    exact h.videoFilled

/-- A skipped layer is not marked as overlay, and the protected buffer of another one is not RGB. -/
structure Fit (layer : HwcLayer) : Prop where
  skipped : layer.skip = true → layer.compositionType ≠ .overlay
  protection : layer.skip = false → ∀ h, layer.handle = some h → h.isProtected = true →
    h.format.isRGB = false

def sourceOf (layer : HwcLayer) : Bool := layer.compositionType ≠ .framebufferTarget

theorem isRGB_of_isYUV {f : PixelFormat} (h : f.isYUV = true) : f.isRGB = false := by
  cases f <;> revert h <;> decide

theorem Loaded.setIndex (h : Loaded n k s) (hl : s.layers[j]? = some l)
    (ht : l.layerType = .invalid) : Loaded n k (s.setOverlayFlag j) := by
  have he : s.setOverlayFlag j = s.setLayers (s.layers.set j (l.setLayerIndex j)) := by
    rw [setOverlayFlag, hl]
    simp only [ht]
  have hsources : (s.layers.set j (l.setLayerIndex j)).countP isSource = k :=
    (sources_set hl (by rfl)).trans h.sources
  rw [he]
  exact ⟨⟨h.inv.setLayer hl rfl (fun _ => rfl) rfl, h.osdBelow, h.videoBelow, hsources⟩,
    h.osdFilled, h.videoFilled⟩

theorem Loaded.prepared {q : LayerList × SprdHWLayer} (h : Loaded n k s) (hkept : Kept s q.1)
    (hi : q.2.initCheck = false) (hs : q.2.isSource = true) (hk : k + 1 ≤ n)
    (htaken : q.2.layerType = .invalid ∧ q.1.fbLayerCount = s.fbLayerCount ∨
      (q.2.layerType = .osd ∨ q.2.layerType = .overlay) ∧
        q.1.fbLayerCount = s.fbLayerCount - 1) :
    Loaded n (k + 1) ((q.1.setLayers (q.1.layers ++ [q.2])).setOverlayFlag q.1.layers.length) := by
  -- the list with the layer at its end, and the counter as it was
  generalize hs₁ : (q.1.setFb s.fbLayerCount).setLayers (q.1.layers ++ [q.2]) = s₁
  have hloaded : Loaded n (k + 1) s₁ := by
    have hc := h.concat hi
    rw [hs] at hc
    apply hc.of_kept
    · rw [← hs₁]
      exact ⟨by rw [setLayers, hkept.layers]; rfl, hkept.osdList, hkept.videoList, hkept.osdCount,
        hkept.videoCount⟩
    · rw [← hs₁]
      rfl
  have hget : s₁.layers[q.1.layers.length]? = some q.2 := by
    rw [← hs₁]
    exact getElem?_concat_length
  have he (x : Int) : s₁.setFb x = (q.1.setFb x).setLayers (q.1.layers ++ [q.2]) := by
    rw [← hs₁]
    rfl
  rcases htaken with ⟨ht, hfb⟩ | ⟨ht, hfb⟩
  · have hsame : q.1.setLayers (q.1.layers ++ [q.2]) = s₁ := by
      rw [← hs₁, ← hfb]
      rfl
    rw [hsame]
    exact hloaded.setIndex hget ht
  have hm := hloaded.mark hk hget hs hi ht
  have hfb₁ : s₁.fbLayerCount - 1 = q.1.fbLayerCount := by
    rw [← hs₁, hfb]
    rfl
  rw [← setOverlayFlag_setFb, hfb₁, he] at hm
  exact hm

theorem Prepared.both (layer : HwcLayer) (h₁ : Prepared .osd (l.checkRGBLayerFormat = true) s l p)
    (h₂ : Prepared .overlay (∃ h, p.2.android.handle = some h ∧
      (h.format.isYUV = true ∨ h.isProtected = true)) p.1 p.2 q)
    (hl : l.android.handle = layer.handle) (ht : l.layerType = .invalid)
    (hprot : ∀ h, layer.handle = some h → h.isProtected = true → h.format.isRGB = false) :
    q.2.layerType = .invalid ∧ q.1.fbLayerCount = s.fbLayerCount ∨
      (q.2.layerType = .osd ∨ q.2.layerType = .overlay) ∧
        q.1.fbLayerCount = s.fbLayerCount - 1 := by
  rcases h₁.taken with ⟨ht₁, hfb₁⟩ | ⟨ht₁, hfb₁, hrgb⟩
  · rcases h₂.taken with ⟨ht₂, hfb₂⟩ | ⟨ht₂, hfb₂, -⟩
    · exact .inl ⟨ht₂.trans (ht₁.trans ht), hfb₂.trans hfb₁⟩
    · exact .inr ⟨.inr ht₂, hfb₂.trans (by rw [hfb₁])⟩
  rcases h₂.taken with ⟨ht₂, hfb₂⟩ | ⟨-, -, hh, hhandle, hvideo⟩
  · exact .inr ⟨.inl (ht₂.trans ht₁), hfb₂.trans hfb₁⟩
  rw [h₁.android, hl] at hhandle
  have hrgb' : hh.format.isRGB = true := by
    rwa [checkRGBLayerFormat, hl, hhandle, Option.any_some] at hrgb
  have hnot : hh.format.isRGB = false := by
    rcases hvideo with hyuv | hp
    · exact isRGB_of_isYUV hyuv
    · exact hprot hh hhandle hp
  rw [hnot] at hrgb'
  cases hrgb'

theorem Loaded.updateLayer (cfg : Config) {layer : HwcLayer} (h : Loaded n k s) (hfit : Fit layer)
    (hk' : k' = k + if sourceOf layer then 1 else 0) (hk : k' ≤ n) :
    Loaded n k' (s.updateLayer cfg layer) := by
  rw [LayerList.updateLayer]
  simp only
  split
  case isTrue hskip =>
    have hi : (SprdHWLayer.new layer).initCheck = false := decide_eq_false (hfit.skipped hskip)
    rw [hk']
    exact (h.concat hi).of_kept ⟨rfl, rfl, rfl, rfl, rfl⟩ rfl
  case isFalse hskip =>
    split
    case isTrue htarget =>
      have hi : (SprdHWLayer.new layer).initCheck = false := by
        apply decide_eq_false
        intro hc
        cases htarget.symm.trans hc
      rw [hk']
      exact h.concat hi
    case isFalse hsource =>
      generalize hl₀ : (SprdHWLayer.new layer).setCompositionType .framebuffer = l₀
      have h₁ := prepareOSDLayer_prepared cfg s l₀
      generalize s.prepareOSDLayer cfg l₀ = p at h₁
      have h₂ := prepareVideoLayer_prepared cfg p.1 p.2
      generalize p.1.prepareVideoLayer cfg p.2 = q at h₂
      have handroid : q.2.android = layer.withType .framebuffer := by
        rw [h₂.android, h₁.android, ← hl₀]
        rfl
      have hs : sourceOf layer = true := decide_eq_true hsource
      rw [hs] at hk'
      subst hk'
      apply h.prepared (h₁.kept.trans h₂.kept)
      · rw [initCheck, handroid]
        rfl
      · rw [isSource, handroid]
        rfl
      · exact hk
      apply h₁.both layer h₂
      · rw [← hl₀]
        rfl
      · rw [← hl₀]
        rfl
      · exact hfit.protection (by simpa using hskip)

theorem loaded_foldl (cfg : Config) {list : List HwcLayer} (h : Loaded n k s)
    (hfit : ∀ layer ∈ list, Fit layer) (hk : k + list.countP sourceOf ≤ n) :
    Loaded n (k + list.countP sourceOf) (list.foldl (LayerList.updateLayer cfg) s) := by
  induction list generalizing k s with
  | nil => exact h
  | cons layer list ih =>
    rw [countP_cons] at hk ⊢
    have hstep := h.updateLayer cfg (hfit layer mem_cons_self) rfl (by omega)
    have hrest := ih hstep (fun l hl => hfit l (mem_cons_of_mem layer hl)) (by omega)
    rwa [add_assoc, add_comm (if sourceOf layer = true then 1 else 0)] at hrest

theorem updateGeometry_loaded (cfg : Config) {list : List HwcLayer} (old : LayerList)
    (hon : cfg.disableHWC = false) (hfit : ∀ layer ∈ list, Fit layer)
    (htarget : list.countP (fun l => l.compositionType = .framebufferTarget) = 1) :
    Loaded (list.length - 1) (list.length - 1) (updateGeometry cfg list old) := by
  have hsources : list.countP sourceOf = list.length - 1 := by
    have hsum := length_eq_countP_add_countP (l := list)
      (fun l : HwcLayer => decide (l.compositionType = .framebufferTarget))
    have hnot : list.countP (fun l => ¬ (decide (l.compositionType = .framebufferTarget)) = true) =
        list.countP sourceOf := by
      apply countP_congr
      intro l _
      simp [sourceOf]
    omega
  rw [updateGeometry, if_neg (by simp [hon])]
  have hlen : ((list.length : Int) - 1) = ((list.length - 1 : Nat) : Int) := by
    have : 0 < list.length := by
      have := countP_le_length (p := fun l : HwcLayer =>
        decide (l.compositionType = .framebufferTarget)) (l := list)
      omega
    omega
  have hstart : Loaded (list.length - 1) 0 ⟨[], List.replicate (list.length - 1) none,
      List.replicate (list.length - 1) none, 0, 0, 0, (list.length : Int) - 1, false,
      old.privateFlag⟩ := by
    have hnone (i j : Nat) : (List.replicate (list.length - 1) (none : Option Nat))[i]? ≠
        some (some j) := by
      simp [getElem?_replicate]
    refine ⟨⟨⟨⟨Linked.nil _, rfl, length_replicate⟩, ⟨Linked.nil _, rfl, length_replicate⟩,
      fun l hl => absurd hl not_mem_nil, ?_⟩, ?_, ?_, rfl⟩, ?_, ?_⟩
    · simp only [hlen]
      omega
    · exact fun i j hij => absurd hij (hnone i j)
    · exact fun i j hij => absurd hij (hnone i j)
    · exact fun i _ hi => absurd hi (by simp)
    · exact fun i _ hi => absurd hi (by simp)
  have := loaded_foldl cfg hstart hfit (by omega)
  rwa [zero_add, hsources] at this

theorem sources_setAccelerator (s : LayerList) (j : Nat) (a : Accelerator) :
    (s.modifyLayer j (·.setLayerAccelerator a)).layers.countP isSource =
      s.layers.countP isSource := by
  rw [modifyLayer]
  cases hl : s.layers[j]? with
  | none => rfl
  | some l => exact sources_set hl rfl

theorem giveUp_cases (h : Inv n s) (hl : s.layers[j]? = some l) (hi : l.initCheck = true) :
    ∃ i, l.sprdLayerIndex = some i ∧
      (l.layerType = .osd ∧ (s.giveUp j).osdLayerList = s.osdLayerList.set i none ∧
          (s.giveUp j).videoLayerList = s.videoLayerList ∧
          (s.giveUp j).videoLayerCount = s.videoLayerCount ∨
        l.layerType = .overlay ∧ (s.giveUp j).videoLayerList = s.videoLayerList.set i none ∧
          (s.giveUp j).osdLayerList = s.osdLayerList ∧
          (s.giveUp j).osdLayerCount = s.osdLayerCount) := by
  obtain ⟨htype, hx⟩ := h.marked l (mem_of_getElem? hl) hi
  obtain ⟨i, hx⟩ := Option.isSome_iff_exists.1 hx
  refine ⟨i, hx, ?_⟩
  rw [giveUp, resetOverlayFlag, hl]
  simp only [hx]
  rcases htype with ht | ht
  · simp only [ht]
    exact .inl ⟨trivial, rfl, rfl, rfl⟩
  · simp only [ht]
    exact .inr ⟨trivial, rfl, rfl, rfl⟩

theorem sources_giveUp (j : Nat) (h : ∀ l, s.layers[j]? = some l → l.initCheck = true) :
    (s.giveUp j).layers.countP isSource = s.layers.countP isSource := by
  have hreset : (s.resetOverlayFlag j).layers.countP isSource = s.layers.countP isSource := by
    rw [resetOverlayFlag]
    cases hl : s.layers[j]? with
    | none => rfl
    | some l =>
      have hsource : (l.setCompositionType .framebuffer).isSource = l.isSource := by
        have hi := h l hl
        rw [initCheck, decide_eq_true_iff] at hi
        simp [isSource, hi, SprdHWLayer.setCompositionType, HwcLayer.withType]
      have hset := sources_set hl hsource
      simp only
      split
      · exact hset
      split <;> exact hset
  exact hreset

structure Counted (n : Nat) (s : LayerList) : Prop where
  inv : Inv n s
  sources : s.layers.countP isSource = n

theorem Counted.giveUp (h : Counted n s) (hl : s.layers[j]? = some l) (hi : l.initCheck = true) :
    Counted n (s.giveUp j) := by
  apply Counted.mk (h.inv.giveUp hl hi)
  rw [sources_giveUp j fun a ha => by cases ha.symm.trans hl; exact hi]
  exact h.sources

theorem Counted.setAccelerator (h : Counted n s) (j : Nat) (a : Accelerator) :
    Counted n (s.modifyLayer j (·.setLayerAccelerator a)) :=
  ⟨h.inv.setAccelerator _ j, (sources_setAccelerator s j _).trans h.sources⟩

theorem modifyLayer_eq (s : LayerList) (j : Nat) (f : SprdHWLayer → SprdHWLayer) :
    s.modifyLayer j f = s.setLayers (s.modifyLayer j f).layers := by
  rw [modifyLayer]
  cases s.layers[j]? with
  | _ => rfl

structure VideoInv (n : Nat) (cap : GspCapability) (count : Int) (i : Nat) (st : VideoLoop) :
    Prop extends Counted n st.list where
  rest : Filled st.list.videoLayerList i count
  osdFilled : Filled st.list.osdLayerList 0 st.list.osdLayerCount
  big : count > cap.maxVideoLayerCnt → st.yuv = none
  below : ¬ count > cap.maxVideoLayerCnt →
    Below st.list.videoLayerList st.list.videoLayerCount

theorem VideoInv.turn (h : VideoInv n cap count i st) (hi : (i : Int) < count) :
    ∃ st', videoTurn cap count st i = some st' ∧ VideoInv n cap count (i + 1) st' := by
  obtain ⟨j, hj⟩ := h.rest i le_rfl hi
  obtain ⟨l, hl, hc, ht, hx⟩ := h.inv.video.entry hj
  have hpass : Filled st.list.videoLayerList (i + 1) count := h.rest.pass fun _ _ => rfl
  rw [videoTurn, hj, Option.join_some]
  simp only [hl, hc, not_true_eq_false, if_false]
  split
  case isTrue hbig =>
    obtain ⟨i', hx', ⟨ht', -⟩ | ⟨-, hvideo, hosd, hcount⟩⟩ := giveUp_cases h.inv hl hc
    · rw [ht] at ht'
      cases ht'
    cases hx.symm.trans hx'
    refine ⟨_, rfl, h.toCounted.giveUp hl hc, ?_, ?_, h.big, fun hsmall => absurd hbig hsmall⟩
    · apply h.rest.pass
      intro k hk
      rw [hvideo, getElem?_set_ne (by omega)]
    · rw [hosd, hcount]
      exact h.osdFilled
  case isFalse hsmall =>
    split
    · refine ⟨_, rfl, h.toCounted.setAccelerator j _, ?_, ?_, fun hbig => absurd hbig hsmall, ?_⟩
      · rw [modifyLayer_eq]
        exact hpass
      · rw [modifyLayer_eq]
        exact h.osdFilled
      · rw [modifyLayer_eq]
        exact h.below
    · exact ⟨_, rfl, h.toCounted, hpass, h.osdFilled, fun hbig => absurd hbig hsmall, h.below⟩

theorem foldlM_range {I : Nat → σ → Prop} {turn : σ → Nat → Option σ}
    (hturn : ∀ i st, i < N → I i st → ∃ st', turn st i = some st' ∧ I (i + 1) st') (k : Nat)
    (hk : k ≤ N) {st : σ} (h : I 0 st) :
    ∃ st', (List.range k).foldlM turn st = some st' ∧ I k st' := by
  induction k with
  | zero => exact ⟨st, rfl, h⟩
  | succ k ih =>
    obtain ⟨st₁, hst₁, h₁⟩ := ih (by omega)
    obtain ⟨st₂, hst₂, h₂⟩ := hturn k st₁ (by omega) h₁
    refine ⟨st₂, ?_, h₂⟩
    rw [range_succ, foldlM_append, hst₁]
    simp [hst₂]

structure OsdInv (n : Nat) (yuv : Option Nat) (count : Int) (i : Nat) (st : OsdLoop) :
    Prop extends Counted n st.list where
  rest : Filled st.list.osdLayerList i count
  below : yuv.isSome → Below st.list.videoLayerList st.list.videoLayerCount
  single : st.single = true →
    ∃ j l, st.rgb = some j ∧ st.list.layers[j]? = some l ∧ l.initCheck = true

theorem Counted.videoToOVC (h : Counted n s) (yuv : Option Nat) : Counted n (s.videoToOVC yuv) := by
  cases yuv with
  | none => exact h
  | some v => exact h.setAccelerator v _

theorem videoToOVC_eq (s : LayerList) (yuv : Option Nat) :
    s.videoToOVC yuv = s.setLayers (s.videoToOVC yuv).layers := by
  cases yuv with
  | none => rfl
  | some v => exact modifyLayer_eq s v _

theorem initCheck_videoToOVC (hl : s.layers[j]? = some l) (hi : l.initCheck = true)
    (yuv : Option Nat) : ∃ l', (s.videoToOVC yuv).layers[j]? = some l' ∧ l'.initCheck = true ∧
      l'.layerType = l.layerType ∧ l'.sprdLayerIndex = l.sprdLayerIndex := by
  cases yuv with
  | none => exact ⟨l, hl, hi, rfl, rfl⟩
  | some v =>
    rw [LayerList.videoToOVC, modifyLayer]
    cases hv : s.layers[v]? with
    | none => exact ⟨l, hl, hi, rfl, rfl⟩
    | some a =>
      by_cases hvj : v = j
      · subst hvj
        cases hv.symm.trans hl
        refine ⟨_, List.getElem?_set_self (List.getElem?_eq_some_iff.1 hl).1, hi, rfl, rfl⟩
      · exact ⟨l, (getElem?_set_ne hvj).trans hl, hi, rfl, rfl⟩

theorem OsdInv.giveUp (h : OsdInv n yuv count i st)
    (hl : st.list.layers[j]? = some l) (hi : l.initCheck = true) (ht : l.layerType = .osd)
    (hx : l.sprdLayerIndex = some i) (rgb : Option Nat) (byGSP byOVC : Bool) :
    OsdInv n yuv count (i + 1) ⟨st.list.giveUp j, rgb, byGSP, byOVC, false⟩ := by
  obtain ⟨i', hx', ⟨-, hosd, hvideo, hcount⟩ | ⟨ht', -⟩⟩ := giveUp_cases h.inv hl hi
  · cases hx.symm.trans hx'
    refine ⟨h.toCounted.giveUp hl hi, ?_, ?_, fun hs => by cases hs⟩
    · apply h.rest.pass
      intro k hk
      rw [hosd, getElem?_set_ne (by omega)]
    · intro hyuv
      rw [hvideo, hcount]
      exact h.below hyuv
  · rw [ht] at ht'
    cases ht'

theorem OsdInv.videoToOVC (h : OsdInv n yuv count i st) (rgb : Option Nat) (byGSP byOVC : Bool) :
    OsdInv n yuv count i ⟨st.list.videoToOVC yuv, rgb, byGSP, byOVC, false⟩ := by
  refine ⟨h.toCounted.videoToOVC yuv, ?_, ?_, fun hs => by cases hs⟩
  · rw [videoToOVC_eq]
    exact h.rest
  · rw [videoToOVC_eq]
    exact h.below

theorem OsdInv.next (h : OsdInv n yuv count i st)
    (rgb : Option Nat) (byGSP byOVC : Bool) :
    OsdInv n yuv count (i + 1) ⟨st.list, rgb, byGSP, byOVC, false⟩ :=
  ⟨h.toCounted, h.rest.pass fun _ _ => rfl, h.below, fun hs => by cases hs⟩

theorem OsdInv.turn (cfg : Config) (h : OsdInv n yuv count i st) (hi : (i : Int) < count) :
    ∃ st', osdTurn cfg yuv st i = some st' ∧ OsdInv n yuv count (i + 1) st' := by
  rw [osdTurn]
  split
  case isTrue hsingle =>
    exact ⟨st, rfl, h.toCounted, h.rest.pass fun _ _ => rfl, h.below, h.single⟩
  · obtain ⟨j, hj⟩ := h.rest i le_rfl hi
    obtain ⟨l, hl, hc, ht, hx⟩ := h.inv.osd.entry hj
    rw [hj, Option.join_some]
    simp only [hl, hc, not_true_eq_false, if_false]
    split
    · exact ⟨_, rfl, h.giveUp hl hc ht hx _ _ _⟩
    split
    · exact ⟨_, rfl, h.toCounted, h.rest.pass fun _ _ => rfl, h.below,
        fun _ => ⟨j, l, rfl, hl, hc⟩⟩
    -- whether the video layer is below, it is in the lists as before
    generalize Option.any _ _ = support
    have hs₁ : ∃ s₁, (if support = true then st.list else st.list.videoToOVC yuv) = s₁ ∧
        (∀ rgb byGSP byOVC, OsdInv n yuv count i ⟨s₁, rgb, byGSP, byOVC, false⟩) ∧
        ∃ l', s₁.layers[j]? = some l' ∧ l'.initCheck = true ∧ l'.layerType = .osd ∧
          l'.sprdLayerIndex = some i := by
      cases support with
      | true =>
        exact ⟨_, rfl, fun _ _ _ => ⟨h.toCounted, h.rest, h.below, fun hs => by cases hs⟩,
          l, hl, hc, ht, hx⟩
      | false =>
        obtain ⟨l', hl', hc', ht', hx'⟩ := initCheck_videoToOVC hl hc yuv
        exact ⟨_, rfl, fun _ _ _ => h.videoToOVC _ _ _, l', hl', hc', ht'.trans ht,
          hx'.trans hx⟩
    obtain ⟨s₁, he, hinv, l', hl', hc', ht', hx'⟩ := hs₁
    simp only [he]
    generalize (if support = true then (_ : Bool) else _) = reset
    split
    · exact ⟨_, rfl, (hinv none false false).giveUp hl' hc' ht' hx' _ _ _⟩
    · split
      · exact ⟨_, rfl, ((hinv none false false).videoToOVC none false false).next _ _ _⟩
      · exact ⟨_, rfl, (hinv none false false).next _ _ _⟩

/-- When the OverlayComposer takes over, the next entry of the OSD list is free, and every layer that
it takes has a format. -/
structure Room (s : LayerList) : Prop where
  below : ∀ l ∈ s.layers, l.isMarked .osd = true → ∀ i, l.sprdLayerIndex = some i →
    (i : Int) < s.osdLayerCount
  format : ∀ l ∈ s.layers, l.android.skip = false → l.android.compositionType = .framebuffer →
    l.checkRGBLayerFormat = true ∨ l.checkYUVLayerFormat = true

structure ForceInv (n : Nat) (s : LayerList) : Prop extends Open n n s where
  format : ∀ l ∈ s.layers, l.android.skip = false → l.android.compositionType = .framebuffer →
    l.checkRGBLayerFormat = true ∨ l.checkYUVLayerFormat = true

theorem fbLayerCount_setOverlayFlag (s : LayerList) (j : Nat) :
    (s.setOverlayFlag j).fbLayerCount = s.fbLayerCount := by
  rw [setOverlayFlag]
  cases s.layers[j]? with
  | none => rfl
  | some l =>
    cases hl : l.layerType with
    | _ => simp only [hl]; rfl

theorem mem_of_mem_setOverlayFlag (hl : s.layers[j]? = some l)
    (ht : l.layerType = .osd ∨ l.layerType = .overlay) (ha : a ∈ (s.setOverlayFlag j).layers)
    (hi : a.initCheck = false) : a ∈ s.layers := by
  have hset {i : Nat} (ha : a ∈ s.layers.set j (((l.setSprdLayerIndex i).setCompositionType
      .overlay).setLayerIndex j)) : a ∈ s.layers := by
    rcases mem_or_eq_of_mem_set ha with ha | rfl
    · exact ha
    · cases hi
  rcases ht with ht | ht
  · rw [setOverlayFlag_osd hl ht] at ha
    exact hset ha
  · rw [setOverlayFlag_video hl ht] at ha
    exact hset ha

theorem ForceInv.take (h : ForceInv n s) (hl : s.layers[j]? = some l)
    (hfb : l.android.compositionType = .framebuffer) (ht : t = .osd ∨ t = .overlay)
    (hformat : l.checkRGBLayerFormat = true ∨ l.checkYUVLayerFormat = true) :
    ForceInv n (((s.modifyLayer j (·.setLayerType t)).setOverlayFlag j).setFb
      (((s.modifyLayer j (·.setLayerType t)).setOverlayFlag j).fbLayerCount - 1)) := by
  have hi : l.initCheck = false := by simp [initCheck, hfb]
  have hs : l.isSource = true := by simp [isSource, hfb]
  have he : s.modifyLayer j (·.setLayerType t) =
      s.setLayers (s.layers.set j (l.setLayerType t)) := by
    rw [modifyLayer, hl]
  have hsources : (s.layers.set j (l.setLayerType t)).countP isSource = n :=
    (sources_set hl (by rfl)).trans h.sources
  have hopen : Open n n (s.setLayers (s.layers.set j (l.setLayerType t))) :=
    ⟨h.inv.setLayer hl rfl (fun hc => absurd hc (by simp [hi])) rfl, h.osdBelow, h.videoBelow,
      hsources⟩
  have hget : (s.setLayers (s.layers.set j (l.setLayerType t))).layers[j]? =
      some (l.setLayerType t) :=
    List.getElem?_set_self (List.getElem?_eq_some_iff.1 hl).1
  rw [he, fbLayerCount_setOverlayFlag]
  apply ForceInv.mk (hopen.mark le_rfl hget hs hi ht)
  intro a ha hskip hcomp
  have ha := mem_of_mem_setOverlayFlag hget ht ha (by simp [initCheck, hcomp])
  rcases mem_or_eq_of_mem_set ha with ha | rfl
  · exact h.format a ha hskip hcomp
  · exact hformat

theorem ForceInv.force (h : ForceInv n s) (j : Nat) : ForceInv n (s.forceLayer j) := by
  rw [forceLayer]
  cases hl : s.layers[j]? with
  | none => exact h
  | some l =>
    simp only
    split
    · exact h
    case isFalse hcond =>
      simp only [not_or, Bool.not_eq_true, ne_eq, not_not] at hcond
      obtain ⟨hskip, hfb⟩ := hcond
      have hformat := h.format l (mem_of_getElem? hl) hskip hfb
      split
      · exact h.take hl hfb (.inl rfl) hformat
      case isFalse hrgb =>
        rw [if_pos (hformat.resolve_left hrgb)]
        exact h.take hl hfb (.inr rfl) hformat

theorem ForceInv.foldl (h : ForceInv n s) (js : List Nat) :
    ForceInv n (js.foldl forceLayer s) := by
  induction js generalizing s with
  | nil => exact h
  | cons j js ih => exact ih (h.force j)

theorem Counted.release (h : Counted n s) (j : Nat) : Counted n (s.releaseLayer j) := by
  rw [releaseLayer]
  cases hl : s.layers[j]? with
  | none => exact h
  | some l =>
    simp only
    split
    case isTrue hi => exact h.giveUp hl hi
    · exact h

theorem Counted.foldl (h : Counted n s) (js : List Nat) :
    Counted n (js.foldl releaseLayer s) := by
  induction js generalizing s with
  | nil => exact h
  | cons j js ih => exact ih (h.release j)

theorem Counted.setSkip (h : Counted n s) (b : Bool) : Counted n (s.setSkip b) :=
  ⟨h.inv.of_kept ⟨rfl, rfl, rfl, rfl, rfl⟩ rfl, h.sources⟩

theorem Counted.revisitOverlayComposerLayer (h : Counted n s) (yuv : Nat)
    (hvideo : Below s.videoLayerList s.videoLayerCount)
    (hroom : s.skipFor yuv = false → Room s) :
    Counted n (s.revisitOverlayComposerLayer yuv).1 := by
  rw [LayerList.revisitOverlayComposerLayer]
  split
  case isTrue hskip =>
    have hr := hroom hskip
    have hosd : Below s.osdLayerList s.osdLayerCount := by
      intro i j hij
      obtain ⟨l, hl, hc, ht, hx⟩ := h.inv.osd.entry hij
      apply hr.below l (mem_of_getElem? hl) ?_ i hx
      simp [isMarked, hc, ht]
    have hforce : ForceInv n s := ⟨⟨h.inv, hosd, hvideo, h.sources⟩, hr.format⟩
    have := hforce.foldl (List.range s.layers.length)
    exact (Counted.mk this.inv this.sources).setSkip false
  · exact (h.foldl _).setSkip false

theorem Loaded.revisitLoops (cfg : Config) (h : Loaded n n s) :
    ∃ yuv o, revisitLoops cfg s = some (yuv, o) ∧ ∃ count i, OsdInv n yuv count i o := by
  have hvideo : VideoInv n cfg.cap s.videoLayerCount 0 ⟨s, none, false⟩ :=
    ⟨⟨h.inv, h.sources⟩, h.videoFilled, h.osdFilled, fun _ => rfl, fun _ => h.videoBelow⟩
  obtain ⟨v, hv, hvinv⟩ := foldlM_range
    (fun i st hi hst => VideoInv.turn hst (by omega)) s.videoLayerCount.toNat le_rfl hvideo
  have hosd : OsdInv n v.yuv v.list.osdLayerCount 0
      ⟨v.list, none, v.accelerateVideoByGSP, false, false⟩ := by
    refine ⟨hvinv.toCounted, hvinv.osdFilled, ?_, fun hs => by cases hs⟩
    intro hyuv
    apply hvinv.below
    intro hbig
    simp [hvinv.big hbig] at hyuv
  obtain ⟨o, ho, hoinv⟩ := foldlM_range
    (fun i st hi hst => OsdInv.turn cfg hst (by omega)) v.list.osdLayerCount.toNat le_rfl hosd
  refine ⟨v.yuv, o, ?_, _, _, hoinv⟩
  rw [LayerList.revisitLoops, hv]
  simp [ho]

theorem Counted.releaseSingle (h : Counted n s) (hl : s.layers[j]? = some l)
    (hi : l.initCheck = true) :
    Counted n ((s.modifyLayer j (·.setLayerAccelerator .non)).giveUp j) := by
  have hget : (s.modifyLayer j (·.setLayerAccelerator .non)).layers[j]? =
      some (l.setLayerAccelerator .non) := by
    rw [modifyLayer, hl]
    exact List.getElem?_set_self (List.getElem?_eq_some_iff.1 hl).1
  exact (h.setAccelerator j .non).giveUp hget hi

theorem Loaded.revisitGeometry (cfg : Config) (h : Loaded n n s) (hon : cfg.disableHWC = false)
    (hroom : ∀ yuv o, LayerList.revisitLoops cfg s = some (some yuv, o) →
      o.accelerateVideoByGSP = false → o.list.skipFor yuv = false → Room o.list) :
    ∃ r, revisitGeometry cfg s = some r ∧ Counted n r.1 := by
  obtain ⟨yuv, o, hloops, count, i, ho⟩ := h.revisitLoops cfg
  rw [LayerList.revisitGeometry, hon, hloops]
  simp only [Bool.false_eq_true, if_false, Option.map_some]
  refine ⟨_, rfl, ?_⟩
  split
  case h_1 _ _ v hgsp =>
    exact ho.toCounted.revisitOverlayComposerLayer v (ho.below rfl) (hroom v o hloops hgsp)
  · split
    case h_1 j hj =>
      split
      case isTrue hsingle =>
        obtain ⟨j', l, hj', hl, hi⟩ := ho.single hsingle.1
        cases hj.symm.trans hj'
        exact ho.toCounted.releaseSingle hl hi
      · exact ho.toCounted
    · exact ho.toCounted

def smallLayer (format : PixelFormat) (isProtected : Bool) : HwcLayer :=
  ⟨false, .framebuffer, some ⟨format, 64, 64, isProtected, true, false, false⟩, 0, true,
    ⟨0, 0, 64, 64⟩, ⟨0, 0, 64, 64⟩⟩

def osdLayer : HwcLayer := smallLayer .rgba8888 false

def protectedVideo : HwcLayer := smallLayer .ycbcr420sp true

def targetLayer : HwcLayer :=
  ⟨false, .framebufferTarget, none, 0, true, ⟨0, 0, 64, 64⟩, ⟨0, 0, 64, 64⟩⟩

def smallConfig : Config :=
  ⟨64, 64, ⟨true, false, true⟩,
    ⟨1, 3, 1, true, 1, ⟨1, 1⟩, ⟨4096, 4096⟩, ⟨1, 1⟩, ⟨4096, 4096⟩, 64, 1, 1, 1, 2⟩, true, false⟩

def emptyList : LayerList := ⟨[], [], [], 0, 0, 0, 0, false, false⟩

theorem fit_smallLayer (b : Bool) (h : b = true → format.isRGB = false) :
    Fit (smallLayer format b) := by
  apply Fit.mk
  · intro hskip
    cases hskip
  · intro _ handle hhandle hprotected
    cases hhandle
    exact h hprotected

theorem fit_targetLayer : Fit targetLayer := by
  apply Fit.mk
  · intro hskip
    cases hskip
  · intro _ handle hhandle
    cases hhandle

end LayerList

end SprdVendor.HwComposer
