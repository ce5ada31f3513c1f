import Mathlib

namespace SprdVendor.HwComposer

inductive PixelFormat where
  | rgba8888
  | rgbx8888
  | rgb565
  | ycbcr420sp
  | ycrcb420sp
  | yv12
  | other
deriving DecidableEq

/-- The fields of a `private_handle_t` that are looked at; `bt709Narrow` is
`yuv_info == MALI_YUV_BT709_NARROW`. -/
structure PrivateHandle where
  format : PixelFormat
  width : Int
  height : Int
  isProtected : Bool
  usesPhy : Bool
  notOverlay : Bool
  bt709Narrow : Bool
deriving DecidableEq

inductive CompositionType where
  | framebuffer
  | overlay
  | background
  | framebufferTarget
deriving DecidableEq

structure Frame where
  left : Int
  top : Int
  right : Int
  bottom : Int
deriving DecidableEq

/-- A `hwc_layer_1_t`; the source crop is what is left of it as integers. -/
structure HwcLayer where
  skip : Bool
  compositionType : CompositionType
  handle : Option PrivateHandle
  transform : Nat
  blendingNone : Bool
  sourceCrop : Frame
  displayFrame : Frame
deriving DecidableEq

inductive LayerType where
  | osd
  | overlay
  | invalid
deriving DecidableEq

inductive Accelerator where
  | unset
  | non
  | gsp
  | gspIommu
  | overlayComposer
deriving DecidableEq

structure SprdRect where
  x : UInt32
  y : UInt32
  w : UInt32
  h : UInt32
deriving DecidableEq

structure SprdHWLayer where
  android : HwcLayer
  layerType : LayerType
  layerIndex : Int
  sprdLayerIndex : Option Nat
  srcRect : SprdRect
  fbRect : SprdRect
  accelerator : Accelerator
  protectedFlag : Bool
deriving DecidableEq

structure AcceleratorMode where
  gsp : Bool
  gspIommu : Bool
  overlayComposer : Bool
deriving DecidableEq

structure Size where
  w : UInt32
  h : UInt32
deriving DecidableEq

structure GspCapability where
  maxLayerCnt : Nat
  maxLayerCntWithVideo : Nat
  maxVideoLayerCnt : Nat
  blendVideoWithOSD : Bool
  yuvXywhEven : Nat
  cropMin : Size
  cropMax : Size
  outMin : Size
  outMax : Size
  scaleRangeUp : Nat
  scaleRangeDown : Nat
  scaleUpdownSametime : Nat
  osdScaling : Nat
  maxVideoSize : Nat
deriving DecidableEq

/-- What a composition is given besides the layers. `directDisplay` is the build switch
`DIRECT_DISPLAY_SINGLE_OSD_LAYER`. -/
structure Config where
  fbWidth : Int
  fbHeight : Int
  mode : AcceleratorMode
  cap : GspCapability
  directDisplay : Bool
  disableHWC : Bool
deriving DecidableEq

/-- The members of `SprdHWLayerList`. A list of layers holds indices into `layers`; its entries that
were never written are empty. -/
structure LayerList where
  layers : List SprdHWLayer
  osdLayerList : List (Option Nat)
  videoLayerList : List (Option Nat)
  yuvLayerCount : Nat
  osdLayerCount : Int
  videoLayerCount : Int
  fbLayerCount : Int
  skipLayerFlag : Bool
  privateFlag : Bool
deriving DecidableEq

def rot90 : Nat := 4

def rot270 : Nat := 7

def flipH : Nat := 1

def flipV : Nat := 2

def PixelFormat.isRGB : PixelFormat → Bool
  | .rgba8888 | .rgbx8888 | .rgb565 => true
  | _ => false

def PixelFormat.isYUV : PixelFormat → Bool
  | .ycbcr420sp | .ycrcb420sp | .yv12 => true
  | _ => false

def HwcLayer.withType (l : HwcLayer) (t : CompositionType) : HwcLayer :=
  ⟨l.skip, t, l.handle, l.transform, l.blendingNone, l.sourceCrop, l.displayFrame⟩

namespace SprdHWLayer

def new (android : HwcLayer) : SprdHWLayer :=
  ⟨android, .invalid, -1, none, ⟨0, 0, 0, 0⟩, ⟨0, 0, 0, 0⟩, .unset, false⟩

def checkRGBLayerFormat (l : SprdHWLayer) : Bool := l.android.handle.any fun h => h.format.isRGB

def checkYUVLayerFormat (l : SprdHWLayer) : Bool := l.android.handle.any fun h => h.format.isYUV

def initCheck (l : SprdHWLayer) : Bool := l.android.compositionType = .overlay

def setLayerAccelerator (l : SprdHWLayer) (a : Accelerator) : SprdHWLayer :=
  ⟨l.android, l.layerType, l.layerIndex, l.sprdLayerIndex, l.srcRect, l.fbRect, a, l.protectedFlag⟩

def setLayerType (l : SprdHWLayer) (t : LayerType) : SprdHWLayer :=
  ⟨l.android, t, l.layerIndex, l.sprdLayerIndex, l.srcRect, l.fbRect, l.accelerator, l.protectedFlag⟩

def setProtectedFlag (l : SprdHWLayer) (b : Bool) : SprdHWLayer :=
  ⟨l.android, l.layerType, l.layerIndex, l.sprdLayerIndex, l.srcRect, l.fbRect, l.accelerator, b⟩

def setCompositionType (l : SprdHWLayer) (t : CompositionType) : SprdHWLayer :=
  ⟨l.android.withType t, l.layerType, l.layerIndex, l.sprdLayerIndex, l.srcRect, l.fbRect,
    l.accelerator, l.protectedFlag⟩

def setLayerIndex (l : SprdHWLayer) (index : Nat) : SprdHWLayer :=
  ⟨l.android, l.layerType, index, l.sprdLayerIndex, l.srcRect, l.fbRect, l.accelerator,
    l.protectedFlag⟩

def setSprdLayerIndex (l : SprdHWLayer) (index : Nat) : SprdHWLayer :=
  ⟨l.android, l.layerType, l.layerIndex, some index, l.srcRect, l.fbRect, l.accelerator,
    l.protectedFlag⟩

def setRects (cfg : Config) (h : PrivateHandle) (l : SprdHWLayer) : SprdHWLayer :=
  let s := l.android.sourceCrop
  let d := l.android.displayFrame
  ⟨l.android, l.layerType, l.layerIndex, l.sprdLayerIndex,
    ⟨.ofInt (max s.left 0), .ofInt (max s.top 0), .ofInt (min (s.right - s.left) h.width),
      .ofInt (min (s.bottom - s.top) h.height)⟩,
    ⟨.ofInt (max d.left 0), .ofInt (max d.top 0), .ofInt (min (d.right - d.left) cfg.fbWidth),
      .ofInt (min (d.bottom - d.top) cfg.fbHeight)⟩,
    l.accelerator, l.protectedFlag⟩

def badScaleDown (srcHeight destHeight : UInt32) : Bool :=
  let div : UInt32 :=
    if destHeight * 2 > srcHeight then 32
    else if destHeight * 4 > srcHeight then 64
    else if destHeight * 8 > srcHeight then 128
    else if destHeight * 16 > srcHeight then 256
    else 1
  destHeight < srcHeight ∧ srcHeight / div * div ≠ srcHeight ∧
    srcHeight / div * div * destHeight > srcHeight * (destHeight - 1) + 1

def fitsGXP (cfg : Config) (l : SprdHWLayer) : Bool :=
  let cap := cfg.cap
  let t := l.android.transform
  let turned : Bool := t &&& rot90 = rot90 ∨ t &&& rot270 = rot270
  let srcWidth := if turned then l.srcRect.h else l.srcRect.w
  let srcHeight := if turned then l.srcRect.w else l.srcRect.h
  let destWidth := l.fbRect.w
  let destHeight := l.fbRect.h
  let up : UInt32 := .ofNat (cap.scaleRangeUp / 16)
  let down : UInt32 := .ofNat (16 * cap.scaleRangeDown)
  ¬ (cap.yuvXywhEven = 1 ∧ (l.srcRect.x % 2 ≠ 0 ∨ l.srcRect.y % 2 ≠ 0 ∨ l.srcRect.w % 2 ≠ 0 ∨
    l.srcRect.h % 2 ≠ 0)) ∧
  ¬ (srcWidth < cap.cropMin.w ∨ srcHeight < cap.cropMin.h ∨ srcWidth > cap.cropMax.w ∨
    srcHeight > cap.cropMax.h ∨ destWidth < cap.outMin.w ∨ destHeight < cap.outMin.h ∨
    destWidth > cap.outMax.w ∨ destHeight > cap.outMax.h ∨ destWidth > .ofInt cfg.fbWidth ∨
    destHeight > .ofInt cfg.fbHeight) ∧
  ¬ (up * srcWidth < destWidth ∨ srcWidth > down * destWidth ∨ up * srcHeight < destHeight ∨
    srcHeight > down * destHeight) ∧
  ¬ badScaleDown srcHeight destHeight ∧
  ¬ (cap.scaleUpdownSametime = 0 ∧ (srcWidth < destWidth ∧ srcHeight > destHeight ∨
    srcWidth > destWidth ∧ srcHeight < destHeight)) ∧
  ¬ (cap.osdScaling = 0 ∧ l.checkRGBLayerFormat ∧
    (srcWidth ≠ destWidth ∨ srcHeight ≠ destHeight)) ∧
  ¬ (l.checkYUVLayerFormat ∧ (cap.maxVideoSize = 0 ∧ srcWidth > 1920 ∧ srcHeight > 1080 ∨
    cap.maxVideoSize = 1 ∧ srcWidth > 1280 ∧ srcHeight > 720))

/-- `prepareForGXP`: the layer and whether it is left to the GSP (the value 0); otherwise it is
switched to the OverlayComposer (the value 1). -/
def prepareForGXP (cfg : Config) (l : SprdHWLayer) : SprdHWLayer × Bool :=
  if fitsGXP cfg l then (l, true) else (l.setLayerAccelerator .overlayComposer, false)

/-- `prepareOverlayComposerLayer` returns 0. The right edge is compared with the height, as in the
source. -/
def regular (cfg : Config) (l : SprdHWLayer) : Bool :=
  let s := l.android.sourceCrop
  let d := l.android.displayFrame
  ¬ (d.left < 0 ∨ d.top < 0 ∨ d.left > cfg.fbWidth ∨ d.top > cfg.fbHeight ∨ d.right > cfg.fbWidth ∨
    d.bottom > cfg.fbHeight) ∧
  ¬ (s.left < 0 ∨ s.top < 0 ∨ s.bottom < 0 ∨ s.right < 0 ∨ s.left > cfg.fbWidth ∨
    s.top > cfg.fbHeight ∨ s.bottom > cfg.fbHeight ∨ s.right > cfg.fbHeight)

def osdAccelerator (mode : AcceleratorMode) (h : PrivateHandle) (transform : Nat) :
    Accelerator × Bool :=
  let first : Accelerator := if mode.overlayComposer then .overlayComposer else .non
  if mode.gsp ∧ ¬ mode.gspIommu then
    if ¬ h.usesPhy then (first, first ≠ .non) else (.gsp, true)
  else if mode.gspIommu then (.gspIommu, true)
  else if first = .non then (.non, transform = 0 ∧ h.usesPhy)
  else (first, true)

def videoAccelerator (mode : AcceleratorMode) (h : PrivateHandle) : Accelerator × Bool :=
  if mode.gspIommu then (.gspIommu, true)
  else if mode.gsp then
    if ¬ h.usesPhy then
      if mode.overlayComposer then (.overlayComposer, true) else (.non, false)
    else (.gsp, true)
  else if mode.overlayComposer then (.overlayComposer, true)
  else (.non, true)

end SprdHWLayer

namespace LayerList

def setLayers (s : LayerList) (layers : List SprdHWLayer) : LayerList :=
  ⟨layers, s.osdLayerList, s.videoLayerList, s.yuvLayerCount, s.osdLayerCount, s.videoLayerCount,
    s.fbLayerCount, s.skipLayerFlag, s.privateFlag⟩

def setFb (s : LayerList) (n : Int) : LayerList :=
  ⟨s.layers, s.osdLayerList, s.videoLayerList, s.yuvLayerCount, s.osdLayerCount, s.videoLayerCount,
    n, s.skipLayerFlag, s.privateFlag⟩

def setSkip (s : LayerList) (b : Bool) : LayerList :=
  ⟨s.layers, s.osdLayerList, s.videoLayerList, s.yuvLayerCount, s.osdLayerCount, s.videoLayerCount,
    s.fbLayerCount, b, s.privateFlag⟩

def setPrivate (s : LayerList) (b : Bool) : LayerList :=
  ⟨s.layers, s.osdLayerList, s.videoLayerList, s.yuvLayerCount, s.osdLayerCount, s.videoLayerCount,
    s.fbLayerCount, s.skipLayerFlag, b⟩

def setYuvCount (s : LayerList) (n : Nat) : LayerList :=
  ⟨s.layers, s.osdLayerList, s.videoLayerList, n, s.osdLayerCount, s.videoLayerCount,
    s.fbLayerCount, s.skipLayerFlag, s.privateFlag⟩

def setOsd (s : LayerList) (list : List (Option Nat)) (n : Int) : LayerList :=
  ⟨s.layers, list, s.videoLayerList, s.yuvLayerCount, n, s.videoLayerCount, s.fbLayerCount,
    s.skipLayerFlag, s.privateFlag⟩

def setVideo (s : LayerList) (list : List (Option Nat)) (n : Int) : LayerList :=
  ⟨s.layers, s.osdLayerList, list, s.yuvLayerCount, s.osdLayerCount, n, s.fbLayerCount,
    s.skipLayerFlag, s.privateFlag⟩

def acceptOSD (s : LayerList) (l : SprdHWLayer) : LayerList × SprdHWLayer :=
  ((s.setPrivate (l.accelerator = .overlayComposer)).setFb (s.fbLayerCount - 1),
    l.setLayerType .osd)

def prepareOSDLayer (cfg : Config) (s : LayerList) (l : SprdHWLayer) : LayerList × SprdHWLayer :=
  match l.android.handle with
  | none => (s, l)
  | some h =>
    if ¬ l.checkRGBLayerFormat then (s, l)
    else
      let first := SprdHWLayer.osdAccelerator cfg.mode h l.android.transform
      let l := l.setLayerAccelerator first.1
      if ¬ first.2 then (s, l)
      else if l.android.transform ≠ 0 ∧ l.android.transform &&& rot90 ≠ rot90 then
        (s, l.setLayerAccelerator .non)
      else
        let l := l.setRects cfg h
        let l := if l.accelerator = .gspIommu ∨ l.accelerator = .gsp then
          (l.prepareForGXP cfg).1 else l
        if l.accelerator = .overlayComposer then
          if l.regular cfg then s.acceptOSD l
          else (s.setSkip true, l.setLayerAccelerator .non)
        else s.acceptOSD l

def acceptVideo (s : LayerList) (l : SprdHWLayer) : LayerList × SprdHWLayer :=
  (s.setFb (s.fbLayerCount - 1), l.setLayerType .overlay)

def prepareVideoLayer (cfg : Config) (s : LayerList) (l : SprdHWLayer) : LayerList × SprdHWLayer :=
  match l.android.handle with
  | none => (s, l)
  | some h =>
    let l := l.setProtectedFlag h.isProtected
    if ¬ l.checkYUVLayerFormat ∧ l.protectedFlag = false then (s, l)
    else
      let s := s.setYuvCount (s.yuvLayerCount + 1)
      let first := SprdHWLayer.videoAccelerator cfg.mode h
      let l := l.setLayerAccelerator first.1
      if ¬ first.2 then (s, l)
      else if h.notOverlay then (s, l.setLayerAccelerator .non)
      else if ¬ l.android.blendingNone then (s, l.setLayerAccelerator .non)
      else
        let l := l.setRects cfg h
        if (h.format = .yv12 ∨ h.bt709Narrow) ∧ ¬ cfg.mode.overlayComposer then (s, l)
        else
          let l := if h.format = .yv12 ∨ h.bt709Narrow then
            l.setLayerAccelerator .overlayComposer else l
          if l.accelerator = .gspIommu ∨ l.accelerator = .gsp then
            let r := l.prepareForGXP cfg
            if r.2 ∨ cfg.mode.overlayComposer then s.acceptVideo r.1 else (s, r.1)
          else if l.accelerator ≠ .overlayComposer ∧ (l.android.transform = flipV ∨
              l.android.transform = (rot90 ||| flipH) ∨ l.android.transform = (rot90 ||| flipV)) then
            (s, l.setLayerAccelerator .non)
          else s.acceptVideo l

def setOverlayFlag (s : LayerList) (j : Nat) : LayerList :=
  match s.layers[j]? with
  | none => s
  | some l =>
    match l.layerType with
    | .osd =>
      let k := s.osdLayerCount.toNat
      (s.setLayers (s.layers.set j
        (((l.setSprdLayerIndex k).setCompositionType .overlay).setLayerIndex j))).setOsd
          (s.osdLayerList.set k (some j)) (s.osdLayerCount + 1)
    | .overlay =>
      let k := s.videoLayerCount.toNat
      (s.setLayers (s.layers.set j
        (((l.setSprdLayerIndex k).setCompositionType .overlay).setLayerIndex j))).setVideo
          (s.videoLayerList.set k (some j)) (s.videoLayerCount + 1)
    | .invalid => s.setLayers (s.layers.set j (l.setLayerIndex j))

def resetOverlayFlag (s : LayerList) (j : Nat) : LayerList :=
  match s.layers[j]? with
  | none => s
  | some l =>
    let s' := s.setLayers (s.layers.set j (l.setCompositionType .framebuffer))
    match l.sprdLayerIndex with
    | none => s'
    | some i =>
      match l.layerType with
      | .osd => s'.setOsd (s.osdLayerList.set i none) (s.osdLayerCount - 1)
      | .overlay => s'.setVideo (s.videoLayerList.set i none) (s.videoLayerCount - 1)
      | .invalid => s'

def giveUp (s : LayerList) (j : Nat) : LayerList :=
  let s := s.resetOverlayFlag j
  s.setFb (s.fbLayerCount + 1)

def modifyLayer (s : LayerList) (j : Nat) (f : SprdHWLayer → SprdHWLayer) : LayerList :=
  match s.layers[j]? with
  | none => s
  | some l => s.setLayers (s.layers.set j (f l))

def updateLayer (cfg : Config) (s : LayerList) (layer : HwcLayer) : LayerList :=
  let l := SprdHWLayer.new layer
  if layer.skip then (s.setLayers (s.layers ++ [l])).setSkip true
  else if layer.compositionType = .framebufferTarget then s.setLayers (s.layers ++ [l])
  else
    -- `resetOverlayFlag` of a layer that has no index yet
    let l := l.setCompositionType .framebuffer
    let p := s.prepareOSDLayer cfg l
    let p := p.1.prepareVideoLayer cfg p.2
    (p.1.setLayers (p.1.layers ++ [p.2])).setOverlayFlag p.1.layers.length

/-- `updateGeometry`. With the composer disabled the counter of the framebuffer layers stays as it
was. -/
def updateGeometry (cfg : Config) (list : List HwcLayer) (old : LayerList) : LayerList :=
  if cfg.disableHWC then ⟨[], [], [], 0, 0, 0, old.fbLayerCount, false, old.privateFlag⟩
  else
    let start : LayerList := ⟨[], List.replicate (list.length - 1) none,
      List.replicate (list.length - 1) none, 0, 0, 0, (list.length : Int) - 1, false,
      old.privateFlag⟩
    list.foldl (updateLayer cfg) start

structure VideoLoop where
  list : LayerList
  yuv : Option Nat
  accelerateVideoByGSP : Bool

/-- A turn of the loop over the video layers; an entry that is `NULL` has no result. -/
def videoTurn (cap : GspCapability) (count : Int) (st : VideoLoop) (i : Nat) : Option VideoLoop :=
  match (st.list.videoLayerList[i]?).join with
  | none => none
  | some j =>
    match st.list.layers[j]? with
    | none => none
    | some l =>
      let s := st.list
      if ¬ l.initCheck then some st
      else if count > cap.maxVideoLayerCnt then
        some ⟨s.giveUp j, st.yuv, st.accelerateVideoByGSP⟩
      else if s.fbLayerCount > 0 ∨ (cap.blendVideoWithOSD = false ∧ s.osdLayerCount > 0) ∨
          count + s.osdLayerCount > cap.maxLayerCntWithVideo then
        some ⟨s.modifyLayer j (·.setLayerAccelerator .overlayComposer), some j, false⟩
      else some ⟨s, some j, l.accelerator = .gsp ∨ l.accelerator = .gspIommu⟩

/-- The variables of the loop over the OSD layers; `single` is `singleRGBLayerCond`, which leaves the
loop. -/
structure OsdLoop where
  list : LayerList
  rgb : Option Nat
  accelerateVideoByGSP : Bool
  accelerateOSDByOVC : Bool
  single : Bool

def videoToOVC (s : LayerList) : Option Nat → LayerList
  | none => s
  | some v => s.modifyLayer v (·.setLayerAccelerator .overlayComposer)

def osdTurn (cfg : Config) (yuv : Option Nat) (st : OsdLoop) (i : Nat) : Option OsdLoop :=
  if st.single then some st
  else
    match (st.list.osdLayerList[i]?).join with
    | none => none
    | some j =>
      match st.list.layers[j]? with
      | none => none
      | some l =>
        let s := st.list
        if ¬ l.initCheck then some st
        else if s.privateFlag ∧ s.videoLayerCount = 0 ∧ s.osdLayerCount > 0 then
          some ⟨s.giveUp j, some j, st.accelerateVideoByGSP, st.accelerateOSDByOVC, false⟩
        else
          let byOVC : Bool := l.accelerator = .overlayComposer
          if cfg.directDisplay ∧ l.layerIndex = 0 ∧ s.layers.length = 2 then
            some ⟨s, some j, st.accelerateVideoByGSP, byOVC, true⟩
          else
            let yuvIndex := (yuv.bind fun v => s.layers[v]?).map SprdHWLayer.layerIndex
            let support : Bool := yuvIndex.any (· < l.layerIndex)
            -- the GSP takes the video layer at the bottom only
            let s := if support then s else s.videoToOVC yuv
            let byGSP : Bool := st.accelerateVideoByGSP ∧ ¬ (yuv.isSome ∧ ¬ support)
            let reset : Bool :=
              if support then s.osdLayerCount + s.videoLayerCount > cfg.cap.maxLayerCntWithVideo
              else s.osdLayerCount > cfg.cap.maxLayerCnt ∨
                (s.osdLayerCount > 0 ∧ s.fbLayerCount > 0) ∨ byOVC
            if reset then some ⟨s.giveUp j, none, byGSP, byOVC, false⟩
            else if yuv.isSome ∧ byOVC then
              some ⟨s.videoToOVC yuv, some j, false, byOVC, false⟩
            else some ⟨s, some j, byGSP, byOVC, false⟩

def forceLayer (s : LayerList) (j : Nat) : LayerList :=
  match s.layers[j]? with
  | none => s
  | some l =>
    if l.android.skip ∨ l.android.compositionType ≠ .framebuffer then s
    else
      let s :=
        if l.checkRGBLayerFormat then s.modifyLayer j (·.setLayerType .osd)
        else if l.checkYUVLayerFormat then s.modifyLayer j (·.setLayerType .overlay)
        else s
      let s := s.setOverlayFlag j
      s.setFb (s.fbLayerCount - 1)

def releaseLayer (s : LayerList) (j : Nat) : LayerList :=
  match s.layers[j]? with
  | none => s
  | some l => if l.initCheck then s.giveUp j else s

def skipFor (s : LayerList) (yuv : Nat) : Bool :=
  match s.layers[yuv]? with
  | none => s.skipLayerFlag
  | some l =>
    if s.yuvLayerCount > 1 then true
    else if s.yuvLayerCount = 1 ∧ l.protectedFlag = false then true
    else if l.protectedFlag then false
    else s.skipLayerFlag

def revisitOverlayComposerLayer (s : LayerList) (yuv : Nat) : LayerList × Bool :=
  if s.skipFor yuv = false then
    (((List.range s.layers.length).foldl forceLayer s).setSkip false, true)
  else (((List.range s.layers.length).foldl releaseLayer s).setSkip false, false)

def revisitLoops (cfg : Config) (s : LayerList) : Option (Option Nat × OsdLoop) := do
  let v ← (List.range s.videoLayerCount.toNat).foldlM (videoTurn cfg.cap s.videoLayerCount)
    ⟨s, none, false⟩
  let o ← (List.range v.list.osdLayerCount.toNat).foldlM (osdTurn cfg v.yuv)
    ⟨v.list, none, v.accelerateVideoByGSP, false, false⟩
  some (v.yuv, o)

def revisitGeometry (cfg : Config) (s : LayerList) : Option (LayerList × Bool) :=
  if cfg.disableHWC then some (s, false)
  else
    (revisitLoops cfg s).map fun p =>
      let o := p.2
      match p.1, o.accelerateVideoByGSP with
      | some yuv, false => o.list.revisitOverlayComposerLayer yuv
      | _, _ =>
        match o.rgb with
        | some j =>
          if o.single ∧ o.accelerateOSDByOVC then
            ((o.list.modifyLayer j (·.setLayerAccelerator .non)).giveUp j, false)
          else (o.list, false)
        | none => (o.list, false)

end LayerList

end SprdVendor.HwComposer
