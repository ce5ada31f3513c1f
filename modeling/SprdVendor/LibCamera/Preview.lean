import SprdVendor.Lib.Probing
import SprdVendor.Lib.Run

namespace SprdVendor.LibCamera
open Lib List

inductive CameraRet where
  | success | fail | invalidParam | invalidState
  deriving DecidableEq, Repr

inductive CameraStates where
  | idle | inited | previewing | snapshoting | recovering | working | codecWorking
  | postProcessing | ipmWorking | error
  deriving DecidableEq, Repr

inductive ImgAngle where
  | angle0 | angle90 | angle270 | angle180 | mirror
  deriving DecidableEq, Repr

inductive ImgSkipMode where
  | hw | sw
  deriving DecidableEq, Repr

def prevIdBase : Nat := 0x1000

abbrev prevRotFrmCnt : Nat := 8

def isPreviewFrm (id : Nat) : Bool := id &&& prevIdBase == prevIdBase

def sub32 (a b : Nat) : Nat := (a + 2 ^ 32 - b % 2 ^ 32) % 2 ^ 32

structure FrmInfo where
  channelId : Nat
  frameId : Nat
  sec : Nat
  usec : Nat
  deriving DecidableEq, Repr

/-- Seconds are widened before they are scaled, microseconds are not. -/
def FrmInfo.timestamp (data : FrmInfo) : Int :=
  data.sec * 1000000000 + (data.usec * 1000 % 2 ^ 32 : Nat)

structure ImgFrm where
  addrPhyY : Nat
  addrVirY : Nat
  deriving DecidableEq, Repr

structure CameraFrameType where
  width : Nat
  height : Nat
  bufId : Nat
  orderBufId : Nat
  yPhyAddr : Nat
  yVirAddr : Nat
  timestamp : Int
  deriving DecidableEq, Repr

def CameraFrameType.zero : CameraFrameType := ⟨0, 0, 0, 0, 0, 0, 0⟩

structure PrevContext where
  previewEb : Bool
  prevRot : ImgAngle
  previewSize : Nat × Nat
  isSupportFd : Bool
  isFdOn : Bool
  prevStatus : CameraStates
  skipMode : ImgSkipMode
  prevSkipNum : Nat
  prevChannelId : Nat
  prevFrmCnt : Nat
  restartTimestamp : Int
  restartSkipCnt : Nat
  restartSkipEn : Bool
  prevBufId : Nat
  prevFrm : Nat → ImgFrm
  prevRotIndex : Nat
  prevRotFrmIsLock : Fin prevRotFrmCnt → Bool
  prevRotFrm : Fin prevRotFrmCnt → ImgFrm
  prevMemNum : Nat

inductive Call where
  | channelFreeFrame (channelId frameId : Nat)
  | startRot (src : Nat) (dst : Fin prevRotFrmCnt)
  | fdSendData (frm : ImgFrm)
  | rspCbSuccess
  | evtCbFrame (frame : CameraFrameType)
  | exitCbFailed
  deriving DecidableEq, Repr

namespace PrevContext

variable (cxt : PrevContext) (data : FrmInfo) (rot free : CameraRet)

def prevSearchRotBuffer : Option PrevContext :=
  (probe cxt.prevRotFrmIsLock prevRotFrmCnt 0 cxt.prevRotIndex).map
    fun searchIndex : Fin prevRotFrmCnt => { cxt with prevRotIndex := searchIndex.val }

def rotFrmId : Fin prevRotFrmCnt := Fin.ofNat prevRotFrmCnt cxt.prevRotIndex

def prevStartRotate : CameraRet × List Call :=
  if cxt.prevStatus = .previewing ∧ isPreviewFrm data.frameId then
    let ret := if rot = .success then .success else .fail
    (ret, [.startRot (sub32 data.frameId prevIdBase) cxt.rotFrmId])
  else (.invalidState, [])

def prevNum : Nat := sub32 cxt.prevMemNum prevRotFrmCnt

def fillFrame (frmId orderBufId : Nat) (frm : ImgFrm) : CameraFrameType where
  width := cxt.previewSize.1
  height := cxt.previewSize.2
  bufId := frmId
  orderBufId := orderBufId
  yPhyAddr := frm.addrPhyY
  yVirAddr := frm.addrVirY
  timestamp := data.timestamp

def fdCalls (frm : ImgFrm) : List Call :=
  if cxt.isSupportFd && cxt.isFdOn then [.fdSendData frm] else []

def prevConstructFrame : PrevContext × CameraFrameType × List Call :=
  if cxt.prevChannelId = data.channelId then
    if cxt.prevRot ≠ .angle0 then
      let frmId := cxt.rotFrmId
      let frm := cxt.prevRotFrm frmId
      ({ cxt with prevRotFrmIsLock := Function.update cxt.prevRotFrmIsLock frmId true },
        cxt.fillFrame data frmId ((frmId + cxt.prevNum) % 2 ^ 32) frm, cxt.fdCalls frm)
    else
      let frmId := sub32 data.frameId prevIdBase
      let frm := cxt.prevFrm frmId
      (cxt, cxt.fillFrame data frmId frmId frm, cxt.fdCalls frm)
  else (cxt, .zero, [])

def skipFrame : Bool × PrevContext :=
  if cxt.skipMode = .sw ∧ cxt.prevFrmCnt ≤ cxt.prevSkipNum then (true, cxt)
  else if cxt.skipMode = .sw ∧ cxt.restartSkipEn then
    if data.timestamp > cxt.restartTimestamp then
      let restartSkipCnt := (cxt.restartSkipCnt + 1) % 2 ^ 32
      if restartSkipCnt ≤ cxt.prevSkipNum then
        (true, { cxt with restartSkipCnt := restartSkipCnt })
      else (false, { cxt with restartSkipCnt := 0, restartSkipEn := false })
    else (false, cxt)
  else (false, cxt)

def showFrame : CameraRet × PrevContext × List Call :=
  let built := cxt.prevConstructFrame data
  (.success, { built.1 with prevBufId := built.2.1.bufId }, built.2.2 ++ [.evtCbFrame built.2.1])

def advanceRotIndex : PrevContext :=
  let index := cxt.prevRotIndex + 1
  { cxt with prevRotIndex := if prevRotFrmCnt ≤ index then index - prevRotFrmCnt else index }

def freeCall : Call := .channelFreeFrame data.channelId data.frameId

def rotateInto : CameraRet × PrevContext × List Call :=
  let rotated := cxt.prevStartRotate data rot
  -- the failed frame is skipped here, and with it its way back to the channel
  if rotated.1 ≠ .success then (.success, cxt, rotated.2)
  else if free ≠ .success then (free, cxt, rotated.2 ++ [freeCall data])
  else
    let built := cxt.prevConstructFrame data
    (.success, built.1.advanceRotIndex,
      rotated.2 ++ [freeCall data] ++ built.2.2 ++ [.evtCbFrame built.2.1])

def rotateFrame : CameraRet × PrevContext × List Call :=
  match cxt.prevSearchRotBuffer with
  | none => (free, cxt, [freeCall data])
  | some cxt => cxt.rotateInto data rot free

def countFrame : PrevContext := { cxt with prevFrmCnt := (cxt.prevFrmCnt + 1) % 2 ^ 32 }

def prevPreviewFrameHandle : CameraRet × PrevContext × List Call :=
  if cxt.prevStatus ≠ .previewing then (.invalidState, cxt, [])
  else
    let response := if cxt.prevFrmCnt = 0 then [Call.rspCbSuccess] else []
    let skip := cxt.countFrame.skipFrame data
    if skip.1 then (free, skip.2, response ++ [freeCall data])
    else
      let done :=
        if skip.2.prevRot = .angle0 then skip.2.showFrame data
        else skip.2.rotateFrame data rot free
      (done.1, done.2.1,
        response ++ done.2.2 ++ if done.1 ≠ .success then [.exitCbFailed] else [])

def prevFrameHandle : CameraRet × PrevContext × List Call :=
  if cxt.previewEb && data.channelId == cxt.prevChannelId then
    cxt.prevPreviewFrameHandle data rot free
  else (.success, cxt, [])

def cmrPreviewReleaseFrame (index : Nat) : CameraRet × PrevContext × List Call :=
  if cxt.prevStatus ≠ .previewing then (.success, cxt, [])
  else if cxt.prevRot = .angle0 then
    let frmId := (index + prevIdBase) % 2 ^ 32
    if prevIdBase ≤ frmId ∧ frmId < prevIdBase + cxt.prevMemNum then
      (free, cxt, [.channelFreeFrame cxt.prevChannelId frmId])
    else (.success, cxt, [])
  else
    let slot := Fin.ofNat prevRotFrmCnt index
    (.success, { cxt with prevRotFrmIsLock := Function.update cxt.prevRotFrmIsLock slot false }, [])

end PrevContext

/-- The preview while frames arrive and the application releases them: its context, the frames
received, the calls made, and the rotation buffers the application has. -/
structure Preview where
  cxt : PrevContext
  received : List (Nat × Nat)
  calls : List Call
  held : Fin prevRotFrmCnt → Bool

inductive PreviewEvent where
  | frame (data : FrmInfo) (rot free : CameraRet)
  | release (index : Nat) (free : CameraRet)
  deriving DecidableEq, Repr

def givenBack (calls : List Call) : List (Nat × Nat) :=
  calls.filterMap fun
    | .channelFreeFrame channelId frameId => some (channelId, frameId)
    | _ => none

def targets (calls : List Call) : List (Fin prevRotFrmCnt) :=
  calls.filterMap fun
    | .startRot _ dst => some dst
    | _ => none

def shown (calls : List Call) : List CameraFrameType :=
  calls.filterMap fun
    | .evtCbFrame frame => some frame
    | _ => none

def handOver (held : Fin prevRotFrmCnt → Bool) (frames : List CameraFrameType)
    (i : Fin prevRotFrmCnt) : Bool :=
  held i || frames.any fun frame => frame.bufId == i

def Preview.next (s : Preview) : PreviewEvent → Option Preview
  | .frame data rot free =>
    let done := s.cxt.prevFrameHandle data rot free
    let arrived :=
      if data.channelId = s.cxt.prevChannelId then [(data.channelId, data.frameId)] else []
    some ⟨done.2.1, s.received ++ arrived, s.calls ++ done.2.2, handOver s.held (shown done.2.2)⟩
  | .release index free =>
    let done := s.cxt.cmrPreviewReleaseFrame free index
    some ⟨done.2.1, s.received, s.calls ++ done.2.2,
      Function.update s.held (Fin.ofNat prevRotFrmCnt index) false⟩

structure Preview.Started (s : Preview) : Prop where
  previewing : s.cxt.prevStatus = .previewing
  enabled : s.cxt.previewEb = true
  rotated : s.cxt.prevRot ≠ .angle0
  unlocked : ∀ i, s.cxt.prevRotFrmIsLock i = false
  index : s.cxt.prevRotIndex = 0
  received : s.received = []
  calls : s.calls = []
  held : ∀ i, s.held i = false

def Rotates (data : FrmInfo) (rot : CameraRet) : Prop :=
  isPreviewFrm data.frameId = true ∧ rot = .success

instance : Decidable (Rotates data rot) := inferInstanceAs (Decidable (_ ∧ _))

def PreviewEvent.Rotated : PreviewEvent → Prop
  | .frame data rot _ => Rotates data rot
  | .release _ _ => True

def Skipped (cxt : PrevContext) (data : FrmInfo) : Prop :=
  (cxt.countFrame.skipFrame data).1 = true

@[simp] theorem givenBack_append (xs ys : List Call) :
    givenBack (xs ++ ys) = givenBack xs ++ givenBack ys :=
  filterMap_append

@[simp] theorem targets_append (xs ys : List Call) :
    targets (xs ++ ys) = targets xs ++ targets ys :=
  filterMap_append

@[simp] theorem shown_append (xs ys : List Call) : shown (xs ++ ys) = shown xs ++ shown ys :=
  filterMap_append

structure Silent (calls : List Call) : Prop where
  back : givenBack calls = []
  targets : targets calls = []
  shown : shown calls = []

theorem Silent.nil : Silent [] := ⟨rfl, rfl, rfl⟩

inductive Handled (lock : Fin prevRotFrmCnt → Bool) (skip : Prop) (data : FrmInfo)
    (rot free : CameraRet) : List Call → (Fin prevRotFrmCnt → Bool) → Prop where
  | skipped (hskip : skip) (hback : givenBack calls = [(data.channelId, data.frameId)])
      (htargets : targets calls = []) (hshown : shown calls = []) :
      Handled lock skip data rot free calls lock
  | full (hfull : ∀ i, lock i = true) (hback : givenBack calls = [(data.channelId, data.frameId)])
      (htargets : targets calls = []) (hshown : shown calls = []) :
      Handled lock skip data rot free calls lock
  | failed (hlock : lock i = false) (hrot : ¬ Rotates data rot) (hback : givenBack calls = [])
      (htargets : ∀ j ∈ targets calls, j = i) (hshown : shown calls = []) :
      Handled lock skip data rot free calls lock
  | refused (hlock : lock i = false) (hfree : free ≠ .success)
      (hback : givenBack calls = [(data.channelId, data.frameId)]) (htargets : targets calls = [i])
      (hshown : shown calls = []) : Handled lock skip data rot free calls lock
  | shown (hlock : lock i = false) (hback : givenBack calls = [(data.channelId, data.frameId)])
      (htargets : targets calls = [i]) (hshown : shown calls = [frame]) (hbuf : frame.bufId = i) :
      Handled lock skip data rot free calls (Function.update lock i true)

theorem Handled.around (h : Handled lock skip data rot free calls lock') (hpre : Silent pre)
    (hpost : Silent post) : Handled lock skip data rot free (pre ++ calls ++ post) lock' := by
  have hback : givenBack (pre ++ calls ++ post) = givenBack calls := by
    simp [givenBack_append, hpre.back, hpost.back]
  have htargets : targets (pre ++ calls ++ post) = targets calls := by
    simp [targets_append, hpre.targets, hpost.targets]
  have hshown : LibCamera.shown (pre ++ calls ++ post) = LibCamera.shown calls := by
    simp [shown_append, hpre.shown, hpost.shown]
  cases h with
  | skipped hskip hb ht hs => exact .skipped hskip (hback.trans hb) (htargets.trans ht) (hshown.trans hs)
  | full hfull hb ht hs => exact .full hfull (hback.trans hb) (htargets.trans ht) (hshown.trans hs)
  | failed hlock hrot hb ht hs =>
    exact .failed hlock hrot (hback.trans hb) (by rwa [htargets]) (hshown.trans hs)
  | refused hlock hfree hb ht hs =>
    exact .refused hlock hfree (hback.trans hb) (htargets.trans ht) (hshown.trans hs)
  | shown hlock hb ht hs hbuf =>
    exact .shown hlock (hback.trans hb) (htargets.trans ht) (hshown.trans hs) hbuf

structure SameMode (cxt cxt' : PrevContext) : Prop where
  status : cxt'.prevStatus = cxt.prevStatus
  enabled : cxt'.previewEb = cxt.previewEb
  rot : cxt'.prevRot = cxt.prevRot
  channel : cxt'.prevChannelId = cxt.prevChannelId

theorem SameMode.trans (h : SameMode c₁ c₂) (h' : SameMode c₂ c₃) : SameMode c₁ c₃ :=
  ⟨h'.status.trans h.status, h'.enabled.trans h.enabled, h'.rot.trans h.rot,
    h'.channel.trans h.channel⟩

namespace PrevContext

variable {cxt : PrevContext} {data : FrmInfo} {rot free : CameraRet}

theorem skipFrame_snd (cxt : PrevContext) (data : FrmInfo) :
    ∃ cnt en, (cxt.skipFrame data).2 = { cxt with restartSkipCnt := cnt, restartSkipEn := en } := by
  rw [skipFrame]
  split
  · exact ⟨_, _, rfl⟩
  split
  · split
    · dsimp only
      split
      · exact ⟨_, _, rfl⟩
      · exact ⟨_, _, rfl⟩
    · exact ⟨_, _, rfl⟩
  · exact ⟨_, _, rfl⟩

theorem prevStartRotate_fst (hstatus : cxt.prevStatus = .previewing) :
    (cxt.prevStartRotate data rot).1 = .success ↔ Rotates data rot := by
  rw [prevStartRotate, Rotates]
  by_cases hid : isPreviewFrm data.frameId = true
  · by_cases hrot : rot = .success
    · simp [hstatus, hid, hrot]
    · simp [hstatus, hid, hrot]
  · simp [hid]

theorem targets_prevStartRotate : ∀ j ∈ targets (cxt.prevStartRotate data rot).2, j = cxt.rotFrmId := by
  rw [prevStartRotate]
  split
  · exact fun j hj => mem_singleton.1 hj
  · exact fun j hj => absurd hj not_mem_nil

theorem targets_of_rotates (hstatus : cxt.prevStatus = .previewing) (h : Rotates data rot) :
    targets (cxt.prevStartRotate data rot).2 = [cxt.rotFrmId] := by
  rw [prevStartRotate, if_pos ⟨hstatus, h.1⟩]
  rfl

theorem prevStartRotate_quiet (cxt : PrevContext) (data : FrmInfo) (rot : CameraRet) :
    givenBack (cxt.prevStartRotate data rot).2 = [] ∧
      shown (cxt.prevStartRotate data rot).2 = [] := by
  rw [prevStartRotate]
  split
  · exact ⟨rfl, rfl⟩
  · exact ⟨rfl, rfl⟩

theorem fdCalls_silent (cxt : PrevContext) (frm : ImgFrm) : Silent (cxt.fdCalls frm) := by
  rw [fdCalls]
  split
  · exact ⟨rfl, rfl, rfl⟩
  · exact .nil

theorem prevSearchRotBuffer_some (h : cxt.prevSearchRotBuffer = some cxt') :
    SameMode cxt cxt' ∧ cxt'.prevRotFrmIsLock = cxt.prevRotFrmIsLock ∧
      cxt'.prevRotFrmIsLock cxt'.rotFrmId = false := by
  obtain ⟨i, hi, rfl⟩ := Option.map_eq_some_iff.1 h
  refine ⟨⟨rfl, rfl, rfl, rfl⟩, rfl, ?_⟩
  have hindex : rotFrmId { cxt with prevRotIndex := i.val } = i := Fin.ofNat_val_eq_self i
  rw [hindex]
  exact probe_some hi

theorem prevSearchRotBuffer_none (h : cxt.prevSearchRotBuffer = none) (i : Fin prevRotFrmCnt) :
    cxt.prevRotFrmIsLock i = true := by
  have hnone : probe cxt.prevRotFrmIsLock (2 ^ 3) 0 cxt.prevRotIndex = none :=
    Option.map_eq_none_iff.1 h
  exact busy_of_probe_none (m := 3) hnone i

theorem prevConstructFrame_rotated (hrot : cxt.prevRot ≠ .angle0)
    (hchannel : cxt.prevChannelId = data.channelId) :
    ∃ frame, cxt.prevConstructFrame data =
        ({ cxt with prevRotFrmIsLock := Function.update cxt.prevRotFrmIsLock cxt.rotFrmId true },
          frame, cxt.fdCalls (cxt.prevRotFrm cxt.rotFrmId)) ∧
      frame.bufId = cxt.rotFrmId := by
  rw [prevConstructFrame, if_pos hchannel, if_pos hrot]
  exact ⟨_, rfl, rfl⟩

theorem rotateInto_handled (hstatus : cxt.prevStatus = .previewing) (hrot : cxt.prevRot ≠ .angle0)
    (hchannel : cxt.prevChannelId = data.channelId)
    (hlock : cxt.prevRotFrmIsLock cxt.rotFrmId = false) (skip : Prop) :
    Handled cxt.prevRotFrmIsLock skip data rot free (cxt.rotateInto data rot free).2.2
        (cxt.rotateInto data rot free).2.1.prevRotFrmIsLock ∧
      SameMode cxt (cxt.rotateInto data rot free).2.1 := by
  have hret : (cxt.prevStartRotate data rot).1 = .success ↔ Rotates data rot :=
    prevStartRotate_fst hstatus
  obtain ⟨hback, hshown⟩ := prevStartRotate_quiet cxt data rot
  rw [rotateInto]
  by_cases hrotates : Rotates data rot
  case neg =>
    rw [if_pos (fun h => hrotates (hret.1 h))]
    exact ⟨.failed hlock hrotates hback targets_prevStartRotate hshown, rfl, rfl, rfl, rfl⟩
  case pos =>
    have htargets := targets_of_rotates hstatus hrotates
    rw [if_neg (fun h => h (hret.2 hrotates))]
    by_cases hfree : free = .success
    case neg =>
      rw [if_pos hfree]
      refine ⟨.refused hlock hfree ?_ ?_ ?_, rfl, rfl, rfl, rfl⟩
      · rw [givenBack_append, hback]
        rfl
      · rw [targets_append, htargets]
        rfl
      · rw [shown_append, hshown]
        rfl
    case pos =>
      have hfd := cxt.fdCalls_silent (cxt.prevRotFrm cxt.rotFrmId)
      obtain ⟨frame, hbuilt, hbuf⟩ := prevConstructFrame_rotated hrot hchannel
      rw [if_neg (fun h => h hfree), hbuilt]
      refine ⟨.shown hlock ?_ ?_ ?_ hbuf, rfl, rfl, rfl, rfl⟩
      · simp only [givenBack_append, hback, hfd.back]
        rfl
      · simp only [targets_append, htargets, hfd.targets]
        rfl
      · simp only [shown_append, hshown, hfd.shown]
        rfl

theorem rotateFrame_handled (hstatus : cxt.prevStatus = .previewing) (hrot : cxt.prevRot ≠ .angle0)
    (hchannel : cxt.prevChannelId = data.channelId) (rot free : CameraRet) (skip : Prop) :
    Handled cxt.prevRotFrmIsLock skip data rot free (cxt.rotateFrame data rot free).2.2
        (cxt.rotateFrame data rot free).2.1.prevRotFrmIsLock ∧
      SameMode cxt (cxt.rotateFrame data rot free).2.1 := by
  rw [rotateFrame]
  split
  case h_1 hnone => exact ⟨.full (prevSearchRotBuffer_none hnone) rfl rfl rfl, rfl, rfl, rfl, rfl⟩
  case h_2 cxt' hsome =>
    obtain ⟨hmode, hsame, hlock⟩ := prevSearchRotBuffer_some hsome
    obtain ⟨hhandled, hmode'⟩ := rotateInto_handled (hmode.status.trans hstatus)
      (hmode.rot ▸ hrot) (hmode.channel.trans hchannel) hlock skip
    rw [hsame] at hhandled
    exact ⟨hhandled, hmode.trans hmode'⟩

theorem prevPreviewFrameHandle_handled (hstatus : cxt.prevStatus = .previewing)
    (hrot : cxt.prevRot ≠ .angle0) (hchannel : cxt.prevChannelId = data.channelId) :
    Handled cxt.prevRotFrmIsLock (Skipped cxt data) data rot free
        (cxt.prevPreviewFrameHandle data rot free).2.2
        (cxt.prevPreviewFrameHandle data rot free).2.1.prevRotFrmIsLock ∧
      SameMode cxt (cxt.prevPreviewFrameHandle data rot free).2.1 := by
  obtain ⟨cnt, en, hctx⟩ := cxt.countFrame.skipFrame_snd data
  have hresponse : Silent (if cxt.prevFrmCnt = 0 then [Call.rspCbSuccess] else []) := by
    split
    · exact ⟨rfl, rfl, rfl⟩
    · exact .nil
  have hmode : SameMode cxt (cxt.countFrame.skipFrame data).2 := by
    rw [hctx]
    exact ⟨rfl, rfl, rfl, rfl⟩
  have hsame : (cxt.countFrame.skipFrame data).2.prevRotFrmIsLock = cxt.prevRotFrmIsLock := by
    rw [hctx]
    rfl
  rw [prevPreviewFrameHandle, if_neg (fun h => h hstatus)]
  by_cases hskip : (cxt.countFrame.skipFrame data).1 = true
  case pos =>
    rw [if_pos hskip, hsame]
    have hfreed : Handled cxt.prevRotFrmIsLock (Skipped cxt data) data rot free [freeCall data]
        cxt.prevRotFrmIsLock := .skipped hskip rfl rfl rfl
    have haround := hfreed.around hresponse .nil
    rw [append_nil] at haround
    exact ⟨haround, hmode⟩
  case neg =>
    rw [if_neg hskip, if_neg (hmode.rot ▸ hrot)]
    obtain ⟨hhandled, hmode'⟩ := rotateFrame_handled (hmode.status.trans hstatus)
      (hmode.rot ▸ hrot) (hmode.channel.trans hchannel) rot free (Skipped cxt data)
    rw [hsame] at hhandled
    refine ⟨hhandled.around hresponse ?_, hmode.trans hmode'⟩
    split
    · exact ⟨rfl, rfl, rfl⟩
    · exact .nil

theorem prevFrameHandle_handled (hstatus : cxt.prevStatus = .previewing)
    (henabled : cxt.previewEb = true) (hrot : cxt.prevRot ≠ .angle0)
    (hchannel : data.channelId = cxt.prevChannelId) :
    Handled cxt.prevRotFrmIsLock (Skipped cxt data) data rot free
        (cxt.prevFrameHandle data rot free).2.2
        (cxt.prevFrameHandle data rot free).2.1.prevRotFrmIsLock ∧
      SameMode cxt (cxt.prevFrameHandle data rot free).2.1 := by
  have hmine : (cxt.previewEb && data.channelId == cxt.prevChannelId) = true := by
    rw [henabled, hchannel, Bool.true_and, beq_self_eq_true]
  rw [prevFrameHandle, if_pos hmine]
  exact prevPreviewFrameHandle_handled hstatus hrot hchannel.symm

theorem prevFrameHandle_other (hchannel : data.channelId ≠ cxt.prevChannelId) :
    cxt.prevFrameHandle data rot free = (.success, cxt, []) := by
  have hother : ¬ (cxt.previewEb && data.channelId == cxt.prevChannelId) = true := by
    rw [Bool.and_eq_true, beq_iff_eq]
    exact fun h => hchannel h.2
  rw [prevFrameHandle, if_neg hother]

theorem cmrPreviewReleaseFrame_rotated (hstatus : cxt.prevStatus = .previewing)
    (hrot : cxt.prevRot ≠ .angle0) (index : Nat) :
    cxt.cmrPreviewReleaseFrame free index = (.success,
      { cxt with
        prevRotFrmIsLock :=
          Function.update cxt.prevRotFrmIsLock (Fin.ofNat prevRotFrmCnt index) false }, []) := by
  rw [cmrPreviewReleaseFrame, if_neg (fun h => h hstatus), if_neg hrot]

end PrevContext

theorem handOver_nil (held : Fin prevRotFrmCnt → Bool) : handOver held [] = held :=
  funext fun i => Bool.or_false (held i)

theorem handOver_singleton (held : Fin prevRotFrmCnt → Bool) {frame : CameraFrameType}
    {i : Fin prevRotFrmCnt} (hbuf : frame.bufId = i) :
    handOver held [frame] = Function.update held i true := by
  funext j
  rw [handOver, any_cons, any_nil, Bool.or_false, hbuf]
  by_cases hj : j = i
  · rw [hj, Function.update_self, beq_self_eq_true, Bool.or_true]
  · have hne : (i.val == j.val) = false := beq_eq_false_iff_ne.2 fun h => hj (Fin.ext h.symm)
    rw [Function.update_of_ne hj, hne, Bool.or_false]

namespace Handled

variable {calls : List Call}

theorem handOver_eq (h : Handled lock skip data rot free calls lock') :
    handOver lock (LibCamera.shown calls) = lock' := by
  cases h with
  | skipped _ _ _ hshown => rw [hshown, handOver_nil]
  | full _ _ _ hshown => rw [hshown, handOver_nil]
  | failed _ _ _ _ hshown => rw [hshown, handOver_nil]
  | refused _ _ _ _ hshown => rw [hshown, handOver_nil]
  | shown _ _ _ hshown hbuf => rw [hshown, handOver_singleton _ hbuf]

theorem back_of_rotates (h : Handled lock skip data rot free calls lock') (hrot : Rotates data rot) :
    givenBack calls = [(data.channelId, data.frameId)] := by
  cases h with
  | skipped _ hback _ _ => exact hback
  | full _ hback _ _ => exact hback
  | failed _ hnot _ _ _ => exact absurd hrot hnot
  | refused _ _ hback _ _ => exact hback
  | shown _ hback _ _ _ => exact hback

theorem target_free (h : Handled lock skip data rot free calls lock') (hi : i ∈ targets calls) :
    lock i = false := by
  cases h with
  | skipped _ _ htargets _ => rw [htargets] at hi; cases hi
  | full _ _ htargets _ => rw [htargets] at hi; cases hi
  | failed hlock _ _ htargets _ => rwa [htargets i hi]
  | refused hlock _ _ htargets _ =>
    rw [htargets] at hi
    rwa [mem_singleton.1 hi]
  | shown hlock _ htargets _ _ =>
    rw [htargets] at hi
    rwa [mem_singleton.1 hi]

theorem dropped (h : Handled lock skip data rot free calls lock')
    (hnone : LibCamera.shown calls = []) :
    skip ∨ free ≠ .success ∨ ¬ Rotates data rot ∨ ∀ i, lock i = true := by
  cases h with
  | skipped hskip _ _ _ => exact .inl hskip
  | full hfull _ _ _ => exact .inr (.inr (.inr hfull))
  | failed _ hrot _ _ _ => exact .inr (.inr (.inl hrot))
  | refused _ hfree _ _ _ => exact .inr (.inl hfree)
  | shown _ _ _ hshown _ =>
    rw [hshown] at hnone
    cases hnone

end Handled

namespace Preview

variable {s t u : Preview}

structure Rotating (s : Preview) : Prop where
  previewing : s.cxt.prevStatus = .previewing
  enabled : s.cxt.previewEb = true
  rotated : s.cxt.prevRot ≠ .angle0
  locked : s.cxt.prevRotFrmIsLock = s.held

theorem Started.rotating (h : Started s) : Rotating s where
  previewing := h.previewing
  enabled := h.enabled
  rotated := h.rotated
  locked := funext fun i => (h.unlocked i).trans (h.held i).symm

theorem Rotating.handled (h : Rotating s) (hchannel : data.channelId = s.cxt.prevChannelId)
    (rot free : CameraRet) :
    Handled s.held (Skipped s.cxt data) data rot free (s.cxt.prevFrameHandle data rot free).2.2
        (s.cxt.prevFrameHandle data rot free).2.1.prevRotFrmIsLock ∧
      SameMode s.cxt (s.cxt.prevFrameHandle data rot free).2.1 := by
  rw [← h.locked]
  exact PrevContext.prevFrameHandle_handled h.previewing h.enabled h.rotated hchannel

theorem Rotating.after (h : Rotating s) (hstep : s.next a = some t) : Rotating t := by
  cases a with
  | frame data rot free =>
    cases hstep
    by_cases hchannel : data.channelId = s.cxt.prevChannelId
    · obtain ⟨hhandled, hmode⟩ := h.handled hchannel rot free
      exact ⟨hmode.status.trans h.previewing, hmode.enabled.trans h.enabled, hmode.rot ▸ h.rotated,
        hhandled.handOver_eq.symm⟩
    · rw [PrevContext.prevFrameHandle_other hchannel]
      exact ⟨h.previewing, h.enabled, h.rotated, h.locked.trans (handOver_nil _).symm⟩
  | release index free =>
    cases hstep
    rw [PrevContext.cmrPreviewReleaseFrame_rotated h.previewing h.rotated]
    refine ⟨h.previewing, h.enabled, h.rotated, ?_⟩
    rw [← h.locked]

theorem Rotating.back_next (h : Rotating s) (hback : givenBack s.calls = s.received)
    (ha : a.Rotated) (hstep : s.next a = some t) : givenBack t.calls = t.received := by
  cases a with
  | frame data rot free =>
    cases hstep
    rw [givenBack_append, hback]
    by_cases hchannel : data.channelId = s.cxt.prevChannelId
    · rw [if_pos hchannel, (h.handled hchannel rot free).1.back_of_rotates ha]
    · rw [if_neg hchannel, PrevContext.prevFrameHandle_other hchannel]
      rfl
  | release index free =>
    cases hstep
    rw [PrevContext.cmrPreviewReleaseFrame_rotated h.previewing h.rotated]
    rw [append_nil, hback]

theorem Rotating.run (h : Rotating s) (hrun : Run (Next next) s as t) : Rotating t :=
  hrun.invariant (I := fun _ t => Rotating t) h fun _ _ _ _ ht hstep => ht.after hstep

theorem Started.back_run (h : Started s) (hrun : Run (Next next) s as t)
    (has : ∀ a ∈ as, a.Rotated) : givenBack t.calls = t.received := by
  induction hrun with
  | nil => rw [h.calls, h.received]; rfl
  | snoc hrun hstep ih =>
    have hback := ih fun a ha => has a (mem_append_left _ ha)
    exact (h.rotating.run hrun).back_next hback
      (has _ (mem_append_right _ mem_cons_self)) hstep

/-- While no rotation fails, the channel has every frame back once and in order; no frame is rotated
into a buffer the application has; and one that is not skipped is dropped only when its rotation
fails or every buffer is locked. -/
theorem rotation_frames_returned (h : Started s) (hrun : Run (Next next) s as t) :
    ((∀ a ∈ as, a.Rotated) → givenBack t.calls = t.received) ∧
      ∀ data rot, ∀ free, data.channelId = t.cxt.prevChannelId →
        (∀ i ∈ targets (t.cxt.prevFrameHandle data rot free).2.2, t.held i = false) ∧
        (¬ Skipped t.cxt data → free = .success →
          shown (t.cxt.prevFrameHandle data rot free).2.2 = [] →
            ¬ Rotates data rot ∨ ∀ i, t.cxt.prevRotFrmIsLock i = true) := by
  refine ⟨h.back_run hrun, ?_⟩
  intro data rot free hchannel
  have hrotating := h.rotating.run hrun
  obtain ⟨hhandled, -⟩ := hrotating.handled hchannel rot free
  refine ⟨fun i hi => hhandled.target_free hi, ?_⟩
  intro hskip hfree hnone
  rw [hrotating.locked]
  rcases hhandled.dropped hnone with h | h | h
  · exact absurd h hskip
  · exact absurd hfree h
  · exact h

def turned (skipMode : ImgSkipMode) : Preview where
  cxt :=
    { previewEb := true, prevRot := .angle90, previewSize := (640, 480), isSupportFd := false,
      isFdOn := false, prevStatus := .previewing, skipMode := skipMode, prevSkipNum := 1,
      prevChannelId := 0, prevFrmCnt := 0, restartTimestamp := 0, restartSkipCnt := 0,
      restartSkipEn := false, prevBufId := 0, prevFrm := fun _ => ⟨0, 0⟩, prevRotIndex := 0,
      prevRotFrmIsLock := fun _ => false, prevRotFrm := fun _ => ⟨0, 0⟩, prevMemNum := 16 }
  received := []
  calls := []
  held := fun _ => false

theorem turned_started (skipMode : ImgSkipMode) : Started (turned skipMode) :=
  ⟨rfl, rfl, ImgAngle.noConfusion, fun _ => rfl, rfl, rfl, rfl, fun _ => rfl⟩

theorem two_frames_returned : ∃ t,
    Run (Next next) (turned .hw)
      [.frame ⟨0, 0x1000, 0, 0⟩ .success .success, .release 0 .success,
        .frame ⟨0, 0x1001, 0, 33⟩ .success .success] t ∧
      t.received = [(0, 0x1000), (0, 0x1001)] ∧ givenBack t.calls = t.received := by
  refine exists_run_imp (P := fun t => t.received = [(0, 0x1000), (0, 0x1001)]) ?_ (by decide)
  intro t hrun hreceived
  refine ⟨hreceived, (rotation_frames_returned (turned_started .hw) hrun).1 ?_⟩
  intro a ha
  simp only [mem_cons, not_mem_nil, or_false] at ha
  rcases ha with rfl | rfl | rfl
  · exact ⟨by decide, rfl⟩
  · trivial
  · exact ⟨by decide, rfl⟩

/-- A frame whose rotation fails never goes back to the channel; and one that software skipping
takes is dropped though every buffer is free. -/
theorem unrotated_frame_kept :
    (∃ t, Run (Next next) (turned .hw) [.frame ⟨0, 0x1000, 0, 0⟩ .fail .success] t ∧
      t.received = [(0, 0x1000)] ∧ givenBack t.calls = []) ∧
    Rotates ⟨0, 0x1000, 0, 0⟩ .success ∧ (∀ i, (turned .sw).cxt.prevRotFrmIsLock i = false) ∧
      shown ((turned .sw).cxt.prevFrameHandle ⟨0, 0x1000, 0, 0⟩ .success .success).2.2 = [] := by
  refine ⟨?_, ⟨by decide, rfl⟩, fun _ => rfl, by decide⟩
  exact exists_run_of_exec (by decide)

end Preview

end SprdVendor.LibCamera
