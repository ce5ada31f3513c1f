import Mathlib

namespace SprdVendor.LibCamera
open List

structure Zone where
  x : UInt16
  y : UInt16
  w : UInt16
  h : UInt16
deriving DecidableEq

structure Trim where
  startX : UInt16
  startY : UInt16
  width : UInt16
  height : UInt16
deriving DecidableEq

inductive FocusMode where
  | auto
  | autoMulti
  | macroFocus
  | infinity
  | caf
  | cafVideo
deriving DecidableEq

inductive FocusParam where
  | none
  | trig
  | zone
  | multiZone
  | macroFocus
deriving DecidableEq

/-- A `SENSOR_EXT_FUN_PARAM_T` with the zones that were set; `zone_cnt` of them are passed on. The
command is `SENSOR_EXT_FOCUS_START` or nothing. -/
structure ExtFunParam where
  start : Bool
  param : FocusParam
  zoneCnt : Nat
  zone : List Zone
deriving DecidableEq

def ExtFunParam.passed (p : ExtFunParam) : List Zone := p.zone.take p.zoneCnt

/-- `af_check_area` for one zone, without a trim rectangle when the sensor does not tell it. That the
zone begins in the trim rectangle is not looked at. -/
def afCheckArea (trim : Option Trim) (z : Zone) : Bool :=
  match trim with
  | none => false
  | some t =>
    ¬ (z.w = 0 ∨ z.h = 0 ∨ z.w > t.width ∨ z.h > t.height ∨
      z.x.toNat + z.w.toNat > t.startX.toNat + t.width.toNat ∨
      z.y.toNat + z.h.toNat > t.startY.toNat + t.height.toNat)

def zoneAt (block : Nat → UInt32) (i : Nat) : Zone :=
  ⟨(block (4 * i + 1)).toUInt16, (block (4 * i + 2)).toUInt16, (block (4 * i + 3)).toUInt16,
    (block (4 * i + 4)).toUInt16⟩

def focusZoneCntMax : Nat := 6

def focusRectParse (mode : FocusMode) (block : Nat → UInt32) (trim : Option Trim) : ExtFunParam :=
  let zoneCnt := (block 0).toNat
  let first := zoneAt block 0
  let ok := afCheckArea trim first
  match mode with
  | .auto =>
    if zoneCnt = 0 then ⟨true, .trig, 0, []⟩ else ⟨true, .trig, if ok then 1 else 0, [first]⟩
  | .autoMulti | .caf | .cafVideo =>
    if zoneCnt = 0 then ⟨true, .trig, 0, []⟩
    else if zoneCnt = 1 then
      if ok then ⟨true, .zone, 1, [first]⟩ else ⟨true, .trig, 0, [first]⟩
    else if zoneCnt ≤ focusZoneCntMax then
      let zones := (List.range zoneCnt).map (zoneAt block)
      if ok then ⟨true, .multiZone, zoneCnt, zones⟩ else ⟨true, .trig, 0, zones⟩
    else ⟨false, .none, 0, []⟩
  | .macroFocus => ⟨true, .macroFocus, if ok then 1 else 0, [first]⟩
  | .infinity => ⟨false, .none, 0, []⟩

structure PosRect where
  startX : UInt32
  startY : UInt32
  endX : UInt32
  endY : UInt32
deriving DecidableEq

def Zone.window (z : Zone) : PosRect :=
  ⟨z.x.toUInt32, z.y.toUInt32, z.x.toUInt32 + z.w.toUInt32 - 1, z.y.toUInt32 + z.h.toUInt32 - 1⟩

def focusRectParamToIsp (p : ExtFunParam) : List PosRect := p.passed.map Zone.window

structure Zone.In (z : Zone) (t : Trim) : Prop where
  width : 0 < z.w
  height : 0 < z.h
  left : t.startX ≤ z.x
  top : t.startY ≤ z.y
  right : z.x.toNat + z.w.toNat ≤ t.startX.toNat + t.width.toNat
  bottom : z.y.toNat + z.h.toNat ≤ t.startY.toNat + t.height.toNat

structure PosRect.In (r : PosRect) (t : Trim) : Prop where
  ordered_x : r.startX ≤ r.endX
  ordered_y : r.startY ≤ r.endY
  left : t.startX.toNat ≤ r.startX.toNat
  top : t.startY.toNat ≤ r.startY.toNat
  right : r.endX.toNat < t.startX.toNat + t.width.toNat
  bottom : r.endY.toNat < t.startY.toNat + t.height.toNat

theorem in_of_afCheckArea (h : afCheckArea trim z = true)
    (hstart : ∀ t, trim = some t → t.startX ≤ z.x ∧ t.startY ≤ z.y) :
    ∃ t, trim = some t ∧ z.In t := by
  cases trim with
  | none => cases h
  | some t =>
    simp only [afCheckArea, decide_eq_true_eq, not_or, not_lt] at h
    obtain ⟨hw, hh, -, -, hx, hy⟩ := h
    obtain ⟨hleft, htop⟩ := hstart t rfl
    exact ⟨t, rfl, UInt16.pos_iff_ne_zero.2 hw, UInt16.pos_iff_ne_zero.2 hh, hleft, htop, hx, hy⟩

theorem passed_cases (mode : FocusMode) (block : Nat → UInt32) (trim : Option Trim) :
    (focusRectParse mode block trim).passed = [] ∨
      afCheckArea trim (zoneAt block 0) = true ∧
        ∃ zs, (focusRectParse mode block trim).passed = zoneAt block 0 :: zs := by
  have hone (p : FocusParam) (ok : Bool) (z : Zone) :
      (⟨true, p, if ok then 1 else 0, [z]⟩ : ExtFunParam).passed = [] ∨
        ok = true ∧ ∃ zs, (⟨true, p, if ok then 1 else 0, [z]⟩ : ExtFunParam).passed = z :: zs := by
    cases ok with
    | false => exact .inl rfl
    | true => exact .inr ⟨rfl, [], rfl⟩
  have hmulti : (focusRectParse .autoMulti block trim).passed = [] ∨
      afCheckArea trim (zoneAt block 0) = true ∧
        ∃ zs, (focusRectParse .autoMulti block trim).passed = zoneAt block 0 :: zs := by
    rw [focusRectParse]
    split
    · exact .inl rfl
    split
    · split
      case isTrue hok => exact .inr ⟨hok, [], rfl⟩
      · exact .inl rfl
    split
    · split
      case isTrue hone hmax hok =>
        obtain ⟨n, hn⟩ := Nat.exists_eq_succ_of_ne_zero ‹¬ (block 0).toNat = 0›
        refine .inr ⟨hok, (List.range n).map (zoneAt block ∘ Nat.succ), ?_⟩
        rw [ExtFunParam.passed, hn, range_succ_eq_map, map_cons, map_map,
          take_of_length_le (by simp)]
      · exact .inl rfl
    · exact .inl rfl
  cases mode with
  | auto =>
    rw [focusRectParse]
    split
    · exact .inl rfl
    · exact hone _ _ _
  | macroFocus => exact hone _ _ _
  | infinity => exact .inl rfl
  | _ => exact hmulti

theorem toNat_window_end {x w : UInt16} (h : 0 < w) :
    (x.toUInt32 + w.toUInt32 - 1).toNat = x.toNat + w.toNat - 1 := by
  have hx := x.toNat_lt
  have hw := w.toNat_lt
  have hpos : 0 < w.toNat := UInt16.lt_iff_toNat_lt.1 h
  have hsum : (x.toUInt32 + w.toUInt32).toNat = x.toNat + w.toNat := by
    rw [UInt32.toNat_add, UInt16.toNat_toUInt32, UInt16.toNat_toUInt32]
    omega
  have hone : (1 : UInt32) ≤ x.toUInt32 + w.toUInt32 := by
    rw [UInt32.le_iff_toNat_le, hsum]
    exact Nat.le_add_left_of_le hpos
  rw [UInt32.toNat_sub_of_le _ _ hone, hsum]
  rfl

theorem window_in {z : Zone} (h : z.In t) : z.window.In t := by
  have hx := toNat_window_end h.width (x := z.x)
  have hy := toNat_window_end h.height (x := z.y)
  have hw : 0 < z.w.toNat := UInt16.lt_iff_toNat_lt.1 h.width
  have hh : 0 < z.h.toNat := UInt16.lt_iff_toNat_lt.1 h.height
  have hright := h.right
  have hbottom := h.bottom
  refine ⟨?_, ?_, UInt16.le_iff_toNat_le.1 h.left, UInt16.le_iff_toNat_le.1 h.top, ?_, ?_⟩
  · rw [UInt32.le_iff_toNat_le]
    simp only [Zone.window, hx, UInt16.toNat_toUInt32]
    omega
  · rw [UInt32.le_iff_toNat_le]
    simp only [Zone.window, hy, UInt16.toNat_toUInt32]
    omega
  · simp only [Zone.window, hx]
    omega
  · simp only [Zone.window, hy]
    omega

def blockOf (words : List UInt32) (i : Nat) : UInt32 := words.getD i 0

end SprdVendor.LibCamera
