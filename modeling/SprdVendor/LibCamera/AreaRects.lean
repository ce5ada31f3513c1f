import SprdVendor.LibCamera.FocusAreas

namespace SprdVendor.LibCamera
open Lib List

/-- The preview rectangle has no negative number, and the products and sums of its coordinates are
values of an `int`. -/
structure PreviewRect.Fits (rect : PreviewRect) : Prop where
  x : 0 ≤ rect.x
  y : 0 ≤ rect.y
  width : 0 ≤ rect.width
  height : 0 ≤ rect.height
  wide : 2000 * rect.width < 2 ^ 31
  high : 2000 * rect.height < 2 ^ 31
  right : rect.x + rect.width < 2 ^ 31
  bottom : rect.y + rect.height < 2 ^ 31

def Ordered : List Int → Prop
  | left :: top :: right :: bottom :: _ =>
    -1000 ≤ left ∧ left ≤ right ∧ right ≤ 1000 ∧ -1000 ≤ top ∧ top ≤ bottom ∧ bottom ≤ 1000
  | _ => False

structure Inside (rect : PreviewRect) (x y w h : Int) : Prop where
  left : rect.x ≤ x
  top : rect.y ≤ y
  width : 0 ≤ w
  height : 0 ≤ h
  right : x + w ≤ rect.x + rect.width
  bottom : y + h ≤ rect.y + rect.height

theorem toInt_of_range (h₁ : -2 ^ 31 ≤ v) (h₂ : v < 2 ^ 31) : toInt v = v := by
  apply Int.bmod_eq_of_le <;> omega

theorem convertCoordinate_eq (hv : -1000 ≤ v ∧ v ≤ 1000) (hsize : 0 ≤ size) (hbig : 2000 * size < 2 ^ 31)
    (horigin : 0 ≤ origin) (hend : origin + size < 2 ^ 31) :
    convertCoordinate v size origin = (1000 + v) * size / 2000 + origin := by
  have hle : (1000 + v) * size ≤ 2000 * size := Int.mul_le_mul_of_nonneg_right (by omega) hsize
  have hnonneg : 0 ≤ (1000 + v) * size := Int.mul_nonneg (by omega) hsize
  have hdiv : (1000 + v) * size / 2000 ≤ size := by omega
  have hsum : toInt (1000 + v) = 1000 + v := toInt_of_range (by omega) (by omega)
  have hproduct : toInt ((1000 + v) * size) = (1000 + v) * size :=
    toInt_of_range (by omega) (by omega)
  rw [convertCoordinate, hsum, hproduct, Int.tdiv_eq_ediv_of_nonneg hnonneg]
  apply toInt_of_range
  · omega
  · omega

theorem convert_edges (hsize : 0 ≤ size) (hbig : 2000 * size < 2 ^ 31) (horigin : 0 ≤ origin)
    (hend : origin + size < 2 ^ 31) (h : -1000 ≤ low ∧ low ≤ high ∧ high ≤ 1000) :
    origin ≤ convertCoordinate low size origin ∧
      0 ≤ toInt (convertCoordinate high size origin - convertCoordinate low size origin) ∧
      convertCoordinate low size origin +
        toInt (convertCoordinate high size origin - convertCoordinate low size origin) ≤
          origin + size := by
  have hlow : 0 ≤ (1000 + low) * size := Int.mul_nonneg (by omega) hsize
  have hmid : (1000 + low) * size ≤ (1000 + high) * size :=
    Int.mul_le_mul_of_nonneg_right (by omega) hsize
  have hhigh : (1000 + high) * size ≤ 2000 * size :=
    Int.mul_le_mul_of_nonneg_right (by omega) hsize
  rw [convertCoordinate_eq (by omega) hsize hbig horigin hend,
    convertCoordinate_eq (by omega) hsize hbig horigin hend]
  have hdiff : toInt ((1000 + high) * size / 2000 + origin - ((1000 + low) * size / 2000 + origin)) =
      (1000 + high) * size / 2000 - (1000 + low) * size / 2000 := by
    rw [toInt_of_range]
    · omega
    · omega
    · omega
  rw [hdiff]
  omega

theorem getElem?_flatten {areas : List (List Int)} (h : ∀ area ∈ areas, area.length = n)
    (hi : areas[i]? = some area) (hj : j < n) : areas.flatten[i * n + j]? = area[j]? := by
  induction areas generalizing i with
  | nil => cases hi
  | cons area' areas ih =>
    rw [forall_mem_cons] at h
    rw [flatten_cons]
    cases i with
    | zero =>
      cases hi
      rw [zero_mul, zero_add, getElem?_append_left (by omega)]
    | succ i =>
      have hshift : (i + 1) * n + j - area'.length = i * n + j := by
        rw [h.1, Nat.succ_mul]
        omega
      rw [getElem?_append_right (by rw [h.1, Nat.succ_mul]; omega), hshift]
      exact ih h.2 hi

theorem getElem?_areaArray {areas : List (List Int)} (h : ∀ area ∈ areas, area.length = n)
    (hi : areas[i]? = some area) (hj : j < n) : (areaArray size areas)[i * n + j]? = area[j]? := by
  have hget := getElem?_flatten h hi hj
  have hlen := h area (mem_of_getElem? hi)
  rw [getElem?_eq_getElem (by omega : j < area.length)] at hget
  rw [areaArray, List.getElem?_append_left (List.getElem?_eq_some_iff.1 hget).1, hget,
    getElem?_eq_getElem]

theorem readArray_eq {arr : List Int} (h : readArray arr i = .ok v) : arr[i]? = some v := by
  rw [readArray] at h
  split at h
  case h_1 heq =>
    cases h
    exact heq
  · cases h

theorem chekLoop_accepts (h : chekLoop arr is = .ok 0) (hi : i ∈ is) :
    ∃ left top right bottom weight, arr[i * 5]? = some left ∧ arr[i * 5 + 1]? = some top ∧
      arr[i * 5 + 2]? = some right ∧ arr[i * 5 + 3]? = some bottom ∧ arr[i * 5 + 4]? = some weight ∧
      badArea left top right bottom weight = false := by
  induction is with
  | nil => cases hi
  | cons i' is ih =>
    simp only [chekLoop, bind, Except.bind] at h
    cases hl : readArray arr (i' * 5) with
    | error e => simp only [hl] at h; cases h
    | ok left =>
      cases ht : readArray arr (i' * 5 + 1) with
      | error e => simp only [hl, ht] at h; cases h
      | ok top =>
        cases hr : readArray arr (i' * 5 + 2) with
        | error e => simp only [hl, ht, hr] at h; cases h
        | ok right =>
          cases hb : readArray arr (i' * 5 + 3) with
          | error e => simp only [hl, ht, hr, hb] at h; cases h
          | ok bottom =>
            cases hw : readArray arr (i' * 5 + 4) with
            | error e => simp only [hl, ht, hr, hb, hw] at h; cases h
            | ok weight =>
              simp only [hl, ht, hr, hb, hw] at h
              split at h
              · cases h
              case isFalse hbad =>
                rcases mem_cons.1 hi with rfl | hi
                · exact ⟨left, top, right, bottom, weight, readArray_eq hl, readArray_eq ht,
                    readArray_eq hr, readArray_eq hb, readArray_eq hw, by simpa using hbad⟩
                · exact ih h hi

theorem ordered_of_not_bad (h : badArea left top right bottom weight = false)
    (hzero : (left ≠ 0 ∧ right ≠ 0 ∧ top ≠ 0 ∧ bottom ≠ 0)) :
    Ordered [left, top, right, bottom, weight] := by
  simp only [badArea, hzero, ne_eq, not_false_eq_true, and_self, true_and, decide_eq_false_iff_not,
    not_or, not_le, not_lt, ge_iff_le, gt_iff_lt] at h
  simp only [Ordered]
  omega

theorem accepted_ordered (haccept : chekFocusAreas p maxNum = .ok 0)
    (hparse : parseRect 20 p false = .ok areas)
    (hzero : ∀ area ∈ areas, (0 : Int) ∈ area.take 4 → Ordered area) (harea : area ∈ areas) :
    Ordered area := by
  obtain ⟨-, hfive⟩ := parseRect_excludeWeight hparse
  have hparse' : parseRect (4 * kFocusZoneMax) p false = .ok areas := hparse
  simp only [chekFocusAreas, bind, Except.bind, hparse'] at haccept
  split at haccept
  · cases haccept
  obtain ⟨i, hi⟩ := List.mem_iff_getElem?.1 harea
  have hlt := (List.getElem?_eq_some_iff.1 hi).1
  obtain ⟨left, top, right, bottom, weight, hl, ht, hr, hb, hw, hbad⟩ :=
    chekLoop_accepts haccept (List.mem_range.2 hlt)
  have hget {j : Nat} (hj : j < 5) := @getElem?_areaArray 5 i area j (4 * kFocusZoneMax) areas
    hfive hi hj
  have hlen := hfive area harea
  obtain ⟨l, rest, rfl⟩ := exists_cons_of_length_eq_add_one hlen
  obtain ⟨t, r, b, w, rfl⟩ := length_eq_four.1 (Nat.succ.inj hlen)
  cases (hget (j := 0) (by omega)).symm.trans hl
  cases (hget (j := 1) (by omega)).symm.trans ht
  cases (hget (j := 2) (by omega)).symm.trans hr
  cases (hget (j := 3) (by omega)).symm.trans hb
  cases (hget (j := 4) (by omega)).symm.trans hw
  by_cases hz : (0 : Int) ∈ [left, top, right, bottom]
  · exact hzero _ harea hz
  · apply ordered_of_not_bad hbad
    simp only [List.mem_cons, List.not_mem_nil, or_false, not_or] at hz
    omega

theorem getElem?_coordinateConvert {arr : List Int} (rect : PreviewRect) (hi : i < n * 4)
    (h : arr[i]? = some v) : (coordinateConvert rect arr n)[i]? =
      some (if i % 2 = 0 then convertCoordinate v rect.width rect.x
        else convertCoordinate v rect.height rect.y) := by
  rw [coordinateConvert, getElem?_mapIdx, h, Option.map_some, if_pos hi]

theorem getElem?_coordinateStructConvert (h : arr[i]? = some v)
    (hsmall : i % 4 < 2) : (coordinateStructConvert arr n)[i]? = some v := by
  rw [coordinateStructConvert, getElem?_mapIdx, h, Option.map_some, if_neg (by omega)]

theorem getElem?_coordinateStructConvert_size (hi : i + 2 < n * 4)
    (hlow : arr[i]? = some low) (h : arr[i + 2]? = some v) (hbig : (i + 2) % 4 ≥ 2) :
    (coordinateStructConvert arr n)[i + 2]? = some (toInt (v - low)) := by
  rw [coordinateStructConvert, getElem?_mapIdx, h, Option.map_some, if_pos ⟨hi, hbig⟩,
    Nat.add_sub_cancel, getD_eq_getElem?_getD, hlow]
  rfl

theorem ordered_inside (hfour : ∀ area ∈ areas, area.length = 4)
    (hi : areas[i]? = some [left, top, right, bottom])
    (hordered : Ordered [left, top, right, bottom]) (hrect : rect.Fits) :
    ∃ x y w h, (areaRects rect areas)[i * 4]? = some x ∧ (areaRects rect areas)[i * 4 + 1]? = some y ∧
      (areaRects rect areas)[i * 4 + 2]? = some w ∧ (areaRects rect areas)[i * 4 + 3]? = some h ∧
      Inside rect x y w h := by
  obtain ⟨hleft, hwidth, hright, htop, hheight, hbottom⟩ := hordered
  have hlt := (List.getElem?_eq_some_iff.1 hi).1
  have hget {j : Nat} (hj : j < 4) := @getElem?_areaArray 4 i [left, top, right, bottom] j
    (4 * kFocusZoneMax) areas hfour hi hj
  have hconvert {j : Nat} {v : Int} (hj : j < 4) (hv : [left, top, right, bottom][j]? = some v) :=
    @getElem?_coordinateConvert (i * 4 + j) areas.length v _ rect (by omega)
      ((hget hj).trans hv)
  have hx := hconvert (j := 0) (by omega) rfl
  have hy := hconvert (j := 1) (by omega) rfl
  have hw := hconvert (j := 2) (by omega) rfl
  have hh := hconvert (j := 3) (by omega) rfl
  rw [if_pos (by omega)] at hx hw
  rw [if_neg (by omega)] at hy hh
  obtain ⟨hx₁, hx₂, hx₃⟩ := convert_edges hrect.width hrect.wide hrect.x hrect.right
    ⟨hleft, hwidth, hright⟩
  obtain ⟨hy₁, hy₂, hy₃⟩ := convert_edges hrect.height hrect.high hrect.y hrect.bottom
    ⟨htop, hheight, hbottom⟩
  exact ⟨_, _, _, _, getElem?_coordinateStructConvert hx (by omega),
    getElem?_coordinateStructConvert hy (by omega),
    getElem?_coordinateStructConvert_size (by omega) hx hw (by omega),
    getElem?_coordinateStructConvert_size (by omega) hy hh (by omega), hx₁, hy₁, hx₂, hy₂, hx₃, hy₃⟩

def vga : PreviewRect := ⟨0, 0, 640, 480⟩

end SprdVendor.LibCamera
