import Ws2812Strip.StripIndex

/-!
# Orientation of a device

`IRotatablePaintDevice` keeps the physical size, the logical size and the installed rotate helper
in separate fields; `setRotate` sets the last two in four hand-written cases.

* `Wf`: the fields fit together. `make_wf` and `setRotate_wf` say that construction establishes it
  and that every call of `setRotate` keeps it, a rejected call included.
* `Wf.index_ok`, `Wf.bijOn_cell`: then `index` addresses the LEDs of the device one to one.
* `Oriented` asks less: a device whose number of LEDs is no `int` has orientations too.
-/

namespace Ws2812

open Grid

/-- The fields of `IPaintDevice` and `IRotatablePaintDevice`. The references that `rotate_helper_`
holds are to `width_` and `height_` of the device that made it, which is the device itself as
long as it is not copied (`PixmapHeap` has the copies). -/
structure IRotatablePaintDevice where
  transparent_ : Bool
  back : LedColor
  rotateHelper_ : StripRotateHelper
  width_ : Int
  height_ : Int
  logicWidth_ : Int
  logicHeight_ : Int
  deriving DecidableEq, Repr

namespace IRotatablePaintDevice

/-- The constructor. -/
def make (w h : Int) (back : LedColor) : IRotatablePaintDevice where
  transparent_ := false
  back := back
  rotateHelper_ := ⟨.d0, false, false⟩
  width_ := w
  height_ := h
  logicWidth_ := w
  logicHeight_ := h

def width (r : IRotatablePaintDevice) : Int := r.logicWidth_

def height (r : IRotatablePaintDevice) : Int := r.logicHeight_

def index (layout : StripIndexType) (r : IRotatablePaintDevice) (x y : Int) : Except Fault Int :=
  r.rotateHelper_.index layout r.width_ r.height_ x y

/-- `std::make_shared<StripRotateHelper<StripIndexType, degree, flip_x, flip_y>>`, with the flags
turned into template arguments. -/
def makeShared (degree : RotateDegree) (flipX flipY : Bool) : StripRotateHelper :=
  if flipX then
    if flipY then ⟨degree, true, true⟩ else ⟨degree, true, false⟩
  else
    if flipY then ⟨degree, false, true⟩ else ⟨degree, false, false⟩

/-- `set_rotate`. -/
def setRotate (degree : Int) (flipX flipY : Bool) : Prog IRotatablePaintDevice Fault Unit :=
  if degree = 0 then
    .modify fun r => { r with
      rotateHelper_ := makeShared .d0 flipX flipY
      logicWidth_ := r.width_
      logicHeight_ := r.height_ }
  else if degree = 90 then
    .modify fun r => { r with
      rotateHelper_ := makeShared .d90 flipX flipY
      logicWidth_ := r.height_
      logicHeight_ := r.width_ }
  else if degree = 180 then
    .modify fun r => { r with
      rotateHelper_ := makeShared .d180 flipX flipY
      logicWidth_ := r.width_
      logicHeight_ := r.height_ }
  else if degree = 270 then
    .modify fun r => { r with
      rotateHelper_ := makeShared .d270 flipX flipY
      logicWidth_ := r.height_
      logicHeight_ := r.width_ }
  else .stop (.invalidArgument "IRotatablePaintDevice::set_rotate")

@[simp] theorem makeShared_eq (degree : RotateDegree) (flipX flipY : Bool) :
    makeShared degree flipX flipY = ⟨degree, flipX, flipY⟩ := by
  cases flipX <;> cases flipY <;> rfl

/-- The size and the orientation fit together. -/
structure Wf (r : IRotatablePaintDevice) : Prop where
  width_pos : 0 < r.width_
  height_pos : 0 < r.height_
  area_le : r.width_ * r.height_ ≤ INT_MAX
  size_eq : (r.width, r.height) = r.rotateHelper_.logicalSize r.width_ r.height_

/-- The sides are `int`s, and the logical size is the one of the installed helper. -/
structure Oriented (r : IRotatablePaintDevice) : Prop where
  width_side : 1 ≤ r.width_ ∧ r.width_ ≤ INT_MAX
  height_side : 1 ≤ r.height_ ∧ r.height_ ≤ INT_MAX
  size_eq : (r.width, r.height) = r.rotateHelper_.logicalSize r.width_ r.height_

/-- The logical coordinates of the device. -/
def logical (r : IRotatablePaintDevice) : Set (Int × Int) := rect r.width r.height

instance (r : IRotatablePaintDevice) : DecidablePred (· ∈ r.logical) :=
  inferInstanceAs (DecidablePred (· ∈ rect r.width r.height))

/-- The physical point of a logical coordinate. -/
def point (r : IRotatablePaintDevice) : Int × Int → Int × Int :=
  r.rotateHelper_.point r.width_ r.height_

/-- The cell of a logical coordinate. -/
def cell (layout : StripIndexType) (r : IRotatablePaintDevice) (p : Int × Int) : Int :=
  layout.cell r.width_ (r.point p)

namespace Oriented

variable {r : IRotatablePaintDevice}

theorem logical_eq (hr : r.Oriented) :
    r.logical = r.rotateHelper_.logicalRect r.width_ r.height_ := by
  unfold logical StripRotateHelper.logicalRect
  rw [← hr.size_eq]

theorem bijOn_point (hr : r.Oriented) :
    Set.BijOn r.point r.logical (rect r.width_ r.height_) := by
  rw [hr.logical_eq]
  exact Ws2812.bijOn_point _ _ _

/-- The physical point of a pixel is computed without overflow. -/
theorem unrotate_ok (hr : r.Oriented) {p : Int × Int} (hp : p ∈ r.logical) :
    r.rotateHelper_.unrotate r.width_ r.height_ p.1 p.2 = .ok (r.point p) := by
  rw [hr.logical_eq] at hp
  exact Ws2812.unrotate_ok _ hr.width_side.2 hr.height_side.2 hp

theorem index_eq_ok_iff (hr : r.Oriented) (layout : StripIndexType) {p : Int × Int}
    (hp : p ∈ r.logical) {k : Int} :
    r.index layout p.1 p.2 = .ok k ↔ r.cell layout p = k ∧ k ≤ INT_MAX := by
  unfold index StripRotateHelper.index
  rw [hr.unrotate_ok hp]
  exact layout.index_eq_ok_iff hr.width_side.2 (hr.bijOn_point.mapsTo hp)

theorem bijOn_cell (hr : r.Oriented) (layout : StripIndexType) :
    Set.BijOn (r.cell layout) r.logical (below (r.width_ * r.height_)) :=
  (Ws2812.bijOn_cell layout hr.width_side.1 r.height_).comp hr.bijOn_point

end Oriented

namespace Wf

variable {r : IRotatablePaintDevice}

theorem width_eq (h : r.Wf) : r.width = (r.rotateHelper_.logicalSize r.width_ r.height_).1 :=
  congrArg Prod.fst h.size_eq

theorem height_eq (h : r.Wf) : r.height = (r.rotateHelper_.logicalSize r.width_ r.height_).2 :=
  congrArg Prod.snd h.size_eq

theorem side_le (h : r.Wf) : r.width_ ≤ INT_MAX ∧ r.height_ ≤ INT_MAX := by
  obtain ⟨h1, h2⟩ := side_le_area h.width_pos h.height_pos
  exact ⟨h1.trans h.area_le, h2.trans h.area_le⟩

theorem oriented (h : r.Wf) : r.Oriented :=
  ⟨⟨h.width_pos, h.side_le.1⟩, ⟨h.height_pos, h.side_le.2⟩, h.size_eq⟩

theorem logical_eq (h : r.Wf) : r.logical = r.rotateHelper_.logicalRect r.width_ r.height_ :=
  h.oriented.logical_eq

/-- The logical sides are the physical ones, in one of the two orders. -/
theorem size_cases (h : r.Wf) :
    (r.width = r.width_ ∧ r.height = r.height_) ∨ (r.width = r.height_ ∧ r.height = r.width_) := by
  have hw := h.width_eq
  have hh := h.height_eq
  unfold StripRotateHelper.logicalSize at hw hh
  cases hd : r.rotateHelper_.rotateDegree <;> rw [hd] at hw hh <;> simp_all

theorem area_eq (h : r.Wf) : r.width * r.height = r.width_ * r.height_ := by
  rcases h.size_cases with ⟨h1, h2⟩ | ⟨h1, h2⟩
  · rw [h1, h2]
  · rw [h1, h2, Int.mul_comm]

theorem logical_side (h : r.Wf) :
    (0 < r.width ∧ r.width ≤ INT_MAX) ∧ 0 < r.height ∧ r.height ≤ INT_MAX := by
  have h1 := h.width_pos
  have h2 := h.height_pos
  have h3 := h.side_le
  rcases h.size_cases with ⟨e1, e2⟩ | ⟨e1, e2⟩ <;> omega

/-- The orientation turns the logical rectangle onto the physical one. -/
theorem bijOn_point (h : r.Wf) : Set.BijOn r.point r.logical (rect r.width_ r.height_) :=
  h.oriented.bijOn_point

theorem point_mem (h : r.Wf) {p : Int × Int} (hp : p ∈ r.logical) :
    r.point p ∈ rect r.width_ r.height_ := h.bijOn_point.mapsTo hp

/-- `index` numbers the logical coordinates with the cells of the buffer, one to one. -/
theorem bijOn_cell (h : r.Wf) (layout : StripIndexType) :
    Set.BijOn (r.cell layout) r.logical (below (r.width_ * r.height_)) :=
  h.oriented.bijOn_cell layout

/-- `index` on the device: no operation overflows, and the result is `cell`. -/
theorem index_ok (h : r.Wf) (layout : StripIndexType) {p : Int × Int} (hp : p ∈ r.logical) :
    r.index layout p.1 p.2 = .ok (r.cell layout p) := by
  obtain ⟨-, hlt⟩ := mem_below.mp ((h.bijOn_cell layout).mapsTo hp)
  exact (h.oriented.index_eq_ok_iff layout hp).mpr ⟨rfl, hlt.le.trans h.area_le⟩

/-- Other fields of the same physical size. -/
theorem of_size {r' : IRotatablePaintDevice} (h : r.Wf) (hw : r'.width_ = r.width_)
    (hh : r'.height_ = r.height_)
    (hsize : (r'.width, r'.height) = r'.rotateHelper_.logicalSize r'.width_ r'.height_) :
    r'.Wf where
  width_pos := hw ▸ h.width_pos
  height_pos := hh ▸ h.height_pos
  area_le := by
    rw [hw, hh]
    exact h.area_le
  size_eq := hsize

end Wf

theorem make_wf {w h : Int} (hw : 1 ≤ w) (hh : 1 ≤ h) (hfit : w * h ≤ INT_MAX)
    (back : LedColor) : (make w h back).Wf where
  width_pos := hw
  height_pos := hh
  area_le := hfit
  size_eq := rfl

theorem make_oriented {w h : Int} (hw : 1 ≤ w ∧ w ≤ INT_MAX) (hh : 1 ≤ h ∧ h ≤ INT_MAX)
    (back : LedColor) : (make w h back).Oriented := ⟨hw, hh, rfl⟩

/-- What a call of `set_rotate` does: it installs a helper and the logical size that goes with
it, or it throws and changes nothing. -/
theorem setRotate_cases (degree : Int) (flipX flipY : Bool) (r : IRotatablePaintDevice) :
    (∃ d : RotateDegree, (setRotate degree flipX flipY).run r = (.ok (), { r with
        rotateHelper_ := ⟨d, flipX, flipY⟩
        logicWidth_ := (StripRotateHelper.logicalSize ⟨d, flipX, flipY⟩ r.width_ r.height_).1
        logicHeight_ := (StripRotateHelper.logicalSize ⟨d, flipX, flipY⟩ r.width_ r.height_).2 }))
    ∨ (setRotate degree flipX flipY).run r =
        (.error (.invalidArgument "IRotatablePaintDevice::set_rotate"), r) := by
  unfold setRotate
  split
  · exact .inl ⟨.d0, by simp [StripRotateHelper.logicalSize]⟩
  split
  · exact .inl ⟨.d90, by simp [StripRotateHelper.logicalSize]⟩
  split
  · exact .inl ⟨.d180, by simp [StripRotateHelper.logicalSize]⟩
  split
  · exact .inl ⟨.d270, by simp [StripRotateHelper.logicalSize]⟩
  · exact .inr rfl

/-- `set_rotate` keeps everything but the helper and the logical size. -/
theorem setRotate_frame (degree : Int) (flipX flipY : Bool) (r : IRotatablePaintDevice) :
    ((setRotate degree flipX flipY).run r).2.width_ = r.width_ ∧
    ((setRotate degree flipX flipY).run r).2.height_ = r.height_ ∧
    ((setRotate degree flipX flipY).run r).2.transparent_ = r.transparent_ ∧
    ((setRotate degree flipX flipY).run r).2.back = r.back := by
  rcases setRotate_cases degree flipX flipY r with ⟨d, h⟩ | h <;> rw [h] <;> simp

/-- The logical size stays the one of the installed helper. -/
theorem setRotate_size_eq {r : IRotatablePaintDevice}
    (h : (r.width, r.height) = r.rotateHelper_.logicalSize r.width_ r.height_) (degree : Int)
    (flipX flipY : Bool) {r' : IRotatablePaintDevice}
    (hr' : r' = ((setRotate degree flipX flipY).run r).2) :
    (r'.width, r'.height) = r'.rotateHelper_.logicalSize r'.width_ r'.height_ := by
  subst hr'
  rcases setRotate_cases degree flipX flipY r with ⟨d, he⟩ | he
  · rw [he]
    rfl
  · rw [he]
    exact h

theorem setRotate_wf {r : IRotatablePaintDevice} (h : r.Wf) (degree : Int) (flipX flipY : Bool) :
    ((setRotate degree flipX flipY).run r).2.Wf := by
  obtain ⟨hw, hh, -⟩ := setRotate_frame degree flipX flipY r
  exact h.of_size hw hh (setRotate_size_eq h.size_eq degree flipX flipY rfl)

/-- The device after a sequence of `set_rotate(degree, flip_x, flip_y)` calls, those that throw
included. -/
def afterRotates : List (Int × Bool × Bool) → IRotatablePaintDevice → IRotatablePaintDevice
  | [], r => r
  | (degree, flipX, flipY) :: calls, r =>
    afterRotates calls ((setRotate degree flipX flipY).run r).2

theorem afterRotates_size (calls : List (Int × Bool × Bool)) (r : IRotatablePaintDevice) :
    (afterRotates calls r).width_ = r.width_ ∧ (afterRotates calls r).height_ = r.height_ := by
  induction calls generalizing r with
  | nil => exact ⟨rfl, rfl⟩
  | cons call calls ih =>
    obtain ⟨h1, h2⟩ := ih ((setRotate call.1 call.2.1 call.2.2).run r).2
    obtain ⟨e1, e2, -⟩ := setRotate_frame call.1 call.2.1 call.2.2 r
    exact ⟨h1.trans e1, h2.trans e2⟩

theorem afterRotates_size_eq (calls : List (Int × Bool × Bool)) {r : IRotatablePaintDevice}
    (h : (r.width, r.height) = r.rotateHelper_.logicalSize r.width_ r.height_)
    {r' : IRotatablePaintDevice} (hr' : r' = afterRotates calls r) :
    (r'.width, r'.height) = r'.rotateHelper_.logicalSize r'.width_ r'.height_ := by
  induction calls generalizing r with
  | nil =>
    subst hr'
    exact h
  | cons call calls ih => exact ih (setRotate_size_eq h _ _ _ rfl) hr'

theorem afterRotates_wf (calls : List (Int × Bool × Bool)) {r : IRotatablePaintDevice}
    (h : r.Wf) : (afterRotates calls r).Wf := by
  obtain ⟨hw, hh⟩ := afterRotates_size calls r
  exact h.of_size hw hh (afterRotates_size_eq calls h.size_eq rfl)

theorem afterRotates_oriented (calls : List (Int × Bool × Bool)) {r : IRotatablePaintDevice}
    (h : r.Oriented) : (afterRotates calls r).Oriented := by
  obtain ⟨hw, hh⟩ := afterRotates_size calls r
  refine ⟨?_, ?_, afterRotates_size_eq calls h.size_eq rfl⟩
  · rw [hw]
    exact h.width_side
  · rw [hh]
    exact h.height_side

/-- **Orientation.** After any sequence of `set_rotate` calls the logical size is the one of the
installed helper, it has as many points as the device has LEDs, and `index` is defined on every
logical coordinate, with no overflow on the way, and numbers them one to one with
`0, ..., w * h - 1`. -/
theorem afterRotates_addressing (layout : StripIndexType) (back : LedColor) {w h : Int}
    (hw : 1 ≤ w) (hh : 1 ≤ h) (hfit : w * h < 2 ^ 31) (calls : List (Int × Bool × Bool))
    {r : IRotatablePaintDevice} (hr : r = afterRotates calls (make w h back)) :
    (r.width, r.height) = r.rotateHelper_.logicalSize w h ∧
    r.width * r.height = w * h ∧
    ∃ f : Int × Int → Int,
      (∀ x y, 0 ≤ x ∧ x < r.width → 0 ≤ y ∧ y < r.height → r.index layout x y = .ok (f (x, y))) ∧
      Set.BijOn f (rect r.width r.height) (below (w * h)) := by
  have hm : (make w h back).Wf := make_wf hw hh (by unfold INT_MAX; omega) back
  have hwf : r.Wf := hr ▸ afterRotates_wf calls hm
  obtain ⟨e1, e2⟩ := afterRotates_size calls (make w h back)
  have ew : r.width_ = w := by rw [hr, e1]; rfl
  have eh : r.height_ = h := by rw [hr, e2]; rfl
  refine ⟨?_, ?_, r.cell layout, fun x y hx hy => ?_, ?_⟩
  · rw [hwf.size_eq, ew, eh]
  · rw [hwf.area_eq, ew, eh]
  · exact hwf.index_ok layout (p := (x, y)) ⟨hx, hy⟩
  · have := hwf.bijOn_cell layout
    rwa [ew, eh] at this

/-- A 3 × 2 device turned by 90 degrees after a rejected call. -/
theorem afterRotates_addressing_turned :
    let r := afterRotates [(45, true, false), (90, false, true)] (make 3 2 Led.black)
    r.width * r.height = 3 * 2 :=
  (afterRotates_addressing .snake Led.black (by decide) (by decide) (by decide)
    [(45, true, false), (90, false, true)] rfl).2.1

end IRotatablePaintDevice

end Ws2812
