import Ws2812Strip.Basic
import Ws2812Strip.Lib.Grid

/-!
# LED addressing

From a logical coordinate to the cell of an LED buffer, in two stages.

* `StripRotateHelper.unrotate`: the physical point `(ur_x, ur_y)` of a logical coordinate, after
  the rotation and then the flips, which act on the physical axes.
* `StripIndexType.index`: the cell of a physical point: serpentine (`ISnakeStripIndex`, every odd
  row runs backwards) or row by row (`IVectorStripIndex`).

Each stage computes with checked `int`s. `point` and `cell` are the same maps without the checks,
as compositions of the symmetries of `Grid`. On the device the first stage passes its checks
(`unrotate_ok`), and the second one does if the cell is an `int` (`index_eq_ok_iff`); `bijOn_point`
and `bijOn_cell` say that they are bijections.
-/

namespace Ws2812

open Grid

/-- The template argument `StripIndexType` of a rotatable device. -/
inductive StripIndexType where
  | snake
  | vector
  deriving DecidableEq, Repr

/-- `ISnakeStripIndex::index`. -/
def ISnakeStripIndex.index (width_ x y : Int) : Except Fault Int :=
  if y.tmod 2 = 0 then do
    let row ← cint (y * width_)
    cint (row + x)
  else do
    let row ← cint (y * width_)
    let back ← fromEnd width_ x
    cint (row + back)

/-- `IVectorStripIndex::index`. -/
def IVectorStripIndex.index (width_ x y : Int) : Except Fault Int := do
  let row ← cint (y * width_)
  cint (row + x)

/-- `StripIndexType::index`. -/
def StripIndexType.index : StripIndexType → Int → Int → Int → Except Fault Int
  | .snake => ISnakeStripIndex.index
  | .vector => IVectorStripIndex.index

/-- The cell of a physical point. -/
def StripIndexType.cell (layout : StripIndexType) (w : Int) (p : Int × Int) : Int :=
  match layout with
  | .snake => rowMajor w (serpentine w p)
  | .vector => rowMajor w p

/-- The template argument `RotateDegree`: its `static_assert` admits these four. -/
inductive RotateDegree where
  | d0
  | d90
  | d180
  | d270
  deriving DecidableEq, Repr

/-- `StripRotateHelper<StripIndexType, RotateDegree, FlipX, FlipY>`. The references `width_` and
`height_` of the base class are arguments of its functions. -/
structure StripRotateHelper where
  rotateDegree : RotateDegree
  flipX : Bool
  flipY : Bool
  deriving DecidableEq, Repr

namespace StripRotateHelper

variable (t : StripRotateHelper)

/-- The point `(ur_x, ur_y)` of `StripRotateHelper::index`. -/
def unrotate (width_ height_ x y : Int) : Except Fault (Int × Int) := do
  let (urX, urY) ← match t.rotateDegree with
    | .d0 => pure (x, y)
    | .d90 => do
      let urY ← fromEnd height_ x
      pure (y, urY)
    | .d180 => do
      let urX ← fromEnd width_ x
      let urY ← fromEnd height_ y
      pure (urX, urY)
    | .d270 => do
      let urX ← fromEnd width_ y
      pure (urX, x)
  let urX ← if t.flipX then fromEnd width_ urX else pure urX
  let urY ← if t.flipY then fromEnd height_ urY else pure urY
  pure (urX, urY)

/-- `StripRotateHelper::index`. -/
def index (layout : StripIndexType) (width_ height_ x y : Int) : Except Fault Int := do
  let (urX, urY) ← t.unrotate width_ height_ x y
  layout.index width_ urX urY

/-- The logical size of a `w × h` device under this helper. -/
def logicalSize (w h : Int) : Int × Int :=
  match t.rotateDegree with
  | .d0 | .d180 => (w, h)
  | .d90 | .d270 => (h, w)

/-- The logical coordinates of a `w × h` device under this helper. -/
def logicalRect (w h : Int) : Set (Int × Int) := rect (t.logicalSize w h).1 (t.logicalSize w h).2

/-- The rotation part of `point`. -/
def rotatePoint (w h : Int) : Int × Int → Int × Int :=
  match t.rotateDegree with
  | .d0 => id
  | .d90 => mirrorY h ∘ transpose
  | .d180 => mirrorX w ∘ mirrorY h
  | .d270 => mirrorX w ∘ transpose

/-- The physical point of a logical coordinate. -/
def point (w h : Int) : Int × Int → Int × Int :=
  (if t.flipY then mirrorY h else id) ∘ (if t.flipX then mirrorX w else id) ∘ t.rotatePoint w h

end StripRotateHelper

/-! ## The physical point -/

theorem bijOn_rotatePoint (t : StripRotateHelper) (w h : Int) :
    Set.BijOn (t.rotatePoint w h) (t.logicalRect w h) (rect w h) := by
  unfold StripRotateHelper.rotatePoint StripRotateHelper.logicalRect StripRotateHelper.logicalSize
  cases t.rotateDegree with
  | d0 => exact Set.bijOn_id _
  | d90 => exact (bijOn_mirrorY w h).comp (bijOn_transpose h w)
  | d180 => exact (bijOn_mirrorX w h).comp (bijOn_mirrorY w h)
  | d270 => exact (bijOn_mirrorX w h).comp (bijOn_transpose h w)

/-- A helper turns the logical rectangle onto the physical one. -/
theorem bijOn_point (t : StripRotateHelper) (w h : Int) :
    Set.BijOn (t.point w h) (t.logicalRect w h) (rect w h) := by
  have hX : Set.BijOn (if t.flipX then mirrorX w else id) (rect w h) (rect w h) := by
    split
    · exact bijOn_mirrorX w h
    · exact Set.bijOn_id _
  have hY : Set.BijOn (if t.flipY then mirrorY h else id) (rect w h) (rect w h) := by
    split
    · exact bijOn_mirrorY w h
    · exact Set.bijOn_id _
  exact hY.comp (hX.comp (bijOn_rotatePoint t w h))

/-- On the device the checked `(ur_x, ur_y)` is `point`: no operation overflows. -/
theorem unrotate_ok (t : StripRotateHelper) {w h x y : Int} (hw : w ≤ INT_MAX) (hh : h ≤ INT_MAX)
    (hp : (x, y) ∈ t.logicalRect w h) : t.unrotate w h x y = .ok (t.point w h (x, y)) := by
  obtain ⟨degree, flipX, flipY⟩ := t
  have hX : ∀ p ∈ rect w h, fromEnd w p.1 = .ok (mirrorX w p).1 := fun p hp =>
    fromEnd_ok hw hp.1.1 hp.1.2
  have hY : ∀ p ∈ rect w h, fromEnd h p.2 = .ok (mirrorY h p).2 := fun p hp =>
    fromEnd_ok hh hp.2.1 hp.2.2
  -- The flips, from a point that the rotation left on the device.
  have flips : ∀ p ∈ rect w h, (do
      let urX ← if flipX then fromEnd w p.1 else pure p.1
      let urY ← if flipY then fromEnd h p.2 else pure p.2
      pure (urX, urY) : Except Fault (Int × Int)) =
        .ok (((if flipY then mirrorY h else id) ∘ (if flipX then mirrorX w else id)) p) := by
    intro p hp
    rw [hX p hp, hY p hp]
    cases flipX <;> cases flipY <;> rfl
  have hrot := (bijOn_rotatePoint ⟨degree, flipX, flipY⟩ w h).mapsTo hp
  obtain ⟨⟨hx0, hx⟩, hy0, hy⟩ := hp
  cases degree with
  | d0 => exact flips _ hrot
  | d90 =>
    have e : fromEnd h x = .ok (h - 1 - x) := fromEnd_ok hh hx0 hx
    simp only [StripRotateHelper.unrotate, e]
    exact flips _ hrot
  | d180 =>
    have e : fromEnd w x = .ok (w - 1 - x) := fromEnd_ok hw hx0 hx
    have e' : fromEnd h y = .ok (h - 1 - y) := fromEnd_ok hh hy0 hy
    simp only [StripRotateHelper.unrotate, e, e']
    exact flips _ hrot
  | d270 =>
    have e : fromEnd w y = .ok (w - 1 - y) := fromEnd_ok hw hy0 hy
    simp only [StripRotateHelper.unrotate, e]
    exact flips _ hrot

/-! ## The cell -/

theorem bijOn_cell (layout : StripIndexType) {w : Int} (hw : 0 < w) (h : Int) :
    Set.BijOn (layout.cell w) (rect w h) (below (w * h)) := by
  cases layout with
  | snake => exact (bijOn_rowMajor hw h).comp (bijOn_serpentine w h)
  | vector => exact bijOn_rowMajor hw h

/-- The sum of two numbers that are not negative, computed with checks. -/
theorem sum_eq_ok_iff {a b k : Int} (ha : 0 ≤ a) (hb : 0 ≤ b) :
    (cint a >>= fun row => cint (row + b)) = .ok k ↔ a + b = k ∧ k ≤ INT_MAX := by
  have hpos : INT_MIN ≤ a ∧ INT_MIN ≤ a + b := by
    unfold INT_MIN
    omega
  by_cases hk : a + b ≤ INT_MAX
  · rw [cint_ok ⟨hpos.1, by omega⟩]
    show cint (a + b) = .ok k ↔ _
    rw [cint_ok ⟨hpos.2, hk⟩, Except.ok.injEq]
    exact ⟨fun h => ⟨h, h ▸ hk⟩, fun h => h.1⟩
  · refine iff_of_false (fun h => ?_) fun h => hk (h.1 ▸ h.2)
    cases ha : cint a with
    | error e =>
      rw [ha] at h
      cases h
    | ok row =>
      obtain rfl := cint_eq_ok ha
      rw [ha] at h
      change cint (row + b) = .ok k at h
      rw [cint_error fun hint => hk hint.2] at h
      cases h

/-- A physical point has the cell that is its number, if that is an `int`. -/
theorem StripIndexType.index_eq_ok_iff (layout : StripIndexType) {w h x y k : Int}
    (hw : w ≤ INT_MAX) (hp : (x, y) ∈ rect w h) :
    layout.index w x y = .ok k ↔ layout.cell w (x, y) = k ∧ k ≤ INT_MAX := by
  obtain ⟨⟨hx0, hx⟩, hy0, hy⟩ := id hp
  have hrow : 0 ≤ y * w := Int.mul_nonneg hy0 (hx0.trans hx.le)
  cases layout with
  | vector => exact sum_eq_ok_iff hrow hx0
  | snake =>
    have hpar : y.tmod 2 = y % 2 := Int.tmod_eq_emod_of_nonneg hy0
    have hback : 0 ≤ w - 1 - x := by
      simp only at hx
      omega
    simp only [StripIndexType.index, ISnakeStripIndex.index, StripIndexType.cell, serpentine,
      rowMajor, hpar]
    split
    · exact sum_eq_ok_iff hrow hx0
    · rw [fromEnd_ok hw hx0 hx]
      exact sum_eq_ok_iff hrow hback

/-- A side of a device is at most its number of LEDs. -/
theorem side_le_area {w h : Int} (hw : 0 < w) (hh : 0 < h) : w ≤ w * h ∧ h ≤ w * h := by
  constructor
  · exact le_mul_of_one_le_right hw.le hh
  · exact le_mul_of_one_le_left hh.le hw

end Ws2812
