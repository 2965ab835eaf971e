import Ws2812Strip.Composition
import Ws2812Strip.Symmetry

/-!
# Turning a window

`set_rotate` turns the canvas of a window: `Window::led` reaches it through the rotated index. The
children have their positions in logical coordinates, which `Window::led` tests as they are, so
they stay where they were (`turned_led`).
-/

namespace Ws2812

open IPaintDevice Grid Overlay

namespace Window

variable {w : Window} {x y : Int}

/-- What the children show at a point, the first one visited on top, or nothing. -/
def shown (w : Window) (p : Int × Int) : Option (Except Fault LedColor) :=
  w.children_.findSome? fun c => c.layer w.base p

theorem led_of_shown {b : Except Fault LedColor} (h : w.shown (x, y) = some b) :
    led w x y = b := by
  refine (w.led_eq_look x y).trans ?_
  unfold look
  rw [show (w.children_.findSome? fun c => c.layer w.base (x, y)) = some b from h, Option.getD_some]

theorem led_of_not_shown (h : w.shown (x, y) = none) : led w x y = led w.bare x y := by
  refine (w.led_eq_look x y).trans ?_
  unfold look
  rw [show (w.children_.findSome? fun c => c.layer w.base (x, y)) = none from h, Option.getD_none]
  rfl

end Window

/-- A device without rotation and flips has its logical coordinates as physical points. -/
theorem IRotatablePaintDevice.point_of_unturned {r : IRotatablePaintDevice}
    (h : r.rotateHelper_ = ⟨.d0, false, false⟩) (p : Int × Int) : r.point p = p := by
  unfold IRotatablePaintDevice.point
  rw [h]
  rfl

theorem IRotatablePaintDevice.Wf.logical_of_unturned {r : IRotatablePaintDevice} (hr : r.Wf)
    (h : r.rotateHelper_ = ⟨.d0, false, false⟩) : r.logical = rect r.width_ r.height_ := by
  rw [hr.logical_eq, h]
  rfl

/-- The canvas of a window turns. -/
theorem turned_canvas {w : Window} (hw : Wf w.bare)
    (hstart : w.base.rotateHelper_ = ⟨.d0, false, false⟩) (degree : Int) (flipX flipY : Bool)
    {w' : Window} (hw' : w' = (DeviceOp.setRotate degree flipX flipY).after w) {p : Int × Int}
    (hp : p ∈ logical w') :
    w'.base.physical p.1 p.2 = .ok (w'.base.point p) ∧ w'.base.point p ∈ logical w ∧
      led w'.bare p.1 p.2 = led w.bare (w'.base.point p).1 (w'.base.point p).2 := by
  have hbare : w'.bare = (DeviceOp.setRotate degree flipX flipY).after w.bare := by rw [hw']; rfl
  have hwf : Wf w'.bare := hbare ▸ DeviceOp.wf_after _ hw
  obtain ⟨hwidth, hheight, -⟩ :=
    IRotatablePaintDevice.setRotate_frame degree flipX flipY w.base
  have hw_eq : w'.base.width_ = w.base.width_ := by rw [hw']; exact hwidth
  have hh_eq : w'.base.height_ = w.base.height_ := by rw [hw']; exact hheight
  have hleds : w'.leds_ = w.leds_ := by rw [hw']; rfl
  have hmem : w'.base.point p ∈ logical w := by
    have hpoint := hwf.fields.bijOn_point.mapsTo hp
    have hlogical : w.base.logical = rect w.base.width_ w.base.height_ :=
      hw.fields.logical_of_unturned hstart
    show _ ∈ w.base.logical
    rw [hlogical]
    rwa [show (base w'.bare).width_ = w.base.width_ from hw_eq,
      show (base w'.bare).height_ = w.base.height_ from hh_eq] at hpoint
  refine ⟨hwf.fields.oriented.unrotate_ok hp, hmem, ?_⟩
  rw [hwf.led_ok hp, hw.led_ok hmem]
  -- the same cell of the same buffer, once through the point and once as the point
  show Except.ok (phys w'.bare (w'.base.point p)) =
    .ok (phys w.bare (w.base.point (w'.base.point p)))
  rw [IRotatablePaintDevice.point_of_unturned hstart]
  show Except.ok (w'.leds_.getD (StripIndexType.cell .vector w'.base.width_ _).toNat _) =
    .ok (w.leds_.getD (StripIndexType.cell .vector w.base.width_ _).toNat _)
  rw [hleds, hw_eq]

/-- The children show the same at each logical coordinate: they look at the colour key of their
window only. -/
theorem Window.shown_setRotate (w : Window) (degree : Int) (flipX flipY : Bool) (p : Int × Int) :
    ((DeviceOp.setRotate degree flipX flipY).after w).shown p = w.shown p := by
  obtain ⟨-, -, htransparent, hback⟩ :=
    IRotatablePaintDevice.setRotate_frame degree flipX flipY w.base
  generalize hw' : (DeviceOp.setRotate degree flipX flipY).after w = w'
  have ht : w'.base.transparent_ = w.base.transparent_ := by rw [← hw']; exact htransparent
  have hb : w'.base.back = w.base.back := by rw [← hw']; exact hback
  have hchildren : w'.children_ = w.children_ := by rw [← hw']; rfl
  have hlayer : ∀ c : Child, c.layer w'.base p = c.layer w.base p := by
    intro c
    unfold Child.layer
    rw [ht, hb]
  unfold shown
  rw [hchildren]
  simp only [hlayer]

/-- **Turning a window.** After `set_rotate` on a window that was not turned, the canvas shows at
each logical coordinate what it showed at the physical point of it, and the children lie over it
where they lay before: they show at each coordinate what they showed there. So a window without
children turns as a whole. -/
theorem turned_led {w : Window} (hw : Wf w.bare)
    (hstart : w.base.rotateHelper_ = ⟨.d0, false, false⟩) {degree : Int}
    (hdegree : IRotatablePaintDevice.Accepted degree) (flipX flipY : Bool) {w' : Window}
    (hw' : w' = (DeviceOp.setRotate degree flipX flipY).after w) :
    (DeviceOp.setRotate degree flipX flipY).outcome w = .ok () ∧
    ∀ x y, 0 ≤ x ∧ x < width w' → 0 ≤ y ∧ y < height w' →
      ∃ urX urY, w'.base.physical x y = .ok (urX, urY) ∧
        (0 ≤ urX ∧ urX < width w) ∧ (0 ≤ urY ∧ urY < height w) ∧
        (∀ b, w.shown (x, y) = some b → led w x y = b ∧ led w' x y = b) ∧
        (w.shown (x, y) = none → led w' x y = led w.bare urX urY) ∧
        (w.children_ = [] → led w' x y = led w urX urY) := by
  refine ⟨hdegree.setRotate_ok flipX flipY w.base, fun x y hx hy => ?_⟩
  have hp : (x, y) ∈ logical w' := ⟨hx, hy⟩
  obtain ⟨hphysical, ⟨hurX, hurY⟩, hcanvas⟩ :=
    turned_canvas hw hstart degree flipX flipY hw' hp
  have hshown : w'.shown (x, y) = w.shown (x, y) :=
    hw' ▸ w.shown_setRotate degree flipX flipY (x, y)
  have hnone : w.shown (x, y) = none → led w' x y =
      led w.bare (w'.base.point (x, y)).1 (w'.base.point (x, y)).2 := fun h =>
    (Window.led_of_not_shown (hshown.trans h)).trans hcanvas
  refine ⟨_, _, hphysical, hurX, hurY, fun b h => ?_, hnone, fun hempty => ?_⟩
  · exact ⟨Window.led_of_shown h, Window.led_of_shown (hshown.trans h)⟩
  · have hbare : ∀ p, w.shown p = none := by
      intro p
      unfold Window.shown
      rw [hempty]
      rfl
    exact (hnone (hbare _)).trans (Window.led_of_not_shown (hbare _)).symm

/-- A window of two columns and one row with a red dot in its first column. -/
def dotted : Window := { Window.make 2 1 with children_ := [⟨.solid 1 1 Led.red, 0, 0⟩] }

theorem dotted_bare_wf : Wf dotted.bare :=
  LawfulPaintDevice.fresh_wf (Window.fresh_make (by decide) (by decide) (by decide))

/-- The dot stays in the first column. -/
theorem turned_led_dotted :
    led ((DeviceOp.setRotate 180 false false).after dotted) 0 0 = .ok Led.red := by
  obtain ⟨urX, urY, -, -, -, hshown, -⟩ := (turned_led dotted_bare_wf rfl
    (show IRotatablePaintDevice.Accepted 180 by decide) false false rfl).2 0 0 (by decide)
    (by decide)
  exact (hshown (.ok Led.red) (by decide)).2

/-- After half a turn the pixel `(0, 0)` of that window is not the one that was at `(1, 0)`. -/
theorem not_turned_dotted :
    ((DeviceOp.setRotate 180 false false).after dotted).base.physical 0 0 = .ok (1, 0) ∧
    led ((DeviceOp.setRotate 180 false false).after dotted) 0 0 ≠ led dotted 1 0 := by
  decide

end Ws2812
