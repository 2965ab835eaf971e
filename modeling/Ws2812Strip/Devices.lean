import Ws2812Strip.PaintDevice

/-!
# The devices and their runs

`Pixmap`, `WS2811Strip` and `Window` as instances of `IPaintDevice`, and the operations that a
client performs on any of them.

* A strip has a buffer only between a successful `init` and the next `ws2811_fini`.
* A `Window` sees its children through `IPaintSource`, so here a child is a `PaintSource`; `Scene`
  has the windows that point to each other. `WS2811StripFakeDeviceDebug` is a window that a
  program uses in place of a strip.
* `Reachable d`: some run of operations leads from a fresh device to `d`. `Reachable.wf`: then `d`
  is well formed.
-/

namespace Ws2812

open IPaintDevice Grid

/-! ## Pixmap -/

structure Pixmap where
  base : IRotatablePaintDevice
  leds_ : List LedColor
  deriving DecidableEq, Repr

namespace Pixmap

def make (w h : Int) (back : LedColor) : Pixmap where
  base := .make w h back
  leds_ := List.replicate (w * h).toNat 0

def ledRef (p : Pixmap) (x y : Int) : Except Fault Nat :=
  cellRef .vector p.base (some p.leds_) x y

def led (p : Pixmap) (x y : Int) : Except Fault LedColor :=
  cellLed .vector p.base (some p.leds_) x y

end Pixmap

instance : IPaintDevice Pixmap where
  layout := .vector
  base := Pixmap.base
  setBase r p := { p with base := r }
  leds p := some p.leds_
  setLeds cells p := { p with leds_ := cells }
  ledRef := Pixmap.ledRef
  led := Pixmap.led
  Plain _ := True
  Fresh p := ∃ w h back, 1 ≤ w ∧ 1 ≤ h ∧ w * h ≤ INT_MAX ∧ p = .make w h back

theorem Pixmap.fresh_make {w h : Int} {back : LedColor} (hw : 1 ≤ w) (hh : 1 ≤ h)
    (hfit : w * h ≤ INT_MAX) : Fresh (Pixmap.make w h back) := ⟨w, h, back, hw, hh, hfit, rfl⟩

/-! ## WS2811Strip -/

/-- The strip: the fields of `ws2811_t` that the code reads are `channel[0].count` and
`channel[0].leds`. -/
structure WS2811Strip where
  base : IRotatablePaintDevice
  count : Int
  leds : Option (List LedColor)
  deriving DecidableEq, Repr

namespace WS2811Strip

def make (w h : Int) (back : LedColor) : WS2811Strip where
  base := .make w h back
  count := w * h
  leds := none

/-- `init`, which drops the result of `ws2811_init`. A successful one makes `cells`, a buffer of
`channel[0].count` cells with some content; one that fails leaves what is there. -/
def init (cells : Option (Nat → LedColor)) (s : WS2811Strip) : WS2811Strip :=
  match cells with
  | some f => { s with leds := some ((List.range s.count.toNat).map f) }
  | none => s

def ledRef (s : WS2811Strip) (x y : Int) : Except Fault Nat :=
  cellRef .snake s.base s.leds x y

def led (s : WS2811Strip) (x y : Int) : Except Fault LedColor :=
  cellLed .snake s.base s.leds x y

end WS2811Strip

instance : IPaintDevice WS2811Strip where
  layout := .snake
  base := WS2811Strip.base
  setBase r s := { s with base := r }
  leds := WS2811Strip.leds
  setLeds cells s := { s with leds := some cells }
  ledRef := WS2811Strip.ledRef
  led := WS2811Strip.led
  Plain _ := True
  Fresh s := ∃ w h back cells, 1 ≤ w ∧ 1 ≤ h ∧ w * h ≤ INT_MAX ∧
    s = (WS2811Strip.make w h back).init (some cells)

theorem WS2811Strip.fresh_init {w h : Int} {back : LedColor} (hw : 1 ≤ w) (hh : 1 ≤ h)
    (hfit : w * h ≤ INT_MAX) (cells : Nat → LedColor) :
    Fresh ((WS2811Strip.make w h back).init (some cells)) := ⟨w, h, back, cells, hw, hh, hfit, rfl⟩

/-! ## Window -/

/-- An entry of `Window::children_`: the child and its position. -/
structure Child where
  source : PaintSource
  x : Int
  y : Int

/-- The test of `Window::led`: the child's rectangle has the point `(x, y)`. -/
def Child.covers (c : Child) (x y : Int) : Except Fault Bool :=
  if x ≥ c.x then do
    let right ← cint (c.x + c.source.width)
    if x < right ∧ y ≥ c.y then do
      let bottom ← cint (c.y + c.source.height)
      pure (decide (y < bottom))
    else pure false
  else pure false

/-- `Window`, with `children_` in the order in which the hash map is iterated. -/
structure Window where
  base : IRotatablePaintDevice
  leds_ : List LedColor
  children_ : List Child

namespace Window

def make (w h : Int) : Window where
  base := .make w h Led.black
  leds_ := List.replicate (w * h).toNat 0
  children_ := []

def ledRef (w : Window) (x y : Int) : Except Fault Nat :=
  cellRef .vector w.base (some w.leds_) x y

/-- `Window::led`, at the children that the loop has still to visit. -/
def ledFrom (w : Window) (x y : Int) : List Child → Except Fault LedColor
  | [] => cellLed .vector w.base (some w.leds_) x y
  | child :: rest => do
    if ← child.covers x y then
      let lx ← cint (x - child.x)
      let ly ← cint (y - child.y)
      let childLed ← child.source.led lx ly
      if w.base.transparent_ ∧ childLed = w.base.back then w.ledFrom x y rest else pure childLed
    else w.ledFrom x y rest

def led (w : Window) (x y : Int) : Except Fault LedColor := w.ledFrom x y w.children_

end Window

instance : IPaintDevice Window where
  layout := .vector
  base := Window.base
  setBase r w := { w with base := r }
  leds w := some w.leds_
  setLeds cells w := { w with leds_ := cells }
  ledRef := Window.ledRef
  led := Window.led
  Plain w := w.children_ = []
  Fresh w := ∃ width height, 1 ≤ width ∧ 1 ≤ height ∧ width * height ≤ INT_MAX ∧
    w = .make width height

theorem Window.fresh_make {w h : Int} (hw : 1 ≤ w) (hh : 1 ≤ h) (hfit : w * h ≤ INT_MAX) :
    Fresh (Window.make w h) := ⟨w, h, hw, hh, hfit, rfl⟩

/-- The debug stand-in for a strip: a window, with an `init` and a `render` of its own that leave
the image alone. -/
abbrev WS2811StripFakeDeviceDebug := Window

/-! ## The laws -/

/-- `std::vector<LedColor>(w * h)` has one cell for each LED. -/
theorem length_replicate_area {w h : Int} (hw : 1 ≤ w) (hh : 1 ≤ h) (c : LedColor) :
    ((List.replicate (w * h).toNat c).length : Int) = w * h := by
  have := Int.mul_nonneg (show 0 ≤ w by omega) (show 0 ≤ h by omega)
  rw [List.length_replicate]
  omega

instance : LawfulPaintDevice Pixmap where
  base_setBase _ _ := rfl
  leds_setBase _ _ := rfl
  plain_setBase _ h := h
  base_setLeds _ _ := rfl
  leds_setLeds _ _ := rfl
  plain_setLeds _ h := h
  ledRef_eq _ _ _ := rfl
  led_plain _ _ _ := rfl
  fresh_wf := by
    rintro _ ⟨w, h, back, hw, hh, hfit, rfl⟩
    exact ⟨IRotatablePaintDevice.make_wf hw hh hfit back, trivial, _, rfl,
      length_replicate_area hw hh 0⟩

instance : LawfulPaintDevice WS2811Strip where
  base_setBase _ _ := rfl
  leds_setBase _ _ := rfl
  plain_setBase _ h := h
  base_setLeds _ _ := rfl
  leds_setLeds _ _ := rfl
  plain_setLeds _ h := h
  ledRef_eq _ _ _ := rfl
  led_plain _ _ _ := rfl
  fresh_wf := by
    rintro _ ⟨w, h, back, cells, hw, hh, hfit, rfl⟩
    refine ⟨IRotatablePaintDevice.make_wf hw hh hfit back, trivial, _, rfl, ?_⟩
    have := Int.mul_nonneg (show 0 ≤ w by omega) (show 0 ≤ h by omega)
    rw [List.length_map, List.length_range]
    exact Int.toNat_of_nonneg this

instance : LawfulPaintDevice Window where
  base_setBase _ _ := rfl
  leds_setBase _ _ := rfl
  plain_setBase _ h := h
  base_setLeds _ _ := rfl
  leds_setLeds _ _ := rfl
  plain_setLeds _ h := h
  ledRef_eq _ _ _ := rfl
  led_plain := by
    intro w (h : w.children_ = []) x y
    show w.ledFrom x y w.children_ = _
    rw [h]
    rfl
  fresh_wf := by
    rintro _ ⟨w, h, hw, hh, hfit, rfl⟩
    exact ⟨IRotatablePaintDevice.make_wf hw hh hfit _, rfl, _, rfl, length_replicate_area hw hh 0⟩

/-! ## Runs of operations -/

/-- What a client does with a device. -/
inductive DeviceOp where
  | clear
  | setBackground (color : LedColor)
  | setTransparent (transparent : Bool)
  /-- `led_ref(x, y) = color` -/
  | write (x y : Int) (color : LedColor)
  | setRotate (degree : Int) (flipX flipY : Bool)
  | flip (flipX flipY : Bool)
  | draw (src : PaintSource) (x y : Int) (flipX flipY : Bool)

section Runs

variable {D : Type} [IPaintDevice D]

def DeviceOp.exec : DeviceOp → DevM D Unit
  | .clear => Ws2812.clear
  | .setBackground color => Ws2812.setBackground color
  | .setTransparent transparent => Ws2812.setTransparent transparent
  | .write x y color => writeLed x y color
  | .setRotate degree flipX flipY => Ws2812.setRotate degree flipX flipY
  | .flip flipX flipY => Ws2812.flip flipX flipY
  | .draw src x y flipX flipY => Ws2812.draw src x y flipX flipY

/-- How the operation ends on `d`. -/
def DeviceOp.outcome (op : DeviceOp) (d : D) : Except Fault Unit := (op.exec.run ⟨d, []⟩).1

/-- The device after the operation, also after one that threw. -/
def DeviceOp.after (op : DeviceOp) (d : D) : D := (op.exec.run ⟨d, []⟩).2.dev

theorem DeviceOp.outcome_after (op : DeviceOp) {d : D} {r : Except Fault Unit} {s : Session D}
    (h : op.exec.run ⟨d, []⟩ = (r, s)) : op.outcome d = r ∧ op.after d = s.dev := by
  unfold outcome after
  rw [h]
  exact ⟨rfl, rfl⟩

/-- The states that runs from a fresh device reach, with any arguments. -/
inductive Reachable : D → Prop
  | fresh {d : D} : Fresh d → Reachable d
  | step {d : D} (op : DeviceOp) : Reachable d → Reachable (op.after d)

variable [LawfulPaintDevice D]

/-- A call of the base class keeps a device well formed if it keeps the fields so. -/
theorem wf_onBase {c : Prog IRotatablePaintDevice Fault Unit} {s : Session D} (h : Wf s.dev)
    (hc : (c.run (base s.dev)).2.Wf)
    (hw : (c.run (base s.dev)).2.width_ = (base s.dev).width_)
    (hh : (c.run (base s.dev)).2.height_ = (base s.dev).height_) :
    Wf ((onBase c).run s).2.dev := wf_setBase h hc hw hh

/-- Every operation, with any arguments, keeps the device well formed. -/
theorem DeviceOp.wf_after (op : DeviceOp) {d : D} (h : Wf d) : Wf (op.after d) := by
  have hs : Shape (base d) (⟨d, []⟩ : Session D) := ⟨h, rfl⟩
  cases op with
  | clear => exact ((Shape.stable _).clear _ hs).1
  | setBackground color =>
    exact wf_onBase (s := ⟨d, []⟩) h
      ⟨h.fields.width_pos, h.fields.height_pos, h.fields.area_le, h.fields.size_eq⟩ rfl rfl
  | setTransparent transparent =>
    exact wf_onBase (s := ⟨d, []⟩) h
      ⟨h.fields.width_pos, h.fields.height_pos, h.fields.area_le, h.fields.size_eq⟩ rfl rfl
  | write x y color => exact ((Shape.stable _).writeLed x y color _ hs).1
  | setRotate degree flipX flipY =>
    obtain ⟨hw, hh, -⟩ := IRotatablePaintDevice.setRotate_frame degree flipX flipY (base d)
    exact wf_onBase (s := ⟨d, []⟩) h
      (IRotatablePaintDevice.setRotate_wf h.fields degree flipX flipY) hw hh
  | flip flipX flipY => exact ((Shape.stable _).flip flipX flipY _ hs).1
  | draw src x y flipX flipY => exact ((Shape.stable _).draw src x y flipX flipY _ hs).1

/-- Every reachable device is well formed. -/
theorem Reachable.wf {d : D} (h : Reachable d) : Wf d := by
  induction h with
  | fresh h => exact LawfulPaintDevice.fresh_wf h
  | step op _ ih => exact op.wf_after ih

end Runs

end Ws2812
