import Ws2812Strip.Server
import Ws2812Strip.Clear
import Ws2812Strip.Symmetry

/-!
# The panel that the server shows

What the server is for, without buffers, indices and loops: a `Panel` is a wall of LEDs with an
orientation and a colour key, and a stack of layers that the requests have painted on it. A pixel
has the colour of the newest layer that paints it.

* `Panel.next`, `Panel.respond`, `Panel.frame`: what a request does, what it returns, and what goes
  out to the LEDs, in the order of the wire.
* `Service.Shows`: a state of the server shows a panel. `Shows.request` is one request.
* `Service.refines_panel`: the server and the panel put out the same along every run of requests
  and rounds of the render thread.
-/

namespace Ws2812

open IPaintDevice Grid Overlay

/-! ## Physical and logical points -/

namespace StripRotateHelper

/-- The logical coordinate of a physical point. -/
def logicalPoint (t : StripRotateHelper) (w h : Int) (u : Int × Int) : Int × Int :=
  t.inv.point (t.logicalSize w h).1 (t.logicalSize w h).2 u

variable (t : StripRotateHelper) (w h : Int)

theorem point_logicalPoint (u : Int × Int) : t.point w h (t.logicalPoint w h u) = u := by
  unfold logicalPoint
  rw [point_comp, comp_inv]
  rfl

theorem logicalSize_inv :
    t.inv.logicalSize (t.logicalSize w h).1 (t.logicalSize w h).2 = (w, h) := by
  rw [← logicalSize_comp, comp_inv]
  rfl

theorem logicalPoint_point (p : Int × Int) : t.logicalPoint w h (t.point w h p) = p := by
  have hcomp := point_comp t.inv t (t.logicalSize w h).1 (t.logicalSize w h).2 p
  rw [logicalSize_inv, inv_comp] at hcomp
  exact hcomp

theorem logicalPoint_mem {u : Int × Int} (hu : u ∈ rect w h) :
    t.logicalPoint w h u ∈ t.logicalRect w h := by
  obtain ⟨p, hp, rfl⟩ := (bijOn_point t w h).surjOn hu
  rwa [logicalPoint_point]

end StripRotateHelper

/-- The orientation that a degree asks for, if `set_rotate` knows it. -/
def RotateDegree.ofValue? (degree : Int) : Option RotateDegree :=
  if degree = 0 then some .d0
  else if degree = 90 then some .d90
  else if degree = 180 then some .d180
  else if degree = 270 then some .d270
  else none

/-- `set_rotate`, by the orientation that it installs. -/
theorem IRotatablePaintDevice.setRotate_run (degree : Int) (flipX flipY : Bool)
    (r : IRotatablePaintDevice) : (setRotate degree flipX flipY).run r =
      match RotateDegree.ofValue? degree with
      | some d =>
        let t : StripRotateHelper := ⟨d, flipX, flipY⟩
        (.ok (), { r with
          rotateHelper_ := t
          logicWidth_ := (t.logicalSize r.width_ r.height_).1
          logicHeight_ := (t.logicalSize r.width_ r.height_).2 })
      | none => (.error (.invalidArgument "IRotatablePaintDevice::set_rotate"), r) := by
  unfold setRotate RotateDegree.ofValue?
  split
  · simp [StripRotateHelper.logicalSize]
  split
  · simp [StripRotateHelper.logicalSize]
  split
  · simp [StripRotateHelper.logicalSize]
  split
  · simp [StripRotateHelper.logicalSize]
  · rfl

/-! ## The panel -/

/-- A layer that is painted on a panel. -/
abbrev Layer := Int × Int → Option LedColor

structure Panel where
  orientation : StripRotateHelper
  transparent : Bool
  background : LedColor
  autoRender : Bool
  /-- Over the physical points, the newest one first. -/
  layers : List Layer

/-- What happens to the server: a request, or a round of the render thread. -/
inductive ServerEvent where
  | request (req : Request)
  | tick
  deriving DecidableEq, Repr

/-- What the server gives out: the reply to a client, and the colours that `render` hands to the
driver. -/
structure Output where
  reply : Option (Except Fault Reply)
  frame : Option (List LedColor)

/-- The image at `(x, y)` is one that the drawing requests take. -/
structure Drawing.Placeable (g : Drawing) (x y : Int) : Prop where
  valid : g.Valid
  x_nonneg : 0 ≤ x
  y_nonneg : 0 ≤ y
  right : x + g.width ≤ INT_MAX
  bottom : y + g.height ≤ INT_MAX

namespace Panel

variable (w h : Int) (initial : Int × Int → LedColor)

/-- A panel that has just been switched on. -/
def start : Panel := ⟨⟨.d0, false, false⟩, false, Led.black, false, []⟩

/-- The colour at a physical point of a panel that showed `initial` before the first request. -/
def image (p : Panel) : Int × Int → LedColor := look id p.layers initial

/-- The colour at a logical coordinate. -/
def view (p : Panel) (q : Int × Int) : LedColor := p.image initial (p.orientation.point w h q)

/-- Paint a layer that is given in logical coordinates. -/
def paint (layer : Layer) (p : Panel) : Panel :=
  { p with layers := (fun u => layer (p.orientation.logicalPoint w h u)) :: p.layers }

/-- The colour key takes a colour out of a layer. -/
def key (p : Panel) (c : LedColor) : Option LedColor :=
  if p.transparent = true ∧ c = p.background then none else some c

/-- The layer of an image with its upper left corner at `(x, y)`. -/
def drawing (p : Panel) (g : Drawing) (x y : Int) (color background : LedColor) : Layer :=
  fun q => if g.Covers x y q then
    p.key ((g.group color background).pick (g.bit (q.1 - x) (q.2 - y))) else none

/-- The panel after a request. -/
def next (p : Panel) : Request → Panel
  | .drawPixel x y color => p.paint w h fun q => if q = (x, y) then some color else none
  | .drawText x y text color background =>
    p.paint w h (p.drawing (.text text) x y color background)
  | .drawNumber x y number color background =>
    p.paint w h (p.drawing (.number number) x y color background)
  | .clear => p.paint w h fun _ => some p.background
  | .setRotate degree flipX flipY =>
    match RotateDegree.ofValue? degree with
    | some d => { p with orientation := ⟨d, flipX, flipY⟩ }
    | none => p
  | .setTransparent transparent => { p with transparent := transparent }
  | .setBackground color => { p with background := color }
  | .setAutoRender autoRender => { p with autoRender := autoRender }
  | .render | .width | .height | .pixel _ _ => p

/-- What a request returns. -/
def respond (p : Panel) : Request → Except Fault Reply
  | .width => .ok (.int (p.orientation.logicalSize w h).1)
  | .height => .ok (.int (p.orientation.logicalSize w h).2)
  | .pixel x y => .ok (.color (p.view w h initial (x, y)))
  | .setRotate degree _ _ =>
    match RotateDegree.ofValue? degree with
    | some _ => .ok .done
    | none => .error (.invalidArgument "IRotatablePaintDevice::set_rotate")
  | .setAutoRender autoRender => .ok (.flag autoRender)
  | _ => .ok .done

/-- The colours of the LEDs in the order of the wire, which runs through the odd rows backwards. -/
def frame (p : Panel) : List LedColor :=
  (List.range (w * h).toNat).map fun k : Nat => p.image initial (serpentine w (ofRowMajor w k))

def step (p : Panel) : ServerEvent → Panel
  | .request req => p.next w h req
  | .tick => p

def output (p : Panel) : ServerEvent → Output
  | .request req => ⟨some (p.respond w h initial req),
      if req = .render then some (p.frame w h initial) else none⟩
  | .tick => ⟨none, if p.autoRender then some (p.frame w h initial) else none⟩

/-- The arguments that a client may give: a pixel of the panel, ASCII text or a number whose
absolute value is an `int`, at an offset that is not negative and fits. -/
def Admissible (p : Panel) : ServerEvent → Prop
  | .request (.drawPixel x y _) | .request (.pixel x y) => (x, y) ∈ p.orientation.logicalRect w h
  | .request (.drawText x y text _ _) => (Drawing.text text).Placeable x y
  | .request (.drawNumber x y number _ _) => (Drawing.number number).Placeable x y
  | _ => True

end Panel

/-! ## The server as a panel -/

/-- The LED at a point, after `init`. -/
theorem WS2811Strip.phys_init {w h : Int} (back : LedColor) (cells : Nat → LedColor)
    {u : Int × Int} (hu : u ∈ rect w h) :
    phys ((WS2811Strip.make w h back).init (some cells)) u =
      cells (rowMajor w (serpentine w u)).toNat := by
  have hcell := mapsTo_rowMajor w h (mapsTo_serpentine w h hu)
  rw [mem_below] at hcell
  have hlt : (rowMajor w (serpentine w u)).toNat < (w * h).toNat := by omega
  have hget : phys ((WS2811Strip.make w h back).init (some cells)) u =
      ((List.range (w * h).toNat).map cells).getD (rowMajor w (serpentine w u)).toNat Led.black :=
    rfl
  rw [hget]
  simp [List.getD, hlt]

/-- A handler that returns nothing, once its call on the strip has returned. -/
theorem Request.run_done_ok {c : DevM WS2811Strip Unit} {s s' : Session WS2811Strip}
    (h : c.run s = (.ok (), s')) :
    (c >>= fun _ => pure Reply.done).run s = (.ok Reply.done, s') := by
  rw [Prog.run_bind_ok h, Prog.run_pure]

/-- The handler of a request for an image draws that image, and returns. -/
theorem Drawing.Placeable.handle_run {g : Drawing} {x y : Int} (hg : g.Placeable x y)
    (signed : Bool) (color background : LedColor) {d : WS2811Strip} (hwf : Wf d) :
    ∃ s', ((g.request x y color background).handle signed).run ⟨d, []⟩ = (.ok .done, s') := by
  have hreturns : ∀ src : PaintSource, src.width = g.width → src.height = g.height →
      src.Total →
      ∃ s', (draw src x y false false : DevM WS2811Strip Unit).run ⟨d, []⟩ = (.ok (), s') := by
    intro src hw hh htot
    have hfit : Placement.Fits ⟨src, x, y, false, false⟩ := ⟨hg.x_nonneg, hg.y_nonneg,
      by rw [hw]; exact hg.right, by rw [hh]; exact hg.bottom⟩
    obtain ⟨d', t', hrun, -⟩ := draw_run hfit htot hwf []
    exact ⟨_, hrun⟩
  cases g with
  | text chars =>
    have hlen : (chars.length : Int) * 4 ≤ INT_MAX := by
      have hx := hg.x_nonneg
      have hr := hg.right
      simp only [width] at hr
      omega
    let text : Text4x8 := ⟨⟨color, background⟩, chars⟩
    have hwidth := Text4x8.source_width signed (g := text) hlen
    obtain ⟨s', hrun⟩ := hreturns (Text4x8.source signed text) hwidth rfl fun px py hin =>
      ⟨_, Text4x8.led_ok signed (g := text) hlen hg.valid hin⟩
    exact ⟨s', Request.run_done_ok hrun⟩
  | number n =>
    obtain ⟨digits, hmake, -, hshows⟩ := DigitGroup3x5.setDigits_ok hg.valid.1 hg.valid.2
      { digits_ := 0, digitsWidth_ := 0 }
    have hshows' : DigitGroup3x5.Shows { digits with
        toSimpleAlphaGroup := digits.toSimpleAlphaGroup.setColor color } n :=
      ⟨hshows.digits_eq, hshows.width_eq, hshows.abs_le⟩
    obtain ⟨s', hrun⟩ := hreturns (DigitGroup3x5.source { digits with
        toSimpleAlphaGroup := digits.toSimpleAlphaGroup.setColor color })
      (congrArg (· * 3) hshows'.width_eq) rfl fun px py hin => ⟨_, hshows'.led_ok hin⟩
    refine ⟨s', Request.run_done_ok ?_⟩
    unfold Handler.drawNumber DigitGroup3x5.make
    rw [hmake, Prog.run_lift_ok_bind]
    exact hrun

namespace Service

/-- A round without defined behaviour leaves the state. On an initialised strip there is none. -/
def step (signed : Bool) (s : Service) : ServerEvent → Service
  | .request req => s.after signed req
  | .tick => s.tick.getD s

/-- `render` hands `channel[0].leds` to the driver. -/
def output (signed : Bool) (s : Service) : ServerEvent → Output
  | .request req => ⟨some ((req.handle signed).run ⟨s.strip, []⟩).1,
      if req = .render then s.strip.leds else none⟩
  | .tick => ⟨none, if s.autoRender then s.strip.leds else none⟩

/-- The server, with a strip of `w × h` LEDs, shows the panel `p`. -/
structure Shows (w h : Int) (initial : Int × Int → LedColor) (s : Service) (p : Panel) :
    Prop where
  wf : Wf s.strip
  width_eq : (base s.strip).width_ = w
  height_eq : (base s.strip).height_ = h
  orientation_eq : (base s.strip).rotateHelper_ = p.orientation
  transparent_eq : (base s.strip).transparent_ = p.transparent
  background_eq : (base s.strip).back = p.background
  autoRender_eq : s.autoRender = p.autoRender
  image_eq : ∀ u ∈ rect w h, phys s.strip u = p.image initial u

namespace Shows

variable {w h : Int} {initial : Int × Int → LedColor} {signed : Bool} {s : Service} {p : Panel}

theorem logical_eq (hs : Shows w h initial s p) :
    logical s.strip = p.orientation.logicalRect w h := by
  have hl := hs.wf.fields.logical_eq
  rw [hs.width_eq, hs.height_eq, hs.orientation_eq] at hl
  exact hl

theorem size_eq (hs : Shows w h initial s p) :
    (width s.strip, height s.strip) = p.orientation.logicalSize w h := by
  have hsize := hs.wf.fields.size_eq
  rw [hs.width_eq, hs.height_eq, hs.orientation_eq] at hsize
  exact hsize

theorem pix_eq (hs : Shows w h initial s p) {q : Int × Int} (hq : q ∈ logical s.strip) :
    pix s.strip q = p.view w h initial q := by
  have hmem := hs.wf.fields.point_mem hq
  unfold pix Panel.view
  rw [hs.image_eq _ (by rwa [← hs.width_eq, ← hs.height_eq])]
  unfold IRotatablePaintDevice.point
  rw [hs.orientation_eq, hs.width_eq, hs.height_eq]

/-- What goes out to the LEDs. -/
theorem leds_eq (hs : Shows w h initial s p) : s.strip.leds = some (p.frame w h initial) := by
  obtain ⟨cells, he, hlen⟩ := hs.wf.cells
  have hw := hs.wf.fields.width_pos
  rw [hs.width_eq] at hlen hw
  rw [hs.height_eq] at hlen
  show leds s.strip = _
  rw [he, Option.some.injEq]
  unfold Panel.frame
  refine List.ext_getElem (by simp; omega) fun k hk hk' => ?_
  have hmem : ofRowMajor w (k : Int) ∈ rect w h :=
    mapsTo_ofRowMajor hw h ⟨by omega, by omega⟩
  have himage := hs.image_eq _ (mapsTo_serpentine w h hmem)
  unfold phys at himage
  rw [hs.width_eq, he] at himage
  simp only [layout, StripIndexType.cell, serpentine_serpentine, rowMajor_ofRowMajor,
    Int.toNat_natCast, Option.getD_some] at himage
  simpa [hk] using himage

/-- A round of the render thread has defined behaviour. -/
theorem tick (hs : Shows w h initial s p) : s.tick = some s :=
  tick_of_isSome (by rw [hs.leds_eq]; rfl)

/-- A request that changes nothing but the colours of the LEDs. -/
theorem painted (hs : Shows w h initial s p) {s' : Service} {layer : Layer} (hwf : Wf s'.strip)
    (hbase : base s'.strip = base s.strip) (hauto : s'.autoRender = s.autoRender)
    (himg : ∀ q ∈ logical s.strip, pix s'.strip q = (layer q).getD (pix s.strip q)) :
    Shows w h initial s' (p.paint w h layer) where
  wf := hwf
  width_eq := by rw [hbase, hs.width_eq]
  height_eq := by rw [hbase, hs.height_eq]
  orientation_eq := by rw [hbase, hs.orientation_eq]; rfl
  transparent_eq := by rw [hbase, hs.transparent_eq]; rfl
  background_eq := by rw [hbase, hs.background_eq]; rfl
  autoRender_eq := by rw [hauto, hs.autoRender_eq]; rfl
  image_eq := by
    intro u hu
    set q := p.orientation.logicalPoint w h u with hq
    have hpoint : p.orientation.point w h q = u := p.orientation.point_logicalPoint w h u
    have hmem : q ∈ logical s.strip := by
      rw [hs.logical_eq]
      exact p.orientation.logicalPoint_mem w h hu
    -- the pixel `q` is the LED at `u`, before and after the request
    have hbefore : pix s.strip q = p.image initial u := by
      rw [hs.pix_eq hmem, Panel.view, hpoint]
    have hafter : pix s'.strip q = phys s'.strip u := by
      unfold pix IRotatablePaintDevice.point
      rw [hbase, hs.orientation_eq, hs.width_eq, hs.height_eq, hpoint]
    rw [← hafter, himg q hmem, hbefore]
    show _ = look id ((fun u => layer (p.orientation.logicalPoint w h u)) :: p.layers) initial u
    rw [look_cons]
    rfl

/-- The same, for a handler that returns nothing. -/
theorem painted_done (hs : Shows w h initial s p) (req : Request) (layer : Layer)
    {c : DevM WS2811Strip Unit} {s' : Session WS2811Strip}
    (hreq : req.handle signed = c >>= fun _ => pure .done)
    (hauto : (s.after signed req).autoRender = s.autoRender)
    (hrun : c.run ⟨s.strip, []⟩ = (.ok (), s')) (hwf : Wf s'.dev)
    (hbase : base s'.dev = base s.strip)
    (himg : ∀ q ∈ logical s.strip, pix s'.dev q = (layer q).getD (pix s.strip q)) :
    ((req.handle signed).run ⟨s.strip, []⟩).1 = .ok .done ∧
      Shows w h initial (s.after signed req) (p.paint w h layer) := by
  have hdone := Request.run_done_ok hrun
  rw [← hreq] at hdone
  have hstrip : (s.after signed req).strip = s'.dev := congrArg (fun r => r.2.dev) hdone
  exact ⟨congrArg Prod.fst hdone, hs.painted (by rwa [hstrip]) (by rw [hstrip, hbase]) hauto
    fun q hq => by rw [hstrip, himg q hq]⟩

/-- A request that leaves the LEDs and sets fields of the strip. -/
theorem settings (hs : Shows w h initial s p) {s' : Service} {p' : Panel}
    {r : IRotatablePaintDevice} (hstrip : s'.strip = setBase r s.strip) (hr : r.Wf)
    (hw : r.width_ = (base s.strip).width_) (hh : r.height_ = (base s.strip).height_)
    (horientation : r.rotateHelper_ = p'.orientation)
    (htransparent : r.transparent_ = p'.transparent)
    (hback : r.back = p'.background) (hauto : s'.autoRender = p'.autoRender)
    (hlayers : p'.layers = p.layers) : Shows w h initial s' p' := by
  have hbase : base s'.strip = r := by rw [hstrip, LawfulPaintDevice.base_setBase]
  refine ⟨?_, by rw [hbase, hw, hs.width_eq], by rw [hbase, hh, hs.height_eq],
    by rw [hbase, horientation], by rw [hbase, htransparent], by rw [hbase, hback], hauto,
    fun u hu => ?_⟩
  · rw [hstrip]
    exact wf_setBase hs.wf hr hw hh
  · have himage := hs.image_eq u hu
    unfold Panel.image at himage ⊢
    rw [hlayers, ← himage]
    unfold phys
    rw [hbase, hw, hstrip, LawfulPaintDevice.leds_setBase]

/-- A request for an image. -/
theorem drawn (hs : Shows w h initial s p) {g : Drawing} {x y : Int} (hg : g.Placeable x y)
    (color background : LedColor) :
    (((g.request x y color background).handle signed).run ⟨s.strip, []⟩).1 = .ok .done ∧
    Shows w h initial (s.after signed (g.request x y color background))
      (p.paint w h (p.drawing g x y color background)) := by
  obtain ⟨s', hrun⟩ := hg.handle_run signed color background hs.wf
  obtain ⟨hwf', hbase, himg⟩ := Drawing.after_request signed color background hg.valid
    hg.x_nonneg hg.y_nonneg hg.right hg.bottom hs.wf
  refine ⟨by rw [hrun], hs.painted hwf' hbase (by cases g <;> rfl) fun q hq => ?_⟩
  rw [himg q hq]
  unfold Panel.drawing
  split
  · unfold keyed Panel.key
    rw [hs.transparent_eq, hs.background_eq]
    split <;> rfl
  · rfl

/-- A request that leaves the strip and the flag of the render thread as they are. -/
theorem unchanged (hs : Shows w h initial s p) {s' : Service} (hstrip : s'.strip = s.strip)
    (hauto : s'.autoRender = s.autoRender) : Shows w h initial s' p := by
  obtain ⟨strip, auto⟩ := s
  obtain ⟨strip', auto'⟩ := s'
  simp only at hstrip hauto
  subst hstrip hauto
  exact hs

/-- `set_rotate`, accepted or not. -/
theorem rotated (hs : Shows w h initial s p) (degree : Int) (flipX flipY : Bool) :
    (((Request.setRotate degree flipX flipY).handle signed).run ⟨s.strip, []⟩).1 =
        p.respond w h initial (.setRotate degree flipX flipY) ∧
      Shows w h initial (s.after signed (.setRotate degree flipX flipY))
        (p.next w h (.setRotate degree flipX flipY)) := by
  have hwf := IRotatablePaintDevice.setRotate_wf hs.wf.fields degree flipX flipY
  have hrun := IRotatablePaintDevice.setRotate_run degree flipX flipY (base s.strip)
  have hcall : (Ws2812.setRotate degree flipX flipY).run (⟨s.strip, []⟩ : Session WS2811Strip) =
      let out := (IRotatablePaintDevice.setRotate degree flipX flipY).run (base s.strip)
      (out.1, ⟨setBase out.2 s.strip, []⟩) := rfl
  unfold Panel.respond Panel.next
  cases hd : RotateDegree.ofValue? degree with
  | some d =>
    simp only [hd] at hrun ⊢
    rw [hrun] at hwf hcall
    have hdone := Request.run_done_ok hcall
    exact ⟨congrArg Prod.fst hdone, hs.settings (congrArg (·.2.dev) hdone) hwf rfl rfl rfl
      hs.transparent_eq hs.background_eq hs.autoRender_eq rfl⟩
  | none =>
    simp only [hd] at hrun ⊢
    rw [hrun] at hcall
    have herror := Prog.run_bind_error (f := fun _ => pure Reply.done) hcall
    exact ⟨congrArg Prod.fst herror, hs.unchanged (congrArg (·.2.dev) herror) rfl⟩

/-- One request. -/
theorem request (hs : Shows w h initial s p) (req : Request)
    (hreq : p.Admissible w h (.request req)) :
    ((req.handle signed).run ⟨s.strip, []⟩).1 = p.respond w h initial req ∧
      Shows w h initial (s.after signed req) (p.next w h req) := by
  have hfields := hs.wf.fields
  cases req with
  | render =>
    have hrun : (WS2811Strip.render.run (⟨s.strip, []⟩ : Session WS2811Strip)) =
        (.ok (), ⟨s.strip, []⟩) := by
      rw [WS2811Strip.render, WS2811Strip.driverCall_run]
      simp only [hs.leds_eq, Option.isSome_some, if_true]
    have hdone := Request.run_done_ok hrun
    exact ⟨congrArg Prod.fst hdone, hs.unchanged (congrArg (·.2.dev) hdone) rfl⟩
  | drawPixel x y color =>
    have hmem : (x, y) ∈ logical s.strip := by
      rw [hs.logical_eq]
      exact hreq
    obtain ⟨d', hrun, hwf', hb, -, hpix⟩ :=
      Wf.writeLed_run (s := (⟨s.strip, []⟩ : Session WS2811Strip)) hs.wf hmem color
    refine hs.painted_done (.drawPixel x y color) (fun q => if q = (x, y) then some color else none)
      rfl rfl hrun hwf' hb fun q hq => ?_
    rw [hpix q hq]
    split <;> rfl
  | drawText x y text color background => exact hs.drawn (g := .text text) hreq color background
  | drawNumber x y number color background =>
    exact hs.drawn (g := .number number) hreq color background
  | clear =>
    obtain ⟨d', t', hrun, hwf', hb, hpix⟩ := clear_run hs.wf
    refine hs.painted_done .clear (fun _ => some p.background) rfl rfl hrun hwf' hb fun q hq => ?_
    rw [hpix q hq, hs.background_eq]
    rfl
  | width =>
    exact ⟨congrArg (fun n : Int × Int => (Except.ok (Reply.int n.1) : Except Fault Reply))
      hs.size_eq, hs⟩
  | height =>
    exact ⟨congrArg (fun n : Int × Int => (Except.ok (Reply.int n.2) : Except Fault Reply))
      hs.size_eq, hs⟩
  | pixel x y =>
    have hmem : (x, y) ∈ logical s.strip := by
      rw [hs.logical_eq]
      exact hreq
    have hread := Wf.readLed_run (s := (⟨s.strip, []⟩ : Session WS2811Strip)) hs.wf hmem
    have hrun : ((Request.pixel x y).handle signed).run ⟨s.strip, []⟩ = _ :=
      Prog.run_bind_ok (f := fun c => pure (Reply.color c)) hread
    refine ⟨?_, hs.unchanged (congrArg (·.2.dev) hrun) rfl⟩
    rw [hrun]
    exact congrArg (fun c : LedColor => (Except.ok (Reply.color c) : Except Fault Reply))
      (hs.pix_eq hmem)
  | setRotate degree flipX flipY => exact hs.rotated degree flipX flipY
  | setTransparent transparent =>
    exact ⟨rfl, hs.settings rfl
      ⟨hfields.width_pos, hfields.height_pos, hfields.area_le, hfields.size_eq⟩ rfl rfl
      hs.orientation_eq rfl hs.background_eq hs.autoRender_eq rfl⟩
  | setBackground color =>
    exact ⟨rfl, hs.settings rfl
      ⟨hfields.width_pos, hfields.height_pos, hfields.area_le, hfields.size_eq⟩ rfl rfl
      hs.orientation_eq hs.transparent_eq rfl hs.autoRender_eq rfl⟩
  | setAutoRender autoRender =>
    exact ⟨rfl, ⟨hs.wf, hs.width_eq, hs.height_eq, hs.orientation_eq, hs.transparent_eq,
      hs.background_eq, rfl, hs.image_eq⟩⟩

/-- One request, or one round of the render thread. -/
theorem step (hs : Shows w h initial s p) (e : ServerEvent) (he : p.Admissible w h e) :
    s.output signed e = p.output w h initial e ∧
      Shows w h initial (s.step signed e) (p.step w h e) := by
  cases e with
  | request req =>
    obtain ⟨hreply, hnext⟩ :
      ((req.handle signed).run ⟨s.strip, []⟩).1 = p.respond w h initial req ∧
        Shows w h initial (s.after signed req) (p.next w h req) := hs.request req he
    refine ⟨?_, hnext⟩
    unfold Service.output Panel.output
    simp only [hreply, hs.leds_eq]
  | tick =>
    have hstep : s.step signed .tick = s := by
      simp [Service.step, hs.tick]
    refine ⟨?_, by rw [hstep]; exact hs⟩
    unfold Service.output Panel.output
    simp only [hs.autoRender_eq, hs.leds_eq]

end Shows

/-- What the LEDs of the served strip show after `init`. -/
def initialImage (cells : Nat → LedColor) (u : Int × Int) : LedColor :=
  cells (rowMajor 16 (serpentine 16 u)).toNat

theorem shows_start (cells : Nat → LedColor) :
    Shows 16 32 (initialImage cells) (start (some cells)) Panel.start := by
  have hwf := (WS2811Strip.sound_make (w := 16) (h := 32) (by decide) (by decide) (by decide)
    Led.black).init (some cells) |>.wf rfl
  exact ⟨hwf, rfl, rfl, rfl, rfl, rfl, rfl, fun u hu => WS2811Strip.phys_init Led.black cells hu⟩

/-- **The server is a panel.** Whatever the buffer holds after `init`, every run of requests and
rounds of the render thread gives the replies and the frames that the panel gives, and leaves a
strip that shows the panel. -/
theorem refines_panel (signed : Bool) (cells : Nat → LedColor) {events : List ServerEvent}
    (h : Run.Each (Panel.step 16 32) (Panel.Admissible 16 32) Panel.start events) :
    Run.outputs (step signed) (output signed) (start (some cells)) events =
      Run.outputs (Panel.step 16 32) (Panel.output 16 32 (initialImage cells)) Panel.start
        events ∧
    Shows 16 32 (initialImage cells) (events.foldl (step signed) (start (some cells)))
      (events.foldl (Panel.step 16 32) Panel.start) :=
  Run.outputs_simulates (fun _ _ e hs he => hs.step e he) (shows_start cells) h

/-- A quarter turn, a letter over a cleared panel, and a frame. -/
theorem refines_panel_letter :
    Shows 16 32 (initialImage fun _ => Led.red)
      ([.request (.setRotate 90 false false), .request .clear,
        .request (.drawText 30 3 [65] Led.red Led.green), .tick].foldl (step true)
          (start (some fun _ => Led.red)))
      ([.request (.setRotate 90 false false), .request .clear,
        .request (.drawText 30 3 [65] Led.red Led.green), .tick].foldl (Panel.step 16 32)
          Panel.start) := by
  have hrun : Run.Each (Panel.step 16 32) (Panel.Admissible 16 32) Panel.start
      [.request (.setRotate 90 false false), .request .clear,
        .request (.drawText 30 3 [65] Led.red Led.green), .tick] :=
    ⟨trivial, trivial, ⟨by simp [Drawing.Valid], by decide, by decide, by decide, by decide⟩,
      trivial, trivial⟩
  exact (refines_panel true (fun _ => Led.red) hrun).2

end Service

end Ws2812
