import Ws2812Strip.Driver
import Ws2812Strip.Glyph

/-!
# The server

`main` serves one strip of 16 × 32 LEDs. The handlers pass the arguments of a request to the strip
as they are.

* `Request.handle`: the handlers, as calls on the strip. `Service.Reachable`: what any sequence of
  requests and rounds of the render thread leads to, with any outcome of `init`.
* `pixel_requests_iff`: the pixel requests address the pixel they name exactly on an initialised
  strip and inside it.
* `Drawing.honoured_iff`: when a drawing request honours both of its colours. `draw_text` always
  does; `draw_number` does not pass `background` on.
-/

namespace Ws2812

open IPaintDevice Grid Overlay

/-! ## Requests -/

inductive Request where
  | render
  | drawPixel (x y : Int) (color : LedColor)
  | drawText (x y : Int) (text : List UInt8) (color background : LedColor)
  | drawNumber (x y number : Int) (color background : LedColor)
  | clear
  | width
  | height
  | pixel (x y : Int)
  | setRotate (degree : Int) (flipX flipY : Bool)
  | setTransparent (transparent : Bool)
  | setBackground (color : LedColor)
  | setAutoRender (autoRender : Bool)
  deriving DecidableEq, Repr

/-- What a handler returns to the client. -/
inductive Reply where
  | done
  | int (n : Int)
  | color (c : LedColor)
  | flag (b : Bool)
  deriving DecidableEq, Repr

namespace Handler

def drawPixel (x y : Int) (color : LedColor) : DevM WS2811Strip Unit := writeLed x y color

/-- `Text4x8(text).set_color(color).set_background(background)` -/
def drawText (signed : Bool) (x y : Int) (text : List UInt8) (color background : LedColor) :
    DevM WS2811Strip Unit :=
  let group := ({} : SimpleAlphaGroup).setColor color
  let group := group.setBackground background
  draw (Text4x8.source signed ⟨group, text⟩) x y false false

/-- `DigitGroup3x5(number).set_color(color)`: the handler does not use `background`. -/
def drawNumber (x y number : Int) (color _background : LedColor) : DevM WS2811Strip Unit := do
  let digits ← .lift (DigitGroup3x5.make number)
  draw (DigitGroup3x5.source { digits with
    toSimpleAlphaGroup := digits.toSimpleAlphaGroup.setColor color }) x y false false

def pixel (x y : Int) : DevM WS2811Strip LedColor := readLed x y

end Handler

/-- The handler of a request, as a call on the strip. -/
def Request.handle (signed : Bool) : Request → DevM WS2811Strip Reply
  | .render => do
    WS2811Strip.render
    pure .done
  | .drawPixel x y color => do
    Handler.drawPixel x y color
    pure .done
  | .drawText x y text color background => do
    Handler.drawText signed x y text color background
    pure .done
  | .drawNumber x y number color background => do
    Handler.drawNumber x y number color background
    pure .done
  | .clear => do
    Ws2812.clear
    pure .done
  | .width => do
    let w ← field IPaintDevice.width
    pure (.int w)
  | .height => do
    let h ← field IPaintDevice.height
    pure (.int h)
  | .pixel x y => do
    let c ← Handler.pixel x y
    pure (.color c)
  | .setRotate degree flipX flipY => do
    Ws2812.setRotate degree flipX flipY
    pure .done
  | .setTransparent transparent => do
    Ws2812.setTransparent transparent
    pure .done
  | .setBackground color => do
    Ws2812.setBackground color
    pure .done
  | .setAutoRender autoRender => pure (.flag autoRender)

/-- A handler that returns nothing leaves what its call on the strip leaves. -/
theorem Request.run_done (c : DevM WS2811Strip Unit) (d : WS2811Strip) :
    ((c >>= fun _ => pure Reply.done).run ⟨d, []⟩).2.dev = (c.run ⟨d, []⟩).2.dev := by
  rw [Prog.run_bind_pure]

/-- The strip that `main` serves, and `auto_render`. -/
structure Service where
  strip : WS2811Strip
  autoRender : Bool

namespace Service

/-- `WS2811Strip strip(16, 32)`, after `strip.init()`. -/
def start (cells : Option (Nat → LedColor)) : Service :=
  ⟨(WS2811Strip.make 16 32 Led.black).init cells, false⟩

/-- The service after a request, also after one that threw. -/
def after (signed : Bool) (s : Service) (req : Request) : Service where
  strip := ((req.handle signed).run ⟨s.strip, []⟩).2.dev
  autoRender := match req with
    | .setAutoRender autoRender => autoRender
    | _ => s.autoRender

/-- A round of the render thread. After a failed `init` a round that renders has no defined
behaviour. -/
def tick (s : Service) : Option Service :=
  if s.autoRender then
    match WS2811Strip.render.run ⟨s.strip, []⟩ with
    | (.ok (), session) => some { s with strip := session.dev }
    | (.error _, _) => none
  else some s

inductive Reachable (signed : Bool) : Service → Prop
  | start (cells : Option (Nat → LedColor)) : Reachable signed (start cells)
  | request {s : Service} (req : Request) : Reachable signed s →
      Reachable signed (s.after signed req)
  | tick {s s' : Service} : Reachable signed s → s.tick = some s' → Reachable signed s'

/-- A request is an operation of the strip as a device, or leaves the strip alone. -/
theorem after_cases (signed : Bool) (s : Service) (req : Request) :
    (∃ op : DeviceOp, (s.after signed req).strip = op.after s.strip) ∨
      (s.after signed req).strip = s.strip := by
  cases req with
  | render => exact .inr (by
      show ((WS2811Strip.render >>= fun _ => pure Reply.done).run _).2.dev = _
      rw [Request.run_done, WS2811Strip.render, WS2811Strip.driverCall_run])
  | drawPixel x y color => exact .inl ⟨.write x y color, Request.run_done ..⟩
  | drawText x y text color background => exact .inl ⟨.draw _ x y false false, Request.run_done ..⟩
  | drawNumber x y number color background =>
    have hnumber : (s.after signed (.drawNumber x y number color background)).strip =
        ((Handler.drawNumber x y number color background).run ⟨s.strip, []⟩).2.dev :=
      Request.run_done ..
    rw [hnumber]
    unfold Handler.drawNumber
    cases DigitGroup3x5.make number with
    | error e => exact .inr rfl
    | ok digits => exact .inl ⟨.draw _ x y false false, rfl⟩
  | clear => exact .inl ⟨.clear, Request.run_done ..⟩
  | width => exact .inr rfl
  | height => exact .inr rfl
  | pixel x y => exact .inr (by
      show ((readLed x y >>= fun c => pure (Reply.color c)).run _).2.dev = _
      rw [Prog.run_bind_pure]
      rfl)
  | setRotate degree flipX flipY => exact .inl ⟨.setRotate degree flipX flipY, Request.run_done ..⟩
  | setTransparent transparent => exact .inl ⟨.setTransparent transparent, Request.run_done ..⟩
  | setBackground color => exact .inl ⟨.setBackground color, Request.run_done ..⟩
  | setAutoRender autoRender => exact .inr rfl

/-- A round changes nothing, and is defined unless it renders without a handle. -/
theorem tick_eq (s : Service) :
    s.tick = if s.autoRender = true ∧ s.strip.leds.isSome = false then none else some s := by
  obtain ⟨strip, autoRender⟩ := s
  simp only [tick, WS2811Strip.render, WS2811Strip.driverCall_run]
  cases autoRender <;> cases strip.leds.isSome <;> simp

theorem eq_of_tick {s s' : Service} (h : s.tick = some s') : s' = s := by
  rw [tick_eq] at h
  split at h
  · cases h
  · exact (Option.some.inj h).symm

theorem tick_of_isSome {s : Service} (h : s.strip.leds.isSome = true) : s.tick = some s := by
  simp [tick_eq, h]

/-- The served strip is sound, whatever `init` and the requests did. -/
theorem Reachable.sound {signed : Bool} {s : Service} (h : s.Reachable signed) :
    s.strip.Sound := by
  induction h with
  | start cells =>
    exact (WS2811Strip.sound_make (by decide) (by decide) (by decide) _).init cells
  | request req _ ih =>
    rcases after_cases signed _ req with ⟨op, hop⟩ | hsame
    · rw [hop]
      exact ih.after op
    · rw [hsame]
      exact ih
  | tick _ htick ih =>
    rw [eq_of_tick htick]
    exact ih

end Service

/-! ## Pixel requests -/

/-- `draw_pixel(x, y, color)` addresses the pixel that it names and no other LED. -/
structure DrawPixelAddresses (d : WS2811Strip) (x y : Int) (color : LedColor) : Prop where
  inside : (x, y) ∈ logical d → ∃ s', (Handler.drawPixel x y color).run ⟨d, []⟩ = (.ok (), s') ∧
    base s'.dev = base d ∧
    ∀ p ∈ logical d, led s'.dev p.1 p.2 = if p = (x, y) then .ok color else led d p.1 p.2
  outside : (x, y) ∉ logical d → ¬ Touched ((Handler.drawPixel x y color).run ⟨d, []⟩).2

/-- `pixel(x, y)` addresses the pixel that it names and no other LED. -/
structure PixelAddresses (d : WS2811Strip) (x y : Int) : Prop where
  inside : (x, y) ∈ logical d → ((Handler.pixel x y).run ⟨d, []⟩).1 = .ok (pix d (x, y))
  outside : (x, y) ∉ logical d → ¬ Touched ((Handler.pixel x y).run ⟨d, []⟩).2

/-- `led` returns only where there is a buffer. -/
theorem WS2811Strip.isSome_of_led {d : WS2811Strip} {x y : Int} {c : LedColor}
    (h : led d x y = .ok c) : d.leds.isSome = true := by
  change cellLed .snake d.base d.leds x y = .ok c at h
  unfold cellLed at h
  cases href : cellRef .snake d.base d.leds x y with
  | error e =>
    rw [href] at h
    cases h
  | ok i =>
    obtain ⟨cells, he, -⟩ := cellRef_eq_ok href
    rw [he]
    rfl

theorem drawPixelAddresses_iff {d : WS2811Strip} (hd : d.Sound) (x y : Int) (color : LedColor) :
    DrawPixelAddresses d x y color ↔ d.leds.isSome = true ∧ (x, y) ∈ logical d := by
  constructor
  · intro h
    have hin : (x, y) ∈ logical d := by
      by_contra hout
      exact h.outside hout (touched_writeLed x y color _)
    obtain ⟨s', hrun, -⟩ := h.inside hin
    refine ⟨?_, hin⟩
    rcases writeLed_cases ⟨d, []⟩ x y color with ⟨i, href, -⟩ | ⟨e, -, hfault⟩
    · obtain ⟨cells, he, -⟩ := cellRef_eq_ok href
      exact Option.isSome_iff_exists.mpr ⟨cells, he⟩
    · unfold Handler.drawPixel at hrun
      rw [hfault] at hrun
      cases hrun
  · rintro ⟨hs, hin⟩
    have hwf := hd.wf hs
    refine ⟨fun _ => ?_, fun hout => absurd hin hout⟩
    obtain ⟨d', hrun, hwf', hb, -, hpix⟩ :=
      Wf.writeLed_run (s := (⟨d, []⟩ : Session WS2811Strip)) hwf hin color
    refine ⟨_, hrun, hb, fun p hp => ?_⟩
    have hp' : p ∈ logical d' := (mem_logical_iff hb).mpr hp
    rw [hwf'.led_ok hp', hpix p hp, hwf.led_ok hp]
    split <;> rfl

theorem pixelAddresses_iff {d : WS2811Strip} (hd : d.Sound) (x y : Int) :
    PixelAddresses d x y ↔ d.leds.isSome = true ∧ (x, y) ∈ logical d := by
  constructor
  · intro h
    have hin : (x, y) ∈ logical d := by
      by_contra hout
      exact h.outside hout (touched_readLed x y _)
    exact ⟨WS2811Strip.isSome_of_led (h.inside hin), hin⟩
  · rintro ⟨hs, hin⟩
    refine ⟨fun _ => ?_, fun hout => absurd hin hout⟩
    have hrun := Wf.readLed_run (s := (⟨d, []⟩ : Session WS2811Strip)) (hd.wf hs) hin
    unfold Handler.pixel
    rw [hrun]

/-- **Pixel requests.** In every state that the service reaches, each of the two requests addresses
the pixel that it names, and only that, exactly when `init` succeeded and the pixel exists. -/
theorem pixel_requests_iff {signed : Bool} {s : Service} (hs : s.Reachable signed) (x y : Int)
    (color : LedColor) :
    (DrawPixelAddresses s.strip x y color ↔
      s.strip.leds.isSome = true ∧ (x, y) ∈ logical s.strip) ∧
    (PixelAddresses s.strip x y ↔ s.strip.leds.isSome = true ∧ (x, y) ∈ logical s.strip) :=
  ⟨drawPixelAddresses_iff hs.sound x y color, pixelAddresses_iff hs.sound x y⟩

/-- A dot in a corner of the served strip after a quarter turn. -/
theorem pixel_requests_iff_turned :
    DrawPixelAddresses ((Service.start (some fun _ => Led.black)).after true
      (.setRotate 90 true false)).strip 31 15 Led.red :=
  have hs : Service.Reachable true (_ : Service) :=
    .request (.setRotate 90 true false) (.start (some fun _ => Led.black))
  (pixel_requests_iff hs 31 15 Led.red).1.mpr ⟨by decide, by decide⟩

/-- `draw_pixel(16, 0, red)` on the served strip paints the pixel `(15, 1)`. -/
theorem not_drawPixelAddresses :
    ¬ DrawPixelAddresses (Service.start (some fun _ => Led.black)).strip 16 0 Led.red ∧
      led ((Service.start (some fun _ => Led.black)).after true (.drawPixel 16 0 Led.red)).strip
        15 1 = .ok Led.red := by
  refine ⟨fun h => ?_, by decide +kernel⟩
  exact h.outside (by decide) (touched_writeLed 16 0 Led.red _)

/-! ## Drawing requests -/

/-- What a pixel of the colour `old` shows after a draw of `c` on a device with the fields `r`. -/
def keyed (r : IRotatablePaintDevice) (old c : LedColor) : LedColor :=
  if r.transparent_ = true ∧ c = r.back then old else c

/-- What a drawing request shows. -/
inductive Drawing where
  | text (chars : List UInt8)
  | number (n : Int)

namespace Drawing

def request (x y : Int) (color background : LedColor) : Drawing → Request
  | .text chars => .drawText x y chars color background
  | .number n => .drawNumber x y n color background

def width : Drawing → Int
  | .text chars => (chars.length : Int) * 4
  | .number n => ((decimal n).length : Int) * 3

def height : Drawing → Int
  | .text _ => 8
  | .number _ => 5

/-- The bit of the image at `(x, y)`. -/
def bit : Drawing → Int → Int → Bool
  | .text chars => textBit chars
  | .number n => numberBit n

/-- ASCII text, or a number whose absolute value is an `int`. -/
def Valid : Drawing → Prop
  | .text chars => ∀ c ∈ chars, c.toNat < 128
  | .number n => INT_MIN < n ∧ n ≤ INT_MAX

/-- The colours that a request of the client shows the image in: the number handler keeps the
default background. -/
def group (color background : LedColor) : Drawing → SimpleAlphaGroup
  | .text _ => ⟨color, background⟩
  | .number _ => ⟨color, Led.black⟩

/-- The point `p` of the device is in the rectangle that the image covers from `(x, y)` on. -/
def Covers (g : Drawing) (x y : Int) (p : Int × Int) : Prop :=
  (x ≤ p.1 ∧ p.1 < x + g.width) ∧ y ≤ p.2 ∧ p.2 < y + g.height

instance (g : Drawing) (x y : Int) : DecidablePred (g.Covers x y) :=
  fun _ => inferInstanceAs (Decidable ((_ ∧ _) ∧ _ ∧ _))

/-- A request for the image leads from `d` to `d'` and honours both colours: each pixel of the
rectangle has the colour that the request names for its bit, but for the pixels that the colour key
protects, and no other pixel has changed. -/
structure Honoured (g : Drawing) (x y : Int) (color background : LedColor) (d d' : WS2811Strip) :
    Prop where
  base_eq : base d' = base d
  drawn : ∀ p ∈ logical d, g.Covers x y p → ∀ old, led d p.1 p.2 = .ok old →
    led d' p.1 p.2 =
      .ok (keyed (base d) old (if g.bit (p.1 - x) (p.2 - y) then color else background))
  frame : ∀ p ∈ logical d, ¬ g.Covers x y p → led d' p.1 p.2 = led d p.1 p.2

/-- When a request honours both colours. The number handler shows clear bits in black, so there the
background has to be black, or the colour key has to make up for the difference. -/
def Kept (g : Drawing) (x y : Int) (background : LedColor) (d : WS2811Strip) : Prop :=
  match g with
  | .text _ => True
  | .number n => background = Led.black ∨ ∀ p ∈ logical d, (Drawing.number n).Covers x y p →
      numberBit n (p.1 - x) (p.2 - y) = false → (base d).transparent_ = true ∧
        ((base d).back = Led.black ∧ led d p.1 p.2 = .ok background ∨
          (base d).back = background ∧ led d p.1 p.2 = .ok Led.black)

/-- The handler draws a source of the image in the colours of `group`. -/
theorem request_run (signed : Bool) (x y : Int) (color background : LedColor) {g : Drawing}
    (hv : g.Valid) (hfit : x + g.width ≤ INT_MAX) (hx : 0 ≤ x) (s : Service) :
    ∃ src : PaintSource, (s.after signed (g.request x y color background)).strip =
        (DeviceOp.draw src x y false false).after s.strip ∧
      src.width = g.width ∧ src.height = g.height ∧
      ∀ px py, src.Inside px py →
        src.led px py = .ok ((g.group color background).pick (g.bit px py)) := by
  cases g with
  | text chars =>
    have hlen : (chars.length : Int) * 4 ≤ INT_MAX := by
      simp only [width] at hfit
      omega
    refine ⟨Text4x8.source signed ⟨⟨color, background⟩, chars⟩, ?_, ?_, ?_, fun px py hin => ?_⟩
    · exact Request.run_done (Handler.drawText signed x y chars color background) _
    · simp only [Text4x8.source, width]
      exact Text4x8.width_eq hlen
    · simp only [Text4x8.source, height]
    · exact Text4x8.led_ok signed (g := ⟨⟨color, background⟩, chars⟩) hlen hv hin
  | number n =>
    obtain ⟨digits, hmake, hcolors, hshows⟩ := DigitGroup3x5.setDigits_ok hv.1 hv.2
      { digits_ := 0, digitsWidth_ := 0 }
    have hshows' : DigitGroup3x5.Shows { digits with
        toSimpleAlphaGroup := digits.toSimpleAlphaGroup.setColor color } n :=
      ⟨hshows.digits_eq, hshows.width_eq, hshows.abs_le⟩
    refine ⟨DigitGroup3x5.source { digits with
        toSimpleAlphaGroup := digits.toSimpleAlphaGroup.setColor color }, ?_, ?_, ?_,
      fun px py hin => ?_⟩
    · refine (Request.run_done (Handler.drawNumber x y n color background) _).trans ?_
      unfold Handler.drawNumber DigitGroup3x5.make
      rw [hmake]
      rfl
    · exact congrArg (· * 3) hshows'.width_eq
    · rfl
    · refine (hshows'.led_ok hin).trans ?_
      rw [hcolors]
      rfl

/-- The image after the request. -/
theorem after_request (signed : Bool) {x y : Int} (color background : LedColor) {g : Drawing}
    (hv : g.Valid) (hx : 0 ≤ x) (hy : 0 ≤ y) (hr : x + g.width ≤ INT_MAX)
    (hb : y + g.height ≤ INT_MAX) {s : Service} (hwf : Wf s.strip) :
    Wf (s.after signed (g.request x y color background)).strip ∧
    base (s.after signed (g.request x y color background)).strip = base s.strip ∧
    ∀ p ∈ logical s.strip, pix (s.after signed (g.request x y color background)).strip p =
      if g.Covers x y p then keyed (base s.strip) (pix s.strip p)
        ((g.group color background).pick (g.bit (p.1 - x) (p.2 - y))) else pix s.strip p := by
  obtain ⟨src, hstrip, hw, hh, hled⟩ := request_run signed x y color background hv hr hx s
  let a : Placement := ⟨src, x, y, false, false⟩
  have hfit : a.Fits := ⟨hx, hy, by show x + src.width ≤ INT_MAX; omega,
    by show y + src.height ≤ INT_MAX; omega⟩
  obtain ⟨-, hwf', hbase, himg⟩ := draw_after hfit (fun px py hin => ⟨_, hled px py hin⟩) hwf
  rw [hstrip]
  refine ⟨hwf', hbase, fun p hp => ?_⟩
  rw [himg p hp]
  have hcovers : src.Inside (p.1 - x) (p.2 - y) ↔ g.Covers x y p := by
    simp only [PaintSource.Inside, Covers, hw, hh]
    omega
  by_cases hin : g.Covers x y p
  swap
  · rw [if_neg hin, paint_none (a.placed_of_not_shown fun hs => hin (hcovers.mp hs.1))]
  have hpix : src.pix (p.1 - x) (p.2 - y) = _ :=
    PaintSource.led_eq_pix (hled _ _ (hcovers.mpr hin))
  rw [if_pos hin]
  unfold keyed
  split
  · rename_i hkey
    exact paint_none (a.placed_of_not_shown fun hs => hs.2 ⟨hkey.1, hpix.trans hkey.2⟩)
  · rename_i hkey
    have hs : a.Shown (base s.strip) (a.toSource p) :=
      ⟨hcovers.mpr hin, fun h => hkey ⟨h.1, hpix.symm.trans h.2⟩⟩
    rw [paint_some (a.placed_of_shown hs)]
    exact hpix

/-- When the colour key makes up for a clear bit shown in black. -/
theorem keyed_black_iff {r : IRotatablePaintDevice} {old background : LedColor} :
    keyed r old Led.black = keyed r old background ↔
      background = Led.black ∨ r.transparent_ = true ∧
        (r.back = Led.black ∧ old = background ∨ r.back = background ∧ old = Led.black) := by
  unfold keyed
  by_cases hb : background = Led.black
  · simp [hb]
  by_cases ht : r.transparent_ = true
  swap
  · simp [ht, hb, eq_comm]
  by_cases h0 : r.back = Led.black
  · simp [ht, hb, h0, eq_comm]
  by_cases h1 : r.back = background
  · simp [ht, hb, h1, Ne.symm hb, eq_comm]
  · simp [ht, hb, h0, h1, Ne.symm h0, Ne.symm h1, eq_comm]

/-- **Drawing requests.** On an initialised strip in any state that the service reaches, a text is
always shown in both of its colours, and a number exactly if its clear bits come out right
although the handler shows them in black. -/
theorem honoured_iff {signed : Bool} {s : Service} (hs : s.Reachable signed)
    (hinit : s.strip.leds.isSome = true) {g : Drawing} (hv : g.Valid) {x y : Int} (hx : 0 ≤ x)
    (hy : 0 ≤ y) (hr : x + g.width ≤ INT_MAX) (hb : y + g.height ≤ INT_MAX)
    (color background : LedColor) :
    g.Honoured x y color background s.strip
        (s.after signed (g.request x y color background)).strip ↔
      g.Kept x y background s.strip := by
  have hwf := hs.sound.wf hinit
  obtain ⟨hwf', hbase, himg⟩ := after_request signed color background hv hx hy hr hb hwf
  set d' := (s.after signed (g.request x y color background)).strip
  have hled' : ∀ p ∈ logical s.strip, led d' p.1 p.2 = .ok (pix d' p) := fun p hp =>
    hwf'.led_ok ((mem_logical_iff hbase).mpr hp)
  -- only the pixels of the rectangle matter
  have hiff : g.Honoured x y color background s.strip d' ↔
      ∀ p ∈ logical s.strip, g.Covers x y p →
        keyed (base s.strip) (pix s.strip p)
          ((g.group color background).pick (g.bit (p.1 - x) (p.2 - y))) =
        keyed (base s.strip) (pix s.strip p)
          (if g.bit (p.1 - x) (p.2 - y) then color else background) := by
    constructor
    · intro h p hp hin
      have hp' := h.drawn p hp hin _ (hwf.led_ok hp)
      rw [hled' p hp, himg p hp, if_pos hin] at hp'
      exact Except.ok.inj hp'
    · refine fun h => ⟨hbase, fun p hp hin old hold => ?_, fun p hp hout => ?_⟩
      · obtain rfl := Except.ok.inj ((hwf.led_ok hp).symm.trans hold)
        rw [hled' p hp, himg p hp, if_pos hin, h p hp hin]
      · rw [hled' p hp, himg p hp, if_neg hout, hwf.led_ok hp]
  rw [hiff]
  cases g with
  | text chars => exact iff_of_true (fun p _ _ => rfl) trivial
  | number n =>
    constructor
    · intro h
      by_cases hblack : background = Led.black
      · exact .inl hblack
      refine .inr fun p hp hin hclear => ?_
      have heq := h p hp hin
      simp only [show (number n).bit (p.1 - x) (p.2 - y) = false from hclear, Bool.false_eq_true,
        if_false] at heq
      have hkey := (keyed_black_iff.mp heq).resolve_left hblack
      rw [hwf.led_ok hp]
      simpa only [Except.ok.injEq] using hkey
    · intro h p hp hin
      cases hbit : (number n).bit (p.1 - x) (p.2 - y)
      · simp only [Bool.false_eq_true, if_false]
        refine keyed_black_iff.mpr (h.imp_right fun hkey => ?_)
        have hp' := hkey p hp hin hbit
        rw [hwf.led_ok hp] at hp'
        simpa only [Except.ok.injEq] using hp'
      · rfl

end Drawing

/-- Red on green: the letter `A` in a corner of the served strip, and the number 7 on a strip that
is green already and hides black. -/
theorem honoured_iff_letter_digit :
    let black := Service.start (some fun _ => Led.black)
    let green := (Service.start (some fun _ => Led.green)).after true (.setTransparent true)
    (Drawing.text [65]).Honoured 12 24 Led.red Led.green black.strip
        (black.after true (.drawText 12 24 [65] Led.red Led.green)).strip ∧
      (Drawing.number 7).Honoured 2 1 Led.red Led.green green.strip
        (green.after true (.drawNumber 2 1 7 Led.red Led.green)).strip := by
  intro black green
  have hgreen : Service.Reachable true green := .request _ (.start _)
  refine ⟨(Drawing.honoured_iff (.start (some fun _ => Led.black)) rfl (g := .text [65])
    (by simp [Drawing.Valid]) (by decide) (by decide) (by decide) (by decide) Led.red
    Led.green).mpr trivial, ?_⟩
  refine (Drawing.honoured_iff hgreen rfl (g := .number 7) ⟨by decide, by decide⟩ (by decide)
    (by decide) (by decide) (by decide) Led.red Led.green).mpr
    (.inr fun p _ hin _ => ⟨rfl, .inl ⟨rfl, ?_⟩⟩)
  -- the buffer shows green wherever the digit is drawn
  have hleds : ∀ x ∈ [2, 3, 4], ∀ y ∈ [1, 2, 3, 4, 5], led green.strip x y = .ok Led.green := by
    decide +kernel
  obtain ⟨⟨hx0, hx1⟩, hy0, hy1⟩ : (2 ≤ p.1 ∧ p.1 < 2 + 3) ∧ 1 ≤ p.2 ∧ p.2 < 1 + 5 := hin
  refine hleds p.1 ?_ p.2 ?_
  · simp only [List.mem_cons, List.not_mem_nil, or_false]
    omega
  · simp only [List.mem_cons, List.not_mem_nil, or_false]
    omega

/-- The number 7 in red on green: the clear bit at `(0, 1)` stays black. -/
theorem not_honoured_number :
    ¬ (Drawing.number 7).Honoured 0 0 Led.red Led.green
      (Service.start (some fun _ => Led.black)).strip
      ((Service.start (some fun _ => Led.black)).after true
        (.drawNumber 0 0 7 Led.red Led.green)).strip := by
  intro h
  have hgreen := h.drawn (0, 1) (by decide) (by decide) Led.black (by decide +kernel)
  exact absurd hgreen (by decide +kernel)

end Ws2812
