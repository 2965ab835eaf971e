import Ws2812Strip.Draw
import Ws2812Strip.Glyph
import Mathlib.Data.List.GetD

/-!
# Drawing a text piece by piece

A text is its characters side by side, so drawing `s ++ t` should be drawing `s` and then, to the
right of it, `t`.

* `Beside a b c`: the image `a` is `b` with `c` to the right of it. At every point of a device the
  layer of `a` is that of one of the two, and the other one is empty there (`placed_of_lt`,
  `placed_of_not_lt`). A mirrored image has its pieces the other way round (`atLeft`, `atRight`).
* `Beside.framebuffer_eq`: drawing the pieces, in either order, leaves what drawing `a` does.
* `draw_text_append`: the same for texts.
-/

namespace Ws2812

open IPaintDevice Grid Overlay

/-- Two placements that show the same pixel at a point, if any. -/
theorem Placement.placed_congr {a b : Placement} {r : IRotatablePaintDevice} {p : Int × Int}
    (hin : b.src.Inside (b.toSource p).1 (b.toSource p).2 ↔
      a.src.Inside (a.toSource p).1 (a.toSource p).2)
    (hled : a.src.Inside (a.toSource p).1 (a.toSource p).2 →
      b.src.led (b.toSource p).1 (b.toSource p).2 = a.src.led (a.toSource p).1 (a.toSource p).2) :
    b.placed r p = a.placed r p := by
  by_cases h : a.src.Inside (a.toSource p).1 (a.toSource p).2
  · have hpix : b.src.pix (b.toSource p).1 (b.toSource p).2 =
        a.src.pix (a.toSource p).1 (a.toSource p).2 := by
      unfold PaintSource.pix
      rw [hled h]
    exact if_congr (and_congr hin (by rw [hpix])) (by rw [hpix]) rfl
  · rw [a.placed_eq_none h, b.placed_eq_none (mt hin.mp h)]

/-! ## Many draws -/

section Framebuffer

variable {D : Type} [IPaintDevice D]

/-- The framebuffer after the operations, all of which have to return. -/
def framebuffer : List DeviceOp → D → Except Fault (Option (List LedColor))
  | [], d => .ok (leds d)
  | op :: ops, d => do
    op.outcome d
    framebuffer ops (op.after d)

/-- The call of `draw` that puts a source at its place. -/
def Placement.op (a : Placement) : DeviceOp := .draw a.src a.x a.y a.flipX a.flipY

/-- Draws that fit leave their layers on the image, the last one on top. -/
theorem framebuffer_draws [LawfulPaintDevice D] {as : List Placement}
    (has : ∀ a ∈ as, a.Fits ∧ a.src.Total) {d : D} (hwf : Wf d) :
    ∃ d' : D, framebuffer (as.map Placement.op) d = .ok (leds d') ∧ Wf d' ∧ base d' = base d ∧
      ∀ p ∈ logical d, pix d' p = paintAll (fun a => a.placed (base d)) as (pix d) p := by
  induction as generalizing d with
  | nil => exact ⟨d, rfl, hwf, rfl, fun _ _ => rfl⟩
  | cons a as ih =>
    obtain ⟨⟨hfit, htot⟩, hrest⟩ := List.forall_mem_cons.mp has
    obtain ⟨houtcome, hwf₁, hb₁, himg₁⟩ := draw_after hfit htot hwf
    obtain ⟨d', hframe, hwf', hb', himg'⟩ := ih hrest hwf₁
    refine ⟨d', ?_, hwf', hb'.trans hb₁, fun p hp => ?_⟩
    · show (a.op.outcome d >>= fun _ => framebuffer (as.map Placement.op) (a.op.after d)) = _
      rw [show a.op.outcome d = .ok () from houtcome]
      exact hframe
    · rw [himg' p ((mem_logical_iff hb₁).mpr hp), hb₁]
      exact paintAll_congr (himg₁ p hp)

theorem framebuffer_ok [LawfulPaintDevice D] {as : List Placement}
    (has : ∀ a ∈ as, a.Fits ∧ a.src.Total) {d : D} (hwf : Wf d) :
    ∃ cells, framebuffer (as.map Placement.op) d = .ok (some cells) := by
  obtain ⟨d', hframe, hwf', -, -⟩ := framebuffer_draws has hwf
  obtain ⟨cells, hcells, -⟩ := hwf'.cells
  exact ⟨cells, hframe.trans (by rw [hcells])⟩

/-- Draws whose layers look alike leave the same framebuffer. -/
theorem framebuffer_congr [LawfulPaintDevice D] {as bs : List Placement}
    (has : ∀ a ∈ as, a.Fits ∧ a.src.Total) (hbs : ∀ b ∈ bs, b.Fits ∧ b.src.Total) {d : D}
    (hwf : Wf d)
    (hsame : ∀ p ∈ logical d, paintAll (fun a => a.placed (base d)) bs (pix d) p =
      paintAll (fun a => a.placed (base d)) as (pix d) p) :
    framebuffer (bs.map Placement.op) d = framebuffer (as.map Placement.op) d := by
  obtain ⟨d₁, hframe₁, hwf₁, hb₁, himg₁⟩ := framebuffer_draws has hwf
  obtain ⟨d₂, hframe₂, hwf₂, hb₂, himg₂⟩ := framebuffer_draws hbs hwf
  have hleds : leds d₂ = leds d₁ := by
    refine hwf₁.leds_eq hwf₂ (hb₂.trans hb₁.symm) fun p hp => ?_
    have hp' : p ∈ logical d := (mem_logical_iff hb₁).mp hp
    rw [himg₂ p hp', himg₁ p hp', hsame p hp']
  rw [hframe₁, hframe₂, hleds]

end Framebuffer

/-! ## Images side by side -/

/-- The image `a` is `b` with `c` to the right of it. -/
structure Beside (a b c : PaintSource) : Prop where
  width_eq : a.width = b.width + c.width
  left_nonneg : 0 ≤ b.width
  right_nonneg : 0 ≤ c.width
  left_height : b.height = a.height
  right_height : c.height = a.height
  left : ∀ x y, b.Inside x y → a.led x y = b.led x y
  right : ∀ x y, c.Inside x y → a.led (b.width + x) y = c.led x y

namespace Beside

variable {a b c : PaintSource}

/-- Where the left piece goes when the image goes to `(x, y)`. -/
def atLeft (b c : PaintSource) (x y : Int) (flipX flipY : Bool) : Placement :=
  ⟨b, if flipX then x + c.width else x, y, flipX, flipY⟩

/-- Where the right piece goes. -/
def atRight (b c : PaintSource) (x y : Int) (flipX flipY : Bool) : Placement :=
  ⟨c, if flipX then x else x + b.width, y, flipX, flipY⟩

theorem total (h : Beside a b c) (hb : b.Total) (hc : c.Total) : a.Total := by
  rintro x y ⟨⟨hx0, hx⟩, hy⟩
  obtain ⟨hw, -, -, hbh, hch, hleft, hright⟩ := h
  by_cases hlt : x < b.width
  · have hin : b.Inside x y := ⟨⟨hx0, hlt⟩, by omega⟩
    rw [hleft x y hin]
    exact hb x y hin
  · have hin : c.Inside (x - b.width) y := ⟨by omega, by omega⟩
    have hled := hright (x - b.width) y hin
    rw [show b.width + (x - b.width) = x by omega] at hled
    rw [hled]
    exact hc _ _ hin

theorem fits (h : Beside a b c) {x y : Int} {flipX flipY : Bool}
    (hfit : Placement.Fits ⟨a, x, y, flipX, flipY⟩) :
    (atLeft b c x y flipX flipY).Fits ∧ (atRight b c x y flipX flipY).Fits := by
  obtain ⟨hx, hy, hr, hb⟩ : 0 ≤ x ∧ 0 ≤ y ∧ x + a.width ≤ INT_MAX ∧ y + a.height ≤ INT_MAX :=
    ⟨hfit.1, hfit.2, hfit.3, hfit.4⟩
  obtain ⟨hw, hb0, hc0, hbh, hch, -, -⟩ := h
  have hleft : 0 ≤ (atLeft b c x y flipX flipY).x ∧
      (atLeft b c x y flipX flipY).x + b.width ≤ INT_MAX := by
    unfold atLeft
    cases flipX <;> simp <;> omega
  have hright : 0 ≤ (atRight b c x y flipX flipY).x ∧
      (atRight b c x y flipX flipY).x + c.width ≤ INT_MAX := by
    unfold atRight
    cases flipX <;> simp <;> omega
  exact ⟨⟨hleft.1, hy, hleft.2, by show y + b.height ≤ INT_MAX; omega⟩,
    ⟨hright.1, hy, hright.2, by show y + c.height ≤ INT_MAX; omega⟩⟩

theorem toSource_left (h : Beside a b c) (x y : Int) (flipX flipY : Bool) (p : Int × Int) :
    (atLeft b c x y flipX flipY).toSource p =
      (⟨a, x, y, flipX, flipY⟩ : Placement).toSource p := by
  simp only [Placement.toSource, atLeft, h.left_height, h.width_eq]
  cases flipX
  · simp [mirrored]
  · simp [mirrored]
    omega

theorem toSource_right (h : Beside a b c) (x y : Int) (flipX flipY : Bool) (p : Int × Int) :
    (atRight b c x y flipX flipY).toSource p =
      (((⟨a, x, y, flipX, flipY⟩ : Placement).toSource p).1 - b.width,
        ((⟨a, x, y, flipX, flipY⟩ : Placement).toSource p).2) := by
  simp only [Placement.toSource, atRight, h.right_height, h.width_eq]
  cases flipX <;> simp [mirrored] <;> omega

section Placed

variable {x y : Int} {flipX flipY : Bool} {p : Int × Int}

/-- In the left columns the left piece shows what the image shows, and the right one nothing. -/
theorem placed_of_lt (h : Beside a b c) (r : IRotatablePaintDevice)
    (hlt : ((⟨a, x, y, flipX, flipY⟩ : Placement).toSource p).1 < b.width) :
    (atLeft b c x y flipX flipY).placed r p =
        (⟨a, x, y, flipX, flipY⟩ : Placement).placed r p ∧
      (atRight b c x y flipX flipY).placed r p = none := by
  have hl := h.toSource_left x y flipX flipY p
  have hr := h.toSource_right x y flipX flipY p
  generalize hs : (⟨a, x, y, flipX, flipY⟩ : Placement).toSource p = s at hl hr hlt
  obtain ⟨hw, hb0, hc0, hbh, hch, hleft, hright⟩ := h
  refine ⟨Placement.placed_congr ?_ ?_, Placement.placed_eq_none _ ?_⟩
  · rw [hl, hs]
    show b.Inside s.1 s.2 ↔ a.Inside s.1 s.2
    unfold PaintSource.Inside
    omega
  · rw [hl, hs]
    intro hin
    refine (hleft s.1 s.2 ⟨⟨hin.1.1, hlt⟩, ?_⟩).symm
    rw [hbh]
    exact hin.2
  · rw [hr]
    show ¬ c.Inside (s.1 - b.width) s.2
    unfold PaintSource.Inside
    omega

/-- In the other columns it is the other way round. -/
theorem placed_of_not_lt (h : Beside a b c) (r : IRotatablePaintDevice)
    (hlt : ¬ ((⟨a, x, y, flipX, flipY⟩ : Placement).toSource p).1 < b.width) :
    (atLeft b c x y flipX flipY).placed r p = none ∧
      (atRight b c x y flipX flipY).placed r p =
        (⟨a, x, y, flipX, flipY⟩ : Placement).placed r p := by
  have hl := h.toSource_left x y flipX flipY p
  have hr := h.toSource_right x y flipX flipY p
  generalize hs : (⟨a, x, y, flipX, flipY⟩ : Placement).toSource p = s at hl hr hlt
  obtain ⟨hw, hb0, hc0, hbh, hch, hleft, hright⟩ := h
  have hin : c.Inside (s.1 - b.width) s.2 ↔ a.Inside s.1 s.2 := by
    unfold PaintSource.Inside
    omega
  refine ⟨Placement.placed_eq_none _ ?_, Placement.placed_congr ?_ ?_⟩
  · rw [hl]
    show ¬ b.Inside s.1 s.2
    unfold PaintSource.Inside
    omega
  · rw [hr, hs]
    exact hin
  · rw [hr, hs]
    intro ha
    have hled := hright _ _ (hin.mpr ha)
    rw [show b.width + (s.1 - b.width) = s.1 by omega] at hled
    exact hled.symm

end Placed

/-- **Drawing piece by piece.** The pieces, drawn in either order, leave the framebuffer that the
image leaves. -/
theorem framebuffer_eq (h : Beside a b c) (hb : b.Total) (hc : c.Total) {D : Type}
    [IPaintDevice D] [LawfulPaintDevice D] {d : D} (hwf : Wf d) {x y : Int} {flipX flipY : Bool}
    (hfit : Placement.Fits ⟨a, x, y, flipX, flipY⟩) :
    ∃ cells, framebuffer [.draw a x y flipX flipY] d = .ok (some cells) ∧
      ∀ pieces : List Placement,
        pieces.Perm [atLeft b c x y flipX flipY, atRight b c x y flipX flipY] →
        framebuffer (pieces.map Placement.op) d = .ok (some cells) := by
  obtain ⟨hfl, hfr⟩ := h.fits hfit
  have hwhole : ∀ q ∈ [(⟨a, x, y, flipX, flipY⟩ : Placement)], q.Fits ∧ q.src.Total :=
    List.forall_mem_singleton.mpr ⟨hfit, h.total hb hc⟩
  obtain ⟨cells, hcells⟩ := framebuffer_ok hwhole hwf
  refine ⟨cells, hcells, fun pieces hp => ?_⟩
  have hpieces : ∀ q ∈ pieces, q.Fits ∧ q.src.Total := by
    intro q hq
    rcases List.mem_pair.mp (hp.mem_iff.mp hq) with rfl | rfl
    · exact ⟨hfl, hb⟩
    · exact ⟨hfr, hc⟩
  refine (framebuffer_congr hwhole hpieces hwf fun p _ => ?_).trans hcells
  have hlook : (atLeft b c x y flipX flipY).placed (base d) p = none ∨
      (atRight b c x y flipX flipY).placed (base d) p = none →
      paintAll (fun q => q.placed (base d)) pieces (pix d) p = look (fun q => q.placed (base d))
        [atLeft b c x y flipX flipY, atRight b c x y flipX flipY] (pix d) p :=
    fun hnone => paintAll_eq_look (agreeAt_pair hnone) hp.symm
  by_cases hlt : ((⟨a, x, y, flipX, flipY⟩ : Placement).toSource p).1 < b.width
  · obtain ⟨hl, hr⟩ := h.placed_of_lt (base d) hlt
    rw [hlook (.inr hr), look_cons]
    unfold paint
    rw [hl, look_cons, paint_none hr]
    rfl
  · obtain ⟨hl, hr⟩ := h.placed_of_not_lt (base d) hlt
    rw [hlook (.inl hl), look_cons, paint_none hl, look_cons]
    unfold paint
    rw [hr]
    rfl

end Beside

/-! ## Texts -/

/-- `draw(Text4x8(text, color, back), x, y, flip_x, flip_y)` -/
def drawText (signed : Bool) (group : SimpleAlphaGroup) (flipX flipY : Bool) (text : List UInt8)
    (x y : Int) : DeviceOp := .draw (Text4x8.source signed ⟨group, text⟩) x y flipX flipY

section Text

variable {s t : List UInt8} {x y : Int}

theorem textBit_append_left (hx : 0 ≤ x ∧ x < (s.length : Int) * 4) :
    textBit (s ++ t) x y = textBit s x y := by
  unfold textBit
  rw [List.getD_append _ _ _ _ (by omega)]

theorem textBit_append_right (hx : 0 ≤ x) :
    textBit (s ++ t) ((s.length : Int) * 4 + x) y = textBit t x y := by
  have hcell : (((s.length : Int) * 4 + x) / 4).toNat = s.length + (x / 4).toNat := by omega
  have hcol : ((s.length : Int) * 4 + x) % 4 = x % 4 := by omega
  unfold textBit
  rw [hcell, hcol, List.getD_append_right _ _ _ _ (by omega), Nat.add_sub_cancel_left]

namespace Text4x8

theorem total (signed : Bool) {g : Text4x8} (hfit : (g.text.length : Int) * 4 ≤ INT_MAX)
    (hascii : ∀ c ∈ g.text, c.toNat < 128) : (g.source signed).Total :=
  fun _ _ hin => ⟨_, led_ok signed hfit hascii hin⟩

/-- A text is its two parts side by side. -/
theorem beside (signed : Bool) (group : SimpleAlphaGroup) (hs : ∀ c ∈ s, c.toNat < 128)
    (ht : ∀ c ∈ t, c.toNat < 128) (hfit : ((s.length : Int) + t.length) * 4 ≤ INT_MAX) :
    Beside (source signed ⟨group, s ++ t⟩) (source signed ⟨group, s⟩)
      (source signed ⟨group, t⟩) := by
  have hst : ∀ c ∈ s ++ t, c.toNat < 128 := fun c hc => (List.mem_append.mp hc).elim (hs c) (ht c)
  have hfst : ((s ++ t).length : Int) * 4 ≤ INT_MAX := by
    rw [List.length_append]
    exact_mod_cast hfit
  have hfs : (s.length : Int) * 4 ≤ INT_MAX := by omega
  have hft : (t.length : Int) * 4 ≤ INT_MAX := by omega
  have hwst := source_width signed (g := ⟨group, s ++ t⟩) hfst
  have hws := source_width signed (g := ⟨group, s⟩) hfs
  have hwt := source_width signed (g := ⟨group, t⟩) hft
  simp only [List.length_append, Nat.cast_add] at hwst hws hwt
  refine ⟨by omega, by omega, by omega, rfl, rfl, fun x y hin => ?_, fun x y hin => ?_⟩
  · have hx : 0 ≤ x ∧ x < (s.length : Int) * 4 := hws ▸ hin.1
    have hin' : (source signed ⟨group, s ++ t⟩).Inside x y := ⟨⟨hx.1, by omega⟩, hin.2⟩
    show led signed ⟨group, s ++ t⟩ x y = led signed ⟨group, s⟩ x y
    rw [led_ok signed (g := ⟨group, s ++ t⟩) hfst hst hin',
      led_ok signed (g := ⟨group, s⟩) hfs hs hin, textBit_append_left hx]
  · have hx : 0 ≤ x ∧ x < (t.length : Int) * 4 := hwt ▸ hin.1
    rw [hws]
    have hin' : (source signed ⟨group, s ++ t⟩).Inside ((s.length : Int) * 4 + x) y :=
      ⟨⟨by omega, by omega⟩, hin.2⟩
    show led signed ⟨group, s ++ t⟩ ((s.length : Int) * 4 + x) y = led signed ⟨group, t⟩ x y
    rw [led_ok signed (g := ⟨group, s ++ t⟩) hfst hst hin',
      led_ok signed (g := ⟨group, t⟩) hft ht hin, textBit_append_right hx.1]

end Text4x8

end Text

/-- **Drawing a text is drawing its parts.** On a reachable device, for ASCII texts that fit, the
parts drawn one after the other, in either order, leave the framebuffer that the whole text
leaves. A mirrored text has its parts the other way round. -/
theorem draw_text_append {D : Type} [IPaintDevice D] [LawfulPaintDevice D] {d : D}
    (hd : Reachable d) (signed : Bool) (group : SimpleAlphaGroup) {s t : List UInt8}
    (hs : ∀ c ∈ s, c.toNat < 128) (ht : ∀ c ∈ t, c.toNat < 128) {x y : Int} (hx : 0 ≤ x)
    (hy : 0 ≤ y) (hr : x + 4 * ((s.length : Int) + t.length) ≤ INT_MAX) (hb : y + 8 ≤ INT_MAX)
    (flipY : Bool) :
    (∃ cells, framebuffer [drawText signed group false flipY (s ++ t) x y] d = .ok (some cells) ∧
      framebuffer [drawText signed group false flipY s x y,
        drawText signed group false flipY t (x + 4 * s.length) y] d = .ok (some cells) ∧
      framebuffer [drawText signed group false flipY t (x + 4 * s.length) y,
        drawText signed group false flipY s x y] d = .ok (some cells)) ∧
    ∃ cells, framebuffer [drawText signed group true flipY (s ++ t) x y] d = .ok (some cells) ∧
      framebuffer [drawText signed group true flipY t x y,
        drawText signed group true flipY s (x + 4 * t.length) y] d = .ok (some cells) ∧
      framebuffer [drawText signed group true flipY s (x + 4 * t.length) y,
        drawText signed group true flipY t x y] d = .ok (some cells) := by
  have hfit : ((s.length : Int) + t.length) * 4 ≤ INT_MAX := by omega
  have hfs : (s.length : Int) * 4 ≤ INT_MAX := by omega
  have hft : (t.length : Int) * 4 ≤ INT_MAX := by omega
  have hbeside := Text4x8.beside signed group hs ht hfit
  have hws := Text4x8.source_width signed (g := ⟨group, s⟩) hfs
  have hwt := Text4x8.source_width signed (g := ⟨group, t⟩) hft
  have hls : x + (Text4x8.source signed ⟨group, s⟩).width = x + 4 * s.length := by
    rw [hws, mul_comm]
  have hlt : x + (Text4x8.source signed ⟨group, t⟩).width = x + 4 * t.length := by
    rw [hwt, mul_comm]
  have hplace : ∀ flipX, Placement.Fits
      ⟨Text4x8.source signed ⟨group, s ++ t⟩, x, y, flipX, flipY⟩ := by
    intro flipX
    refine ⟨hx, hy, ?_, hb⟩
    show x + (Text4x8.source signed ⟨group, s ++ t⟩).width ≤ INT_MAX
    rw [hbeside.width_eq]
    omega
  have hst := Text4x8.total signed (g := ⟨group, s⟩) hfs hs
  have htt := Text4x8.total signed (g := ⟨group, t⟩) hft ht
  constructor
  · obtain ⟨cells, hwhole, hpieces⟩ := hbeside.framebuffer_eq hst htt hd.wf (hplace false)
    rw [← hls]
    exact ⟨cells, hwhole, hpieces _ (.refl _), hpieces _ (.swap _ _ _)⟩
  · obtain ⟨cells, hwhole, hpieces⟩ := hbeside.framebuffer_eq hst htt hd.wf (hplace true)
    rw [← hlt]
    exact ⟨cells, hwhole, hpieces _ (.swap _ _ _), hpieces _ (.refl _)⟩

/-- Two letters on a transparent pixmap that is too narrow for the second one. -/
theorem draw_text_append_letters :
    framebuffer [drawText true ⟨Led.red, Led.black⟩ false false [0x68] 0 0,
        drawText true ⟨Led.red, Led.black⟩ false false [0x69] 4 0]
      ((DeviceOp.setTransparent true).after (Pixmap.make 6 8 Led.black)) =
    framebuffer [drawText true ⟨Led.red, Led.black⟩ false false ([0x68] ++ [0x69]) 0 0]
      ((DeviceOp.setTransparent true).after (Pixmap.make 6 8 Led.black)) := by
  obtain ⟨⟨cells, hwhole, hparts, -⟩, -⟩ := draw_text_append
    (d := (DeviceOp.setTransparent true).after (Pixmap.make 6 8 Led.black))
    (.step _ (.fresh (Pixmap.fresh_make (by decide) (by decide) (by decide)))) true
    ⟨Led.red, Led.black⟩ (s := [0x68]) (t := [0x69]) (by simp) (by simp) (x := 0) (y := 0)
    (by decide) (by decide) (by decide) (by decide) false
  exact hparts.trans hwhole.symm

end Ws2812
