import Ws2812Strip.WindowTree
import Ws2812Strip.Glyph

/-!
# A draw that its source ends

`draw` writes each pixel before it reads the next one, and nothing undoes the writes of a call that
throws. So a call that the `led` of its source ends leaves the first part of the source on the
device: the pixels that the loops read before the failing one, `Stopped`. A `PaintSource` is a
value: the results are about sources that do not read the device that is drawn on.

* `failed_draw`: the image after a call that failed, for every source and every point of failure.
* `not_failed_draw_half`: a tree of windows that fails at its second pixel, after a write.
-/

namespace Ws2812

open IPaintDevice Grid Overlay

section Failed

variable {D : Type} [IPaintDevice D] {a : Placement} {r : IRotatablePaintDevice}
  {old : Int × Int → LedColor} {n p : Int × Int}

/-- What the loops have passed shows, unless the colour key hides it. -/
theorem Blitted.pix_seen {s : Session D} (h : Blitted a r old n s) (hp : p ∈ r.logical)
    (hin : a.src.Inside (a.toSource p).1 (a.toSource p).2) (hseen : a.seen n p) :
    pix s.dev p = if r.transparent_ ∧ a.src.pix (a.toSource p).1 (a.toSource p).2 = r.back
      then old p else a.src.pix (a.toSource p).1 (a.toSource p).2 := by
  rw [h.2 p hp]
  split
  · rename_i hkey
    refine paint_none ?_
    rw [restrict_of hseen, a.placed_of_not_shown fun hs => hs.2 hkey]
  · rename_i hkey
    refine paint_some ?_
    rw [restrict_of hseen, a.placed_of_shown ⟨hin, hkey⟩]

/-- What the loops have not passed is as before. -/
theorem Blitted.pix_rest {s : Session D} (h : Blitted a r old n s) (hp : p ∈ r.logical)
    (hrest : ¬ (a.src.Inside (a.toSource p).1 (a.toSource p).2 ∧ a.seen n p)) :
    pix s.dev p = old p := by
  rw [h.2 p hp]
  refine paint_none ?_
  by_cases hseen : a.seen n p
  · rw [restrict_of hseen, a.placed_eq_none fun hin => hrest ⟨hin, hseen⟩]
  · rw [restrict_of_not hseen]

/-- The source pixel of a point of the device passes both clip tests. -/
theorem Placement.read_toSource (hp : p ∈ r.logical)
    (hin : a.src.Inside (a.toSource p).1 (a.toSource p).2) : a.Read r (a.toSource p) := by
  have htarget := a.toDevice_toSource p
  refine ⟨hin, ?_, ?_⟩
  · rw [show a.col (a.toSource p).1 = p.1 from congrArg Prod.fst htarget]
    exact hp.1.2
  · rw [show a.row (a.toSource p).2 = p.2 from congrArg Prod.snd htarget]
    exact hp.2.2

/-- A call of `draw` that fails has been stopped by its source. -/
theorem stopped_of_error [LawfulPaintDevice D] {d : D} (hwf : Wf d) (hfit : a.Fits) {e : Fault}
    (he : (DeviceOp.draw a.src a.x a.y a.flipX a.flipY).outcome d = .error e) :
    ∃ s' : Session D, (DeviceOp.draw a.src a.x a.y a.flipX a.flipY).after d = s'.dev ∧
      Stopped a (base d) (pix d) e s' := by
  rcases hrun : (draw a.src a.x a.y a.flipX a.flipY).run (⟨d, []⟩ : Session D) with ⟨o, s'⟩
  obtain ⟨houtcome, hafter⟩ := DeviceOp.outcome_after
    (.draw a.src a.x a.y a.flipX a.flipY) hrun
  obtain rfl : o = .error e := houtcome.symm.trans he
  exact ⟨s', hafter, (draw_triple hfit).error ⟨⟨hwf, rfl⟩, fun _ _ => rfl⟩ hrun⟩

end Failed

/-- **What a failed draw leaves.** A call of `draw` that ends early has failed at a pixel of its
source, the first one, in the order of the loops, that passes both clip tests and whose `led`
throws. Every pixel of the device whose source pixel comes before that one shows it, unless the
colour key hides it; every other pixel keeps its colour. The source does not read the device that is
drawn on. -/
theorem failed_draw {D : Type} [IPaintDevice D] [LawfulPaintDevice D] {d : D} (hd : Reachable d)
    (src : PaintSource) (x y : Int) (flipX flipY : Bool) (hx : 0 ≤ x) (hy : 0 ≤ y)
    (hr : x + src.width ≤ INT_MAX) (hb : y + src.height ≤ INT_MAX) {e : Fault}
    (he : (DeviceOp.draw src x y flipX flipY).outcome d = .error e) :
    base ((DeviceOp.draw src x y flipX flipY).after d) = base d ∧
    ∃ nx ny, src.Inside nx ny ∧ src.led nx ny = .error e ∧
      x + (if flipX then src.width - 1 - nx else nx) < width d ∧
      y + (if flipY then src.height - 1 - ny else ny) < height d ∧
      ∀ px py, 0 ≤ px ∧ px < width d → 0 ≤ py ∧ py < height d →
        ∀ sx sy, sx = (if flipX then src.width - 1 - (px - x) else px - x) →
          sy = (if flipY then src.height - 1 - (py - y) else py - y) →
          (src.Inside sx sy ∧ (sy < ny ∨ sy = ny ∧ sx < nx) →
            ∃ c, src.led sx sy = .ok c ∧
              led ((DeviceOp.draw src x y flipX flipY).after d) px py =
                if (base d).transparent_ ∧ c = (base d).back then led d px py else .ok c) ∧
          (¬ (src.Inside sx sy ∧ (sy < ny ∨ sy = ny ∧ sx < nx)) →
            led ((DeviceOp.draw src x y flipX flipY).after d) px py = led d px py) := by
  let a : Placement := ⟨src, x, y, flipX, flipY⟩
  have hwf := hd.wf
  obtain ⟨s', hafter, n, hread, hreached, hled, hblit⟩ :=
    stopped_of_error (a := a) hwf ⟨hx, hy, hr, hb⟩ he
  have hafter' : (DeviceOp.draw src x y flipX flipY).after d = s'.dev := hafter
  rw [hafter']
  refine ⟨hblit.1.2, n.1, n.2, hread.1, hled, hread.2.1, hread.2.2, ?_⟩
  rintro px py hpx hpy sx sy rfl rfl
  have hmem : (px, py) ∈ (base d).logical := ⟨hpx, hpy⟩
  have hmem' : (px, py) ∈ logical s'.dev := (mem_logical_iff hblit.1.2).mpr hmem
  rw [hblit.1.1.led_ok hmem', hwf.led_ok (p := (px, py)) hmem]
  constructor
  · -- a pixel that was passed was read, so its source returned
    rintro ⟨hin, hseen⟩
    obtain ⟨c, hc⟩ := hreached (a.toSource (px, py)) hseen (Placement.read_toSource hmem hin)
    refine ⟨c, hc, ?_⟩
    rw [hblit.pix_seen hmem hin hseen, PaintSource.led_eq_pix hc]
    split <;> rfl
  · intro hrest
    rw [hblit.pix_rest hmem hrest]

/-- A black window of two columns with the digit 12, which no font has, in the second one. -/
def half : WindowTree :=
  .window (.make 2 1 Led.black) [0, 0]
    [(.image (Digit3x5.source ⟨⟨Led.white, Led.black⟩, 12⟩), 1, 0)]

/-- A pixmap of two columns, the first one red. -/
def redPixmap : Pixmap := (DeviceOp.write 0 0 Led.red).after (Pixmap.make 2 1 Led.black)

theorem redPixmap_reachable : Reachable redPixmap :=
  .step _ (.fresh (Pixmap.fresh_make (by decide) (by decide) (by decide)))

theorem half_source : half.source =
    Window.source ⟨.make 2 1 Led.black, [0, 0],
      [⟨Digit3x5.source ⟨⟨Led.white, Led.black⟩, 12⟩, 1, 0⟩]⟩ := by
  unfold half
  rw [WindowTree.source_window, List.map_cons, List.map_nil, WindowTree.child,
    WindowTree.source_image]

/-- The second column of the pixmap stays as it was. -/
theorem failed_draw_half :
    led ((DeviceOp.draw half.source 0 0 false false).after redPixmap) 1 0 =
      led redPixmap 1 0 := by
  have hsize : half.source.width = 2 ∧ half.source.height = 1 := by
    rw [half_source]
    decide
  obtain ⟨-, nx, ny, hin, hled, -, -, hpix⟩ := failed_draw redPixmap_reachable half.source 0 0 false
    false (by decide) (by decide) (by rw [half_source]; decide) (by rw [half_source]; decide)
    (e := .outOfRange "Digit3x5::led<12>(0, 0)") (by rw [half_source]; decide)
  refine (hpix 1 0 (by decide) (by decide) 1 0 rfl rfl).2 fun h => ?_
  obtain ⟨⟨-, hnx⟩, hny0, hny⟩ := hin
  omega

/-- A draw that failed has painted the first column black. -/
theorem not_failed_draw_half :
    Reachable redPixmap ∧
    (DeviceOp.draw half.source 0 0 false false).outcome redPixmap =
      .error (.outOfRange "Digit3x5::led<12>(0, 0)") ∧
    led ((DeviceOp.draw half.source 0 0 false false).after redPixmap) 0 0 ≠ led redPixmap 0 0 := by
  refine ⟨redPixmap_reachable, ?_, ?_⟩
  · rw [half_source]
    decide
  · rw [half_source]
    decide

end Ws2812
