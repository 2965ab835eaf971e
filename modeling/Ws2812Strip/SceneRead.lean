import Ws2812Strip.Ancestry
import Ws2812Strip.TreeRead

/-!
# Reading a window of a scene

Where going down through the maps of a scene ends, the tree of a window is complete from some depth
on. So what holds of `led` of trees holds of `led` of scenes: `Drawable.window_read_inside` says
of the windows of a scene what `Sound.read_in_range` says of trees.
-/

namespace Ws2812

namespace Scene

open Filter Descent WindowTree

/-- The canvases have a cell for each LED, the images are valid, and the right and lower edges of
the children, all of them alive, are `int`s. -/
structure Drawable (signed : Bool) (images : Nat → Image) (s : Scene) : Prop where
  canvas : ∀ w o, s.windows w = some o → Wf (⟨o.base, o.leds_, []⟩ : Window)
  image : ∀ i, ∃ leaf : Leaf, leaf.Valid ∧ leaf.source signed = (images i).toPaintSource
  image_edges : ∀ p i pos, s.links.entry p (.image i) = some pos →
    IsInt (pos.x + (images i).width) ∧ IsInt (pos.y + (images i).height)
  window_edges : ∀ p c pos, s.links.entry p (.window c) = some pos →
    ∃ o, s.windows c = some o ∧ IsInt (pos.x + o.base.width) ∧ IsInt (pos.y + o.base.height)

variable {signed : Bool} {images : Nat → Image} {order : Order} {s : Scene}

/-- One step up: a window whose children are sound at some depth is sound at the next. -/
theorem Drawable.sound_succ (hs : s.Drawable signed images) (horder : s.Visits order)
    {w depth : Nat} (h : ∀ c, s.links.InMap c w → s.links.alive c →
      Sound signed (s.unfold images order depth c))
    (hw : s.links.alive w) : Sound signed (s.unfold images order (depth + 1) w) := by
  obtain ⟨o, ho, -⟩ := deref_run hw
  have hchild : ∀ c ∈ (order w).map fun e =>
      (pointee images (s.unfold images order depth) e.1, e.2.x, e.2.y),
      Sound signed c.1 ∧ IsInt (c.2.1 + c.1.source.width) ∧ IsInt (c.2.2 + c.1.source.height) := by
    intro c hc
    obtain ⟨⟨k, pos⟩, he, rfl⟩ := List.mem_map.mp hc
    have hentry := horder.entry ho he
    cases k with
    | image i =>
      obtain ⟨leaf, hvalid, hleaf⟩ := hs.image i
      refine ⟨?_, ?_⟩
      · show Sound signed (WindowTree.image (images i).toPaintSource)
        rw [← hleaf]
        exact .image hvalid
      · simp only [pointee, source_image]
        exact hs.image_edges w i pos hentry
    | window c =>
      obtain ⟨o', ho', hedges⟩ := hs.window_edges w c pos hentry
      obtain ⟨hwidth, hheight⟩ := unfold_size images order ho' depth
      refine ⟨h c ?_ ?_, ?_⟩
      · simp [Links.InMap, hentry]
      · simp [links, ho']
      · simp only [pointee]
        rw [hwidth, hheight]
        exact hedges
  rw [unfold, ho]
  exact .window (hs.canvas w o ho) (fun c hc => (hchild c hc).1) fun c hc => (hchild c hc).2

/-- The trees of the windows are sound from some depth on. -/
theorem Drawable.eventually_sound (hs : s.Drawable signed images)
    (h : WellFounded s.links.InMap) (horder : s.Visits order) {w : Nat} (hw : s.links.alive w) :
    ∀ᶠ depth in atTop, Sound signed (s.unfold images order depth w) := by
  have hdeep := eventually_of_step h s.finite_inMap
    (P := fun w depth => s.links.alive w → Sound signed (s.unfold images order depth w))
    (fun w depth hc => hs.sound_succ horder hc) w
  filter_upwards [hdeep] with depth hdepth
  exact hdepth hw

/-- A pixel of a window whose tree is sound at some depth is read there, on pixels of windows and
images only. -/
theorem read_of_sound {w depth : Nat} {o : WindowObject} (ho : s.windows w = some o)
    (hsound : Sound signed (s.unfold images order depth w)) {x y : Int}
    (hp : (x, y) ∈ o.base.logical) :
    ∃ color calls, ((s.unfold images order depth w).read x y).run [] = (.ok color, calls) ∧
      s.led images order depth w x y = .ok color ∧
      ∀ call ∈ calls, call.tree.source.Inside call.x call.y := by
  have hin : (s.unfold images order depth w).source.Inside x y := by
    obtain ⟨hwidth, hheight⟩ := unfold_size images order ho depth
    unfold PaintSource.Inside
    rw [hwidth, hheight]
    exact hp
  obtain ⟨color, calls, hcalls⟩ := hsound.read_triple
    (Q := fun call => call.tree.source.Inside call.x call.y) hin
    (fun u ux uy _ hux => hux) |>.returns (List.forall_mem_nil _)
  refine ⟨color, calls, hcalls.1, ?_, hcalls.2⟩
  rw [led, ← run_read _ x y [], hcalls.1]

/-- **Reading a scene stays in range.** For every pixel of a window, `led` returns at some depth,
and every `led` that it calls on the way is called on a pixel of its window or image. -/
theorem Drawable.window_read_inside (hs : s.Drawable signed images)
    (h : WellFounded s.links.InMap) (horder : s.Visits order) {w : Nat} {o : WindowObject}
    (ho : s.windows w = some o) {x y : Int} (hp : (x, y) ∈ o.base.logical) :
    ∃ depth color calls, ((s.unfold images order depth w).read x y).run [] = (.ok color, calls) ∧
      s.led images order depth w x y = .ok color ∧
      ∀ call ∈ calls, call.tree.source.Inside call.x call.y := by
  have hw : s.links.alive w := by simp [links, ho]
  obtain ⟨depth, hsound⟩ := (hs.eventually_sound h horder hw).exists
  exact ⟨depth, read_of_sound ho hsound hp⟩

end Scene

end Ws2812
