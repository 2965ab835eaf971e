import Ws2812Strip.Draw
import Mathlib.Data.List.Pairwise

/-!
# Retained and immediate composition

A window shows its children in two ways: `Window::led` looks through them at every read, and
`draw` paints them on a canvas once. `Window.led_eq_look` says that `Window::led` is the canvas seen
through the layers of the children, the first one visited on top. `drawChildren_run` says that
drawing the children paints their layers, the last one drawn on top. Where the children do not
overlap the two agree (`compose_agree`).

* `Child.layer`: what a child shows at a point of its window, an exception of its `led` included.
* `Child.placement`: the child as an argument of `draw`.
-/

namespace Ws2812

open IPaintDevice Grid Overlay

/-! ## `Window::led` looks through the children -/

namespace Child

/-- The colour of the child at the point `p` of the window. -/
def ledAt (c : Child) (p : Int × Int) : Except Fault LedColor := do
  let lx ← cint (p.1 - c.x)
  let ly ← cint (p.2 - c.y)
  c.source.led lx ly

/-- What the loop of `Window::led` gets from the child at `p`, in a window with the fields `r`: a
colour, an exception, or nothing, when it goes on to the next child. -/
def layer (r : IRotatablePaintDevice) (c : Child) (p : Int × Int) :
    Option (Except Fault LedColor) :=
  match c.covers p.1 p.2 with
  | .error e => some (.error e)
  | .ok false => none
  | .ok true =>
    match c.ledAt p with
    | .error e => some (.error e)
    | .ok childLed =>
      if r.transparent_ = true ∧ childLed = r.back then none else some (.ok childLed)

/-- `Window::led` reads a child on its own pixels only. -/
theorem inside_of_covers {c : Child} {p : Int × Int} (h : c.covers p.1 p.2 = .ok true) :
    c.source.Inside (p.1 - c.x) (p.2 - c.y) := by
  unfold covers at h
  split at h
  swap
  · cases h
  rename_i hx
  cases hright : cint (c.x + c.source.width) with
  | error e =>
    rw [hright] at h
    cases h
  | ok right =>
    obtain rfl := cint_eq_ok hright
    rw [hright] at h
    change (if p.1 < c.x + c.source.width ∧ p.2 ≥ c.y then _ else _) = _ at h
    split at h
    swap
    · cases h
    rename_i hxy
    cases hbottom : cint (c.y + c.source.height) with
    | error e =>
      rw [hbottom] at h
      cases h
    | ok bottom =>
      obtain rfl := cint_eq_ok hbottom
      rw [hbottom] at h
      have hy : p.2 < c.y + c.source.height := of_decide_eq_true (Except.ok.inj h)
      unfold PaintSource.Inside
      omega

/-- So two children of the same size are the same to a window at a point if they have the same
pixel there. -/
theorem layer_congr_at {r : IRotatablePaintDevice} {c d : Child} {p : Int × Int} (hx : d.x = c.x)
    (hy : d.y = c.y) (hw : d.source.width = c.source.width)
    (hh : d.source.height = c.source.height)
    (hled : c.source.Inside (p.1 - c.x) (p.2 - c.y) →
      d.source.led (p.1 - c.x) (p.2 - c.y) = c.source.led (p.1 - c.x) (p.2 - c.y)) :
    d.layer r p = c.layer r p := by
  have hcov : d.covers p.1 p.2 = c.covers p.1 p.2 := by
    unfold covers
    rw [hx, hy, hw, hh]
  unfold layer
  rw [hcov]
  cases hc : c.covers p.1 p.2 with
  | error e => rfl
  | ok covered =>
    cases covered
    · rfl
    have hin := inside_of_covers hc
    have hat : d.ledAt p = c.ledAt p := by
      unfold ledAt
      rw [hx, hy]
      cases hlx : cint (p.1 - c.x) with
      | error e => rfl
      | ok lx =>
        cases hly : cint (p.2 - c.y) with
        | error e => rfl
        | ok ly =>
          obtain rfl := cint_eq_ok hlx
          obtain rfl := cint_eq_ok hly
          exact hled hin
    rw [hat]

/-- Two children of the same size with the same pixels are the same to a window. -/
theorem layer_congr {r : IRotatablePaintDevice} {c d : Child} (hx : d.x = c.x) (hy : d.y = c.y)
    (hw : d.source.width = c.source.width) (hh : d.source.height = c.source.height)
    (hled : ∀ x y, c.source.Inside x y → d.source.led x y = c.source.led x y) (p : Int × Int) :
    d.layer r p = c.layer r p := layer_congr_at hx hy hw hh (hled _ _)

end Child

namespace Window

/-- The canvas of the window. -/
def canvas (w : Window) (p : Int × Int) : Except Fault LedColor :=
  cellLed .vector w.base (some w.leds_) p.1 p.2

theorem ledFrom_eq (w : Window) (p : Int × Int) (children : List Child) :
    w.ledFrom p.1 p.2 children = look (Child.layer w.base) children w.canvas p := by
  induction children with
  | nil => rfl
  | cons c children ih =>
    have hstep : w.ledFrom p.1 p.2 (c :: children) = (c.covers p.1 p.2 >>= fun covered =>
        if covered = true then c.ledAt p >>= fun childLed =>
          if w.base.transparent_ = true ∧ childLed = w.base.back then w.ledFrom p.1 p.2 children
          else pure childLed
        else w.ledFrom p.1 p.2 children) := by
      unfold Child.ledAt
      simp only [Window.ledFrom, bind_assoc]
    rw [hstep]
    cases hcov : c.covers p.1 p.2 with
    | error e =>
      rw [look_cons_some (b := .error e) (by simp [Child.layer, hcov])]
      rfl
    | ok covered =>
      cases covered
      · rw [look_cons_none (by simp [Child.layer, hcov])]
        exact ih
      · cases hled : c.ledAt p with
        | error e =>
          rw [look_cons_some (b := .error e) (by simp [Child.layer, hcov, hled])]
          rfl
        | ok childLed =>
          by_cases hkey : w.base.transparent_ = true ∧ childLed = w.base.back
          · rw [look_cons_none (by simp [Child.layer, hcov, hled, hkey])]
            show (if _ then _ else _) = _
            rw [if_pos hkey, ih]
          · rw [look_cons_some (b := .ok childLed) (by simp [Child.layer, hcov, hled, hkey])]
            exact if_neg hkey

/-- `Window::led` is the canvas seen through the children. -/
theorem led_eq_look (w : Window) (x y : Int) :
    w.led x y = look (Child.layer w.base) w.children_ w.canvas (x, y) :=
  w.ledFrom_eq (x, y) w.children_

end Window

/-! ## Children that stay in range -/

namespace Child

/-- The child as an argument of `draw`. -/
def placement (c : Child) : Placement := ⟨c.source, c.x, c.y, false, false⟩

/-- The position is not negative, position plus size is an `int`, and the child returns on all of
its pixels. -/
structure Placed (c : Child) : Prop where
  x_nonneg : 0 ≤ c.x
  y_nonneg : 0 ≤ c.y
  right : IsInt (c.x + c.source.width)
  bottom : IsInt (c.y + c.source.height)
  total : c.source.Total

/-- The rectangles of the two children have no point in common. -/
def Disjoint (c c' : Child) : Prop :=
  ∀ p, ¬ (c.placement.rectangle p ∧ c'.placement.rectangle p)

instance : Std.Symm Disjoint := ⟨fun _ _ h p hp => h p hp.symm⟩

variable {c : Child}

theorem Placed.fits (h : c.Placed) : c.placement.Fits :=
  ⟨h.x_nonneg, h.y_nonneg, h.right.2, h.bottom.2⟩

/-- The rectangle test of `Window::led`. -/
theorem covers_ok (hright : IsInt (c.x + c.source.width)) (hbottom : IsInt (c.y + c.source.height))
    (p : Int × Int) : c.covers p.1 p.2 = .ok (decide (c.placement.rectangle p)) := by
  have hrect : c.placement.rectangle p ↔ (c.x ≤ p.1 ∧ p.1 < c.x + c.source.width) ∧
      c.y ≤ p.2 ∧ p.2 < c.y + c.source.height := Iff.rfl
  unfold covers
  rw [cint_ok hright, cint_ok hbottom]
  by_cases hx : p.1 ≥ c.x
  swap
  · rw [if_neg hx, decide_eq_false (by rw [hrect]; omega)]
    rfl
  rw [if_pos hx]
  show (if p.1 < c.x + c.source.width ∧ p.2 ≥ c.y then _ else _) = _
  by_cases hxy : p.1 < c.x + c.source.width ∧ p.2 ≥ c.y
  · rw [if_pos hxy]
    show Except.ok (decide (p.2 < c.y + c.source.height)) = _
    have hbottom : p.2 < c.y + c.source.height ↔ c.placement.rectangle p := by
      rw [hrect]
      omega
    rw [decide_eq_decide.mpr hbottom]
  · rw [if_neg hxy, decide_eq_false (by rw [hrect]; omega)]
    rfl

/-- The child shows its source at its place. -/
theorem Placed.ledAt_ok (h : c.Placed) {p : Int × Int} (hp : c.placement.rectangle p)
    (hint : p.1 ≤ INT_MAX ∧ p.2 ≤ INT_MAX) :
    c.ledAt p = .ok (c.source.pix (p.1 - c.x) (p.2 - c.y)) := by
  have hx := h.x_nonneg
  have hy := h.y_nonneg
  have hin := c.placement.inside_toSource_iff.mpr hp
  obtain ⟨⟨h1, h2⟩, h3, h4⟩ := hp
  simp only [placement] at h1 h3
  have hlx : IsInt (p.1 - c.x) := by
    unfold IsInt INT_MIN INT_MAX at *
    omega
  have hly : IsInt (p.2 - c.y) := by
    unfold IsInt INT_MIN INT_MAX at *
    omega
  unfold ledAt
  rw [cint_ok hlx, cint_ok hly]
  exact h.total.led hin

/-- What `Window::led` gets from the child is the layer that `draw` paints. -/
theorem Placed.layer_eq (h : c.Placed) (r : IRotatablePaintDevice) {p : Int × Int}
    (hint : p.1 ≤ INT_MAX ∧ p.2 ≤ INT_MAX) :
    c.layer r p = (c.placement.placed r p).map .ok := by
  unfold layer
  rw [covers_ok h.right h.bottom]
  by_cases hp : c.placement.rectangle p
  · rw [decide_eq_true hp, h.ledAt_ok hp hint]
    have hin := c.placement.inside_toSource_iff.mpr hp
    by_cases hkey : r.transparent_ = true ∧ c.source.pix (p.1 - c.x) (p.2 - c.y) = r.back
    · rw [c.placement.placed_of_not_shown fun hs => hs.2 hkey]
      exact if_pos hkey
    · rw [c.placement.placed_of_shown ⟨hin, hkey⟩]
      exact if_neg hkey
  · rw [decide_eq_false hp, c.placement.placed_eq_none (mt c.placement.inside_toSource_iff.mp hp)]
    rfl

/-- A point of the layer of a child lies in its rectangle. -/
theorem rectangle_of_placed {r : IRotatablePaintDevice} {p : Int × Int} {b : LedColor}
    (h : c.placement.placed r p = some b) : c.placement.rectangle p := by
  by_contra hout
  rw [c.placement.placed_eq_none (mt c.placement.inside_toSource_iff.mp hout)] at h
  cases h

/-- A point at which a child shows in a window lies in its rectangle. -/
theorem rectangle_of_layer {r : IRotatablePaintDevice} {p : Int × Int} {b : Except Fault LedColor}
    (hright : IsInt (c.x + c.source.width)) (hbottom : IsInt (c.y + c.source.height))
    (h : c.layer r p = some b) : c.placement.rectangle p := by
  by_contra hout
  unfold layer at h
  rw [covers_ok hright hbottom, decide_eq_false hout] at h
  cases h

/-- Children that do not overlap and show in their rectangles only agree everywhere. -/
theorem agreeAt_of_disjoint {β : Type} {layer : Child → Int × Int → Option β}
    {children : List Child} (h : children.Pairwise Disjoint) {p : Int × Int}
    (hlayer : ∀ c ∈ children, ∀ b, layer c p = some b → c.placement.rectangle p) :
    AgreeAt layer children p := by
  intro c hc c' hc' b b' hb hb'
  by_cases hne : c = c'
  · subst hne
    exact Option.some.inj (hb.symm.trans hb')
  · exact absurd ⟨hlayer c hc b hb, hlayer c' hc' b' hb'⟩ (h.forall hc hc' hne p)

end Child

/-! ## Drawing the children -/

/-- Draw each child at its position, in the order of the list. -/
def drawChildren {D : Type} [IPaintDevice D] : List Child → DevM D Unit
  | [] => pure ()
  | c :: children => do
    draw c.source c.x c.y false false
    drawChildren children

/-- The drawn children lie on the image, the last one on top. -/
theorem drawChildren_run {D : Type} [IPaintDevice D] [LawfulPaintDevice D] {children : List Child}
    (hch : ∀ c ∈ children, c.Placed) {d : D} (hwf : Wf d) (t : List Event) :
    ∃ d' t', (drawChildren children).run ⟨d, t⟩ = (.ok (), ⟨d', t'⟩) ∧ Wf d' ∧ base d' = base d ∧
      ∀ p ∈ logical d,
        pix d' p = paintAll (fun c => c.placement.placed (base d)) children (pix d) p := by
  induction children generalizing d t with
  | nil => exact ⟨d, t, rfl, hwf, rfl, fun _ _ => rfl⟩
  | cons c children ih =>
    obtain ⟨hc, hrest⟩ := List.forall_mem_cons.mp hch
    obtain ⟨d₁, t₁, hrun₁, hwf₁, hb₁, himg₁⟩ := draw_run hc.fits hc.total hwf t
    obtain ⟨d₂, t₂, hrun₂, hwf₂, hb₂, himg₂⟩ := ih hrest hwf₁ t₁
    refine ⟨d₂, t₂, (Prog.run_bind_ok hrun₁).trans hrun₂, hwf₂, hb₂.trans hb₁, fun p hp => ?_⟩
    rw [himg₂ p ((mem_logical_iff hb₁).mpr hp), hb₁]
    exact paintAll_congr (himg₁ p hp)

/-! ## The two agree -/

/-- The window without its children. -/
def Window.bare (w : Window) : Window := { w with children_ := [] }

/-- **Retained and immediate composition.** For children that do not overlap, drawing them in any
order on a window without children shows at every point what the window with the children shows,
in whatever order it visits them. -/
theorem compose_agree {w : Window} (hw : Wf w.bare) (hch : ∀ c ∈ w.children_, c.Placed)
    (hdisj : w.children_.Pairwise Child.Disjoint) {visited drawn : List Child}
    (hv : visited.Perm w.children_) (hd : drawn.Perm w.children_) :
    ((drawChildren drawn).run ⟨w.bare, []⟩).1 = .ok () ∧
    ∀ x y, 0 ≤ x ∧ x < width w → 0 ≤ y ∧ y < height w →
      led ((drawChildren drawn).run ⟨w.bare, []⟩).2.dev x y =
        led { w with children_ := visited } x y := by
  obtain ⟨d', t', hrun, hwf', hb, himg⟩ :=
    drawChildren_run (fun c hc => hch c (hd.mem_iff.mp hc)) hw []
  rw [hrun]
  refine ⟨rfl, fun x y hx hy => ?_⟩
  have hp : (x, y) ∈ logical w.bare := ⟨hx, hy⟩
  have hp' : (x, y) ∈ logical d' := (mem_logical_iff hb).mpr hp
  obtain ⟨⟨-, hwmax⟩, -, hhmax⟩ := hw.fields.logical_side
  have hint : x ≤ INT_MAX ∧ y ≤ INT_MAX := ⟨hx.2.le.trans hwmax, hy.2.le.trans hhmax⟩
  have hagree : AgreeAt (fun c => c.placement.placed w.base) w.children_ (x, y) :=
    Child.agreeAt_of_disjoint hdisj fun _ _ _ => Child.rectangle_of_placed
  -- what the window shows, over the colours of the children
  have hlook : led { w with children_ := visited } x y =
      .ok (look (fun c => c.placement.placed w.base) visited (pix w.bare) (x, y)) := by
    refine (Window.led_eq_look _ x y).trans (look_map (fun c hc => ?_) (hw.led_ok hp))
    exact (hch c (hv.mem_iff.mp hc)).layer_eq w.base hint
  have hpaint : pix d' (x, y) =
      look (fun c => c.placement.placed w.base) visited (pix w.bare) (x, y) :=
    (himg _ hp).trans (paintAll_eq_look (hagree.perm hv.symm) (hv.trans hd.symm))
  rw [hlook, ← hpaint]
  exact hwf'.led_ok hp'

/-- A red dot and a green bar that sticks out of the window, drawn in the other order. -/
theorem compose_agree_two :
    let dot : Child := ⟨.solid 1 1 Led.red, 0, 1⟩
    let bar : Child := ⟨.solid 4 1 Led.green, 1, 0⟩
    led ((drawChildren [bar, dot]).run ⟨Window.make 3 2, []⟩).2.dev 2 0 =
      led { Window.make 3 2 with children_ := [dot, bar] } 2 0 := by
  intro dot bar
  have hfresh : Wf (Window.make 3 2) :=
    LawfulPaintDevice.fresh_wf (Window.fresh_make (by decide) (by decide) (by decide))
  have hdot : dot.Placed :=
    ⟨by decide, by decide, by decide, by decide, PaintSource.solid_total 1 1 Led.red⟩
  have hbar : bar.Placed :=
    ⟨by decide, by decide, by decide, by decide, PaintSource.solid_total 4 1 Led.green⟩
  have hdisj : dot.Disjoint bar := by
    rintro p ⟨⟨-, h1, -⟩, -, -, h2⟩
    simp only [Child.placement, dot, bar, PaintSource.solid] at h1 h2
    omega
  exact (compose_agree (w := { Window.make 3 2 with children_ := [dot, bar] }) hfresh
    (by simp [hdot, hbar]) (by simp [hdisj]) (.refl _) (.swap _ _ _)).2 2 0 (by decide) (by decide)

end Ws2812
