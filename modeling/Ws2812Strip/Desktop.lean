import Ws2812Strip.Painting
import Ws2812Strip.Clear

/-!
# A desktop of windows

A client makes windows, puts them into each other, paints on them and ends them, in any order.

* `Tidy`: going down from a window ends, only live windows are linked, and the canvases have a cell
  for each LED. `Tidy.act`: every allowed action keeps it.
* `Works`: every pixel of every window can be read, and every operation on a window returns.
  `desktop_works`: so it is after every run of allowed actions.
-/

namespace Ws2812

open IPaintDevice Grid Relation Filter Descent

/-! ## Operations that return -/

/-- The arguments with which an operation returns on a device with the fields `r`: admissible ones,
a source whose pixels can all be read, and an angle that `set_rotate` has a case for. -/
def DeviceOp.Accepted (r : IRotatablePaintDevice) : DeviceOp → Prop
  | .draw src x y flipX flipY => (DeviceOp.draw src x y flipX flipY).Admissible r ∧ src.Total
  | .setRotate degree _ _ => degree = 0 ∨ degree = 90 ∨ degree = 180 ∨ degree = 270
  | op => op.Admissible r

theorem IRotatablePaintDevice.setRotate_returns {degree : Int}
    (h : degree = 0 ∨ degree = 90 ∨ degree = 180 ∨ degree = 270) (flipX flipY : Bool)
    (r : IRotatablePaintDevice) : ((setRotate degree flipX flipY).run r).1 = .ok () := by
  rcases h with rfl | rfl | rfl | rfl <;> rfl

/-- On a plain device. -/
theorem DeviceOp.returns {D : Type} [IPaintDevice D] [LawfulPaintDevice D] {op : DeviceOp} {d : D}
    (h : Wf d) (hop : op.Accepted (base d)) : op.outcome d = .ok () := by
  cases op with
  | clear =>
    obtain ⟨d', t', hrun, -⟩ := clear_run h
    exact (DeviceOp.outcome_after .clear hrun).1
  | setBackground color => rfl
  | setTransparent transparent => rfl
  | write x y color =>
    obtain ⟨d', hrun, -⟩ := Wf.writeLed_run (s := ⟨d, []⟩) h (p := (x, y)) hop color
    exact (DeviceOp.outcome_after (.write x y color) hrun).1
  | setRotate degree flipX flipY => exact IRotatablePaintDevice.setRotate_returns hop flipX flipY _
  | flip flipX flipY =>
    obtain ⟨d', t', hrun, -⟩ := Ws2812.flip_run h flipX flipY
    exact (DeviceOp.outcome_after (.flip flipX flipY) hrun).1
  | draw src x y flipX flipY =>
    obtain ⟨⟨hx, hy, hr, hb⟩, htotal⟩ := hop
    exact (draw_after (a := ⟨src, x, y, flipX, flipY⟩) ⟨hx, hy, hr, hb⟩ htotal h).1

/-- On a window whose pixels can be read. -/
theorem Window.returns {op : DeviceOp} {w : Window} (hw : Wf w.bare) (hread : w.Readable)
    (hop : op.Accepted w.base) : op.outcome w = .ok () := by
  by_cases hflip : ∃ flipX flipY, op = .flip flipX flipY
  · obtain ⟨flipX, flipY, rfl⟩ := hflip
    obtain ⟨s', hrun, -⟩ := Window.flip_run hw hread flipX flipY
    exact (DeviceOp.outcome_after (.flip flipX flipY) hrun).1
  · rw [(DeviceOp.bare_after (fun flipX flipY h => hflip ⟨flipX, flipY, h⟩) w).1]
    exact DeviceOp.returns hw hop

/-! ## The end of a window -/

namespace Links

variable {l : Links} {w : Nat}

/-- Nothing is below the window, and it is in no map but that of its parent. -/
structure Loose (l : Links) (w : Nat) : Prop where
  below : ∀ d, ¬ l.Below d w
  map : ∀ q, l.InMap w q → l.parent w = some q

theorem Grounded.destroy (h : l.Grounded) (hw : l.Loose w) : (l.destroy w).Grounded := by
  have hsub : ∀ d q, (l.destroy w).Below d q → l.Below d q ∧ d ≠ w := by
    rintro d q (hd | hd)
    · unfold InMap at hd
      rw [destroy_entry] at hd
      split at hd
      · cases hd
      split at hd
      · cases hd
      · rename_i hnot
        refine ⟨.inl hd, ?_⟩
        rintro rfl
        exact hnot ⟨rfl, hw.map q hd⟩
    · rw [destroy_parent] at hd
      split at hd
      · cases hd
      · rename_i hdw
        exact ⟨.inr hd, hdw⟩
  refine ⟨Subrelation.wf (fun {d q} hd => (hsub d q hd).1) h.below, fun d q hd => ?_⟩
  obtain ⟨hbelow, hdw⟩ := hsub d q hd
  obtain ⟨hq, hd'⟩ := h.alive d q hbelow
  rw [destroy_alive, destroy_alive]
  refine ⟨⟨?_, hq⟩, hdw, hd'⟩
  rintro rfl
  exact hw.below d hbelow

end Links

/-! ## Runs -/

/-- What a client does with its windows. An operation on a window reads what the images show at that
time, in the order in which the maps are iterated then. -/
inductive DesktopOp where
  | link (op : SceneOp)
  | paint (images : Nat → Image) (order : Scene.Order) (depth w : Nat) (op : DeviceOp)

namespace Scene

/-- The scene after the action. -/
def act (s : Scene) : DesktopOp → Scene
  | .link op => s.step op
  | .paint images order depth w op => s.paint images order depth w op

/-- The call returned or threw: nothing that it did is undefined. -/
def Defined {α : Type} (r : Except Fault α) : Prop := ∀ u, r ≠ .error (.undefined u)

/-- What a client may do: make a window of a size that an `int` can count, `add` one where it does
not get below itself, end one that nothing is below, and perform an operation on a live window that
has defined behaviour there, which it may end with an exception. The depth is one at which it
ends. -/
def Allowed (s : Scene) : DesktopOp → Prop
  | .link (.construct c w h parent x y) =>
    (SceneOp.construct c w h parent x y).Legal s.links ∧ 1 ≤ w ∧ 1 ≤ h ∧ w * h ≤ INT_MAX
  | .link (.destroy w) => (SceneOp.destroy w).Legal s.links ∧ s.links.Loose w
  | .link op => op.Legal s.links ∧ s.Ready op
  | .paint images order depth w op => s.Visits order ∧ ∃ o, s.windows w = some o ∧
      Defined (op.outcome (s.device images order depth w o))

/-- Going down ends, only live windows are linked, and the canvases have a cell for each LED. -/
structure Tidy (s : Scene) : Prop where
  grounded : s.links.Grounded
  canvases : s.Canvases

variable {s : Scene}

theorem tidy_empty : Tidy ⟨fun _ => none⟩ where
  grounded := by
    have hnone : ∀ c p, ¬ (Scene.mk fun _ => none).links.Below c p := by
      intro c p hcp
      simp [Links.Below, Links.InMap, links] at hcp
    exact ⟨⟨fun p => ⟨p, fun c hc => absurd hc (hnone c p)⟩⟩, fun c p hc => absurd hc (hnone c p)⟩
  canvases w o ho := by cases ho

/-- Every allowed action keeps a scene tidy. -/
theorem Tidy.act (h : s.Tidy) {a : DesktopOp} (ha : s.Allowed a) : (s.act a).Tidy := by
  match a, ha with
  | .link (.construct c w height parent x y), ⟨hop, hw, hh, hfit⟩ =>
    exact ⟨grounded_step h.grounded ⟨hop, nofun⟩ trivial,
      keeps_construct c hw hh hfit parent x y s h.canvases⟩
  | .link (.add p child x y), ⟨hop, hready⟩ =>
    exact ⟨grounded_step h.grounded ⟨hop, nofun⟩ hready, keeps_add p child x y s h.canvases⟩
  | .link (.remove p child), ⟨hop, hready⟩ =>
    exact ⟨grounded_step h.grounded ⟨hop, nofun⟩ hready, keeps_remove p child s h.canvases⟩
  | .link (.move c x y), ⟨hop, hready⟩ =>
    exact ⟨grounded_step h.grounded ⟨hop, nofun⟩ hready, keeps_move c x y s h.canvases⟩
  | .link (.destroy w), ⟨hop, hloose⟩ =>
    refine ⟨?_, keeps_destroy w s h.canvases⟩
    show (s.step (.destroy w)).links.Grounded
    rw [(SceneOp.exec_run hop h.grounded.parentsAlive).2]
    exact h.grounded.destroy hloose
  | .paint images order depth w op, _ =>
    refine ⟨?_, h.canvases.paint images order depth w op⟩
    show (s.paint images order depth w op).links.Grounded
    rw [paint_links]
    exact h.grounded

/-- The images are valid, and the right and lower edges of all children are `int`s. -/
structure InRange (signed : Bool) (images : Nat → Image) (s : Scene) : Prop where
  image : ∀ i, ∃ leaf : Leaf, leaf.Valid ∧ leaf.source signed = (images i).toPaintSource
  image_edges : ∀ p i pos, s.links.entry p (.image i) = some pos →
    IsInt (pos.x + (images i).width) ∧ IsInt (pos.y + (images i).height)
  window_edges : ∀ p c pos o, s.links.entry p (.window c) = some pos → s.windows c = some o →
    IsInt (pos.x + o.base.width) ∧ IsInt (pos.y + o.base.height)

theorem Tidy.drawable (h : s.Tidy) {signed : Bool} {images : Nat → Image}
    (hr : s.InRange signed images) : s.Drawable signed images where
  canvas := h.canvases
  image := hr.image
  image_edges := hr.image_edges
  window_edges p c pos hentry := by
    have hbelow : s.links.Below c p := .inl (by simp [Links.InMap, hentry])
    obtain ⟨o, ho⟩ := Option.isSome_iff_exists.mp (h.grounded.alive c p hbelow).2
    exact ⟨o, ho, hr.window_edges p c pos o hentry ho⟩

/-- At this depth the window `w` does what a client asks of it: every pixel can be read, on pixels
of windows and images only, and every operation with arguments that it accepts returns. -/
structure Works (images : Nat → Image) (order : Order) (s : Scene) (w : Nat) (o : WindowObject)
    (depth : Nat) : Prop where
  read : ∀ x y, (x, y) ∈ o.base.logical → ∃ color calls,
    ((s.unfold images order depth w).read x y).run [] = (.ok color, calls) ∧
    s.led images order depth w x y = .ok color ∧
    ∀ call ∈ calls, call.tree.source.Inside call.x call.y
  returns : ∀ op : DeviceOp, op.Accepted o.base →
    op.outcome (s.device images order depth w o) = .ok ()

/-- The windows of a tidy scene work from some depth on. -/
theorem Tidy.works (h : s.Tidy) {signed : Bool} {images : Nat → Image}
    (hr : s.InRange signed images) {order : Order} (horder : s.Visits order) {w : Nat}
    {o : WindowObject} (ho : s.windows w = some o) :
    ∀ᶠ depth in atTop, s.Works images order w o depth := by
  have halive : s.links.alive w := by simp [links, ho]
  have hmap : WellFounded s.links.InMap := Subrelation.wf (fun {_ _} => .inl) h.grounded.below
  have hsound := (h.drawable hr).eventually_sound hmap horder halive
  filter_upwards [hsound, (tendsto_add_atTop_nat 1).eventually hsound] with depth hnow hnext
  refine ⟨fun x y hp => read_of_sound ho hnow hp, fun op hop => ?_⟩
  have hreadable : (s.device images order depth w o).Readable := by
    intro p hp
    obtain ⟨color, -, -, hled, -⟩ := read_of_sound ho hnext hp
    refine ⟨color, ?_⟩
    rw [led, unfold_succ images order depth ho] at hled
    exact hled
  exact Window.returns (h.canvases w o ho) hreadable hop

/-- **A desktop works.** After any run of allowed actions from no windows at all, in which no
operation on a window has undefined behaviour, whatever the images show then as long as they and the
edges of the children are in range, every pixel of every window can be read, in whatever order the
children are visited, and every operation on a window with arguments that it accepts returns. -/
theorem desktop_works {actions : List DesktopOp}
    (hrun : Run.Each act Allowed ⟨fun _ => none⟩ actions) {s : Scene}
    (hs : s = actions.foldl act ⟨fun _ => none⟩) {signed : Bool} {images : Nat → Image}
    (hr : s.InRange signed images) {order : Order} (horder : s.Visits order) {w : Nat}
    {o : WindowObject} (ho : s.windows w = some o) :
    ∃ least, ∀ depth ≥ least, s.Works images order w o depth := by
  subst hs
  have htidy : (actions.foldl act ⟨fun _ => none⟩).Tidy :=
    Run.Each.inv (fun s a hs ha _ => hs.act ha) tidy_empty hrun hrun
  exact eventually_atTop.mp (htidy.works hr horder ho)

/-- A window in a window that is painted on. -/
theorem desktop_works_nested :
    let s := [.link (.construct 0 4 4 none 0 0), .link (.construct 1 2 2 (some 0) 1 1),
      .paint (fun _ => dot) nestedOrder 0 1 (.write 0 0 Led.red)].foldl act ⟨fun _ => none⟩
    ∃ o least, s.windows 0 = some o ∧
      ∀ depth ≥ least, s.Works (fun _ => dot) nestedOrder 0 o depth := by
  intro s
  have hparent : ∀ p, some 0 = some p →
      ((Scene.mk fun _ => none).step (.construct 0 4 4 none 0 0)).links.alive p := by
    rintro p ⟨⟩
    decide
  have hrun : Run.Each act Allowed ⟨fun _ => none⟩ [.link (.construct 0 4 4 none 0 0),
      .link (.construct 1 2 2 (some 0) 1 1),
      .paint (fun _ => dot) nestedOrder 0 1 (.write 0 0 Led.red)] :=
    ⟨⟨⟨by decide, nofun⟩, by decide⟩,
      ⟨⟨show ¬ Links.alive _ _ by decide, hparent⟩, by decide⟩,
      ⟨nested_visits, _, rfl, nofun⟩, trivial⟩
  have hlinks : s.links = nested.links := paint_links _ _ _ _ _ nested
  have hrange : s.InRange true fun _ => dot := by
    refine ⟨fun i => ⟨.pixmap (.make 1 1 Led.red), ?_, rfl⟩, fun p i pos h => ?_,
      fun p c pos o h ho => ?_⟩
    · exact LawfulPaintDevice.fresh_wf (Pixmap.fresh_make (by decide) (by decide) (by decide))
    · rw [hlinks] at h
      cases (nested_entry h).2.1
    · rw [hlinks] at h
      obtain ⟨-, hc, rfl⟩ := nested_entry h
      cases hc
      cases ho
      decide
  obtain ⟨least, hleast⟩ := desktop_works hrun rfl hrange
    (nested_visits.paint (fun _ => dot) nestedOrder 0 1 (.write 0 0 Led.red)) (w := 0) rfl
  exact ⟨_, least, rfl, hleast⟩

end Scene

end Ws2812
