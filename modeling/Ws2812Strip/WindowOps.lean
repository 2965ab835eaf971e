import Ws2812Strip.FakeDevice
import Ws2812Strip.Clip
import Ws2812Strip.Composition
import Ws2812Strip.Flip

/-!
# Operations on a window with children

`led` of a window looks through its children, `led_ref` names a cell of its own canvas. So what an
operation reads of such a window is more than it can write.

* `DeviceOp.bare_after`: an operation other than `flip` reads no LED. It does to the canvas what it
  does to that of the window without its children.
* `Window.flip_led`: `flip` reads the children and writes the canvas, so it moves what one sees of a
  child to the partner points, where the child does not go.
-/

namespace Ws2812

open IPaintDevice Grid Overlay

/-! ## Operations that only write -/

namespace Window

/-- The second session is the first one on the window without its children. -/
def Stripped (s t : Session Window) : Prop := t = ⟨s.dev.bare, s.trace⟩

theorem sim_note (e : Event) :
    Prog.Sim Stripped (note e : DevM Window Unit) (note e) fun _ => True :=
  Prog.Sim.modify fun s t h => by
    subst h
    rfl

/-- A field that does not depend on the children. -/
theorem sim_field {α : Type} (f : IRotatablePaintDevice → α) :
    Prog.Sim Stripped (field fun w : Window => f w.base) (field fun w : Window => f w.base)
      fun _ => True :=
  Prog.Sim.read fun s t h => by
    subst h
    exact ⟨rfl, trivial⟩

theorem sim_target (x dx : Int) :
    Prog.Sim Stripped (target x dx : DevM Window Int) (target x dx) fun _ => True :=
  (sim_note _).bind fun _ _ => Prog.Sim.lift _ fun _ _ => trivial

theorem sim_writeLed (x y : Int) (c : LedColor) :
    Prog.Sim Stripped (writeLed x y c : DevM Window Unit) (writeLed x y c) fun _ => True := by
  rintro s t rfl
  rcases writeLed_cases s x y c with ⟨i, hi, hrun⟩ | ⟨e, he, hrun⟩
  · rcases writeLed_cases (⟨s.dev.bare, s.trace⟩ : Session Window) x y c with
      ⟨i', hi', hrun'⟩ | ⟨e', he', -⟩
    · cases hi.symm.trans hi'
      rw [hrun, hrun']
      exact ⟨rfl, fun _ _ => trivial, rfl⟩
    · cases hi.symm.trans he'
  · rcases writeLed_cases (⟨s.dev.bare, s.trace⟩ : Session Window) x y c with
      ⟨i', hi', -⟩ | ⟨e', he', hrun'⟩
    · cases he.symm.trans hi'
    · cases he.symm.trans he'
      rw [hrun, hrun']
      exact ⟨rfl, fun _ _ => trivial, rfl⟩

theorem sim_clear : Prog.Sim Stripped (clear : DevM Window Unit) clear fun _ => True :=
  (sim_field (·.height)).bind fun _ _ => sim_forInt fun _ _ _ =>
    (sim_field (·.width)).bind fun _ _ => sim_forInt fun _ _ _ =>
      (sim_field (·.back)).bind fun _ _ => sim_writeLed _ _ _

theorem sim_drawPixel (src : PaintSource) (x : Int) (flipX : Bool) (sy ty sx : Int) :
    Prog.Sim Stripped (drawPixel src x flipX sy ty sx : DevM Window Unit)
      (drawPixel src x flipX sy ty sx) fun _ => True := by
  refine (Prog.Sim.lift _ fun _ _ => trivial).bind fun dx _ => (sim_target x dx).bind fun tx _ => ?_
  refine (sim_field (·.width)).bind fun w _ => ?_
  refine Prog.Sim.ite (fun _ => Prog.Sim.pure () trivial) fun _ => ?_
  refine (Prog.Sim.lift _ fun _ _ => trivial).bind fun c _ => (sim_field id).bind fun r _ => ?_
  exact Prog.Sim.ite (fun _ => Prog.Sim.pure () trivial) fun _ => sim_writeLed _ _ _

theorem sim_draw (src : PaintSource) (x y : Int) (flipX flipY : Bool) :
    Prog.Sim Stripped (draw src x y flipX flipY : DevM Window Unit) (draw src x y flipX flipY)
      fun _ => True := by
  refine sim_forInt fun sy _ _ => (Prog.Sim.lift _ fun _ _ => trivial).bind fun dy _ => ?_
  refine (sim_target y dy).bind fun ty _ => (sim_field (·.height)).bind fun h _ => ?_
  refine Prog.Sim.ite (fun _ => Prog.Sim.pure () trivial) fun _ => ?_
  exact sim_forInt fun sx _ _ => sim_drawPixel src x flipX sy ty sx

end Window

/-- An operation that reads no LED does not see the children. -/
theorem DeviceOp.bare_after {op : DeviceOp} (h : ∀ flipX flipY, op ≠ .flip flipX flipY)
    (w : Window) : op.outcome w = op.outcome w.bare ∧ (op.after w).bare = op.after w.bare := by
  have of_sim : Prog.Sim Window.Stripped (op.exec : DevM Window Unit) op.exec (fun _ => True) →
      op.outcome w = op.outcome w.bare ∧ (op.after w).bare = op.after w.bare := fun hs =>
    have hs := hs ⟨w, []⟩ ⟨w.bare, []⟩ rfl
    ⟨hs.1, (congrArg Session.dev hs.2.2).symm⟩
  cases op with
  | clear => exact of_sim Window.sim_clear
  | setBackground color => exact ⟨rfl, rfl⟩
  | setTransparent transparent => exact ⟨rfl, rfl⟩
  | write x y color => exact of_sim (Window.sim_writeLed x y color)
  | setRotate degree flipX flipY => exact ⟨rfl, rfl⟩
  | flip flipX flipY => exact absurd rfl (h flipX flipY)
  | draw src x y flipX flipY => exact of_sim (Window.sim_draw src x y flipX flipY)

/-! ## What an operation leaves alone -/

/-- The points that an operation may change. Those on the whole device may change them all. -/
def DeviceOp.Touches : DeviceOp → Int × Int → Prop
  | .write x y _, p => p = (x, y)
  | .draw src x y flipX flipY, p => (⟨src, x, y, flipX, flipY⟩ : Placement).rectangle p
  | _, _ => True

/-- A point that an operation does not touch keeps its colour, also if the source of a `draw`
faults on the way. -/
theorem DeviceOp.pix_after {D : Type} [IPaintDevice D] [LawfulPaintDevice D] {op : DeviceOp}
    {d : D} (h : Wf d) (hop : op.Admissible (base d)) {p : Int × Int} (hp : p ∈ logical d)
    (hno : ¬ op.Touches p) : base (op.after d) = base d ∧ pix (op.after d) p = pix d p := by
  cases op with
  | write x y color =>
    obtain ⟨d', hrun, -, hb, -, hpix⟩ := Wf.writeLed_run (s := ⟨d, []⟩) h (p := (x, y)) hop color
    obtain ⟨-, hafter⟩ := DeviceOp.outcome_after (.write x y color) hrun
    rw [hafter]
    exact ⟨hb, (hpix p hp).trans (if_neg hno)⟩
  | draw src x y flipX flipY =>
    have hfit : Placement.Fits ⟨src, x, y, flipX, flipY⟩ := ⟨hop.1, hop.2.1, hop.2.2.1, hop.2.2.2⟩
    have hmin : INT_MIN ≤ 0 := by decide
    have hinside := inside_of_inBounds h hfit.sized (hmin.trans hop.1) (hmin.trans hop.2.1)
      hfit.inBounds
    exact ⟨hinside.1.2, hinside.2.2 p hp hno⟩
  | clear => exact absurd trivial hno
  | setBackground color => exact absurd trivial hno
  | setTransparent transparent => exact absurd trivial hno
  | setRotate degree rotX rotY => exact absurd trivial hno
  | flip flipX flipY => exact absurd trivial hno

/-- The same for the canvas of a window with children. -/
theorem DeviceOp.canvas_after {op : DeviceOp} {w : Window} (hw : Wf w.bare)
    (hop : op.Admissible w.base) {p : Int × Int} (hp : p ∈ w.base.logical)
    (hno : ¬ op.Touches p) :
    (op.after w).base = w.base ∧ (op.after w).canvas p = w.canvas p := by
  have hflip : ∀ flipX flipY, op ≠ .flip flipX flipY := by
    rintro flipX flipY rfl
    exact hno trivial
  obtain ⟨hbase, hpix⟩ := DeviceOp.pix_after hw hop hp hno
  have hbare := (DeviceOp.bare_after hflip w).2
  have hwf : Wf (op.after w).bare := hbare ▸ op.wf_after hw
  rw [← hbare] at hbase hpix
  refine ⟨hbase, ?_⟩
  have hnew : (op.after w).canvas p = .ok (pix (op.after w).bare p) :=
    hwf.led_ok ((mem_logical_iff hbase).mpr hp)
  have hold : w.canvas p = .ok (pix w.bare p) := hw.led_ok hp
  rw [hnew, hold, hpix]

/-! ## The canvas and what is over it -/

namespace Window

/-- What one sees of the children at a point. -/
def cover (w : Window) (p : Int × Int) : Option (Except Fault LedColor) :=
  w.children_.findSome? fun c => c.layer w.base p

/-- The colour that one sees of the children at a point where reading them does not fault. -/
def coverColor (w : Window) (p : Int × Int) : Option LedColor := (w.cover p).bind Except.toOption

/-- A child shows at the point. -/
def Covered (w : Window) (p : Int × Int) : Prop := w.cover p ≠ none

instance (w : Window) : DecidablePred w.Covered := fun p =>
  match h : w.cover p with
  | none => isFalse fun hc => hc h
  | some _ => isTrue fun hn => by cases h.symm.trans hn

/-- Every pixel of the window can be read. -/
def Readable (w : Window) : Prop := ∀ p ∈ w.base.logical, ∃ c, IPaintDevice.led w p.1 p.2 = .ok c

/-- The window `w` after some writes to its canvas. -/
structure Written (w : Window) (s : Session Window) : Prop where
  canvas : Wf s.dev.bare
  base_eq : s.dev.base = w.base
  children : s.dev.children_ = w.children_

variable {w : Window} {s : Session Window} {p : Int × Int}

theorem Written.start (hw : Wf w.bare) (t : List Event) : w.Written ⟨w, t⟩ := ⟨hw, rfl, rfl⟩

theorem Written.mem_bare (h : w.Written s) (hp : p ∈ w.base.logical) : p ∈ logical s.dev.bare :=
  (mem_logical_iff h.base_eq).mpr hp

/-- Every call keeps what a window has besides its canvas, and the canvas well formed. -/
theorem Written.stable (w : Window) : Stable w.Written where
  note _ _ h := ⟨h.canvas, h.base_eq, h.children⟩
  writeLed := by
    rintro x y c s ⟨hcanvas, hb, hch⟩
    rcases writeLed_cases s x y c with ⟨i, -, hrun⟩ | ⟨e, -, hrun⟩
    · rw [hrun]
      exact ⟨wf_assign hcanvas i c, hb, hch⟩
    · rw [hrun]
      exact ⟨hcanvas, hb, hch⟩

theorem cover_eq (hread : w.Readable) (hp : p ∈ w.base.logical) :
    w.cover p = (w.coverColor p).map .ok := by
  obtain ⟨c, hc⟩ := hread p hp
  have hlook : (w.cover p).getD (w.canvas p) = .ok c := (w.led_eq_look p.1 p.2).symm.trans hc
  unfold coverColor
  cases hcover : w.cover p with
  | none => rfl
  | some r =>
    rw [hcover] at hlook
    cases hlook
    rfl

/-- What one sees of a window after some writes: the children over the canvas. -/
theorem Written.led_ok (h : w.Written s) (hread : w.Readable) (hp : p ∈ w.base.logical) :
    IPaintDevice.led s.dev p.1 p.2 = .ok (paint w.coverColor (pix s.dev.bare) p) := by
  have hcanvas : s.dev.canvas p = .ok (pix s.dev.bare p) := h.canvas.led_ok (h.mem_bare hp)
  have hcover : s.dev.cover p = w.cover p := by
    unfold cover
    rw [h.base_eq, h.children]
  have hlook : IPaintDevice.led s.dev p.1 p.2 = (s.dev.cover p).getD (s.dev.canvas p) :=
    s.dev.led_eq_look p.1 p.2
  rw [hlook, hcover, cover_eq hread hp, hcanvas]
  unfold paint
  cases w.coverColor p <;> rfl

theorem Written.readLed_run (h : w.Written s) (hread : w.Readable) (hp : p ∈ w.base.logical) :
    (readLed p.1 p.2).run s =
      (.ok (paint w.coverColor (pix s.dev.bare) p), s.push (.access p.1 p.2)) := by
  simp only [readLed, note, Prog.run_modify_bind, Prog.run_read_bind, Session.push_dev,
    h.led_ok hread hp, Prog.run_lift]

/-- A write goes to the canvas. -/
theorem Written.writeLed_run (h : w.Written s) (hp : p ∈ w.base.logical) (c : LedColor) :
    ∃ d : Window, (writeLed p.1 p.2 c).run s =
        (.ok (), { s.push (.access p.1 p.2) with dev := d }) ∧
      w.Written { s.push (.access p.1 p.2) with dev := d } ∧
      ∀ q ∈ w.base.logical, pix d.bare q = if q = p then c else pix s.dev.bare q := by
  have hmem := h.mem_bare hp
  have hrun : (writeLed p.1 p.2 c).run s = (.ok (), { s.push (.access p.1 p.2) with
      dev := assign (s.dev.base.cell .vector p).toNat c s.dev }) := by
    have href : IPaintDevice.ledRef s.dev p.1 p.2 = .ok (s.dev.base.cell .vector p).toNat :=
      h.canvas.ledRef_ok hmem
    simp only [writeLed, note, Prog.run_modify_bind, Prog.run_read_bind, Session.push_dev, href,
      Prog.run_lift_ok_bind, Prog.run_modify]
  refine ⟨_, hrun, ⟨wf_assign h.canvas _ c, h.base_eq, h.children⟩, fun q hq => ?_⟩
  exact h.canvas.pix_assign hmem c (h.mem_bare hq)

/-- Every operation, with any arguments, keeps the canvas well formed. -/
theorem wf_after (op : DeviceOp) (hw : Wf w.bare) : Wf (op.after w).bare := by
  by_cases hflip : ∃ flipX flipY, op = .flip flipX flipY
  · obtain ⟨flipX, flipY, rfl⟩ := hflip
    exact ((Written.stable w).flip flipX flipY ⟨w, []⟩ (.start hw [])).canvas
  · have hne : ∀ flipX flipY, op ≠ .flip flipX flipY := fun flipX flipY h =>
      hflip ⟨flipX, flipY, h⟩
    rw [(DeviceOp.bare_after hne w).2]
    exact op.wf_after hw

/-- Only a rotation changes the size of a window. -/
theorem size_after {op : DeviceOp} (hop : ∀ degree flipX flipY, op ≠ .setRotate degree flipX flipY)
    (hw : Wf w.bare) :
    (op.after w).base.width = w.base.width ∧ (op.after w).base.height = w.base.height := by
  have of_written : ∀ {s : Session Window}, w.Written s →
      s.dev.base.width = w.base.width ∧ s.dev.base.height = w.base.height := fun hs =>
    ⟨congrArg (·.width) hs.base_eq, congrArg (·.height) hs.base_eq⟩
  have hstart : w.Written ⟨w, []⟩ := .start hw []
  cases op with
  | clear => exact of_written ((Written.stable w).clear _ hstart)
  | setBackground color => exact ⟨rfl, rfl⟩
  | setTransparent transparent => exact ⟨rfl, rfl⟩
  | write x y color => exact of_written ((Written.stable w).writeLed x y color _ hstart)
  | setRotate degree flipX flipY => exact absurd rfl (hop degree flipX flipY)
  | flip flipX flipY => exact of_written ((Written.stable w).flip flipX flipY _ hstart)
  | draw src x y flipX flipY =>
    exact of_written ((Written.stable w).draw src x y flipX flipY _ hstart)

/-! ## `flip` -/

/-- The loops of `flip` are about to reach the point `n`. -/
def Flipping (w : Window) (flipX flipY : Bool) (n : Int × Int) (s : Session Window) : Prop :=
  w.Written s ∧ ∀ p ∈ w.base.logical, pix s.dev.bare p =
    exchangeSeen w.coverColor (partner w.base flipX flipY) (Passed w.base n) (pix w.bare) p

/-- The loop body reads through the children at a point and at its partner, and writes the canvas
at both. -/
theorem Written.flipPixel_run (h : w.Written s) (hread : w.Readable) (flipX flipY : Bool)
    {n : Int × Int} (hn : n ∈ w.base.logical) :
    ∃ s' : Session Window, (flipPixel flipX flipY n.2 n.1).run s = (.ok (), s') ∧ w.Written s' ∧
      ∀ p ∈ w.base.logical, pix s'.dev.bare p =
        if p = partner w.base flipX flipY n then paint w.coverColor (pix s.dev.bare) n
        else if p = n then
          paint w.coverColor (pix s.dev.bare) (partner w.base flipX flipY n)
        else pix s.dev.bare p := by
  have hside := h.canvas.fields.logical_side
  have hwidth : width s.dev = w.base.width := congrArg (·.width) h.base_eq
  have hheight : height s.dev = w.base.height := congrArg (·.height) h.base_eq
  have hdx : flipped flipX (width s.dev) n.1 = .ok (mirrored flipX w.base.width n.1) := by
    rw [hwidth]
    exact flipped_ok flipX (hwidth ▸ hside.1.2) hn.1.1 hn.1.2
  have hdy : flipped flipY (height s.dev) n.2 = .ok (mirrored flipY w.base.height n.2) := by
    rw [hheight]
    exact flipped_ok flipY (hheight ▸ hside.2.2) hn.2.1 hn.2.2
  set m := partner w.base flipX flipY n with hm
  have hmem : m ∈ w.base.logical := partner_mem.mpr hn
  have hfirst := h.readLed_run hread hn
  have hsecond := Written.readLed_run (s := s.push (.access n.1 n.2))
    ⟨h.canvas, h.base_eq, h.children⟩ hread hmem
  obtain ⟨d₁, hwrite, hw₁, hpix₁⟩ := Written.writeLed_run
    (s := (s.push (.access n.1 n.2)).push (.access m.1 m.2))
    ⟨h.canvas, h.base_eq, h.children⟩ hn (paint w.coverColor (pix s.dev.bare) m)
  obtain ⟨d₂, hwrite', hw₂, hpix₂⟩ :=
    hw₁.writeLed_run hmem (paint w.coverColor (pix s.dev.bare) n)
  refine ⟨_, Eq.trans ?_ hwrite', hw₂, fun p hp => ?_⟩
  · simp only [flipPixel, field, Prog.run_read_bind, hdx, hdy, Prog.run_lift_ok_bind]
    refine (Prog.run_bind_ok hfirst).trans ?_
    refine (Prog.run_bind_ok hsecond).trans ?_
    exact Prog.run_bind_ok hwrite
  · simp only
    rw [hpix₂ p hp, hpix₁ p hp]
    rfl

variable {flipX flipY : Bool}

/-- Two places of the loops that have the same points behind them. -/
theorem Flipping.of_iff {n m : Int × Int} (h : w.Flipping flipX flipY n s)
    (hiff : ∀ p ∈ w.base.logical, Passed w.base n p ↔ Passed w.base m p) :
    w.Flipping flipX flipY m s := by
  refine ⟨h.1, fun p hp => ?_⟩
  rw [h.2 p hp]
  exact exchangeSeen_congr (hiff p hp) (hiff _ (partner_mem.mpr hp))

/-- What one sees of the children over the canvas at the point `n` of the loops. -/
theorem Flipping.paint_eq {n p : Int × Int} (h : w.Flipping flipX flipY n s)
    (hp : p ∈ w.base.logical) :
    paint w.coverColor (pix s.dev.bare) p =
      paint w.coverColor
        (exchangeSeen w.coverColor (partner w.base flipX flipY) (Passed w.base n) (pix w.bare))
        p := by
  unfold paint
  rw [h.2 p hp]

/-- One step of the loops. -/
theorem Flipping.step {n : Int × Int} (h : w.Flipping flipX flipY n s) (hread : w.Readable)
    (hn : n ∈ w.base.logical) (hhalf : n.1 < w.base.width / 2) :
    ∃ s' : Session Window, (flipPixel flipX flipY n.2 n.1).run s = (.ok (), s') ∧
      w.Flipping flipX flipY (n.1 + 1, n.2) s' := by
  obtain ⟨s', hrun, hs', hpix⟩ := h.1.flipPixel_run hread flipX flipY hn
  refine ⟨s', hrun, hs', fun p hp => ?_⟩
  rw [hpix p hp, h.2 p hp, h.paint_eq hn, h.paint_eq (partner_mem.mpr hn),
    exchangeSeen_succ partner_partner (not_passed_self n) fun _ => passed_succ_iff hhalf]

/-- `flip` on a window whose pixels can be read: for every point of the left half, what one saw
there and at its partner has been exchanged on the canvas. -/
theorem flip_run (hw : Wf w.bare) (hread : w.Readable) (flipX flipY : Bool) :
    ∃ s' : Session Window, (flip flipX flipY).run ⟨w, []⟩ = (.ok (), s') ∧ w.Written s' ∧
      ∀ p ∈ w.base.logical, pix s'.dev.bare p =
        exchangeSeen w.coverColor (partner w.base flipX flipY) (fun q => q.1 < width w / 2)
          (pix w.bare) p := by
  have hloop := flip_triple (J := w.Flipping flipX flipY) hw.fields.logical_side.1.1.le
    (fun _ _ hs => hs.1.base_eq) (fun _ _ _ hiff hs => hs.of_iff hiff)
    fun _ _ hs hn hhalf => hs.step hread hn hhalf
  have hstart : w.Flipping flipX flipY (0, 0) ⟨w, []⟩ := by
    refine ⟨.start hw [], fun p hp => ?_⟩
    unfold exchangeSeen
    rw [if_neg fun h => not_passed_start hp h.1,
      if_neg (not_or.mpr ⟨not_passed_start hp, not_passed_start (partner_mem.mpr hp)⟩)]
  obtain ⟨u, s', hrun, hs', himg⟩ := hloop.returns hstart
  refine ⟨s', hrun, hs', fun p hp => ?_⟩
  rw [himg p hp]
  exact exchangeSeen_congr (passed_end_iff hp) (passed_end_iff (partner_mem.mpr hp))

/-- Where `flip` has moved what one saw: to a point of the canvas from its partner. With `flip_x`
that is every point off the middle column; without it a pair of the left half is exchanged twice,
and only what a child shows at the partner stays behind. -/
def Moved (w : Window) (flipX flipY : Bool) (p : Int × Int) : Prop :=
  ¬ w.Covered p ∧ if flipX then 2 * p.1 + 1 ≠ width w
    else p.1 < width w / 2 ∧ w.Covered (partner w.base flipX flipY p)

instance (w : Window) (flipX flipY : Bool) : DecidablePred (w.Moved flipX flipY) := fun p =>
  inferInstanceAs (Decidable (¬ w.Covered p ∧ if flipX then 2 * p.1 + 1 ≠ width w
    else p.1 < width w / 2 ∧ w.Covered (partner w.base flipX flipY p)))

theorem covered_iff (hread : w.Readable) (hp : p ∈ w.base.logical) :
    w.Covered p ↔ w.coverColor p ≠ none := by
  unfold Covered
  rw [cover_eq hread hp, Ne, Option.map_eq_none_iff]

/-- The points of `exchangeSeen` are those that `flip` has moved. -/
theorem moved_iff (hread : w.Readable) (flipX flipY : Bool) (hp : p ∈ w.base.logical) :
    w.Moved flipX flipY p ↔ w.coverColor p = none ∧
      (p.1 < width w / 2 ∨ (partner w.base flipX flipY p).1 < width w / 2) ∧
      (p.1 < width w / 2 → (partner w.base flipX flipY p).1 < width w / 2 →
        w.coverColor (partner w.base flipX flipY p) ≠ none) := by
  unfold Moved
  rw [covered_iff hread hp, covered_iff hread (partner_mem.mpr hp), not_not]
  refine and_congr_right fun _ => ?_
  obtain ⟨⟨h0, hlt⟩, -⟩ := hp
  cases flipX with
  | true =>
    -- the partner is in the other half
    have hpartner : (partner w.base true flipY p).1 = width w - 1 - p.1 := rfl
    have hwidth : p.1 < width w := hlt
    rw [if_pos rfl, hpartner]
    constructor
    · intro hmid
      exact ⟨by omega, fun _ _ => absurd hmid (by omega)⟩
    · rintro ⟨hside, -⟩
      omega
  | false =>
    have hpartner : (partner w.base false flipY p).1 = p.1 := rfl
    rw [if_neg (by simp), hpartner, or_self]
    exact and_congr_right fun hleft => ⟨fun h _ _ => h, fun h => h hleft hleft⟩

/-- **Flipping a window with children.** If every pixel can be read, `flip` returns. What the
children show stays where it is, and what one saw at the partner, of a child or of the canvas, has
come to the points that `Moved` tells. Nothing else has changed. -/
theorem flip_led (hw : Wf w.bare) (hread : w.Readable) (flipX flipY : Bool) :
    (DeviceOp.flip flipX flipY).outcome w = .ok () ∧
    ∀ x y, 0 ≤ x ∧ x < width w → 0 ≤ y ∧ y < height w →
      IPaintDevice.led ((DeviceOp.flip flipX flipY).after w) x y =
        if w.Moved flipX flipY (x, y) then IPaintDevice.led w
          (if flipX then width w - 1 - x else x) (if flipY then height w - 1 - y else y)
        else IPaintDevice.led w x y := by
  obtain ⟨s', hrun, hs', himg⟩ := flip_run hw hread flipX flipY
  obtain ⟨hreturns, hafter⟩ := DeviceOp.outcome_after (.flip flipX flipY) hrun
  refine ⟨hreturns, fun x y hx hy => ?_⟩
  have hp : (x, y) ∈ w.base.logical := ⟨hx, hy⟩
  have hstart : w.Written ⟨w, []⟩ := .start hw []
  have hnew : IPaintDevice.led s'.dev x y = .ok (paint w.coverColor (exchangeSeen w.coverColor
      (partner w.base flipX flipY) (fun q => q.1 < width w / 2) (pix w.bare)) (x, y)) := by
    refine (hs'.led_ok hread hp).trans (congrArg Except.ok ?_)
    unfold paint
    rw [himg _ hp]
  rw [hafter, hnew, paint_exchangeSeen]
  have hmoved := moved_iff hread flipX flipY hp
  by_cases hm : w.Moved flipX flipY (x, y)
  · rw [if_pos hm, if_pos (hmoved.mp hm)]
    exact (hstart.led_ok hread (partner_mem.mpr hp)).symm
  · rw [if_neg hm, if_neg (mt hmoved.mpr hm)]
    exact (hstart.led_ok hread hp).symm

/-- A red dot over the left one of three pixels stays there, and has come to the right one. -/
theorem flip_led_dot :
    let w : Window := { Window.make 3 1 with children_ := [⟨.solid 1 1 Led.red, 0, 0⟩] }
    IPaintDevice.led ((DeviceOp.flip true false).after w) 2 0 = .ok Led.red := by
  intro w
  have hw : Wf w.bare :=
    LawfulPaintDevice.fresh_wf
      (Window.fresh_make (w := 3) (h := 1) (by decide) (by decide) (by decide))
  have hread : w.Readable := by
    rintro ⟨x, y⟩ ⟨⟨hx0, hx⟩, hy0, hy⟩
    have hx : x < 3 := hx
    have hy : y < 1 := hy
    simp only at hx0 hy0
    obtain rfl : y = 0 := by omega
    obtain rfl | rfl | rfl : x = 0 ∨ x = 1 ∨ x = 2 := by omega
    · exact ⟨Led.red, by decide⟩
    all_goals exact ⟨Led.black, by decide⟩
  exact ((flip_led hw hread true false).2 2 0 (by decide) (by decide)).trans (by decide)

end Window

end Ws2812
