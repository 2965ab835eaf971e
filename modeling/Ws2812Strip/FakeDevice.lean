import Ws2812Strip.Draw

/-!
# A fake device shows what the strip shows

`Twins d d'`: two devices with the same base fields whose LEDs have the same colour at every
physical point, whatever their buffers look like inside. Every operation ends the same way on
twins and leaves twins (`DeviceOp.twins_after`), since each of its steps does (`Prog.Sim`); the
points of the image at which it reads and writes do not depend on the layout of the buffer.

`fakeDevice_agrees` is the case of a strip, serpentine and read through `WS2811Strip::led`, and of
its debug stand-in, row by row and read through `Window::led`.
-/

namespace Ws2812

open IPaintDevice Grid

/-- Two well-formed devices with the fields `r` and the same physical image. -/
structure Twins {D D' : Type} [IPaintDevice D] [IPaintDevice D'] (r : IRotatablePaintDevice)
    (d : D) (d' : D') : Prop where
  left : Wf d
  right : Wf d'
  base_left : base d = r
  base_right : base d' = r
  phys_eq : ∀ u ∈ rect r.width_ r.height_, phys d u = phys d' u

/-- Two devices of the same logical size that show the same image. -/
def SameView {D D' : Type} [IPaintDevice D] [IPaintDevice D'] (d : D) (d' : D') : Prop :=
  width d = width d' ∧ height d = height d' ∧
    ∀ x y, 0 ≤ x ∧ x < width d → 0 ≤ y ∧ y < height d → led d x y = led d' x y

section Steps

variable {D D' : Type} [IPaintDevice D] [IPaintDevice D']
  {r : IRotatablePaintDevice}

/-- Sessions on twins. -/
def TwinSessions (r : IRotatablePaintDevice) (s : Session D) (t : Session D') : Prop :=
  Twins r s.dev t.dev

theorem Twins.logical_left {d : D} {d' : D'} (h : Twins r d d') : logical d = r.logical := by
  rw [logical, h.base_left]

theorem Twins.logical_right {d : D} {d' : D'} (h : Twins r d d') : logical d' = r.logical := by
  rw [logical, h.base_right]

theorem Twins.pix_eq {d : D} {d' : D'} (h : Twins r d d') {p : Int × Int} (hp : p ∈ r.logical) :
    pix d p = pix d' p := by
  unfold pix
  have hmem := h.left.fields.point_mem (p := p) (by rw [h.base_left]; exact hp)
  rw [h.base_left] at hmem ⊢
  rw [h.base_right]
  exact h.phys_eq _ hmem

theorem sim_note (e : Event) :
    Prog.Sim (TwinSessions r) (note e : DevM D Unit) (note e : DevM D' Unit) fun _ => True :=
  Prog.Sim.modify fun _ _ h => h

/-- A field of the base class reads the same on both. -/
theorem sim_field {α : Type} {f : D → α} {g : D' → α} {v : α} (hf : ∀ d, base d = r → f d = v)
    (hg : ∀ d, base d = r → g d = v) :
    Prog.Sim (TwinSessions r) (field f) (field g) fun a => a = v :=
  Prog.Sim.read fun s t h => by
    rw [hf s.dev h.base_left, hg t.dev h.base_right]
    exact ⟨rfl, rfl⟩

theorem sim_width :
    Prog.Sim (TwinSessions r) (field width : DevM D Int) (field width : DevM D' Int)
      fun a => a = r.width :=
  sim_field (fun d h => by rw [width, h]) fun d h => by rw [width, h]

theorem sim_height :
    Prog.Sim (TwinSessions r) (field height : DevM D Int) (field height : DevM D' Int)
      fun a => a = r.height :=
  sim_field (fun d h => by rw [height, h]) fun d h => by rw [height, h]

theorem sim_target (x dx : Int) :
    Prog.Sim (TwinSessions r) (target x dx : DevM D Int) (target x dx : DevM D' Int)
      fun a => a = x + dx := by
  refine (sim_note _).bind fun _ _ => Prog.Sim.lift _ fun a ha => ?_
  by_cases h : IsInt (x + dx)
  · rw [cint_ok h] at ha
    cases ha
    rfl
  · rw [cint_error h] at ha
    cases ha

variable [LawfulPaintDevice D] [LawfulPaintDevice D']

theorem sim_readLed {x y : Int} (hp : (x, y) ∈ r.logical) :
    Prog.Sim (TwinSessions r) (readLed x y : DevM D LedColor) (readLed x y : DevM D' LedColor)
      fun _ => True := by
  intro s t h
  have hs := h.left.readLed_run (s := s) (p := (x, y)) (by rw [h.logical_left]; exact hp)
  have ht := h.right.readLed_run (s := t) (p := (x, y)) (by rw [h.logical_right]; exact hp)
  simp only at hs ht
  rw [hs, ht, h.pix_eq hp]
  exact ⟨rfl, fun _ _ => trivial, h⟩

theorem sim_writeLed {x y : Int} (hp : (x, y) ∈ r.logical) (c : LedColor) :
    Prog.Sim (TwinSessions r) (writeLed x y c : DevM D Unit) (writeLed x y c : DevM D' Unit)
      fun _ => True := by
  intro s t h
  obtain ⟨d, hs, hwf, hb, hphys, -⟩ :=
    h.left.writeLed_run (s := s) (p := (x, y)) (by rw [h.logical_left]; exact hp) c
  obtain ⟨d', ht, hwf', hb', hphys', -⟩ :=
    h.right.writeLed_run (s := t) (p := (x, y)) (by rw [h.logical_right]; exact hp) c
  simp only at hs ht
  rw [hs, ht]
  rw [h.base_left] at hphys hb
  rw [h.base_right] at hphys' hb'
  refine ⟨rfl, fun _ _ => trivial, hwf, hwf', hb, hb', fun u hu => ?_⟩
  simp only
  rw [hphys u hu, hphys' u hu, h.phys_eq u hu]

/-! ## The loops -/

theorem sim_clear :
    Prog.Sim (TwinSessions r) (clear : DevM D Unit) (clear : DevM D' Unit) fun _ => True := by
  refine sim_height.bind fun h hh => sim_forInt fun y hy0 hy => ?_
  refine sim_width.bind fun w hw => sim_forInt fun x hx0 hx => ?_
  subst hh hw
  refine (sim_field (v := r.back) (fun d h => by rw [h]) fun d h => by rw [h]).bind fun c _ => ?_
  exact sim_writeLed ⟨⟨hx0, hx⟩, hy0, hy⟩ c

/-- One step of `flip` touches a pixel and its mirror image, both on the device. -/
theorem sim_flipPixel (hwf : r.Wf) (flipX flipY : Bool) {x y : Int} (hp : (x, y) ∈ r.logical) :
    Prog.Sim (TwinSessions r) (flipPixel flipX flipY y x : DevM D Unit)
      (flipPixel flipX flipY y x : DevM D' Unit) fun _ => True := by
  have hw := hwf.logical_side.1.2
  have hh := hwf.logical_side.2.2
  have hq : (mirrored flipX r.width x, mirrored flipY r.height y) ∈ r.logical :=
    ⟨(mirrored_lt_iff flipX).mpr hp.1, (mirrored_lt_iff flipY).mpr hp.2⟩
  have hdx := flipped_ok flipX hw hp.1.1 hp.1.2
  have hdy := flipped_ok flipY hh hp.2.1 hp.2.2
  simp only at hdx hdy
  refine sim_width.bind fun w hw => ?_
  refine (Prog.Sim.lift (V := fun a => a = mirrored flipX r.width x) _ fun a ha => ?_).bind
    fun dx hdx' => ?_
  · rw [hw, hdx] at ha
    cases ha
    rfl
  refine sim_height.bind fun h hh => ?_
  refine (Prog.Sim.lift (V := fun a => a = mirrored flipY r.height y) _ fun a ha => ?_).bind
    fun dy hdy' => ?_
  · rw [hh, hdy] at ha
    cases ha
    rfl
  subst hdx' hdy'
  exact (sim_readLed hp).bind fun tmp _ => (sim_readLed hq).bind fun other _ =>
    (sim_writeLed hp other).bind fun _ _ => sim_writeLed hq tmp

theorem sim_flip (hwf : r.Wf) (flipX flipY : Bool) :
    Prog.Sim (TwinSessions r) (flip flipX flipY : DevM D Unit) (flip flipX flipY : DevM D' Unit)
      fun _ => True := by
  refine sim_height.bind fun h hh => sim_forInt fun y hy0 hy => ?_
  refine sim_width.bind fun w hw => sim_forInt fun x hx0 hx => ?_
  subst hh hw
  refine sim_flipPixel hwf flipX flipY ⟨⟨hx0, ?_⟩, hy0, hy⟩
  have hpos := hwf.logical_side.1.1
  rw [Int.tdiv_eq_ediv_of_nonneg hpos.le] at hx
  simp only
  omega

theorem sim_drawPixel {a : Placement} (hfit : a.Fits) {n : Int × Int}
    (hn : a.src.Inside n.1 n.2) (hrow : a.row n.2 < r.height) :
    Prog.Sim (TwinSessions r) (drawPixel a.src a.x a.flipX n.2 (a.row n.2) n.1 : DevM D Unit)
      (drawPixel a.src a.x a.flipX n.2 (a.row n.2) n.1 : DevM D' Unit) fun _ => True := by
  refine (Prog.Sim.lift (V := fun dx => dx = mirrored a.flipX a.src.width n.1) _
    fun dx h => ?_).bind fun dx hdx => ?_
  · rw [flipped_ok a.flipX hfit.sized.width hn.1.1 hn.1.2] at h
    cases h
    rfl
  subst hdx
  refine (sim_target _ _).bind fun tx htx => sim_width.bind fun w hw => ?_
  subst htx hw
  refine Prog.Sim.ite (fun _ => Prog.Sim.pure () trivial) fun hcol => ?_
  refine (Prog.Sim.lift _ fun _ _ => trivial).bind fun c _ => ?_
  refine (sim_field (v := r) (fun _ h => h) fun _ h => h).bind fun b _ => ?_
  exact Prog.Sim.ite (fun _ => Prog.Sim.pure () trivial) fun _ =>
    sim_writeLed ⟨⟨(hfit.col_bounds hn.1).1, not_le.mp hcol⟩, (hfit.row_bounds hn.2).1, hrow⟩ c

theorem sim_draw {a : Placement} (hfit : a.Fits) :
    Prog.Sim (TwinSessions r) (draw a.src a.x a.y a.flipX a.flipY : DevM D Unit)
      (draw a.src a.x a.y a.flipX a.flipY : DevM D' Unit) fun _ => True := by
  refine sim_forInt fun sy hsy0 hsy => ?_
  refine (Prog.Sim.lift (V := fun dy => dy = mirrored a.flipY a.src.height sy) _
    fun dy h => ?_).bind fun dy hdy => ?_
  · rw [flipped_ok a.flipY hfit.sized.height hsy0 hsy] at h
    cases h
    rfl
  subst hdy
  refine (sim_target _ _).bind fun ty hty => sim_height.bind fun h hh => ?_
  subst hty hh
  refine Prog.Sim.ite (fun _ => Prog.Sim.pure () trivial) fun hrow => ?_
  exact sim_forInt fun sx hsx0 hsx =>
    sim_drawPixel (n := (sx, sy)) hfit ⟨⟨hsx0, hsx⟩, hsy0, hsy⟩ (not_le.mp hrow)

end Steps

/-! ## Runs -/

/-- The arguments that a client of both devices may give an operation on a device with the fields
`r`: a write on the device, and an offset of a draw that is not negative and fits. -/
def DeviceOp.Admissible (r : IRotatablePaintDevice) : DeviceOp → Prop
  | .write x y _ => (0 ≤ x ∧ x < r.width) ∧ 0 ≤ y ∧ y < r.height
  | .draw src x y _ _ => 0 ≤ x ∧ 0 ≤ y ∧ x + src.width ≤ INT_MAX ∧ y + src.height ≤ INT_MAX
  | _ => True

/-- Every operation of a run is admissible where it is performed. -/
def AdmissibleRun {D : Type} [IPaintDevice D] : List DeviceOp → D → Prop
  | [], _ => True
  | op :: ops, d => op.Admissible (base d) ∧ AdmissibleRun ops (op.after d)

/-- How each operation of a run ends, with the device that it leaves. -/
def history {D : Type} [IPaintDevice D] : List DeviceOp → D → List (Except Fault Unit × D)
  | [], _ => []
  | op :: ops, d => (op.outcome d, op.after d) :: history ops (op.after d)

section Runs

variable {D D' : Type} [IPaintDevice D] [IPaintDevice D'] [LawfulPaintDevice D]
  [LawfulPaintDevice D'] {r : IRotatablePaintDevice} {d : D} {d' : D'}

/-- A call of the base class on twins. -/
theorem Twins.onBase (h : Twins r d d') {c : Prog IRotatablePaintDevice Fault Unit}
    (hwf : (c.run r).2.Wf) (hw : (c.run r).2.width_ = r.width_)
    (hh : (c.run r).2.height_ = r.height_) :
    ((onBase c).run (⟨d, []⟩ : Session D)).1 = ((onBase c).run (⟨d', []⟩ : Session D')).1 ∧
      ∃ r', Twins r' ((onBase c).run (⟨d, []⟩ : Session D)).2.dev
        ((onBase c).run (⟨d', []⟩ : Session D')).2.dev := by
  have hl := h.base_left
  have hr := h.base_right
  have e : (c.run (base d)).1 = (c.run (base d')).1 := by rw [hl, hr]
  refine ⟨e, (c.run r).2, ?_⟩
  show Twins _ (setBase (c.run (base d)).2 d) (setBase (c.run (base d')).2 d')
  rw [hl, hr]
  refine ⟨wf_setBase h.left hwf (by rw [hw, hl]) (by rw [hh, hl]),
    wf_setBase h.right hwf (by rw [hw, hr]) (by rw [hh, hr]),
    LawfulPaintDevice.base_setBase _ _, LawfulPaintDevice.base_setBase _ _, fun u hu => ?_⟩
  have := h.phys_eq u (by rwa [hw, hh] at hu)
  unfold phys at this ⊢
  simp only [LawfulPaintDevice.base_setBase, LawfulPaintDevice.leds_setBase]
  rw [hw]
  rwa [hl, hr] at this

/-- An admissible operation ends the same way on twins, and leaves twins. -/
theorem DeviceOp.twins_after (op : DeviceOp) (h : Twins r d d') (hop : op.Admissible r) :
    op.outcome d = op.outcome d' ∧ ∃ r', Twins r' (op.after d) (op.after d') := by
  have hwf : r.Wf := h.base_left ▸ h.left.fields
  have of_sim : Prog.Sim (TwinSessions r) (op.exec : DevM D Unit) (op.exec : DevM D' Unit)
      (fun _ => True) → op.outcome d = op.outcome d' ∧
        ∃ r', Twins r' (op.after d) (op.after d') := fun hs =>
    have hs := hs ⟨d, []⟩ ⟨d', []⟩ h
    ⟨hs.1, r, hs.2.2⟩
  cases op with
  | clear => exact of_sim sim_clear
  | setBackground color =>
    exact h.onBase ⟨hwf.width_pos, hwf.height_pos, hwf.area_le, hwf.size_eq⟩ rfl rfl
  | setTransparent transparent =>
    exact h.onBase ⟨hwf.width_pos, hwf.height_pos, hwf.area_le, hwf.size_eq⟩ rfl rfl
  | write x y color => exact of_sim (sim_writeLed hop color)
  | setRotate degree flipX flipY =>
    obtain ⟨hw, hh, -⟩ := IRotatablePaintDevice.setRotate_frame degree flipX flipY r
    exact h.onBase (IRotatablePaintDevice.setRotate_wf hwf degree flipX flipY) hw hh
  | flip flipX flipY => exact of_sim (sim_flip hwf flipX flipY)
  | draw src x y flipX flipY =>
    obtain ⟨hx, hy, hr, hb⟩ := hop
    exact of_sim (sim_draw (a := ⟨src, x, y, flipX, flipY⟩) ⟨hx, hy, hr, hb⟩)

/-- Twins show the same image. -/
theorem Twins.sameView (h : Twins r d d') : SameView d d' := by
  refine ⟨by rw [width, width, h.base_left, h.base_right],
    by rw [height, height, h.base_left, h.base_right], fun x y hx hy => ?_⟩
  have hp : (x, y) ∈ logical d := ⟨hx, hy⟩
  have hp' : (x, y) ∈ logical d' := by rw [h.logical_right, ← h.logical_left]; exact hp
  have hr : (x, y) ∈ r.logical := by rw [← h.logical_left]; exact hp
  exact (h.left.led_ok hp).trans ((congrArg _ (h.pix_eq hr)).trans (h.right.led_ok hp').symm)

/-- Devices with the same fields that show the same image are twins: every physical point is the
place of a logical coordinate. -/
theorem twins_of_sameView (hl : Wf d) (hr : Wf d') (hb : base d = base d')
    (hview : SameView d d') : Twins (base d) d d' where
  left := hl
  right := hr
  base_left := rfl
  base_right := hb.symm
  phys_eq u hu := by
    obtain ⟨p, hp, rfl⟩ := hl.fields.bijOn_point.surjOn hu
    have hp' : p ∈ logical d' := (mem_logical_iff hb.symm).mpr hp
    have h := hview.2.2 p.1 p.2 hp.1 hp.2
    rw [hl.led_ok hp, hr.led_ok hp'] at h
    have := Except.ok.inj h
    unfold pix at this
    rwa [← hb] at this

/-- A run of admissible operations on twins. -/
theorem history_agrees (ops : List DeviceOp) (h : Twins r d d') (hadm : AdmissibleRun ops d) :
    List.Forall₂ (fun a b => a.1 = b.1 ∧ SameView a.2 b.2) (history ops d) (history ops d') := by
  induction ops generalizing d d' r with
  | nil => exact .nil
  | cons op ops ih =>
    obtain ⟨hop, hadm⟩ := hadm
    rw [h.base_left] at hop
    obtain ⟨hout, r', htwins⟩ := op.twins_after h hop
    exact .cons ⟨hout, htwins.sameView⟩ (ih htwins hadm)

end Runs

/-- Two devices whose fields fit together have the same fields when the physical size, the
helper, the back colour and the transparent flag agree. -/
theorem fields_eq {r r' : IRotatablePaintDevice} (h : r.Wf) (h' : r'.Wf)
    (hw : r.width_ = r'.width_) (hh : r.height_ = r'.height_)
    (hrot : r.rotateHelper_ = r'.rotateHelper_) (hback : r.back = r'.back)
    (htrans : r.transparent_ = r'.transparent_) : r = r' := by
  have hlw : r.logicWidth_ = r'.logicWidth_ := by
    have e := h.width_eq
    have e' := h'.width_eq
    rw [hw, hh, hrot, ← e'] at e
    exact e
  have hlh : r.logicHeight_ = r'.logicHeight_ := by
    have e := h.height_eq
    have e' := h'.height_eq
    rw [hw, hh, hrot, ← e'] at e
    exact e
  obtain ⟨t, b, k, w, ht, lw, lh⟩ := r
  obtain ⟨t', b', k', w', ht', lw', lh'⟩ := r'
  simp only at hw hh hrot hback htrans hlw hlh
  subst hw hh hrot hback htrans hlw hlh
  rfl

/-- **Fake device and real strip agree.** Take an initialised strip and a childless fake device of
the same physical size, at rotation 0 without flips, that show the same image and have the same
back colour and transparent flag. For every run of admissible operations, every operation ends the
same way on both, and afterwards both have the same size and show the same image. -/
theorem fakeDevice_agrees {strip : WS2811Strip} {fake : WS2811StripFakeDeviceDebug}
    (hs : Reachable strip) (hf : Reachable fake)
    (hw : strip.base.width_ = fake.base.width_) (hh : strip.base.height_ = fake.base.height_)
    (hrot : strip.base.rotateHelper_ = ⟨.d0, false, false⟩)
    (hrot' : fake.base.rotateHelper_ = ⟨.d0, false, false⟩)
    (hback : strip.base.back = fake.base.back)
    (htrans : strip.base.transparent_ = fake.base.transparent_) (hview : SameView strip fake)
    (ops : List DeviceOp) (hadm : AdmissibleRun ops strip) :
    List.Forall₂ (fun a b => a.1 = b.1 ∧ SameView a.2 b.2) (history ops strip)
      (history ops fake) :=
  history_agrees ops (twins_of_sameView hs.wf hf.wf
    (fields_eq hs.wf.fields hf.wf.fields hw hh (hrot.trans hrot'.symm) hback htrans) hview) hadm

/-- A strip and its stand-in after construction, turned by 90 degrees and drawn on. -/
theorem fakeDevice_agrees_turned :
    List.Forall₂ (fun a b => a.1 = b.1 ∧ SameView a.2 b.2)
      (history [.setRotate 90 false true, .draw (.solid 1 1 Led.red) 1 0 true false]
        ((WS2811Strip.make 2 3 Led.black).init (some fun _ => Led.black)))
      (history [.setRotate 90 false true, .draw (.solid 1 1 Led.red) 1 0 true false]
        (Window.make 2 3)) := by
  have hs : Reachable ((WS2811Strip.make 2 3 Led.black).init (some fun _ => Led.black)) :=
    .fresh (WS2811Strip.fresh_init (by decide) (by decide) (by decide) _)
  have hf : Reachable (Window.make 2 3) :=
    .fresh (Window.fresh_make (by decide) (by decide) (by decide))
  refine fakeDevice_agrees hs hf rfl rfl rfl rfl rfl rfl ⟨rfl, rfl, ?_⟩ _ ⟨trivial, ?_, trivial⟩
  · intro x y hx hy
    have hx' : 0 ≤ x ∧ x < 2 := hx
    have hy' : 0 ≤ y ∧ y < 3 := hy
    obtain rfl | rfl : x = 0 ∨ x = 1 := by omega
    all_goals
      obtain rfl | rfl | rfl : y = 0 ∨ y = 1 ∨ y = 2 := by omega
      all_goals decide
  · exact ⟨by decide, by decide, by decide, by decide⟩

end Ws2812
