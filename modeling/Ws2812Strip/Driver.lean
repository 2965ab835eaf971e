import Ws2812Strip.Clip
import Ws2812Strip.Clear
import Ws2812Strip.Flip
import Ws2812Strip.Lib.Run

/-!
# The life of a strip

`WS2811Strip` over the `ws2811` library: `init` may fail, and only after a successful one and
until the next `ws2811_fini` are the LED buffer and the device handle valid; an `init` that fails
in between changes nothing. The class has no field for that, so here the state is whether `leds` has
a buffer.

* `Sound`: what holds of a strip before `init` too. `kept_after`: what no operation of a device
  changes on it.
* `Touched`: the call has read or written an LED of the device. `touched_flip_iff` and
  `touched_draw_iff` say when the two operations that may touch none do.
* `Placement.Faults`: the source of a `draw` ends the call. A source that reads a strip without a
  buffer, the one that is drawn on included, ends it with `nullLeds`.
* `Life`: a strip, whether it is alive, and how often `ws2811_init` succeeded and `ws2811_fini` was
  called.
* `StripOp.Proper`: the operation touches no LED without a buffer, reads none through a source,
  makes no driver call without a handle, and leaves each successful `init` released but the current
  one.
* `StripOp.Ready`: when an operation is proper. `each_proper_iff` says so for whole lives.
-/

namespace Ws2812

open IPaintDevice Grid

namespace WS2811Strip

/-- A call of the library that needs a valid handle: `ws2811_render`, `ws2811_wait`. With one it
leaves the buffer alone. -/
def driverCall : DevM WS2811Strip Unit := do
  let leds ← field WS2811Strip.leds
  if leds.isNone then .stop (.undefined .badHandle) else pure ()

def wait : DevM WS2811Strip Unit := driverCall

def render : DevM WS2811Strip Unit := driverCall

/-- `ws2811_fini` -/
def fini : DevM WS2811Strip Unit := do
  driverCall
  .modify fun s => { s with dev := { s.dev with leds := none } }

def uninit : DevM WS2811Strip Unit := fini

/-- `~WS2811Strip` -/
def destroy : DevM WS2811Strip Unit := fini

/-- The fields of the strip fit together, and a buffer has one cell for each LED. -/
structure Sound (s : WS2811Strip) : Prop where
  fields : s.base.Wf
  count_eq : s.count = s.base.width_ * s.base.height_
  cells : ∀ cells, s.leds = some cells → (cells.length : Int) = s.count

theorem sound_make {w h : Int} (hw : 1 ≤ w) (hh : 1 ≤ h) (hfit : w * h ≤ INT_MAX)
    (back : LedColor) : (make w h back).Sound where
  fields := IRotatablePaintDevice.make_wf hw hh hfit back
  count_eq := rfl
  cells := by simp [make]

/-- An initialised strip is a well-formed device. -/
theorem Sound.wf {s : WS2811Strip} (h : s.Sound) (hs : s.leds.isSome) : Wf s where
  fields := h.fields
  plain := trivial
  cells := by
    obtain ⟨cells, he⟩ := Option.isSome_iff_exists.mp hs
    exact ⟨cells, he, by rw [h.cells cells he, h.count_eq]; rfl⟩

theorem Sound.init {s : WS2811Strip} (h : s.Sound) (cells : Option (Nat → LedColor)) :
    (s.init cells).Sound where
  fields := by
    cases cells <;> exact h.fields
  count_eq := by
    cases cells <;> exact h.count_eq
  cells := by
    cases cells with
    | none => exact h.cells
    | some f =>
      have hpos := Int.mul_pos h.fields.width_pos h.fields.height_pos
      have hcount := h.count_eq
      intro buffer he
      obtain rfl := Option.some.inj he
      simp only [List.length_map, List.length_range, WS2811Strip.init]
      omega

/-- What no operation of a device changes on a strip, initialised or not. -/
structure Kept (d s : WS2811Strip) : Prop where
  fields : d.base.Wf → s.base.Wf
  width_eq : s.base.width_ = d.base.width_
  height_eq : s.base.height_ = d.base.height_
  count_eq : s.count = d.count
  length_eq : s.leds.map List.length = d.leds.map List.length

theorem Kept.isSome_eq {d s : WS2811Strip} (h : Kept d s) : s.leds.isSome = d.leds.isSome := by
  rw [← Option.isSome_map (f := List.length), h.length_eq, Option.isSome_map]

theorem Kept.sound {d s : WS2811Strip} (h : Kept d s) (hd : d.Sound) : s.Sound where
  fields := h.fields hd.fields
  count_eq := by rw [h.count_eq, hd.count_eq, h.width_eq, h.height_eq]
  cells := by
    intro cells he
    have hlen := h.length_eq
    rw [he] at hlen
    obtain ⟨old, hold, hlen'⟩ := Option.map_eq_some_iff.mp hlen.symm
    rw [← hlen', h.count_eq]
    exact hd.cells old hold

theorem Kept.refl (d : WS2811Strip) : Kept d d := ⟨id, rfl, rfl, rfl, rfl⟩

theorem Kept.trans {d e s : WS2811Strip} (h : Kept d e) (h' : Kept e s) : Kept d s :=
  ⟨fun hd => h'.fields (h.fields hd), h'.width_eq.trans h.width_eq, h'.height_eq.trans h.height_eq,
    h'.count_eq.trans h.count_eq, h'.length_eq.trans h.length_eq⟩

/-- Only the colours of the buffer have changed. -/
structure Repainted (d : WS2811Strip) (s : Session WS2811Strip) : Prop where
  base_eq : s.dev.base = d.base
  count_eq : s.dev.count = d.count
  length_eq : s.dev.leds.map List.length = d.leds.map List.length

theorem Repainted.kept {d : WS2811Strip} {s : Session WS2811Strip} (h : Repainted d s) :
    Kept d s.dev :=
  ⟨fun hd => h.base_eq ▸ hd, by rw [h.base_eq], by rw [h.base_eq], h.count_eq, h.length_eq⟩

/-- A write repaints, with a buffer or without. -/
theorem Repainted.stable (d : WS2811Strip) : Stable (Repainted d) where
  note _ _ hs := ⟨hs.base_eq, hs.count_eq, hs.length_eq⟩
  writeLed := by
    rintro x y c s ⟨hb, hc, hl⟩
    rcases writeLed_cases s x y c with ⟨i, href, hrun⟩ | ⟨e, -, hrun⟩
    · obtain ⟨cells, he, -⟩ := cellRef_eq_ok href
      rw [hrun]
      refine ⟨hb, hc, ?_⟩
      rw [← hl]
      show some (((leds s.dev).getD []).set i c).length = (leds s.dev).map List.length
      simp [he]
    · rw [hrun]
      exact ⟨hb, hc, hl⟩

theorem kept_after (op : DeviceOp) (d : WS2811Strip) : Kept d (op.after d) := by
  have hs : Repainted d ⟨d, []⟩ := ⟨rfl, rfl, rfl⟩
  have hst := Repainted.stable d
  cases op with
  | clear => exact Repainted.kept (hst.clear _ hs)
  | setBackground color =>
    exact ⟨fun h => ⟨h.width_pos, h.height_pos, h.area_le, h.size_eq⟩, rfl, rfl, rfl, rfl⟩
  | setTransparent transparent =>
    exact ⟨fun h => ⟨h.width_pos, h.height_pos, h.area_le, h.size_eq⟩, rfl, rfl, rfl, rfl⟩
  | write x y color => exact Repainted.kept (hst.writeLed x y color _ hs)
  | setRotate degree flipX flipY =>
    obtain ⟨hw, hh, -⟩ := IRotatablePaintDevice.setRotate_frame degree flipX flipY d.base
    exact ⟨fun h => IRotatablePaintDevice.setRotate_wf h degree flipX flipY, hw, hh, rfl, rfl⟩
  | flip flipX flipY => exact Repainted.kept (hst.flip flipX flipY _ hs)
  | draw src x y flipX flipY => exact Repainted.kept (hst.draw src x y flipX flipY _ hs)

/-- Every operation of a device keeps a strip sound, before `init` too. -/
theorem Sound.after {d : WS2811Strip} (h : d.Sound) (op : DeviceOp) : (op.after d).Sound :=
  (kept_after op d).sound h

end WS2811Strip

/-! ## Which operations touch an LED -/

section Touched

variable {D : Type}

/-- The call has read or written an LED of its device. What a source reads is not recorded here. -/
def Touched (s : Session D) : Prop := ∃ x y, .access x y ∈ s.trace

theorem Touched.push {s : Session D} (h : Touched s) (e : Event) : Touched (s.push e) := by
  obtain ⟨x, y, h⟩ := h
  exact ⟨x, y, Session.mem_push.mpr (.inr h)⟩

/-- A call that has just begun has touched nothing. -/
theorem not_touched_start (d : D) : ¬ Touched (⟨d, []⟩ : Session D) := by
  rintro ⟨x, y, he⟩
  cases he

theorem touched_push_access (s : Session D) (x y : Int) : Touched (s.push (.access x y)) :=
  ⟨x, y, Session.mem_push.mpr (.inl rfl)⟩

theorem touched_push_sum {s : Session D} {n : Int} : Touched (s.push (.sum n)) ↔ Touched s := by
  refine ⟨fun ⟨x, y, h⟩ => ?_, fun h => h.push _⟩
  rcases Session.mem_push.mp h with he | h
  · cases he
  · exact ⟨x, y, h⟩

variable [IPaintDevice D]

theorem touched_writeLed (x y : Int) (c : LedColor) (s : Session D) :
    Touched ((writeLed x y c).run s).2 := by
  rcases writeLed_cases s x y c with ⟨i, -, hrun⟩ | ⟨e, -, hrun⟩
  · rw [hrun]
    exact touched_push_access s x y
  · rw [hrun]
    exact touched_push_access s x y

theorem touched_readLed (x y : Int) (s : Session D) :
    Touched ((readLed x y : DevM D LedColor).run s).2 := touched_push_access s x y

/-- What is touched stays touched. -/
theorem Touched.stable : Stable (D := D) Touched where
  note e _ hs := hs.push e
  writeLed x y c s _ := touched_writeLed x y c s

theorem touched_clear {d : D} (hw : 0 < width d) (hh : 0 < height d) :
    Touched ((clear : DevM D Unit).run ⟨d, []⟩).2 := by
  show Touched ((forInt (height d) _).run _).2
  refine Prog.Keeps.forUpTo_first (by omega) (fun y => ?_) ?_
  · exact (Prog.Keeps.read _).bind fun _ => Prog.Keeps.forUpTo fun _ =>
      (Prog.Keeps.read _).bind fun _ => Touched.stable.writeLed _ _ _
  · show Touched ((forInt (width d) _).run _).2
    exact Prog.Keeps.forUpTo_first (by omega)
      (fun x => (Prog.Keeps.read _).bind fun _ => Touched.stable.writeLed _ _ _)
      (touched_writeLed _ _ _ _)

theorem touched_flipPixel {s : Session D} (hwf : (base s.dev).Wf) (flipX flipY : Bool) :
    Touched ((flipPixel flipX flipY 0 0 : DevM D Unit).run s).2 := by
  obtain ⟨⟨hw0, hw⟩, hh0, hh⟩ := hwf.logical_side
  have hdx : flipped flipX (width s.dev) 0 = .ok _ := flipped_ok flipX hw le_rfl hw0
  have hdy : flipped flipY (height s.dev) 0 = .ok _ := flipped_ok flipY hh le_rfl hh0
  simp only [flipPixel, field, Prog.run_read_bind, hdx, hdy, Prog.run_lift_ok_bind]
  exact Prog.Keeps.after (touched_readLed _ _ _) fun _ => (Touched.stable.readLed _ _).bind
    fun _ => (Touched.stable.writeLed _ _ _).bind fun _ => Touched.stable.writeLed _ _ _

/-- `flip` swaps the left half of each row, and a device of one column has none. -/
theorem flip_skip {d : D} (hwf : (base d).Wf) (hlt : width d < 2) (flipX flipY : Bool) :
    (flip flipX flipY : DevM D Unit).run ⟨d, []⟩ = (.ok (), ⟨d, []⟩) := by
  have hw0 : 0 < width d := hwf.logical_side.1.1
  have hhalf : (width d).tdiv 2 = width d / 2 := Int.tdiv_eq_ediv_of_nonneg hw0.le
  have hnone : ((width d).tdiv 2).toNat = 0 := by omega
  simp only [flip, field, Prog.run_read_bind]
  refine Prog.run_forUpTo_skip fun y => ?_
  simp only [Prog.run_read_bind, forInt, hnone]
  rfl

/-- `flip` touches a device that has two columns. -/
theorem touched_flip_iff {d : D} (hwf : (base d).Wf) (flipX flipY : Bool) :
    Touched ((flip flipX flipY : DevM D Unit).run ⟨d, []⟩).2 ↔ 2 ≤ width d := by
  obtain ⟨⟨hw0, -⟩, hh0, -⟩ := hwf.logical_side
  have hhalf : (width d).tdiv 2 = width d / 2 := Int.tdiv_eq_ediv_of_nonneg hw0.le
  constructor
  · intro ht
    by_contra hlt
    rw [flip_skip hwf (not_le.mp hlt)] at ht
    exact not_touched_start d ht
  · intro hle
    simp only [flip, field, Prog.run_read_bind]
    refine Prog.Keeps.forUpTo_first (Int.lt_toNat.mpr hh0) (fun y => ?_) ?_
    · exact (Prog.Keeps.read _).bind fun _ => Prog.Keeps.forUpTo fun _ =>
        Touched.stable.flipPixel _ _ _ _
    · simp only [Prog.run_read_bind]
      exact Prog.Keeps.forUpTo_first (by omega) (fun x => Touched.stable.flipPixel _ _ _ _)
        (touched_flipPixel hwf flipX flipY)

/-- The colour key hides everything that the loops read of the source before the pixel `n`. -/
def HiddenBefore (a : Placement) (r : IRotatablePaintDevice) (n : Int × Int) : Prop :=
  ∀ s, Precedes s n → a.Read r s → a.Reached r s → ∀ c, a.src.led s.1 s.2 = .ok c →
    r.transparent_ = true ∧ c = r.back

/-- The colour key hides everything that the loops read of the source. -/
def Hidden (a : Placement) (r : IRotatablePaintDevice) : Prop :=
  ∀ s, a.Read r s → a.Reached r s → ∀ c, a.src.led s.1 s.2 = .ok c →
    r.transparent_ = true ∧ c = r.back

variable {a : Placement} {r : IRotatablePaintDevice}

theorem HiddenBefore.next {n : Int × Int} (h : HiddenBefore a r n)
    (hn : a.Read r n → ∀ c, a.src.led n.1 n.2 = .ok c → r.transparent_ = true ∧ c = r.back) :
    HiddenBefore a r (n.1 + 1, n.2) := by
  intro s hs hread
  rcases precedes_succ_iff.mp hs with hs | rfl
  · exact h s hs hread
  · exact fun _ => hn hread

/-- A source that stops at a pixel ends the loops. -/
theorem HiddenBefore.of_fault {n : Int × Int} {e : Fault} (h : HiddenBefore a r n)
    (hn : a.Read r n) (hled : a.src.led n.1 n.2 = .error e) : Hidden a r := by
  intro s hread hr c hc
  rcases precedes_trichotomy s n with hs | rfl | hs
  · exact h s hs hread hr c hc
  · rw [hled] at hc
    cases hc
  · obtain ⟨c', hc'⟩ := hr n hs hn
    rw [hled] at hc'
    cases hc'

/-- The source ends the loops with `e`, at the first pixel that they read and where it faults. -/
def Placement.Faults (a : Placement) (r : IRotatablePaintDevice) (e : Fault) : Prop :=
  ∃ n, a.Read r n ∧ a.Reached r n ∧ a.src.led n.1 n.2 = .error e

theorem Placement.Faults.unique {e e' : Fault} (h : a.Faults r e) (h' : a.Faults r e') :
    e = e' := by
  obtain ⟨n, hread, hreached, hled⟩ := h
  obtain ⟨m, hread', hreached', hled'⟩ := h'
  rcases precedes_trichotomy n m with hlt | rfl | hlt
  · obtain ⟨c, hc⟩ := hreached' n hlt hread
    rw [hled] at hc
    cases hc
  · exact Except.error.inj (hled.symm.trans hled')
  · obtain ⟨c, hc⟩ := hreached m hlt hread'
    rw [hled'] at hc
    cases hc

/-- Loops that have passed the whole source have met no fault. -/
theorem Placement.Reached.not_faults (h : a.Reached r (0, (a.src.height.toNat : Int)))
    (e : Fault) : ¬ a.Faults r e := by
  rintro ⟨n, hread, -, hled⟩
  obtain ⟨c, hc⟩ := h n (precedes_end hread.1) hread
  rw [hled] at hc
  cases hc

/-- A call that nothing but its source can stop ends as the source does. -/
theorem draw_error_iff {P : Session D → Prop}
    (h : Prog.Triple P (draw a.src a.x a.y a.flipX a.flipY)
      (fun _ _ => a.Reached r (0, (a.src.height.toNat : Int))) (fun e _ => a.Faults r e))
    {s : Session D} (hs : P s) (e : Fault) :
    ((draw a.src a.x a.y a.flipX a.flipY).run s).1 = .error e ↔ a.Faults r e := by
  rcases hrun : (draw a.src a.x a.y a.flipX a.flipY).run s with ⟨e' | u, s'⟩
  · have hfault := h.error hs hrun
    constructor
    · intro he
      rwa [← Except.error.inj he]
    · intro he
      rw [he.unique hfault]
  · exact iff_of_false (by simp) ((h.ok hs hrun).not_faults e)

theorem not_touched_inv (hfit : a.Fits) (h : Hidden a r) :
    DrawInv (D := D) a r (fun sy s => (base s.dev = r ∧ ¬ Touched s) ∧ a.Reached r (0, sy))
      (fun n s => (base s.dev = r ∧ ¬ Touched s) ∧ a.Reached r n)
      (fun e s => ¬ Touched s ∧ a.Faults r e) where
  base_row h := h.1.1
  base_pix h := h.1.1
  rowOverflow hsy _ hint := absurd (hfit.row_bounds hsy).2 hint
  rowSkip _ h _ hrow := ⟨⟨h.1.1, mt touched_push_sum.mp h.1.2⟩, h.2.skipRow hrow⟩
  rowEnter _ h _ _ := ⟨⟨h.1.1, mt touched_push_sum.mp h.1.2⟩, h.2⟩
  rowLeave h := ⟨h.1, h.2.nextRow⟩
  pixOverflow hn _ _ hint := absurd (hfit.col_bounds hn.1).2 hint
  pixSkip _ h _ hcol := ⟨⟨h.1.1, mt touched_push_sum.mp h.1.2⟩,
    h.2.next fun hread => absurd hread.2.1 (not_lt.mpr hcol)⟩
  pixFault hn h hrow _ hcol hled :=
    ⟨mt touched_push_sum.mp h.1.2, _, ⟨hn, hcol, hrow⟩, h.2, hled⟩
  pixKey _ h _ hled _ := ⟨⟨h.1.1, mt touched_push_sum.mp h.1.2⟩, h.2.next fun _ => ⟨_, hled⟩⟩
  pixWrite hn hs hrow _ hcol hled hkey :=
    absurd (h _ ⟨hn, hcol, hrow⟩ hs.2 _ hled) hkey

theorem hidden_inv [LawfulPaintDevice D] (hfit : a.Fits) :
    DrawInv (D := D) a r (fun sy s => base s.dev = r ∧ (¬ Touched s → HiddenBefore a r (0, sy)))
      (fun n s => base s.dev = r ∧ (¬ Touched s → HiddenBefore a r n))
      (fun _ s => ¬ Touched s → Hidden a r) where
  base_row h := h.1
  base_pix h := h.1
  rowOverflow hsy _ hint := absurd (hfit.row_bounds hsy).2 hint
  rowSkip _ h _ hrow := ⟨h.1, fun ht s hs hread => h.2 (mt touched_push_sum.mpr ht) s
    (hs.startOfRow hread.1.1.1 (hread.row_ne hrow)) hread⟩
  rowEnter _ h _ _ := ⟨h.1, fun ht => h.2 (mt touched_push_sum.mpr ht)⟩
  rowLeave h := ⟨h.1, fun ht s hs hread => h.2 ht s (hs.endOfRow hread.1.1) hread⟩
  pixOverflow hn _ _ hint := absurd (hfit.col_bounds hn.1).2 hint
  pixSkip _ h _ hcol := ⟨h.1, fun ht => (h.2 (mt touched_push_sum.mpr ht)).next
    fun hread => absurd hread.2.1 (not_lt.mpr hcol)⟩
  pixFault hn h hrow _ hcol hled ht :=
    (h.2 (mt touched_push_sum.mpr ht)).of_fault ⟨hn, hcol, hrow⟩ hled
  pixKey _ h _ hled hkey := ⟨h.1, fun ht => (h.2 (mt touched_push_sum.mpr ht)).next
    fun _ c hc => by
      rw [hled] at hc
      cases hc
      exact hkey⟩
  pixWrite := by
    intro n s c _ h _ _ _ _ _
    have ht := touched_writeLed (a.col n.1) (a.row n.2) c (s.push (.sum (a.col n.1)))
    rcases writeLed_cases (s.push (.sum (a.col n.1))) (a.col n.1) (a.row n.2) c with
      ⟨i, -, hrun⟩ | ⟨e, -, hrun⟩
    · rw [hrun] at ht ⊢
      exact ⟨by rw [base_assign]; exact h.1, fun hno => absurd ht hno⟩
    · rw [hrun] at ht ⊢
      exact fun hno => absurd ht hno

/-- `draw` touches a device unless the colour key hides everything it reads. -/
theorem touched_draw_iff [LawfulPaintDevice D] (hfit : a.Fits) (d : D) :
    Touched ((draw a.src a.x a.y a.flipX a.flipY).run ⟨d, []⟩).2 ↔ ¬ Hidden a (base d) := by
  constructor
  · intro ht hh
    have hend := (not_touched_inv hfit hh).triple hfit.sized ⟨d, []⟩
      ⟨⟨rfl, not_touched_start d⟩, Placement.reached_zero⟩
    exact hend.state (fun _ _ h => h.1.2) (fun _ _ h => h.1) ht
  · intro hh
    by_contra ht
    have hstart : HiddenBefore a (base d) (0, 0) := fun s hs hread =>
      absurd hs (not_precedes_start hread.1)
    have hend := (hidden_inv hfit).triple hfit.sized ⟨d, []⟩ ⟨rfl, fun _ => hstart⟩
    refine hh (hend.state (P := fun s => ¬ Touched s → Hidden a (base d))
      (fun _ s h ht s' hread => ?_) (fun _ _ h => h) ht)
    exact h.2 ht s' (precedes_end hread.1) hread

/-- A `draw` that the colour key hides ends as its source does. -/
theorem Hidden.draw_error_iff {d : D} (h : Hidden a (base d)) (hfit : a.Fits) (e : Fault) :
    ((draw a.src a.x a.y a.flipX a.flipY).run (⟨d, []⟩ : Session D)).1 = .error e ↔
      a.Faults (base d) e :=
  Ws2812.draw_error_iff (((not_touched_inv hfit h).triple hfit.sized).conseq (fun _ h => h)
    (fun _ _ h => h.2) fun _ _ h => h.2) ⟨⟨rfl, not_touched_start d⟩, Placement.reached_zero⟩ e

/-- So does a `draw` on a device with a buffer. -/
theorem Wf.draw_error_iff [LawfulPaintDevice D] {d : D} (h : Wf d) (hfit : a.Fits) (e : Fault) :
    ((draw a.src a.x a.y a.flipX a.flipY).run (⟨d, []⟩ : Session D)).1 = .error e ↔
      a.Faults (base d) e :=
  Ws2812.draw_error_iff (((blitted_inv (pix d) hfit).triple hfit.sized).conseq
    (fun _ h => h) (fun _ _ h => h.2) fun _ _ ⟨n, hread, hreached, hled, _⟩ =>
      ⟨n, hread, hreached, hled⟩)
    ⟨.start ⟨h, rfl⟩ fun _ _ => rfl, Placement.reached_zero⟩ e

end Touched

/-! ## The life of a strip -/

/-- What a client does with a strip. -/
inductive StripOp where
  | device (op : DeviceOp)
  /-- `init`, with the buffer of a successful `ws2811_init`. -/
  | init (cells : Option (Nat → LedColor))
  | led (x y : Int)
  | wait
  | render
  | uninit
  | destroy

/-- A strip, whether it is alive, and the successful `ws2811_init` calls and the `ws2811_fini` calls
so far. -/
structure Life where
  strip : WS2811Strip
  alive : Bool
  inits : Nat
  finis : Nat

/-- A strip that has just been constructed. -/
def Life.start (w h : Int) (back : LedColor) : Life := ⟨.make w h back, true, 0, 0⟩

namespace StripOp

def exec : StripOp → DevM WS2811Strip Unit
  | .device op => op.exec
  | .init cells => .modify fun s => { s with dev := s.dev.init cells }
  | .led x y => do let _ ← readLed x y
  | .wait => WS2811Strip.wait
  | .render => WS2811Strip.render
  | .uninit => WS2811Strip.uninit
  | .destroy => WS2811Strip.destroy

def run (op : StripOp) (l : Life) : Except Fault Unit × Session WS2811Strip :=
  op.exec.run ⟨l.strip, []⟩

/-- The operation is an `init` that succeeds. -/
def opens : StripOp → Bool
  | .init cells => cells.isSome
  | _ => false

/-- The operation calls `ws2811_fini`. -/
def closes : StripOp → Bool
  | .uninit | .destroy => true
  | _ => false

/-- The operation passes the handle to the library. -/
def usesHandle : StripOp → Bool
  | .wait | .render | .uninit | .destroy => true
  | _ => false

def destroys : StripOp → Bool
  | .destroy => true
  | _ => false

def after (l : Life) (op : StripOp) : Life where
  strip := (op.run l).2.dev
  alive := l.alive && !op.destroys
  inits := l.inits + op.opens.toNat
  finis := l.finis + op.closes.toNat

/-- A client can perform the operation: the strip is alive and the coordinates are in range. -/
def Legal (l : Life) (op : StripOp) : Prop :=
  l.alive = true ∧ match op with
    | .device (.draw src x y flipX flipY) => Placement.Fits ⟨src, x, y, flipX, flipY⟩
    | .device (.write x y _) | .led x y => (x, y) ∈ logical l.strip
    | _ => True

end StripOp

/-- Each successful `ws2811_init` has had its `ws2811_fini`, except the one whose buffer and handle
are still valid. -/
def Life.Balanced (l : Life) : Prop := l.inits = l.finis + l.strip.leds.isSome.toNat

/-- The operation uses the library as it has to be used: it touches the LEDs of the strip only with
a buffer, no strip that it reads on the way is without one, and it passes on only a valid handle. -/
structure StripOp.Proper (l : Life) (op : StripOp) : Prop where
  leds : Touched (op.run l).2 → l.strip.leds.isSome = true
  reads : (op.run l).1 ≠ .error (.undefined .nullLeds)
  handle : op.usesHandle = true → (op.run l).1 ≠ .error (.undefined .badHandle)
  balanced : (StripOp.after l op).Balanced

/-- When an operation is proper. Most need an initialised strip; an `init` that succeeds needs one
that is not, and drawings and flips that touch no LED need nothing. The source of a drawing must not
read a strip without a buffer. -/
def StripOp.Ready (l : Life) : StripOp → Prop
  | .init cells => cells.isSome = true → l.strip.leds.isSome = false
  | .device (.setBackground _) | .device (.setTransparent _) | .device (.setRotate ..) => True
  | .device (.flip ..) => l.strip.leds.isSome = true ∨ width l.strip < 2
  | .device (.draw src x y flipX flipY) =>
    (l.strip.leds.isSome = true ∨ Hidden ⟨src, x, y, flipX, flipY⟩ l.strip.base) ∧
      ¬ Placement.Faults ⟨src, x, y, flipX, flipY⟩ l.strip.base (.undefined .nullLeds)
  | _ => l.strip.leds.isSome = true

/-- What holds of a life whose operations have been proper. -/
structure Life.Inv (l : Life) : Prop where
  sound : l.strip.Sound
  balanced : l.Balanced

namespace Life.Inv

variable {l : Life}

theorem start {w h : Int} (hw : 1 ≤ w) (hh : 1 ≤ h) (hfit : w * h ≤ INT_MAX) (back : LedColor) :
    (Life.start w h back).Inv := ⟨WS2811Strip.sound_make hw hh hfit back, rfl⟩

theorem device (h : l.Inv) (op : DeviceOp) : (StripOp.after l (.device op)).Inv := by
  have hk := WS2811Strip.kept_after op l.strip
  refine ⟨h.sound.after op, ?_⟩
  show l.inits + 0 = l.finis + 0 + (op.after l.strip).leds.isSome.toNat
  rw [hk.isSome_eq]
  exact h.balanced

end Life.Inv

/-- A driver call on a strip without a handle stops, and does nothing else. -/
theorem WS2811Strip.driverCall_run (s : Session WS2811Strip) :
    WS2811Strip.driverCall.run s =
      (if s.dev.leds.isSome = true then .ok () else .error (.undefined .badHandle), s) := by
  simp only [driverCall, field, Prog.run_read_bind, Prog.run_ite]
  cases s.dev.leds <;> rfl

theorem WS2811Strip.fini_run (s : Session WS2811Strip) :
    WS2811Strip.fini.run s =
      if s.dev.leds.isSome = true then (.ok (), { s with dev := { s.dev with leds := none } })
      else (.error (.undefined .badHandle), s) := by
  have hrun := driverCall_run s
  cases hl : s.dev.leds.isSome
  · rw [hl] at hrun
    exact Prog.run_bind_error hrun
  · rw [hl] at hrun
    exact Prog.run_bind_ok hrun

namespace StripOp

variable {l : Life}

/-- An operation that returns. -/
theorem Proper.of_ok {op : StripOp} (hok : (op.run l).1 = .ok ())
    (hleds : Touched (op.run l).2 → l.strip.leds.isSome = true)
    (hbal : (StripOp.after l op).Balanced) : Proper l op where
  leds := hleds
  reads := by simp [hok]
  handle _ := by simp [hok]
  balanced := hbal

/-- For an operation of a device that keeps the rest of the life, only the LEDs matter. -/
theorem proper_device_iff (h : l.Inv) (op : DeviceOp) :
    Proper l (.device op) ↔
      (Touched (op.exec.run ⟨l.strip, []⟩).2 → l.strip.leds.isSome = true) ∧
        op.outcome l.strip ≠ .error (.undefined .nullLeds) :=
  ⟨fun hp => ⟨hp.leds, hp.reads⟩,
    fun ht => ⟨ht.1, ht.2, by simp [usesHandle], (h.device op).balanced⟩⟩

/-- An operation that touches an LED and returns on an initialised strip. -/
theorem proper_touching_iff (h : l.Inv) {op : DeviceOp}
    (ht : Touched (op.exec.run (⟨l.strip, []⟩ : Session WS2811Strip)).2)
    (hok : l.strip.leds.isSome = true → op.outcome l.strip = .ok ()) :
    Proper l (.device op) ↔ l.strip.leds.isSome = true := by
  rw [proper_device_iff h op]
  refine ⟨fun hp => hp.1 ht, fun hs => ⟨fun _ => hs, ?_⟩⟩
  rw [hok hs]
  simp

/-- An operation that touches no LED, and reads none. -/
theorem proper_untouching (h : l.Inv) {op : DeviceOp}
    (ht : ¬ Touched (op.exec.run (⟨l.strip, []⟩ : Session WS2811Strip)).2)
    (hne : op.outcome l.strip ≠ .error (.undefined .nullLeds)) : Proper l (.device op) :=
  (proper_device_iff h op).mpr ⟨fun h => absurd h ht, hne⟩

theorem led_run (l : Life) (x y : Int) :
    (StripOp.led x y).run l = ((IPaintDevice.led l.strip x y).map fun _ => (),
      (⟨l.strip, []⟩ : Session WS2811Strip).push (.access x y)) := by
  have hrun : (readLed x y).run ⟨l.strip, []⟩ = (IPaintDevice.led l.strip x y,
      (⟨l.strip, []⟩ : Session WS2811Strip).push (.access x y)) := rfl
  show (readLed x y >>= fun _ => pure ()).run (⟨l.strip, []⟩ : Session WS2811Strip) = _
  cases hled : IPaintDevice.led l.strip x y with
  | ok c =>
    rw [Prog.run_bind_ok (by rw [hrun, hled]), Prog.run_pure]
    rfl
  | error e =>
    rw [Prog.run_bind_error (by rw [hrun, hled])]
    rfl

/-- Every operation keeps the strip sound. -/
theorem sound_after (h : l.strip.Sound) (op : StripOp) : (op.after l).strip.Sound := by
  have hfini : ((WS2811Strip.fini.run ⟨l.strip, []⟩).2.dev).Sound := by
    rw [WS2811Strip.fini_run]
    split
    · exact ⟨h.fields, h.count_eq, by simp⟩
    · exact h
  have hcall : ((WS2811Strip.driverCall.run ⟨l.strip, []⟩).2.dev).Sound := by
    rw [WS2811Strip.driverCall_run]
    exact h
  cases op with
  | device op => exact h.after op
  | init cells => exact h.init cells
  | led x y =>
    show ((StripOp.led x y).run l).2.dev.Sound
    rw [led_run]
    exact h
  | wait => exact hcall
  | render => exact hcall
  | uninit => exact hfini
  | destroy => exact hfini

/-- A call of the library is proper on an initialised strip. -/
theorem proper_call_iff (h : l.Inv) {op : StripOp} (huse : op.usesHandle = true)
    (hopen : op.opens = false)
    (hexec : op.exec = WS2811Strip.driverCall ∧ op.closes = false ∨
      op.exec = WS2811Strip.fini ∧ op.closes = true) :
    op.Proper l ↔ l.strip.leds.isSome = true := by
  have hbal := h.balanced
  have hno := not_touched_start l.strip
  unfold Life.Balanced at hbal
  constructor
  · intro hp
    by_contra hs
    refine hp.handle huse ?_
    rcases hexec with ⟨he, -⟩ | ⟨he, -⟩
    · rw [StripOp.run, he, WS2811Strip.driverCall_run, if_neg hs]
    · rw [StripOp.run, he, WS2811Strip.fini_run, if_neg hs]
  · intro hs
    rcases hexec with ⟨he, hc⟩ | ⟨he, hc⟩
    · have hrun : op.run l = (.ok (), ⟨l.strip, []⟩) := by
        rw [StripOp.run, he, WS2811Strip.driverCall_run, if_pos hs]
      refine .of_ok (congrArg Prod.fst hrun) (by rw [hrun]; exact fun ht => absurd ht hno) ?_
      simpa [Life.Balanced, StripOp.after, hrun, hopen, hc] using hbal
    · have hrun : op.run l = (.ok (), ⟨{ l.strip with leds := none }, []⟩) := by
        rw [StripOp.run, he, WS2811Strip.fini_run, if_pos hs]
      refine .of_ok (congrArg Prod.fst hrun) (fun _ => hs) ?_
      simpa [Life.Balanced, StripOp.after, hrun, hopen, hc, hs] using hbal

/-- `set_rotate` throws nothing but `invalid_argument`. -/
theorem setRotate_ne (degree : Int) (flipX flipY : Bool) (s : WS2811Strip) :
    (DeviceOp.setRotate degree flipX flipY).outcome s ≠ .error (.undefined .nullLeds) := by
  show ((IRotatablePaintDevice.setRotate degree flipX flipY).run (base s)).1 ≠ _
  unfold IRotatablePaintDevice.setRotate
  repeat' split
  all_goals simp [Prog.run, Prog.modify, Prog.stop]

/-- A drawing is proper if the LEDs that it touches are there, and those that its source reads. -/
theorem proper_draw_iff (h : l.Inv) {a : Placement} (hfit : a.Fits) :
    Proper l (.device (.draw a.src a.x a.y a.flipX a.flipY)) ↔
      (l.strip.leds.isSome = true ∨ Hidden a l.strip.base) ∧
        ¬ a.Faults l.strip.base (.undefined .nullLeds) := by
  have ht : (Touched ((draw a.src a.x a.y a.flipX a.flipY).run ⟨l.strip, []⟩).2 →
      l.strip.leds.isSome = true) ↔ (l.strip.leds.isSome = true ∨ Hidden a l.strip.base) := by
    rw [touched_draw_iff hfit l.strip, imp_iff_or_not, not_not]
    exact Iff.rfl
  rw [proper_device_iff h]
  refine (and_congr_left' ht).trans (and_congr_right fun hready => not_congr ?_)
  rcases hready with hs | hhidden
  · exact (h.sound.wf hs).draw_error_iff hfit _
  · exact Hidden.draw_error_iff (d := l.strip) hhidden hfit _

/-- An operation of a device is proper if the LEDs that it needs are there. -/
theorem proper_drawing_iff (h : l.Inv) {op : DeviceOp} (hl : (device op).Legal l) :
    Proper l (.device op) ↔ Ready l (.device op) := by
  have hno := not_touched_start l.strip
  obtain ⟨⟨hw, -⟩, hh, -⟩ := h.sound.fields.logical_side
  cases op with
  | clear =>
    refine proper_touching_iff h (touched_clear hw hh) fun hs => ?_
    obtain ⟨d', t', hrun, -⟩ := clear_run (h.sound.wf hs)
    exact (DeviceOp.clear.outcome_after hrun).1
  | setBackground color => exact iff_of_true (proper_untouching h hno nofun) trivial
  | setTransparent transparent => exact iff_of_true (proper_untouching h hno nofun) trivial
  | write x y color =>
    refine proper_touching_iff h (touched_writeLed x y color _) fun hs => ?_
    obtain ⟨d', hrun, -⟩ := Wf.writeLed_run (s := (⟨l.strip, []⟩ : Session WS2811Strip))
      (h.sound.wf hs) hl.2 color
    exact ((DeviceOp.write x y color).outcome_after hrun).1
  | setRotate degree flipX flipY =>
    exact iff_of_true (proper_untouching h hno (setRotate_ne degree flipX flipY _)) trivial
  | flip flipX flipY =>
    show _ ↔ _ ∨ width l.strip < 2
    by_cases hlt : width l.strip < 2
    · have hrun := flip_skip h.sound.fields (d := l.strip) hlt flipX flipY
      have houtcome := ((DeviceOp.flip flipX flipY).outcome_after hrun).1
      refine iff_of_true (proper_untouching h ?_ ?_) (.inr hlt)
      · show ¬ Touched ((flip flipX flipY).run _).2
        rwa [hrun]
      · rw [houtcome]
        simp
    · rw [or_iff_left hlt]
      refine proper_touching_iff h ((touched_flip_iff h.sound.fields (d := l.strip) flipX flipY).mpr
        (not_lt.mp hlt)) fun hs => ?_
      obtain ⟨d', t', hrun, -⟩ := flip_run (h.sound.wf hs) flipX flipY
      exact ((DeviceOp.flip flipX flipY).outcome_after hrun).1
  | draw src x y flipX flipY =>
    exact proper_draw_iff h (a := ⟨src, x, y, flipX, flipY⟩) hl.2

/-- An `init` that succeeds is proper on a strip without a buffer, and leaks the one that it has.
One that fails changes nothing. -/
theorem proper_init_iff (h : l.Inv) (cells : Option (Nat → LedColor)) :
    Proper l (.init cells) ↔ Ready l (.init cells) := by
  have hbal := h.balanced
  have hno := not_touched_start (l.strip.init cells)
  unfold Life.Balanced at hbal
  cases cells with
  | none => exact iff_of_true (.of_ok rfl (fun ht => absurd ht hno) hbal) nofun
  | some f =>
    constructor
    · intro hp _
      have hafter : l.inits + 1 = l.finis + 0 + 1 := hp.balanced
      cases hs : l.strip.leds.isSome
      · rfl
      · rw [hs, Bool.toNat_true] at hbal
        omega
    · intro hr
      refine .of_ok rfl (fun ht => absurd ht hno) ?_
      show l.inits + 1 = l.finis + 0 + 1
      rw [hr rfl, Bool.toNat_false] at hbal
      omega

theorem proper_led_iff (h : l.Inv) {x y : Int} (hl : (StripOp.led x y).Legal l) :
    Proper l (.led x y) ↔ Ready l (.led x y) := by
  constructor
  · intro hp
    refine hp.leds ?_
    rw [led_run]
    exact touched_push_access _ x y
  · intro hs
    refine .of_ok ?_ (fun _ => hs) ?_
    · rw [led_run, (h.sound.wf hs).led_ok hl.2]
      rfl
    · show l.inits + 0 = l.finis + 0 + ((StripOp.led x y).run l).2.dev.leds.isSome.toNat
      rw [led_run]
      exact h.balanced

/-- **One step.** A legal operation is proper exactly when it is ready. -/
theorem proper_iff_ready (h : l.Inv) {op : StripOp} (hl : op.Legal l) :
    op.Proper l ↔ op.Ready l := by
  cases op with
  | device op => exact proper_drawing_iff h hl
  | init cells => exact proper_init_iff h cells
  | led x y => exact proper_led_iff h hl
  | wait => exact proper_call_iff h rfl rfl (.inl ⟨rfl, rfl⟩)
  | render => exact proper_call_iff h rfl rfl (.inl ⟨rfl, rfl⟩)
  | uninit => exact proper_call_iff h rfl rfl (.inr ⟨rfl, rfl⟩)
  | destroy => exact proper_call_iff h rfl rfl (.inr ⟨rfl, rfl⟩)

/-- A ready operation keeps the invariant. -/
theorem inv_after (h : l.Inv) {op : StripOp} (hl : op.Legal l) (hr : op.Ready l) :
    (op.after l).Inv :=
  ⟨sound_after h.sound op, ((proper_iff_ready h hl).mpr hr).balanced⟩

end StripOp

/-- After a life of ready operations every successful `ws2811_init` has had its `ws2811_fini`, but
for one whose buffer and handle are still valid. -/
theorem balanced_of_ready {w h : Int} (hw : 1 ≤ w) (hh : 1 ≤ h) (hfit : w * h ≤ INT_MAX)
    (back : LedColor) {ops : List StripOp}
    (hl : Run.Each StripOp.after StripOp.Legal (Life.start w h back) ops)
    (hr : Run.Each StripOp.after StripOp.Ready (Life.start w h back) ops) :
    (ops.foldl StripOp.after (Life.start w h back)).Balanced :=
  (Run.Each.inv (I := Life.Inv) (fun _ _ hi ha hr => StripOp.inv_after hi ha hr)
    (.start hw hh hfit back) hl hr).balanced

/-- **Driver lifecycle.** In every life of a strip with any outcome of each `init`, all operations
are proper exactly when all of them are ready. -/
theorem each_proper_iff {w h : Int} (hw : 1 ≤ w) (hh : 1 ≤ h) (hfit : w * h ≤ INT_MAX)
    (back : LedColor) (ops : List StripOp)
    (hl : Run.Each StripOp.after StripOp.Legal (Life.start w h back) ops) :
    Run.Each StripOp.after StripOp.Proper (Life.start w h back) ops ↔
      Run.Each StripOp.after StripOp.Ready (Life.start w h back) ops :=
  Run.each_iff (I := Life.Inv) (fun _ _ hi ha => StripOp.proper_iff_ready hi ha)
    (fun _ _ hi ha hr => StripOp.inv_after hi ha hr) (.start hw hh hfit back) hl

/-- A strip whose first `init` fails, and that is then initialised, painted, initialised in vain,
released, initialised again, rendered and destroyed. -/
theorem each_proper_iff_twice :
    Run.Each StripOp.after StripOp.Proper (Life.start 2 3 Led.black)
      [.init none, .init (some fun _ => Led.black), .device (.write 1 2 Led.red), .init none,
        .uninit, .init (some fun _ => Led.black), .render, .destroy] := by
  refine (each_proper_iff (by decide) (by decide) (by decide) Led.black _ ?_).mpr ?_
  · exact ⟨⟨rfl, trivial⟩, ⟨rfl, trivial⟩, ⟨rfl, by decide⟩, ⟨rfl, trivial⟩, ⟨rfl, trivial⟩,
      ⟨rfl, trivial⟩, ⟨rfl, trivial⟩, ⟨rfl, trivial⟩, trivial⟩
  · exact ⟨nofun, fun _ => rfl, rfl, nofun, rfl, fun _ => rfl, rfl, rfl, trivial⟩

/-- A strip whose `init` fails and that `main` then renders and the client paints, one that is
released by hand and destroyed, and one that is drawn on itself before `init`. -/
theorem not_each_proper :
    ¬ Run.Each StripOp.after StripOp.Proper (Life.start 2 3 Led.black) [.init none, .render] ∧
    ¬ Run.Each StripOp.after StripOp.Proper (Life.start 2 3 Led.black)
      [.init none, .device (.write 1 2 Led.red)] ∧
    ¬ Run.Each StripOp.after StripOp.Proper (Life.start 2 3 Led.black)
      [.init (some fun _ => Led.black), .uninit, .destroy] ∧
    ¬ Run.Each StripOp.after StripOp.Proper (Life.start 2 3 Led.black)
      [.device (.draw ⟨2, 3, led (WS2811Strip.make 2 3 Led.black)⟩ 0 0 false false)] := by
  refine ⟨fun h => ?_, fun h => ?_, fun h => ?_, fun h => ?_⟩
  · exact h.2.1.handle rfl rfl
  · exact absurd (h.2.1.leds (touched_writeLed 1 2 Led.red _)) (by decide)
  · exact h.2.2.1.handle rfl rfl
  · exact h.1.reads rfl

end Ws2812
