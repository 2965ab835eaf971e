import Ws2812Strip.WindowOps
import Ws2812Strip.SceneRead

/-!
# Painting on the windows of a scene

A client paints on a window while others show it. `Scene.paint` is an operation of `Devices` on one
window of a scene. It writes the fields and the canvas of that window, and reads the windows below
it if it is a `flip`.

* `Scene.Calls`: the reads of other windows that a read of a window may lead to. `paints_unchanged`:
  operations that touch none of the points that a pixel is read from leave that pixel alone.
-/

namespace Ws2812

open IPaintDevice Grid Overlay Relation

namespace Scene

/-- The window `w` as the device of an operation: its canvas, and its children with what is below
them down to a depth. Where going down ends, no child shows `w` itself, so the children stay as they
are while the operation writes to `w`. -/
def device (images : Nat → Image) (order : Order) (s : Scene) (depth w : Nat) (o : WindowObject) :
    Window :=
  ⟨o.base, o.leds_, (order w).map fun e =>
    WindowTree.child (pointee images (s.unfold images order depth) e.1, e.2.x, e.2.y)⟩

/-- An operation on the window `w`. -/
def paint (images : Nat → Image) (order : Order) (depth w : Nat) (op : DeviceOp) (s : Scene) :
    Scene :=
  s.update w fun o => { o with
    base := (op.after (s.device images order depth w o)).base
    leds_ := (op.after (s.device images order depth w o)).leds_ }

/-- The canvases have a cell for each LED. -/
def Canvases (s : Scene) : Prop :=
  ∀ w o, s.windows w = some o → Wf (⟨o.base, o.leds_, []⟩ : Window)

variable {images : Nat → Image} {order : Order} {depth w v : Nat} {op : DeviceOp} {s : Scene}
  {o : WindowObject}

theorem unfold_succ (images : Nat → Image) (order : Order) (depth : Nat)
    (h : s.windows w = some o) :
    (s.unfold images order (depth + 1) w).source =
      (s.device images order depth w o).source := by
  rw [unfold, h]
  dsimp only
  rw [WindowTree.source_window, List.map_map]
  rfl

/-! ## Linking does not touch the canvases -/

theorem keeps_deref (w : Nat) : Prog.Keeps Canvases (deref w) := by
  intro s hs
  show (deref w s).2.Canvases
  unfold deref
  cases s.windows w <;> exact hs

/-- A write of pointers. -/
theorem keeps_modifyAt (w : Nat) {f : WindowObject → WindowObject}
    (hf : ∀ o, (f o).base = o.base ∧ (f o).leds_ = o.leds_) :
    Prog.Keeps Canvases (modifyAt w f) := by
  refine (keeps_deref w).bind fun _ s hs v o' ho' => ?_
  simp only [Prog.run_modify, update, Function.update_apply] at ho'
  split at ho'
  · rename_i hv
    subst hv
    obtain ⟨o, ho, rfl⟩ := Option.map_eq_some_iff.mp ho'
    rw [(hf o).1, (hf o).2]
    exact hs v o ho
  · exact hs v o' ho'

theorem keeps_put (p : Nat) (k : Ptr) (pos : PaintSourcePos) : Prog.Keeps Canvases (put p k pos) :=
  keeps_modifyAt p fun _ => ⟨rfl, rfl⟩

theorem keeps_erase (p : Nat) (k : Ptr) : Prog.Keeps Canvases (erase p k) :=
  keeps_modifyAt p fun _ => ⟨rfl, rfl⟩

theorem keeps_setParent (c : Nat) (p : Option Nat) : Prog.Keeps Canvases (setParent c p) :=
  keeps_modifyAt c fun _ => ⟨rfl, rfl⟩

theorem keeps_remove (p : Nat) (child : Ptr) : Prog.Keeps Canvases (remove p child) := by
  refine (keeps_erase p child).bind fun _ => ?_
  cases child with
  | window c => exact keeps_setParent c none
  | image i => exact Prog.Keeps.pure ()

theorem keeps_add (p : Nat) (child : Ptr) (x y : Int) : Prog.Keeps Canvases (add p child x y) := by
  refine (keeps_put p child ⟨x, y⟩).bind fun _ => ?_
  cases child with
  | window c =>
    refine (keeps_deref c).bind fun o => ?_
    cases o.parent_ with
    | some q => exact (keeps_remove q _).bind fun _ => keeps_setParent c _
    | none => exact (Prog.Keeps.pure ()).bind fun _ => keeps_setParent c _
  | image i => exact Prog.Keeps.pure ()

theorem keeps_move (c : Nat) (x y : Int) : Prog.Keeps Canvases (move c x y) := by
  refine (keeps_deref c).bind fun o => ?_
  cases o.parent_ with
  | some p => exact keeps_put p _ _
  | none => exact Prog.Keeps.pure ()

theorem keeps_destroy (w : Nat) : Prog.Keeps Canvases (destroy w) := by
  have hfree : Prog.Keeps Canvases
      (Prog.modify fun s => ⟨Function.update s.windows w none⟩ : SceneM Unit) := by
    intro s hs v o ho
    simp only [Prog.run_modify, Function.update_apply] at ho
    split at ho
    · cases ho
    · exact hs v o ho
  refine (keeps_deref w).bind fun o => ?_
  cases o.parent_ with
  | some p => exact (keeps_remove p _).bind fun _ => hfree
  | none => exact (Prog.Keeps.pure ()).bind fun _ => hfree

/-- A new window brings a canvas of its size. -/
theorem keeps_construct (c : Nat) {w h : Int} (hw : 1 ≤ w) (hh : 1 ≤ h) (hfit : w * h ≤ INT_MAX)
    (parent : Option Nat) (x y : Int) : Prog.Keeps Canvases (construct c w h parent x y) := by
  refine Prog.Keeps.bind (fun s hs v o ho => ?_) fun _ => ?_
  · simp only [Prog.run_modify, Function.update_apply] at ho
    split at ho
    · cases ho
      exact LawfulPaintDevice.fresh_wf (Window.fresh_make hw hh hfit)
    · exact hs v o ho
  · cases parent with
    | some p => exact keeps_add p _ x y
    | none => exact Prog.Keeps.pure ()

/-! ## What painting changes -/

/-- A window that an operation ran on has the fields and the canvas that the operation left. -/
theorem paint_windows_self (h : s.windows w = some o) :
    (s.paint images order depth w op).windows w = some { o with
      base := (op.after (s.device images order depth w o)).base
      leds_ := (op.after (s.device images order depth w o)).leds_ } := by
  simp [paint, update, h]

theorem paint_windows_of_ne (h : v ≠ w) :
    (s.paint images order depth w op).windows v = s.windows v := by
  simp [paint, update, h]

/-- No pointer changes. -/
theorem paint_links (images : Nat → Image) (order : Order) (depth w : Nat) (op : DeviceOp)
    (s : Scene) : (s.paint images order depth w op).links = s.links := by
  unfold paint update
  rw [links_set]
  refine Links.ext (funext fun v => ?_) (funext fun d => ?_) (funext fun q => funext fun k => ?_)
  · by_cases h : v = w <;> simp [links, h]
  · by_cases h : d = w <;> cases hw : s.windows w <;> simp [links, h, hw]
  · by_cases h : q = w <;> cases hw : s.windows w <;> simp [links, h, hw]

theorem Canvases.paint (h : s.Canvases) (images : Nat → Image) (order : Order) (depth w : Nat)
    (op : DeviceOp) : (s.paint images order depth w op).Canvases := by
  intro v o' ho'
  by_cases hv : v = w
  · subst hv
    cases ho : s.windows v with
    | none => simp [Scene.paint, update, ho] at ho'
    | some o =>
      rw [paint_windows_self ho, Option.some.injEq] at ho'
      subst ho'
      exact Window.wf_after (w := s.device images order depth v o) op (h v o ho)
  · rw [paint_windows_of_ne hv] at ho'
    exact h v o' ho'

/-- The orders in which the children can be visited do not change. -/
theorem Visits.paint (h : s.Visits order) (images : Nat → Image) (order' : Order) (depth w : Nat)
    (op : DeviceOp) : (s.paint images order' depth w op).Visits order := by
  intro v o' ho'
  by_cases hv : v = w
  · subst hv
    cases ho : s.windows v with
    | none => simp [Scene.paint, update, ho] at ho'
    | some o =>
      rw [paint_windows_self ho, Option.some.injEq] at ho'
      subst ho'
      exact h v o ho
  · rw [paint_windows_of_ne hv] at ho'
    exact h v o' ho'

/-- The size of a window, if it is alive. -/
def size (s : Scene) (w : Nat) : Option (Int × Int) :=
  (s.windows w).map fun o => (o.base.width, o.base.height)

/-- Only a rotation changes a size. -/
theorem paint_size (h : s.Canvases)
    (hop : ∀ degree flipX flipY, op ≠ .setRotate degree flipX flipY) (v : Nat) :
    (s.paint images order depth w op).size v = s.size v := by
  unfold size
  by_cases hv : v = w
  · subst hv
    cases ho : s.windows v with
    | none => simp [Scene.paint, update, ho]
    | some o =>
      obtain ⟨hwidth, hheight⟩ :=
        Window.size_after (w := s.device images order depth v o) hop (h v o ho)
      rw [paint_windows_self ho, Option.map_some, Option.map_some]
      exact congrArg some (Prod.ext hwidth hheight)
  · rw [paint_windows_of_ne hv]

/-! ## Pixels that an operation leaves alone -/

/-- A read of the window `a.1` at the point `a.2` may read the window `b.1` at the point `b.2`: the
window `b.1` is a child, and `b.2` is the point as one of its own. -/
def Calls (s : Scene) (a b : Nat × Int × Int) : Prop :=
  ∃ pos n, s.links.entry a.1 (.window b.1) = some pos ∧ s.size b.1 = some n ∧
    b.2 = (a.2.1 - pos.x, a.2.2 - pos.y) ∧ b.2 ∈ rect n.1 n.2

theorem paint_calls (h : s.Canvases)
    (hop : ∀ degree flipX flipY, op ≠ .setRotate degree flipX flipY) :
    (s.paint images order depth w op).Calls = s.Calls := by
  funext a b
  unfold Calls
  simp only [paint_links, paint_size h hop]

/-- The size of the tree of a window. -/
theorem unfold_width (images : Nat → Image) (order : Order) (s : Scene) (depth c : Nat) :
    (s.unfold images order depth c).source.width = ((s.size c).map Prod.fst).getD 0 ∧
      (s.unfold images order depth c).source.height = ((s.size c).map Prod.snd).getD 0 := by
  unfold size
  cases ho : s.windows c with
  | none =>
    cases depth with
    | zero =>
      rw [unfold, WindowTree.source_image, ho]
      exact ⟨rfl, rfl⟩
    | succ depth =>
      rw [unfold, ho]
      dsimp only
      rw [WindowTree.source_image]
      exact ⟨rfl, rfl⟩
  | some o => exact unfold_size images order ho depth

/-- A point of the tree of a child is one that a read of the window may go to. -/
theorem calls_of_inside {c : Nat} {pos : PaintSourcePos} {p : Int × Int}
    (hentry : s.links.entry v (.window c) = some pos)
    (hin : (s.unfold images order depth c).source.Inside (p.1 - pos.x) (p.2 - pos.y)) :
    s.Calls (v, p) (c, p.1 - pos.x, p.2 - pos.y) := by
  obtain ⟨hwidth, hheight⟩ := unfold_width images order s depth c
  unfold PaintSource.Inside at hin
  rw [hwidth, hheight] at hin
  cases hn : s.size c with
  | none =>
    rw [hn] at hin
    simp only [Option.map_none, Option.getD_none] at hin
    omega
  | some n =>
    rw [hn] at hin
    exact ⟨pos, n, hentry, hn, rfl, hin⟩

/-- What one sees of a window depends only on its own canvas and on the points that are read of its
children. -/
theorem led_congr {s s' : Scene} {order : Order} {v : Nat} {o o' : WindowObject}
    (ho : s.windows v = some o) (ho' : s'.windows v = some o') (hbase : o'.base = o.base)
    {p : Int × Int} {depth : Nat}
    (hcanvas : Window.canvas ⟨o'.base, o'.leds_, []⟩ p = Window.canvas ⟨o.base, o.leds_, []⟩ p)
    (hsize : ∀ c, s'.size c = s.size c) (horder : s.Visits order)
    (hchild : ∀ b, s.Calls (v, p) b → s'.led images order depth b.1 b.2.1 b.2.2 =
      s.led images order depth b.1 b.2.1 b.2.2) :
    s'.led images order (depth + 1) v p.1 p.2 = s.led images order (depth + 1) v p.1 p.2 := by
  have hlayers : List.Forall₂
      (fun c d => WindowTree.layer o.base c p = WindowTree.layer o.base d p)
      ((order v).map fun e =>
        (pointee images (s'.unfold images order depth) e.1, e.2.x, e.2.y))
      ((order v).map fun e =>
        (pointee images (s.unfold images order depth) e.1, e.2.x, e.2.y)) := by
    rw [List.forall₂_map_left_iff, List.forall₂_map_right_iff, List.forall₂_same]
    rintro ⟨k, pos⟩ he
    cases k with
    | image i => rfl
    | window c =>
      obtain ⟨hwidth, hheight⟩ := unfold_width images order s depth c
      obtain ⟨hwidth', hheight'⟩ := unfold_width images order s' depth c
      rw [hsize] at hwidth' hheight'
      exact Child.layer_congr_at rfl rfl (hwidth'.trans hwidth.symm) (hheight'.trans hheight.symm)
        fun hin => hchild _ (calls_of_inside (horder.entry ho he) hin)
  unfold led
  rw [unfold, unfold, ho, ho']
  dsimp only
  rw [WindowTree.led_window, WindowTree.led_window, hbase]
  rw [hbase] at hcanvas
  rw [look_forall₂ hlayers]
  unfold look
  rw [hcanvas]

/-- A point of the window `a.1`. -/
def HasPixel (s : Scene) (a : Nat × Int × Int) : Prop :=
  ∃ o, s.windows a.1 = some o ∧ a.2 ∈ o.base.logical

theorem hasPixel_iff {a : Nat × Int × Int} :
    s.HasPixel a ↔ ∃ n, s.size a.1 = some n ∧ a.2 ∈ rect n.1 n.2 := by
  simp [HasPixel, size, IRotatablePaintDevice.logical]

/-- No read of the pixel `a` goes to a point of the window `w` that the operation touches. -/
def Clear (s : Scene) (a : Nat × Int × Int) (w : Nat) (op : DeviceOp) : Prop :=
  ∀ q, ReflTransGen s.Calls a (w, q) → ¬ op.Touches q

/-- An operation on a live window with arguments that `DeviceOp.Admissible` allows. -/
def Paints (s : Scene) (a : Nat × DeviceOp) : Prop :=
  ∃ o, s.windows a.1 = some o ∧ a.2.Admissible o.base

/-- An operation leaves a pixel alone that is not read from a point that it touches. -/
theorem paint_unchanged (hs : s.Canvases) (horder : s.Visits order) (hop : s.Paints (w, op))
    (hrot : ∀ degree flipX flipY, op ≠ .setRotate degree flipX flipY) (deep : Nat)
    {a : Nat × Int × Int} (ha : s.HasPixel a) (hclear : s.Clear a w op) :
    (s.paint images order depth w op).led images order deep a.1 a.2.1 a.2.2 =
      s.led images order deep a.1 a.2.1 a.2.2 := by
  induction deep generalizing a with
  | zero =>
    unfold led
    rw [unfold, unfold, WindowTree.source_image, WindowTree.source_image]
  | succ deep ih =>
    obtain ⟨ov, hov, hp⟩ := ha
    have hchild : ∀ b, s.Calls a b →
        (s.paint images order depth w op).led images order deep b.1 b.2.1 b.2.2 =
          s.led images order deep b.1 b.2.1 b.2.2 := by
      rintro b hb
      obtain ⟨pos, n, -, hn, -, hmem⟩ := id hb
      exact ih (hasPixel_iff.mpr ⟨n, hn, hmem⟩) fun q hq => hclear q (hq.head hb)
    by_cases hv : a.1 = w
    · -- the window that the operation runs on: its fields and this cell of its canvas are kept
      subst hv
      obtain ⟨o, ho, hadm⟩ := hop
      cases hov.symm.trans ho
      obtain ⟨hbase, hcanvas⟩ := DeviceOp.canvas_after (w := s.device images order depth a.1 ov)
        (hs a.1 ov hov) hadm hp (hclear a.2 .refl)
      exact led_congr hov (paint_windows_self hov) hbase hcanvas (paint_size hs hrot) horder hchild
    · exact led_congr hov ((paint_windows_of_ne hv).trans hov) rfl rfl (paint_size hs hrot) horder
        hchild

/-- An operation of a run. -/
def painted (images : Nat → Image) (order : Order) (depth : Nat) (s : Scene)
    (a : Nat × DeviceOp) : Scene := s.paint images order depth a.1 a.2

/-- **Painting elsewhere.** In a run of operations on the windows of a scene, none of them a
rotation and each with admissible arguments, a pixel of any window that is read from no point that
an operation of the run touches shows at the end what it showed at the start. -/
theorem paints_unchanged (hs : s.Canvases) (horder : s.Visits order)
    {ops : List (Nat × DeviceOp)} (hops : Run.Each (painted images order depth) Paints s ops)
    (hrot : ∀ a ∈ ops, ∀ degree flipX flipY, a.2 ≠ .setRotate degree flipX flipY)
    {v : Nat} {x y : Int} (hp : s.HasPixel (v, x, y))
    (hclear : ∀ a ∈ ops, s.Clear (v, x, y) a.1 a.2) (deep : Nat) :
    (ops.foldl (painted images order depth) s).led images order deep v x y =
      s.led images order deep v x y := by
  induction ops generalizing s with
  | nil => rfl
  | cons a ops ih =>
    obtain ⟨ha, hrest⟩ := hops
    obtain ⟨hrota, hrot⟩ := List.forall_mem_cons.mp hrot
    obtain ⟨hcleara, hclear⟩ := List.forall_mem_cons.mp hclear
    have hcalls : (s.paint images order depth a.1 a.2).Calls = s.Calls := paint_calls hs hrota
    have hpixel : (s.painted images order depth a).HasPixel (v, x, y) := by
      rw [hasPixel_iff] at hp ⊢
      unfold painted
      simpa only [paint_size hs hrota] using hp
    have hstep : (s.painted images order depth a).led images order deep v x y =
        s.led images order deep v x y := paint_unchanged hs horder ha hrota deep hp hcleara
    refine (ih (hs.paint images order depth a.1 a.2) (horder.paint images order depth a.1 a.2) hrest
      hrot hpixel fun b hb => ?_).trans hstep
    unfold Clear
    rw [hcalls]
    exact hclear b hb

/-- A window of 4 × 4 with one of 2 × 2 in it. -/
def nested : Scene :=
  ((Scene.mk fun _ => none).step (.construct 0 4 4 none 0 0)).step (.construct 1 2 2 (some 0) 1 1)

def nestedOrder : Order := fun w => if w = 0 then [⟨.window 1, ⟨1, 1⟩⟩] else []

def dot : Image := ⟨⟨1, 1, (Pixmap.make 1 1 Led.red).led⟩, ends_cellLed _ _⟩

theorem nested_visits : nested.Visits nestedOrder := by
  intro w o ho
  match w with
  | 0 => cases ho; decide
  | 1 => cases ho; decide
  | w + 2 => cases ho

theorem nested_entry {p : Nat} {k : Ptr} {pos : PaintSourcePos}
    (h : nested.links.entry p k = some pos) : p = 0 ∧ k = .window 1 ∧ pos = ⟨1, 1⟩ := by
  match p with
  | 0 =>
    have hmem : (⟨k, pos⟩ : Σ _ : Ptr, PaintSourcePos) ∈ nestedOrder 0 := by
      rw [← Multiset.mem_coe, nested_visits 0 _ rfl]
      exact Finmap.mem_lookup_iff.mp h
    cases List.mem_singleton.mp hmem
    exact ⟨rfl, rfl, rfl⟩
  | 1 => cases h
  | p + 2 => cases h

/-- A write to the corner of the inner window and a dot beside it leave the pixel alone that shows
the opposite corner. -/
theorem paints_unchanged_nested :
    ([(1, .write 0 0 Led.red), (0, .draw (.solid 1 1 Led.green) 3 0 false false)].foldl
      (painted (fun _ => dot) nestedOrder 0) nested).led (fun _ => dot) nestedOrder 2 0 2 2 =
      nested.led (fun _ => dot) nestedOrder 2 0 2 2 := by
  have hcanvas : nested.Canvases :=
    keeps_construct 1 (by decide) (by decide) (by decide) _ _ _ _
      (keeps_construct 0 (by decide) (by decide) (by decide) _ _ _ _ fun w o ho => by cases ho)
  -- what is read at `(2, 2)` is that pixel and the far corner of the inner window
  have hreads : ∀ b, ReflTransGen nested.Calls (0, 2, 2) b → b = (0, 2, 2) ∨ b = (1, 1, 1) := by
    intro b hb
    induction hb with
    | refl => exact .inl rfl
    | tail _ hcall ih =>
      obtain ⟨pos, n, hentry, -, hq, -⟩ := hcall
      obtain ⟨h0, h1, rfl⟩ := nested_entry hentry
      rcases ih with rfl | rfl
      · exact .inr (Prod.ext (Ptr.window.inj h1) hq)
      · cases h0
  have hpaints : Run.Each (painted (fun _ => dot) nestedOrder 0) Paints nested
      [(1, .write 0 0 Led.red), (0, .draw (.solid 1 1 Led.green) 3 0 false false)] :=
    ⟨⟨_, rfl, ⟨by decide, by decide⟩, by decide, by decide⟩,
      ⟨_, rfl, by decide, by decide, by decide, by decide⟩, trivial⟩
  refine paints_unchanged hcanvas nested_visits hpaints ?_ ⟨_, rfl, by decide⟩ ?_ 2
  · simp
  · refine List.forall_mem_cons.mpr ⟨fun q hq => ?_, List.forall_mem_singleton.mpr fun q hq => ?_⟩
    · rcases hreads _ hq with h | h
      · cases h
      · cases h
        show ¬ ((1, 1) : Int × Int) = (0, 0)
        decide
    · rcases hreads _ hq with h | h
      · cases h
        show ¬ Placement.rectangle ⟨.solid 1 1 Led.green, 3, 0, false, false⟩ (2, 2)
        decide
      · cases h

end Scene

end Ws2812
