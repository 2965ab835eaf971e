import Ws2812Strip.Composition

/-!
# Window trees

A window with everything below it. `children_` is an `unordered_map` keyed by address, so the order
in which `Window::led` visits the children of a window is arbitrary and may differ from run to
run.

* `WindowTree`: the tree, with each list of children in the order in which it is visited.
* `Reorder t t'`: the same tree visited in other orders, at any window of it.
* `Agree t`: at every point of every window of the tree, the children that show there show the
  same. That is exactly when the orders do not matter anywhere (`orderFree_iff`). Windows have no
  stacking order, so children that overlap need not agree.
* `Separate t`: the children of each window do not overlap, and then they agree
  (`Separate.orderFree`).
-/

namespace Ws2812

open IPaintDevice Grid Overlay

/-- A window as an `IPaintSource`. -/
def Window.source (w : Window) : PaintSource := ⟨width w, height w, w.led⟩

/-- An image, or a window with its children and their positions. -/
inductive WindowTree where
  | image (source : PaintSource)
  | window (base : IRotatablePaintDevice) (leds_ : List LedColor)
      (children_ : List (WindowTree × Int × Int))

namespace WindowTree

theorem sizeOf_child_lt {c : WindowTree × Int × Int} {children_ : List (WindowTree × Int × Int)}
    (h : c ∈ children_) : sizeOf c.1 < sizeOf children_ := by
  have hmem := List.sizeOf_lt_of_mem h
  have hpair : sizeOf c = 1 + sizeOf c.1 + sizeOf c.2 := rfl
  omega

/-- The tree as an `IPaintSource`. -/
def source : WindowTree → PaintSource
  | .image source => source
  | .window base leds_ children_ =>
    Window.source ⟨base, leds_, children_.map fun c => ⟨c.1.source, c.2.1, c.2.2⟩⟩
termination_by t => t
decreasing_by
  rename_i h
  have := sizeOf_child_lt h
  simp only [WindowTree.window.sizeOf_spec]
  omega

/-- A tree at a position as a child of a window. -/
def child (c : WindowTree × Int × Int) : Child := ⟨c.1.source, c.2.1, c.2.2⟩

/-- What the child shows at a point of a window with the fields `base`. -/
def layer (base : IRotatablePaintDevice) (c : WindowTree × Int × Int) :
    Int × Int → Option (Except Fault LedColor) := (child c).layer base

theorem source_image (source : PaintSource) : (image source).source = source := by
  rw [WindowTree.source]

theorem source_window (base : IRotatablePaintDevice) (leds_ : List LedColor)
    (children_ : List (WindowTree × Int × Int)) :
    (window base leds_ children_).source = Window.source ⟨base, leds_, children_.map child⟩ := by
  rw [WindowTree.source]
  rfl

/-- A window of a tree is its canvas seen through its children. -/
theorem led_window (base : IRotatablePaintDevice) (leds_ : List LedColor)
    (children_ : List (WindowTree × Int × Int)) (x y : Int) :
    (window base leds_ children_).source.led x y =
      look (layer base) children_ (Window.canvas ⟨base, leds_, []⟩) (x, y) := by
  rw [source_window]
  refine (Window.led_eq_look _ x y).trans ?_
  unfold look
  rw [List.findSome?_map]
  rfl

/-! ## Orders of visiting the children -/

mutual

/-- The two trees differ at most in the orders in which windows visit their children. -/
inductive Reorder : WindowTree → WindowTree → Prop
  | image (source : PaintSource) : Reorder (.image source) (.image source)
  | window (base : IRotatablePaintDevice) (leds_ : List LedColor)
      {children_ reordered children_' : List (WindowTree × Int × Int)} :
      ReorderAll children_ reordered → reordered.Perm children_' →
      Reorder (.window base leds_ children_) (.window base leds_ children_')

/-- The same for the trees of two lists, one by one. -/
inductive ReorderAll : List (WindowTree × Int × Int) → List (WindowTree × Int × Int) → Prop
  | nil : ReorderAll [] []
  | cons {c d : WindowTree} (pos : Int × Int) {cs ds : List (WindowTree × Int × Int)} :
      Reorder c d → ReorderAll cs ds → ReorderAll ((c, pos) :: cs) ((d, pos) :: ds)

end

theorem ReorderAll.forall₂ {R : WindowTree × Int × Int → WindowTree × Int × Int → Prop}
    {cs ds : List (WindowTree × Int × Int)} (h : ReorderAll cs ds)
    (hR : ∀ c ∈ cs, ∀ d, Reorder c.1 d → R c (d, c.2)) : List.Forall₂ R cs ds := by
  induction cs generalizing ds with
  | nil =>
    cases h
    exact .nil
  | cons c cs ih =>
    cases h with
    | cons pos hcd hrest =>
      exact .cons (hR _ (List.mem_cons_self ..) _ hcd)
        (ih hrest fun c' hc' => hR c' (List.mem_cons_of_mem _ hc'))

theorem reorderAll_refl {cs : List (WindowTree × Int × Int)}
    (h : ∀ c ∈ cs, Reorder c.1 c.1) : ReorderAll cs cs := by
  induction cs with
  | nil => exact .nil
  | cons c cs ih =>
    obtain ⟨hc, hcs⟩ := List.forall_mem_cons.mp h
    exact .cons c.2 hc (ih hcs)

theorem Reorder.refl (t : WindowTree) : Reorder t t := by
  induction t using source.induct with
  | case1 source => exact .image source
  | case2 base leds_ children_ ih => exact .window base leds_ (reorderAll_refl ih) (.refl _)

/-- One window that visits its children in another order. -/
theorem Reorder.perm (base : IRotatablePaintDevice) (leds_ : List LedColor)
    {cs ds : List (WindowTree × Int × Int)} (h : cs.Perm ds) :
    Reorder (.window base leds_ cs) (.window base leds_ ds) :=
  .window base leds_ (reorderAll_refl fun c _ => .refl c.1) h

theorem Reorder.size_eq {t t' : WindowTree} (h : Reorder t t') :
    t'.source.width = t.source.width ∧ t'.source.height = t.source.height := by
  cases h with
  | image source => exact ⟨rfl, rfl⟩
  | window base leds_ _ _ =>
    rw [source_window, source_window]
    exact ⟨rfl, rfl⟩

/-! ## When the orders do not matter -/

/-- The tree shows the same in every order. -/
def OrderFree (t : WindowTree) : Prop :=
  ∀ t', Reorder t t' → ∀ x y, t.source.Inside x y → t'.source.led x y = t.source.led x y

/-- The window or image `u` is in the tree. -/
inductive Subtree (u : WindowTree) : WindowTree → Prop
  | refl : Subtree u u
  | child (base : IRotatablePaintDevice) (leds_ : List LedColor)
      {children_ : List (WindowTree × Int × Int)} {c : WindowTree × Int × Int} :
      c ∈ children_ → Subtree u c.1 → Subtree u (.window base leds_ children_)

/-- At every point of every window of the tree, any two children that show something there show
the same. -/
inductive Agree : WindowTree → Prop
  | image (source : PaintSource) : Agree (.image source)
  | window (base : IRotatablePaintDevice) (leds_ : List LedColor)
      {children_ : List (WindowTree × Int × Int)} :
      (∀ c ∈ children_, Agree c.1) →
      (∀ p ∈ base.logical, AgreeAt (layer base) children_ p) →
      Agree (.window base leds_ children_)

/-- Trees with the same children, one by one, up to the orders below them. -/
theorem forall₂_layer (base : IRotatablePaintDevice) {cs ds : List (WindowTree × Int × Int)}
    (h : ReorderAll cs ds) (hfree : ∀ c ∈ cs, OrderFree c.1) (p : Int × Int) :
    List.Forall₂ (fun c d => layer base c p = layer base d p) cs ds :=
  h.forall₂ fun c hc d hcd => (Child.layer_congr (c := child c) (d := child (d, c.2)) rfl rfl
    hcd.size_eq.1 hcd.size_eq.2 (hfree c hc d hcd) p).symm

/-- A tree whose overlapping children agree shows the same in every order. -/
theorem Agree.orderFree {t : WindowTree} (h : Agree t) : OrderFree t := by
  induction t using source.induct with
  | case1 source =>
    intro t' hr x y _
    cases hr
    rfl
  | case2 base leds_ children_ ih =>
    cases h with
    | window _ _ hchildren hpoints =>
      intro t' hr x y hin
      cases hr with
      | window _ _ hall hperm =>
        have hin' : (x, y) ∈ base.logical := by
          rw [source_window] at hin
          exact hin
        have hlayers := forall₂_layer base hall
          (fun c hc => ih c hc (hchildren c hc)) (x, y)
        have hagree := hpoints (x, y) hin'
        rw [led_window, led_window, look_forall₂ hlayers, look_perm (hagree.forall₂ hlayers) hperm]

theorem Agree.subtree {t u : WindowTree} (h : Agree t) (hu : Subtree u t) : Agree u := by
  induction hu with
  | refl => exact h
  | child base leds_ hc _ ih =>
    cases h with
    | window _ _ hchildren _ => exact ih (hchildren _ hc)

/-- The children of every window of the tree do not overlap, and their edges are `int`s. -/
inductive Separate : WindowTree → Prop
  | image (source : PaintSource) : Separate (.image source)
  | window (base : IRotatablePaintDevice) (leds_ : List LedColor)
      {children_ : List (WindowTree × Int × Int)} :
      (∀ c ∈ children_, Separate c.1) →
      (∀ c ∈ children_.map child, IsInt (c.x + c.source.width) ∧ IsInt (c.y + c.source.height)) →
      (children_.map child).Pairwise Child.Disjoint →
      Separate (.window base leds_ children_)

/-- Children that do not overlap agree. -/
theorem Separate.agree {t : WindowTree} (h : Separate t) : Agree t := by
  induction t using source.induct with
  | case1 source => exact .image source
  | case2 base leds_ children_ ih =>
    cases h with
    | window _ _ hchildren hedges hdisj =>
      refine .window base leds_ (fun c hc => ih c hc (hchildren c hc)) fun p _ => ?_
      have hagree : AgreeAt (fun c : Child => c.layer base) (children_.map child) p :=
        Child.agreeAt_of_disjoint hdisj fun c hc _ =>
          Child.rectangle_of_layer (hedges c hc).1 (hedges c hc).2
      exact fun c hc c' hc' => hagree _ (List.mem_map_of_mem hc) _ (List.mem_map_of_mem hc')

/-- In a tree whose siblings do not overlap every window shows the same in every order. -/
theorem Separate.orderFree {t u : WindowTree} (h : Separate t) (hu : Subtree u t) : OrderFree u :=
  (h.agree.subtree hu).orderFree

/-- A window that shows the same in every order has children that agree. -/
theorem OrderFree.agreeAt {base : IRotatablePaintDevice} {leds_ : List LedColor}
    {children_ : List (WindowTree × Int × Int)} (h : OrderFree (.window base leds_ children_))
    {p : Int × Int} (hp : p ∈ base.logical) : AgreeAt (layer base) children_ p := by
  refine agreeAt_iff (g := Window.canvas ⟨base, leds_, []⟩) |>.mpr fun ds hperm => ?_
  have hin : (window base leds_ children_).source.Inside p.1 p.2 := by
    rw [source_window]
    exact hp
  have hled := h _ (.perm base leds_ hperm) p.1 p.2 hin
  rwa [led_window, led_window] at hled

/-- **Hash order.** The iteration orders of the children matter for no window of a tree and no
point of it exactly when overlapping children agree everywhere in the tree. -/
theorem orderFree_iff (t : WindowTree) : (∀ u, Subtree u t → OrderFree u) ↔ Agree t := by
  constructor
  · intro h
    induction t using source.induct with
    | case1 source => exact .image source
    | case2 base leds_ children_ ih =>
      refine .window base leds_ (fun c hc => ih c hc fun u hu => h u (.child base leds_ hc hu))
        fun p hp => (h _ .refl).agreeAt hp
  · exact fun h u hu => (h.subtree hu).orderFree

/-- A red and a green dot at the same place of a window: the first one visited shows. -/
theorem not_orderFree :
    ¬ OrderFree (.window (.make 1 1 Led.black) [0]
      [(.image (.solid 1 1 Led.red), 0, 0), (.image (.solid 1 1 Led.green), 0, 0)]) := by
  intro h
  have hin : (window (.make 1 1 Led.black) [0] [(.image (.solid 1 1 Led.red), 0, 0),
      (.image (.solid 1 1 Led.green), 0, 0)]).source.Inside 0 0 := by
    rw [source_window]
    decide
  have hled := h _ (.perm _ _ (.swap _ _ _)) 0 0 hin
  simp only [source_window, child, List.map_cons, List.map_nil, source_image] at hled
  exact absurd hled (by decide)

end WindowTree

end Ws2812
