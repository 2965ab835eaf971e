import Ws2812Strip.Devices
import Mathlib.Data.Finmap

/-!
# Windows that point to each other

A `Scene` has the live windows by address. A window points to its parent (`parent_`) and to its
children (`children_`), so an operation on one of them writes up to three. An operation that
follows a pointer to a dead window stops with `dangling`.

* `Links`: the pointers between the windows of a scene, without their canvases. Each method of
  `Window` has its counterpart there, a function on links that cannot fail.
* `SceneOp.exec_run`: a method that is called on live windows, and finds only live windows behind
  the pointers that it follows, returns and leaves the links that its counterpart gives.
* `Links.Consistent`: `parent_` and `children_` say the same, and only live windows are linked.
-/

namespace Ws2812

/-- `IPaintSource*`: the address of an image or of a window. -/
inductive Ptr where
  | image (i : Nat)
  | window (w : Nat)
  deriving DecidableEq, Repr

/-- `Window::PaintSourcePos` -/
structure PaintSourcePos where
  x : Int
  y : Int
  deriving DecidableEq, Repr

/-- The fields of a live `Window`. -/
structure WindowObject where
  base : IRotatablePaintDevice
  leds_ : List LedColor
  parent_ : Option Nat := none
  children_ : Finmap fun _ : Ptr => PaintSourcePos := ∅

/-- The live windows. -/
structure Scene where
  windows : Nat → Option WindowObject

/-- A program over the windows. -/
abbrev SceneM (α : Type) : Type := Prog Scene Fault α

namespace Scene

/-- Replace the object at `w`, if there is one, by `f` of it. -/
def update (w : Nat) (f : WindowObject → WindowObject) (s : Scene) : Scene :=
  ⟨Function.update s.windows w ((s.windows w).map f)⟩

/-! ## The methods of `Window` -/

/-- `*w` -/
def deref (w : Nat) : SceneM WindowObject := fun s =>
  match s.windows w with
  | some o => (.ok o, s)
  | none => (.error (.undefined .dangling), s)

/-- Write fields of `*w`. -/
def modifyAt (w : Nat) (f : WindowObject → WindowObject) : SceneM Unit := do
  let _ ← deref w
  .modify (update w f)

/-- `p->children_[k] = pos` -/
def put (p : Nat) (k : Ptr) (pos : PaintSourcePos) : SceneM Unit :=
  modifyAt p fun o => { o with children_ := o.children_.insert k pos }

/-- `p->children_.erase(k)` -/
def erase (p : Nat) (k : Ptr) : SceneM Unit :=
  modifyAt p fun o => { o with children_ := o.children_.erase k }

/-- `c->parent_ = p` -/
def setParent (c : Nat) (p : Option Nat) : SceneM Unit :=
  modifyAt c fun o => { o with parent_ := p }

def remove (p : Nat) (child : Ptr) : SceneM Unit := do
  erase p child
  match child with
  | .window c => setParent c none
  | .image _ => pure ()

def add (p : Nat) (child : Ptr) (x y : Int) : SceneM Unit := do
  put p child ⟨x, y⟩
  match child with
  | .window c => do
    let o ← deref c
    match o.parent_ with
    | some q => remove q child
    | none => pure ()
    setParent c (some p)
  | .image _ => pure ()

def move (c : Nat) (x y : Int) : SceneM Unit := do
  let o ← deref c
  match o.parent_ with
  | some p => put p (.window c) ⟨x, y⟩
  | none => pure ()

/-- The body of `x()` and of `y()`, with the coordinate that it returns. -/
def coordinate (f : PaintSourcePos → Int) (c : Nat) : SceneM Int := do
  let o ← deref c
  match o.parent_ with
  | some p => do
    let parent ← deref p
    match parent.children_.lookup (.window c) with
    | some pos => pure (f pos)
    | none => pure 0
  | none => pure 0

def x : Nat → SceneM Int := coordinate (·.x)

def y : Nat → SceneM Int := coordinate (·.y)

def childrenCount (p : Nat) : SceneM Nat := do
  let o ← deref p
  pure o.children_.keys.card

/-- `Window(w, h, parent, x, y)`, at the address `c`. The size may be any: no link depends on it. -/
def construct (c : Nat) (w h : Int) (parent : Option Nat) (x y : Int) : SceneM Unit := do
  .modify fun s => ⟨Function.update s.windows c (some {
    base := .make w h Led.black
    leds_ := List.replicate (w * h).toNat 0 })⟩
  match parent with
  | some p => add p (.window c) x y
  | none => pure ()

/-- `~Window` -/
def destroy (w : Nat) : SceneM Unit := do
  let o ← deref w
  match o.parent_ with
  | some p => remove p (.window w)
  | none => pure ()
  .modify fun s => ⟨Function.update s.windows w none⟩

end Scene

/-- What a client does with windows. `Window(w, h, parent)` puts the window at `(0, 0)`. -/
inductive SceneOp where
  | construct (c : Nat) (w h : Int) (parent : Option Nat) (x y : Int)
  | add (p : Nat) (child : Ptr) (x y : Int)
  | remove (p : Nat) (child : Ptr)
  | move (c : Nat) (x y : Int)
  | destroy (w : Nat)

def SceneOp.exec : SceneOp → SceneM Unit
  | .construct c w h parent x y => Scene.construct c w h parent x y
  | .add p child x y => Scene.add p child x y
  | .remove p child => Scene.remove p child
  | .move c x y => Scene.move c x y
  | .destroy w => Scene.destroy w

/-- The scene after the call. -/
def Scene.step (s : Scene) (op : SceneOp) : Scene := (op.exec.run s).2

/-! ## Links -/

/-- Which windows are alive, and where they point. -/
@[ext] structure Links where
  alive : Nat → Prop
  /-- `parent_` of a window. -/
  parent : Nat → Option Nat
  /-- The position of a child in `children_` of a window. -/
  entry : Nat → Ptr → Option PaintSourcePos

/-- The pointers of a scene. A dead window has none. -/
def Scene.links (s : Scene) : Links where
  alive w := (s.windows w).isSome
  parent c := (s.windows c).bind (·.parent_)
  entry p k := (s.windows p).bind (·.children_.lookup k)

instance (s : Scene) (w : Nat) : Decidable (s.links.alive w) :=
  inferInstanceAs (Decidable ((s.windows w).isSome = true))

namespace Links

def put (l : Links) (p : Nat) (k : Ptr) (pos : PaintSourcePos) : Links :=
  { l with entry := fun q j => if q = p ∧ j = k then some pos else l.entry q j }

def erase (l : Links) (p : Nat) (k : Ptr) : Links :=
  { l with entry := fun q j => if q = p ∧ j = k then none else l.entry q j }

def setParent (l : Links) (c : Nat) (p : Option Nat) : Links :=
  { l with parent := fun d => if d = c then p else l.parent d }

def remove (l : Links) (p : Nat) : Ptr → Links
  | .window c => (l.erase p (.window c)).setParent c none
  | .image i => l.erase p (.image i)

def add (l : Links) (p : Nat) (child : Ptr) (pos : PaintSourcePos) : Links :=
  match child with
  | .window c =>
    match l.parent c with
    | some q => ((l.put p child pos).remove q child).setParent c (some p)
    | none => (l.put p child pos).setParent c (some p)
  | .image _ => l.put p child pos

def move (l : Links) (c : Nat) (pos : PaintSourcePos) : Links :=
  match l.parent c with
  | some p => l.put p (.window c) pos
  | none => l

/-- A new window without links. -/
def fresh (l : Links) (c : Nat) : Links where
  alive w := w = c ∨ l.alive w
  parent d := if d = c then none else l.parent d
  entry p k := if p = c then none else l.entry p k

def construct (l : Links) (c : Nat) (parent : Option Nat) (pos : PaintSourcePos) : Links :=
  match parent with
  | some p => (l.fresh c).add p (.window c) pos
  | none => l.fresh c

/-- The end of a window, and of the pointers that it has. -/
def free (l : Links) (w : Nat) : Links where
  alive v := v ≠ w ∧ l.alive v
  parent d := if d = w then none else l.parent d
  entry p k := if p = w then none else l.entry p k

def destroy (l : Links) (w : Nat) : Links :=
  match l.parent w with
  | some p => (l.remove p (.window w)).free w
  | none => l.free w

/-- No `parent_` dangles. -/
def ParentsAlive (l : Links) : Prop := ∀ c p, l.parent c = some p → l.alive p

/-- `parent_` and `children_` say the same, and linked windows are alive. -/
structure Consistent (l : Links) : Prop where
  agree : ∀ p c, (l.entry p (.window c)).isSome ↔ l.parent c = some p
  alive : ∀ p c, l.parent c = some p → l.alive p ∧ l.alive c

theorem Consistent.parentsAlive {l : Links} (h : l.Consistent) : l.ParentsAlive :=
  fun c p hp => (h.alive p c hp).1

end Links

/-- The counterpart of the call on links. -/
def SceneOp.effect (l : Links) : SceneOp → Links
  | .construct c _ _ parent x y => l.construct c parent ⟨x, y⟩
  | .add p child x y => l.add p child ⟨x, y⟩
  | .remove p child => l.remove p child
  | .move c x y => l.move c ⟨x, y⟩
  | .destroy w => l.destroy w

/-- The windows that the call names are alive; a new window takes an address that is free. -/
def SceneOp.Legal (l : Links) : SceneOp → Prop
  | .construct c _ _ parent _ _ => ¬ l.alive c ∧ ∀ p, parent = some p → l.alive p
  | .add p child _ _ => l.alive p ∧ ∀ c, child = .window c → l.alive c
  | .remove p child => l.alive p ∧ ∀ c, child = .window c → l.alive c
  | .move c _ _ => l.alive c
  | .destroy w => l.alive w

/-! ## What the counterparts change -/

namespace Links

variable (l : Links) (p q c d w : Nat) (k : Ptr) (pos : PaintSourcePos)

@[simp] theorem remove_alive (child : Ptr) : (l.remove p child).alive = l.alive := by
  cases child <;> rfl

@[simp] theorem remove_entry (child : Ptr) : (l.remove p child).entry q k =
    if q = p ∧ k = child then none else l.entry q k := by
  cases child <;> rfl

@[simp] theorem remove_parent :
    (l.remove p (.window c)).parent d = if d = c then none else l.parent d := rfl

@[simp] theorem remove_parent_image (i : Nat) : (l.remove p (.image i)).parent d = l.parent d := rfl

theorem add_of_parentless (h : l.parent c = none) :
    l.add p (.window c) pos = (l.put p (.window c) pos).setParent c (some p) := by
  simp only [add, h]

theorem add_of_parent {r : Nat} (h : l.parent c = some r) : l.add p (.window c) pos =
    ((l.put p (.window c) pos).remove r (.window c)).setParent c (some p) := by
  simp only [add, h]

@[simp] theorem add_alive (child : Ptr) : (l.add p child pos).alive = l.alive := by
  cases child with
  | image i => rfl
  | window c =>
    cases hc : l.parent c with
    | none => rw [l.add_of_parentless _ _ _ hc]; rfl
    | some r => rw [l.add_of_parent _ _ _ hc]; rfl

theorem owner_iff {r : Nat} {j : Ptr} : (q = r ∧ k = j) ↔ k = j ∧ some r = some q := by
  rw [Option.some.injEq]
  exact ⟨fun h => ⟨h.2, h.1.symm⟩, fun h => ⟨h.2.symm, h.1⟩⟩

/-- `add` writes the new entry first and then clears the one of the parent that the window had. -/
@[simp] theorem add_entry : (l.add p (.window c) pos).entry q k =
    if k = .window c ∧ l.parent c = some q then none
    else if q = p ∧ k = .window c then some pos else l.entry q k := by
  cases hc : l.parent c with
  | none =>
    rw [l.add_of_parentless _ _ _ hc]
    simp [setParent, put]
  | some r =>
    rw [l.add_of_parent _ _ _ hc]
    simp only [setParent, remove_entry, owner_iff, put]

@[simp] theorem add_parent :
    (l.add p (.window c) pos).parent d = if d = c then some p else l.parent d := by
  cases hc : l.parent c with
  | none =>
    rw [l.add_of_parentless _ _ _ hc]
    rfl
  | some r =>
    rw [l.add_of_parent _ _ _ hc]
    by_cases hd : d = c <;> simp [setParent, hd, put]

@[simp] theorem add_entry_image (i : Nat) : (l.add p (.image i) pos).entry q k =
    if q = p ∧ k = .image i then some pos else l.entry q k := rfl

@[simp] theorem add_parent_image (i : Nat) :
    (l.add p (.image i) pos).parent d = l.parent d := rfl

@[simp] theorem move_alive : (l.move c pos).alive = l.alive := by
  unfold move
  cases l.parent c <;> rfl

@[simp] theorem move_entry : (l.move c pos).entry q k =
    if k = .window c ∧ l.parent c = some q then some pos else l.entry q k := by
  unfold move
  cases hc : l.parent c with
  | none => simp
  | some r =>
    simp only [put, owner_iff]

@[simp] theorem move_parent : (l.move c pos).parent d = l.parent d := by
  unfold move
  cases l.parent c <;> rfl

@[simp] theorem destroy_alive : (l.destroy w).alive d ↔ d ≠ w ∧ l.alive d := by
  unfold destroy
  cases l.parent w with
  | none => rfl
  | some r => rfl

@[simp] theorem destroy_entry : (l.destroy w).entry q k =
    if q = w then none else if k = .window w ∧ l.parent w = some q then none else l.entry q k := by
  unfold destroy
  cases hw : l.parent w with
  | none => simp [free]
  | some r =>
    simp only [free, remove_entry, owner_iff]

@[simp] theorem destroy_parent :
    (l.destroy w).parent d = if d = w then none else l.parent d := by
  unfold destroy
  cases l.parent w with
  | none => rfl
  | some r => by_cases hd : d = w <;> simp [free, hd]

end Links

/-! ## The methods follow their counterparts -/

namespace Scene

variable {s : Scene} {w p c : Nat} {k : Ptr}

/-- The links of a scene with another object, or none, at one address. -/
theorem links_set (s : Scene) (w : Nat) (o : Option WindowObject) :
    (⟨Function.update s.windows w o⟩ : Scene).links =
      { alive := fun v => if v = w then o.isSome = true else s.links.alive v
        parent := fun d => if d = w then o.bind (·.parent_) else s.links.parent d
        entry := fun q k =>
          if q = w then o.bind (·.children_.lookup k) else s.links.entry q k } := by
  refine Links.ext (funext fun v => ?_) (funext fun d => ?_) (funext fun q => funext fun k => ?_)
  · by_cases h : v = w <;> simp [links, Function.update_apply, h]
  · by_cases h : d = w <;> simp [links, Function.update_apply, h]
  · by_cases h : q = w <;> simp [links, Function.update_apply, h]

theorem deref_run (h : s.links.alive w) :
    ∃ o, s.windows w = some o ∧ (deref w).run s = (.ok o, s) ∧ s.links.parent w = o.parent_ ∧
      ∀ k, s.links.entry w k = o.children_.lookup k := by
  obtain ⟨o, ho⟩ := Option.isSome_iff_exists.mp h
  refine ⟨o, ho, ?_, by simp [links, ho], by simp [links, ho]⟩
  show (deref w s) = _
  unfold deref
  rw [ho]

/-- A write to a live window changes the pointers of that window only. -/
theorem modifyAt_run (h : s.links.alive w) (f : WindowObject → WindowObject) :
    ∃ o s', (modifyAt w f).run s = (.ok (), s') ∧ s.links.parent w = o.parent_ ∧
      (∀ k, s.links.entry w k = o.children_.lookup k) ∧
      s'.links =
        { alive := s.links.alive
          parent := fun d => if d = w then (f o).parent_ else s.links.parent d
          entry := fun q k =>
            if q = w then (f o).children_.lookup k else s.links.entry q k } := by
  obtain ⟨o, ho, hrun, hparent, hentry⟩ := deref_run h
  refine ⟨o, _, Prog.run_bind_ok hrun, hparent, hentry, ?_⟩
  rw [update, ho, Option.map_some, links_set]
  refine Links.ext (funext fun v => ?_) rfl rfl
  by_cases hv : v = w <;> simp [hv, h]

theorem put_run (h : s.links.alive p) (k : Ptr) (pos : PaintSourcePos) :
    ∃ s', (put p k pos).run s = (.ok (), s') ∧ s'.links = s.links.put p k pos := by
  obtain ⟨o, s', hrun, hparent, hentry, hlinks⟩ := modifyAt_run h _
  refine ⟨s', hrun, hlinks.trans (Links.ext rfl (funext fun d => ?_)
    (funext fun q => funext fun j => ?_))⟩
  · by_cases hd : d = p <;> simp [Links.put, hd, hparent]
  · by_cases hq : q = p
    · rcases eq_or_ne j k with rfl | hj
      · simp [Links.put, hq]
      · simp [Links.put, hq, hj, hentry, Finmap.lookup_insert_of_ne]
    · simp [Links.put, hq]

theorem erase_run (h : s.links.alive p) (k : Ptr) :
    ∃ s', (erase p k).run s = (.ok (), s') ∧ s'.links = s.links.erase p k := by
  obtain ⟨o, s', hrun, hparent, hentry, hlinks⟩ := modifyAt_run h _
  refine ⟨s', hrun, hlinks.trans (Links.ext rfl (funext fun d => ?_)
    (funext fun q => funext fun j => ?_))⟩
  · by_cases hd : d = p <;> simp [Links.erase, hd, hparent]
  · by_cases hq : q = p
    · rcases eq_or_ne j k with rfl | hj
      · simp [Links.erase, hq]
      · simp [Links.erase, hq, hj, hentry, Finmap.lookup_erase_ne]
    · simp [Links.erase, hq]

theorem setParent_run (h : s.links.alive c) (p : Option Nat) :
    ∃ s', (setParent c p).run s = (.ok (), s') ∧ s'.links = s.links.setParent c p := by
  obtain ⟨o, s', hrun, -, hentry, hlinks⟩ := modifyAt_run h _
  refine ⟨s', hrun, hlinks.trans (Links.ext rfl rfl (funext fun q => funext fun j => ?_))⟩
  by_cases hq : q = c <;> simp [Links.setParent, hq, hentry]

theorem remove_run (child : Ptr) (hp : s.links.alive p)
    (hc : ∀ c, child = .window c → s.links.alive c) :
    ∃ s', (remove p child).run s = (.ok (), s') ∧ s'.links = s.links.remove p child := by
  obtain ⟨s₁, hrun₁, h₁⟩ := erase_run hp child
  cases child with
  | image i => exact ⟨s₁, Prog.run_bind_ok hrun₁, h₁⟩
  | window c =>
    have hc₁ : s₁.links.alive c := by
      rw [h₁]
      exact hc c rfl
    obtain ⟨s₂, hrun₂, h₂⟩ := setParent_run hc₁ none
    refine ⟨s₂, (Prog.run_bind_ok hrun₁).trans hrun₂, ?_⟩
    rw [h₂, h₁]
    rfl

theorem add_run (child : Ptr) (x y : Int) (hp : s.links.alive p)
    (hc : ∀ c, child = .window c → s.links.alive c)
    (hparent : s.links.ParentsAlive) :
    ∃ s', (add p child x y).run s = (.ok (), s') ∧ s'.links = s.links.add p child ⟨x, y⟩ := by
  obtain ⟨s₁, hrun₁, h₁⟩ := put_run hp child ⟨x, y⟩
  cases child with
  | image i => exact ⟨s₁, Prog.run_bind_ok hrun₁, h₁⟩
  | window c =>
    have hc₁ : s₁.links.alive c := by
      rw [h₁]
      exact hc c rfl
    obtain ⟨o, -, hrun, ho, -⟩ := deref_run hc₁
    have hpar : s.links.parent c = o.parent_ := by
      rw [← ho, h₁]
      rfl
    cases hq : o.parent_ with
    | none =>
      obtain ⟨s₂, hrun₂, h₂⟩ := setParent_run hc₁ (some p)
      refine ⟨s₂, (Prog.run_bind_ok hrun₁).trans ((Prog.run_bind_ok hrun).trans ?_), ?_⟩
      · rw [hq]
        exact hrun₂
      · rw [h₂, h₁, Links.add, hpar, hq]
    | some q =>
      have hq₁ : s₁.links.alive q := by
        rw [h₁]
        exact hparent c q (hpar.trans hq)
      obtain ⟨s₂, hrun₂, h₂⟩ := remove_run (.window c) hq₁ fun d hd => by
        cases hd
        exact hc₁
      have hc₂ : s₂.links.alive c := by
        rw [h₂]
        exact hc₁
      obtain ⟨s₃, hrun₃, h₃⟩ := setParent_run hc₂ (some p)
      refine ⟨s₃, (Prog.run_bind_ok hrun₁).trans ((Prog.run_bind_ok hrun).trans ?_), ?_⟩
      · rw [hq]
        exact (Prog.run_bind_ok hrun₂).trans hrun₃
      · rw [h₃, h₂, h₁, Links.add, hpar, hq]

theorem move_run {x y : Int} (hc : s.links.alive c)
    (hparent : s.links.ParentsAlive) :
    ∃ s', (move c x y).run s = (.ok (), s') ∧ s'.links = s.links.move c ⟨x, y⟩ := by
  obtain ⟨o, -, hrun, hpar, -⟩ := deref_run hc
  cases hq : o.parent_ with
  | none =>
    refine ⟨s, (Prog.run_bind_ok hrun).trans ?_, ?_⟩
    · rw [hq]
      rfl
    · rw [Links.move, hpar, hq]
  | some q =>
    obtain ⟨s₁, hrun₁, h₁⟩ := put_run (hparent c q (hpar.trans hq)) (.window c) ⟨x, y⟩
    refine ⟨s₁, (Prog.run_bind_ok hrun).trans ?_, ?_⟩
    · rw [hq]
      exact hrun₁
    · rw [h₁, Links.move, hpar, hq]

theorem construct_run {w h : Int} {parent : Option Nat} {x y : Int}
    (hp : ∀ p, parent = some p → s.links.alive p)
    (hparent : s.links.ParentsAlive) :
    ∃ s', (construct c w h parent x y).run s = (.ok (), s') ∧
      s'.links = s.links.construct c parent ⟨x, y⟩ := by
  set s₁ : Scene := ⟨Function.update s.windows c (some {
    base := .make w h Led.black
    leds_ := List.replicate (w * h).toNat 0 })⟩ with hs₁
  have h₁ : s₁.links = s.links.fresh c := by
    rw [hs₁, links_set]
    refine Links.ext (funext fun v => ?_) (funext fun d => ?_)
      (funext fun q => funext fun k => ?_)
    · by_cases hv : v = c <;> simp [Links.fresh, hv]
    · rfl
    · rfl
  cases parent with
  | none => exact ⟨s₁, rfl, h₁⟩
  | some p =>
    obtain ⟨s₂, hrun₂, h₂⟩ := add_run (s := s₁) (p := p) (.window c) x y
      (by rw [h₁]; exact .inr (hp p rfl)) (by rintro d ⟨⟩; rw [h₁]; exact .inl rfl)
      (fun d q hq => by
        rw [h₁] at hq ⊢
        by_cases hd : d = c
        · simp [Links.fresh, hd] at hq
        · exact .inr (hparent d q (by simpa [Links.fresh, hd] using hq)))
    refine ⟨s₂, hrun₂, ?_⟩
    rw [h₂, h₁]
    rfl

theorem destroy_run (hw : s.links.alive w)
    (hparent : ∀ p, s.links.parent w = some p → s.links.alive p) :
    ∃ s', (destroy w).run s = (.ok (), s') ∧ s'.links = s.links.destroy w := by
  have hfree : ∀ t : Scene,
      (⟨Function.update t.windows w none⟩ : Scene).links = t.links.free w := by
    intro t
    rw [links_set]
    refine Links.ext (funext fun v => ?_) rfl rfl
    by_cases hv : v = w <;> simp [Links.free, hv]
  obtain ⟨o, -, hrun, hpar, -⟩ := deref_run hw
  cases hp : o.parent_ with
  | none =>
    refine ⟨_, (Prog.run_bind_ok hrun).trans ?_, (hfree s).trans ?_⟩
    · rw [hp]
      rfl
    · rw [Links.destroy, hpar, hp]
  | some p =>
    obtain ⟨s₁, hrun₁, h₁⟩ := remove_run (.window w) (hparent p (hpar.trans hp))
      fun d hd => by
        cases hd
        exact hw
    refine ⟨_, (Prog.run_bind_ok hrun).trans ?_, (hfree s₁).trans ?_⟩
    · rw [hp]
      exact Prog.run_bind_ok hrun₁
    · rw [h₁, Links.destroy, hpar, hp]

/-- `x()` and `y()` of a window that its parent has as a child. -/
theorem coordinate_run {pos : PaintSourcePos} (hc : s.links.parent c = some p)
    (hp : s.links.entry p (.window c) = some pos) (f : PaintSourcePos → Int) :
    (coordinate f c).run s = (.ok (f pos), s) := by
  have hlive : s.links.alive c := by
    by_contra hdead
    have hnone : s.windows c = none := Option.not_isSome_iff_eq_none.mp hdead
    simp [links, hnone] at hc
  have hlive' : s.links.alive p := by
    by_contra hdead
    have hnone : s.windows p = none := Option.not_isSome_iff_eq_none.mp hdead
    simp [links, hnone] at hp
  obtain ⟨o, -, hrun, hparent, -⟩ := deref_run hlive
  obtain ⟨q, -, hrun', -, hentry⟩ := deref_run hlive'
  refine (Prog.run_bind_ok hrun).trans ?_
  rw [← hparent, hc]
  refine (Prog.run_bind_ok hrun').trans ?_
  rw [← hentry, hp]
  rfl

end Scene

/-- **Methods and their counterparts.** A call on live windows returns and leaves the links of its
counterpart, where no `parent_` dangles. -/
theorem SceneOp.exec_run {s : Scene} {op : SceneOp} (hop : op.Legal s.links)
    (hparent : s.links.ParentsAlive) :
    op.exec.run s = (.ok (), s.step op) ∧ (s.step op).links = op.effect s.links := by
  have hrun : ∃ s', op.exec.run s = (.ok (), s') ∧ s'.links = op.effect s.links := by
    cases op with
    | construct c w h parent x y => exact Scene.construct_run hop.2 hparent
    | add p child x y => exact Scene.add_run child x y hop.1 hop.2 hparent
    | remove p child => exact Scene.remove_run child hop.1 hop.2
    | move c x y => exact Scene.move_run hop hparent
    | destroy w => exact Scene.destroy_run hop (hparent w)
  obtain ⟨s', hrun, hlinks⟩ := hrun
  have hstep : s.step op = s' := congrArg Prod.snd hrun
  rw [hstep]
  exact ⟨hrun, hlinks⟩

end Ws2812
