import Ws2812Strip.Consistency
import Ws2812Strip.WindowTree
import Ws2812Strip.Lib.Descent

/-!
# Ancestors, and the recursion of `Window::led`

`add` does not look at what is above the window that it adds to, so a window can get below itself,
and then `Window::led` need not return.

* `Scene.unfold`: what `led` sees of a window down to some depth, as a tree; `Scene.led` is `led`
  of that tree, and stops with `noReturn` where the recursion goes deeper.
* `Below`: a window is in the map of another, or has it as `parent_`. The two need not agree.
* `terminates_iff`: from windows without links, no window becomes its own ancestor and every `led`
  ends exactly as long as every `add` puts a window somewhere that is not below it.
-/

namespace Ws2812

open Descent Relation

/-! ## Calls that end -/

/-- The call returned, threw or ran into some other undefined behaviour. -/
def Ends {α : Type} (r : Except Fault α) : Prop := r ≠ .error (.undefined .noReturn)

section Ends

variable {α β : Type}

theorem Ends.pure (a : α) : Ends (.ok a) := fun h => by cases h

theorem Ends.bind {r : Except Fault α} {f : α → Except Fault β} (h : Ends r)
    (hf : ∀ a, Ends (f a)) : Ends (r >>= f) := by
  cases r with
  | ok a => exact hf a
  | error e =>
    intro he
    exact h (congrArg Except.error (Except.error.inj he))

theorem ends_cint (n : Int) : Ends (cint n) := by
  unfold cint
  split <;> exact fun h => by cases h

theorem ends_fromEnd (n i : Int) : Ends (fromEnd n i) := (ends_cint _).bind fun _ => ends_cint _

theorem ends_vectorIndex (w x y : Int) : Ends (IVectorStripIndex.index w x y) :=
  (ends_cint _).bind fun _ => ends_cint _

theorem ends_unrotate (t : StripRotateHelper) (w h x y : Int) : Ends (t.unrotate w h x y) := by
  have hflip : ∀ (flip : Bool) n i (k : Int → Except Fault (Int × Int)), (∀ j, Ends (k j)) →
      Ends (if flip then fromEnd n i >>= k else pure i >>= k) := by
    intro flip n i k hk
    cases flip
    · exact hk i
    · exact (ends_fromEnd n i).bind hk
  have hflips : ∀ urX urY, Ends (if t.flipX then fromEnd w urX >>= fun urX =>
        if t.flipY then fromEnd h urY >>= fun urY => pure (urX, urY)
        else pure urY >>= fun urY => pure (urX, urY)
      else pure urX >>= fun urX =>
        if t.flipY then fromEnd h urY >>= fun urY => pure (urX, urY)
        else pure urY >>= fun urY => pure (urX, urY)) := fun urX urY =>
    hflip _ _ _ _ fun _ => hflip _ _ _ _ fun _ => .pure _
  unfold StripRotateHelper.unrotate
  cases t.rotateDegree with
  | d0 => exact hflips _ _
  | d90 => exact (ends_fromEnd _ _).bind fun _ => hflips _ _
  | d180 => exact (ends_fromEnd _ _).bind fun _ => (ends_fromEnd _ _).bind fun _ => hflips _ _
  | d270 => exact (ends_fromEnd _ _).bind fun _ => hflips _ _

/-- Reading a canvas ends. -/
theorem ends_cellLed (r : IRotatablePaintDevice) (leds : Option (List LedColor)) (x y : Int) :
    Ends (cellLed .vector r leds x y) := by
  refine Ends.bind (Ends.bind ?_ fun i => ?_) fun i => .pure _
  · exact (ends_unrotate _ _ _ _ _).bind fun p => ends_vectorIndex _ _ _
  · cases leds with
    | none => exact fun h => by cases h
    | some cells =>
      dsimp only
      split
      · exact .pure _
      · exact fun h => by cases h

theorem ends_covers (c : Child) (x y : Int) : Ends (c.covers x y) := by
  unfold Child.covers
  split
  · refine (ends_cint _).bind fun right => ?_
    split
    · exact (ends_cint _).bind fun _ => .pure _
    · exact .pure _
  · exact .pure _

/-- `Window::led` ends if every `led` that it calls does. -/
theorem Window.ends_led {w : Window} (h : ∀ c ∈ w.children_, ∀ x y, Ends (c.source.led x y))
    (x y : Int) : Ends (w.led x y) := by
  unfold Window.led
  generalize w.children_ = children at h
  induction children with
  | nil => exact ends_cellLed _ _ _ _
  | cons c children ih =>
    obtain ⟨hc, hrest⟩ := List.forall_mem_cons.mp h
    refine (ends_covers c x y).bind fun covered => ?_
    cases covered
    · exact ih hrest
    refine (ends_cint _).bind fun lx => (ends_cint _).bind fun ly => (hc lx ly).bind fun led => ?_
    split
    · exact ih hrest
    · exact .pure led

end Ends

/-! ## The recursion -/

/-- An image that a window shows: its `led` ends. -/
structure Image extends PaintSource where
  ends : ∀ x y, Ends (led x y)

namespace Scene

/-- The order in which the loop of `Window::led` visits the children of each window. -/
abbrev Order : Type := Nat → List (Σ _ : Ptr, PaintSourcePos)

/-- The loops visit exactly the children. -/
def Visits (s : Scene) (order : Order) : Prop :=
  ∀ w o, s.windows w = some o → (order w : Multiset (Σ _ : Ptr, PaintSourcePos)) =
    o.children_.entries

/-- What a pointer stands for, given the trees of the windows. -/
def pointee (images : Nat → Image) (tree : Nat → WindowTree) : Ptr → WindowTree
  | .image i => .image (images i).toPaintSource
  | .window c => tree c

/-- The window `w` with what is below it down to a depth, where `led` stops. A dead window stands
for a call on one, so this is about scenes whose maps have live windows only. -/
def unfold (images : Nat → Image) (order : Order) (s : Scene) : Nat → Nat → WindowTree
  | 0, w => .image ⟨((s.windows w).map (·.base.width)).getD 0,
      ((s.windows w).map (·.base.height)).getD 0, fun _ _ => .error (.undefined .noReturn)⟩
  | depth + 1, w =>
    match s.windows w with
    | none => .image ⟨0, 0, fun _ _ => .error (.undefined .dangling)⟩
    | some o => .window o.base o.leds_ ((order w).map fun e =>
        (pointee images (unfold images order s depth) e.1, e.2.x, e.2.y))

/-- `led` of the window `w`, with calls down to a depth. -/
def led (images : Nat → Image) (order : Order) (s : Scene) (depth w : Nat) (x y : Int) :
    Except Fault LedColor :=
  (s.unfold images order depth w).source.led x y

/-- A visited child is in the map. -/
theorem Visits.entry {s : Scene} {order : Order} (h : s.Visits order) {w : Nat}
    {o : WindowObject} (ho : s.windows w = some o) {k : Ptr} {pos : PaintSourcePos}
    (hk : ⟨k, pos⟩ ∈ order w) : s.links.entry w k = some pos := by
  have hmem : (⟨k, pos⟩ : Σ _ : Ptr, PaintSourcePos) ∈ o.children_.entries := by
    rw [← h w o ho]
    exact hk
  have hlookup : o.children_.lookup k = some pos := Finmap.mem_lookup_iff.mpr hmem
  simp [links, ho, hlookup]

/-- The size of a window does not depend on the depth. -/
theorem unfold_size (images : Nat → Image) (order : Order) {s : Scene} {w : Nat} {o : WindowObject}
    (h : s.windows w = some o) (depth : Nat) :
    (s.unfold images order depth w).source.width = o.base.width ∧
      (s.unfold images order depth w).source.height = o.base.height := by
  cases depth with
  | zero =>
    rw [unfold, WindowTree.source_image, h]
    exact ⟨rfl, rfl⟩
  | succ depth =>
    rw [unfold, h]
    dsimp only
    rw [WindowTree.source_window]
    exact ⟨rfl, rfl⟩

end Scene

/-! ## What is below a window -/

namespace Links

/-- `c` is in the map of `p`. -/
def InMap (l : Links) (c p : Nat) : Prop := (l.entry p (.window c)).isSome

/-- `c` is in the map of `p`, or has `p` as `parent_`. -/
def Below (l : Links) (c p : Nat) : Prop := l.InMap c p ∨ l.parent c = some p

instance (l : Links) (c p : Nat) : Decidable (l.Below c p) :=
  inferInstanceAs (Decidable ((l.entry p (.window c)).isSome = true ∨ l.parent c = some p))

/-- Going down from a window ends, and only live windows are linked. -/
structure Grounded (l : Links) : Prop where
  below : WellFounded l.Below
  alive : ∀ c p, l.Below c p → l.alive p ∧ l.alive c

variable {l : Links} {p c : Nat}

theorem Grounded.parentsAlive (h : l.Grounded) : l.ParentsAlive :=
  fun c p hp => (h.alive c p (.inr hp)).1

/-- Fewer links, and no fewer windows. -/
theorem Grounded.mono (h : l.Grounded) {l' : Links} (hbelow : ∀ c p, l'.Below c p → l.Below c p)
    (halive : ∀ w, l.alive w → l'.alive w) : l'.Grounded where
  below := Subrelation.wf (fun {c p} => hbelow c p) h.below
  alive c p hcp := by
    obtain ⟨hp, hc⟩ := h.alive c p (hbelow c p hcp)
    exact ⟨halive p hp, halive c hc⟩

theorem Grounded.fresh (h : l.Grounded) : (l.fresh c).Grounded := by
  refine h.mono (fun d p hd => ?_) fun w hw => .inr hw
  rcases hd with hd | hd
  · by_cases hp : p = c
    · simp [InMap, Links.fresh, hp] at hd
    · exact .inl (by simpa [InMap, Links.fresh, hp] using hd)
  · by_cases hdc : d = c
    · simp [Links.fresh, hdc] at hd
    · exact .inr (by simpa [Links.fresh, hdc] using hd)

theorem Grounded.remove (h : l.Grounded) (child : Ptr) : (l.remove p child).Grounded := by
  refine h.mono (fun d q hd => ?_) fun w hw => by rwa [remove_alive]
  rcases hd with hd | hd
  · unfold InMap at hd
    rw [remove_entry] at hd
    split at hd
    · cases hd
    · exact .inl hd
  · cases child with
    | image i => exact .inr hd
    | window c =>
      rw [remove_parent] at hd
      split at hd
      · cases hd
      · exact .inr hd

/-- `move` writes into the map of the parent, where the window need not have been. -/
theorem Grounded.move (h : l.Grounded) (pos : PaintSourcePos) : (l.move c pos).Grounded := by
  refine h.mono (fun d q hd => ?_) fun w hw => by rwa [move_alive]
  rcases hd with hd | hd
  · unfold InMap at hd
    rw [move_entry] at hd
    split at hd
    · rename_i hdc
      cases hdc.1
      exact .inr hdc.2
    · exact .inl hd
  · rw [move_parent] at hd
    exact .inr hd

theorem Grounded.add_image (h : l.Grounded) (i : Nat) (pos : PaintSourcePos) :
    (l.add p (.image i) pos).Grounded := by
  refine h.mono (fun d q hd => ?_) fun w hw => hw
  rcases hd with hd | hd
  · exact .inl (by simpa [InMap] using hd)
  · exact .inr hd

/-- What is below what after `add`: the new link, and at most links from the window are gone. -/
theorem below_add (l : Links) (p c : Nat) (pos : PaintSourcePos) :
    (∀ d q, (l.add p (.window c) pos).Below d q → l.Below d q ∨ d = c ∧ q = p) ∧
    (∀ d q, l.Below d q → d ≠ c → (l.add p (.window c) pos).Below d q) ∧
    (l.add p (.window c) pos).Below c p := by
  refine ⟨fun d q hd => ?_, fun d q hd hdc => ?_, .inr (by rw [add_parent, if_pos rfl])⟩
  · rcases hd with hd | hd
    · unfold InMap at hd
      rw [add_entry] at hd
      split at hd
      · cases hd
      split at hd
      · rename_i hq
        cases hq.2
        exact .inr ⟨rfl, hq.1⟩
      · exact .inl (.inl hd)
    · rw [add_parent] at hd
      split at hd
      · rename_i hdc
        exact .inr ⟨hdc, (Option.some.inj hd).symm⟩
      · exact .inl (.inr hd)
  · rcases hd with hd | hd
    · exact .inl (by simpa [InMap, hdc] using hd)
    · exact .inr (by rwa [add_parent, if_neg hdc])

/-- A child that is added again. -/
theorem Grounded.add_child (h : l.Grounded) (hc : l.parent c = some p) (pos : PaintSourcePos) :
    (l.add p (.window c) pos).Grounded := by
  refine h.mono (fun d q hd => ?_) fun w hw => by rwa [add_alive]
  rcases (below_add l p c pos).1 d q hd with hd | ⟨rfl, rfl⟩
  · exact hd
  · exact .inr hc

/-- A window that gets another parent, or its first. -/
theorem Grounded.add (h : l.Grounded) (hp : l.alive p) (hlive : l.alive c)
    (hno : ¬ ReflTransGen l.Below p c) (pos : PaintSourcePos) :
    (l.add p (.window c) pos).Grounded := by
  obtain ⟨hsub, -, -⟩ := below_add l p c pos
  refine ⟨wellFounded_link h.below hsub hno, fun d q hd => ?_⟩
  rw [add_alive]
  rcases hsub d q hd with hd | ⟨rfl, rfl⟩
  · exact h.alive d q hd
  · exact ⟨hp, hlive⟩

theorem Grounded.construct (h : l.Grounded) (hc : ¬ l.alive c) {parent : Option Nat}
    (hp : ∀ p, parent = some p → l.alive p) (pos : PaintSourcePos) :
    (l.construct c parent pos).Grounded := by
  cases parent with
  | none => exact h.fresh
  | some p =>
    have hlive := hp p rfl
    refine h.fresh.add (.inr hlive) (.inl rfl) (fun hpath => ?_) pos
    -- nothing is below a new window
    rcases hpath.cases_tail with heq | ⟨d, -, hd⟩
    · exact hc (heq ▸ hlive)
    · rcases hd with hd | hd
      · simp [InMap, Links.fresh] at hd
      · have hdc : d ≠ c := by
          rintro rfl
          simp [Links.fresh] at hd
        rw [Links.fresh] at hd
        simp only [hdc, if_false] at hd
        exact hc (h.alive d c (.inr hd)).1

end Links

namespace Scene

variable {s : Scene}

/-- No window is its own proper ancestor, and `led` ends on every window at every point, in
whatever order the children are visited. -/
structure Terminates (s : Scene) : Prop where
  ancestors : Acyclic s.links.Below
  led : ∀ images order, s.Visits order → ∀ w, s.links.alive w → ∀ x y,
    ∃ depth, Ends (s.led images order depth w x y)

/-- A window has finitely many children. -/
theorem finite_inMap (s : Scene) (p : Nat) : {c | s.links.InMap c p}.Finite := by
  cases ho : s.windows p with
  | none =>
    have hnone : {c | s.links.InMap c p} = ∅ := by
      ext c
      simp [Links.InMap, links, ho]
    rw [hnone]
    exact Set.finite_empty
  | some o =>
    have hkeys : {c | s.links.InMap c p} = Set.preimage Ptr.window o.children_.keys := by
      ext c
      simp [Links.InMap, links, ho, Finmap.lookup_isSome, Finmap.mem_keys]
    rw [hkeys]
    exact o.children_.keys.finite_toSet.preimage fun a _ b _ h => Ptr.window.inj h

/-- One step up: a window whose children end at some depth ends at the next. -/
theorem ends_led_succ {images : Nat → Image} {order : Order} (horder : s.Visits order)
    {w depth : Nat} (h : ∀ c, s.links.InMap c w → ∀ x y, Ends (s.led images order depth c x y))
    (x y : Int) :
    Ends (s.led images order (depth + 1) w x y) := by
  unfold led unfold
  cases ho : s.windows w with
  | none =>
    rw [WindowTree.source_image]
    exact fun he => by cases he
  | some o =>
    dsimp only
    rw [WindowTree.source_window]
    refine Window.ends_led (fun c hc => ?_) x y
    simp only [List.map_map, List.mem_map] at hc
    obtain ⟨⟨k, pos⟩, he, rfl⟩ := hc
    cases k with
    | image i =>
      simp only [Function.comp_apply, WindowTree.child, pointee, WindowTree.source_image]
      exact (images i).ends
    | window c =>
      refine h c ?_
      have hentry := horder.entry ho he
      simp [Links.InMap, hentry]

/-- Where going down through the maps ends, `led` does. -/
theorem ends_led (h : WellFounded s.links.InMap) {images : Nat → Image} {order : Order}
    (horder : s.Visits order) (w : Nat) (x y : Int) :
    ∃ depth, Ends (s.led images order depth w x y) := by
  have hdeep := eventually_of_step h s.finite_inMap
    (P := fun w depth => ∀ x y, Ends (s.led images order depth w x y))
    (fun w depth hw => ends_led_succ horder hw) w
  obtain ⟨depth, hdepth⟩ := hdeep.exists
  exact ⟨depth, hdepth x y⟩

theorem terminates_of_grounded (h : s.links.Grounded) : s.Terminates where
  ancestors := acyclic_of_wellFounded h.below
  led _ _ horder w _ x y :=
    ends_led (Subrelation.wf (fun {_ _} => .inl) h.below) horder w x y

/-! ## Which calls keep it so -/

/-- `add` puts a window into the one that it points to already, or into one that is neither the
window itself nor below it. -/
def Ready (s : Scene) : SceneOp → Prop
  | .add p (.window c) _ _ =>
    s.links.parent c = some p ∨ ¬ ReflTransGen s.links.Below p c
  | _ => True

/-- A call on live windows that destroys none. -/
def Keeping (s : Scene) (op : SceneOp) : Prop := op.Legal s.links ∧ ∀ w, op ≠ .destroy w

theorem grounded_step {op : SceneOp} (h : s.links.Grounded) (hop : s.Keeping op)
    (hready : s.Ready op) : (s.step op).links.Grounded := by
  obtain ⟨hlegal, hdestroy⟩ := hop
  rw [(SceneOp.exec_run hlegal h.parentsAlive).2]
  match op, hlegal with
  | .construct c w height parent x y, ⟨hc, hp⟩ => exact h.construct hc hp _
  | .add p (.image i) x y, _ => exact h.add_image i _
  | .add p (.window c) x y, ⟨hp, hc⟩ =>
    by_cases hparent : s.links.parent c = some p
    · exact h.add_child hparent _
    · exact h.add hp (hc c rfl) (hready.resolve_left hparent) _
  | .remove p child, _ => exact h.remove child
  | .move c x y, _ => exact h.move _
  | .destroy w, _ => exact absurd rfl (hdestroy w)

/-- Any other `add` makes a window its own ancestor. -/
theorem ready_of_terminates {op : SceneOp} (h : s.links.Grounded) (hop : s.Keeping op)
    (hstep : (s.step op).Terminates) : s.Ready op := by
  match op, hop with
  | .add p (.window c) x y, ⟨hlegal, _⟩ =>
    refine or_iff_not_imp_left.mpr fun hparent => ?_
    obtain ⟨hsub, hkeep, hnew⟩ := s.links.below_add p c ⟨x, y⟩
    have hacyclic := hstep.ancestors
    rw [(SceneOp.exec_run hlegal h.parentsAlive).2] at hacyclic
    exact (link_iff h.below hsub hkeep hnew).mp hacyclic
  | .add p (.image i) x y, _ => trivial
  | .construct c w height parent x y, _ => trivial
  | .remove p child, _ => trivial
  | .move c x y, _ => trivial
  | .destroy w, _ => trivial

/-- **Ancestors and termination.** Take windows without links, and any run of constructions and of
`add`, `remove` and `move` calls on live windows. No window is its own proper ancestor and `led`
ends, at first and after every call, exactly when every `add` puts a window into the one that it
points to already, or into one that is neither the window itself nor below it. -/
theorem terminates_iff (hparent : ∀ c, s.links.parent c = none)
    (hentry : ∀ p c, s.links.entry p (.window c) = none) {ops : List SceneOp}
    (hl : Run.Each step Keeping s ops) :
    s.Terminates ∧
    (Run.Each step (fun s op => (s.step op).Terminates) s ops ↔ Run.Each step Ready s ops) := by
  have hnone : ∀ c p, ¬ s.links.Below c p := by
    intro c p hcp
    simp [Links.Below, Links.InMap, hparent, hentry] at hcp
  have hs : s.links.Grounded :=
    ⟨⟨fun p => ⟨p, fun c hc => absurd hc (hnone c p)⟩⟩, fun c p hc => absurd hc (hnone c p)⟩
  refine ⟨terminates_of_grounded hs, Run.each_iff (I := fun s => s.links.Grounded)
    (fun s op h hop => ⟨ready_of_terminates h hop, fun hready => ?_⟩)
    (fun s op h hop => grounded_step h hop) hs hl⟩
  exact terminates_of_grounded (grounded_step h hop hready)

/-- Two windows, one of which goes into the other and is moved there. -/
theorem terminates_iff_two :
    Run.Each step (fun s op => (s.step op).Terminates) (Scene.mk fun _ => none)
      [.construct 0 8 8 none 0 0, .construct 1 4 4 none 0 0, .add 0 (.window 1) 2 1,
        .move 1 3 3] := by
  have hl : Run.Each step Keeping (Scene.mk fun _ => none)
      [.construct 0 8 8 none 0 0, .construct 1 4 4 none 0 0, .add 0 (.window 1) 2 1,
        .move 1 3 3] :=
    ⟨⟨⟨by decide, nofun⟩, nofun⟩, ⟨⟨by decide, nofun⟩, nofun⟩,
      ⟨⟨by decide, by rintro c ⟨⟩; decide⟩, nofun⟩, ⟨show Links.alive _ _ by decide, nofun⟩,
      trivial⟩
  refine (terminates_iff (fun _ => rfl) (fun _ _ => rfl) hl).2.mpr
    ⟨trivial, trivial, .inr fun hpath => ?_, trivial, trivial⟩
  -- the window `0` is in no map
  rcases hpath.cases_head with heq | ⟨d, hd, -⟩
  · cases heq
  · match d with
    | 0 => exact absurd hd (by decide)
    | 1 => exact absurd hd (by decide)
    | d + 2 => rcases hd with hd | hd <;> cases hd

/-- A window that is added to itself at its corner reads itself without end. -/
theorem not_terminates :
    let s := ((Scene.mk fun _ => none).step (.construct 0 1 1 none 0 0)).step
      (.add 0 (.window 0) 0 0)
    ¬ s.Terminates ∧ ∀ images depth,
      s.led images (fun _ => [⟨.window 0, ⟨0, 0⟩⟩]) depth 0 0 0 =
        .error (.undefined .noReturn) := by
  intro s
  have hself : s.links.Below 0 0 := .inr (by decide)
  refine ⟨fun h => h.ancestors 0 (.single hself), fun images depth => ?_⟩
  induction depth with
  | zero =>
    unfold led unfold
    rw [WindowTree.source_image]
  | succ depth ih =>
    obtain ⟨o, ho, hbase, hleds⟩ : ∃ o, s.windows 0 = some o ∧ o.base = .make 1 1 Led.black ∧
        o.leds_ = [0] := ⟨_, rfl, rfl, rfl⟩
    have hsize := unfold_size images (fun _ => [⟨.window 0, ⟨0, 0⟩⟩]) ho depth
    unfold led at ih ⊢
    rw [unfold, ho]
    dsimp only
    rw [WindowTree.source_window, hbase, hleds]
    simp only [List.map_cons, List.map_nil, pointee]
    generalize s.unfold images (fun _ => [⟨.window 0, ⟨0, 0⟩⟩]) depth 0 = t at ih hsize ⊢
    show Window.ledFrom _ 0 0 [⟨t.source, 0, 0⟩] = _
    have hw : t.source.width = 1 := hsize.1.trans (by rw [hbase]; rfl)
    have hh : t.source.height = 1 := hsize.2.trans (by rw [hbase]; rfl)
    have hcovers : Child.covers ⟨t.source, 0, 0⟩ 0 0 = .ok true := by
      unfold Child.covers
      simp only [hw, hh]
      decide
    rw [Window.ledFrom, hcovers]
    show (t.source.led 0 0 >>= _) = _
    rw [ih]
    rfl

end Scene

end Ws2812
