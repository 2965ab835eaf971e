import Ws2812Strip.Consistency

/-!
# Reparenting and moving

A `Forest` says of each window which window it is in, and where. Consistent links represent one
(`consistent_iff`), and as long as `add` is not called on a current child, `add` and `move` are
assignments to it (`step_represents`): the three objects that `add` writes agree again when it
returns. So what the last successful call for a window set is what `x()` and `y()` return
(`reparenting`).
-/

namespace Ws2812

/-- The window that a window is in, and its position there. -/
abbrev Forest : Type := Nat → Option (Nat × PaintSourcePos)

/-- What a call of `add` or `move` is for. -/
def Forest.assign (f : Forest) : SceneOp → Forest
  | .add p (.window c) x y => Function.update f c (some (p, ⟨x, y⟩))
  | .move c x y => Function.update f c ((f c).map fun place => (place.1, ⟨x, y⟩))
  | _ => f

namespace Links

/-- The links are those of the forest. -/
structure Represents (l : Links) (f : Forest) : Prop where
  parent : ∀ c, l.parent c = (f c).map Prod.fst
  entry : ∀ p c, l.entry p (.window c) =
    (f c).bind fun place => if place.1 = p then some place.2 else none
  alive : ∀ p c, l.parent c = some p → l.alive p ∧ l.alive c

variable {l : Links} {f : Forest} {p c : Nat}

theorem Represents.consistent (h : l.Represents f) : l.Consistent where
  agree p c := by
    rw [h.parent, h.entry]
    cases f c with
    | none => simp
    | some place => by_cases hp : place.1 = p <;> simp [hp]
  alive := h.alive

/-- The forest of the links. -/
def forest (l : Links) : Forest := fun c =>
  (l.parent c).bind fun p => (l.entry p (.window c)).map (Prod.mk p)

theorem Consistent.represents (h : l.Consistent) : l.Represents l.forest where
  parent c := by
    cases hc : l.parent c with
    | none => simp [forest, hc]
    | some p =>
      obtain ⟨pos, hpos⟩ := Option.isSome_iff_exists.mp ((h.agree p c).mpr hc)
      simp [forest, hc, hpos]
  entry q c := by
    cases hc : l.parent c with
    | none =>
      rw [h.entry_eq_none (by simp [hc])]
      simp [forest, hc]
    | some p =>
      obtain ⟨pos, hpos⟩ := Option.isSome_iff_exists.mp ((h.agree p c).mpr hc)
      by_cases hq : p = q
      · subst hq
        simp [forest, hc, hpos]
      · rw [h.entry_eq_none (by simpa [hc] using hq)]
        simp [forest, hc, hpos, hq]
  alive := h.alive

/-- Consistent links are those of a forest. -/
theorem consistent_iff : l.Consistent ↔ ∃ f, l.Represents f :=
  ⟨fun h => ⟨_, h.represents⟩, fun ⟨_, h⟩ => h.consistent⟩

theorem Represents.add (h : l.Represents f) (hp : l.alive p) (hc : l.alive c)
    (hne : l.parent c ≠ some p) (pos : PaintSourcePos) :
    (l.add p (.window c) pos).Represents (Function.update f c (some (p, pos))) where
  parent d := by
    rw [add_parent]
    by_cases hd : d = c
    · simp [hd]
    · simp [hd, h.parent]
  entry q d := by
    rw [add_entry]
    by_cases hd : d = c
    · subst hd
      by_cases hq : p = q
      · subst hq
        simp [hne]
      · by_cases hold : l.parent d = some q
        · simp [hold, hq]
        · simp [hold, hq, Ne.symm hq, h.consistent.entry_eq_none hold]
    · simp [hd, h.entry]
  alive := (h.consistent.add hp hc hne pos).alive

theorem Represents.move (h : l.Represents f) (pos : PaintSourcePos) :
    (l.move c pos).Represents
      (Function.update f c ((f c).map fun place => (place.1, pos))) where
  parent d := by
    rw [move_parent]
    by_cases hd : d = c
    · subst hd
      simp [h.parent, Function.comp_def]
    · simp [hd, h.parent]
  entry q d := by
    rw [move_entry]
    by_cases hd : d = c
    · subst hd
      cases hf : f d with
      | none => simp [h.parent, h.entry, hf]
      | some place => by_cases hq : place.1 = q <;> simp [h.parent, h.entry, hf, hq]
    · simp [hd, h.entry]
  alive := (h.consistent.move pos).alive

end Links

namespace Scene

/-- `add` of a window that is not yet a child of `p`, or `move`, on live windows. -/
def Reparents (s : Scene) : SceneOp → Prop
  | .add p (.window c) _ _ => s.links.alive p ∧ s.links.alive c ∧ s.links.parent c ≠ some p
  | .move c _ _ => s.links.alive c
  | _ => False

/-- The position that the last successful call for each window set. A `move` of a window without
a parent is not successful. -/
def record (s : Scene) (last : Nat → Option PaintSourcePos) :
    SceneOp → Nat → Option PaintSourcePos
  | .add _ (.window c) x y => Function.update last c (some ⟨x, y⟩)
  | .move c x y =>
    if (s.links.parent c).isSome then Function.update last c (some ⟨x, y⟩) else last
  | _ => last

def lastPositions (s : Scene) (last : Nat → Option PaintSourcePos) :
    List SceneOp → Nat → Option PaintSourcePos
  | [] => last
  | op :: ops => (s.step op).lastPositions (s.record last op) ops

/-- What one call leaves alone: `add` everything but its window, `move` of a window without a
parent everything. -/
def Frame (s : Scene) : SceneOp → Prop
  | .add p (.window c) x y =>
    (∀ d, d ≠ c → (s.step (.add p (.window c) x y)).links.parent d = s.links.parent d) ∧
    ∀ q k, ¬ (k = .window c ∧ (q = p ∨ s.links.parent c = some q)) →
      (s.step (.add p (.window c) x y)).links.entry q k = s.links.entry q k
  | .move c x y => s.links.parent c = none → s.step (.move c x y) = s
  | _ => True

variable {s : Scene} {f : Forest} {last : Nat → Option PaintSourcePos} {op : SceneOp}

theorem Reparents.legal (h : s.Reparents op) : op.Legal s.links := by
  match op, h with
  | .add p (.window c) x y, ⟨hp, hc, _⟩ =>
    refine ⟨hp, ?_⟩
    rintro d ⟨⟩
    exact hc
  | .move c x y, hc => exact hc

theorem step_move_parentless {c : Nat} (hlive : s.links.alive c) (hc : s.links.parent c = none)
    (x y : Int) : s.step (.move c x y) = s := by
  obtain ⟨o, -, hrun, hparent, -⟩ := deref_run hlive
  have hmove : (move c x y).run s = (.ok (), s) := by
    refine (Prog.run_bind_ok hrun).trans ?_
    rw [← hparent, hc]
    rfl
  exact congrArg Prod.snd hmove

/-- One call on a scene assigns to its forest. -/
theorem step_represents (h : s.links.Represents f) (hop : s.Reparents op) :
    (op.exec.run s).1 = .ok () ∧ (s.step op).links.Represents (f.assign op) ∧ s.Frame op := by
  obtain ⟨hrun, hlinks⟩ := SceneOp.exec_run hop.legal h.consistent.parentsAlive
  refine ⟨by rw [hrun], ?_⟩
  match op, hop with
  | .add p (.window c) x y, ⟨hp, hc, hne⟩ =>
    change _ = s.links.add p (.window c) ⟨x, y⟩ at hlinks
    refine ⟨hlinks ▸ h.add hp hc hne ⟨x, y⟩, fun d hd => ?_, fun q k hk => ?_⟩
    · rw [hlinks, Links.add_parent, if_neg hd]
    · rw [hlinks, Links.add_entry, if_neg fun he => hk ⟨he.1, .inr he.2⟩,
        if_neg fun he => hk ⟨he.2, .inl he.1⟩]
  | .move c x y, hc =>
    change _ = s.links.move c ⟨x, y⟩ at hlinks
    exact ⟨hlinks ▸ h.move ⟨x, y⟩, fun hparent => step_move_parentless hc hparent x y⟩

/-- The recorded positions are those of the forest. -/
def Recorded (f : Forest) (last : Nat → Option PaintSourcePos) : Prop :=
  ∀ c pos, last c = some pos → ∃ p, f c = some (p, pos)

theorem Recorded.step (h : Recorded f last) (hs : s.links.Represents f) (hop : s.Reparents op) :
    Recorded (f.assign op) (s.record last op) := by
  intro d pos hd
  match op, hop with
  | .add p (.window c) x y, _ =>
    simp only [record] at hd
    by_cases hdc : d = c
    · subst hdc
      rw [Function.update_self] at hd
      cases hd
      exact ⟨p, by simp [Forest.assign]⟩
    · rw [Function.update_of_ne hdc] at hd
      simpa [Forest.assign, hdc] using h d pos hd
  | .move c x y, _ =>
    simp only [record, hs.parent, Option.isSome_map] at hd
    by_cases hdc : d = c
    · subst hdc
      cases hf : f d with
      | none =>
        obtain ⟨p, hp⟩ := h d pos (by simpa [hf] using hd)
        simp [hf] at hp
      | some place =>
        obtain rfl : ⟨x, y⟩ = pos := by simpa [hf] using hd
        exact ⟨place.1, by simp [Forest.assign, hf]⟩
    · have hlast : last d = some pos := by
        split at hd
        · rwa [Function.update_of_ne hdc] at hd
        · exact hd
      simpa [Forest.assign, hdc] using h d pos hlast

/-- A run of calls on a scene is a run of assignments to its forest. -/
theorem run_represents {ops : List SceneOp} (hs : s.links.Represents f) (h : Recorded f last)
    (hl : Run.Each step Reparents s ops) :
    (ops.foldl step s).links.Represents (ops.foldl Forest.assign f) ∧
      Recorded (ops.foldl Forest.assign f) (s.lastPositions last ops) ∧
      Run.Each step (fun s op => (op.exec.run s).1 = .ok () ∧ s.Frame op) s ops := by
  induction ops generalizing s f last with
  | nil => exact ⟨hs, h, trivial⟩
  | cons op ops ih =>
    obtain ⟨hop, hrest⟩ := hl
    obtain ⟨hrun, hstep, hframe⟩ := step_represents hs hop
    obtain ⟨hend, hlast, hframes⟩ := ih hstep (h.step hs hop) hrest
    exact ⟨hend, hlast, ⟨hrun, hframe⟩, hframes⟩

/-- **Reparenting and moving.** After any run of `add` calls on windows that are not yet children
and of `move` calls, from consistent links, the links are consistent, and a window that was added
or moved is in exactly one map, with the position that its last successful call set. On the way,
every call returns, `add` changes no entries but the old and the new one of its window, and `move`
without a parent changes nothing. -/
theorem reparenting (hs : s.links.Consistent) {ops : List SceneOp}
    (hl : Run.Each step Reparents s ops) :
    (ops.foldl step s).links.Consistent ∧
    (∀ c pos, s.lastPositions (fun _ => none) ops c = some pos →
      (∃! p, ((ops.foldl step s).links.entry p (.window c)).isSome) ∧
      ((Scene.x c).run (ops.foldl step s)).1 = .ok pos.x ∧
      ((Scene.y c).run (ops.foldl step s)).1 = .ok pos.y) ∧
    Run.Each step (fun s op => (op.exec.run s).1 = .ok () ∧ s.Frame op) s ops := by
  obtain ⟨hend, hlast, hframes⟩ := run_represents hs.represents
    (fun c pos (h : none = some pos) => by cases h) hl
  refine ⟨hend.consistent, fun c pos hc => ?_, hframes⟩
  obtain ⟨p, hp⟩ := hlast c pos hc
  have hparent : (ops.foldl step s).links.parent c = some p := by rw [hend.parent, hp]; rfl
  have hentry : (ops.foldl step s).links.entry p (.window c) = some pos := by
    simp [hend.entry, hp]
  refine ⟨⟨p, by simp [hentry], fun q hq => ?_⟩, ?_, ?_⟩
  · have hq' := (hend.consistent.agree q c).mp hq
    exact Option.some.inj (hq'.symm.trans hparent)
  · exact congrArg Prod.fst (coordinate_run hparent hentry _)
  · exact congrArg Prod.fst (coordinate_run hparent hentry _)

/-- The child of one window goes to another, which then goes to the first one. -/
theorem reparenting_three :
    let ops : List SceneOp :=
      [.add 2 (.window 1) 3 3, .move 1 0 2, .add 0 (.window 2) 1 1, .move 0 5 5]
    (ops.foldl step three).links.Consistent ∧
      ((Scene.y 1).run (ops.foldl step three)).1 = .ok 2 := by
  intro ops
  have hl : Run.Each step Reparents three ops :=
    ⟨⟨by decide, by decide, by decide⟩, show (Links.alive _ _) by decide,
      ⟨by decide, by decide, by decide⟩, show (Links.alive _ _) by decide, trivial⟩
  obtain ⟨hend, hpositions, -⟩ := reparenting three_consistent hl
  exact ⟨hend, (hpositions 1 ⟨0, 2⟩ (by decide)).2.2⟩

end Scene

end Ws2812
