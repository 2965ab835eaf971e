import Ws2812Strip.Scene
import Ws2812Strip.Lib.Run

/-!
# What the methods of `Window` do to consistent links

* `unlinked_iff`: `~Window` clears the entry of its window in the parent, but not `parent_` of the
  children, so it leaves no dangling pointer exactly when the window has no child windows.
* `not_repositions`: `add` on a current child erases the entry that it has just written, so it
  never moves the child.
* `removals_iff`: `remove` clears `parent_` whatever it is, so it leaves a window that is no child
  alone exactly when that has no parent.
-/

namespace Ws2812

namespace Links

variable {l : Links} {p c : Nat}

/-- In consistent links a window is in the map of its parent only. -/
theorem Consistent.entry_eq_none (h : l.Consistent) (hp : l.parent c ≠ some p) :
    l.entry p (.window c) = none := by
  by_contra hne
  exact hp ((h.agree p c).mp (Option.isSome_iff_ne_none.mpr hne))

/-- A scene without windows. -/
theorem consistent_empty : (Scene.mk fun _ => none).links.Consistent where
  agree p c := by simp [Scene.links]
  alive p c h := by simp [Scene.links] at h

/-- A new window at a free address. -/
theorem Consistent.fresh (h : l.Consistent) (hc : ¬ l.alive c) : (l.fresh c).Consistent where
  agree q d := by
    have hq : ∀ q d, l.parent d = some q → q ≠ c ∧ d ≠ c := fun q d hd =>
      ⟨fun he => hc (he ▸ (h.alive q d hd).1), fun he => hc (he ▸ (h.alive q d hd).2)⟩
    have hagree := h.agree q d
    by_cases hqc : q = c
    · have hnone : l.parent d ≠ some c := fun hd => (hq c d hd).1 rfl
      by_cases hdc : d = c <;> simp [Links.fresh, hqc, hdc, hnone]
    · by_cases hdc : d = c
      · have hnone : ¬ l.parent c = some q := fun hd => (hq q c hd).2 rfl
        rw [hdc] at hagree
        simp [Links.fresh, hqc, hdc, hagree, hnone]
      · simpa [Links.fresh, hqc, hdc] using hagree
  alive q d hd := by
    by_cases hdc : d = c
    · simp [Links.fresh, hdc] at hd
    · simp only [Links.fresh, hdc, if_false] at hd
      exact ⟨.inr (h.alive q d hd).1, .inr (h.alive q d hd).2⟩

/-- A window that moves to another parent, or to its first. -/
theorem Consistent.add (h : l.Consistent) (hp : l.alive p) (hc : l.alive c)
    (hne : l.parent c ≠ some p) (pos : PaintSourcePos) :
    (l.add p (.window c) pos).Consistent where
  agree q d := by
    have hagree := h.agree q d
    rw [add_entry, add_parent]
    by_cases hd : d = c
    · subst hd
      by_cases hq : l.parent d = some q
      · have hqp : ¬ p = q := fun he => hne (he ▸ hq)
        simp [hq, hqp]
      · by_cases hqp : q = p
        · simp [hqp, hne]
        · have hnone := h.entry_eq_none hq
          simp [hq, hqp, hnone, Ne.symm hqp]
    · simpa [hd] using hagree
  alive q d hd := by
    rw [add_parent] at hd
    rw [add_alive]
    by_cases hdc : d = c
    · rw [if_pos hdc] at hd
      cases hd
      exact ⟨hp, hdc ▸ hc⟩
    · rw [if_neg hdc] at hd
      exact h.alive q d hd

/-- A new position for a window. -/
theorem Consistent.move (h : l.Consistent) (pos : PaintSourcePos) : (l.move c pos).Consistent where
  agree q d := by
    have hagree := h.agree q d
    rw [move_entry, move_parent]
    by_cases hd : d = c
    · subst hd
      by_cases hq : l.parent d = some q
      · simp [hq]
      · simp [hq, h.entry_eq_none hq]
    · simpa [hd] using hagree
  alive q d hd := by
    rw [move_parent] at hd
    rw [move_alive]
    exact h.alive q d hd

/-- A child that its parent removes. -/
theorem Consistent.remove (h : l.Consistent) (hc : l.parent c = none ∨ l.parent c = some p) :
    (l.remove p (.window c)).Consistent where
  agree q d := by
    have hagree := h.agree q d
    rw [remove_entry, remove_parent]
    by_cases hd : d = c
    · subst hd
      by_cases hq : q = p
      · simp [hq]
      · have hne : l.parent d ≠ some q := by
          rcases hc with hc | hc
          · simp [hc]
          · simp [hc, Ne.symm hq]
        simp [hq, h.entry_eq_none hne]
    · simpa [hd] using hagree
  alive q d hd := by
    rw [remove_parent] at hd
    rw [remove_alive]
    by_cases hdc : d = c
    · simp [hdc] at hd
    · rw [if_neg hdc] at hd
      exact h.alive q d hd

/-- An image that a window removes. -/
theorem Consistent.remove_image (h : l.Consistent) (i : Nat) :
    (l.remove p (.image i)).Consistent where
  agree q d := by simpa using h.agree q d
  alive q d hd := h.alive q d hd

end Links

namespace Scene

variable {s : Scene} {w p c : Nat}

/-- The constructor keeps links consistent. -/
theorem consistent_construct (hs : s.links.Consistent) (parent : Option Nat) (w h x y : Int)
    (hc : ¬ s.links.alive c) (hp : ∀ p, parent = some p → s.links.alive p) :
    (s.step (.construct c w h parent x y)).links.Consistent := by
  have hop : (SceneOp.construct c w h parent x y).Legal s.links := ⟨hc, hp⟩
  rw [(SceneOp.exec_run hop hs.parentsAlive).2]
  show (s.links.construct c parent ⟨x, y⟩).Consistent
  cases parent with
  | none => exact hs.fresh hc
  | some p =>
    refine (hs.fresh hc).add (.inr (hp p rfl)) (.inl rfl) ?_ _
    simp [Links.fresh]

/-- A window `0` with a child `1`, and a window `2` without links. -/
def three : Scene :=
  (((Scene.mk fun _ => none).step (.construct 0 8 8 none 0 0)).step
    (.construct 1 4 4 (some 0) 2 1)).step (.construct 2 4 4 none 0 0)

theorem three_consistent : three.links.Consistent := by
  have h0 := consistent_construct (c := 0) Links.consistent_empty none 8 8 0 0 (by decide) nofun
  have h1 := consistent_construct (c := 1) h0 (some 0) 4 4 2 1 (by decide)
    (by rintro p ⟨⟩; decide)
  exact consistent_construct (c := 2) h1 none 4 4 0 0 (by decide) nofun

/-! ## Destruction -/

/-- `~Window` of `w` clears the pointers to `w` and no others, so that later calls on live windows
find live windows. -/
structure Unlinked (s : Scene) (w : Nat) : Prop where
  returns : ((SceneOp.destroy w).exec.run s).1 = .ok ()
  parents : ∀ c, (s.step (.destroy w)).links.parent c ≠ some w
  entries : ∀ p, (s.step (.destroy w)).links.entry p (.window w) = none
  parent_frame : ∀ c, c ≠ w → s.links.parent c ≠ some w →
    (s.step (.destroy w)).links.parent c = s.links.parent c
  entry_frame : ∀ p k, p ≠ w → k ≠ .window w →
    (s.step (.destroy w)).links.entry p k = s.links.entry p k
  later : ∀ op : SceneOp, op.Legal (s.step (.destroy w)).links →
    (op.exec.run (s.step (.destroy w))).1 = .ok ()

/-- **Destruction.** On consistent links, destroying a window leaves no pointer to it exactly when
no other window has it as its parent. -/
theorem unlinked_iff (hs : s.links.Consistent) (hw : s.links.alive w) :
    s.Unlinked w ↔ ∀ c, c ≠ w → s.links.parent c ≠ some w := by
  have hop : (SceneOp.destroy w).Legal s.links := hw
  obtain ⟨hrun, hlinks⟩ := SceneOp.exec_run hop hs.parentsAlive
  change _ = s.links.destroy w at hlinks
  constructor
  · intro h c hc hparent
    refine h.parents c ?_
    rw [hlinks, Links.destroy_parent, if_neg hc, hparent]
  · intro h
    have hparents : ∀ c, (s.step (.destroy w)).links.parent c ≠ some w := by
      intro c
      rw [hlinks, Links.destroy_parent]
      split
      · simp
      · exact h c ‹_›
    refine ⟨by rw [hrun], hparents, fun p => ?_, fun c hc _ => ?_, fun p k hp hk => ?_, ?_⟩
    · rw [hlinks, Links.destroy_entry]
      split
      · rfl
      split
      · rfl
      exact hs.entry_eq_none fun hp => ‹¬ (_ ∧ _)› ⟨rfl, hp⟩
    · rw [hlinks, Links.destroy_parent, if_neg hc]
    · rw [hlinks, Links.destroy_entry, if_neg hp, if_neg fun he => hk he.1]
    · intro op hop
      refine congrArg Prod.fst (SceneOp.exec_run hop fun c p hp => ?_).1
      have hne : p ≠ w := fun he => hparents c (he ▸ hp)
      rw [hlinks, Links.destroy_parent] at hp
      rw [hlinks, Links.destroy_alive]
      split at hp
      · cases hp
      · exact ⟨hne, (hs.alive p c hp).1⟩

/-- The child of a window can go. -/
theorem unlinked_iff_child : three.Unlinked 1 :=
  (unlinked_iff three_consistent (by decide)).mpr fun c hc hp => by
    match c, hc with
    | 0, _ => cases hp
    | 2, _ => cases hp
    | c + 3, _ => cases hp

/-- A window that goes before its child leaves it with a dangling `parent_`. -/
theorem not_unlinked_parent :
    three.links.Consistent ∧ three.links.alive 0 ∧ ¬ three.Unlinked 0 :=
  ⟨three_consistent, by decide, fun h => h.parents 1 (by decide)⟩

/-! ## Adding a child again -/

/-- `p.add(c, x, y)` moves the child `c` of `p` to `(x, y)`, as `c.move(x, y)` does. -/
structure Repositions (s : Scene) (p c : Nat) (x y : Int) : Prop where
  returns : ((SceneOp.add p (.window c) x y).exec.run s).1 = .ok ()
  entry : (s.step (.add p (.window c) x y)).links.entry p (.window c) = some ⟨x, y⟩
  parent : (s.step (.add p (.window c) x y)).links.parent c = some p
  reads_x : ((Scene.x c).run (s.step (.add p (.window c) x y))).1 = .ok x
  reads_y : ((Scene.y c).run (s.step (.add p (.window c) x y))).1 = .ok y
  count : ((childrenCount p).run (s.step (.add p (.window c) x y))).1 =
    ((childrenCount p).run s).1
  entry_frame : ∀ q k, ¬ (q = p ∧ k = .window c) →
    (s.step (.add p (.window c) x y)).links.entry q k = s.links.entry q k
  parent_frame : ∀ d, (s.step (.add p (.window c) x y)).links.parent d = s.links.parent d
  as_move : s.step (.add p (.window c) x y) = s.step (.move c x y)

/-- What `add` on a child leaves: the child points to its parent, and is in no map. -/
theorem add_child_links (hs : s.links.Consistent) (hc : s.links.parent c = some p) (x y : Int) :
    (s.step (.add p (.window c) x y)).links.parent c = some p ∧
      ∀ q, (s.step (.add p (.window c) x y)).links.entry q (.window c) = none := by
  obtain ⟨hp, hlive⟩ := hs.alive p c hc
  have hop : (SceneOp.add p (.window c) x y).Legal s.links := by
    refine ⟨hp, ?_⟩
    rintro d ⟨⟩
    exact hlive
  rw [(SceneOp.exec_run hop hs.parentsAlive).2]
  refine ⟨(Links.add_parent ..).trans (if_pos rfl), fun q => (Links.add_entry ..).trans ?_⟩
  by_cases hq : q = p
  · rw [if_pos ⟨rfl, hq ▸ hc⟩]
  · have hne : s.links.parent c ≠ some q := by simp [hc, Ne.symm hq]
    rw [if_neg fun h => hne h.2, if_neg fun h => hq h.1, hs.entry_eq_none hne]

/-- **Adding a child again.** On consistent links, `add` on a child of the window never moves it. -/
theorem not_repositions (hs : s.links.Consistent) (hc : s.links.parent c = some p) (x y : Int) :
    ¬ s.Repositions p c x y := by
  intro h
  have hentry := h.entry
  rw [(add_child_links hs hc x y).2 p] at hentry
  cases hentry

/-- The child `1` of the window `0`, to the corner. -/
theorem not_repositions_corner : ¬ three.Repositions 0 1 0 0 :=
  not_repositions three_consistent (by decide) 0 0

/-- The child `1` of the window `0` is lost on its way to `(5, 3)`. -/
theorem not_repositioned :
    three.links.Consistent ∧ three.links.parent 1 = some 0 ∧ ¬ three.Repositions 0 1 5 3 :=
  ⟨three_consistent, by decide, fun h => absurd h.entry (by decide)⟩

/-! ## Removal -/

/-- `p.remove(c)` does nothing to a window that is no child of `p`, and clears the two pointers
between `p` and a child. -/
structure Removes (s : Scene) (p c : Nat) : Prop where
  returns : ((SceneOp.remove p (.window c)).exec.run s).1 = .ok ()
  other : s.links.parent c ≠ some p → (s.step (.remove p (.window c))).links = s.links
  child_parent : s.links.parent c = some p → ∀ d,
    (s.step (.remove p (.window c))).links.parent d =
      if d = c then none else s.links.parent d
  child_entry : s.links.parent c = some p → ∀ q k,
    (s.step (.remove p (.window c))).links.entry q k =
      if q = p ∧ k = .window c then none else s.links.entry q k

/-- `remove` clears `parent_` of a window that another window has as its child. -/
theorem removes_iff (hs : s.links.Consistent)
    (hop : (SceneOp.remove p (.window c)).Legal s.links) :
    s.Removes p c ↔ s.links.parent c = none ∨ s.links.parent c = some p := by
  obtain ⟨hrun, hlinks⟩ := SceneOp.exec_run hop hs.parentsAlive
  change _ = s.links.remove p (.window c) at hlinks
  constructor
  · intro h
    by_contra hne
    rw [not_or] at hne
    have hsame := congrArg (fun l => l.parent c) (h.other hne.2)
    simp only [hlinks, Links.remove_parent, if_true] at hsame
    exact hne.1 hsame.symm
  · intro h
    refine ⟨by rw [hrun], fun hother => ?_, fun _ d => ?_, fun _ q k => ?_⟩
    · have hnone := h.resolve_right hother
      rw [hlinks]
      refine Links.ext (Links.remove_alive ..) (funext fun d => ?_)
        (funext fun q => funext fun k => ?_)
      · rw [Links.remove_parent]
        split
        · rename_i hd
          rw [hd, hnone]
        · rfl
      · rw [Links.remove_entry]
        split
        · rename_i hq
          rw [hq.1, hq.2, hs.entry_eq_none hother]
        · rfl
    · rw [hlinks, Links.remove_parent]
    · rw [hlinks, Links.remove_entry]

/-- A call of `remove`. -/
def removal (s : Scene) (a : Nat × Ptr) : Scene := s.step (.remove a.1 a.2)

/-- The call names a window only if that has no parent, or is removed by it. -/
def OwnChild (s : Scene) (a : Nat × Ptr) : Prop :=
  ∀ c, a.2 = .window c → s.links.parent c = none ∨ s.links.parent c = some a.1

/-- **Removal.** In a run of `remove` calls from consistent links, every call does nothing to a
window that is no child, clears the pointers of one that is, and leaves every window in at most
one map, that of its parent, exactly when every window that is removed has no parent or is removed
by it. -/
theorem removals_iff (hs : s.links.Consistent) {calls : List (Nat × Ptr)}
    (hl : Run.Each removal (fun s a => (SceneOp.remove a.1 a.2).Legal s.links) s calls) :
    Run.Each removal (fun s a => (∀ c, a.2 = .window c → s.Removes a.1 c) ∧
      ∀ c p, ((removal s a).links.entry p (.window c)).isSome →
        (removal s a).links.parent c = some p ∧
          ∀ q, ((removal s a).links.entry q (.window c)).isSome → q = p) s calls ↔
    Run.Each removal OwnChild s calls := by
  have hkeep : ∀ (s : Scene) a, s.links.Consistent → (SceneOp.remove a.1 a.2).Legal s.links →
      OwnChild s a → (removal s a).links.Consistent := by
    rintro s ⟨p, child⟩ hs hop hown
    unfold removal
    rw [(SceneOp.exec_run hop hs.parentsAlive).2]
    cases child with
    | image i => exact hs.remove_image i
    | window c => exact hs.remove (hown c rfl)
  refine Run.each_iff (I := fun s => s.links.Consistent) (fun s a hs hop => ?_) hkeep hs hl
  have hiff : (∀ c, a.2 = .window c → s.Removes a.1 c) ↔ OwnChild s a := by
    refine forall_congr' fun c => forall_congr' fun hc => ?_
    rw [hc] at hop
    exact removes_iff hs hop
  refine (and_congr_left' hiff).trans (and_iff_left_of_imp fun hown c p hc => ?_)
  have hcons := hkeep s a hs hop hown
  have hp := (hcons.agree p c).mp hc
  exact ⟨hp, fun q hq => Option.some.inj (((hcons.agree q c).mp hq).symm.trans hp)⟩

/-- A child, a window without a parent and an image that is in no window. -/
theorem removals_iff_three :
    Run.Each removal (fun s a => (∀ c, a.2 = .window c → s.Removes a.1 c) ∧
      ∀ c p, ((removal s a).links.entry p (.window c)).isSome →
        (removal s a).links.parent c = some p ∧
          ∀ q, ((removal s a).links.entry q (.window c)).isSome → q = p)
      three [(0, .window 1), (1, .window 2), (2, .image 0)] :=
  (removals_iff three_consistent (by simp [Run.Each, SceneOp.Legal]; decide)).mpr
    (by simp [Run.Each, OwnChild]; decide)

/-- A window that is no parent of `1` takes its `parent_` away. -/
theorem not_removes :
    three.links.Consistent ∧ three.links.alive 2 ∧ three.links.parent 1 ≠ some 2 ∧
      ¬ three.Removes 2 1 := by
  refine ⟨three_consistent, by decide, by decide, fun h => ?_⟩
  have hsame := congrArg (fun l => l.parent 1) (h.other (by decide))
  exact absurd hsame (by decide)

end Scene

end Ws2812
