import Ws2812Strip.Draw

/-!
# When drawing stays on the device

`draw` tests its targets against the right and the bottom edge only. `Contained` says that a call
stays on the device: every LED it accesses exists, no sum `x + dx` or `y + dy` overflows, and no
pixel outside the target rectangle changes. `contained_iff` gives the exact condition on the
arguments, `InBounds`: of the source pixels that the loops reach, none has a sum beyond `INT_MAX`,
and one whose target is to the left of the device or above it is hidden by the colour key.

* `covers_inv`: what the loops reach is recorded in the trace, unless an earlier step has already
  left the device. So a contained call satisfies `InBounds`.
* `safe_inv`: under `InBounds` every step is safe.
-/

namespace Ws2812

open IPaintDevice Grid

namespace Placement

variable (a : Placement) (r : IRotatablePaintDevice)

/-- The condition under which `draw` stays on a device with the fields `r`. -/
structure InBounds : Prop where
  row_le : ∀ sy, 0 ≤ sy ∧ sy < a.src.height → a.Reached r (0, sy) → a.row sy ≤ INT_MAX
  col_le : ∀ s, a.src.Inside s.1 s.2 → a.row s.2 < r.height → a.Reached r s →
    a.col s.1 ≤ INT_MAX
  shown : ∀ s, a.Read r s → a.Reached r s → ∀ c, a.src.led s.1 s.2 = .ok c →
    ¬ (r.transparent_ = true ∧ c = r.back) → 0 ≤ a.col s.1 ∧ 0 ≤ a.row s.2

variable {a r}

/-- An offset that is not negative and fits is in bounds for every source. -/
theorem Fits.inBounds (h : a.Fits) : a.InBounds r where
  row_le _ hsy _ := (h.row_bounds hsy).2.2
  col_le _ hs _ _ := (h.col_bounds hs.1).2.2
  shown _ hs _ _ _ _ := ⟨(h.col_bounds hs.1.1).1, (h.row_bounds hs.1.2).1⟩

end Placement

section Containment

variable {D : Type} {r : IRotatablePaintDevice} {s : Session D}

/-- A trace that stays on a device with the fields `r` and overflows nowhere. -/
structure Safe (r : IRotatablePaintDevice) (t : List Event) : Prop where
  sums : ∀ n, .sum n ∈ t → IsInt n
  accesses : ∀ x y, .access x y ∈ t → (x, y) ∈ r.logical

theorem Safe.push_sum {n : Int} (h : Safe r s.trace) (hn : IsInt n) :
    Safe r (s.push (.sum n)).trace where
  sums m hm := by
    rcases Session.mem_push.mp hm with he | hm
    · cases he
      exact hn
    · exact h.sums m hm
  accesses x y hm := by
    rcases Session.mem_push.mp hm with he | hm
    · cases he
    · exact h.accesses x y hm

theorem Safe.push_access {x y : Int} (h : Safe r s.trace)
    (hp : (x, y) ∈ r.logical) : Safe r (s.push (.access x y)).trace where
  sums m hm := by
    rcases Session.mem_push.mp hm with he | hm
    · cases he
    · exact h.sums m hm
  accesses x' y' hm := by
    rcases Session.mem_push.mp hm with he | hm
    · cases he
      exact hp
    · exact h.accesses x' y' hm

variable [IPaintDevice D]

/-- The call `draw(src, x, y, flip_x, flip_y)` on `d` stays on the device. -/
structure Contained (d : D) (a : Placement) : Prop where
  accesses : ∀ x y, .access x y ∈ ((draw a.src a.x a.y a.flipX a.flipY).run ⟨d, []⟩).2.trace →
    (0 ≤ x ∧ x < width d) ∧ (0 ≤ y ∧ y < height d) ∧
    ∃ i, (base d).index (layout D) x y = .ok i ∧ 0 ≤ i ∧ i < (base d).width_ * (base d).height_
  sums : ∀ n, .sum n ∈ ((draw a.src a.x a.y a.flipX a.flipY).run ⟨d, []⟩).2.trace → IsInt n
  frame : ∀ px py, 0 ≤ px ∧ px < width d → 0 ≤ py ∧ py < height d →
    ¬ ((a.x ≤ px ∧ px < a.x + a.src.width) ∧ a.y ≤ py ∧ py < a.y + a.src.height) →
    led ((draw a.src a.x a.y a.flipX a.flipY).run ⟨d, []⟩).2.dev px py = led d px py

/-! ## What the loops reach is recorded -/

/-- The trace has what the loops do in the source rows before `m` and at the pixels before `n`. -/
structure Covers (a : Placement) (r : IRotatablePaintDevice) (m : Int) (n : Int × Int)
    (t : List Event) : Prop where
  rows : ∀ sy, 0 ≤ sy ∧ sy < a.src.height → sy < m → a.Reached r (0, sy) → .sum (a.row sy) ∈ t
  cols : ∀ s, a.src.Inside s.1 s.2 → Precedes s n → a.row s.2 < r.height → a.Reached r s →
    .sum (a.col s.1) ∈ t
  shown : ∀ s, Precedes s n → a.Read r s → a.Reached r s → ∀ c, a.src.led s.1 s.2 = .ok c →
    ¬ (r.transparent_ = true ∧ c = r.back) → .access (a.col s.1) (a.row s.2) ∈ t

variable {a : Placement}

theorem Covers.mono {m : Int} {n : Int × Int} {t t' : List Event} (h : Covers a r m n t)
    (ht : t ⊆ t') : Covers a r m n t' where
  rows sy h1 h2 h3 := ht (h.rows sy h1 h2 h3)
  cols s h1 h2 h3 h4 := ht (h.cols s h1 h2 h3 h4)
  shown s h1 h2 h3 c h4 h5 := ht (h.shown s h1 h2 h3 c h4 h5)

/-- The trace after the pixel `n`. -/
theorem Covers.next {m : Int} {n : Int × Int} {t : List Event} (h : Covers a r m n t)
    (hcol : .sum (a.col n.1) ∈ t)
    (hshown : a.Read r n → ∀ c, a.src.led n.1 n.2 = .ok c →
      ¬ (r.transparent_ = true ∧ c = r.back) → .access (a.col n.1) (a.row n.2) ∈ t) :
    Covers a r m (n.1 + 1, n.2) t where
  rows := h.rows
  cols s hin hs := by
    rcases precedes_succ_iff.mp hs with hs | rfl
    · exact h.cols s hin hs
    · exact fun _ _ => hcol
  shown s hs := by
    rcases precedes_succ_iff.mp hs with hs | rfl
    · exact h.shown s hs
    · exact fun hread _ => hshown hread

theorem Covers.nextRow {m sy : Int} {t : List Event}
    (h : Covers a r m ((a.src.width.toNat : Int), sy) t) : Covers a r m (0, sy + 1) t where
  rows := h.rows
  cols s hin hs := h.cols s hin (hs.endOfRow hin.1)
  shown s hs hread := h.shown s (hs.endOfRow hread.1.1) hread

theorem Covers.skipRow {m sy : Int} {t : List Event} (h : Covers a r m (0, sy) t)
    (hrow : a.row sy ≥ r.height) : Covers a r m (0, sy + 1) t where
  rows := h.rows
  cols s hin hs hrow' := by
    have hne : s.2 ≠ sy := by
      rintro rfl
      omega
    exact h.cols s hin (hs.startOfRow hin.1.1 hne) hrow'
  shown s hs hread := h.shown s (hs.startOfRow hread.1.1.1 (hread.row_ne hrow)) hread

omit [IPaintDevice D] in
theorem Covers.pushRow {sy : Int} {n : Int × Int} {s : Session D}
    (h : Covers a r sy n s.trace) : Covers a r (sy + 1) n (s.push (.sum (a.row sy))).trace where
  rows sy' h0 hlt hr := by
    by_cases he : sy' = sy
    · subst he
      exact Session.mem_push_self ..
    · exact Session.subset_push _ _ (h.rows sy' h0 (by omega) hr)
  cols s' h1 h2 h3 h4 := Session.subset_push _ _ (h.cols s' h1 h2 h3 h4)
  shown s' h1 h2 h3 c h4 h5 := Session.subset_push _ _ (h.shown s' h1 h2 h3 c h4 h5)

/-- A source that stops at a pixel that the loops read ends the call: nothing after it is
reached. -/
theorem Covers.of_fault {n : Int × Int} {t : List Event} {e : Fault} {m : Int} {k : Int × Int}
    (h : Covers a r (n.2 + 1) n t) (hn : a.Read r n) (hcol : .sum (a.col n.1) ∈ t)
    (hled : a.src.led n.1 n.2 = .error e) : Covers a r m k t := by
  have hend : ∀ s, Precedes n s → ¬ a.Reached r s := by
    intro s hs hr
    obtain ⟨c, hc⟩ := hr n hs hn
    rw [hled] at hc
    cases hc
  refine ⟨fun sy hsy _ hr => ?_, fun s hin _ hrow hr => ?_, fun s _ hread hr c hc hkey => ?_⟩
  · refine h.rows sy hsy ?_ hr
    by_contra hge
    exact hend (0, sy) (.inl (by simp only; omega)) hr
  · rcases precedes_trichotomy s n with hs | rfl | hs
    · exact h.cols s hin hs hrow hr
    · exact hcol
    · exact absurd hr (hend s hs)
  · rcases precedes_trichotomy s n with hs | rfl | hs
    · exact h.shown s hs hread hr c hc hkey
    · rw [hled] at hc
      cases hc
    · exact absurd hr (hend s hs)

/-- The call has stayed on the device so far. -/
def Inside (a : Placement) (r : IRotatablePaintDevice) (old : Int × Int → LedColor)
    (s : Session D) : Prop :=
  Shape r s ∧ Safe r s.trace ∧ ∀ p ∈ r.logical, ¬ a.rectangle p → pix s.dev p = old p

theorem Inside.push_sum {old : Int × Int → LedColor} {s : Session D} {n : Int}
    (h : Inside a r old s) (hn : IsInt n) : Inside a r old (s.push (.sum n)) :=
  ⟨h.1, h.2.1.push_sum hn, h.2.2⟩

variable [LawfulPaintDevice D]

/-- What the loops reach is recorded, unless the call has left the device before. -/
theorem covers_inv :
    DrawInv (D := D) a r (fun sy s => Shape r s ∧ Covers a r sy (0, sy) s.trace)
      (fun n s => Shape r s ∧ Covers a r (n.2 + 1) n s.trace)
      (fun _ s => Safe r s.trace →
        Covers a r a.src.height.toNat (0, (a.src.height.toNat : Int)) s.trace) where
  base_row h := h.1.2
  base_pix h := h.1.2
  rowOverflow _ _ hint hsafe := absurd (hsafe.sums _ (Session.mem_push_self ..)) hint
  rowSkip _ h _ hrow := ⟨h.1, h.2.pushRow.skipRow hrow⟩
  rowEnter _ h _ _ := ⟨h.1, h.2.pushRow⟩
  rowLeave h := ⟨h.1, h.2.nextRow⟩
  pixOverflow _ _ _ hint hsafe := absurd (hsafe.sums _ (Session.mem_push_self ..)) hint
  pixSkip _ h _ hcol := ⟨h.1, (h.2.mono (Session.subset_push ..)).next
    (Session.mem_push_self ..) fun hread => absurd hread.2.1 (not_lt.mpr hcol)⟩
  pixFault hn h hrow _ hcol hled _ := (h.2.mono (Session.subset_push ..)).of_fault
    ⟨hn, hcol, hrow⟩ (Session.mem_push_self ..) hled
  pixKey := by
    intro n s c _ h _ hled hkey
    refine ⟨h.1, (h.2.mono (Session.subset_push ..)).next (Session.mem_push_self ..)
      fun _ c' hc' hkey' => ?_⟩
    rw [hled] at hc'
    cases hc'
    exact absurd hkey hkey'
  pixWrite := by
    intro n s c hn h hrow hint hcol hled _
    have hkeep := (Shape.stable r).writeLed (a.col n.1) (a.row n.2) c
      (s.push (.sum (a.col n.1))) h.1
    have hcov : ∀ t, .sum (a.col n.1) ∈ t → .access (a.col n.1) (a.row n.2) ∈ t → s.trace ⊆ t →
        Covers a r (n.2 + 1) (n.1 + 1, n.2) t := fun t hsum hacc hsub =>
      (h.2.mono hsub).next hsum fun _ _ _ _ => hacc
    rcases writeLed_cases (s.push (.sum (a.col n.1))) (a.col n.1) (a.row n.2) c with
      ⟨i, -, hrun⟩ | ⟨e, -, hrun⟩
    · rw [hrun] at hkeep ⊢
      exact ⟨hkeep, hcov _ (List.mem_cons_of_mem _ (List.mem_cons_self ..))
        (List.mem_cons_self ..) fun _ he => List.mem_cons_of_mem _ (List.mem_cons_of_mem _ he)⟩
    · -- a write that faults is off the device, so the trace is not safe
      rw [hrun]
      intro hsafe
      have hmem := hsafe.accesses _ _ (Session.mem_push_self ..)
      obtain ⟨⟨hwf, hb⟩, -⟩ := h
      have hmem' : (a.col n.1, a.row n.2) ∈ logical (s.push (.sum (a.col n.1))).dev :=
        (mem_logical_iff hb).mpr hmem
      obtain ⟨d', hok, -⟩ := Wf.writeLed_run (s := s.push (.sum (a.col n.1))) hwf hmem' c
      simp only at hok
      rw [hrun] at hok
      cases hok

/-- A call that stays on the device satisfies the condition. -/
theorem inBounds_of_safe {d : D} (h : Wf d) (hsize : a.src.Sized)
    (hsafe : Safe (base d) ((draw a.src a.x a.y a.flipX a.flipY).run ⟨d, []⟩).2.trace) :
    a.InBounds (base d) := by
  have hstart : Covers a (base d) 0 (0, 0) [] :=
    ⟨fun sy h0 hlt => absurd h0.1 (by omega), fun s hin hs => absurd hs (not_precedes_start hin),
      fun s hs hread => absurd hs (not_precedes_start hread.1)⟩
  have hcov : Covers a (base d) a.src.height.toNat (0, (a.src.height.toNat : Int))
      ((draw a.src a.x a.y a.flipX a.flipY).run ⟨d, []⟩).2.trace := by
    have ht := (covers_inv (D := D) (a := a) (r := base d)).triple hsize ⟨d, []⟩
      ⟨⟨h, rfl⟩, hstart⟩
    exact ht.state (P := fun s => Safe (base d) s.trace → Covers a (base d) _ _ s.trace)
      (fun _ _ hs _ => hs.2) (fun _ _ hs => hs) hsafe
  refine ⟨fun sy hsy hr => ?_, fun s hin hrow hr => ?_, fun s hread hr c hc hkey => ?_⟩
  · exact (hsafe.sums _ (hcov.rows sy hsy (by omega) hr)).2
  · exact (hsafe.sums _ (hcov.cols s hin (precedes_end hin) hrow hr)).2
  · have hmem := hsafe.accesses _ _
      (hcov.shown s (precedes_end hread.1) hread hr c hc hkey)
    exact ⟨hmem.1.1, hmem.2.1⟩

/-! ## Under the condition every step is safe -/

/-- A source pixel has its place in the target rectangle. -/
theorem rectangle_toDevice {s : Int × Int} (h : a.src.Inside s.1 s.2) :
    a.rectangle (a.toDevice s) := by
  rw [← a.inside_toSource_iff, a.toSource_toDevice]
  exact h

theorem safe_inv (old : Int × Int → LedColor) (hx : INT_MIN ≤ a.x) (hy : INT_MIN ≤ a.y)
    (h : a.InBounds r) :
    DrawInv (D := D) a r (fun sy s => Inside a r old s ∧ a.Reached r (0, sy))
      (fun n s => Inside a r old s ∧ a.Reached r n) (fun _ s => Inside a r old s) := by
  have hrowInt : ∀ {sy}, 0 ≤ sy ∧ sy < a.src.height → a.Reached r (0, sy) → IsInt (a.row sy) := by
    intro sy hsy hr
    refine ⟨?_, h.row_le sy hsy hr⟩
    have := ((mirrored_lt_iff a.flipY).mpr hsy).1
    unfold Placement.row
    omega
  have hcolInt : ∀ {n : Int × Int}, a.src.Inside n.1 n.2 → a.row n.2 < r.height →
      a.Reached r n → IsInt (a.col n.1) := by
    intro n hn hrow hr
    refine ⟨?_, h.col_le n hn hrow hr⟩
    have := ((mirrored_lt_iff a.flipX).mpr hn.1).1
    unfold Placement.col
    omega
  exact {
    base_row := fun hs => hs.1.1.2
    base_pix := fun hs => hs.1.1.2
    rowOverflow := fun hsy hs hint => absurd (hrowInt hsy hs.2) hint
    rowSkip := fun _ hs hint hrow => ⟨hs.1.push_sum hint, hs.2.skipRow hrow⟩
    rowEnter := fun _ hs hint _ => ⟨hs.1.push_sum hint, hs.2⟩
    rowLeave := fun hs => ⟨hs.1, hs.2.nextRow⟩
    pixOverflow := fun hn hs hrow hint => absurd (hcolInt hn hrow hs.2) hint
    pixSkip := fun _ hs hint hcol => ⟨hs.1.push_sum hint,
      hs.2.next fun hread => absurd hread.2.1 (not_lt.mpr hcol)⟩
    pixFault := fun _ hs _ hint _ _ => hs.1.push_sum hint
    pixKey := fun _ hs hint hled _ => ⟨hs.1.push_sum hint, hs.2.next fun _ => ⟨_, hled⟩⟩
    pixWrite := by
      intro n s c hn hs hrow hint hcol hled hkey
      obtain ⟨hx0, hy0⟩ := h.shown n ⟨hn, hcol, hrow⟩ hs.2 c hled hkey
      have hmem : a.toDevice n ∈ r.logical := ⟨⟨hx0, hcol⟩, hy0, hrow⟩
      obtain ⟨⟨⟨hwf, hb⟩, hsafe, hframe⟩, hreach⟩ := hs
      have hlog : ∀ p, p ∈ r.logical → p ∈ logical (s.push (.sum (a.col n.1))).dev :=
        fun p => (mem_logical_iff hb).mpr
      obtain ⟨d', hrun, hwf', hb', -, hpix⟩ :=
        Wf.writeLed_run (s := s.push (.sum (a.col n.1))) hwf (hlog _ hmem) c
      have hrun' : (writeLed (a.col n.1) (a.row n.2) c).run (s.push (.sum (a.col n.1))) =
        (.ok (), { (s.push (.sum (a.col n.1))).push (.access (a.col n.1) (a.row n.2)) with
          dev := d' }) := hrun
      rw [hrun']
      refine ⟨⟨⟨hwf', hb'.trans hb⟩, (hsafe.push_sum hint).push_access hmem, fun p hp hout => ?_⟩,
        hreach.next fun _ => ⟨c, hled⟩⟩
      rw [hpix p (hlog p hp), if_neg, Session.push_dev, hframe p hp hout]
      rintro rfl
      exact hout (rectangle_toDevice hn) }

/-- Under the condition a call stays on the device. -/
theorem inside_of_inBounds {d : D} (hwf : Wf d) (hsize : a.src.Sized) (hx : INT_MIN ≤ a.x)
    (hy : INT_MIN ≤ a.y) (h : a.InBounds (base d)) :
    Inside a (base d) (pix d) ((draw a.src a.x a.y a.flipX a.flipY).run ⟨d, []⟩).2 := by
  have ht := (safe_inv (D := D) (pix d) hx hy h).triple hsize ⟨d, []⟩
    ⟨⟨⟨hwf, rfl⟩, ⟨by simp, by simp⟩, fun _ _ _ => rfl⟩, Placement.reached_zero⟩
  exact ht.state (fun _ _ hs => hs.1) fun _ _ hs => hs

end Containment

/-- **When drawing stays on the device.** On a reachable device, for every pair of `int` offsets,
a call of `draw` is contained exactly when its arguments are in bounds. -/
theorem contained_iff {D : Type} [IPaintDevice D] [LawfulPaintDevice D] {d : D}
    (hd : Reachable d) (src : PaintSource) (hw : 0 ≤ src.width ∧ src.width ≤ INT_MAX)
    (hh : 0 ≤ src.height ∧ src.height ≤ INT_MAX) (x y : Int) (hx : IsInt x) (hy : IsInt y)
    (flipX flipY : Bool) :
    Contained d ⟨src, x, y, flipX, flipY⟩ ↔
      Placement.InBounds ⟨src, x, y, flipX, flipY⟩ (base d) := by
  have hwf := hd.wf
  have hsize : src.Sized := ⟨hw.2, hh.2⟩
  constructor
  · intro hc
    refine inBounds_of_safe hwf hsize ⟨hc.sums, fun px py hm => ?_⟩
    obtain ⟨h1, h2, -⟩ := hc.accesses px py hm
    exact ⟨h1, h2⟩
  · intro h
    obtain ⟨⟨hwf', hb⟩, hsafe, hframe⟩ := inside_of_inBounds (a := ⟨src, x, y, flipX, flipY⟩) hwf
      hsize hx.1 hy.1 h
    refine ⟨fun px py hm => ?_, hsafe.sums, fun px py hpx hpy hout => ?_⟩
    · have hmem : (px, py) ∈ (base d).logical := hsafe.accesses px py hm
      have hindex := hwf.fields.index_ok (layout D) hmem
      obtain ⟨hpos, hlt⟩ := mem_below.mp ((hwf.fields.bijOn_cell (layout D)).mapsTo hmem)
      exact ⟨hmem.1, hmem.2, _, hindex, hpos, hlt⟩
    · have hmem : (px, py) ∈ (base d).logical := ⟨hpx, hpy⟩
      have hmem' : (px, py) ∈ logical
          ((draw src x y flipX flipY).run (⟨d, []⟩ : Session D)).2.dev :=
        (mem_logical_iff hb).mpr hmem
      have h1 := hwf'.led_ok hmem'
      have h2 := hwf.led_ok (p := (px, py)) hmem
      rw [h1, h2, hframe _ hmem hout]

/-- A row that sticks out on both sides: the colour key hides its first pixel, the second and the
third are written and the last one is clipped. -/
theorem contained_iff_row :
    Contained ((DeviceOp.setTransparent true).after (Pixmap.make 2 2 Led.black))
        ⟨.row [Led.black, Led.red, Led.green, Led.red], -1, 1, false, false⟩ ∧
      led ((DeviceOp.draw (.row [Led.black, Led.red, Led.green, Led.red]) (-1) 1 false false).after
        ((DeviceOp.setTransparent true).after (Pixmap.make 2 2 Led.black))) 1 1 =
          .ok Led.green := by
  refine ⟨(contained_iff (.step _ (.fresh (Pixmap.fresh_make (by decide) (by decide) (by decide))))
    (.row [Led.black, Led.red, Led.green, Led.red]) (by decide) (by decide) (-1) 1 (by decide)
    (by decide) false false).mpr ⟨fun sy hsy _ => ?_, fun s hs _ _ => ?_,
      fun s hs _ c hc hkey => ?_⟩, by decide⟩
  · simp only [Placement.row, mirrored, PaintSource.row, INT_MAX] at hsy ⊢
    omega
  · obtain ⟨⟨hx0, hx1⟩, -⟩ := hs
    simp only [Placement.col, mirrored, PaintSource.row, List.length_cons, List.length_nil,
      INT_MAX] at hx1 ⊢
    omega
  · obtain ⟨⟨⟨hx0, -⟩, hy0, -⟩, -⟩ := hs
    have hx : s.1 ≠ 0 := by
      intro h0
      rw [h0] at hc
      cases hc
      exact hkey ⟨rfl, rfl⟩
    simp only [Placement.col, Placement.row, mirrored, Bool.false_eq_true, if_false]
    omega

/-- A dot one column to the left of a strip: the write of `(-1, 2)` lands on the LED of `(0, 1)`. -/
theorem not_contained_left :
    ¬ Contained ((WS2811Strip.make 2 3 Led.black).init (some fun _ => Led.black))
        ⟨.solid 1 1 Led.red, -1, 2, false, false⟩ ∧
      led ((DeviceOp.draw (.solid 1 1 Led.red) (-1) 2 false false).after
        ((WS2811Strip.make 2 3 Led.black).init (some fun _ => Led.black))) 0 1 = .ok Led.red := by
  refine ⟨fun h => ?_, by decide⟩
  have := (h.accesses (-1) 2 (by decide)).1.1
  exact absurd this (by decide)

end Ws2812
