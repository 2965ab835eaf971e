import Mathlib.Data.Set.Function
import Mathlib.Tactic.Linarith

/-!
# Rectangular grids

Points of a `w × h` grid, the symmetries of a rectangle and the two ways to number its points.

* `rect w h`: the points with `0 ≤ x < w` and `0 ≤ y < h`.
* `mirrorX`, `mirrorY`, `transpose`: each is a bijection between rectangles (`bijOn_mirrorX`, ...),
  so every composition of them is (`Set.BijOn.comp`).
* `serpentine w`: every odd row reversed, a bijection of the rectangle on itself.
* `rowMajor w`: the number `y * w + x` of a point, a bijection onto `0, ..., w * h - 1`.
* `Adjacent`, `Corner`: what the symmetries keep. Along the serpentine numbers each point is next
  to the one before (`adjacent_of_serpentine`).
-/

namespace Grid

/-- The points of a `w × h` grid. -/
def rect (w h : Int) : Set (Int × Int) := {p | (0 ≤ p.1 ∧ p.1 < w) ∧ 0 ≤ p.2 ∧ p.2 < h}

/-- The numbers `0, ..., n - 1`. -/
def below (n : Int) : Set Int := {i | 0 ≤ i ∧ i < n}

theorem mem_rect {w h : Int} {p : Int × Int} :
    p ∈ rect w h ↔ (0 ≤ p.1 ∧ p.1 < w) ∧ 0 ≤ p.2 ∧ p.2 < h := Iff.rfl

theorem mem_below {n i : Int} : i ∈ below n ↔ 0 ≤ i ∧ i < n := Iff.rfl

instance (w h : Int) : DecidablePred (· ∈ rect w h) :=
  fun p => inferInstanceAs (Decidable ((0 ≤ p.1 ∧ p.1 < w) ∧ 0 ≤ p.2 ∧ p.2 < h))

/-- Columns in reverse order. -/
def mirrorX (w : Int) (p : Int × Int) : Int × Int := (w - 1 - p.1, p.2)

/-- Rows in reverse order. -/
def mirrorY (h : Int) (p : Int × Int) : Int × Int := (p.1, h - 1 - p.2)

/-- Rows and columns exchanged. -/
def transpose (p : Int × Int) : Int × Int := (p.2, p.1)

/-- Every odd row in reverse order. -/
def serpentine (w : Int) (p : Int × Int) : Int × Int :=
  (if p.2 % 2 = 0 then p.1 else w - 1 - p.1, p.2)

/-- The number of a point, row after row. -/
def rowMajor (w : Int) (p : Int × Int) : Int := p.2 * w + p.1

/-- The point with a number: the inverse of `rowMajor`. -/
def ofRowMajor (w : Int) (i : Int) : Int × Int := (i % w, i / w)

variable {w h : Int}

@[simp] theorem mirrorX_mirrorX (w : Int) (p : Int × Int) : mirrorX w (mirrorX w p) = p := by
  simp [mirrorX]

@[simp] theorem mirrorY_mirrorY (h : Int) (p : Int × Int) : mirrorY h (mirrorY h p) = p := by
  simp [mirrorY]

@[simp] theorem transpose_transpose (p : Int × Int) : transpose (transpose p) = p := rfl

@[simp] theorem serpentine_serpentine (w : Int) (p : Int × Int) :
    serpentine w (serpentine w p) = p := by
  unfold serpentine
  split <;> simp

/-- A map with a two-sided inverse is a bijection between sets that the two map into each
other. -/
theorem bijOn_of_inverse {α β : Type} {s : Set α} {t : Set β} {f : α → β} {g : β → α}
    (hf : Set.MapsTo f s t) (hg : Set.MapsTo g t s) (hgf : ∀ p ∈ s, g (f p) = p)
    (hfg : ∀ q ∈ t, f (g q) = q) : Set.BijOn f s t :=
  Set.InvOn.bijOn ⟨hgf, hfg⟩ hf hg

theorem mapsTo_mirrorX (w h : Int) : Set.MapsTo (mirrorX w) (rect w h) (rect w h) := by
  rintro ⟨x, y⟩ hp
  simp only [mem_rect, mirrorX] at hp ⊢
  omega

theorem bijOn_mirrorX (w h : Int) : Set.BijOn (mirrorX w) (rect w h) (rect w h) :=
  bijOn_of_inverse (mapsTo_mirrorX w h) (mapsTo_mirrorX w h) (by simp) (by simp)

theorem mapsTo_mirrorY (w h : Int) : Set.MapsTo (mirrorY h) (rect w h) (rect w h) := by
  rintro ⟨x, y⟩ hp
  simp only [mem_rect, mirrorY] at hp ⊢
  omega

theorem bijOn_mirrorY (w h : Int) : Set.BijOn (mirrorY h) (rect w h) (rect w h) :=
  bijOn_of_inverse (mapsTo_mirrorY w h) (mapsTo_mirrorY w h) (by simp) (by simp)

theorem bijOn_transpose (w h : Int) : Set.BijOn transpose (rect w h) (rect h w) :=
  bijOn_of_inverse (g := transpose) (fun _ hp => ⟨hp.2, hp.1⟩) (fun _ hp => ⟨hp.2, hp.1⟩)
    (by simp) (by simp)

theorem mapsTo_serpentine (w h : Int) : Set.MapsTo (serpentine w) (rect w h) (rect w h) := by
  rintro ⟨x, y⟩ hp
  simp only [mem_rect, serpentine] at hp ⊢
  split <;> omega

theorem bijOn_serpentine (w h : Int) : Set.BijOn (serpentine w) (rect w h) (rect w h) :=
  bijOn_of_inverse (mapsTo_serpentine w h) (mapsTo_serpentine w h) (by simp) (by simp)

/-- A row number below `h` leaves room for one more row of `w` points. -/
theorem mul_add_le_mul {y : Int} (hw : 0 ≤ w) (hy : y < h) : y * w + w ≤ w * h := by
  have := Int.mul_le_mul_of_nonneg_left (show y + 1 ≤ h by omega) hw
  rw [Int.mul_add, Int.mul_one, Int.mul_comm w y] at this
  exact this

theorem mapsTo_rowMajor (w h : Int) : Set.MapsTo (rowMajor w) (rect w h) (below (w * h)) := by
  rintro ⟨x, y⟩ ⟨⟨hx0, hx⟩, hy0, hy⟩
  have h1 := mul_add_le_mul (w := w) (by omega) hy
  have h2 := Int.mul_nonneg hy0 (show 0 ≤ w by omega)
  simp only [mem_below, rowMajor] at h1 h2 hx0 hx ⊢
  omega

theorem mapsTo_ofRowMajor (hw : 0 < w) (h : Int) :
    Set.MapsTo (ofRowMajor w) (below (w * h)) (rect w h) := by
  rintro i ⟨h0, hi⟩
  refine ⟨⟨Int.emod_nonneg _ (by omega), Int.emod_lt_of_pos _ hw⟩, Int.ediv_nonneg h0 hw.le, ?_⟩
  exact Int.ediv_lt_of_lt_mul hw (by rwa [Int.mul_comm])

theorem ofRowMajor_rowMajor {p : Int × Int} (hp : p ∈ rect w h) :
    ofRowMajor w (rowMajor w p) = p := by
  obtain ⟨x, y⟩ := p
  obtain ⟨⟨hx0, hx⟩, -, -⟩ := hp
  simp only [ofRowMajor, rowMajor, Prod.mk.injEq] at hx0 hx ⊢
  constructor
  · rw [Int.add_comm, Int.add_mul_emod_self_right, Int.emod_eq_of_lt hx0 hx]
  · rw [Int.add_comm, Int.add_mul_ediv_right _ _ (by omega), Int.ediv_eq_zero_of_lt hx0 hx,
      Int.zero_add]

theorem rowMajor_ofRowMajor (w i : Int) : rowMajor w (ofRowMajor w i) = i := by
  simp only [rowMajor, ofRowMajor]
  rw [Int.mul_comm]
  exact Int.mul_ediv_add_emod i w

theorem bijOn_rowMajor (hw : 0 < w) (h : Int) :
    Set.BijOn (rowMajor w) (rect w h) (below (w * h)) :=
  bijOn_of_inverse (mapsTo_rowMajor w h) (mapsTo_ofRowMajor hw h)
    (fun _ hp => ofRowMajor_rowMajor hp) (fun i _ => rowMajor_ofRowMajor w i)

/-! ## Neighbours and corners -/

/-- The two points are next to each other in a row or in a column. -/
def Adjacent (p q : Int × Int) : Prop :=
  (p.2 = q.2 ∧ (q.1 = p.1 + 1 ∨ p.1 = q.1 + 1)) ∨ (p.1 = q.1 ∧ (q.2 = p.2 + 1 ∨ p.2 = q.2 + 1))

instance (p q : Int × Int) : Decidable (Adjacent p q) :=
  inferInstanceAs (Decidable (_ ∧ (_ ∨ _) ∨ _ ∧ (_ ∨ _)))

/-- The point is a corner of the grid. -/
def Corner (w h : Int) (p : Int × Int) : Prop := (p.1 = 0 ∨ p.1 = w - 1) ∧ (p.2 = 0 ∨ p.2 = h - 1)

instance (w h : Int) (p : Int × Int) : Decidable (Corner w h p) :=
  inferInstanceAs (Decidable ((_ ∨ _) ∧ (_ ∨ _)))

section Neighbours

variable {p q : Int × Int}

@[simp] theorem adjacent_mirrorX : Adjacent (mirrorX w p) (mirrorX w q) ↔ Adjacent p q := by
  simp only [Adjacent, mirrorX]
  omega

@[simp] theorem adjacent_mirrorY : Adjacent (mirrorY h p) (mirrorY h q) ↔ Adjacent p q := by
  simp only [Adjacent, mirrorY]
  omega

@[simp] theorem adjacent_transpose : Adjacent (transpose p) (transpose q) ↔ Adjacent p q := Or.comm

@[simp] theorem corner_mirrorX : Corner w h (mirrorX w p) ↔ Corner w h p := by
  simp only [Corner, mirrorX]
  omega

@[simp] theorem corner_mirrorY : Corner w h (mirrorY h p) ↔ Corner w h p := by
  simp only [Corner, mirrorY]
  omega

@[simp] theorem corner_transpose : Corner w h (transpose p) ↔ Corner h w p := And.comm

/-- Two points in successive places, row after row: one after the other in a row, or the last of a
row and the first of the next. -/
theorem rowMajor_succ (hp : p ∈ rect w h) (hq : q ∈ rect w h)
    (hnext : rowMajor w q = rowMajor w p + 1) :
    q = (p.1 + 1, p.2) ∨ p.1 = w - 1 ∧ q = (0, p.2 + 1) := by
  obtain ⟨⟨hx0, hx⟩, hy0, hy⟩ := hp
  obtain ⟨hqx, hqy0, hqy⟩ := hq
  have hinj : Set.InjOn (rowMajor w) (rect w (h + 1)) :=
    (bijOn_rowMajor (show 0 < w by omega) (h + 1)).injOn
  have hq' : q ∈ rect w (h + 1) := ⟨hqx, hqy0, by omega⟩
  by_cases hlast : p.1 + 1 = w
  · right
    refine ⟨by omega, hinj hq' ⟨⟨le_rfl, ?_⟩, ?_, ?_⟩ (hnext.trans ?_)⟩
    · show (0 : Int) < w
      omega
    · show 0 ≤ p.2 + 1
      omega
    · show p.2 + 1 < h + 1
      omega
    · show p.2 * w + p.1 + 1 = (p.2 + 1) * w + 0
      rw [Int.add_mul]
      omega
  · left
    refine hinj hq' ⟨⟨?_, ?_⟩, hy0, ?_⟩ (hnext.trans ?_)
    · show 0 ≤ p.1 + 1
      omega
    · show p.1 + 1 < w
      omega
    · show p.2 < h + 1
      omega
    · show p.2 * w + p.1 + 1 = p.2 * w + (p.1 + 1)
      omega

/-- The serpentine numbers make a path: successive points are neighbours. -/
theorem adjacent_of_serpentine (hp : p ∈ rect w h) (hq : q ∈ rect w h)
    (hnext : rowMajor w (serpentine w q) = rowMajor w (serpentine w p) + 1) : Adjacent p q := by
  have hsucc := rowMajor_succ (mapsTo_serpentine w h hp) (mapsTo_serpentine w h hq) hnext
  obtain ⟨⟨hx0, hx⟩, -⟩ := hp
  simp only [serpentine, Prod.ext_iff] at hsucc
  unfold Adjacent
  -- in a row the numbers go up or down; at its end both rows have the same column
  by_cases heven : p.2 % 2 = 0
  · rw [if_pos heven] at hsucc
    split at hsucc <;> omega
  · rw [if_neg heven] at hsucc
    split at hsucc <;> omega

/-- The path starts in a corner. -/
theorem corner_of_serpentine_zero (hp : p ∈ rect w h)
    (hfirst : rowMajor w (serpentine w p) = 0) : Corner w h p := by
  have hw : 0 < w := hp.1.1.trans_lt hp.1.2
  have hh : 0 < h := hp.2.1.trans_lt hp.2.2
  have hzero : serpentine w p = (0, 0) :=
    (bijOn_rowMajor hw h).injOn (mapsTo_serpentine w h hp) ⟨⟨le_rfl, hw⟩, le_rfl, hh⟩
      (hfirst.trans (by simp [rowMajor]))
  rw [← serpentine_serpentine w p, hzero]
  simp [serpentine, Corner]

/-- The path ends in a corner. -/
theorem corner_of_serpentine_last (hp : p ∈ rect w h)
    (hlast : rowMajor w (serpentine w p) = w * h - 1) : Corner w h p := by
  have hw : 0 < w := hp.1.1.trans_lt hp.1.2
  have hh : 0 < h := hp.2.1.trans_lt hp.2.2
  have hend : serpentine w p = (w - 1, h - 1) := by
    refine (bijOn_rowMajor hw h).injOn (mapsTo_serpentine w h hp) ⟨⟨?_, ?_⟩, ?_, ?_⟩
      (hlast.trans ?_)
    · show 0 ≤ w - 1
      omega
    · show w - 1 < w
      omega
    · show 0 ≤ h - 1
      omega
    · show h - 1 < h
      omega
    · show w * h - 1 = (h - 1) * w + (w - 1)
      rw [Int.sub_mul, Int.mul_comm h w]
      omega
  rw [← serpentine_serpentine w p, hend]
  unfold serpentine Corner
  split <;> simp

end Neighbours

end Grid
