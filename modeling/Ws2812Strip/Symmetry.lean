import Ws2812Strip.PaintDevice

/-!
# Orientations are symmetries of a rectangle

The sixteen configurations of a device turn and mirror its rectangle, so they keep neighbours and
corners, and one after the other they make a configuration again.

* `wire_order`: in every orientation the wire runs through the logical pixels from neighbour to
  neighbour, from a corner to a corner.
* `StripRotateHelper.comp`: the configuration of two helpers, the second on a device that has the
  logical size of the first. `orientations_compose` says that `set_rotate` has it, and that every
  configuration has an inverse.
-/

namespace Ws2812

open Grid

/-! ## What a helper keeps -/

namespace StripRotateHelper

variable (t : StripRotateHelper) (w h : Int) (p q : Int × Int)

/-- A helper keeps neighbours. -/
@[simp] theorem adjacent_point : Adjacent (t.point w h p) (t.point w h q) ↔ Adjacent p q := by
  obtain ⟨degree, flipX, flipY⟩ := t
  cases degree <;> cases flipX <;> cases flipY <;> simp [point, rotatePoint]

/-- A helper keeps corners. -/
@[simp] theorem corner_point :
    Corner w h (t.point w h p) ↔ Corner (t.logicalSize w h).1 (t.logicalSize w h).2 p := by
  obtain ⟨degree, flipX, flipY⟩ := t
  cases degree <;> cases flipX <;> cases flipY <;> simp [point, rotatePoint, logicalSize]

end StripRotateHelper

namespace IRotatablePaintDevice

/-! ## The wire -/

/-- The pixel of the LED `k` of the chain is `p`, and no other. -/
def LedAt (r : IRotatablePaintDevice) (k : Int) (p : Int × Int) : Prop :=
  p ∈ r.logical ∧ ∀ q ∈ r.logical, r.index .snake q.1 q.2 = .ok k ↔ q = p

namespace Oriented

variable {r : IRotatablePaintDevice} {k : Int}

/-- Every LED whose number is an `int` has a pixel. -/
theorem exists_ledAt (hr : r.Oriented) (hk : k ∈ below (r.width_ * r.height_))
    (hint : k ≤ INT_MAX) : ∃ p, r.LedAt k p ∧ r.cell .snake p = k := by
  have hbij := hr.bijOn_cell .snake
  obtain ⟨p, hp, hcell⟩ := hbij.surjOn hk
  refine ⟨p, ⟨hp, fun q hq => ?_⟩, hcell⟩
  rw [hr.index_eq_ok_iff .snake hq]
  constructor
  · rintro ⟨hq', -⟩
    exact hbij.injOn hq hp (hq'.trans hcell.symm)
  · rintro rfl
    exact ⟨hcell, hint⟩

/-- A pixel whose physical point is a corner is one. -/
theorem corner (hr : r.Oriented) {p : Int × Int} (h : Corner r.width_ r.height_ (r.point p)) :
    Corner r.width r.height p := by
  have hsize := hr.size_eq
  rw [point, StripRotateHelper.corner_point, ← hsize] at h
  exact h

end Oriented

/-- **The wire.** After any sequence of `set_rotate` calls, two LEDs that follow each other on the
wire are next to each other in a row or in a column of the logical pixels, and the first and the
last LED are in corners. -/
theorem wire_order {w h : Int} (hw : 1 ≤ w ∧ w ≤ INT_MAX) (hh : 1 ≤ h ∧ h ≤ INT_MAX)
    (back : LedColor) (calls : List (Int × Bool × Bool)) {r : IRotatablePaintDevice}
    (hr : r = afterRotates calls (make w h back)) :
    (∀ k, 0 ≤ k → k + 1 < w * h → k + 1 ≤ INT_MAX →
      ∃ p q, r.LedAt k p ∧ r.LedAt (k + 1) q ∧ Adjacent p q) ∧
    (∃ p, r.LedAt 0 p ∧ Corner r.width r.height p) ∧
    (w * h - 1 ≤ INT_MAX → ∃ p, r.LedAt (w * h - 1) p ∧ Corner r.width r.height p) := by
  have ho : r.Oriented := hr ▸ afterRotates_oriented calls (make_oriented hw hh back)
  obtain ⟨e1, e2⟩ := afterRotates_size calls (make w h back)
  obtain rfl : r.width_ = w := by rw [hr, e1]; rfl
  obtain rfl : r.height_ = h := by rw [hr, e2]; rfl
  have hpos : 0 < r.width_ * r.height_ := Int.mul_pos hw.1 hh.1
  refine ⟨fun k h0 hlt hint => ?_, ?_, fun hint => ?_⟩
  · obtain ⟨p, hp, hcp⟩ := ho.exists_ledAt ⟨h0, by omega⟩ (show k ≤ INT_MAX by omega)
    obtain ⟨q, hq, hcq⟩ := ho.exists_ledAt ⟨by omega, hlt⟩ hint
    refine ⟨p, q, hp, hq, ?_⟩
    have hmap := ho.bijOn_point.mapsTo
    have hpath := adjacent_of_serpentine (hmap hp.1) (hmap hq.1) (hcq.trans (by rw [← hcp]; rfl))
    exact (StripRotateHelper.adjacent_point ..).mp hpath
  · obtain ⟨p, hp, hcp⟩ := ho.exists_ledAt ⟨le_rfl, hpos⟩ (show 0 ≤ INT_MAX by decide)
    exact ⟨p, hp, ho.corner (corner_of_serpentine_zero (ho.bijOn_point.mapsTo hp.1) hcp)⟩
  · obtain ⟨p, hp, hcp⟩ := ho.exists_ledAt (k := r.width_ * r.height_ - 1)
      ⟨by omega, by omega⟩ hint
    exact ⟨p, hp, ho.corner (corner_of_serpentine_last (ho.bijOn_point.mapsTo hp.1) hcp)⟩

/-- A strip of three columns and two rows, turned by 90 degrees and mirrored. -/
theorem wire_order_turned :
    let r := afterRotates [(90, false, true)] (make 3 2 Led.black)
    ∃ p q, r.LedAt 2 p ∧ r.LedAt 3 q ∧ Adjacent p q :=
  (wire_order (by decide) (by decide) Led.black [(90, false, true)] rfl).1 2 (by decide)
    (by decide) (by decide)

end IRotatablePaintDevice

/-! ## One configuration after another -/

namespace RotateDegree

/-- The template argument as a number. -/
def value : RotateDegree → Int
  | d0 => 0
  | d90 => 90
  | d180 => 180
  | d270 => 270

/-- A quarter turn more. -/
def turn : RotateDegree → RotateDegree
  | d0 => d90
  | d90 => d180
  | d180 => d270
  | d270 => d0

def add : RotateDegree → RotateDegree → RotateDegree
  | d0, d => d
  | d90, d => d.turn
  | d180, d => d.turn.turn
  | d270, d => d.turn.turn.turn

/-- The rest of a full turn. -/
def neg : RotateDegree → RotateDegree
  | d0 => d0
  | d90 => d270
  | d180 => d180
  | d270 => d90

theorem value_add (d e : RotateDegree) : (d.add e).value = (d.value + e.value) % 360 := by
  cases d <;> cases e <;> rfl

end RotateDegree

/-- Mirroring by two flags. -/
theorem mirrored_xor (a b : Bool) (n i : Int) :
    mirrored (a ^^ b) n i = mirrored a n (mirrored b n i) := by
  cases a <;> cases b <;> simp [mirrored]

namespace StripRotateHelper

/-- The flag for the physical columns of a device whose helper is `t`, if there is a flag for each
of the two logical axes. -/
def columns (t : StripRotateHelper) (flipX flipY : Bool) : Bool :=
  match t.rotateDegree with
  | .d0 | .d180 => flipX
  | .d90 | .d270 => flipY

/-- The same for the rows. -/
def rows (t : StripRotateHelper) (flipX flipY : Bool) : Bool := t.columns flipY flipX

/-- The helper of a device on which a second one lies that has the helper `u`. -/
def comp (t u : StripRotateHelper) : StripRotateHelper where
  rotateDegree := t.rotateDegree.add u.rotateDegree
  flipX := t.flipX ^^ t.columns u.flipX u.flipY
  flipY := t.flipY ^^ t.rows u.flipX u.flipY

/-- The helper that turns back. -/
def inv (t : StripRotateHelper) : StripRotateHelper where
  rotateDegree := t.rotateDegree.neg
  flipX := t.columns t.flipX t.flipY
  flipY := t.rows t.flipX t.flipY

variable (t u : StripRotateHelper) (w h : Int) (p : Int × Int)

theorem comp_inv : t.comp t.inv = ⟨.d0, false, false⟩ := by
  obtain ⟨degree, flipX, flipY⟩ := t
  cases degree <;> simp [comp, inv, columns, rows, RotateDegree.add, RotateDegree.neg,
    RotateDegree.turn]

theorem inv_comp : t.inv.comp t = ⟨.d0, false, false⟩ := by
  obtain ⟨degree, flipX, flipY⟩ := t
  cases degree <;> simp [comp, inv, columns, rows, RotateDegree.add, RotateDegree.neg,
    RotateDegree.turn]

/-- The second device has the logical size of the first. -/
theorem logicalSize_comp : (t.comp u).logicalSize w h =
    u.logicalSize (t.logicalSize w h).1 (t.logicalSize w h).2 := by
  obtain ⟨d, -, -⟩ := t
  obtain ⟨e, -, -⟩ := u
  cases d <;> cases e <;> rfl

/-- The flips act on the physical axes, after the rotation. -/
theorem point_eq : t.point w h p = (mirrored t.flipX w (t.rotatePoint w h p).1,
    mirrored t.flipY h (t.rotatePoint w h p).2) := by
  obtain ⟨degree, flipX, flipY⟩ := t
  cases flipX <;> cases flipY <;> rfl

theorem columns_eq (flipX flipY : Bool) : t.columns flipX flipY =
    if t.rotateDegree.value = 0 ∨ t.rotateDegree.value = 180 then flipX else flipY := by
  obtain ⟨degree, -, -⟩ := t
  cases degree <;> rfl

/-- A rotation takes mirrored logical axes to mirrored physical ones. -/
theorem rotatePoint_mirrored (flipX flipY : Bool) :
    t.rotatePoint w h (mirrored flipX (t.logicalSize w h).1 p.1,
      mirrored flipY (t.logicalSize w h).2 p.2) =
    (mirrored (t.columns flipX flipY) w (t.rotatePoint w h p).1,
      mirrored (t.rows flipX flipY) h (t.rotatePoint w h p).2) := by
  obtain ⟨degree, -, -⟩ := t
  cases degree <;> cases flipX <;> cases flipY <;>
    simp [rotatePoint, logicalSize, columns, rows, mirrored, mirrorX, mirrorY, transpose]

/-- Rotations add up. -/
theorem rotatePoint_add :
    t.rotatePoint w h (u.rotatePoint (t.logicalSize w h).1 (t.logicalSize w h).2 p) =
      (t.comp u).rotatePoint w h p := by
  obtain ⟨d, -, -⟩ := t
  obtain ⟨e, -, -⟩ := u
  cases d <;> cases e <;> simp [rotatePoint, comp, logicalSize, RotateDegree.add,
    RotateDegree.turn, mirrorX, mirrorY, transpose]

/-- One helper after another. -/
theorem point_comp : t.point w h (u.point (t.logicalSize w h).1 (t.logicalSize w h).2 p) =
    (t.comp u).point w h p := by
  rw [point_eq t, point_eq u, rotatePoint_mirrored, rotatePoint_add, point_eq (t.comp u)]
  simp only [comp, mirrored_xor]

/-- Both flips are half a turn. -/
theorem point_flipped (d : RotateDegree) : (⟨d, true, true⟩ : StripRotateHelper).point w h p =
    (⟨d.add .d180, false, false⟩ : StripRotateHelper).point w h p := by
  cases d <;> simp [point, rotatePoint, RotateDegree.add, RotateDegree.turn, mirrorX, mirrorY,
    transpose]

end StripRotateHelper

namespace IRotatablePaintDevice

/-- `set_rotate` does not throw. -/
def Accepted (degree : Int) : Prop := degree = 0 ∨ degree = 90 ∨ degree = 180 ∨ degree = 270

instance (degree : Int) : Decidable (Accepted degree) :=
  inferInstanceAs (Decidable (_ ∨ _ ∨ _ ∨ _))

theorem accepted_iff {degree : Int} : Accepted degree ↔ ∃ d : RotateDegree, degree = d.value := by
  constructor
  · rintro (h | h | h | h)
    · exact ⟨.d0, h⟩
    · exact ⟨.d90, h⟩
    · exact ⟨.d180, h⟩
    · exact ⟨.d270, h⟩
  · rintro ⟨d, rfl⟩
    cases d <;> decide

theorem Accepted.setRotate_ok {degree : Int} (h : Accepted degree) (flipX flipY : Bool)
    (r : IRotatablePaintDevice) : ((setRotate degree flipX flipY).run r).1 = .ok () := by
  rcases h with rfl | rfl | rfl | rfl <;> rfl

/-- A new `w × h` device after `set_rotate(degree, flip_x, flip_y)`. -/
def configured (w h degree : Int) (flipX flipY : Bool) : IRotatablePaintDevice :=
  ((setRotate degree flipX flipY).run (make w h Led.black)).2

/-- The point `(ur_x, ur_y)` of a logical coordinate. -/
def physical (r : IRotatablePaintDevice) (x y : Int) : Except Fault (Int × Int) :=
  r.rotateHelper_.unrotate r.width_ r.height_ x y

/-- From a pixel of `r₂` through its point, as a pixel of `r₁`, to the point of that is the way that
`r` takes, and `r` has the size of `r₂`. -/
structure Stacks (r₁ r₂ r : IRotatablePaintDevice) : Prop where
  width : r.width = r₂.width
  height : r.height = r₂.height
  point : ∀ x y, 0 ≤ x ∧ x < r₂.width → 0 ≤ y ∧ y < r₂.height → ∃ p q,
    r₂.physical x y = .ok p ∧ r₁.physical p.1 p.2 = .ok q ∧ r.physical x y = .ok q

/-- A new `w × h` device with the helper `t`. -/
def withHelper (w h : Int) (t : StripRotateHelper) : IRotatablePaintDevice :=
  { make w h Led.black with
    rotateHelper_ := t
    logicWidth_ := (t.logicalSize w h).1
    logicHeight_ := (t.logicalSize w h).2 }

section Configured

variable {w h : Int}

theorem configured_value (w h : Int) (d : RotateDegree) (flipX flipY : Bool) :
    configured w h d.value flipX flipY = withHelper w h ⟨d, flipX, flipY⟩ := by
  cases d <;>
    simp [configured, setRotate, withHelper, make, RotateDegree.value,
      StripRotateHelper.logicalSize]

theorem withHelper_oriented (hw : 1 ≤ w ∧ w ≤ INT_MAX) (hh : 1 ≤ h ∧ h ≤ INT_MAX)
    (t : StripRotateHelper) : (withHelper w h t).Oriented := ⟨hw, hh, rfl⟩

theorem mem_logical_withHelper {t : StripRotateHelper} {p : Int × Int} :
    p ∈ (withHelper w h t).logical ↔ p ∈ rect (t.logicalSize w h).1 (t.logicalSize w h).2 := Iff.rfl

/-- The point of a pixel is computed without overflow. -/
theorem physical_ok (hw : 1 ≤ w ∧ w ≤ INT_MAX) (hh : 1 ≤ h ∧ h ≤ INT_MAX)
    {t : StripRotateHelper} {x y : Int} (hp : (x, y) ∈ (withHelper w h t).logical) :
    (withHelper w h t).physical x y = .ok (t.point w h (x, y)) := by
  have hpoint := (withHelper_oriented hw hh t).unrotate_ok hp
  exact hpoint

theorem logicalSize_sides (hw : 1 ≤ w ∧ w ≤ INT_MAX) (hh : 1 ≤ h ∧ h ≤ INT_MAX)
    (t : StripRotateHelper) :
    (1 ≤ (t.logicalSize w h).1 ∧ (t.logicalSize w h).1 ≤ INT_MAX) ∧
      1 ≤ (t.logicalSize w h).2 ∧ (t.logicalSize w h).2 ≤ INT_MAX := by
  obtain ⟨d, -, -⟩ := t
  cases d with
  | d0 | d180 => exact ⟨hw, hh⟩
  | d90 | d270 => exact ⟨hh, hw⟩

/-- Two configurations, the second on a device with the logical size of the first, make one. -/
theorem stacks_comp (hw : 1 ≤ w ∧ w ≤ INT_MAX) (hh : 1 ≤ h ∧ h ≤ INT_MAX)
    (t u : StripRotateHelper) :
    Stacks (withHelper w h t) (withHelper (t.logicalSize w h).1 (t.logicalSize w h).2 u)
      (withHelper w h (t.comp u)) := by
  have hsize := StripRotateHelper.logicalSize_comp t u w h
  obtain ⟨hlw, hlh⟩ := logicalSize_sides hw hh t
  refine ⟨congrArg Prod.fst hsize, congrArg Prod.snd hsize, fun x y hx hy => ?_⟩
  have hp : (x, y) ∈ (withHelper (t.logicalSize w h).1 (t.logicalSize w h).2 u).logical := ⟨hx, hy⟩
  have hmid : u.point (t.logicalSize w h).1 (t.logicalSize w h).2 (x, y) ∈
      (withHelper w h t).logical := (withHelper_oriented hlw hlh u).bijOn_point.mapsTo hp
  have hcomp : (x, y) ∈ (withHelper w h (t.comp u)).logical := by
    rw [mem_logical_withHelper, hsize]
    exact hp
  have hfirst := physical_ok hlw hlh hp
  have hsecond := physical_ok hw hh hmid
  have hboth := physical_ok hw hh hcomp
  rw [← StripRotateHelper.point_comp] at hboth
  exact ⟨_, _, hfirst, hsecond, hboth⟩

/-- Both flips are half a turn, for the size, the points and so for `index`. -/
theorem half_turn (hw : 1 ≤ w ∧ w ≤ INT_MAX) (hh : 1 ≤ h ∧ h ≤ INT_MAX) (d : RotateDegree) :
    let r := withHelper w h ⟨d, true, true⟩
    let r' := withHelper w h ⟨d.add .d180, false, false⟩
    r.width = r'.width ∧ r.height = r'.height ∧
      ∀ layout x y, (x, y) ∈ r.logical → r.index layout x y = r'.index layout x y := by
  intro r r'
  have hsize : (⟨d, true, true⟩ : StripRotateHelper).logicalSize w h =
      (⟨d.add .d180, false, false⟩ : StripRotateHelper).logicalSize w h := by
    cases d <;> rfl
  refine ⟨congrArg Prod.fst hsize, congrArg Prod.snd hsize, fun layout x y hp => ?_⟩
  have hp' : (x, y) ∈ r'.logical := by
    rw [mem_logical_withHelper, ← hsize]
    exact hp
  have hleft := physical_ok hw hh hp
  have hright := physical_ok hw hh hp'
  rw [StripRotateHelper.point_flipped] at hleft
  exact congrArg (· >>= fun q => layout.index w q.1 q.2) (hleft.trans hright.symm)

/-- **Configurations compose.** For every two configurations, the second on a device whose size is
the logical size of the first, one after the other is the configuration whose degree is the sum of
the two and whose flips differ from the first ones by the second ones, which change places when the
first degree is 90 or 270. Every configuration has an inverse, and both flips are half a turn. -/
theorem orientations_compose (hw : 1 ≤ w ∧ w ≤ INT_MAX) (hh : 1 ≤ h ∧ h ≤ INT_MAX) {d₁ : Int}
    (h₁ : Accepted d₁) (flipX₁ flipY₁ : Bool) {r₁ : IRotatablePaintDevice}
    (hr₁ : r₁ = configured w h d₁ flipX₁ flipY₁) :
    (∀ d₂ flipX₂ flipY₂, Accepted d₂ → Accepted ((d₁ + d₂) % 360) ∧
      Stacks r₁ (configured r₁.width r₁.height d₂ flipX₂ flipY₂)
        (configured w h ((d₁ + d₂) % 360)
          (flipX₁ ^^ if d₁ = 0 ∨ d₁ = 180 then flipX₂ else flipY₂)
          (flipY₁ ^^ if d₁ = 0 ∨ d₁ = 180 then flipY₂ else flipX₂))) ∧
    (∃ d₂ flipX₂ flipY₂, Accepted d₂ ∧
      Stacks r₁ (configured r₁.width r₁.height d₂ flipX₂ flipY₂) (configured w h 0 false false) ∧
      Stacks (configured r₁.width r₁.height d₂ flipX₂ flipY₂) r₁
        (configured r₁.width r₁.height 0 false false)) ∧
    ((configured w h d₁ true true).width = (configured w h ((d₁ + 180) % 360) false false).width ∧
      (configured w h d₁ true true).height =
        (configured w h ((d₁ + 180) % 360) false false).height ∧
      ∀ layout x y, (x, y) ∈ (configured w h d₁ true true).logical →
        (configured w h d₁ true true).index layout x y =
          (configured w h ((d₁ + 180) % 360) false false).index layout x y) := by
  obtain ⟨d, rfl⟩ := accepted_iff.mp h₁
  rw [configured_value] at hr₁
  subst hr₁
  set t : StripRotateHelper := ⟨d, flipX₁, flipY₁⟩ with ht
  have hzero : configured w h 0 false false = withHelper w h ⟨.d0, false, false⟩ :=
    configured_value w h .d0 false false
  refine ⟨fun d₂ flipX₂ flipY₂ h₂ => ?_, ⟨t.inv.rotateDegree.value, t.inv.flipX, t.inv.flipY,
    accepted_iff.mpr ⟨_, rfl⟩, ?_, ?_⟩, ?_⟩
  · obtain ⟨e, rfl⟩ := accepted_iff.mp h₂
    have hcomp := stacks_comp hw hh t ⟨e, flipX₂, flipY₂⟩
    rw [← RotateDegree.value_add, configured_value, configured_value]
    refine ⟨accepted_iff.mpr ⟨_, rfl⟩, ?_⟩
    unfold StripRotateHelper.comp StripRotateHelper.rows at hcomp
    rw [StripRotateHelper.columns_eq, StripRotateHelper.columns_eq] at hcomp
    exact hcomp
  · have hcomp := stacks_comp hw hh t t.inv
    rw [StripRotateHelper.comp_inv] at hcomp
    rw [configured_value, hzero]
    exact hcomp
  · obtain ⟨hlw, hlh⟩ := logicalSize_sides hw hh t
    have hcomp := stacks_comp hlw hlh t.inv t
    have hback := StripRotateHelper.logicalSize_comp t t.inv w h
    rw [StripRotateHelper.comp_inv] at hback
    rw [StripRotateHelper.inv_comp, ← hback] at hcomp
    have hzero' := configured_value (t.logicalSize w h).1 (t.logicalSize w h).2 .d0 false false
    rw [configured_value]
    exact hzero' ▸ hcomp
  · rw [show d.value + 180 = d.value + RotateDegree.d180.value from rfl,
      ← RotateDegree.value_add, configured_value, configured_value]
    exact half_turn hw hh d

/-- A mirrored quarter turn on another one. -/
theorem orientations_compose_quarters :
    Stacks (configured 3 2 90 false true) (configured 2 3 270 true false)
      (configured 3 2 0 false false) :=
  ((orientations_compose (by decide) (by decide) (by decide) false true rfl).1 270 true false
    (by decide)).2

end Configured

end IRotatablePaintDevice

end Ws2812
