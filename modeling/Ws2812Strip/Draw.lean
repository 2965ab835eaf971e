import Ws2812Strip.Devices
import Ws2812Strip.Lib.Overlay

/-!
# Drawing is a clipped blit

`draw` reads its source pixel by pixel and writes each one at its target on the device. `placed`
is what it should paint: the layer of source pixels at their targets, without the pixels that the
colour key hides. `draw_blit` says that, from an offset on the device or to the right and below
of it, the image after the call is the old one with that layer over it.

* `drawPixel_run`, `drawRow_run`: what one step of the two loops does, with every way it can stop.
* `Placement.seen`: the target pixels that the loops have passed. `Blitted` is the invariant of the
  two loops, and `Stopped` what is left when the source faults.
-/

namespace Ws2812

open IPaintDevice Grid Overlay

/-! ## One step of the loops -/

section Steps

variable {D : Type} [IPaintDevice D]

omit [IPaintDevice D] in
theorem target_run (x dx : Int) (s : Session D) :
    (target x dx).run s = (cint (x + dx), s.push (.sum (x + dx))) := rfl

omit [IPaintDevice D] in
/-- An event changes no field of the device. -/
theorem field_bind_push {α β : Type} (f : D → α) (g : α → DevM D β) (s : Session D) (e : Event) :
    (field f >>= g).run (s.push e) = (g (f s.dev)).run (s.push e) := rfl

/-- The inner loop body: it stops at a sum that overflows, passes over a target beyond the right
edge, stops where the source does, passes over the colour key, and writes everything else. -/
theorem drawPixel_run {src : PaintSource} {x sx tx : Int} {flipX : Bool} (sy ty : Int)
    (hw : src.width ≤ INT_MAX) (h0 : 0 ≤ sx) (hlt : sx < src.width)
    (htx : x + mirrored flipX src.width sx = tx) (s : Session D) :
    (drawPixel src x flipX sy ty sx).run s =
      if ¬ IsInt tx then (.error (.undefined .intOverflow), s.push (.sum tx))
      else if tx ≥ width s.dev then (.ok (), s.push (.sum tx))
      else match src.led sx sy with
        | .error e => (.error e, s.push (.sum tx))
        | .ok c =>
          if (base s.dev).transparent_ = true ∧ c = (base s.dev).back then
            (.ok (), s.push (.sum tx))
          else (writeLed tx ty c).run (s.push (.sum tx)) := by
  subst htx
  unfold drawPixel
  rw [flipped_ok flipX hw h0 hlt, Prog.run_lift_ok_bind]
  split
  · rename_i h
    exact Prog.run_bind_error (by rw [target_run, cint_error h])
  rename_i h
  rw [Prog.run_bind_ok (by rw [target_run, cint_ok (not_not.mp h)])]
  simp only [field_bind_push, Prog.run_ite]
  split
  · rfl
  cases src.led sx sy with
  | error e => rfl
  | ok c =>
    simp only [Prog.run_lift_ok_bind, field_bind_push, Prog.run_ite]
    split <;> rfl

/-- The outer loop body: it stops at a sum that overflows, passes over a row below the bottom
edge, and runs the inner loop in every other row. -/
theorem drawRow_run {src : PaintSource} {y sy ty : Int} {flipY : Bool} (x : Int) (flipX : Bool)
    (hh : src.height ≤ INT_MAX) (h0 : 0 ≤ sy) (hlt : sy < src.height)
    (hty : y + mirrored flipY src.height sy = ty) (s : Session D) :
    (drawRow src x y flipX flipY sy).run s =
      if ¬ IsInt ty then (.error (.undefined .intOverflow), s.push (.sum ty))
      else if ty ≥ height s.dev then (.ok (), s.push (.sum ty))
      else (forInt src.width (drawPixel src x flipX sy ty)).run (s.push (.sum ty)) := by
  subst hty
  unfold drawRow
  rw [flipped_ok flipY hh h0 hlt, Prog.run_lift_ok_bind]
  split
  · rename_i h
    exact Prog.run_bind_error (by rw [target_run, cint_error h])
  rename_i h
  rw [Prog.run_bind_ok (by rw [target_run, cint_ok (not_not.mp h)])]
  simp only [field_bind_push, Prog.run_ite]
  split <;> rfl

end Steps

/-- The order in which the loops read the source: row after row, from left to right. -/
def Precedes (s n : Int × Int) : Prop := s.2 < n.2 ∨ s.2 = n.2 ∧ s.1 < n.1

instance (s n : Int × Int) : Decidable (Precedes s n) := inferInstanceAs (Decidable (_ ∨ _ ∧ _))

theorem precedes_succ_iff {s n : Int × Int} :
    Precedes s (n.1 + 1, n.2) ↔ Precedes s n ∨ s = n := by
  rw [Prod.ext_iff]
  simp only [Precedes]
  omega

theorem precedes_trichotomy (s n : Int × Int) : Precedes s n ∨ s = n ∨ Precedes n s := by
  rw [Prod.ext_iff]
  unfold Precedes
  omega

/-- No pixel of a source comes before the first one. -/
theorem not_precedes_start {src : PaintSource} {s : Int × Int} (h : src.Inside s.1 s.2) :
    ¬ Precedes s (0, 0) := by
  obtain ⟨⟨h1, -⟩, h2, -⟩ := h
  simp only [Precedes]
  omega

/-- Every pixel of a source comes before the end of the loops. -/
theorem precedes_end {src : PaintSource} {s : Int × Int} (h : src.Inside s.1 s.2) :
    Precedes s (0, (src.height.toNat : Int)) := by
  obtain ⟨-, h1, h2⟩ := h
  simp only [Precedes]
  omega

/-- A pixel of the source that comes before a row comes before the end of the row above. -/
theorem Precedes.endOfRow {s : Int × Int} {w sy : Int} (h : Precedes s (0, sy + 1))
    (hs : 0 ≤ s.1 ∧ s.1 < w) : Precedes s ((w.toNat : Int), sy) := by
  simp only [Precedes] at *
  omega

/-- A pixel that is not in a row and comes before the next one comes before the row. -/
theorem Precedes.startOfRow {s : Int × Int} {sy : Int} (h : Precedes s (0, sy + 1))
    (h0 : 0 ≤ s.1) (hne : s.2 ≠ sy) : Precedes s (0, sy) := by
  simp only [Precedes] at *
  omega

/-! ## The layer that a call paints -/

/-- A source and where a call of `draw` puts it. -/
structure Placement where
  src : PaintSource
  x : Int
  y : Int
  flipX : Bool
  flipY : Bool

namespace Placement

variable (a : Placement)

/-- The column `x + dx` of the source column `sx`. -/
def col (sx : Int) : Int := a.x + mirrored a.flipX a.src.width sx

/-- The row `y + dy` of the source row `sy`. -/
def row (sy : Int) : Int := a.y + mirrored a.flipY a.src.height sy

/-- The place on the device of a source pixel. -/
def toDevice (s : Int × Int) : Int × Int := (a.col s.1, a.row s.2)

/-- The source pixel whose place is a point of the device. -/
def toSource (p : Int × Int) : Int × Int :=
  (mirrored a.flipX a.src.width (p.1 - a.x), mirrored a.flipY a.src.height (p.2 - a.y))

/-- The rectangle that the source covers. -/
def rectangle (p : Int × Int) : Prop :=
  (a.x ≤ p.1 ∧ p.1 < a.x + a.src.width) ∧ a.y ≤ p.2 ∧ p.2 < a.y + a.src.height

instance : DecidablePred a.rectangle :=
  fun p => inferInstanceAs (Decidable ((a.x ≤ p.1 ∧ p.1 < a.x + a.src.width) ∧
    a.y ≤ p.2 ∧ p.2 < a.y + a.src.height))

theorem toSource_toDevice (s : Int × Int) : a.toSource (a.toDevice s) = s := by
  simp [toSource, toDevice, col, row]

theorem toDevice_toSource (p : Int × Int) : a.toDevice (a.toSource p) = p := by
  simp [toSource, toDevice, col, row]

theorem toSource_eq_iff {p s : Int × Int} : a.toSource p = s ↔ p = a.toDevice s := by
  constructor
  · rintro rfl
    exact (a.toDevice_toSource p).symm
  · rintro rfl
    exact a.toSource_toDevice s

theorem inside_toSource_iff {p : Int × Int} :
    a.src.Inside (a.toSource p).1 (a.toSource p).2 ↔ a.rectangle p := by
  simp only [PaintSource.Inside, rectangle, toSource, mirrored_lt_iff]
  omega

/-- The pixel `s` of the source shows on a device with the fields `r`: the colour key does not
hide it. -/
def Shown (r : IRotatablePaintDevice) (s : Int × Int) : Prop :=
  a.src.Inside s.1 s.2 ∧ ¬ (r.transparent_ ∧ a.src.pix s.1 s.2 = r.back)

instance (r : IRotatablePaintDevice) : DecidablePred (a.Shown r) :=
  fun s => inferInstanceAs
    (Decidable (a.src.Inside s.1 s.2 ∧ ¬ (r.transparent_ ∧ a.src.pix s.1 s.2 = r.back)))

/-- The layer of the source at its place on a device with the fields `r`. -/
def placed (r : IRotatablePaintDevice) (p : Int × Int) : Option LedColor :=
  if a.Shown r (a.toSource p) then some (a.src.pix (a.toSource p).1 (a.toSource p).2) else none

theorem placed_toDevice (r : IRotatablePaintDevice) (s : Int × Int) :
    a.placed r (a.toDevice s) = if a.Shown r s then some (a.src.pix s.1 s.2) else none := by
  unfold placed
  rw [a.toSource_toDevice]

theorem placed_of_shown {r : IRotatablePaintDevice} {p : Int × Int}
    (h : a.Shown r (a.toSource p)) :
    a.placed r p = some (a.src.pix (a.toSource p).1 (a.toSource p).2) := if_pos h

theorem placed_of_not_shown {r : IRotatablePaintDevice} {p : Int × Int}
    (h : ¬ a.Shown r (a.toSource p)) : a.placed r p = none := if_neg h

theorem placed_eq_none {r : IRotatablePaintDevice} {p : Int × Int}
    (h : ¬ a.src.Inside (a.toSource p).1 (a.toSource p).2) : a.placed r p = none :=
  if_neg fun hs => h hs.1

/-- The offset is not negative, and offset plus size fits in an `int`. -/
structure Fits : Prop where
  x_nonneg : 0 ≤ a.x
  y_nonneg : 0 ≤ a.y
  right : a.x + a.src.width ≤ INT_MAX
  bottom : a.y + a.src.height ≤ INT_MAX

namespace Fits

variable {a}

theorem sized (h : a.Fits) : a.src.Sized := by
  obtain ⟨hx, hy, hr, hb⟩ := h
  exact ⟨by omega, by omega⟩

theorem col_bounds (h : a.Fits) {sx : Int} (hs : 0 ≤ sx ∧ sx < a.src.width) :
    0 ≤ a.col sx ∧ IsInt (a.col sx) := by
  obtain ⟨hx, -, hr, -⟩ := h
  have := (mirrored_lt_iff a.flipX).mpr hs
  unfold col IsInt INT_MIN INT_MAX at *
  omega

theorem row_bounds (h : a.Fits) {sy : Int} (hs : 0 ≤ sy ∧ sy < a.src.height) :
    0 ≤ a.row sy ∧ IsInt (a.row sy) := by
  obtain ⟨-, hy, -, hb⟩ := h
  have := (mirrored_lt_iff a.flipY).mpr hs
  unfold row IsInt INT_MIN INT_MAX at *
  omega

end Fits

/-- The loops have passed the target `p` when they are about to read the pixel `n`: its source
pixel comes before `n`. -/
def seen (n : Int × Int) (p : Int × Int) : Prop := Precedes (a.toSource p) n

instance (n : Int × Int) : DecidablePred (a.seen n) :=
  fun p => inferInstanceAs (Decidable (Precedes (a.toSource p) n))

theorem seen_succ_iff {n p : Int × Int} :
    a.seen (n.1 + 1, n.2) p ↔ a.seen n p ∨ p = a.toDevice n := by
  rw [← a.toSource_eq_iff]
  exact precedes_succ_iff

theorem not_seen_self (n : Int × Int) : ¬ a.seen n (a.toDevice n) := by
  unfold seen Precedes
  rw [a.toSource_toDevice]
  omega

variable (r : IRotatablePaintDevice)

/-- The loops pass both clip tests at the source pixel `s`, and read it. -/
def Read (s : Int × Int) : Prop :=
  a.src.Inside s.1 s.2 ∧ a.col s.1 < r.width ∧ a.row s.2 < r.height

/-- The source returns on every pixel that the loops read before `n`. -/
def Reached (n : Int × Int) : Prop :=
  ∀ s, Precedes s n → a.Read r s → ∃ c, a.src.led s.1 s.2 = .ok c

variable {a r}

theorem reached_zero : a.Reached r (0, 0) :=
  fun _ hs hread => absurd hs (not_precedes_start hread.1)

theorem Reached.next {n : Int × Int} (h : a.Reached r n)
    (hn : a.Read r n → ∃ c, a.src.led n.1 n.2 = .ok c) : a.Reached r (n.1 + 1, n.2) := by
  intro s hs hread
  rcases precedes_succ_iff.mp hs with hs | rfl
  · exact h s hs hread
  · exact hn hread

theorem Reached.nextRow {sy : Int} (h : a.Reached r ((a.src.width.toNat : Int), sy)) :
    a.Reached r (0, sy + 1) := fun s hs hread => h s (hs.endOfRow hread.1.1) hread

/-- The loops read nothing in a row below the bottom edge. -/
theorem Read.row_ne {s : Int × Int} {sy : Int} (h : a.Read r s) (hrow : a.row sy ≥ r.height) :
    s.2 ≠ sy := by
  obtain ⟨-, -, hlt⟩ := h
  rintro rfl
  omega

theorem Reached.skipRow {sy : Int} (h : a.Reached r (0, sy)) (hrow : a.row sy ≥ r.height) :
    a.Reached r (0, sy + 1) :=
  fun s hs hread => h s (hs.startOfRow hread.1.1.1 (hread.row_ne hrow)) hread

end Placement

/-! ## The rule of the two loops -/

/-- An invariant of a call of `draw` on a device with the fields `r`: `Row sy` before the row `sy`
of the source is begun, `Pix n` before the pixel `n` is read, `E` when the call stops. -/
structure DrawInv {D : Type} [IPaintDevice D] (a : Placement) (r : IRotatablePaintDevice)
    (Row : Int → Session D → Prop) (Pix : Int × Int → Session D → Prop)
    (E : Fault → Session D → Prop) : Prop where
  base_row : ∀ {sy s}, Row sy s → base s.dev = r
  base_pix : ∀ {n s}, Pix n s → base s.dev = r
  rowOverflow : ∀ {sy s}, 0 ≤ sy ∧ sy < a.src.height → Row sy s → ¬ IsInt (a.row sy) →
    E (.undefined .intOverflow) (s.push (.sum (a.row sy)))
  rowSkip : ∀ {sy s}, 0 ≤ sy ∧ sy < a.src.height → Row sy s → IsInt (a.row sy) →
    a.row sy ≥ r.height → Row (sy + 1) (s.push (.sum (a.row sy)))
  rowEnter : ∀ {sy s}, 0 ≤ sy ∧ sy < a.src.height → Row sy s → IsInt (a.row sy) →
    a.row sy < r.height → Pix (0, sy) (s.push (.sum (a.row sy)))
  rowLeave : ∀ {sy s}, Pix (a.src.width.toNat, sy) s → Row (sy + 1) s
  pixOverflow : ∀ {n s}, a.src.Inside n.1 n.2 → Pix n s → a.row n.2 < r.height →
    ¬ IsInt (a.col n.1) → E (.undefined .intOverflow) (s.push (.sum (a.col n.1)))
  pixSkip : ∀ {n s}, a.src.Inside n.1 n.2 → Pix n s → IsInt (a.col n.1) →
    a.col n.1 ≥ r.width → Pix (n.1 + 1, n.2) (s.push (.sum (a.col n.1)))
  pixFault : ∀ {n s e}, a.src.Inside n.1 n.2 → Pix n s → a.row n.2 < r.height →
    IsInt (a.col n.1) → a.col n.1 < r.width → a.src.led n.1 n.2 = .error e →
    E e (s.push (.sum (a.col n.1)))
  pixKey : ∀ {n s c}, a.src.Inside n.1 n.2 → Pix n s → IsInt (a.col n.1) →
    a.src.led n.1 n.2 = .ok c → r.transparent_ = true ∧ c = r.back →
    Pix (n.1 + 1, n.2) (s.push (.sum (a.col n.1)))
  pixWrite : ∀ {n s c}, a.src.Inside n.1 n.2 → Pix n s → a.row n.2 < r.height →
    IsInt (a.col n.1) → a.col n.1 < r.width → a.src.led n.1 n.2 = .ok c →
    ¬ (r.transparent_ = true ∧ c = r.back) →
    Prog.Ends (fun _ => Pix (n.1 + 1, n.2)) E
      ((writeLed (a.col n.1) (a.row n.2) c).run (s.push (.sum (a.col n.1))))

namespace DrawInv

variable {D : Type} [IPaintDevice D] {a : Placement} {r : IRotatablePaintDevice}
  {Row : Int → Session D → Prop} {Pix : Int × Int → Session D → Prop}
  {E : Fault → Session D → Prop}

theorem pixel (h : DrawInv a r Row Pix E) (hsize : a.src.Sized) {n : Int × Int}
    (hn : a.src.Inside n.1 n.2) (hrow : a.row n.2 < r.height) :
    Prog.Triple (Pix n) (drawPixel a.src a.x a.flipX n.2 (a.row n.2) n.1)
      (fun _ => Pix (n.1 + 1, n.2)) E := by
  intro s hs
  rw [drawPixel_run n.2 _ hsize.width hn.1.1 hn.1.2 (show _ = a.col n.1 from rfl), width,
    h.base_pix hs]
  by_cases hint : IsInt (a.col n.1)
  swap
  · rw [if_pos hint]
    exact h.pixOverflow hn hs hrow hint
  rw [if_neg (not_not.mpr hint)]
  by_cases hcol : a.col n.1 ≥ r.width
  · rw [if_pos hcol]
    exact h.pixSkip hn hs hint hcol
  rw [if_neg hcol]
  cases hled : a.src.led n.1 n.2 with
  | error e => exact h.pixFault hn hs hrow hint (not_le.mp hcol) hled
  | ok c =>
    simp only
    by_cases hkey : r.transparent_ = true ∧ c = r.back
    · rw [if_pos hkey]
      exact h.pixKey hn hs hint hled hkey
    · rw [if_neg hkey]
      exact h.pixWrite hn hs hrow hint (not_le.mp hcol) hled hkey

theorem oneRow (h : DrawInv a r Row Pix E) (hsize : a.src.Sized) {sy : Int}
    (hsy : 0 ≤ sy ∧ sy < a.src.height) :
    Prog.Triple (Row sy) (drawRow a.src a.x a.y a.flipX a.flipY sy) (fun _ => Row (sy + 1)) E := by
  intro s hs
  rw [drawRow_run _ _ hsize.height hsy.1 hsy.2 (show _ = a.row sy from rfl), height,
    h.base_row hs]
  by_cases hint : IsInt (a.row sy)
  swap
  · rw [if_pos hint]
    exact h.rowOverflow hsy hs hint
  rw [if_neg (not_not.mpr hint)]
  by_cases hrow : a.row sy ≥ r.height
  · rw [if_pos hrow]
    exact h.rowSkip hsy hs hint hrow
  rw [if_neg hrow]
  have hloop := triple_forInt (fun i => Pix (i, sy)) (n := a.src.width) (E := E)
    fun i hi0 hi => h.pixel hsize (n := (i, sy)) ⟨⟨hi0, hi⟩, hsy⟩ (not_le.mp hrow)
  exact hloop.conseq (fun _ h => h) (fun _ _ => h.rowLeave) (fun _ _ h => h) _
    (h.rowEnter hsy hs hint (not_le.mp hrow))

/-- **The rule of `draw`.** An invariant of the loops holds to the end. -/
theorem triple (h : DrawInv a r Row Pix E) (hsize : a.src.Sized) :
    Prog.Triple (Row 0) (draw a.src a.x a.y a.flipX a.flipY)
      (fun _ => Row a.src.height.toNat) E :=
  triple_forInt Row fun _ h0 hlt => h.oneRow hsize ⟨h0, hlt⟩

end DrawInv

/-! ## The image after the loops -/

section Blit

variable {D : Type} [IPaintDevice D] (a : Placement) (r : IRotatablePaintDevice)
  (old : Int × Int → LedColor)

/-- The loops are about to read the source pixel `n`: the image is the old one with the passed
part of the layer over it. -/
def Blitted (n : Int × Int) (s : Session D) : Prop :=
  Shape r s ∧ ∀ p ∈ r.logical, pix s.dev p = paint (restrict (a.seen n) (a.placed r)) old p

variable {a r old}

theorem Blitted.push {n : Int × Int} {s : Session D} (h : Blitted a r old n s) (e : Event) :
    Blitted a r old n (s.push e) := h

/-- Before the first pixel only pixels off the source have been passed. -/
theorem Blitted.start {s : Session D} (hshape : Shape r s)
    (himg : ∀ p ∈ r.logical, pix s.dev p = old p) : Blitted a r old (0, 0) s := by
  refine ⟨hshape, fun p hp => ?_⟩
  rw [himg p hp]
  refine (paint_none ?_).symm
  by_cases hin : a.src.Inside (a.toSource p).1 (a.toSource p).2
  · exact restrict_of_not (not_precedes_start hin)
  · simp only [restrict, a.placed_eq_none hin, ite_self]

/-- Two places of the loops with the same image. -/
theorem Blitted.of_eq {n m : Int × Int} {s : Session D} (h : Blitted a r old n s)
    (he : ∀ p ∈ r.logical, restrict (a.seen n) (a.placed r) p =
      restrict (a.seen m) (a.placed r) p) : Blitted a r old m s := by
  refine ⟨h.1, fun p hp => ?_⟩
  rw [h.2 p hp]
  unfold paint
  rw [he p hp]

/-- Only the pixels of the source matter for the image. -/
theorem Blitted.of_seen_iff {n m : Int × Int} {s : Session D} (h : Blitted a r old n s)
    (he : ∀ p ∈ r.logical, a.src.Inside (a.toSource p).1 (a.toSource p).2 →
      (a.seen n p ↔ a.seen m p)) : Blitted a r old m s := by
  refine h.of_eq fun p hp => ?_
  by_cases hin : a.src.Inside (a.toSource p).1 (a.toSource p).2
  · by_cases hs : a.seen n p
    · rw [restrict_of hs, restrict_of ((he p hp hin).mp hs)]
    · rw [restrict_of_not hs, restrict_of_not fun h' => hs ((he p hp hin).mpr h')]
  · simp only [restrict, a.placed_eq_none hin, ite_self]

/-- Passing the pixel `n` changes the layer at the target of `n` alone. -/
theorem restrict_seen_succ {n p : Int × Int} (h : p ≠ a.toDevice n) :
    restrict (a.seen (n.1 + 1, n.2)) (a.placed r) p = restrict (a.seen n) (a.placed r) p := by
  by_cases hs : a.seen n p
  · rw [restrict_of hs, restrict_of (a.seen_succ_iff.mpr (.inl hs))]
  · rw [restrict_of_not hs, restrict_of_not fun h' => (a.seen_succ_iff.mp h').elim hs h]

/-- The loops may pass the pixel `n` without a write if its target is off the device or the colour
key hides it. -/
theorem Blitted.skip {n : Int × Int} {s : Session D} (h : Blitted a r old n s)
    (hskip : a.toDevice n ∉ r.logical ∨ ¬ a.Shown r n) :
    Blitted a r old (n.1 + 1, n.2) s := by
  refine h.of_eq fun p hp => ?_
  by_cases he : p = a.toDevice n
  · subst he
    rcases hskip with hoff | hkey
    · exact absurd hp hoff
    · rw [restrict_of_not (a.not_seen_self n), restrict_of (a.seen_succ_iff.mpr (.inr rfl)),
        a.placed_toDevice, if_neg hkey]
  · exact (restrict_seen_succ he).symm

/-- After the last pixel of a row the loops stand before the first one of the next. -/
theorem Blitted.nextRow {sy : Int} {s : Session D}
    (h : Blitted a r old ((a.src.width.toNat : Int), sy) s) : Blitted a r old (0, sy + 1) s := by
  refine h.of_seen_iff fun p _ hin => ?_
  obtain ⟨⟨h1, h2⟩, -⟩ := hin
  simp only [Placement.seen, Precedes]
  omega

/-- A row below the bottom edge paints nothing. -/
theorem Blitted.skipRow {sy : Int} {s : Session D} (h : Blitted a r old (0, sy) s)
    (hrow : a.row sy ≥ r.height) : Blitted a r old (0, sy + 1) s := by
  refine h.of_seen_iff fun p hp hin => ?_
  -- a pixel of the device is not in this row
  have hne : (a.toSource p).2 ≠ sy := by
    intro he
    have hlt : p.2 < r.height := hp.2.2
    rw [← a.toDevice_toSource p, Placement.toDevice, he] at hlt
    omega
  have := hin.1.1
  simp only [Placement.seen, Precedes]
  omega

/-- The source has stopped the loops with `e`, at the first pixel that they read and where it
does: what they passed before stays on the image. -/
def Stopped (a : Placement) (r : IRotatablePaintDevice) (old : Int × Int → LedColor) (e : Fault)
    (s : Session D) : Prop :=
  ∃ n, a.Read r n ∧ a.Reached r n ∧ a.src.led n.1 n.2 = .error e ∧ Blitted a r old n s

/-- A source that returns on every pixel never stops the loops. -/
theorem not_stopped (htot : a.src.Total) (e : Fault) (s : Session D) : ¬ Stopped a r old e s := by
  rintro ⟨n, hread, -, hled, -⟩
  rw [htot.led hread.1] at hled
  cases hled

variable [LawfulPaintDevice D]

/-- The write of the pixel `n` at its target. -/
theorem Blitted.write {n : Int × Int} {s : Session D} (h : Blitted a r old n s)
    (hp : a.toDevice n ∈ r.logical) (hs : a.Shown r n) :
    ∃ s' : Session D, (writeLed (a.col n.1) (a.row n.2) (a.src.pix n.1 n.2)).run s =
      (.ok (), s') ∧ Blitted a r old (n.1 + 1, n.2) s' := by
  obtain ⟨⟨hwf, hb⟩, himg⟩ := h
  have hp' : a.toDevice n ∈ logical s.dev := (mem_logical_iff hb).mpr hp
  obtain ⟨d', hrun, hwf', hb', -, hpix⟩ := hwf.writeLed_run hp' (a.src.pix n.1 n.2)
  refine ⟨_, hrun, ⟨hwf', hb'.trans hb⟩, fun p hpl => ?_⟩
  have hpl' : p ∈ logical s.dev := (mem_logical_iff hb).mpr hpl
  simp only
  rw [hpix p hpl']
  split
  · rename_i he
    subst he
    refine (paint_some ?_).symm
    rw [restrict_of (a.seen_succ_iff.mpr (.inr rfl)), a.placed_toDevice, if_pos hs]
  · rename_i he
    rw [himg p hpl]
    unfold paint
    rw [restrict_seen_succ he]

/-- `Blitted` is an invariant of the loops, and only the source stops them. -/
theorem blitted_inv (old : Int × Int → LedColor) (hfit : a.Fits) :
    DrawInv (D := D) a r (fun sy s => Blitted a r old (0, sy) s ∧ a.Reached r (0, sy))
      (fun n s => Blitted a r old n s ∧ a.Reached r n) (Stopped a r old) where
  base_row h := h.1.1.2
  base_pix h := h.1.1.2
  rowOverflow hsy _ hint := absurd (hfit.row_bounds hsy).2 hint
  rowSkip _ h _ hrow := ⟨(h.1.push _).skipRow hrow, h.2.skipRow hrow⟩
  rowEnter _ h _ _ := ⟨h.1.push _, h.2⟩
  rowLeave h := ⟨h.1.nextRow, h.2.nextRow⟩
  pixOverflow hn _ _ hint := absurd (hfit.col_bounds hn.1).2 hint
  pixSkip _ h _ hcol := ⟨(h.1.push _).skip (.inl fun hmem => absurd hmem.1.2 (not_lt.mpr hcol)),
    h.2.next fun hread => absurd hread.2.1 (not_lt.mpr hcol)⟩
  pixFault hn h hrow _ hcol hled := ⟨_, ⟨hn, hcol, hrow⟩, h.2, hled, h.1.push _⟩
  pixKey hn h _ hled hkey := ⟨(h.1.push _).skip (.inr fun hshow => hshow.2
    ⟨hkey.1, (PaintSource.led_eq_pix hled).trans hkey.2⟩), h.2.next fun _ => ⟨_, hled⟩⟩
  pixWrite := by
    intro n s c hn h hrow _ hcol hled hkey
    obtain rfl := PaintSource.led_eq_pix hled
    have hmem : a.toDevice n ∈ r.logical :=
      ⟨⟨(hfit.col_bounds hn.1).1, hcol⟩, (hfit.row_bounds hn.2).1, hrow⟩
    obtain ⟨s', hrun, hs'⟩ := (h.1.push (.sum (a.col n.1))).write hmem ⟨hn, hkey⟩
    rw [hrun]
    exact ⟨hs', h.2.next fun _ => ⟨_, hled⟩⟩

/-- The whole call. -/
theorem draw_triple (hfit : a.Fits) :
    Prog.Triple (fun s : Session D => Shape r s ∧ ∀ p ∈ r.logical, pix s.dev p = old p)
      (draw a.src a.x a.y a.flipX a.flipY)
      (fun _ s => Shape r s ∧ ∀ p ∈ r.logical, pix s.dev p = paint (a.placed r) old p)
      (Stopped a r old) := by
  refine ((blitted_inv old hfit).triple hfit.sized).conseq
    (fun s hs => ⟨.start hs.1 hs.2, Placement.reached_zero⟩)
    (fun _ s hs => ⟨hs.1.1, fun p hp => ?_⟩) fun _ _ h => h
  rw [hs.1.2 p hp]
  unfold paint
  by_cases hin : a.src.Inside (a.toSource p).1 (a.toSource p).2
  · have hseen : a.seen (0, (a.src.height.toNat : Int)) p := precedes_end hin
    rw [restrict_of hseen]
  · simp only [restrict, a.placed_eq_none hin, ite_self]

/-- `draw` on a well-formed device, as one step from device to device. -/
theorem draw_run (hfit : a.Fits) (htot : a.src.Total) {d : D} (h : Wf d) (t : List Event) :
    ∃ d' t', (draw a.src a.x a.y a.flipX a.flipY).run ⟨d, t⟩ = (.ok (), ⟨d', t'⟩) ∧ Wf d' ∧
      base d' = base d ∧ ∀ p ∈ logical d, pix d' p = paint (a.placed (base d)) (pix d) p := by
  obtain ⟨u, s', hrun, ⟨hwf, hb⟩, himg⟩ :=
    ((draw_triple hfit).conseq (fun _ hs => hs) (fun _ _ hs => hs) (not_stopped htot)).returns
      (s := (⟨d, t⟩ : Session D)) ⟨⟨h, rfl⟩, fun _ _ => rfl⟩
  exact ⟨s'.dev, s'.trace, hrun, hwf, hb, himg⟩

/-- The same as an operation of a client. -/
theorem draw_after (hfit : a.Fits) (htot : a.src.Total) {d : D} (h : Wf d) :
    (DeviceOp.draw a.src a.x a.y a.flipX a.flipY).outcome d = .ok () ∧
    Wf ((DeviceOp.draw a.src a.x a.y a.flipX a.flipY).after d) ∧
    base ((DeviceOp.draw a.src a.x a.y a.flipX a.flipY).after d) = base d ∧
    ∀ p ∈ logical d, pix ((DeviceOp.draw a.src a.x a.y a.flipX a.flipY).after d) p =
      paint (a.placed (base d)) (pix d) p := by
  obtain ⟨d', t', hrun, hwf', hbase, himg⟩ := draw_run hfit htot h []
  obtain ⟨houtcome, hafter⟩ := DeviceOp.outcome_after
    (.draw a.src a.x a.y a.flipX a.flipY) hrun
  rw [hafter]
  exact ⟨houtcome, hwf', hbase, himg⟩

end Blit

/-- **Drawing is exactly a clipped blit.** On a reachable device, from an offset that is not
negative and fits, `draw` returns; every logical pixel whose source pixel exists and is not hidden
by the colour key shows that source pixel, every other one keeps its colour, and so do the
orientation, the size, the back colour and the transparent flag. -/
theorem draw_blit {D : Type} [IPaintDevice D] [LawfulPaintDevice D] {d : D} (hd : Reachable d)
    (src : PaintSource) (htot : src.Total) (x y : Int) (flipX flipY : Bool) (hx : 0 ≤ x)
    (hy : 0 ≤ y) (hr : x + src.width ≤ INT_MAX) (hb : y + src.height ≤ INT_MAX) :
    (DeviceOp.draw src x y flipX flipY).outcome d = .ok () ∧
    base ((DeviceOp.draw src x y flipX flipY).after d) = base d ∧
    ∀ px py, 0 ≤ px ∧ px < width d → 0 ≤ py ∧ py < height d →
      ∀ sx sy, sx = (if flipX then src.width - 1 - (px - x) else px - x) →
        sy = (if flipY then src.height - 1 - (py - y) else py - y) →
        (src.Inside sx sy ∧
            ¬ ((base d).transparent_ = true ∧ src.led sx sy = .ok (base d).back) →
          led ((DeviceOp.draw src x y flipX flipY).after d) px py = src.led sx sy) ∧
        (¬ (src.Inside sx sy ∧
            ¬ ((base d).transparent_ = true ∧ src.led sx sy = .ok (base d).back)) →
          led ((DeviceOp.draw src x y flipX flipY).after d) px py = led d px py) := by
  let a : Placement := ⟨src, x, y, flipX, flipY⟩
  have hwf := hd.wf
  obtain ⟨houtcome, hwf', hbase, himg⟩ := draw_after (a := a) ⟨hx, hy, hr, hb⟩ htot hwf
  refine ⟨houtcome, hbase, ?_⟩
  rintro px py hpx hpy sx sy rfl rfl
  have hmem : (px, py) ∈ logical d := ⟨hpx, hpy⟩
  have hled : led ((DeviceOp.draw src x y flipX flipY).after d) px py =
      .ok (paint (a.placed (base d)) (pix d) (px, py)) := by
    rw [← himg _ hmem]
    exact hwf'.led_ok ((mem_logical_iff hbase).mpr hmem)
  -- the source pixel of the statement is `toSource`
  have hshown : (src.Inside (a.toSource (px, py)).1 (a.toSource (px, py)).2 ∧
      ¬ ((base d).transparent_ = true ∧ src.led (a.toSource (px, py)).1 (a.toSource (px, py)).2 =
        .ok (base d).back)) ↔ a.Shown (base d) (a.toSource (px, py)) :=
    and_congr_right fun hin => not_congr (and_congr_right fun _ => htot.led_eq_ok_iff hin)
  rw [hled]
  refine ⟨fun h => ?_, fun h => ?_⟩
  · have hs := hshown.mp h
    rw [paint_some (a.placed_of_shown hs)]
    exact (htot.led hs.1).symm
  · rw [paint_none (a.placed_of_not_shown fun hs => h (hshown.mpr hs))]
    exact (hwf.led_ok hmem).symm

/-- A mirrored row on a turned strip: its last pixel comes first, the colour key hides the middle
one and the first one is clipped. -/
theorem draw_blit_row :
    let strip := (WS2811Strip.make 3 2 Led.black).init (some fun _ => Led.white)
    let turned := (DeviceOp.setTransparent true).after
      ((DeviceOp.setRotate 90 false false).after strip)
    let drawn := (DeviceOp.draw (.row [Led.red, Led.black, Led.green]) 0 1 true false).after turned
    width drawn = 2 ∧ led drawn 0 1 = .ok Led.green ∧ led drawn 1 1 = .ok Led.white := by
  intro strip turned drawn
  have hturned : Reachable turned := .step _ (.step _
    (.fresh (WS2811Strip.fresh_init (by decide) (by decide) (by decide) _)))
  obtain ⟨-, hbase, himage⟩ := draw_blit hturned (.row [Led.red, Led.black, Led.green])
    (PaintSource.row_total _) 0 1 true false (by decide) (by decide) (by decide) (by decide)
  refine ⟨congrArg IRotatablePaintDevice.width hbase, ?_, ?_⟩
  · exact (himage 0 1 (by decide) (by decide) 2 0 rfl rfl).1 (by decide)
  · refine ((himage 1 1 (by decide) (by decide) 1 0 rfl rfl).2 (by decide)).trans ?_
    decide

end Ws2812
