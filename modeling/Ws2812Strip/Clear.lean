import Ws2812Strip.Draw

/-!
# Clearing

`clear` writes the back colour at every logical coordinate. As an orientation is a bijection
(`Wf.bijOn_cell`), that is every cell of the buffer, so the device is blank in every other
orientation too (`clear_reaches`).
-/

namespace Ws2812

open IPaintDevice Grid

section Loops

variable {D : Type} [IPaintDevice D] {r : IRotatablePaintDevice}

/-- The loops of `clear` are about to write the pixel `n`. -/
def Clearing (r : IRotatablePaintDevice) (n : Int × Int) (s : Session D) : Prop :=
  Shape r s ∧ ∀ p ∈ r.logical, Precedes p n → pix s.dev p = r.back

variable [LawfulPaintDevice D]

/-- One step of the loops. -/
theorem Clearing.step {n : Int × Int} {s : Session D} (h : Clearing r n s) (hn : n ∈ r.logical) :
    ∃ s' : Session D, (writeLed n.1 n.2 r.back).run s = (.ok (), s') ∧
      Clearing r (n.1 + 1, n.2) s' := by
  obtain ⟨⟨hwf, rfl⟩, himg⟩ := h
  obtain ⟨d', hrun, hwf', hb, -, hpix⟩ := hwf.writeLed_run hn (base s.dev).back
  refine ⟨_, hrun, ⟨hwf', hb⟩, fun p hp hprec => (hpix p hp).trans ?_⟩
  split
  · rfl
  · rename_i hne
    exact himg p hp ((precedes_succ_iff.mp hprec).resolve_right hne)

/-- The row `y`. -/
theorem clearRow_triple {y : Int} (hy : 0 ≤ y ∧ y < r.height) :
    Prog.Triple (Clearing (D := D) r (0, y))
      (do
        let w ← field width
        forInt w fun x => do
          let back ← field fun d => (base d).back
          writeLed x y back)
      (fun _ => Clearing r (0, y + 1)) (fun _ _ => False) := by
  intro s hs
  have hwidth : width s.dev = r.width := by rw [width, hs.1.2]
  have hpixel : ∀ x, 0 ≤ x → x < r.width →
      Prog.Triple (Clearing (D := D) r (x, y))
        (do
          let back ← field fun d => (base d).back
          writeLed x y back)
        (fun _ => Clearing r (x + 1, y)) (fun _ _ => False) := by
    intro x h0 hlt s hs
    obtain ⟨s', hrun, hs'⟩ := hs.step ⟨⟨h0, hlt⟩, hy⟩
    simp only [field, Prog.run_read_bind, hs.1.2, hrun]
    exact hs'
  have hloop := triple_forInt (fun x => Clearing (D := D) r (x, y)) hpixel
  simp only [field, Prog.run_read_bind, hwidth]
  refine hloop.conseq (fun _ h => h) (fun _ s' hs' => ⟨hs'.1, fun p hp hprec => ?_⟩)
    (fun _ _ h => h) s hs
  exact hs'.2 p hp (hprec.endOfRow hp.1)

/-- `clear` on a well-formed device. -/
theorem clear_run {d : D} (h : Wf d) :
    ∃ d' t', (clear : DevM D Unit).run ⟨d, []⟩ = (.ok (), ⟨d', t'⟩) ∧ Wf d' ∧
      base d' = base d ∧ ∀ p ∈ logical d, pix d' p = (base d).back := by
  have hloop := triple_forInt (fun y => Clearing (D := D) (base d) (0, y))
    (n := (base d).height) (E := fun _ _ => False) fun y h0 hlt => clearRow_triple ⟨h0, hlt⟩
  have hstart : Clearing (base d) (0, 0) (⟨d, []⟩ : Session D) := by
    refine ⟨⟨h, rfl⟩, fun p hp hprec => ?_⟩
    obtain ⟨⟨h1, -⟩, h2, -⟩ := hp
    simp only [Precedes] at hprec
    omega
  obtain ⟨u, s', hrun, ⟨hwf, hb⟩, himg⟩ := hloop.returns hstart
  refine ⟨s'.dev, s'.trace, hrun, hwf, hb, fun p hp => himg p hp (.inl ?_)⟩
  have hlast := hp.2.2
  simp only
  omega

end Loops

/-! ## Every LED -/

/-- The device after a sequence of `set_rotate(degree, flip_x, flip_y)` calls, those that throw
included. -/
def rotated {D : Type} [IPaintDevice D] (calls : List (Int × Bool × Bool)) (d : D) : D :=
  calls.foldl (fun d call => (DeviceOp.setRotate call.1 call.2.1 call.2.2).after d) d

variable {D : Type} [IPaintDevice D] [LawfulPaintDevice D]

/-- A rotation does not touch the buffer. -/
theorem leds_rotated (calls : List (Int × Bool × Bool)) (d : D) :
    leds (rotated calls d) = leds d := by
  induction calls generalizing d with
  | nil => rfl
  | cons call calls ih => exact (ih _).trans (LawfulPaintDevice.leds_setBase _ _)

theorem wf_rotated (calls : List (Int × Bool × Bool)) {d : D} (h : Wf d) :
    Wf (rotated calls d) := by
  induction calls generalizing d with
  | nil => exact h
  | cons call calls ih => exact ih (DeviceOp.wf_after _ h)

/-- On a device whose cells all have one colour every pixel has it. -/
theorem Wf.led_of_replicate {d : D} (h : Wf d) {n : Nat} {c : LedColor}
    (hleds : leds d = some (List.replicate n c)) {p : Int × Int} (hp : p ∈ logical d) :
    led d p.1 p.2 = .ok c := by
  have hcell := h.cell_mem hp
  rw [hleds, Option.getD_some, List.length_replicate] at hcell
  have hlt : ((layout D).cell (base d).width_ ((base d).point p)).toNat < n := by
    unfold IRotatablePaintDevice.cell at hcell
    omega
  rw [h.led_ok hp]
  unfold pix phys
  rw [hleds]
  simp [hlt]

/-- **Clearing.** On a reachable device, `set_background(c)` and `clear` set every cell of the
buffer to `c`, and every pixel shows `c` after any sequence of `set_rotate` calls. -/
theorem clear_reaches {d : D} (hd : Reachable d) (c : LedColor) {cleared : D}
    (hcleared : cleared = DeviceOp.clear.after ((DeviceOp.setBackground c).after d)) :
    (DeviceOp.setBackground c).outcome d = .ok () ∧
    DeviceOp.clear.outcome ((DeviceOp.setBackground c).after d) = .ok () ∧
    leds cleared = some (List.replicate ((base d).width_ * (base d).height_).toNat c) ∧
    ∀ calls x y, 0 ≤ x ∧ x < width (rotated calls cleared) →
      0 ≤ y ∧ y < height (rotated calls cleared) → led (rotated calls cleared) x y = .ok c := by
  have hback : base ((DeviceOp.setBackground c).after d) = { base d with back := c } :=
    LawfulPaintDevice.base_setBase _ d
  obtain ⟨d', t', hrun, hwf', hb, himg⟩ := clear_run ((DeviceOp.setBackground c).wf_after hd.wf)
  obtain ⟨hreturns, hafter⟩ := DeviceOp.outcome_after .clear hrun
  obtain rfl : cleared = d' := hcleared.trans hafter
  rw [hback] at hb
  have hleds : leds cleared =
      some (List.replicate ((base d).width_ * (base d).height_).toNat c) := by
    have hall := hwf'.leds_eq_replicate (c := c) fun p hp => by
      rw [himg p ((mem_logical_iff hback).mpr ((mem_logical_iff hb).mp hp)), hback]
    rw [hall, hb]
  refine ⟨rfl, hreturns, hleds, fun calls x y hx hy => ?_⟩
  exact (wf_rotated calls hwf').led_of_replicate ((leds_rotated calls cleared).trans hleds)
    (p := (x, y)) ⟨hx, hy⟩

/-- A pixmap that was turned and drawn on, cleared to green and turned again. -/
theorem clear_reaches_pixmap :
    let d := (DeviceOp.draw (.solid 1 1 Led.red) 1 0 false false).after
      ((DeviceOp.setRotate 90 false true).after (Pixmap.make 3 2 Led.black))
    led (rotated [(180, true, false)] (DeviceOp.clear.after
      ((DeviceOp.setBackground Led.green).after d))) 2 1 = .ok Led.green := by
  intro d
  have hd : Reachable d :=
    .step _ (.step _ (.fresh (Pixmap.fresh_make (by decide) (by decide) (by decide))))
  exact (clear_reaches hd Led.green rfl).2.2.2 [(180, true, false)] 2 1 (by decide) (by decide)

end Ws2812
