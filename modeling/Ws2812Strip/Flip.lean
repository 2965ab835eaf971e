import Ws2812Strip.Devices
import Ws2812Strip.Draw

/-!
# What `flip` does to an image

`flip` exchanges the pixels of the left half of the device with their partners. `flip_triple` is the
rule for its loops, `flip_run` gives the image that this leaves, and `mirrors_iff` when it is the
mirror image.

* With `flip_x` alone the partners of the left half are the right half, and the image is mirrored.
* With `flip_y` alone the partner of a pixel is in the same half, so each pair is exchanged twice
  and the image stays as it is.
* With both the partners are the right half again, but the middle column of an odd width is in
  neither half.
-/

namespace Ws2812

open IPaintDevice Grid Overlay

/-- The partner of the point `p` on a device with the fields `r`. -/
def partner (r : IRotatablePaintDevice) (flipX flipY : Bool) (p : Int × Int) : Int × Int :=
  (mirrored flipX r.width p.1, mirrored flipY r.height p.2)

/-- The loops have exchanged the point `p` with its partner when they are about to reach `n`. -/
def Passed (r : IRotatablePaintDevice) (n p : Int × Int) : Prop :=
  p.1 < r.width / 2 ∧ Precedes p n

instance (r : IRotatablePaintDevice) (n : Int × Int) : DecidablePred (Passed r n) :=
  fun p => inferInstanceAs (Decidable (p.1 < r.width / 2 ∧ Precedes p n))

section Loops

variable {D : Type} [IPaintDevice D] {r : IRotatablePaintDevice} {flipX flipY : Bool}
  {old : Int × Int → LedColor}

@[simp] theorem partner_partner (p : Int × Int) :
    partner r flipX flipY (partner r flipX flipY p) = p := by
  simp [partner]

theorem partner_mem {p : Int × Int} : partner r flipX flipY p ∈ r.logical ↔ p ∈ r.logical :=
  and_congr (mirrored_lt_iff flipX) (mirrored_lt_iff flipY)

theorem not_passed_self (n : Int × Int) : ¬ Passed r n n := by
  rintro ⟨-, hprec⟩
  unfold Precedes at hprec
  omega

theorem passed_succ_iff {n q : Int × Int} (hhalf : n.1 < r.width / 2) :
    Passed r (n.1 + 1, n.2) q ↔ Passed r n q ∨ q = n := by
  unfold Passed
  rw [precedes_succ_iff]
  constructor
  · rintro ⟨hq, h | rfl⟩
    · exact .inl ⟨hq, h⟩
    · exact .inr rfl
  · rintro (⟨hq, h⟩ | rfl)
    · exact ⟨hq, .inl h⟩
    · exact ⟨hhalf, .inr rfl⟩

theorem not_passed_start {p : Int × Int} (hp : p ∈ r.logical) : ¬ Passed r (0, 0) p := by
  obtain ⟨⟨h1, -⟩, h2, -⟩ := hp
  rintro ⟨-, hprec⟩
  simp only [Precedes] at hprec
  omega

/-- At the end the loops have passed the left half. -/
theorem passed_end_iff {p : Int × Int} (hp : p ∈ r.logical) :
    Passed r (0, (r.height.toNat : Int)) p ↔ p.1 < r.width / 2 := by
  obtain ⟨-, h2, h3⟩ := hp
  refine and_iff_left (.inl ?_)
  simp only
  omega

/-- The invariant rule of `flip`: `J n` holds when the loops are about to reach the point `n`, and
depends on `n` only through the points that they have passed. -/
theorem flip_triple {J : Int × Int → Session D → Prop} (hw : 0 ≤ r.width)
    (hbase : ∀ n s, J n s → base s.dev = r)
    (hpassed : ∀ n m s, (∀ p ∈ r.logical, Passed r n p ↔ Passed r m p) → J n s → J m s)
    (hstep : ∀ n s, J n s → n ∈ r.logical → n.1 < r.width / 2 →
      ∃ s', (flipPixel flipX flipY n.2 n.1).run s = (.ok (), s') ∧ J (n.1 + 1, n.2) s') :
    Prog.Triple (J (0, 0)) (flip flipX flipY) (fun _ => J (0, (r.height.toNat : Int)))
      (fun _ _ => False) := by
  have hrow : ∀ y, 0 ≤ y → y < r.height → Prog.Triple (J (0, y))
      (do
        let w ← field width
        forInt (w.tdiv 2) (flipPixel flipX flipY y))
      (fun _ => J (0, y + 1)) (fun _ _ => False) := by
    intro y hy0 hy s hs
    have hwidth : width s.dev = r.width := by rw [width, hbase _ s hs]
    simp only [field, Prog.run_read_bind, hwidth, Int.tdiv_eq_ediv_of_nonneg hw]
    have hloop := triple_forInt (fun i => J (i, y)) (n := r.width / 2) (E := fun _ _ => False)
      fun i hi0 hi s hs => by
        obtain ⟨s', hrun, hs'⟩ := hstep (i, y) s hs ⟨⟨hi0, by omega⟩, hy0, hy⟩ hi
        simp only at hrun
        rw [hrun]
        exact hs'
    refine hloop.conseq (fun _ h => h) (fun _ s' hs' => ?_) (fun _ _ h => h) s hs
    -- the end of the row and the start of the next one have the same points behind them
    refine hpassed _ _ s' (fun p hp => and_congr_right fun hhalf => ?_) hs'
    obtain ⟨⟨hp0, -⟩, -⟩ := hp
    simp only [Precedes]
    omega
  intro s hs
  have hheight : height s.dev = r.height := by rw [height, hbase _ s hs]
  simp only [flip, field, Prog.run_read_bind, hheight]
  exact triple_forInt (fun y => J (0, y)) hrow s hs

/-- The loops are about to reach the point `n`. -/
def Flipping (r : IRotatablePaintDevice) (flipX flipY : Bool) (old : Int × Int → LedColor)
    (n : Int × Int) (s : Session D) : Prop :=
  Shape r s ∧ ∀ p ∈ r.logical,
    pix s.dev p = exchange (partner r flipX flipY) (Passed r n) old p

/-- Two places of the loops that have the same points of the device behind them. -/
theorem Flipping.of_iff {n m : Int × Int} {s : Session D}
    (h : Flipping r flipX flipY old n s)
    (hiff : ∀ p ∈ r.logical, Passed r n p ↔ Passed r m p) : Flipping r flipX flipY old m s := by
  refine ⟨h.1, fun p hp => ?_⟩
  rw [h.2 p hp]
  exact exchange_congr (hiff p hp) (hiff _ (partner_mem.mpr hp))

variable [LawfulPaintDevice D]

/-- The loop body exchanges a point with its partner. -/
theorem flipPixel_run (flipX flipY : Bool) {s : Session D} (hs : Shape r s) {n : Int × Int}
    (hn : n ∈ r.logical) :
    ∃ s' : Session D, (flipPixel flipX flipY n.2 n.1).run s = (.ok (), s') ∧ Shape r s' ∧
      ∀ p ∈ r.logical, pix s'.dev p =
        if p = partner r flipX flipY n then pix s.dev n
        else if p = n then pix s.dev (partner r flipX flipY n) else pix s.dev p := by
  obtain ⟨hwf, rfl⟩ := hs
  obtain ⟨⟨-, hw⟩, -, hh⟩ := hwf.fields.logical_side
  have hdx : flipped flipX (width s.dev) n.1 = .ok _ := flipped_ok flipX hw hn.1.1 hn.1.2
  have hdy : flipped flipY (height s.dev) n.2 = .ok _ := flipped_ok flipY hh hn.2.1 hn.2.2
  set m := partner (base s.dev) flipX flipY n with hm
  have hmem : m ∈ logical s.dev := partner_mem.mpr hn
  -- the four accesses, each in the session that the one before it leaves
  have hread := hwf.readLed_run (s := s) hn
  have hread' := Wf.readLed_run (s := s.push (.access n.1 n.2)) hwf hmem
  obtain ⟨d₁, hwrite, hwf₁, hb₁, -, hpix₁⟩ := Wf.writeLed_run
    (s := (s.push (.access n.1 n.2)).push (.access m.1 m.2)) hwf hn (pix s.dev m)
  have hmem₁ : m ∈ logical d₁ := (mem_logical_iff hb₁).mpr hmem
  obtain ⟨d₂, hwrite', hwf₂, hb₂, -, hpix₂⟩ := Wf.writeLed_run
    (s := { ((s.push (.access n.1 n.2)).push (.access m.1 m.2)).push (.access n.1 n.2) with
      dev := d₁ }) hwf₁ hmem₁ (pix s.dev n)
  refine ⟨_, Eq.trans ?_ hwrite', ⟨hwf₂, hb₂.trans hb₁⟩, fun p hp => ?_⟩
  · simp only [flipPixel, field, Prog.run_read_bind, hdx, hdy, Prog.run_lift_ok_bind]
    refine (Prog.run_bind_ok hread).trans ?_
    refine (Prog.run_bind_ok hread').trans ?_
    exact Prog.run_bind_ok hwrite
  · have hp₁ : p ∈ logical d₁ := (mem_logical_iff hb₁).mpr hp
    simp only
    rw [hpix₂ p hp₁, hpix₁ p hp]
    rfl

/-- One step of the loops. -/
theorem Flipping.step {n : Int × Int} {s : Session D} (h : Flipping r flipX flipY old n s)
    (hn : n ∈ r.logical) (hhalf : n.1 < r.width / 2) :
    ∃ s' : Session D, (flipPixel flipX flipY n.2 n.1).run s = (.ok (), s') ∧
      Flipping r flipX flipY old (n.1 + 1, n.2) s' := by
  obtain ⟨s', hrun, hs', hpix⟩ := flipPixel_run flipX flipY h.1 hn
  refine ⟨s', hrun, hs', fun p hp => ?_⟩
  rw [hpix p hp, h.2 p hp, h.2 n hn, h.2 _ (partner_mem.mpr hn),
    exchange_succ partner_partner (not_passed_self n) fun _ => passed_succ_iff hhalf]

/-- `flip` on a well-formed device: every pixel of the left half has been exchanged with its
partner. -/
theorem flip_run {d : D} (h : Wf d) (flipX flipY : Bool) :
    ∃ d' t', (flip flipX flipY).run ⟨d, []⟩ = (.ok (), ⟨d', t'⟩) ∧ Wf d' ∧ base d' = base d ∧
      ∀ p ∈ logical d, pix d' p =
        exchange (partner (base d) flipX flipY) (fun q => q.1 < width d / 2) (pix d) p := by
  have hloop := flip_triple (D := D) (J := Flipping (base d) flipX flipY (pix d))
    h.fields.logical_side.1.1.le (fun _ _ hs => hs.1.2) (fun _ _ _ hiff hs => hs.of_iff hiff)
    fun _ _ hs hn hhalf => hs.step hn hhalf
  have hstart : Flipping (base d) flipX flipY (pix d) (0, 0) (⟨d, []⟩ : Session D) := by
    refine ⟨⟨h, rfl⟩, fun p hp => (exchange_of_iff ?_).symm⟩
    exact iff_of_false (not_passed_start hp) (not_passed_start (partner_mem.mpr hp))
  obtain ⟨u, s', hrun, ⟨⟨hwf', hb⟩, himg⟩⟩ := hloop.returns hstart
  refine ⟨s'.dev, s'.trace, hrun, hwf', hb, fun p hp => ?_⟩
  rw [himg p hp]
  exact exchange_congr (passed_end_iff hp) (passed_end_iff (partner_mem.mpr hp))

/-- Which pixels have changed places with their partners at the end. -/
theorem exchange_left (flipX flipY : Bool) (old : Int × Int → LedColor) {p : Int × Int}
    (hp : p ∈ r.logical) :
    exchange (partner r flipX flipY) (fun q => q.1 < r.width / 2) old p =
      if flipX = true ∧ 2 * p.1 + 1 ≠ r.width then old (partner r flipX flipY p) else old p := by
  obtain ⟨⟨h0, hlt⟩, -⟩ := hp
  cases flipX with
  | false =>
    rw [exchange_of_iff (by simp [partner, mirrored]), if_neg (by simp)]
  | true =>
    by_cases hmid : 2 * p.1 + 1 = r.width
    · rw [if_neg (by simp [hmid])]
      refine exchange_of_iff ?_
      simp only [partner, mirrored, if_true]
      omega
    · rw [if_pos ⟨rfl, hmid⟩]
      refine exchange_of_not_iff ?_
      simp only [partner, mirrored, if_true]
      omega

/-- The partner of a pixel that stays is in its own column. -/
theorem mirrored_middle {flip : Bool} {n i : Int} (h : flip = true → 2 * i + 1 = n) :
    mirrored flip n i = i := by
  unfold mirrored
  split
  · have := h ‹_›
    omega
  · rfl

end Loops

section Mirrors

variable {D : Type} [IPaintDevice D]

/-- `flip(flip_x, flip_y)` returns and mirrors the image. -/
structure Mirrors (d : D) (flipX flipY : Bool) : Prop where
  returns : (DeviceOp.flip flipX flipY).outcome d = .ok ()
  image : ∀ x y, 0 ≤ x ∧ x < width d → 0 ≤ y ∧ y < height d →
    led ((DeviceOp.flip flipX flipY).after d) x y =
      led d (if flipX then width d - 1 - x else x) (if flipY then height d - 1 - y else y)

variable [LawfulPaintDevice D]

/-- **When `flip` mirrors.** On a reachable device `flip` mirrors the image exactly when it need
not exchange rows, or those that it leaves alone are alike: all columns if `flip_x` is not set,
and the middle one of an odd width if it is. -/
theorem mirrors_iff {d : D} (hd : Reachable d) (flipX flipY : Bool) :
    Mirrors d flipX flipY ↔ (flipY = true →
      ∀ x y, 0 ≤ x ∧ x < width d → 0 ≤ y ∧ y < height d →
        (flipX = true → 2 * x + 1 = width d) → led d x y = led d x (height d - 1 - y)) := by
  have hwf := hd.wf
  obtain ⟨d', t', hrun, hwf', hb, himg⟩ := flip_run hwf flipX flipY
  obtain ⟨hreturns, hafter⟩ := DeviceOp.outcome_after (.flip flipX flipY) hrun
  have hled : ∀ x y, (x, y) ∈ logical d → led d' x y =
      .ok (if flipX = true ∧ 2 * x + 1 ≠ width d then
        pix d (partner (base d) flipX flipY (x, y)) else pix d (x, y)) := by
    intro x y hp
    have hp' : (x, y) ∈ logical d' := (mem_logical_iff hb).mpr hp
    have hshow := hwf'.led_ok hp'
    have hex := exchange_left flipX flipY (pix d) hp
    rw [himg _ hp] at hshow
    exact hshow.trans (congrArg Except.ok hex)
  have htarget : ∀ x y, (x, y) ∈ logical d →
      led d (if flipX then width d - 1 - x else x) (if flipY then height d - 1 - y else y) =
        .ok (pix d (partner (base d) flipX flipY (x, y))) := fun x y hp =>
    hwf.led_ok (p := partner (base d) flipX flipY (x, y)) (partner_mem.mpr hp)
  constructor
  · rintro ⟨-, h⟩ rfl x y hx hy hmid
    have hp : (x, y) ∈ logical d := ⟨hx, hy⟩
    have heq := h x y hx hy
    rw [hafter, hled x y hp, if_neg fun hmove => hmove.2 (hmid hmove.1)] at heq
    have hcol : (if flipX then width d - 1 - x else x) = x := mirrored_middle hmid
    rw [hwf.led_ok (p := (x, y)) hp, heq, hcol]
    rfl
  · intro h
    refine ⟨hreturns, fun x y hx hy => ?_⟩
    have hp : (x, y) ∈ logical d := ⟨hx, hy⟩
    rw [hafter, hled x y hp]
    by_cases hmove : flipX = true ∧ 2 * x + 1 ≠ width d
    · rw [if_pos hmove, htarget x y hp]
    · rw [if_neg hmove, ← hwf.led_ok (p := (x, y)) hp]
      have hmid : flipX = true → 2 * x + 1 = width d := fun hX =>
        not_not.mp fun hne => hmove ⟨hX, hne⟩
      have hcol : (if flipX then width d - 1 - x else x) = x := mirrored_middle hmid
      rw [hcol]
      cases flipY with
      | false => rfl
      | true => exact h rfl x y hx hy hmid

end Mirrors

/-- A turned strip of three columns, the middle one all red, mirrored both ways. -/
theorem mirrors_iff_turned :
    let strip := (WS2811Strip.make 2 3 Led.black).init (some fun _ => Led.black)
    let turned := (DeviceOp.setRotate 90 false false).after strip
    let column := (DeviceOp.write 1 1 Led.red).after ((DeviceOp.write 1 0 Led.red).after turned)
    Mirrors ((DeviceOp.write 0 0 Led.green).after column) true true := by
  intro strip turned column
  have hcolumn : Reachable column := .step _ (.step _ (.step _
    (.fresh (WS2811Strip.fresh_init (by decide) (by decide) (by decide) _))))
  have hwidth : width ((DeviceOp.write 0 0 Led.green).after column) = 3 := by decide
  have hheight : height ((DeviceOp.write 0 0 Led.green).after column) = 2 := by decide
  refine (mirrors_iff (.step _ hcolumn) true true).mpr fun _ x y _ hy hmid => ?_
  obtain rfl : x = 1 := by
    have hx := hmid rfl
    omega
  rw [hheight] at hy ⊢
  obtain rfl | rfl : y = 0 ∨ y = 1 := by omega
  · decide
  · decide

/-- A column of two pixels keeps its order, and so does the middle one of three columns. -/
theorem not_mirrors :
    ¬ Mirrors ((DeviceOp.write 0 0 Led.red).after (Pixmap.make 1 2 Led.black)) false true ∧
    ¬ Mirrors ((DeviceOp.write 1 0 Led.red).after (Pixmap.make 3 2 Led.black)) true true :=
  ⟨fun h => absurd (h.image 0 0 (by decide) (by decide)) (by decide),
    fun h => absurd (h.image 1 0 (by decide) (by decide)) (by decide)⟩

end Ws2812
