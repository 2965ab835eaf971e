import Ws2812Strip.Flip
import Ws2812Strip.TextDraw

/-!
# Laws of drawing

What can be said of the framebuffer after several calls, on any device.

* `framebuffer_eq_iff`: what a sequence of draws leaves is what one sees from above. Two sequences
  leave the same framebuffer exactly if they look the same.
* `flip_twice`: a flip loses no colour, and is undone by the same flip.
-/

namespace Ws2812

open IPaintDevice Grid Overlay

/-- A list whose elements have changed places. -/
theorem perm_of_places {α : Type} {xs ys : List α} (hlen : ys.length = xs.length) {f : Nat → Nat}
    (hf : ∀ i < xs.length, f i < xs.length ∧ f (f i) = i)
    (hget : ∀ i < xs.length, ys[i]? = xs[f i]?) : ys.Perm xs := by
  have hplaces : ((List.range xs.length).map f).Perm (List.range xs.length) := by
    have hinj : ∀ i ∈ List.range xs.length, ∀ j ∈ List.range xs.length, f i = f j → i = j := by
      intro i hi j hj h
      rw [← (hf i (List.mem_range.mp hi)).2, h, (hf j (List.mem_range.mp hj)).2]
    refine (List.perm_ext_iff_of_nodup (List.Nodup.map_on hinj List.nodup_range)
      List.nodup_range).mpr fun i => ?_
    simp only [List.mem_map, List.mem_range]
    constructor
    · rintro ⟨j, hj, rfl⟩
      exact (hf j hj).1
    · exact fun hi => ⟨f i, (hf i hi).1, (hf i hi).2⟩
  have hxs : (List.range xs.length).map (fun i => xs[i]?) = xs.map some := by
    apply List.ext_getElem <;> simp
  have hys : (List.range xs.length).map (fun i => xs[f i]?) = ys.map some := by
    apply List.ext_getElem
    · simp [hlen]
    · intro i hi hi'
      have hlt : i < xs.length := by simpa using hi
      simp [← hget i hlt, hlen ▸ hlt]
  have hmap := hplaces.map fun i => xs[i]?
  rw [List.map_map, Function.comp_def, hxs, hys] at hmap
  exact (List.map_perm_map_iff (Option.some_injective α)).mp hmap

section Laws

variable {D : Type} [IPaintDevice D] {d d' : D}

/-- Buffers are alike exactly if the images are. -/
theorem Wf.leds_eq_iff (h : Wf d) (h' : Wf d') (hb : base d' = base d) :
    leds d' = leds d ↔ ∀ p ∈ logical d, pix d' p = pix d p := by
  refine ⟨fun hleds p _ => ?_, h.leds_eq h' hb⟩
  unfold pix phys
  rw [hb, hleds]

/-- The cell of a pixel holds its colour. -/
theorem Wf.getElem_cell (h : Wf d) {cells : List LedColor} (he : leds d = some cells)
    {p : Int × Int} (hp : p ∈ logical d) :
    cells[((base d).cell (layout D) p).toNat]? = some (pix d p) := by
  obtain ⟨h0, hlt⟩ := h.cell_mem hp
  rw [he, Option.getD_some] at hlt
  have hget : pix d p = cells.getD ((base d).cell (layout D) p).toNat Led.black := by
    unfold pix phys
    rw [he]
    rfl
  have hlt' : ((base d).cell (layout D) p).toNat < cells.length := by omega
  rw [hget, List.getD_eq_getElem?_getD, List.getElem?_eq_getElem hlt', Option.getD_some]

/-- **The view from above decides.** On any device, two sequences of draws of sources that do not
read the device leave the same framebuffer exactly if at every pixel the last layer that paints it,
or else the image before, has the same colour in both. -/
theorem framebuffer_eq_iff [LawfulPaintDevice D] {as bs : List Placement}
    (has : ∀ a ∈ as, a.Fits ∧ a.src.Total) (hbs : ∀ b ∈ bs, b.Fits ∧ b.src.Total) (hwf : Wf d) :
    framebuffer (as.map Placement.op) d = framebuffer (bs.map Placement.op) d ↔
      ∀ p ∈ logical d, look (fun a => a.placed (base d)) as.reverse (pix d) p =
        look (fun b => b.placed (base d)) bs.reverse (pix d) p := by
  obtain ⟨d₁, hframe₁, hwf₁, hb₁, himg₁⟩ := framebuffer_draws has hwf
  obtain ⟨d₂, hframe₂, hwf₂, hb₂, himg₂⟩ := framebuffer_draws hbs hwf
  rw [hframe₁, hframe₂, Except.ok.injEq, hwf₂.leds_eq_iff hwf₁ (hb₁.trans hb₂.symm)]
  refine forall_congr' fun p => ?_
  rw [mem_logical_iff hb₂]
  refine imp_congr_right fun hp => ?_
  rw [himg₁ p hp, himg₂ p hp, paintAll_eq_look_reverse, paintAll_eq_look_reverse]

/-- The pixels of an image that has changed places within the device are those of before. -/
theorem Wf.leds_perm (h : Wf d) (h' : Wf d') (hb : base d' = base d) {τ : Int × Int → Int × Int}
    (hmem : ∀ p ∈ logical d, τ p ∈ logical d) (hτ : ∀ p ∈ logical d, τ (τ p) = p)
    (himg : ∀ p ∈ logical d, pix d' p = pix d (τ p)) :
    ∃ cells cells', leds d = some cells ∧ leds d' = some cells' ∧ cells'.Perm cells := by
  obtain ⟨cells, he, hlen⟩ := id h.cells
  obtain ⟨cells', he', hlen'⟩ := id h'.cells
  rw [hb] at hlen'
  have hlength : cells'.length = cells.length := by omega
  refine ⟨cells, cells', he, he', ?_⟩
  have hpoint : ∀ i : Nat, i < cells.length →
      ∃ p ∈ logical d, (base d).cell (layout D) p = i := fun i hi =>
    h.exists_cell (by rwa [he])
  choose! point hpoint hcell using hpoint
  -- the cell that the pixel in the cell `i` comes from
  let place := fun i => ((base d).cell (layout D) (τ (point i))).toNat
  have hplace : ∀ i < cells.length, place i < cells.length ∧ point (place i) = τ (point i) := by
    intro i hi
    have hτi := hmem _ (hpoint i hi)
    obtain ⟨h0, hlt⟩ := h.cell_mem hτi
    rw [he, Option.getD_some] at hlt
    have hi' : place i < cells.length := by
      show ((base d).cell (layout D) (τ (point i))).toNat < cells.length
      omega
    refine ⟨hi', (h.fields.bijOn_cell (layout D)).injOn (hpoint _ hi') hτi ?_⟩
    rw [hcell _ hi']
    exact Int.toNat_of_nonneg h0
  refine perm_of_places hlength (f := place) (fun i hi => ⟨(hplace i hi).1, ?_⟩) fun i hi => ?_
  · show ((base d).cell (layout D) (τ (point (place i)))).toNat = i
    rw [(hplace i hi).2, hτ _ (hpoint i hi), hcell i hi, Int.toNat_natCast]
  · have hnew := h'.getElem_cell he' ((mem_logical_iff hb).mpr (hpoint i hi))
    rw [hb, hcell i hi, Int.toNat_natCast, himg _ (hpoint i hi)] at hnew
    rw [hnew, ← h.getElem_cell he (hmem _ (hpoint i hi))]

/-- The place that a pixel comes from in a flip. -/
def flipSource (r : IRotatablePaintDevice) (flipX flipY : Bool) : Int × Int → Int × Int :=
  exchange (partner r flipX flipY) (fun q => q.1 < r.width / 2) id

theorem flipSource_flipSource (r : IRotatablePaintDevice) (flipX flipY : Bool) (p : Int × Int) :
    flipSource r flipX flipY (flipSource r flipX flipY p) = p := by
  unfold flipSource
  rw [← exchange_eq _ _ (exchange _ _ id), exchange_exchange partner_partner]
  rfl

theorem flipSource_mem {r : IRotatablePaintDevice} {flipX flipY : Bool} {p : Int × Int}
    (hp : p ∈ r.logical) : flipSource r flipX flipY p ∈ r.logical := by
  unfold flipSource exchange
  split
  · exact hp
  · exact partner_mem.mpr hp

/-- **A flip is a rearrangement.** On any reachable device a flip returns; it leaves every colour on
as many LEDs as before, and the same flip puts the whole framebuffer back. -/
theorem flip_twice [LawfulPaintDevice D] (hd : Reachable d) (flipX flipY : Bool) :
    framebuffer [.flip flipX flipY, .flip flipX flipY] d = .ok (leds d) ∧
    ∃ cells cells', leds d = some cells ∧
      framebuffer [.flip flipX flipY] d = .ok (some cells') ∧ cells'.Perm cells := by
  have hwf := hd.wf
  obtain ⟨d₁, t₁, hrun₁, hwf₁, hb₁, himg₁⟩ := flip_run hwf flipX flipY
  obtain ⟨d₂, t₂, hrun₂, hwf₂, hb₂, himg₂⟩ := flip_run hwf₁ flipX flipY
  obtain ⟨hout₁, hafter₁⟩ := DeviceOp.outcome_after (.flip flipX flipY) hrun₁
  obtain ⟨hout₂, hafter₂⟩ := DeviceOp.outcome_after (.flip flipX flipY) hrun₂
  have hplace₁ : ∀ p ∈ logical d, pix d₁ p = pix d (flipSource (base d) flipX flipY p) :=
    fun p hp => (himg₁ p hp).trans (exchange_eq ..)
  have hplace₂ : ∀ p ∈ logical d₁, pix d₂ p = pix d₁ (flipSource (base d₁) flipX flipY p) :=
    fun p hp => (himg₂ p hp).trans (exchange_eq ..)
  have hback : leds d₂ = leds d := by
    refine hwf.leds_eq hwf₂ (hb₂.trans hb₁) fun p hp => ?_
    rw [hplace₂ p ((mem_logical_iff hb₁).mpr hp), hb₁, hplace₁ _ (flipSource_mem hp),
      flipSource_flipSource]
  obtain ⟨cells, cells', he, he', hperm⟩ := hwf.leds_perm hwf₁ hb₁ (fun p hp => flipSource_mem hp)
    (fun p _ => flipSource_flipSource _ _ _ p) hplace₁
  refine ⟨?_, cells, cells', he, ?_, hperm⟩
  · simp only [framebuffer, hout₁, hafter₁, hout₂, hafter₂, hback]
    rfl
  · simp only [framebuffer, hout₁, hafter₁, he']
    rfl

end Laws

/-- Red from the second column on, clipped at the edge, drawn over green: the same as one mirrored
row of red and green. -/
theorem framebuffer_eq_iff_row :
    framebuffer ([⟨.solid 2 1 Led.green, 0, 0, false, false⟩,
        ⟨.solid 3 1 Led.red, 1, 0, false, false⟩].map Placement.op) (Pixmap.make 2 1 Led.black) =
      framebuffer ([⟨.row [Led.red, Led.green], 0, 0, true, false⟩].map Placement.op)
        (Pixmap.make 2 1 Led.black) := by
  have htotal : ∀ w c, (PaintSource.solid w 1 c).Total := fun w => PaintSource.solid_total w 1
  have hwf : Wf (Pixmap.make 2 1 Led.black) :=
    (Reachable.fresh (Pixmap.fresh_make (by decide) (by decide) (by decide))).wf
  refine (framebuffer_eq_iff ?_ ?_ hwf).mpr fun p hp => ?_
  · refine List.forall_mem_cons.mpr ⟨⟨?_, htotal _ _⟩,
      List.forall_mem_singleton.mpr ⟨?_, htotal _ _⟩⟩
    · exact ⟨by decide, by decide, by decide, by decide⟩
    · exact ⟨by decide, by decide, by decide, by decide⟩
  · refine List.forall_mem_singleton.mpr ⟨?_, PaintSource.row_total _⟩
    exact ⟨by decide, by decide, by decide, by decide⟩
  · obtain ⟨x, y⟩ := p
    obtain ⟨⟨hx0, hx1⟩, hy0, hy1⟩ : (0 ≤ x ∧ x < 2) ∧ 0 ≤ y ∧ y < 1 := hp
    obtain rfl : y = 0 := by omega
    obtain rfl | rfl : x = 0 ∨ x = 1 := by omega
    · rfl
    · rfl

/-- A row of three, one of them red, turned around. -/
theorem flip_twice_row :
    let row := (DeviceOp.write 0 0 Led.red).after (Pixmap.make 3 1 Led.black)
    framebuffer [.flip true false] row = .ok (some [Led.black, Led.black, Led.red]) ∧
      framebuffer [.flip true false, .flip true false] row =
        .ok (some [Led.red, Led.black, Led.black]) := by
  intro row
  have hrow : Reachable row :=
    .step _ (.fresh (Pixmap.fresh_make (by decide) (by decide) (by decide)))
  exact ⟨by decide, (flip_twice hrow true false).1⟩

end Ws2812
