import Ws2812Strip.Rotatable

/-!
# Paint devices

`IPaintDevice` and its loops: `clear`, `draw`, `flip`. They reach the LEDs of a device only
through the virtual functions `led` and `led_ref`, so they are written once, over the class of
devices; `Devices` has the instances.

A call runs in a `Session`: the device and the `trace` of the coordinates that the call touched,
with the sums `x + dx` and `y + dy` that `draw` formed on the way.

* `Wf d`: the fields of the device fit together and its buffer has one cell for each LED.
* `phys d`, `pix d`: the image by physical point and by logical coordinate. `Wf.led_ok` says that
  `led` shows `pix`, `Wf.writeLed_run` that a write changes one pixel of it.
-/

namespace Ws2812

open Grid

/-- `buffer[index(x, y)]` as a reference: the cell it names. -/
def cellRef (layout : StripIndexType) (r : IRotatablePaintDevice) (leds : Option (List LedColor))
    (x y : Int) : Except Fault Nat := do
  let i ← r.index layout x y
  match leds with
  | none => .error (.undefined .nullLeds)
  | some cells =>
    if 0 ≤ i ∧ i < cells.length then .ok i.toNat else .error (.undefined (.ledIndex i))

/-- `buffer[index(x, y)]` as a value. -/
def cellLed (layout : StripIndexType) (r : IRotatablePaintDevice) (leds : Option (List LedColor))
    (x y : Int) : Except Fault LedColor := do
  let i ← cellRef layout r leds x y
  pure ((leds.getD []).getD i Led.black)

/-- What the code uses of a device: the fields of its base classes, its LED buffer (`none` while
the driver has none), and the virtual `led_ref` and `led`. -/
class IPaintDevice (D : Type) where
  /-- The `StripIndexType` of its base class. -/
  layout : StripIndexType
  base : D → IRotatablePaintDevice
  setBase : IRotatablePaintDevice → D → D
  leds : D → Option (List LedColor)
  setLeds : List LedColor → D → D
  ledRef : D → Int → Int → Except Fault Nat
  led : D → Int → Int → Except Fault LedColor
  /-- The device shows its own buffer and nothing else. -/
  Plain : D → Prop
  /-- A device as a client gets it: constructed, with a buffer, before any other call. -/
  Fresh : D → Prop

namespace IPaintDevice

variable {D : Type} [IPaintDevice D]

def width (d : D) : Int := (base d).width

def height (d : D) : Int := (base d).height

/-- The logical coordinates of the device. -/
def logical (d : D) : Set (Int × Int) := (base d).logical

instance (d : D) : DecidablePred (· ∈ logical d) :=
  inferInstanceAs (DecidablePred (· ∈ (base d).logical))

theorem mem_logical_iff {d : D} {r : IRotatablePaintDevice} (h : base d = r) {p : Int × Int} :
    p ∈ logical d ↔ p ∈ r.logical := by
  rw [logical, h]

/-- An assignment to the cell `i`. -/
def assign (i : Nat) (c : LedColor) (d : D) : D := setLeds (((leds d).getD []).set i c) d

end IPaintDevice

open IPaintDevice

/-- The fields of the device fit together and its buffer has one cell for each LED. -/
structure Wf {D : Type} [IPaintDevice D] (d : D) : Prop where
  fields : (base d).Wf
  plain : Plain d
  cells : ∃ cells, leds d = some cells ∧
    (cells.length : Int) = (base d).width_ * (base d).height_

/-- The equations of every device: its fields are independent, `led_ref` names a cell of the
buffer, and a plain device shows its buffer. -/
class LawfulPaintDevice (D : Type) [IPaintDevice D] : Prop where
  base_setBase (r : IRotatablePaintDevice) (d : D) : base (setBase r d) = r
  leds_setBase (r : IRotatablePaintDevice) (d : D) : leds (setBase r d) = leds d
  plain_setBase {d : D} (r : IRotatablePaintDevice) (h : Plain d) : Plain (setBase r d)
  base_setLeds (cells : List LedColor) (d : D) : base (setLeds cells d) = base d
  leds_setLeds (cells : List LedColor) (d : D) : leds (setLeds cells d) = some cells
  plain_setLeds {d : D} (cells : List LedColor) (h : Plain d) : Plain (setLeds cells d)
  ledRef_eq (d : D) (x y : Int) : ledRef d x y = cellRef (layout D) (base d) (leds d) x y
  led_plain {d : D} (h : Plain d) (x y : Int) :
    led d x y = cellLed (layout D) (base d) (leds d) x y
  fresh_wf {d : D} (h : Fresh d) : Wf d

attribute [simp] LawfulPaintDevice.base_setBase LawfulPaintDevice.leds_setBase
  LawfulPaintDevice.base_setLeds LawfulPaintDevice.leds_setLeds

/-- What a call did on the way. -/
inductive Event where
  /-- A sum `x + dx` or `y + dy` that `draw` formed. -/
  | sum (n : Int)
  /-- An LED that the call read or wrote, by logical coordinate. -/
  | access (x y : Int)
  deriving DecidableEq, Repr

/-- A device and what the running call has done to it, the newest event first. -/
structure Session (D : Type) where
  dev : D
  trace : List Event

/-- The session after one more event. -/
def Session.push {D : Type} (s : Session D) (e : Event) : Session D :=
  { s with trace := e :: s.trace }

@[simp] theorem Session.push_dev {D : Type} (s : Session D) (e : Event) :
    (s.push e).dev = s.dev := rfl

@[simp] theorem Session.mem_push {D : Type} {s : Session D} {e f : Event} :
    f ∈ (s.push e).trace ↔ f = e ∨ f ∈ s.trace := List.mem_cons

theorem Session.mem_push_self {D : Type} (s : Session D) (e : Event) : e ∈ (s.push e).trace :=
  List.mem_cons_self ..

theorem Session.subset_push {D : Type} (s : Session D) (e : Event) :
    s.trace ⊆ (s.push e).trace := List.subset_cons_self ..

/-- A call on a device. -/
abbrev DevM (D α : Type) : Type := Prog (Session D) Fault α

section Calls

variable {D : Type} [IPaintDevice D]

def note (e : Event) : DevM D Unit := .modify fun s => s.push e

/-- `led(x, y)`. -/
def readLed (x y : Int) : DevM D LedColor := do
  note (.access x y)
  let d ← .read Session.dev
  .lift (led d x y)

/-- `led_ref(x, y) = c`. -/
def writeLed (x y : Int) (c : LedColor) : DevM D Unit := do
  note (.access x y)
  let d ← .read Session.dev
  let i ← .lift (ledRef d x y)
  .modify fun s => { s with dev := assign i c s.dev }

/-- The value of a field or of a size of the device. -/
def field {α : Type} (f : D → α) : DevM D α := .read fun s => f s.dev

/-- `x + dx`. -/
def target (x dx : Int) : DevM D Int := do
  note (.sum (x + dx))
  .lift (cint (x + dx))

/-- A call of a function of the base class. -/
def onBase (c : Prog IRotatablePaintDevice Fault Unit) : DevM D Unit := fun s =>
  ((c.run (base s.dev)).1, { s with dev := setBase (c.run (base s.dev)).2 s.dev })

def setTransparent (transparent : Bool) : DevM D Unit :=
  onBase (.modify fun r => { r with transparent_ := transparent })

def setBackground (color : LedColor) : DevM D Unit :=
  onBase (.modify fun r => { r with back := color })

def setRotate (degree : Int) (flipX flipY : Bool) : DevM D Unit :=
  onBase (IRotatablePaintDevice.setRotate degree flipX flipY)

def clear : DevM D Unit := do
  let h ← field height
  forInt h fun y => do
    let w ← field width
    forInt w fun x => do
      let back ← field fun d => (base d).back
      writeLed x y back

/-- `flip ? n - i - 1 : i`. -/
def flipped (flip : Bool) (n i : Int) : Except Fault Int :=
  if flip then fromEnd n i else .ok i

/-- The body of the inner loop of `draw`, in the row `ty = y + dy` of the device. -/
def drawPixel (src : PaintSource) (x : Int) (flipX : Bool) (sy ty sx : Int) : DevM D Unit := do
  let dx ← .lift (flipped flipX src.width sx)
  let tx ← target x dx
  let w ← field width
  if tx ≥ w then pure () else do
    let srcLed ← .lift (src.led sx sy)
    let r ← field base
    if r.transparent_ ∧ srcLed = r.back then pure () else writeLed tx ty srcLed

/-- The body of the outer loop of `draw`. -/
def drawRow (src : PaintSource) (x y : Int) (flipX flipY : Bool) (sy : Int) : DevM D Unit := do
  let dy ← .lift (flipped flipY src.height sy)
  let ty ← target y dy
  let h ← field height
  if ty ≥ h then pure () else forInt src.width (drawPixel src x flipX sy ty)

def draw (src : PaintSource) (x y : Int) (flipX flipY : Bool) : DevM D Unit :=
  forInt src.height (drawRow src x y flipX flipY)

/-- The body of the inner loop of `flip`. -/
def flipPixel (flipX flipY : Bool) (y x : Int) : DevM D Unit := do
  let w ← field width
  let dx ← .lift (flipped flipX w x)
  let h ← field height
  let dy ← .lift (flipped flipY h y)
  let tmp ← readLed x y
  let other ← readLed dx dy
  writeLed x y other
  writeLed dx dy tmp

def flip (flipX flipY : Bool) : DevM D Unit := do
  let h ← field height
  forInt h fun y => do
    let w ← field width
    forInt (w.tdiv 2) (flipPixel flipX flipY y)

end Calls

/-- The value of `flipped`. -/
def mirrored (flip : Bool) (n i : Int) : Int := if flip then n - 1 - i else i

theorem flipped_ok (flip : Bool) {n i : Int} (hn : n ≤ INT_MAX) (h0 : 0 ≤ i) (hi : i < n) :
    flipped flip n i = .ok (mirrored flip n i) := by
  cases flip
  · rfl
  · exact fromEnd_ok hn h0 hi

@[simp] theorem mirrored_mirrored (flip : Bool) (n i : Int) :
    mirrored flip n (mirrored flip n i) = i := by
  cases flip <;> simp [mirrored]

/-- Mirroring keeps an index in range. -/
theorem mirrored_lt_iff (flip : Bool) {n i : Int} :
    (0 ≤ mirrored flip n i ∧ mirrored flip n i < n) ↔ 0 ≤ i ∧ i < n := by
  unfold mirrored
  split <;> omega

/-! ## The image of a device -/

section Image

variable {D : Type} [IPaintDevice D]

/-- The colour of the LED at a physical point. -/
def phys (d : D) (u : Int × Int) : LedColor :=
  ((leds d).getD []).getD ((layout D).cell (base d).width_ u).toNat Led.black

/-- The colour of the LED at a logical coordinate. -/
def pix (d : D) (p : Int × Int) : LedColor := phys d ((base d).point p)

variable {d : D} {p : Int × Int}

theorem Wf.cell_mem (h : Wf d) (hp : p ∈ logical d) :
    0 ≤ (base d).cell (layout D) p ∧
      (base d).cell (layout D) p < ((leds d).getD []).length := by
  obtain ⟨cells, he, hlen⟩ := h.cells
  have := (h.fields.bijOn_cell (layout D)).mapsTo hp
  rw [he]
  rwa [mem_below, ← hlen] at this

/-- Every cell of the buffer belongs to a pixel. -/
theorem Wf.exists_cell (h : Wf d) {i : Nat} (hi : i < ((leds d).getD []).length) :
    ∃ p ∈ logical d, (base d).cell (layout D) p = i := by
  obtain ⟨cells, he, hlen⟩ := h.cells
  rw [he, Option.getD_some] at hi
  exact (h.fields.bijOn_cell (layout D)).surjOn ⟨by omega, by omega⟩

/-- A buffer whose pixels all have one colour. -/
theorem Wf.leds_eq_replicate (h : Wf d) {c : LedColor} (hall : ∀ p ∈ logical d, pix d p = c) :
    leds d = some (List.replicate ((base d).width_ * (base d).height_).toNat c) := by
  obtain ⟨cells, he, hlen⟩ := id h.cells
  rw [he, Option.some.injEq, List.eq_replicate_iff]
  refine ⟨by omega, fun b hb => ?_⟩
  obtain ⟨i, hi, rfl⟩ := List.getElem_of_mem hb
  obtain ⟨p, hp, hcell⟩ := h.exists_cell (i := i) (by rwa [he])
  rw [← hall p hp]
  unfold pix phys
  rw [show (layout D).cell (base d).width_ ((base d).point p) = i from hcell, he]
  simp [hi]

/-- Two images that are alike are in buffers that are alike. -/
theorem Wf.leds_eq {d' : D} (h : Wf d) (h' : Wf d') (hb : base d' = base d)
    (hall : ∀ p ∈ logical d, pix d' p = pix d p) : leds d' = leds d := by
  obtain ⟨cells, he, hlen⟩ := id h.cells
  obtain ⟨cells', he', hlen'⟩ := id h'.cells
  rw [hb] at hlen'
  rw [he, he', Option.some.injEq]
  refine List.ext_getElem (by omega) fun i hi' hi => ?_
  obtain ⟨p, hp, hcell⟩ := h.exists_cell (i := i) (by rwa [he])
  have hpix := hall p hp
  unfold pix phys at hpix
  rw [hb, show (layout D).cell (base d).width_ ((base d).point p) = i from hcell, he, he'] at hpix
  simpa [hi, hi'] using hpix

/-- A reference names a cell of an existing buffer. -/
theorem cellRef_eq_ok {layout : StripIndexType} {r : IRotatablePaintDevice}
    {leds : Option (List LedColor)} {x y : Int} {i : Nat}
    (h : cellRef layout r leds x y = .ok i) : ∃ cells, leds = some cells ∧ i < cells.length := by
  unfold cellRef at h
  cases hi : r.index layout x y with
  | error e => rw [hi] at h; cases h
  | ok k =>
    rw [hi] at h
    cases leds with
    | none => cases h
    | some cells =>
      refine ⟨cells, rfl, ?_⟩
      change (if 0 ≤ k ∧ k < cells.length then Except.ok k.toNat else _) = _ at h
      split at h
      · obtain rfl := Except.ok.inj h
        omega
      · cases h

theorem Wf.cellRef_ok (h : Wf d) (hp : p ∈ logical d) :
    cellRef (layout D) (base d) (leds d) p.1 p.2 =
      .ok ((base d).cell (layout D) p).toNat := by
  have hc := h.cell_mem hp
  obtain ⟨cells, he, -⟩ := h.cells
  unfold cellRef
  rw [h.fields.index_ok (layout D) hp, he]
  rw [he] at hc
  exact if_pos hc

/-- Any write, on the device or not: it assigns the cell that `led_ref` names, or it faults and
changes nothing. -/
theorem writeLed_cases (s : Session D) (x y : Int) (c : LedColor) :
    (∃ i, ledRef s.dev x y = .ok i ∧ (writeLed x y c).run s =
      (.ok (), { s.push (.access x y) with dev := assign i c s.dev })) ∨
    ∃ e, ledRef s.dev x y = .error e ∧
      (writeLed x y c).run s = (.error e, s.push (.access x y)) := by
  simp only [writeLed, note, Prog.run_modify_bind, Prog.run_read_bind, Session.push_dev]
  cases ledRef s.dev x y with
  | ok i => exact .inl ⟨i, rfl, rfl⟩
  | error e => exact .inr ⟨e, rfl, rfl⟩

variable [LawfulPaintDevice D]

open LawfulPaintDevice

/-- On the device `led` returns and shows `pix`. -/
theorem Wf.led_ok (h : Wf d) (hp : p ∈ logical d) : led d p.1 p.2 = .ok (pix d p) := by
  rw [led_plain h.plain]
  unfold cellLed
  rw [h.cellRef_ok hp]
  rfl

theorem Wf.ledRef_ok (h : Wf d) (hp : p ∈ logical d) :
    ledRef d p.1 p.2 = .ok ((base d).cell (layout D) p).toNat := by
  rw [ledRef_eq, h.cellRef_ok hp]

theorem wf_assign (h : Wf d) (i : Nat) (c : LedColor) : Wf (assign i c d) where
  fields := by
    unfold assign
    rw [base_setLeds]
    exact h.fields
  plain := plain_setLeds _ h.plain
  cells := by
    obtain ⟨cells, he, hlen⟩ := h.cells
    refine ⟨cells.set i c, ?_, ?_⟩
    · unfold assign
      rw [leds_setLeds, he]
      rfl
    · unfold assign
      rw [base_setLeds, List.length_set]
      exact hlen

@[simp] theorem base_assign (i : Nat) (c : LedColor) (d : D) : base (assign i c d) = base d :=
  base_setLeds _ d

@[simp] theorem leds_assign (i : Nat) (c : LedColor) (d : D) :
    leds (assign i c d) = some (((leds d).getD []).set i c) := leds_setLeds _ d

/-- A write to the cell of one physical point changes no other. -/
theorem Wf.phys_assign (h : Wf d) (hp : p ∈ logical d) (c : LedColor) {u : Int × Int}
    (hu : u ∈ rect (base d).width_ (base d).height_) :
    phys (assign ((base d).cell (layout D) p).toNat c d) u =
      if u = (base d).point p then c else phys d u := by
  have hc := h.cell_mem hp
  have hbij := Ws2812.bijOn_cell (layout D) h.fields.width_pos (base d).height_
  have hmem := hbij.mapsTo hu
  have hmem' := hbij.mapsTo (h.fields.point_mem hp)
  unfold phys
  rw [leds_assign, base_assign, Option.getD_some, List.getD_eq_getElem?_getD, List.getElem?_set]
  split
  · -- the cells agree, so the points do
    rename_i he
    have hsame : u = (base d).point p := by
      refine hbij.injOn hu (h.fields.point_mem hp) ?_
      rw [mem_below] at hmem hmem'
      unfold IRotatablePaintDevice.cell at he
      omega
    have hlt : ((base d).cell (layout D) p).toNat < ((leds d).getD []).length := by
      omega
    rw [if_pos hsame, if_pos hlt]
    rfl
  · rename_i hne
    have hdiff : u ≠ (base d).point p := by
      rintro rfl
      exact hne rfl
    rw [if_neg hdiff, List.getD_eq_getElem?_getD]

/-- A write to one logical coordinate changes no other pixel of the device. -/
theorem Wf.pix_assign (h : Wf d) (hp : p ∈ logical d) (c : LedColor) {q : Int × Int}
    (hq : q ∈ logical d) :
    pix (assign ((base d).cell (layout D) p).toNat c d) q =
      if q = p then c else pix d q := by
  have hinj := h.fields.bijOn_point.injOn
  unfold pix
  rw [base_assign, h.phys_assign hp c (h.fields.point_mem hq)]
  by_cases he : q = p
  · rw [if_pos he, if_pos (by rw [he])]
  · rw [if_neg he, if_neg fun h' => he (hinj hq hp h')]

/-- `led_ref(x, y) = c` on the device: it returns, and changes the pixel `(x, y)` alone. -/
theorem Wf.writeLed_run {s : Session D} (h : Wf s.dev) (hp : p ∈ logical s.dev) (c : LedColor) :
    ∃ d' : D,
      (writeLed p.1 p.2 c).run s = (.ok (), { s.push (.access p.1 p.2) with dev := d' }) ∧
      Wf d' ∧ base d' = base s.dev ∧
      (∀ u ∈ rect (base s.dev).width_ (base s.dev).height_,
        phys d' u = if u = (base s.dev).point p then c else phys s.dev u) ∧
      ∀ q ∈ logical s.dev, pix d' q = if q = p then c else pix s.dev q := by
  refine ⟨_, ?_, wf_assign h _ c, base_assign _ _ _, fun u hu => h.phys_assign hp c hu,
    fun q hq => h.pix_assign hp c hq⟩
  simp only [writeLed, note, Prog.run_modify_bind, Prog.run_read_bind, Session.push_dev,
    h.ledRef_ok hp, Prog.run_lift_ok_bind, Prog.run_modify]

/-- `led(x, y)` on the device returns the pixel. -/
theorem Wf.readLed_run {s : Session D} (h : Wf s.dev) (hp : p ∈ logical s.dev) :
    (readLed p.1 p.2).run s = (.ok (pix s.dev p), s.push (.access p.1 p.2)) := by
  simp only [readLed, note, Prog.run_modify_bind, Prog.run_read_bind, Session.push_dev, h.led_ok hp,
    Prog.run_lift]

end Image

/-! ## What every call keeps -/

/-- Events and writes keep `I`. -/
structure Stable {D : Type} [IPaintDevice D] (I : Session D → Prop) : Prop where
  note : ∀ e, Prog.Keeps I (note e : DevM D Unit)
  writeLed : ∀ x y c, Prog.Keeps I (writeLed x y c : DevM D Unit)

namespace Stable

variable {D : Type} [IPaintDevice D] {I : Session D → Prop}

theorem readLed (h : Stable I) (x y : Int) : Prog.Keeps I (readLed x y : DevM D LedColor) :=
  (h.note _).bind fun _ => (Prog.Keeps.read _).bind fun _ => Prog.Keeps.lift _

theorem target (h : Stable I) (x dx : Int) : Prog.Keeps I (target x dx : DevM D Int) :=
  (h.note _).bind fun _ => Prog.Keeps.lift _

theorem clear (h : Stable I) : Prog.Keeps I (clear : DevM D Unit) :=
  (Prog.Keeps.read _).bind fun _ => Prog.Keeps.forUpTo fun _ => (Prog.Keeps.read _).bind fun _ =>
    Prog.Keeps.forUpTo fun _ => (Prog.Keeps.read _).bind fun _ => h.writeLed _ _ _

theorem drawPixel (h : Stable I) (src : PaintSource) (x : Int) (flipX : Bool) (sy ty sx : Int) :
    Prog.Keeps I (drawPixel src x flipX sy ty sx : DevM D Unit) :=
  (Prog.Keeps.lift _).bind fun _ => (h.target _ _).bind fun _ =>
    (Prog.Keeps.read _).bind fun _ => (Prog.Keeps.pure _).ite <|
      (Prog.Keeps.lift _).bind fun _ => (Prog.Keeps.read _).bind fun _ =>
        (Prog.Keeps.pure _).ite (h.writeLed _ _ _)

theorem draw (h : Stable I) (src : PaintSource) (x y : Int) (flipX flipY : Bool) :
    Prog.Keeps I (draw src x y flipX flipY : DevM D Unit) :=
  Prog.Keeps.forUpTo fun _ => (Prog.Keeps.lift _).bind fun _ => (h.target _ _).bind fun _ =>
    (Prog.Keeps.read _).bind fun _ => (Prog.Keeps.pure _).ite <|
      Prog.Keeps.forUpTo fun _ => h.drawPixel _ _ _ _ _ _

theorem flipPixel (h : Stable I) (flipX flipY : Bool) (y x : Int) :
    Prog.Keeps I (flipPixel flipX flipY y x : DevM D Unit) :=
  (Prog.Keeps.read _).bind fun _ => (Prog.Keeps.lift _).bind fun _ =>
    (Prog.Keeps.read _).bind fun _ => (Prog.Keeps.lift _).bind fun _ =>
      (h.readLed _ _).bind fun _ => (h.readLed _ _).bind fun _ =>
        (h.writeLed _ _ _).bind fun _ => h.writeLed _ _ _

theorem flip (h : Stable I) (flipX flipY : Bool) :
    Prog.Keeps I (flip flipX flipY : DevM D Unit) :=
  (Prog.Keeps.read _).bind fun _ => Prog.Keeps.forUpTo fun _ => (Prog.Keeps.read _).bind fun _ =>
    Prog.Keeps.forUpTo fun _ => h.flipPixel _ _ _ _

end Stable

section Shape

variable {D : Type} [IPaintDevice D]

/-- The device is well formed and has the fields `r`. -/
def Shape (r : IRotatablePaintDevice) (s : Session D) : Prop := Wf s.dev ∧ base s.dev = r

variable [LawfulPaintDevice D]

/-- Every call keeps the shape of the device, even one that leaves the device. -/
theorem Shape.stable (r : IRotatablePaintDevice) : Stable (D := D) (Shape r) where
  note _ _ hs := hs
  writeLed := by
    rintro x y c s ⟨hwf, hb⟩
    rcases writeLed_cases s x y c with ⟨i, -, h⟩ | ⟨e, -, h⟩
    · rw [h]
      exact ⟨wf_assign hwf i c, by rw [base_assign]; exact hb⟩
    · rw [h]
      exact ⟨hwf, hb⟩

theorem wf_setBase {d : D} (h : Wf d) {r : IRotatablePaintDevice} (hr : r.Wf)
    (hw : r.width_ = (base d).width_)
    (hh : r.height_ = (base d).height_) : Wf (setBase r d) where
  fields := by
    rw [LawfulPaintDevice.base_setBase]
    exact hr
  plain := LawfulPaintDevice.plain_setBase r h.plain
  cells := by
    obtain ⟨cells, he, hlen⟩ := h.cells
    rw [LawfulPaintDevice.base_setBase, LawfulPaintDevice.leds_setBase, hw, hh]
    exact ⟨cells, he, hlen⟩

end Shape

end Ws2812
