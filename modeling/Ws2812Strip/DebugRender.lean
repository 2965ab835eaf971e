import Ws2812Strip.FakeDevice
import Mathlib.Data.Prod.Lex

/-!
# What the fake device prints

`render` of the debug device logs its address and size, and then a line of text for each row, with a
star for each pixel that is not black. The log is what `spdlog::debug` is called with.

* `render_prints`: all that can happen, for any children of the window.
* `prints_strip`: after the same operations, what the debug device prints is the picture that the
  strip shows.
-/

namespace Ws2812

open IPaintDevice Grid

namespace WS2811StripFakeDeviceDebug

/-- `led(x, y) == Led::Black ? ' ' : '*'` -/
def mark (c : LedColor) : Char := if c = Led.black then ' ' else '*'

/-- The inner loop of `render`, as a program on the line. -/
def lineLoop (w : WS2811StripFakeDeviceDebug) (y : Int) : Prog (List Char) Fault Unit :=
  forInt (width w) fun x => do
    let c ← Prog.lift (led w x y)
    Prog.modify (· ++ [mark c])

/-- The line of the row `y`, or the exception of a pixel in it. -/
def line (w : WS2811StripFakeDeviceDebug) (y : Int) : Except Fault (List Char) :=
  match (lineLoop w y).run [] with
  | (.ok _, line) => .ok line
  | (.error e, _) => .error e

/-- `"WS2811StripFakeDeviceDebug::render {}"` -/
def message (text : List Char) : List Char := "WS2811StripFakeDeviceDebug::render ".toList ++ text

/-- What `fmt` makes of a pointer. -/
def pointerText (address : Nat) : List Char := '0' :: 'x' :: Nat.toDigits 16 address

/-- `"WS2811StripFakeDeviceDebug::render {} {}x{}"` -/
def header (address : Nat) (width height : Int) : List Char :=
  message (pointerText address ++
    ' ' :: ((toString width).toList ++ 'x' :: (toString height).toList))

/-- `render`, as a program on the messages that have been logged. -/
def render (address : Nat) (w : WS2811StripFakeDeviceDebug) :
    Prog (List (List Char)) Fault Int := do
  Prog.modify (· ++ [header address (width w) (height w)])
  forInt (height w) fun y => do
    let line ← Prog.lift (line w y)
    Prog.modify (· ++ [message line])
  pure 0

/-- The messages of the first `rows` rows of an image. -/
def lines (columns rows : Nat) (image : Int × Int → LedColor) : List (List Char) :=
  (List.range rows).map fun y : Nat =>
    message ((List.range columns).map fun x : Nat => mark (image (x, y)))

/-- The messages of an image of `width × height` pixels, as far as the first `rows` rows. -/
def messages (address : Nat) (width height : Int) (rows : Nat) (image : Int × Int → LedColor) :
    List (List Char) :=
  header address width height :: lines width.toNat rows image

section Loops

variable {α β : Type} {n : Int} {f : Int → Except Fault α} {g : Int → α} {h : α → β}

/-- A loop that appends an element for each index. -/
theorem run_forInt_append (hf : ∀ i, 0 ≤ i ∧ i < n → f i = .ok (g i)) (xs : List β) :
    (forInt n fun i => Prog.lift (f i) >>= fun a => Prog.modify (· ++ [h a])).run xs =
      (.ok (), xs ++ (List.range n.toNat).map fun i : Nat => h (g i)) :=
  Prog.run_forUpTo_append (g := fun i : Nat => g i) (fun i hi => hf i (by omega)) xs

theorem run_forInt_append_error {k : Int} (hk : 0 ≤ k ∧ k < n)
    (hf : ∀ i, 0 ≤ i ∧ i < k → f i = .ok (g i)) {e : Fault} (he : f k = .error e) (xs : List β) :
    (forInt n fun i => Prog.lift (f i) >>= fun a => Prog.modify (· ++ [h a])).run xs =
      (.error e, xs ++ (List.range k.toNat).map fun i : Nat => h (g i)) := by
  have hcast : ((k.toNat : Nat) : Int) = k := by omega
  exact Prog.run_forUpTo_append_error (g := fun i : Nat => g i) (by omega)
    (fun i hi => hf i (by omega)) (by rwa [hcast]) xs

end Loops

variable {w : WS2811StripFakeDeviceDebug} {image : Int × Int → LedColor} {e : Fault}

theorem line_ok {y : Int} (h : ∀ x, 0 ≤ x ∧ x < width w → led w x y = .ok (image (x, y))) :
    line w y = .ok ((List.range (width w).toNat).map fun x : Nat => mark (image (x, y))) := by
  have hloop : (lineLoop w y).run [] = _ := run_forInt_append (g := fun x => image (x, y)) h []
  unfold line
  rw [hloop]
  rfl

theorem line_error {x y : Int} (hx : 0 ≤ x ∧ x < width w)
    (h : ∀ x', 0 ≤ x' ∧ x' < x → led w x' y = .ok (image (x', y))) (he : led w x y = .error e) :
    line w y = .error e := by
  have hloop : (lineLoop w y).run [] = _ :=
    run_forInt_append_error (g := fun x => image (x, y)) hx h he []
  unfold line
  rw [hloop]

/-- A device whose pixels can all be read prints them. -/
theorem render_ok (h : ∀ p ∈ logical w, led w p.1 p.2 = .ok (image p)) (address : Nat)
    (log : List (List Char)) : (render address w).run log =
      (.ok 0, log ++ messages address (width w) (height w) (height w).toNat image) := by
  have hrows : ∀ y, 0 ≤ y ∧ y < height w → line w y =
      .ok ((List.range (width w).toNat).map fun x : Nat => mark (image (x, y))) := fun y hy =>
    line_ok fun x hx => h (x, y) ⟨hx, hy⟩
  have hloop := run_forInt_append (h := message) hrows
    (log ++ [header address (width w) (height w)])
  rw [List.append_assoc] at hloop
  rw [render, Prog.run_modify_bind]
  exact Prog.run_bind_ok hloop

/-- A device on which reading stops at a pixel has printed the rows above it. -/
theorem render_error {n : Int × Int} (hn : n ∈ logical w)
    (h : ∀ p ∈ logical w, Precedes p n → led w p.1 p.2 = .ok (image p))
    (he : led w n.1 n.2 = .error e) (address : Nat) (log : List (List Char)) :
    (render address w).run log =
      (.error e, log ++ messages address (width w) (height w) n.2.toNat image) := by
  obtain ⟨hx, hy⟩ := hn
  have habove : ∀ y, 0 ≤ y ∧ y < n.2 → line w y =
      .ok ((List.range (width w).toNat).map fun x : Nat => mark (image (x, y))) := fun y hy' =>
    line_ok fun x hx' => h (x, y) ⟨hx', by simp only; omega⟩ (.inl hy'.2)
  have hrow : line w n.2 = .error e :=
    line_error hx (fun x hx' => h (x, n.2) ⟨by simp only; omega, hy⟩ (.inr ⟨rfl, hx'.2⟩)) he
  have hloop := run_forInt_append_error (h := message) hy habove hrow
    (log ++ [header address (width w) (height w)])
  rw [List.append_assoc] at hloop
  rw [render, Prog.run_modify_bind]
  exact Prog.run_bind_error hloop

/-- The colour of a pixel that can be read. -/
def shown (w : WS2811StripFakeDeviceDebug) (p : Int × Int) : LedColor :=
  (led w p.1 p.2).toOption.getD Led.black

theorem shown_eq {p : Int × Int} {c : LedColor} (h : led w p.1 p.2 = .ok c) : shown w p = c := by
  unfold shown
  rw [h]
  rfl

/-- If reading stops at some pixel of a device, then there is a first one. -/
theorem exists_first (h : ∃ p ∈ logical w, ∃ e, led w p.1 p.2 = .error e) :
    ∃ n ∈ logical w, (∃ e, led w n.1 n.2 = .error e) ∧
      ∀ p ∈ logical w, Precedes p n → led w p.1 p.2 = .ok (shown w p) := by
  let place := fun p : Int × Int => toLex (p.2.toNat, p.1.toNat)
  obtain ⟨n, ⟨hn, he⟩, hmin⟩ := (InvImage.wf place wellFounded_lt).has_min
    {p | p ∈ logical w ∧ ∃ e, led w p.1 p.2 = .error e} h
  refine ⟨n, hn, he, fun p hp hprec => ?_⟩
  cases hled : led w p.1 p.2 with
  | ok c => rw [shown_eq hled]
  | error e =>
    refine absurd ?_ (hmin p ⟨hp, e, hled⟩)
    obtain ⟨⟨hx, -⟩, hy, -⟩ := hp
    show toLex (p.2.toNat, p.1.toNat) < toLex (n.2.toNat, n.1.toNat)
    rw [Prod.Lex.toLex_lt_toLex]
    rcases hprec with hrow | ⟨hrow, hcolumn⟩
    · exact .inl (by simp only; omega)
    · exact .inr ⟨by simp only; omega, by simp only; omega⟩

/-- **What `render` prints.** On any debug device, with any children, `render` prints the header and
every row and returns 0, or it ends with the fault of the first pixel, row by row, that cannot be
read, and has printed the header and the rows above that pixel. The fault is an exception, or
behaviour that is not defined. -/
theorem render_prints (address : Nat) (w : WS2811StripFakeDeviceDebug) (log : List (List Char)) :
    ((∀ p ∈ logical w, led w p.1 p.2 = .ok (shown w p)) ∧ (render address w).run log =
      (.ok 0, log ++ messages address (width w) (height w) (height w).toNat (shown w))) ∨
    ∃ n ∈ logical w, ∃ e, led w n.1 n.2 = .error e ∧
      (∀ p ∈ logical w, Precedes p n → led w p.1 p.2 = .ok (shown w p)) ∧
      (render address w).run log =
        (.error e, log ++ messages address (width w) (height w) n.2.toNat (shown w)) := by
  by_cases hfail : ∃ p ∈ logical w, ∃ e, led w p.1 p.2 = .error e
  · obtain ⟨n, hn, ⟨e, he⟩, hbefore⟩ := exists_first hfail
    exact .inr ⟨n, hn, e, he, hbefore, render_error hn hbefore he address log⟩
  · have hread : ∀ p ∈ logical w, led w p.1 p.2 = .ok (shown w p) := by
      intro p hp
      cases hled : led w p.1 p.2 with
      | ok c => rw [shown_eq hled]
      | error e => exact absurd ⟨p, hp, e, hled⟩ hfail
    exact .inl ⟨hread, render_ok hread address log⟩

/-- The picture that a device shows, in the messages of a debug device at `address`. -/
def picture {D : Type} [IPaintDevice D] (address : Nat) (d : D) : List (List Char) :=
  messages address (width d) (height d) (height d).toNat (pix d)

/-- A debug device prints the picture of its twin. -/
theorem render_twin {D : Type} [IPaintDevice D] [LawfulPaintDevice D]
    {r : IRotatablePaintDevice} {d : D} (h : Twins r d w) (address : Nat)
    (log : List (List Char)) : (render address w).run log = (.ok 0, log ++ picture address d) := by
  obtain ⟨hwidth, hheight, hled⟩ := h.sameView
  have hread : ∀ p ∈ logical w, led w p.1 p.2 = .ok (pix d p) := by
    intro p hp
    have hp' : p ∈ logical d := by rwa [h.logical_left, ← h.logical_right]
    rw [← hled p.1 p.2 hp'.1 hp'.2]
    exact h.left.led_ok hp'
  rw [render_ok hread, picture, hwidth, hheight]

end WS2811StripFakeDeviceDebug

/-- The device after a run of operations. -/
def afterAll {D : Type} [IPaintDevice D] (ops : List DeviceOp) (d : D) : D :=
  ops.foldl (fun d op => op.after d) d

/-- A run of admissible operations leaves twins. -/
theorem Twins.afterAll {D D' : Type} [IPaintDevice D] [IPaintDevice D'] [LawfulPaintDevice D]
    [LawfulPaintDevice D'] {r : IRotatablePaintDevice} {d : D} {d' : D'} {ops : List DeviceOp}
    (h : Twins r d d') (hadm : AdmissibleRun ops d) :
    ∃ r', Twins r' (Ws2812.afterAll ops d) (Ws2812.afterAll ops d') := by
  induction ops generalizing d d' r with
  | nil => exact ⟨r, h⟩
  | cons op ops ih =>
    obtain ⟨hop, hadm⟩ := hadm
    rw [h.base_left] at hop
    obtain ⟨-, r', htwins⟩ := op.twins_after h hop
    exact ih htwins hadm

/-- **The debug device prints what the strip shows.** A strip and a childless debug device that
agree in size, orientation, colours and image agree after any run of admissible operations: `render`
of the debug device returns, and logs its address, the size of the strip, and the picture of the
strip, row by row with a star for each LED that is lit. -/
theorem prints_strip {strip : WS2811Strip} {fake : WS2811StripFakeDeviceDebug}
    (hs : Reachable strip) (hf : Reachable fake) (hbase : strip.base = fake.base)
    (hview : SameView strip fake) (ops : List DeviceOp) (hadm : AdmissibleRun ops strip)
    (address : Nat) (log : List (List Char)) :
    (WS2811StripFakeDeviceDebug.render address (afterAll ops fake)).run log =
      (.ok 0, log ++ WS2811StripFakeDeviceDebug.picture address (afterAll ops strip)) := by
  obtain ⟨r, htwins⟩ := (twins_of_sameView hs.wf hf.wf hbase hview).afterAll hadm
  exact WS2811StripFakeDeviceDebug.render_twin htwins address log

/-- A strip of two LEDs and its stand-in, turned upright and drawn on. -/
theorem prints_strip_turned :
    (WS2811StripFakeDeviceDebug.render 0x7ffd10 (afterAll [.setRotate 90 false false,
      .draw (.solid 1 1 Led.red) 0 1 false false] (Window.make 2 1))).run [] =
        (.ok 0, ["WS2811StripFakeDeviceDebug::render 0x7ffd10 1x2".toList,
          "WS2811StripFakeDeviceDebug::render  ".toList,
          "WS2811StripFakeDeviceDebug::render *".toList]) := by
  have hs : Reachable ((WS2811Strip.make 2 1 Led.black).init (some fun _ => Led.black)) :=
    .fresh (WS2811Strip.fresh_init (by decide) (by decide) (by decide) _)
  have hf : Reachable (Window.make 2 1) :=
    .fresh (Window.fresh_make (by decide) (by decide) (by decide))
  have hview : SameView ((WS2811Strip.make 2 1 Led.black).init (some fun _ => Led.black))
      (Window.make 2 1) := by
    refine ⟨rfl, rfl, fun x y hx hy => ?_⟩
    have hx' : 0 ≤ x ∧ x < 2 := hx
    have hy' : 0 ≤ y ∧ y < 1 := hy
    obtain rfl : y = 0 := by omega
    obtain rfl | rfl : x = 0 ∨ x = 1 := by omega
    all_goals decide
  have hadm : AdmissibleRun [.setRotate 90 false false,
      .draw (.solid 1 1 Led.red) 0 1 false false]
      ((WS2811Strip.make 2 1 Led.black).init (some fun _ => Led.black)) :=
    ⟨trivial, ⟨by decide, by decide, by decide, by decide⟩, trivial⟩
  have hprints := prints_strip hs hf rfl hview _ hadm 0x7ffd10 []
  rw [hprints]
  decide +kernel

end Ws2812
