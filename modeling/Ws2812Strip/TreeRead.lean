import Ws2812Strip.WindowTree
import Ws2812Strip.GlyphGroups

/-!
# Reading a window tree

`read` is `led` of a tree with a record of the calls: one entry for each `led` that runs, with its
coordinates. A `led` that leaves a canvas or a font stops with `undefined`, so a read that returns
has stayed in all of them.

* `Leaf`: the images that a client puts into windows.
* `Sound`: the tree is built from valid images and from windows whose canvas has a cell for each
  LED, and each position plus the size of the child is an `int`.
* `Sound.read_in_range`: then reading a pixel of the tree returns, and reads every window and image
  below on its own pixels only.
-/

namespace Ws2812

open IPaintDevice Grid

/-! ## The images at the leaves -/

/-- An image as an argument of `Window::add`. -/
inductive Leaf where
  | pixmap (p : Pixmap)
  | digit (g : Digit3x5)
  | ascii (g : Ascii4x8)
  | number (g : DigitGroup3x5)
  | text (g : Text4x8)

namespace Leaf

def source (signed : Bool) : Leaf → PaintSource
  | .pixmap p => ⟨width p, height p, p.led⟩
  | .digit g => g.source
  | .ascii g => g.source signed
  | .number g => g.source
  | .text g => g.source signed

/-- A canvas with a cell for each LED, a decimal digit, an ASCII character, a number whose absolute
value is an `int`, or an ASCII text whose width is one. -/
def Valid : Leaf → Prop
  | .pixmap p => Wf p
  | .digit g => 0 ≤ g.digit ∧ g.digit < 10
  | .ascii g => g.c.toNat < 128
  | .number g => ∃ n before, (INT_MIN < n ∧ n ≤ INT_MAX) ∧
      DigitGroup3x5.setDigits n before = .ok g
  | .text g => (g.text.length : Int) * 4 ≤ INT_MAX ∧ ∀ c ∈ g.text, c.toNat < 128

variable {signed : Bool} {leaf : Leaf}

/-- What `set_digits` has shown. -/
theorem shows_of_setDigits {n : Int} {before g : DigitGroup3x5} (hn : INT_MIN < n ∧ n ≤ INT_MAX)
    (h : DigitGroup3x5.setDigits n before = .ok g) : g.Shows n := by
  obtain ⟨g', hset, -, hshows⟩ := DigitGroup3x5.setDigits_ok hn.1 hn.2 before
  rw [h] at hset
  cases hset
  exact hshows

/-- A valid image can be read on all of its pixels. -/
theorem Valid.total (h : leaf.Valid) : (leaf.source signed).Total := by
  intro x y hin
  cases leaf with
  | pixmap p => exact ⟨_, Wf.led_ok (p := (x, y)) h hin⟩
  | digit g => exact ⟨_, Digit3x5.led_ok h hin⟩
  | ascii g => exact ⟨_, Ascii4x8.led_ok signed h hin⟩
  | number g =>
    obtain ⟨n, before, hn, hset⟩ := h
    exact ⟨_, (shows_of_setDigits hn hset).led_ok hin⟩
  | text g => exact ⟨_, Text4x8.led_ok signed h.1 h.2 hin⟩

/-- Its size is a pair of `int`s. -/
theorem Valid.sized (h : leaf.Valid) : (leaf.source signed).Sized := by
  cases leaf with
  | pixmap p =>
    obtain ⟨⟨-, hw⟩, -, hh⟩ := (Wf.fields h).logical_side
    exact ⟨hw, hh⟩
  | digit g => exact ⟨show (3 : Int) ≤ INT_MAX by decide, show (5 : Int) ≤ INT_MAX by decide⟩
  | ascii g => exact ⟨show (4 : Int) ≤ INT_MAX by decide, show (8 : Int) ≤ INT_MAX by decide⟩
  | number g =>
    obtain ⟨n, before, hn, hset⟩ := h
    have hshows := shows_of_setDigits hn hset
    have hlen := hshows.length_le
    have hw := hshows.width_eq
    refine ⟨?_, show (5 : Int) ≤ INT_MAX by decide⟩
    show g.digitsWidth_ * 3 ≤ INT_MAX
    unfold INT_MAX
    omega
  | text g =>
    refine ⟨?_, show (8 : Int) ≤ INT_MAX by decide⟩
    simp only [source, Text4x8.source, Text4x8.width_eq h.1]
    exact h.1

end Leaf

namespace WindowTree

/-! ## The calls of a read -/

/-- A call of `led`. -/
structure LedCall where
  tree : WindowTree
  x : Int
  y : Int

mutual

/-- `led` of a tree, with the calls that it makes. -/
def read : WindowTree → Int → Int → Prog (List LedCall) Fault LedColor
  | .image source, x, y => do
    .modify fun calls => calls ++ [⟨.image source, x, y⟩]
    .lift (source.led x y)
  | .window base leds_ children_, x, y => do
    .modify fun calls => calls ++ [⟨.window base leds_ children_, x, y⟩]
    readFrom base leds_ x y children_

/-- `Window::led`, at the children that the loop has still to visit. -/
def readFrom (base : IRotatablePaintDevice) (leds_ : List LedColor) (x y : Int) :
    List (WindowTree × Int × Int) → Prog (List LedCall) Fault LedColor
  | [] => .lift (cellLed .vector base (some leds_) x y)
  | (c, cx, cy) :: rest => do
    if ← .lift ((child (c, cx, cy)).covers x y) then
      let lx ← .lift (cint (x - cx))
      let ly ← .lift (cint (y - cy))
      let childLed ← read c lx ly
      if base.transparent_ ∧ childLed = base.back then readFrom base leds_ x y rest
      else pure childLed
    else readFrom base leds_ x y rest

end

/-- The record does not change what is shown. -/
theorem run_read (t : WindowTree) (x y : Int) (calls : List LedCall) :
    ((t.read x y).run calls).1 = t.source.led x y := by
  refine read.induct (fun t x y => ∀ calls, ((t.read x y).run calls).1 = t.source.led x y)
    (fun base leds_ x y rest => ∀ children_ calls, ((readFrom base leds_ x y rest).run calls).1 =
      Window.ledFrom ⟨base, leds_, children_⟩ x y (rest.map child)) ?_ ?_ ?_ ?_ t x y calls
  · intro source x y calls
    rw [read, source_image]
    rfl
  · intro base leds_ children_ x y ih calls
    rw [read, source_window]
    exact ih _ _
  · intro base leds_ x y children_ calls
    rw [readFrom]
    rfl
  · intro base leds_ x y c cx cy rest ihc ihrest children_ calls
    rw [readFrom, List.map_cons, Window.ledFrom]
    apply Prog.run_bind_fst rfl
    intro covered calls
    cases covered
    · exact ihrest _ _
    apply Prog.run_bind_fst rfl
    intro lx calls
    apply Prog.run_bind_fst rfl
    intro ly calls
    apply Prog.run_bind_fst (ihc lx ly _)
    intro childLed calls
    dsimp only
    split
    · exact ihrest _ _
    · rfl

/-! ## Sound trees -/

/-- The tree is built from valid images and from windows with a canvas, in any orientation, and the
right and lower edges of every child are `int`s. -/
inductive Sound (signed : Bool) : WindowTree → Prop
  | image {leaf : Leaf} : leaf.Valid → Sound signed (.image (leaf.source signed))
  | window {base : IRotatablePaintDevice} {leds_ : List LedColor}
      {children_ : List (WindowTree × Int × Int)} :
      Wf (⟨base, leds_, []⟩ : Window) →
      (∀ c ∈ children_, Sound signed c.1) →
      (∀ c ∈ children_, IsInt (c.2.1 + c.1.source.width) ∧ IsInt (c.2.2 + c.1.source.height)) →
      Sound signed (.window base leds_ children_)

variable {signed : Bool} {t : WindowTree} {Q : LedCall → Prop}

theorem Sound.sized (h : Sound signed t) : t.source.Sized := by
  cases h with
  | image hleaf =>
    rw [source_image]
    exact hleaf.sized
  | window hwf _ _ =>
    obtain ⟨⟨-, hw⟩, -, hh⟩ := hwf.fields.logical_side
    rw [source_window]
    exact ⟨hw, hh⟩

/-- `Q` holds of every call that stays in range, in a window or image of the tree `t`. -/
def InRange (Q : LedCall → Prop) (t : WindowTree) : Prop :=
  ∀ u x y, Subtree u t → u.source.Inside x y → Q ⟨u, x, y⟩

/-- A read of a sound tree returns, and its calls stay in range. -/
theorem Sound.read_triple (ht : Sound signed t) {x y : Int} (hin : t.source.Inside x y)
    (hQ : InRange Q t) :
    Prog.Triple (fun calls => ∀ call ∈ calls, Q call) (t.read x y)
      (fun _ calls => ∀ call ∈ calls, Q call) (fun _ _ => False) := by
  revert ht hin hQ
  refine read.induct
    (fun t x y => Sound signed t → t.source.Inside x y → InRange Q t →
      Prog.Triple (fun calls => ∀ call ∈ calls, Q call) (t.read x y)
        (fun _ calls => ∀ call ∈ calls, Q call) (fun _ _ => False))
    (fun base leds_ x y rest => Wf (⟨base, leds_, []⟩ : Window) → (x, y) ∈ base.logical →
      (∀ c ∈ rest, Sound signed c.1 ∧
        (IsInt (c.2.1 + c.1.source.width) ∧ IsInt (c.2.2 + c.1.source.height)) ∧ InRange Q c.1) →
      Prog.Triple (fun calls => ∀ call ∈ calls, Q call) (readFrom base leds_ x y rest)
        (fun _ calls => ∀ call ∈ calls, Q call) (fun _ _ => False)) ?_ ?_ ?_ ?_ t x y
  · intro source x y ht hin hQ calls hcalls
    have hself := hQ _ x y .refl hin
    rw [source_image] at hin
    cases ht with
    | image hleaf =>
      obtain ⟨color, hled⟩ := hleaf.total x y hin
      rw [read, hled]
      exact List.forall_mem_append.mpr ⟨hcalls, List.forall_mem_singleton.mpr hself⟩
  · intro base leds_ children_ x y ih ht hin hQ calls hcalls
    have hself := hQ _ x y .refl hin
    cases ht with
    | window hwf hchildren hfit =>
      rw [source_window] at hin
      rw [read]
      refine ih hwf hin (fun c hc => ⟨hchildren c hc, hfit c hc, ?_⟩) _
        (List.forall_mem_append.mpr ⟨hcalls, List.forall_mem_singleton.mpr hself⟩)
      exact fun u ux uy hu => hQ u ux uy (.child base leds_ hc hu)
  · intro base leds_ x y hwf hp _ calls hcalls
    have hcell : cellLed .vector base (some leds_) x y = .ok _ := hwf.led_ok (p := (x, y)) hp
    rw [readFrom, hcell]
    exact hcalls
  · intro base leds_ x y c cx cy rest ihc ihrest hwf hp hall calls hcalls
    obtain ⟨⟨hsound, ⟨hright, hbottom⟩, hQ⟩, hrest⟩ := List.forall_mem_cons.mp hall
    rw [readFrom, Child.covers_ok (c := child (c, cx, cy)) hright hbottom (x, y)]
    by_cases hrect : (child (c, cx, cy)).placement.rectangle (x, y)
    swap
    · rw [decide_eq_false hrect]
      exact ihrest hwf hp hrest calls hcalls
    have hinc : c.source.Inside (x - cx) (y - cy) :=
      (child (c, cx, cy)).placement.inside_toSource_iff.mpr hrect
    -- a pixel of the child has the coordinates of an `int`, whatever the position of the child
    obtain ⟨hlx, hly⟩ := hsound.sized.isInt hinc
    obtain ⟨childLed, calls', hrun, hcalls'⟩ :=
      (ihc (x - cx) (y - cy) hsound hinc hQ).returns hcalls
    rw [decide_eq_true hrect, cint_ok hlx, cint_ok hly]
    simp only [Prog.run_lift_ok_bind, if_true]
    rw [Prog.run_bind_ok hrun, Prog.run_ite]
    split
    · exact ihrest hwf hp hrest calls' hcalls'
    · exact hcalls'

/-- **Reading stays in range.** For every pixel of a sound tree, `led` returns, and every `led`
that it calls on the way is one of a window or image of the tree, on a pixel of that window or
image. -/
theorem Sound.read_in_range (ht : Sound signed t) {x y : Int} (hin : t.source.Inside x y) :
    ∃ color calls, (t.read x y).run [] = (.ok color, calls) ∧ t.source.led x y = .ok color ∧
      ∀ call ∈ calls, Subtree call.tree t ∧ call.tree.source.Inside call.x call.y := by
  obtain ⟨color, calls, hrun, hcalls⟩ := (ht.read_triple
    (Q := fun call => Subtree call.tree t ∧ call.tree.source.Inside call.x call.y) hin
    fun u ux uy hu hux => ⟨hu, hux⟩).returns (List.forall_mem_nil _)
  refine ⟨color, calls, hrun, ?_, hcalls⟩
  rw [← run_read t x y [], hrun]

/-- A turned window with a text in a window that sticks out of it, and a digit. -/
theorem read_in_range_turned :
    let text : Leaf := .text ⟨⟨Led.red, Led.black⟩, [0x68, 0x69]⟩
    let digit : Leaf := .digit ⟨⟨Led.green, Led.black⟩, 7⟩
    let turned := (DeviceOp.setTransparent true).after
      ((DeviceOp.setRotate 90 false true).after (Window.make 3 2))
    let label := window (.make 4 8 Led.black) (List.replicate 32 0)
      [(.image (text.source true), -3, 0)]
    let t := window turned.base turned.leds_
      [(label, -1, -2), (.image (digit.source true), 0, 0)]
    ∃ color calls, (t.read 1 2).run [] = (.ok color, calls) ∧ t.source.led 1 2 = .ok color ∧
      ∀ call ∈ calls, Subtree call.tree t ∧ call.tree.source.Inside call.x call.y := by
  intro text digit turned label t
  have hfresh : Wf (Window.make 3 2) :=
    LawfulPaintDevice.fresh_wf (Window.fresh_make (by decide) (by decide) (by decide))
  have hturned : Wf (⟨turned.base, turned.leds_, []⟩ : Window) :=
    DeviceOp.wf_after _ (DeviceOp.wf_after _ hfresh)
  have hlabelled : Wf (Window.make 4 8) :=
    LawfulPaintDevice.fresh_wf (Window.fresh_make (by decide) (by decide) (by decide))
  have hascii : ∀ c ∈ [(0x68 : UInt8), 0x69], c.toNat < 128 := by simp
  have htext : Sound true (.image (text.source true)) := .image ⟨by decide, hascii⟩
  have hdigit : Sound true (.image (digit.source true)) := .image ⟨by decide, by decide⟩
  have hlabel : Sound true label := by
    refine .window hlabelled (List.forall_mem_singleton.mpr htext)
      (List.forall_mem_singleton.mpr ?_)
    rw [source_image]
    decide
  have ht : Sound true t := by
    refine .window hturned (by simp [hlabel, hdigit]) ?_
    simp only [List.forall_mem_cons, source_image, label, source_window]
    decide
  refine ht.read_in_range ?_
  simp only [t, source_window]
  decide

end WindowTree

end Ws2812
