import Ws2812Strip.Lib.Prog
import Mathlib.Data.Int.Basic
import Mathlib.Tactic.Basic

/-!
# Integers, colours, faults and paint sources

The values that `render.hpp` computes with.

* An `int` is an `Int`; each operation on it goes through `cint`, which stops with `intOverflow`
  when the result does not fit in 32 bits (undefined behaviour in C++). So a computation that
  returns has had every intermediate value in range.
* `Fault`: what ends a call early. An exception of the source keeps its text; `undefined` is
  undefined behaviour, which the source neither checks nor reports.
* `PaintSource` (`IPaintSource`): the size of an image and its pixels. A pixel may fault, as the
  `led` of a glyph does outside its font.
-/

namespace Ws2812

def INT_MIN : Int := -2147483648

def INT_MAX : Int := 2147483647

/-- `n` is a value of a 32-bit `int`. -/
def IsInt (n : Int) : Prop := INT_MIN ≤ n ∧ n ≤ INT_MAX

instance (n : Int) : Decidable (IsInt n) := inferInstanceAs (Decidable (_ ∧ _))

/-- `ws2811_led_t`, a 32-bit word. -/
abbrev LedColor := UInt32

namespace Led

def white : LedColor := 0xffffff
def red : LedColor := 0xff0000
def green : LedColor := 0x00ff00
def black : LedColor := 0x000000

end Led

/-- Undefined behaviour that the code can run into. -/
inductive Undefined where
  /-- A signed operation whose result does not fit in an `int`. -/
  | intOverflow
  | divByZero
  /-- An LED buffer indexed outside its cells. -/
  | ledIndex (i : Int)
  /-- `channel[0].leds` used while the driver has no buffer. -/
  | nullLeds
  /-- A driver call without a valid device handle. -/
  | badHandle
  /-- A font table indexed outside its entries. -/
  | fontIndex (i : Int)
  /-- A pointer to an object that is no longer alive. -/
  | dangling
  /-- A recursion that does not end. -/
  | noReturn
  deriving DecidableEq, Repr

/-- What ends a call before it returns. -/
inductive Fault where
  | outOfRange (what : String)
  | invalidArgument (what : String)
  | undefined (u : Undefined)
  deriving DecidableEq, Repr

/-- The result `n` of an operation on `int`s. -/
def cint (n : Int) : Except Fault Int :=
  if IsInt n then .ok n else .error (.undefined .intOverflow)

theorem cint_ok {n : Int} (h : IsInt n) : cint n = .ok n := if_pos h

theorem cint_error {n : Int} (h : ¬ IsInt n) : cint n = .error (.undefined .intOverflow) :=
  if_neg h

theorem cint_eq_ok {n m : Int} (h : cint n = .ok m) : m = n := by
  unfold cint at h
  split at h
  · exact (Except.ok.inj h).symm
  · cases h

/-- `a / b`, which rounds towards zero. -/
def cdiv (a b : Int) : Except Fault Int :=
  if b = 0 then .error (.undefined .divByZero) else cint (a.tdiv b)

/-- `n - i - 1`, the place of `i` counted from the other end of `n` places. -/
def fromEnd (n i : Int) : Except Fault Int := do
  let a ← cint (n - i)
  cint (a - 1)

theorem fromEnd_ok {n i : Int} (hn : n ≤ INT_MAX) (h0 : 0 ≤ i) (hi : i < n) :
    fromEnd n i = .ok (n - 1 - i) := by
  have h1 : IsInt (n - i) := by unfold IsInt INT_MIN INT_MAX at *; omega
  have h2 : IsInt (n - i - 1) := by unfold IsInt INT_MIN INT_MAX at *; omega
  unfold fromEnd
  rw [cint_ok h1]
  show cint (n - i - 1) = _
  rw [cint_ok h2]
  congr 1
  omega

/-- `for (int i = 0; i < n; ++i) body(i)`. -/
def forInt {σ : Type} (n : Int) (body : Int → Prog σ Fault Unit) : Prog σ Fault Unit :=
  Prog.forUpTo n.toNat fun i => body i

/-- The invariant rule of the loop over `0, ..., n - 1`. -/
theorem triple_forInt {σ : Type} {E : Fault → σ → Prop} (I : Int → σ → Prop) {n : Int}
    {body : Int → Prog σ Fault Unit}
    (h : ∀ i, 0 ≤ i → i < n → Prog.Triple (I i) (body i) (fun _ => I (i + 1)) E) :
    Prog.Triple (I 0) (forInt n body) (fun _ => I n.toNat) E :=
  Prog.Triple.forUpTo (I := fun i => I i) fun i hi => by
    have := h i (by omega) (by omega)
    exact_mod_cast this

/-- The simulation rule of the loop over `0, ..., n - 1`. -/
theorem sim_forInt {σ τ : Type} {R : σ → τ → Prop} {n : Int} {body : Int → Prog σ Fault Unit}
    {body' : Int → Prog τ Fault Unit}
    (h : ∀ i, 0 ≤ i → i < n → Prog.Sim R (body i) (body' i) (fun _ => True)) :
    Prog.Sim R (forInt n body) (forInt n body') (fun _ => True) :=
  Prog.Sim.forUpTo fun i hi => h i (by omega) (by omega)

/-- `IPaintSource`. A call of `draw` reads each pixel of its source at most once, so for a source
that changes while it is read, such as the device that is drawn on, `led` is what those reads give,
and not what the source shows before the call. -/
structure PaintSource where
  width : Int
  height : Int
  led : Int → Int → Except Fault LedColor

namespace PaintSource

/-- The size of the source as the type of `width()` and `height()` gives it. -/
structure Sized (src : PaintSource) : Prop where
  width : src.width ≤ INT_MAX
  height : src.height ≤ INT_MAX

/-- The pixel `(x, y)` lies in the source. -/
def Inside (src : PaintSource) (x y : Int) : Prop :=
  (0 ≤ x ∧ x < src.width) ∧ 0 ≤ y ∧ y < src.height

instance (src : PaintSource) (x y : Int) : Decidable (src.Inside x y) :=
  inferInstanceAs (Decidable ((_ ∧ _) ∧ _ ∧ _))

/-- The coordinates of a pixel are `int`s. -/
theorem Sized.isInt {src : PaintSource} (h : src.Sized) {x y : Int} (hin : src.Inside x y) :
    IsInt x ∧ IsInt y := by
  obtain ⟨hw, hh⟩ := h
  unfold Inside at hin
  unfold IsInt INT_MIN INT_MAX at *
  omega

/-- `led` returns on every pixel of the source. -/
def Total (src : PaintSource) : Prop := ∀ x y, src.Inside x y → ∃ c, src.led x y = .ok c

/-- The colour of a pixel of a source whose `led` returns there. -/
def pix (src : PaintSource) (x y : Int) : LedColor :=
  match src.led x y with
  | .ok c => c
  | .error _ => Led.black

theorem led_eq_pix {src : PaintSource} {x y : Int} {c : LedColor} (h : src.led x y = .ok c) :
    src.pix x y = c := by
  simp [pix, h]

theorem Total.led {src : PaintSource} (ht : src.Total) {x y : Int} (h : src.Inside x y) :
    src.led x y = .ok (src.pix x y) := by
  obtain ⟨c, hc⟩ := ht x y h
  rw [led_eq_pix hc, hc]

theorem Total.led_eq_ok_iff {src : PaintSource} (ht : src.Total) {x y : Int}
    (h : src.Inside x y) {c : LedColor} : src.led x y = .ok c ↔ src.pix x y = c := by
  rw [ht.led h]
  exact ⟨Except.ok.inj, congrArg _⟩

/-- A `w × h` image of one colour. -/
def solid (w h : Int) (c : LedColor) : PaintSource := ⟨w, h, fun _ _ => .ok c⟩

theorem solid_total (w h : Int) (c : LedColor) : (solid w h c).Total := fun _ _ _ => ⟨c, rfl⟩

/-- An image of one row. -/
def row (cs : List LedColor) : PaintSource :=
  ⟨cs.length, 1, fun x _ => .ok (cs.getD x.toNat Led.black)⟩

theorem row_total (cs : List LedColor) : (row cs).Total := fun _ _ _ => ⟨_, rfl⟩

end PaintSource

end Ws2812
