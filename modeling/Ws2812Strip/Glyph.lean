import Ws2812Strip.Basic
import Mathlib.Data.Nat.Digits.Lemmas

/-!
# Glyphs

The images that the drawing requests show: single characters of the two fonts (`Digit3x5`,
`Ascii4x8`), numbers (`DigitGroup3x5`) and texts (`Text4x8`).

* A glyph group has two colours, one for the set and one for the clear bits of its font entries.
* `char` is signed on some targets and unsigned on others, so what reads one takes `signed`.
* `textBit`, `numberBit`: what a text and a number should show, by characters and by decimal
  digits. `Text4x8.led_ok` and `DigitGroup3x5.Shows.led_ok` say that they do.
-/

namespace Ws2812

/-- `SimpleAlphaGroup`: the colours of the set and of the clear bits. -/
structure SimpleAlphaGroup where
  color : LedColor := Led.white
  back : LedColor := Led.black
  deriving DecidableEq, Repr

namespace SimpleAlphaGroup

def setColor (color : LedColor) (g : SimpleAlphaGroup) : SimpleAlphaGroup :=
  { g with color := color }

def setBackground (color : LedColor) (g : SimpleAlphaGroup) : SimpleAlphaGroup :=
  { g with back := color }

/-- `bit ? color : back` -/
def pick (g : SimpleAlphaGroup) (bit : Bool) : LedColor := if bit then g.color else g.back

end SimpleAlphaGroup

/-! ## Fonts -/

def digit3x5font : List UInt16 := [
  0b0_111_101_101_101_111, -- 0
  0b0_010_010_010_010_010, -- 1
  0b0_111_001_111_100_111, -- 2
  0b0_111_001_111_001_111, -- 3
  0b0_101_101_111_001_001, -- 4
  0b0_111_100_111_001_111, -- 5
  0b0_111_100_111_101_111, -- 6
  0b0_111_001_001_001_001, -- 7
  0b0_111_101_111_101_111, -- 8
  0b0_111_101_111_001_111] -- 9

def ascii4x8_unkown : UInt32 := ~~~0b0000_0100_1010_0010_0100_0000_0100_0000

def ascii4x8font : List UInt32 := List.replicate 32 ascii4x8_unkown ++ [
  0b0000_0000_0000_0000_0000_0000_0000_0000, -- SPACE (0x20)
  0b0000_0100_0100_0100_0100_0000_0100_0000, -- ! (0x21)
  0b0000_1010_1010_0000_0000_0000_0000_0000, -- " (0x22)
  0b0000_1010_1110_1010_1010_1110_1010_0000, -- # (0x23)
  0b0000_0100_1110_1100_0110_0110_1100_0100, -- $ (0x24)
  0b0000_0000_1010_0010_0100_1000_1010_0000, -- % (0x25)
  0b0000_0100_1010_0100_1010_1000_0110_0000, -- & (0x26)
  0b0000_0000_0100_0100_0000_0000_0000_0000, -- ' (0x27)
  0b0000_0010_0100_0100_0100_0100_0100_0010, -- ( (0x28)
  0b0000_1000_0100_0100_0100_0100_0100_1000, -- ) (0x29)
  0b0000_0000_0100_1110_0100_1010_0000_0000, -- * (0x2A)
  0b0000_0000_0000_0100_1110_0100_0000_0000, -- + (0x2B)
  0b0000_0000_0000_0000_0000_0000_0100_1000, -- , (0x2C)
  0b0000_0000_0000_0000_1110_0000_0000_0000, -- - (0x2D)
  0b0000_0000_0000_0000_0000_0000_0100_0000, -- . (0x2E)
  0b0000_0010_0010_0100_0100_0100_1000_1000, -- / (0x2F)
  0b0000_0100_1010_1110_1010_1010_0100_0000, -- 0 (0x30)
  0b0000_0100_1100_0100_0100_0100_1110_0000, -- 1 (0x31)
  0b0000_1100_0010_0010_0100_1000_1110_0000, -- 2 (0x32)
  0b0000_1100_0010_0100_0010_0010_1100_0000, -- 3 (0x33)
  0b0000_0010_0110_1010_1010_1110_0010_0000, -- 4 (0x34)
  0b0000_1110_1000_1100_0010_0010_1100_0000, -- 5 (0x35)
  0b0000_0110_1000_1100_1010_1010_0100_0000, -- 6 (0x36)
  0b0000_1110_0010_0010_0100_0100_0100_0000, -- 7 (0x37)
  0b0000_0100_1010_0100_1010_1010_0100_0000, -- 8 (0x38)
  0b0000_0100_1010_1010_0110_0010_1100_0000, -- 9 (0x39)
  0b0000_0000_0000_0100_0000_0000_0100_0000, -- : (0x3A)
  0b0000_0000_0000_0100_0000_0000_0100_1000, -- ; (0x3B)
  0b0000_0000_0010_0100_1000_0100_0010_0000, -- < (0x3C)
  0b0000_0000_0000_1110_0000_1110_0000_0000, -- = (0x3D)
  0b0000_0000_1000_0100_0010_0100_1000_0000, -- > (0x3E)
  0b0000_0100_1010_0010_0100_0000_0100_0000, -- ? (0x3F)
  0b0000_0100_1010_1110_1110_1000_0110_0000, -- @ (0x40)
  0b0000_0100_1010_1010_1110_1010_1010_0000, -- 'A'
  0b0000_1100_1010_1100_1010_1010_1100_0000, -- 'B'
  0b0000_0110_1000_1000_1000_1000_0110_0000, -- 'C'
  0b0000_1100_1010_1010_1010_1010_1100_0000, -- 'D'
  0b0000_1110_1000_1110_1000_1000_1110_0000, -- 'E'
  0b0000_1110_1000_1110_1000_1000_1000_0000, -- 'F'
  0b0000_0110_1000_1000_1010_1010_0110_0000, -- 'G'
  0b0000_1010_1010_1110_1010_1010_1010_0000, -- 'H'
  0b0000_1110_0100_0100_0100_0100_1110_0000, -- 'I'
  0b0000_0010_0010_0010_0010_1010_0100_0000, -- 'J'
  0b0000_1010_1010_1100_1010_1010_1010_0000, -- 'K'
  0b0000_1000_1000_1000_1000_1000_1110_0000, -- 'L'
  0b0000_1010_1110_1110_1010_1010_1010_0000, -- 'M'
  0b0000_1100_1010_1010_1010_1010_1010_0000, -- 'N'
  0b0000_0100_1010_1010_1010_1010_0100_0000, -- 'O'
  0b0000_1100_1010_1010_1100_1000_1000_0000, -- 'P'
  0b0000_0100_1010_1010_1010_1010_0100_0010, -- 'Q'
  0b0000_1100_1010_1010_1100_1010_1010_0000, -- 'R'
  0b0000_0110_1000_0100_0010_0010_1100_0000, -- 'S'
  0b0000_1110_0100_0100_0100_0100_0100_0000, -- 'T'
  0b0000_1010_1010_1010_1010_1010_1110_0000, -- 'U'
  0b0000_1010_1010_1010_1010_1100_1000_0000, -- 'V'
  0b0000_1010_1010_1010_1110_1110_1010_0000, -- 'W'
  0b0000_1010_1010_0100_0100_1010_1010_0000, -- 'X'
  0b0000_1010_1010_1010_0100_0100_0100_0000, -- 'Y'
  0b0000_1110_0010_0100_0100_1000_1110_0000, -- 'Z'
  0b0000_0110_0100_0100_0100_0100_0100_0110, -- [ (0x5B)
  0b0000_1000_1000_0100_0100_0100_0010_0010, -- \ (0x5C)
  0b0000_0110_0010_0010_0010_0010_0010_0110, -- ] (0x5D)
  0b0000_0100_1010_0000_0000_0000_0000_0000, -- ^ (0x5E)
  0b0000_0000_0000_0000_0000_0000_0000_1110, -- _ (0x5F)
  0b0000_0100_0010_0000_0000_0000_0000_0000, -- ` (0x60)
  0b0000_0000_0000_0110_1010_1010_0110_0000, -- 'a'
  0b0000_1000_1000_1100_1010_1010_1100_0000, -- 'b'
  0b0000_0000_0000_0110_1000_1000_0110_0000, -- 'c'
  0b0000_0010_0010_0110_1010_1010_0110_0000, -- 'd'
  0b0000_0000_0000_0110_1010_1100_0110_0000, -- 'e'
  0b0000_0010_0100_1110_0100_0100_0100_0000, -- 'f'
  0b0000_0000_0000_0110_1010_0110_0010_1100, -- 'g'
  0b0000_1000_1000_1100_1010_1010_1010_0000, -- 'h'
  0b0000_0100_0000_1100_0100_0100_1110_0000, -- 'i'
  0b0000_0010_0000_1110_0010_0010_0010_1100, -- 'j'
  0b0000_1000_1000_1010_1100_1010_1010_0000, -- 'k'
  0b0000_1100_0100_0100_0100_0100_0110_0000, -- 'l'
  0b0000_0000_0000_1100_1110_1110_1010_0000, -- 'm'
  0b0000_0000_0000_1100_1010_1010_1010_0000, -- 'n'
  0b0000_0000_0000_0100_1010_1010_0100_0000, -- 'o'
  0b0000_0000_0000_1100_1010_1010_1100_1000, -- 'p'
  0b0000_0000_0000_0110_1010_1010_0110_0010, -- 'q'
  0b0000_0000_0000_1010_1100_1000_1000_0000, -- 'r'
  0b0000_0000_0000_0110_1100_0110_1100_0000, -- 's'
  0b0000_0000_0100_1110_0100_0100_0010_0000, -- 't'
  0b0000_0000_0000_1010_1010_1010_0110_0000, -- 'u'
  0b0000_0000_0000_1010_1010_1100_1000_0000, -- 'v'
  0b0000_0000_0000_1010_1010_1110_1110_0000, -- 'w'
  0b0000_0000_0000_1010_0100_1010_1010_0000, -- 'x'
  0b0000_0000_0000_1010_1010_0110_0010_1100, -- 'y'
  0b0000_0000_0000_1110_0100_1000_1110_0000, -- 'z'
  0b0000_0010_0100_0100_1000_0100_0100_0010, -- { (0x7B)
  0b0000_0100_0100_0100_0100_0100_0100_0100, -- | (0x7C)
  0b0000_1000_0100_0100_0010_0100_0100_1000, -- } (0x7D)
  0b0000_0000_0000_1100_0110_0000_0000_0000, -- ~ (0x7E)
  ascii4x8_unkown]                           -- DEL (0x7F)

/-- `font[i]`, with no check of `i`. -/
def fontAt {α : Type} (font : List α) (i : Int) : Except Fault α :=
  match if 0 ≤ i then font[i.toNat]? else none with
  | some entry => .ok entry
  | none => .error (.undefined (.fontIndex i))

/-- `font & (1 << k)`, as a condition. -/
def bitAt (font : UInt32) (k : Int) : Bool := font &&& 1 <<< UInt32.ofNat k.toNat != 0

/-- The value of a `char`. -/
def charValue (signed : Bool) (c : UInt8) : Int := if signed then c.toInt8.toInt else c.toNat

theorem fontAt_ok {α : Type} {font : List α} {i : Nat} (h : i < font.length) (a : α) :
    fontAt font i = .ok (font.getD i a) := by
  simp [fontAt, List.getElem?_eq_getElem h, List.getD_eq_getElem?_getD]

/-- A byte below 128 is the same character with both kinds of `char`. -/
theorem charValue_ascii (signed : Bool) {c : UInt8} (h : c.toNat < 128) :
    charValue signed c = c.toNat := by
  cases signed
  · rfl
  · show (if 2 * c.toNat < 2 ^ 8 then (c.toNat : Int) else (c.toNat : Int) - (2 ^ 8 : Nat)) = _
    rw [if_pos (by omega)]

/-! ## Single characters -/

structure Digit3x5 extends SimpleAlphaGroup where
  digit : Int
  deriving DecidableEq, Repr

namespace Digit3x5

def led (g : Digit3x5) (x y : Int) : Except Fault LedColor :=
  if g.digit ≥ 0 ∧ g.digit < digit3x5font.length ∧ x ≥ 0 ∧ x < 3 ∧ y ≥ 0 ∧ y < 5 then do
    let font ← fontAt digit3x5font g.digit
    pure (g.pick (bitAt font.toUInt32 (y * 3 + 2 - x)))
  else .error (.outOfRange s!"Digit3x5::led<{g.digit}>({x}, {y})")

def source (g : Digit3x5) : PaintSource := ⟨3, 5, g.led⟩

end Digit3x5

structure Ascii4x8 extends SimpleAlphaGroup where
  c : UInt8
  deriving DecidableEq, Repr

namespace Ascii4x8

def led (signed : Bool) (g : Ascii4x8) (x y : Int) : Except Fault LedColor :=
  let c := charValue signed g.c
  if c ≥ 0 ∧ c < ascii4x8font.length ∧ x ≥ 0 ∧ x < 4 ∧ y ≥ 0 ∧ y < 8 then do
    let font ← fontAt ascii4x8font c
    pure (g.pick (bitAt font (y * 4 + 3 - x)))
  else .error (.outOfRange "Ascii4x8::led")

def source (signed : Bool) (g : Ascii4x8) : PaintSource := ⟨4, 8, g.led signed⟩

end Ascii4x8

/-! ## Numbers -/

structure DigitGroup3x5 extends SimpleAlphaGroup where
  digits_ : Int
  digitsWidth_ : Int
  deriving DecidableEq, Repr

namespace DigitGroup3x5

/-- The loop of `set_digits`, at most `fuel` times round:
`while (digits != 0) { digits_width_++; digits /= 10; }`. -/
def countDigits : Nat → Int → Int → Except Fault Int
  | 0, _, _ => .error (.undefined .noReturn)
  | fuel + 1, digits, width =>
    if digits ≠ 0 then do
      let width ← cint (width + 1)
      countDigits fuel (digits.tdiv 10) width
    else .ok width

/-- An `int` has at most ten digits, so the loop tests its condition at most eleven times. -/
def setDigits (digits : Int) (g : DigitGroup3x5) : Except Fault DigitGroup3x5 := do
  let digits ← (if digits < 0 then cint (-digits) else .ok digits)
  let width ← countDigits 11 digits 0
  pure { g with digits_ := digits, digitsWidth_ := width }

/-- The constructor, with the default colours. The two fields have no value before
`set_digits`. -/
def make (digits : Int) : Except Fault DigitGroup3x5 :=
  setDigits digits { digits_ := 0, digitsWidth_ := 0 }

def width (g : DigitGroup3x5) : Int := g.digitsWidth_ * 3

/-- `(int)std::pow(10, k)`; a negative power rounds to 0. -/
def pow10 (k : Int) : Except Fault Int := if 0 ≤ k then cint (10 ^ k.toNat) else .ok 0

def led (g : DigitGroup3x5) (x y : Int) : Except Fault LedColor :=
  if x ≥ 0 ∧ x < g.width ∧ y ≥ 0 ∧ y < 5 then do
    let power ← pow10 (g.digitsWidth_ - x.tdiv 3 - 1)
    let quotient ← cdiv g.digits_ power
    let font ← fontAt digit3x5font (quotient.tmod 10)
    pure (g.pick (bitAt font.toUInt32 (y * 3 + 2 - x.tmod 3)))
  else .error (.outOfRange "DigitGroup3x5::led")

def source (g : DigitGroup3x5) : PaintSource := ⟨g.width, 5, g.led⟩

end DigitGroup3x5

/-! ## Texts -/

structure Text4x8 extends SimpleAlphaGroup where
  text : List UInt8
  deriving DecidableEq, Repr

namespace Text4x8

/-- `text.size() * 4`, turned into an `int`. -/
def width (g : Text4x8) : Int := ((g.text.length * 4 : Nat) : Int).bmod (2 ^ 32)

def led (signed : Bool) (g : Text4x8) (x y : Int) : Except Fault LedColor :=
  if x ≥ 0 ∧ x < g.width ∧ y ≥ 0 ∧ y < 8 then do
    let font ← fontAt ascii4x8font (charValue signed (g.text.getD (x.tdiv 4).toNat 0))
    pure (g.pick (bitAt font (y * 4 + 3 - x.tmod 4)))
  else .error (.outOfRange "Text4x8::led")

def source (signed : Bool) (g : Text4x8) : PaintSource := ⟨g.width, 8, g.led signed⟩

end Text4x8

/-! ## What the glyphs show -/

/-- The bit of the digit `d` at `(x, y)`. -/
def digitBit (d : Nat) (x y : Int) : Bool := bitAt (digit3x5font.getD d 0).toUInt32 (y * 3 + 2 - x)

/-- The bit of the ASCII character `c` at `(x, y)`. -/
def asciiBit (c : Nat) (x y : Int) : Bool := bitAt (ascii4x8font.getD c 0) (y * 4 + 3 - x)

/-- The decimal digits of `|n|`, the most significant one first. -/
def decimal (n : Int) : List Nat := (Nat.digits 10 n.natAbs).reverse

/-- The bit at `(x, y)` of the number `n`: each digit has three columns. -/
def numberBit (n x y : Int) : Bool := digitBit ((decimal n).getD (x / 3).toNat 0) (x % 3) y

/-- The bit at `(x, y)` of a text: each character has four columns. -/
def textBit (text : List UInt8) (x y : Int) : Bool :=
  asciiBit (text.getD (x / 4).toNat 0).toNat (x % 4) y

@[simp] theorem length_ascii4x8font : ascii4x8font.length = 128 := by
  simp [ascii4x8font]

namespace DigitGroup3x5

/-- The loop counts the decimal digits, and ends within its bound. -/
theorem countDigits_ok {fuel n : Nat} (h : n < 10 ^ fuel) {width : Int} (h0 : 0 ≤ width)
    (hw : width + fuel ≤ INT_MAX) :
    countDigits (fuel + 1) n width = .ok (width + (Nat.digits 10 n).length) := by
  induction fuel generalizing n width with
  | zero =>
    obtain rfl : n = 0 := by simpa using h
    simp [countDigits]
  | succ fuel ih =>
    unfold countDigits
    by_cases hn : n = 0
    · subst hn
      simp
    have hlen : (Nat.digits 10 n).length = (Nat.digits 10 (n / 10)).length + 1 := by
      rw [Nat.digits_def' (by decide) (Nat.pos_of_ne_zero hn), List.length_cons]
    have hdiv : n / 10 < 10 ^ fuel := by
      rw [pow_succ] at h
      omega
    have hint : IsInt (width + 1) := by
      unfold IsInt INT_MIN INT_MAX at *
      omega
    rw [if_pos (by exact_mod_cast hn), cint_ok hint]
    show countDigits (fuel + 1) ((n / 10 : Nat) : Int) (width + 1) = _
    rw [ih hdiv (by omega) (by omega), hlen]
    congr 1
    omega

/-- The group shows the number `n`. -/
structure Shows (g : DigitGroup3x5) (n : Int) : Prop where
  digits_eq : g.digits_ = n.natAbs
  width_eq : g.digitsWidth_ = (decimal n).length
  abs_le : (n.natAbs : Int) ≤ INT_MAX

theorem length_decimal_le {n : Int} (h : (n.natAbs : Int) ≤ INT_MAX) :
    (decimal n).length ≤ 10 := by
  unfold decimal INT_MAX at *
  rw [List.length_reverse, Nat.digits_length_le_iff (by decide)]
  omega

/-- `set_digits` on any group, for every number but the least. -/
theorem setDigits_ok {n : Int} (h0 : INT_MIN < n) (h1 : n ≤ INT_MAX) (g : DigitGroup3x5) :
    ∃ g', setDigits n g = .ok g' ∧ g'.toSimpleAlphaGroup = g.toSimpleAlphaGroup ∧ g'.Shows n := by
  have hle : (n.natAbs : Int) ≤ INT_MAX := by
    unfold INT_MIN INT_MAX at *
    omega
  have habs : (if n < 0 then cint (-n) else .ok n) = .ok (n.natAbs : Int) := by
    split
    · rw [cint_ok (by unfold IsInt INT_MIN INT_MAX at *; omega)]
      congr 1
      omega
    · congr 1
      omega
  have hcount : countDigits 11 (n.natAbs : Int) 0 = .ok ((decimal n).length : Int) := by
    have hlt : n.natAbs < 10 ^ 10 := by
      unfold INT_MAX at hle
      omega
    rw [countDigits_ok hlt (by decide) (by decide)]
    simp [decimal]
  refine ⟨{ g with digits_ := n.natAbs, digitsWidth_ := (decimal n).length }, ?_, rfl, rfl, rfl,
    hle⟩
  unfold setDigits
  rw [habs]
  show (countDigits 11 (n.natAbs : Int) 0 >>= _) = _
  rw [hcount]
  rfl

/-- The digit that the loop-free formula of `led` picks is the one of the decimal notation. -/
theorem decimal_getD {n : Int} {i : Nat} (hi : i < (decimal n).length) :
    (decimal n).getD i 0 = n.natAbs / 10 ^ ((decimal n).length - i - 1) % 10 := by
  have hlen : (decimal n).length = (Nat.digits 10 n.natAbs).length := by simp [decimal]
  rw [← Nat.getD_digits _ _ (by decide), List.getD_eq_getElem?_getD, List.getD_eq_getElem?_getD]
  unfold decimal at hi ⊢
  rw [List.length_reverse] at hi ⊢
  rw [List.getElem?_reverse hi]
  congr 2
  omega

namespace Shows

variable {g : DigitGroup3x5} {n : Int}

theorem length_le (h : g.Shows n) : (decimal n).length ≤ 10 := length_decimal_le h.abs_le

/-- The power of ten that `led` divides by in the cell `i`. -/
theorem pow10_ok (h : g.Shows n) {i : Nat} (hi : i < (decimal n).length) :
    pow10 (g.digitsWidth_ - i - 1) = .ok ((10 ^ ((decimal n).length - i - 1) : Nat) : Int) ∧
      ((10 ^ ((decimal n).length - i - 1) : Nat) : Int) ≤ 10 ^ 9 := by
  have hlen := h.length_le
  generalize hk : (decimal n).length - i - 1 = k
  have hle : ((10 ^ k : Nat) : Int) ≤ 10 ^ 9 := by
    exact_mod_cast Nat.pow_le_pow_right (show 0 < 10 by decide) (show k ≤ 9 by omega)
  have hpos : (0 : Int) < (10 ^ k : Nat) := by positivity
  have he : g.digitsWidth_ - i - 1 = (k : Int) := by
    rw [h.width_eq]
    omega
  have hint : IsInt ((10 ^ k : Nat) : Int) := by
    unfold IsInt INT_MIN INT_MAX
    omega
  refine ⟨?_, hle⟩
  unfold pow10
  rw [he, if_pos (Int.natCast_nonneg k), Int.toNat_natCast, ← cint_ok hint]
  push_cast
  rfl

/-- The quotient by a power of ten. -/
theorem cdiv_ok (h : g.Shows n) (k : Nat) :
    cdiv g.digits_ ((10 ^ k : Nat) : Int) = .ok ((n.natAbs / 10 ^ k : Nat) : Int) ∧
      IsInt ((n.natAbs / 10 ^ k : Nat) : Int) := by
  have hpos : 0 < 10 ^ k := by positivity
  have hle : n.natAbs / 10 ^ k ≤ n.natAbs := Nat.div_le_self _ _
  have habs := h.abs_le
  have hint : IsInt ((n.natAbs / 10 ^ k : Nat) : Int) := by
    generalize n.natAbs / 10 ^ k = q at hle ⊢
    unfold IsInt INT_MIN INT_MAX at *
    omega
  refine ⟨?_, hint⟩
  unfold cdiv
  rw [if_neg (by omega), h.digits_eq, ← Int.ofNat_tdiv, cint_ok hint]

/-- `led` shows the bits of the decimal digits. -/
theorem led_ok (h : g.Shows n) {x y : Int} (hin : g.source.Inside x y) :
    g.led x y = .ok (g.pick (numberBit n x y)) := by
  obtain ⟨⟨hx0, hx⟩, hy0, hy⟩ := hin
  change x < g.digitsWidth_ * 3 at hx
  change y < 5 at hy
  rw [h.width_eq] at hx
  obtain ⟨i, hi⟩ : ∃ i : Nat, x / 3 = i := ⟨(x / 3).toNat, by omega⟩
  have hlt : i < (decimal n).length := by omega
  have hdigit : ((n.natAbs / 10 ^ ((decimal n).length - i - 1) : Nat) : Int).tmod 10 =
      ((decimal n).getD i 0 : Nat) := by
    rw [decimal_getD hlt]
    rfl
  have hten : (decimal n).getD i 0 < digit3x5font.length := by
    rw [decimal_getD hlt]
    exact Nat.mod_lt _ (by decide)
  unfold led
  rw [if_pos (by unfold width; rw [h.width_eq]; omega), Int.tdiv_eq_ediv_of_nonneg hx0, hi,
    (h.pow10_ok hlt).1]
  show (cdiv g.digits_ _ >>= _) = _
  rw [(h.cdiv_ok _).1]
  show (fontAt digit3x5font (Int.tmod _ 10) >>= _) = _
  rw [hdigit, fontAt_ok hten 0, Int.tmod_eq_emod_of_nonneg hx0]
  unfold numberBit digitBit
  rw [hi]
  rfl

end Shows

end DigitGroup3x5

namespace Text4x8

/-- A text whose width does not wrap. -/
theorem width_eq {g : Text4x8} (h : (g.text.length : Int) * 4 ≤ INT_MAX) :
    g.width = (g.text.length : Int) * 4 := by
  unfold width INT_MAX at *
  rw [Int.bmod_eq_of_le] <;> omega

theorem source_width (signed : Bool) {g : Text4x8} (h : (g.text.length : Int) * 4 ≤ INT_MAX) :
    (g.source signed).width = (g.text.length : Int) * 4 := by
  simp only [source, width_eq h]

/-- `led` shows the bits of the characters. -/
theorem led_ok (signed : Bool) {g : Text4x8} (hfit : (g.text.length : Int) * 4 ≤ INT_MAX)
    (hascii : ∀ c ∈ g.text, c.toNat < 128) {x y : Int} (hin : (g.source signed).Inside x y) :
    g.led signed x y = .ok (g.pick (textBit g.text x y)) := by
  obtain ⟨⟨hx0, hx⟩, hy⟩ : (0 ≤ x ∧ x < g.width) ∧ 0 ≤ y ∧ y < 8 := by
    simpa only [PaintSource.Inside, source] using hin
  have hcond : x ≥ 0 ∧ x < g.width ∧ y ≥ 0 ∧ y < 8 := ⟨hx0, hx, hy⟩
  rw [width_eq hfit] at hx
  obtain ⟨i, hi⟩ : ∃ i : Nat, x / 4 = i := ⟨(x / 4).toNat, by omega⟩
  have hlt : i < g.text.length := by omega
  have hc : (g.text.getD i 0).toNat < 128 := by
    rw [List.getD_eq_getElem?_getD, List.getElem?_eq_getElem hlt]
    exact hascii _ (List.getElem_mem hlt)
  have hfont : fontAt ascii4x8font ((g.text.getD i 0).toNat : Int) =
      .ok (ascii4x8font.getD (g.text.getD i 0).toNat 0) :=
    fontAt_ok (by rw [length_ascii4x8font]; exact hc) 0
  unfold led
  rw [if_pos hcond, Int.tdiv_eq_ediv_of_nonneg hx0, hi, Int.toNat_natCast,
    charValue_ascii signed hc, hfont, Int.tmod_eq_emod_of_nonneg hx0]
  unfold textBit asciiBit
  rw [hi]
  rfl

end Text4x8
end Ws2812
