import Ws2812Strip.Glyph
import Mathlib.Data.List.GetD
import Mathlib.Data.Nat.Bitwise

/-!
# Groups of glyphs against single glyphs

`Text4x8` and `DigitGroup3x5` show many glyphs with arithmetic of their own; `Ascii4x8` and
`Digit3x5` show one. Glyph by glyph the two should be alike.

* `Text4x8.agreesAt_iff`: a text shows a character as `Ascii4x8` does exactly when it is ASCII.
  `Ascii4x8::led` tests its character, `Text4x8::led` indexes the font with it as it is.
* `number_images`: a number shows its decimal digits as `Digit3x5` does, so its absolute value can
  be read back from the image.
* `DigitGroup3x5.width_iff`: a number has one cell for each decimal digit, zero excepted.
* `text_images`: a printable text can be read back from its image. `nodup_printable` is what that
  needs of the font, `bitAt_eq_testBit` what it needs of the bits.
-/

namespace Ws2812

/-! ## Single glyphs -/

theorem Digit3x5.led_ok {g : Digit3x5} (hd : 0 ≤ g.digit ∧ g.digit < 10) {x y : Int}
    (hin : g.source.Inside x y) :
    g.led x y = .ok (g.pick (digitBit g.digit.toNat x y)) := by
  obtain ⟨⟨hx0, hx⟩, hy0, hy⟩ := hin
  change x < 3 at hx
  change y < 5 at hy
  obtain ⟨d, hd'⟩ : ∃ d : Nat, g.digit = d := ⟨g.digit.toNat, by omega⟩
  have hlen : digit3x5font.length = 10 := rfl
  unfold led
  rw [if_pos (by omega), hd', fontAt_ok (by omega) 0]
  rfl

theorem Ascii4x8.led_ok (signed : Bool) {g : Ascii4x8} (hc : g.c.toNat < 128) {x y : Int}
    (hin : (g.source signed).Inside x y) :
    g.led signed x y = .ok (g.pick (asciiBit g.c.toNat x y)) := by
  obtain ⟨⟨hx0, hx⟩, hy0, hy⟩ := hin
  change x < 4 at hx
  change y < 8 at hy
  unfold led
  simp only [charValue_ascii signed hc, length_ascii4x8font]
  rw [if_pos (by omega), fontAt_ok (by rw [length_ascii4x8font]; exact hc) 0]
  rfl

/-! ## Texts -/

namespace Text4x8

/-- The character in the column `x`, as a single glyph. -/
def glyph (g : Text4x8) (x : Int) : Ascii4x8 :=
  ⟨g.toSimpleAlphaGroup, g.text.getD (x / 4).toNat 0⟩

/-- At `(x, y)` the text shows what its character shows, or throws if that throws, and does not
leave the font table. -/
structure AgreesAt (signed : Bool) (g : Text4x8) (x y : Int) : Prop where
  color : ∀ c, (g.glyph x).led signed (x % 4) y = .ok c → g.led signed x y = .ok c
  throws : ∀ what, (g.glyph x).led signed (x % 4) y = .error (.outOfRange what) →
    ∃ what', g.led signed x y = .error (.outOfRange what')
  table : ∀ i, g.led signed x y ≠ .error (.undefined (.fontIndex i))

/-- A byte from 128 on is no entry of the font, with either kind of `char`. -/
theorem charValue_not_ascii (signed : Bool) {c : UInt8} (h : ¬ c.toNat < 128) :
    charValue signed c < 0 ∨ 128 ≤ charValue signed c := by
  have hlt := c.toNat_lt
  cases signed
  · right
    show (128 : Int) ≤ (c.toNat : Int)
    omega
  · left
    show (if 2 * c.toNat < 2 ^ 8 then (c.toNat : Int) else (c.toNat : Int) - (2 ^ 8 : Nat)) < 0
    rw [if_neg (by omega)]
    omega

theorem fontAt_error {α : Type} {font : List α} {i : Int} (h : i < 0 ∨ font.length ≤ i) :
    fontAt font i = .error (.undefined (.fontIndex i)) := by
  unfold fontAt
  by_cases h0 : 0 ≤ i
  · rw [if_pos h0, List.getElem?_eq_none (by omega)]
  · rw [if_neg h0]

variable {signed : Bool} {g : Text4x8} {x y : Int}

/-- `led` in range: the font at the character, with no test of it. -/
theorem led_in_range (hfit : (g.text.length : Int) * 4 ≤ INT_MAX)
    (hx : 0 ≤ x ∧ x < 4 * g.text.length) (hy : 0 ≤ y ∧ y < 8) :
    g.led signed x y = (do
      let font ← fontAt ascii4x8font (charValue signed (g.glyph x).c)
      pure (g.pick (bitAt font (y * 4 + 3 - x % 4)))) := by
  unfold led glyph
  rw [width_eq hfit, if_pos (by omega), Int.tdiv_eq_ediv_of_nonneg hx.1,
    Int.tmod_eq_emod_of_nonneg hx.1]

/-- **Texts against single characters.** For every string whose width is an `int` and either kind
of `char`, a pixel of the text is the one of its character exactly when that is ASCII. -/
theorem agreesAt_iff (hfit : (g.text.length : Int) * 4 ≤ INT_MAX)
    (hx : 0 ≤ x ∧ x < 4 * g.text.length) (hy : 0 ≤ y ∧ y < 8) :
    g.AgreesAt signed x y ↔ (g.text.getD (x / 4).toNat 0).toNat < 128 := by
  constructor
  · intro h
    by_contra hc
    refine h.table (charValue signed (g.glyph x).c) ?_
    have hout := charValue_not_ascii signed hc
    rw [led_in_range hfit hx hy, fontAt_error (by rw [length_ascii4x8font]; exact hout)]
    rfl
  · intro hc
    have hin : ((g.glyph x).source signed).Inside (x % 4) y := by
      simp only [PaintSource.Inside, Ascii4x8.source]
      omega
    have hglyph := Ascii4x8.led_ok signed (g := g.glyph x) hc hin
    have hfont : fontAt ascii4x8font (charValue signed (g.glyph x).c) =
        .ok (ascii4x8font.getD (g.glyph x).c.toNat 0) := by
      rw [charValue_ascii signed (c := (g.glyph x).c) hc]
      exact fontAt_ok (by rw [length_ascii4x8font]; exact hc) 0
    have htext : g.led signed x y = (g.glyph x).led signed (x % 4) y := by
      rw [led_in_range hfit hx hy, hfont, hglyph]
      rfl
    refine ⟨fun c h => htext.trans h, fun what h => ⟨what, htext.trans h⟩, fun i h => ?_⟩
    rw [htext, hglyph] at h
    cases h

/-- The second character of `hi`. -/
theorem agreesAt_iff_letter :
    AgreesAt true ⟨⟨Led.red, Led.black⟩, [0x68, 0x69]⟩ 5 3 :=
  (agreesAt_iff (by decide) (by decide) (by decide)).mpr (by decide)

/-- The UTF-8 bytes of `é`: `Ascii4x8` throws, the text leaves the font table. -/
theorem not_agreesAt_utf8 :
    ¬ AgreesAt true ⟨⟨Led.red, Led.black⟩, [0xC3, 0xA9]⟩ 0 0 ∧
    ¬ AgreesAt false ⟨⟨Led.red, Led.black⟩, [0xC3, 0xA9]⟩ 0 0 :=
  ⟨fun h => h.table (-61) (by decide), fun h => h.table 195 (by decide)⟩

end Text4x8

/-! ## Numbers -/

/-- Two images of the same size with the same pixels. -/
def PaintSource.SameImage (s t : PaintSource) : Prop :=
  s.width = t.width ∧ s.height = t.height ∧ ∀ x y, s.Inside x y → s.led x y = t.led x y

/-- The glyphs of different digits differ in some bit. -/
theorem digit_eq_of_bits : ∀ d d' : Fin 10,
    (∀ x : Fin 3, ∀ y : Fin 5, digitBit d x y = digitBit d' x y) → d = d' := by
  decide +kernel

theorem SimpleAlphaGroup.pick_inj {g : SimpleAlphaGroup} (h : g.color ≠ g.back) {b b' : Bool} :
    g.pick b = g.pick b' ↔ b = b' := by
  cases b <;> cases b' <;> simp [pick, h, h.symm]

theorem decimal_lt {n : Int} {d : Nat} (h : d ∈ decimal n) : d < 10 := by
  unfold decimal at h
  rw [List.mem_reverse] at h
  exact Nat.digits_lt_base (by decide) h

theorem decimal_inj {a b : Int} : decimal a = decimal b ↔ a.natAbs = b.natAbs := by
  unfold decimal
  rw [List.reverse_inj]
  exact (Nat.digits.injective 10).eq_iff

/-- Two numbers of the same length whose images have the same bits have the same digits. -/
theorem decimal_eq_of_bits {a b : Int} (hlen : (decimal a).length = (decimal b).length)
    (hbits : ∀ x y : Int, 0 ≤ x ∧ x < (decimal a).length * 3 → 0 ≤ y ∧ y < 5 →
      numberBit a x y = numberBit b x y) : decimal a = decimal b := by
  apply List.ext_getElem hlen
  intro i hi hi'
  have hdigit := digit_eq_of_bits ⟨(decimal a)[i], decimal_lt (List.getElem_mem hi)⟩
    ⟨(decimal b)[i], decimal_lt (List.getElem_mem hi')⟩ fun x y => by
      have hbit := hbits (3 * i + x) y (by omega) (by omega)
      have hcell : ((3 * i + x : Int) / 3).toNat = i := by omega
      have hcol : (3 * i + x : Int) % 3 = x := by omega
      unfold numberBit at hbit
      rw [hcell, hcol] at hbit
      rw [List.getD_eq_getElem _ _ hi, List.getD_eq_getElem _ _ hi'] at hbit
      exact hbit
  exact congrArg Fin.val hdigit

namespace DigitGroup3x5

/-- A pixel of the number is the one of its digit. -/
theorem Shows.led_eq_digit {g : DigitGroup3x5} {n : Int} (h : g.Shows n) {x y : Int}
    (hx : 0 ≤ x ∧ x < g.width) (hy : 0 ≤ y ∧ y < 5) :
    g.led x y =
      Digit3x5.led ⟨g.toSimpleAlphaGroup, (decimal n).getD (x / 3).toNat 0⟩ (x % 3) y := by
  have hlt : (x / 3).toNat < (decimal n).length := by
    have := h.width_eq
    unfold width at hx
    omega
  have hten : (decimal n).getD (x / 3).toNat 0 < 10 := by
    rw [List.getD_eq_getElem _ _ hlt]
    exact decimal_lt (List.getElem_mem hlt)
  rw [h.led_ok ⟨hx, hy⟩, Digit3x5.led_ok (by simp only; omega)]
  · rfl
  · simp only [PaintSource.Inside, Digit3x5.source]
    omega

/-- The images of two numbers in the same two colours. -/
theorem Shows.sameImage_iff {g h : DigitGroup3x5} {a b : Int} (hg : g.Shows a) (hh : h.Shows b)
    (hsame : g.toSimpleAlphaGroup = h.toSimpleAlphaGroup) (hcolor : g.color ≠ g.back) :
    g.source.SameImage h.source ↔ a.natAbs = b.natAbs := by
  rw [← decimal_inj]
  have hwidth : g.source.width = h.source.width ↔ (decimal a).length = (decimal b).length := by
    have h1 := hg.width_eq
    have h2 := hh.width_eq
    show g.digitsWidth_ * 3 = h.digitsWidth_ * 3 ↔ _
    omega
  constructor
  · rintro ⟨hw, -, hled⟩
    refine decimal_eq_of_bits (hwidth.mp hw) fun x y hx hy => ?_
    have hin : g.source.Inside x y := by
      have h1 := hg.width_eq
      refine ⟨⟨hx.1, ?_⟩, hy⟩
      show x < g.digitsWidth_ * 3
      omega
    have hin' : h.source.Inside x y := ⟨⟨hx.1, hw ▸ hin.1.2⟩, hy⟩
    have heq : g.led x y = h.led x y := hled x y hin
    rw [hg.led_ok hin, hh.led_ok hin', ← hsame, Except.ok.injEq,
      SimpleAlphaGroup.pick_inj hcolor] at heq
    exact heq
  · intro hdec
    have hw := hwidth.mpr (congrArg List.length hdec)
    refine ⟨hw, rfl, fun x y hin => ?_⟩
    have hin' : h.source.Inside x y := ⟨⟨hin.1.1, hw ▸ hin.1.2⟩, hin.2⟩
    show g.led x y = h.led x y
    rw [hg.led_ok hin, hh.led_ok hin', ← hsame]
    unfold numberBit
    rw [hdec]

/-- The canonical notation has the digits of `decimal`, but for zero, which it writes as `0`. -/
theorem length_toDigits {n : Nat} (h : n ≠ 0) :
    (Nat.toDigits 10 n).length = (Nat.digits 10 n).length := by
  induction n using Nat.strongRecOn with
  | ind n ih =>
    rw [Nat.toDigits_eq_if (by decide), Nat.digits_def' (by decide) (Nat.pos_of_ne_zero h)]
    by_cases hlt : n < 10
    · rw [if_pos hlt, Nat.div_eq_of_lt hlt]
      simp
    · rw [if_neg hlt, List.length_append, ih (n / 10) (by omega) (by omega)]
      simp

/-- **The width of a number.** On a group in any state, `set_digits` gives one cell for each
decimal digit, and at least one, for every `int` but zero and the least one. -/
theorem width_iff {n : Int} (hn : IsInt n) (g : DigitGroup3x5) :
    (∃ g', setDigits n g = .ok g' ∧ 0 < g'.width ∧
      g'.width = 3 * (Nat.toDigits 10 n.natAbs).length) ↔ n ≠ 0 ∧ n ≠ INT_MIN := by
  constructor
  · rintro ⟨g', hset, hpos, -⟩
    constructor
    · rintro rfl
      cases hset
      simp [width] at hpos
    · rintro rfl
      cases hset
  · rintro ⟨h0, hmin⟩
    obtain ⟨g', hset, -, hshows⟩ := setDigits_ok (n := n) (by
      have := hn.1
      omega) hn.2 g
    have hlen : (decimal n).length = (Nat.toDigits 10 n.natAbs).length := by
      rw [length_toDigits (by omega)]
      simp [decimal]
    have hpos := Nat.length_toDigits_pos (b := 10) (n := n.natAbs)
    have hw := hshows.width_eq
    refine ⟨g', hset, ?_, ?_⟩ <;> unfold width <;> omega

/-- The greatest `int` on a group that showed another number. -/
theorem width_iff_greatest :
    ∃ g', setDigits INT_MAX { digits_ := 7, digitsWidth_ := 1 } = .ok g' ∧ 0 < g'.width ∧
      g'.width = 3 * (Nat.toDigits 10 INT_MAX.natAbs).length :=
  (width_iff (by decide) _).mpr ⟨by decide, by decide⟩

/-- Zero has no cell. -/
theorem not_width_zero :
    ¬ ∃ g', setDigits 0 { digits_ := 7, digitsWidth_ := 1 } = .ok g' ∧ 0 < g'.width ∧
      g'.width = 3 * (Nat.toDigits 10 (0 : Int).natAbs).length := by
  rintro ⟨g', hset, hpos, -⟩
  cases hset
  exact absurd hpos (by decide)

end DigitGroup3x5

/-- **Numbers can be read back.** On groups in any state with the same colours, `set_digits` shows
the decimal digits of a number as single digits, and if the two colours differ then two images
are alike exactly when the absolute values are. -/
theorem number_images {a b : Int} (ha : INT_MIN < a ∧ a ≤ INT_MAX) (hb : INT_MIN < b ∧ b ≤ INT_MAX)
    (g h : DigitGroup3x5) (hsame : g.toSimpleAlphaGroup = h.toSimpleAlphaGroup) :
    ∃ ga gb, DigitGroup3x5.setDigits a g = .ok ga ∧ DigitGroup3x5.setDigits b h = .ok gb ∧
      (∀ x y, 0 ≤ x ∧ x < ga.width → 0 ≤ y ∧ y < 5 → ga.led x y =
        Digit3x5.led ⟨g.toSimpleAlphaGroup, (decimal a).getD (x / 3).toNat 0⟩ (x % 3) y) ∧
      (g.color ≠ g.back → (ga.source.SameImage gb.source ↔ a.natAbs = b.natAbs)) := by
  obtain ⟨ga, hga, hca, hsa⟩ := DigitGroup3x5.setDigits_ok ha.1 ha.2 g
  obtain ⟨gb, hgb, hcb, hsb⟩ := DigitGroup3x5.setDigits_ok hb.1 hb.2 h
  refine ⟨ga, gb, hga, hgb, fun x y hx hy => ?_, fun hcolor => ?_⟩
  · rw [hsa.led_eq_digit hx hy, hca]
  · rw [← hca] at hcolor
    exact hsa.sameImage_iff hsb (by rw [hca, hcb, hsame]) hcolor

/-- A number and its negative, and the next one. -/
theorem number_images_next :
    ∃ ga gb, DigitGroup3x5.setDigits 99 { digits_ := 0, digitsWidth_ := 0 } = .ok ga ∧
      DigitGroup3x5.setDigits 100 { digits_ := 7, digitsWidth_ := 1 } = .ok gb ∧
      ¬ ga.source.SameImage gb.source := by
  obtain ⟨ga, gb, hga, hgb, -, hiff⟩ := number_images (a := 99) (b := 100) (by decide) (by decide)
    { digits_ := 0, digitsWidth_ := 0 } { digits_ := 7, digitsWidth_ := 1 } rfl
  exact ⟨ga, gb, hga, hgb, fun h => absurd ((hiff (by decide)).mp h) (by decide)⟩

/-! ## Reading a text back -/

/-- The bit `k` of a font entry, bit 31 included. -/
theorem bitAt_eq_testBit (font : UInt32) {k : Nat} (h : k < 32) :
    bitAt font k = font.toNat.testBit k := by
  have hshift : (1 <<< UInt32.ofNat k : UInt32).toNat = 2 ^ k := by
    have hlt : 2 ^ k < 2 ^ 32 := Nat.pow_lt_pow_right (by decide) h
    have hk : (UInt32.ofNat k).toNat % 32 = k := by
      rw [UInt32.toNat_ofNat']
      omega
    rw [UInt32.toNat_shiftLeft, hk, UInt32.toNat_one, Nat.one_shiftLeft, Nat.mod_eq_of_lt hlt]
  have hpos : 0 < 2 ^ k := by positivity
  have hand : (font &&& 1 <<< UInt32.ofNat k).toNat = (font.toNat.testBit k).toNat * 2 ^ k := by
    rw [UInt32.toNat_and, hshift, Nat.and_two_pow]
  unfold bitAt
  rw [Int.toNat_natCast, Bool.eq_iff_iff, bne_iff_ne, ne_eq, ← UInt32.toNat_inj, hand,
    UInt32.toNat_zero]
  cases font.toNat.testBit k
  · simp
  · simp

/-- Two font entries with the same bits in the order of a 4 × 8 glyph are the same. -/
theorem entry_eq_of_bits {e e' : UInt32}
    (h : ∀ x y : Int, 0 ≤ x ∧ x < 4 → 0 ≤ y ∧ y < 8 →
      bitAt e (y * 4 + 3 - x) = bitAt e' (y * 4 + 3 - x)) : e = e' := by
  apply UInt32.toNat_inj.mp
  apply Nat.eq_of_testBit_eq
  intro k
  by_cases hk : k < 32
  · -- the bit `k` is in the row `k / 4`, in the column `k % 4` from the right
    have hbit := h (3 - k % 4) (k / 4) (by omega) (by omega)
    have hplace : (k / 4 : Int) * 4 + 3 - (3 - k % 4) = k := by omega
    rw [hplace, bitAt_eq_testBit e hk, bitAt_eq_testBit e' hk] at hbit
    exact hbit
  · have hpow : 2 ^ 32 ≤ 2 ^ k := Nat.pow_le_pow_right (by decide) (by omega)
    rw [Nat.testBit_lt_two_pow (lt_of_lt_of_le e.toNat_lt hpow),
      Nat.testBit_lt_two_pow (lt_of_lt_of_le e'.toNat_lt hpow)]

/-- A byte that is a printable ASCII character. -/
def Printable (c : UInt8) : Prop := 0x20 ≤ c.toNat ∧ c.toNat ≤ 0x7E

instance : DecidablePred Printable := fun _ => inferInstanceAs (Decidable (_ ∧ _))

/-- No two of the printable characters have the same glyph. -/
theorem nodup_printable : ((ascii4x8font.take 0x7F).drop 0x20).Nodup := by decide +kernel

/-- Printable characters with the same bits are the same. -/
theorem char_eq_of_bits {c c' : UInt8} (hc : Printable c) (hc' : Printable c')
    (h : ∀ x y : Int, 0 ≤ x ∧ x < 4 → 0 ≤ y ∧ y < 8 →
      asciiBit c.toNat x y = asciiBit c'.toNat x y) : c = c' := by
  have hentry : ascii4x8font.getD c.toNat 0 = ascii4x8font.getD c'.toNat 0 := entry_eq_of_bits h
  obtain ⟨hlow, hhigh⟩ := hc
  obtain ⟨hlow', hhigh'⟩ := hc'
  have hlen : ((ascii4x8font.take 0x7F).drop 0x20).length = 95 := by simp
  -- the entry of a printable character, counted from the space
  have hat : ∀ n, 0x20 ≤ n → n ≤ 0x7E →
      ascii4x8font.getD n 0 = ((ascii4x8font.take 0x7F).drop 0x20).getD (n - 0x20) 0 := by
    intro n h1 h2
    rw [List.getD_eq_getElem?_getD, List.getD_eq_getElem?_getD, List.getElem?_drop,
      List.getElem?_take_of_lt (by omega)]
    congr 3
    omega
  rw [hat _ hlow hhigh, hat _ hlow' hhigh', List.getD_eq_getElem _ _ (by omega),
    List.getD_eq_getElem _ _ (by omega), nodup_printable.getElem_inj_iff] at hentry
  apply UInt8.toNat_inj.mp
  omega

/-- Two printable texts of the same length whose images have the same bits are the same. -/
theorem text_eq_of_bits {s t : List UInt8} (hs : ∀ c ∈ s, Printable c)
    (ht : ∀ c ∈ t, Printable c) (hlen : s.length = t.length)
    (hbits : ∀ x y : Int, 0 ≤ x ∧ x < s.length * 4 → 0 ≤ y ∧ y < 8 →
      textBit s x y = textBit t x y) : s = t := by
  apply List.ext_getElem hlen
  intro i hi hi'
  refine char_eq_of_bits (hs _ (List.getElem_mem hi)) (ht _ (List.getElem_mem hi'))
    fun x y hx hy => ?_
  have hbit := hbits (4 * i + x) y (by omega) hy
  have hcell : ((4 * i + x : Int) / 4).toNat = i := by omega
  have hcol : (4 * i + x : Int) % 4 = x := by omega
  unfold textBit at hbit
  rw [hcell, hcol, List.getD_eq_getElem _ _ hi, List.getD_eq_getElem _ _ hi'] at hbit
  exact hbit

/-- **Texts can be read back.** If the two colours differ, two printable texts whose widths are
`int`s have the same image exactly when they are the same. -/
theorem text_images (signed : Bool) {s t : List UInt8} (hs : ∀ c ∈ s, Printable c)
    (ht : ∀ c ∈ t, Printable c) (hsfit : (s.length : Int) * 4 ≤ INT_MAX)
    (htfit : (t.length : Int) * 4 ≤ INT_MAX) {color back : LedColor} (hcolor : color ≠ back) :
    (Text4x8.source signed ⟨⟨color, back⟩, s⟩).SameImage
      (Text4x8.source signed ⟨⟨color, back⟩, t⟩) ↔ s = t := by
  have hascii : ∀ {u : List UInt8}, (∀ c ∈ u, Printable c) → ∀ c ∈ u, c.toNat < 128 := by
    intro u hu c hc
    have := (hu c hc).2
    omega
  constructor
  · rintro ⟨hw, -, hled⟩
    have hws := Text4x8.source_width signed (g := ⟨⟨color, back⟩, s⟩) hsfit
    have hwt := Text4x8.source_width signed (g := ⟨⟨color, back⟩, t⟩) htfit
    have hlen : s.length = t.length := by
      rw [hws, hwt] at hw
      simpa using hw
    refine text_eq_of_bits hs ht hlen fun x y hx hy => ?_
    have hin : (Text4x8.source signed ⟨⟨color, back⟩, s⟩).Inside x y :=
      ⟨⟨hx.1, by rw [hws]; exact hx.2⟩, hy⟩
    have hin' : (Text4x8.source signed ⟨⟨color, back⟩, t⟩).Inside x y :=
      ⟨⟨hx.1, hw ▸ hin.1.2⟩, hy⟩
    have heq : Text4x8.led signed ⟨⟨color, back⟩, s⟩ x y =
        Text4x8.led signed ⟨⟨color, back⟩, t⟩ x y := hled x y hin
    rw [Text4x8.led_ok signed (g := ⟨⟨color, back⟩, s⟩) hsfit (hascii hs) hin,
      Text4x8.led_ok signed (g := ⟨⟨color, back⟩, t⟩) htfit (hascii ht) hin',
      Except.ok.injEq] at heq
    exact (SimpleAlphaGroup.pick_inj (g := ⟨color, back⟩) hcolor).mp heq
  · rintro rfl
    exact ⟨rfl, rfl, fun _ _ _ => rfl⟩

/-- Two texts that differ in their last character. -/
theorem text_images_letters :
    ¬ (Text4x8.source true ⟨⟨Led.red, Led.black⟩, [0x68, 0x69]⟩).SameImage
      (Text4x8.source true ⟨⟨Led.red, Led.black⟩, [0x68, 0x6A]⟩) :=
  fun h => absurd ((text_images true (by simp [Printable]) (by simp [Printable]) (by decide)
    (by decide) (by decide)).mp h) (by decide)

end Ws2812
