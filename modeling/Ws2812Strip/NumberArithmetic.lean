import Ws2812Strip.Glyph

/-!
# The arithmetic of numbers

`set_digits` and `led` of a number compute with `int`s that nothing checks: a negation, a loop of
divisions, a power of ten to divide by, an index into the font. `recordSetDigits` and `recordLed`
are the two functions with a record of these operations; the record changes no result
(`run_recordSetDigits`, `run_recordLed`).

* `NumberStep.InRange`: the range of each operation.
* `arithmeticInRange_iff`: every operation stays in its range, for every number but the least,
  whose negation is no `int`.
-/

namespace Ws2812

namespace DigitGroup3x5

/-- An operation of the arithmetic. -/
inductive NumberStep where
  /-- A signed operation with the result `n`. -/
  | signed (n : Int)
  /-- A division by the power of ten `p`. -/
  | divide (p : Int)
  /-- `digit3x5font[i]` -/
  | index (i : Int)
  /-- `1 << k` -/
  | shift (k : Int)
  deriving DecidableEq, Repr

def NumberStep.InRange : NumberStep → Prop
  | .signed n => IsInt n
  | .divide p => 1 ≤ p ∧ p ≤ 10 ^ 9
  | .index i => 0 ≤ i ∧ i ≤ 9
  | .shift k => 0 ≤ k ∧ k ≤ 30

instance : DecidablePred NumberStep.InRange
  | .signed n => inferInstanceAs (Decidable (IsInt n))
  | .divide p => inferInstanceAs (Decidable (1 ≤ p ∧ p ≤ 10 ^ 9))
  | .index i => inferInstanceAs (Decidable (0 ≤ i ∧ i ≤ 9))
  | .shift k => inferInstanceAs (Decidable (0 ≤ k ∧ k ≤ 30))

def record (steps : List NumberStep) : Prog (List NumberStep) Fault Unit :=
  .modify fun before => before ++ steps

/-- `countDigits` with a record. -/
def recordCountDigits : Nat → Int → Int → Prog (List NumberStep) Fault Int
  | 0, _, _ => .lift (.error (.undefined .noReturn))
  | fuel + 1, digits, width =>
    if digits ≠ 0 then do
      record [.signed (width + 1)]
      let width ← .lift (cint (width + 1))
      record [.signed (digits.tdiv 10)]
      recordCountDigits fuel (digits.tdiv 10) width
    else pure width

/-- `setDigits` with a record. -/
def recordSetDigits (digits : Int) (g : DigitGroup3x5) :
    Prog (List NumberStep) Fault DigitGroup3x5 := do
  let digits ← (if digits < 0 then do
      record [.signed (-digits)]
      .lift (cint (-digits))
    else pure digits)
  let width ← recordCountDigits 11 digits 0
  pure { g with digits_ := digits, digitsWidth_ := width }

/-- `led` with a record. `width()` is called after the test of `x >= 0`. -/
def recordLed (g : DigitGroup3x5) (x y : Int) : Prog (List NumberStep) Fault LedColor := do
  record (if x ≥ 0 then [.signed (g.digitsWidth_ * 3)] else [])
  if x ≥ 0 ∧ x < g.width ∧ y ≥ 0 ∧ y < 5 then do
    let k := g.digitsWidth_ - x.tdiv 3 - 1
    record [.signed (x.tdiv 3), .signed (g.digitsWidth_ - x.tdiv 3), .signed k]
    let power ← .lift (pow10 k)
    record [.signed power, .divide power]
    let quotient ← .lift (cdiv g.digits_ power)
    record [.signed quotient, .signed (quotient.tmod 10), .index (quotient.tmod 10)]
    let font ← .lift (fontAt digit3x5font (quotient.tmod 10))
    let bit := y * 3 + 2 - x.tmod 3
    record [.signed (y * 3), .signed (y * 3 + 2), .signed (x.tmod 3), .signed bit, .shift bit]
    pure (g.pick (bitAt font.toUInt32 bit))
  else .lift (.error (.outOfRange "DigitGroup3x5::led"))

/-! ## The record changes no result -/

theorem run_recordCountDigits (fuel : Nat) (digits width : Int) (steps : List NumberStep) :
    ((recordCountDigits fuel digits width).run steps).1 = countDigits fuel digits width := by
  induction fuel generalizing digits width steps with
  | zero => rfl
  | succ fuel ih =>
    unfold recordCountDigits countDigits
    by_cases h : digits ≠ 0
    · rw [if_pos h, if_pos h]
      show ((Prog.lift (cint (width + 1)) >>= _).run _).1 = _
      exact Prog.run_bind_fst rfl fun _ _ => ih ..
    · rw [if_neg h, if_neg h]
      rfl

theorem run_recordSetDigits (digits : Int) (g : DigitGroup3x5) (steps : List NumberStep) :
    ((recordSetDigits digits g).run steps).1 = setDigits digits g := by
  unfold recordSetDigits setDigits
  refine Prog.run_bind_fst ?_ fun digits _ => Prog.run_bind_fst (run_recordCountDigits ..)
    fun _ _ => rfl
  rw [Prog.run_ite]
  split <;> rfl

theorem run_recordLed (g : DigitGroup3x5) (x y : Int) (steps : List NumberStep) :
    ((recordLed g x y).run steps).1 = g.led x y := by
  unfold recordLed led
  rw [record, Prog.run_modify_bind, Prog.run_ite]
  split
  · show ((Prog.lift (pow10 (g.digitsWidth_ - x.tdiv 3 - 1)) >>= _).run _).1 = _
    refine Prog.run_bind_fst rfl fun power _ => ?_
    show ((Prog.lift (cdiv g.digits_ power) >>= _).run _).1 = _
    refine Prog.run_bind_fst rfl fun quotient _ => ?_
    show ((Prog.lift (fontAt digit3x5font (quotient.tmod 10)) >>= _).run _).1 = _
    exact Prog.run_bind_fst rfl fun _ _ => rfl
  · rfl

/-! ## Every operation in its range -/

/-- `c` returns `a`, and every operation on the way has been in its range. -/
structure RunsInRange {α : Type} (c : Prog (List NumberStep) Fault α) (a : α) : Prop where
  returns : (c.run []).1 = .ok a
  steps : ∀ s ∈ (c.run []).2, s.InRange

/-- `set_digits(n)` on `g`, and then `led` at every pixel, stay in range. -/
def ArithmeticInRange (n : Int) (g : DigitGroup3x5) : Prop :=
  ∃ g', RunsInRange (recordSetDigits n g) g' ∧ 0 ≤ g'.digits_ ∧
    ∀ x y, 0 ≤ x ∧ x < g'.width → 0 ≤ y ∧ y < 5 → ∃ c, RunsInRange (recordLed g' x y) c

theorem keeps_record {steps : List NumberStep} (h : ∀ s ∈ steps, s.InRange) :
    Prog.Keeps (fun steps => ∀ s ∈ steps, NumberStep.InRange s) (record steps) := by
  intro before hbefore s hs
  rcases List.mem_append.mp hs with hs | hs
  · exact hbefore s hs
  · exact h s hs

/-- The loop of `set_digits`: neither the counter nor the quotient leaves its range. -/
theorem keeps_recordCountDigits (fuel : Nat) {n width : Int} (hn : 0 ≤ n ∧ n ≤ INT_MAX)
    (hw : 0 ≤ width ∧ width + fuel ≤ INT_MAX) :
    Prog.Keeps (fun steps => ∀ s ∈ steps, NumberStep.InRange s)
      (recordCountDigits fuel n width) := by
  induction fuel generalizing n width with
  | zero => exact Prog.Keeps.lift _
  | succ fuel ih =>
    have hcount : IsInt (width + 1) := by
      unfold IsInt INT_MIN INT_MAX at *
      omega
    have hquotient : 0 ≤ n.tdiv 10 ∧ n.tdiv 10 ≤ INT_MAX := by
      rw [Int.tdiv_eq_ediv_of_nonneg hn.1]
      omega
    unfold recordCountDigits
    refine Prog.Keeps.ite ?_ (Prog.Keeps.pure _)
    refine (keeps_record (List.forall_mem_singleton.mpr ?_)).bind fun _ => ?_
    · exact hcount
    rw [cint_ok hcount, Prog.lift_ok_bind]
    refine (keeps_record (List.forall_mem_singleton.mpr ?_)).bind fun _ => ?_
    · show IsInt (n.tdiv 10)
      unfold IsInt INT_MIN INT_MAX at *
      omega
    · exact ih hquotient ⟨by omega, by push_cast at hw; omega⟩

/-- `set_digits` of every number but the least. -/
theorem setDigits_in_range {n : Int} (hn : INT_MIN < n ∧ n ≤ INT_MAX) (g : DigitGroup3x5) :
    ∃ g', RunsInRange (recordSetDigits n g) g' ∧ g'.Shows n := by
  obtain ⟨g', hset, -, hshows⟩ := setDigits_ok hn.1 hn.2 g
  refine ⟨g', ⟨(run_recordSetDigits n g []).trans hset, ?_⟩, hshows⟩
  have hrest : ∀ m, 0 ≤ m ∧ m ≤ INT_MAX → Prog.Keeps
      (fun steps => ∀ s ∈ steps, NumberStep.InRange s) (recordCountDigits 11 m 0 >>= fun width =>
        pure { g with digits_ := m, digitsWidth_ := width }) :=
    fun m hm => (keeps_recordCountDigits 11 hm (by decide)).bind fun _ => Prog.Keeps.pure _
  have hkeeps : Prog.Keeps (fun steps => ∀ s ∈ steps, NumberStep.InRange s)
      (recordSetDigits n g) := by
    unfold recordSetDigits
    by_cases h : n < 0
    · have hneg : IsInt (-n) := by
        unfold IsInt INT_MIN INT_MAX at *
        omega
      have hstep : ∀ s ∈ [NumberStep.signed (-n)], s.InRange :=
        List.forall_mem_singleton.mpr hneg
      rw [if_pos h, cint_ok hneg]
      exact (keeps_record hstep).bind fun _ => hrest (-n) ⟨by omega, hneg.2⟩
    · rw [if_neg h]
      exact hrest n ⟨by omega, hn.2⟩
  exact hkeeps [] (by simp)

/-- `led` of a group that shows a number. -/
theorem Shows.led_in_range {g : DigitGroup3x5} {n : Int} (h : g.Shows n) {x y : Int}
    (hx : 0 ≤ x ∧ x < g.width) (hy : 0 ≤ y ∧ y < 5) :
    ∃ c, RunsInRange (recordLed g x y) c := by
  refine ⟨_, (run_recordLed g x y []).trans (h.led_ok ⟨hx, hy⟩), ?_⟩
  obtain ⟨i, hi⟩ : ∃ i : Nat, x / 3 = i := ⟨(x / 3).toNat, by omega⟩
  have hwidth := h.width_eq
  have hlen := h.length_le
  have hlt : i < (decimal n).length := by
    unfold width at hx
    omega
  obtain ⟨hpow, hle⟩ := h.pow10_ok hlt
  generalize (decimal n).length - i - 1 = k at hpow hle
  obtain ⟨hdiv, hint⟩ := h.cdiv_ok k
  generalize n.natAbs / 10 ^ k = q at hdiv hint
  have hpos : 0 < 10 ^ k := by positivity
  generalize 10 ^ k = power at hpow hle hdiv hpos
  have hdigit : ((q : Nat) : Int).tmod 10 = ((q % 10 : Nat) : Int) := rfl
  unfold recordLed
  rw [if_pos hx.1, if_pos ⟨hx.1, hx.2, hy.1, hy.2⟩]
  simp only [Int.tdiv_eq_ediv_of_nonneg hx.1, Int.tmod_eq_emod_of_nonneg hx.1, hi, hpow, hdiv,
    hdigit, Prog.lift_ok_bind]
  refine (?_ : Prog.Keeps (fun steps => ∀ s ∈ steps, NumberStep.InRange s) _) [] (by simp)
  refine (keeps_record ?_).bind fun _ => (keeps_record ?_).bind fun _ =>
    (keeps_record ?_).bind fun _ => (keeps_record ?_).bind fun _ =>
    (Prog.Keeps.lift _).bind fun _ => (keeps_record ?_).bind fun _ => Prog.Keeps.pure _
  -- each group of operations against the bounds of the cell `i` and of its quotient
  all_goals
    simp only [List.forall_mem_cons, List.not_mem_nil, false_imp_iff, implies_true, and_true,
      NumberStep.InRange, IsInt, INT_MIN, INT_MAX] at hint ⊢
    omega

/-- **Number arithmetic.** For every `int`, on a group in any state, no operation of `set_digits`
and then of `led` in range leaves its range, exactly when the number is not the least one. -/
theorem arithmeticInRange_iff {n : Int} (hn : IsInt n) (g : DigitGroup3x5) :
    ArithmeticInRange n g ↔ n ≠ INT_MIN := by
  constructor
  · rintro ⟨g', hset, -, -⟩ rfl
    have := hset.returns
    rw [run_recordSetDigits] at this
    cases this
  · intro hmin
    have hlow := hn.1
    obtain ⟨g', hset, hshows⟩ := setDigits_in_range ⟨by omega, hn.2⟩ g
    refine ⟨g', hset, ?_, fun x y hx hy => hshows.led_in_range hx hy⟩
    rw [hshows.digits_eq]
    exact Int.natCast_nonneg _

/-- The greatest `int` on a group that showed another number. -/
theorem arithmeticInRange_greatest :
    ArithmeticInRange INT_MAX { digits_ := 7, digitsWidth_ := 1 } :=
  (arithmeticInRange_iff (by decide) _).mpr (by decide)

/-- The negation of the least `int` is none. -/
theorem not_arithmeticInRange_least :
    ¬ ArithmeticInRange INT_MIN { digits_ := 7, digitsWidth_ := 1 } ∧
    .signed 2147483648 ∈ ((recordSetDigits INT_MIN { digits_ := 7, digitsWidth_ := 1 }).run []).2 ∧
    ¬ (NumberStep.signed 2147483648).InRange := by
  refine ⟨?_, ?_, ?_⟩
  · rintro ⟨g', hset, -, -⟩
    have := hset.returns
    rw [run_recordSetDigits] at this
    cases this
  · decide
  · decide

end DigitGroup3x5

end Ws2812
