import Mathlib.Data.List.Basic
import Mathlib.Tactic.Basic

/-!
# Readers of a stream

A reader asks for a number of elements of a stream, and goes on when they are all there. `drain`
lets it take from a buffer as long as it can; `feedAll` gives it the stream in chunks.

* `feedAll_eq`: the chunks do not matter, only the stream.
-/

/-- A reader with states `σ` of a stream of `β`. -/
structure Reader (σ β γ : Type) where
  /-- How many elements the next step takes. A reader that needs none has stopped. -/
  need : σ → Nat
  /-- The next state, and what the step puts out. -/
  step : σ → List β → σ × List γ

namespace Reader

variable {σ β γ : Type} (r : Reader σ β γ)

/-- The reader goes on with the buffer. -/
def Ready (s : σ) (buf : List β) : Prop := 0 < r.need s ∧ r.need s ≤ buf.length

instance (s : σ) (buf : List β) : Decidable (r.Ready s buf) :=
  inferInstanceAs (Decidable (_ ∧ _))

/-- The reader takes what it can from a buffer. -/
def drain (s : σ) (buf : List β) : (σ × List β) × List γ :=
  if _h : r.Ready s buf then
    let next := r.step s (buf.take (r.need s))
    let rest := drain next.1 (buf.drop (r.need s))
    (rest.1, next.2 ++ rest.2)
  else ((s, buf), [])
termination_by buf.length
decreasing_by
  have := _h.1
  have := _h.2
  rw [List.length_drop]
  omega

/-- A chunk of the stream arrives. -/
def feed (c : σ × List β) (chunk : List β) : (σ × List β) × List γ := r.drain c.1 (c.2 ++ chunk)

/-- The chunks arrive one after the other. -/
def feedAll : σ × List β → List (List β) → (σ × List β) × List γ
  | c, [] => (c, [])
  | c, chunk :: chunks =>
    let first := r.feed c chunk
    let rest := feedAll first.1 chunks
    (rest.1, first.2 ++ rest.2)

theorem drain_ready {s : σ} {buf : List β} (h : r.Ready s buf) :
    r.drain s buf =
      let next := r.step s (buf.take (r.need s))
      let rest := r.drain next.1 (buf.drop (r.need s))
      (rest.1, next.2 ++ rest.2) := by
  rw [drain, dif_pos h]

theorem drain_stuck {s : σ} {buf : List β} (h : ¬ r.Ready s buf) :
    r.drain s buf = ((s, buf), []) := by
  rw [drain, dif_neg h]

/-- What a reader has taken is all that it could take. -/
theorem not_ready_drain (s : σ) (buf : List β) :
    ¬ r.Ready (r.drain s buf).1.1 (r.drain s buf).1.2 := by
  induction s, buf using drain.induct r with
  | case1 s buf h next ih =>
    rw [drain_ready r h]
    exact ih
  | case2 s buf h =>
    rw [drain_stuck r h]
    exact h

/-- More of the stream, before or after the reader has taken what it could. -/
theorem drain_append (a b : List β) (s : σ) :
    r.drain s (a ++ b) =
      let first := r.drain s a
      let rest := r.feed first.1 b
      (rest.1, first.2 ++ rest.2) := by
  induction s, a using drain.induct r with
  | case1 s a h next ih =>
    have hle := h.2
    have hready : r.Ready s (a ++ b) := ⟨h.1, by rw [List.length_append]; omega⟩
    rw [drain_ready r hready, drain_ready r h, List.take_append_of_le_length hle,
      List.drop_append_of_le_length hle]
    have ih' : r.drain (r.step s (a.take (r.need s))).1 (a.drop (r.need s) ++ b) = _ := ih
    simp only [ih', List.append_assoc]
    rfl
  | case2 s a h =>
    rw [drain_stuck r h]
    simp [feed]

/-- **The chunks do not matter.** A reader that has taken what it could ends in the same state, and
has put out the same, however the stream is cut. -/
theorem feedAll_eq {c : σ × List β} (hc : ¬ r.Ready c.1 c.2) (chunks : List (List β)) :
    r.feedAll c chunks = r.feed c chunks.flatten := by
  induction chunks generalizing c with
  | nil => simp [feedAll, feed, drain_stuck r hc]
  | cons chunk chunks ih =>
    have hrest := ih (r.not_ready_drain c.1 (c.2 ++ chunk))
    simp only [feedAll, feed, List.flatten_cons]
    rw [← List.append_assoc, r.drain_append (c.2 ++ chunk)]
    simp only [hrest, feed]

end Reader
