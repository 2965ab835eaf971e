import Mathlib.Logic.Basic

/-!
# Properties of every step of a run

A run performs a list of actions one after the other with a step function. `Each step P s as` says
that `P` holds of every state of the run and the action performed there.

* `each_append`: two runs, one after the other.
* `Each.inv`: an invariant that the steps of a run keep holds at its end.
* `each_iff`: two properties of steps that agree where an invariant holds agree on whole runs.
* `outputs`: what the steps of a run put out. A machine whose steps another one simulates puts out
  the same (`outputs_simulates`).
-/

namespace Run

variable {σ τ α β : Type}

/-- `P` holds at every step of the run of `as` from `s`. -/
def Each (step : σ → α → σ) (P : σ → α → Prop) : σ → List α → Prop
  | _, [] => True
  | s, a :: as => P s a ∧ Each step P (step s a) as

instance decidableEach (step : σ → α → σ) (P : σ → α → Prop) [∀ s a, Decidable (P s a)] :
    ∀ s as, Decidable (Each step P s as)
  | _, [] => isTrue trivial
  | s, a :: as =>
    have := decidableEach step P (step s a) as
    inferInstanceAs (Decidable (_ ∧ _))

variable {step : σ → α → σ} {P Q L : σ → α → Prop} {I : σ → Prop}

/-- Two runs, one after the other. -/
theorem each_append {s : σ} {as bs : List α} :
    Each step P s (as ++ bs) ↔ Each step P s as ∧ Each step P (as.foldl step s) bs := by
  induction as generalizing s with
  | nil => simp [Each]
  | cons a as ih => simp only [List.cons_append, Each, ih, List.foldl_cons, and_assoc]

/-- A run, and one more step. -/
theorem each_concat {s : σ} {as : List α} {a : α} :
    Each step P s (as ++ [a]) ↔ Each step P s as ∧ P (as.foldl step s) a := by
  simp [each_append, Each]

/-- An invariant that every step with `L` and `P` keeps holds at the end of a run of such steps. -/
theorem Each.inv (hinv : ∀ s a, I s → L s a → P s a → I (step s a)) {s : σ} {as : List α}
    (hs : I s) (hl : Each step L s as) (h : Each step P s as) : I (as.foldl step s) := by
  induction as generalizing s with
  | nil => exact hs
  | cons a as ih => exact ih (hinv s a hs hl.1 h.1) hl.2 h.2

/-- Two properties of steps that agree wherever the invariant holds, and one of which keeps it,
agree on whole runs of steps with `L`. -/
theorem each_iff (hiff : ∀ s a, I s → L s a → (P s a ↔ Q s a))
    (hinv : ∀ s a, I s → L s a → Q s a → I (step s a)) {s : σ} {as : List α} (hs : I s)
    (hl : Each step L s as) : Each step P s as ↔ Each step Q s as := by
  induction as generalizing s with
  | nil => exact Iff.rfl
  | cons a as ih =>
    obtain ⟨ha, hrest⟩ := hl
    constructor
    · rintro ⟨hp, hps⟩
      have hq := (hiff s a hs ha).mp hp
      exact ⟨hq, (ih (hinv s a hs ha hq) hrest).mp hps⟩
    · rintro ⟨hq, hqs⟩
      exact ⟨(hiff s a hs ha).mpr hq, (ih (hinv s a hs ha hq) hrest).mpr hqs⟩

/-! ## Outputs -/

/-- What each step of the run of `as` from `s` puts out. -/
def outputs (step : σ → α → σ) (out : σ → α → β) : σ → List α → List β
  | _, [] => []
  | s, a :: as => out s a :: outputs step out (step s a) as

/-- If every step of one machine puts out what the step of the other one does, and leaves related
states, then so does every run whose steps are admissible for the second one. -/
theorem outputs_simulates {step' : τ → α → τ} {out : σ → α → β} {out' : τ → α → β}
    {R : σ → τ → Prop} {ok : τ → α → Prop}
    (hstep : ∀ s t a, R s t → ok t a → out s a = out' t a ∧ R (step s a) (step' t a)) {s : σ}
    {t : τ} {as : List α} (h : R s t) (hok : Each step' ok t as) :
    outputs step out s as = outputs step' out' t as ∧ R (as.foldl step s) (as.foldl step' t) := by
  induction as generalizing s t with
  | nil => exact ⟨rfl, h⟩
  | cons a as ih =>
    obtain ⟨ha, hrest⟩ := hok
    obtain ⟨hout, h'⟩ := hstep s t a h ha
    obtain ⟨houts, hend⟩ := ih h' hrest
    exact ⟨congrArg₂ List.cons hout houts, hend⟩

end Run
