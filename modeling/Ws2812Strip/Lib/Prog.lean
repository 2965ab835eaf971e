import Mathlib.Logic.Basic

/-!
# Programs with a state and faults

`Prog σ ε α` runs on a state `σ` and returns an `α` or stops with an `ε`. The state survives a
stop: what was written before it stays written, as in a C++ function that an exception leaves.

* `Triple P c Q E`: from a state with `P`, `c` returns with `Q` or stops with `E`. Every program
  ends, so this is total correctness with `E := fun _ _ => False`.
* `Keeps I c`: `c` keeps `I` of the state, whether it returns or stops.
* `Sim R c d V`: two programs over two states that `R` relates end the same way, with a value
  that satisfies `V`, in states that `R` relates again.
* `forUpTo n body`: the counted loop `for (i = 0; i < n; ++i)`. `Triple.forUpTo` is its invariant
  rule, `Sim.forUpTo` its simulation rule; a proof about a loop is a proof about one iteration.
-/

/-- A program over the state `σ` that returns an `α` or stops with an `ε`. -/
def Prog (σ ε α : Type) : Type := σ → Except ε α × σ

namespace Prog

variable {σ τ ε α β : Type}

/-- The outcome of `c` from `s`, and the state it leaves. -/
def run (c : Prog σ ε α) (s : σ) : Except ε α × σ := c s

instance : Monad (Prog σ ε) where
  pure a := fun s => (.ok a, s)
  bind c f := fun s => match c s with
    | (.ok a, s') => f a s'
    | (.error e, s') => (.error e, s')

/-- Stop with `e`. -/
def stop (e : ε) : Prog σ ε α := fun s => (.error e, s)

/-- The value of `f` in the current state. -/
def read (f : σ → α) : Prog σ ε α := fun s => (.ok (f s), s)

/-- Replace the state by `f` of it. -/
def modify (f : σ → σ) : Prog σ ε Unit := fun s => (.ok (), f s)

/-- An outcome that does not read the state. -/
def lift (r : Except ε α) : Prog σ ε α := fun s => (r, s)

/-- `for (i = 0; i < n; ++i) body(i)`. -/
def forUpTo : Nat → (Nat → Prog σ ε Unit) → Prog σ ε Unit
  | 0, _ => pure ()
  | n + 1, body => forUpTo n body >>= fun _ => body n

section Run

variable {c : Prog σ ε α} {f : α → Prog σ ε β} {s s' : σ}

@[simp] theorem run_pure (a : α) (s : σ) : (pure a : Prog σ ε α).run s = (.ok a, s) := rfl

@[simp] theorem run_read (g : σ → α) (s : σ) : (read g : Prog σ ε α).run s = (.ok (g s), s) := rfl

@[simp] theorem run_modify (g : σ → σ) (s : σ) :
    (modify g : Prog σ ε Unit).run s = (.ok (), g s) := rfl

@[simp] theorem run_lift (r : Except ε α) (s : σ) : (lift r : Prog σ ε α).run s = (r, s) := rfl

theorem run_bind (c : Prog σ ε α) (f : α → Prog σ ε β) (s : σ) :
    (c >>= f).run s = match c.run s with
      | (.ok a, s') => (f a).run s'
      | (.error e, s') => (.error e, s') := rfl

theorem run_bind_ok {a : α} (h : c.run s = (.ok a, s')) : (c >>= f).run s = (f a).run s' := by
  rw [run_bind, h]

theorem run_bind_error {e : ε} (h : c.run s = (.error e, s')) :
    (c >>= f).run s = (.error e, s') := by
  rw [run_bind, h]

@[simp] theorem run_read_bind (g : σ → α) (f : α → Prog σ ε β) (s : σ) :
    (read g >>= f).run s = (f (g s)).run s := rfl

@[simp] theorem run_modify_bind (g : σ → σ) (f : Unit → Prog σ ε β) (s : σ) :
    (modify g >>= f).run s = (f ()).run (g s) := rfl

@[simp] theorem run_lift_ok_bind (a : α) (f : α → Prog σ ε β) (s : σ) :
    (lift (.ok a) >>= f).run s = (f a).run s := rfl

@[simp] theorem run_lift_error_bind (e : ε) (f : α → Prog σ ε β) (s : σ) :
    (lift (.error e) >>= f).run s = (.error e, s) := rfl

theorem lift_ok_bind (a : α) (f : α → Prog σ ε β) : (lift (.ok a) >>= f) = f a := rfl

/-- A value computed from the result changes nothing. -/
theorem run_bind_pure (c : Prog σ ε α) (f : α → β) (s : σ) :
    ((c >>= fun a => pure (f a)).run s).2 = (c.run s).2 := by
  rcases hr : c.run s with ⟨e | a, s'⟩
  · rw [run_bind_error hr]
  · rw [run_bind_ok hr, run_pure]

/-- The outcome of a sequence whose parts end in the same way from every state. -/
theorem run_bind_fst {r : Except ε α} {g : α → Except ε β} (hc : (c.run s).1 = r)
    (hf : ∀ a s', ((f a).run s').1 = g a) : ((c >>= f).run s).1 = r >>= g := by
  rcases hr : c.run s with ⟨e | a, s'⟩
  · rw [run_bind_error hr, ← hc, hr]
    rfl
  · rw [run_bind_ok hr, ← hc, hr]
    exact hf a s'

theorem run_ite (p : Prop) [Decidable p] (c d : Prog σ ε α) (s : σ) :
    (if p then c else d).run s = if p then c.run s else d.run s := by
  split <;> rfl

end Run

/-! ## Collecting loops -/

section Collect

variable {n : Nat} {f : Nat → Except ε α} {g : Nat → α} {mark : α → β}

/-- A loop that appends an element for each index. -/
theorem run_forUpTo_append (h : ∀ i < n, f i = .ok (g i)) (xs : List β) :
    (forUpTo n fun i => lift (f i) >>= fun a => modify (· ++ [mark a])).run xs =
      (.ok (), xs ++ (List.range n).map fun i => mark (g i)) := by
  induction n with
  | zero => simp [forUpTo]
  | succ n ih =>
    rw [forUpTo, run_bind_ok (ih fun i hi => h i (by omega)), h n (by omega), run_lift_ok_bind,
      run_modify, List.range_succ, List.map_append, List.append_assoc]
    rfl

/-- It stops at the first index for which there is none. -/
theorem run_forUpTo_append_error {k : Nat} (hk : k < n) (h : ∀ i < k, f i = .ok (g i)) {e : ε}
    (he : f k = .error e) (xs : List β) :
    (forUpTo n fun i => lift (f i) >>= fun a => modify (· ++ [mark a])).run xs =
      (.error e, xs ++ (List.range k).map fun i => mark (g i)) := by
  induction n with
  | zero => omega
  | succ n ih =>
    rcases Nat.lt_succ_iff_lt_or_eq.mp hk with hlt | rfl
    · rw [forUpTo, run_bind_error (ih hlt)]
    · rw [forUpTo, run_bind_ok (run_forUpTo_append h xs), he, run_lift_error_bind]

end Collect

/-! ## Triples -/

/-- A run that ended in `r` returned with `Q` or stopped with `E`. -/
def Ends (Q : α → σ → Prop) (E : ε → σ → Prop) (r : Except ε α × σ) : Prop :=
  match r with
  | (.ok a, s) => Q a s
  | (.error e, s) => E e s

/-- What a run says about the state it left, however it ended. -/
theorem Ends.state {P : σ → Prop} {Q : α → σ → Prop} {E : ε → σ → Prop} {r : Except ε α × σ}
    (h : Ends Q E r) (hq : ∀ a s, Q a s → P s) (he : ∀ e s, E e s → P s) : P r.2 := by
  obtain ⟨e | a, s⟩ := r
  · exact he e s h
  · exact hq a s h

/-- From a state with `P`, `c` returns a value with `Q` or stops with `E`. -/
def Triple (P : σ → Prop) (c : Prog σ ε α) (Q : α → σ → Prop) (E : ε → σ → Prop) : Prop :=
  ∀ s, P s → Ends Q E (c.run s)

namespace Triple

variable {P P' : σ → Prop} {Q Q' : α → σ → Prop} {E E' : ε → σ → Prop} {c : Prog σ ε α}

theorem ok (h : Triple P c Q E) {s s' : σ} {a : α} (hs : P s) (hr : c.run s = (.ok a, s')) :
    Q a s' := by
  have := h s hs
  rwa [hr] at this

theorem error (h : Triple P c Q E) {s s' : σ} {e : ε} (hs : P s)
    (hr : c.run s = (.error e, s')) : E e s' := by
  have := h s hs
  rwa [hr] at this

/-- A program that cannot stop returns. -/
theorem returns (h : Triple P c Q (fun _ _ => False)) {s : σ} (hs : P s) :
    ∃ a s', c.run s = (.ok a, s') ∧ Q a s' := by
  match hr : c.run s with
  | (.ok a, s') => exact ⟨a, s', rfl, h.ok hs hr⟩
  | (.error e, s') => exact (h.error hs hr).elim

theorem conseq (h : Triple P c Q E) (hp : ∀ s, P' s → P s) (hq : ∀ a s, Q a s → Q' a s)
    (he : ∀ e s, E e s → E' e s) : Triple P' c Q' E' := by
  intro s hs
  match hr : c.run s with
  | (.ok a, s') => exact hq _ _ (h.ok (hp s hs) hr)
  | (.error e, s') => exact he _ _ (h.error (hp s hs) hr)

theorem pure (a : α) (h : ∀ s, P s → Q a s) : Triple P (pure a) Q E := fun s hs => h s hs

theorem bind {R : β → σ → Prop} {f : α → Prog σ ε β} (hc : Triple P c Q E)
    (hf : ∀ a, Triple (Q a) (f a) R E) : Triple P (c >>= f) R E := by
  intro s hs
  match hr : c.run s with
  | (.ok a, s') => rw [run_bind_ok hr]; exact hf a s' (hc.ok hs hr)
  | (.error e, s') => rw [run_bind_error hr]; exact hc.error hs hr

/-- The invariant rule of the counted loop: `I i` holds before iteration `i`. -/
theorem forUpTo {I : Nat → σ → Prop} {n : Nat} {body : Nat → Prog σ ε Unit}
    (h : ∀ i < n, Triple (I i) (body i) (fun _ => I (i + 1)) E) :
    Triple (I 0) (forUpTo n body) (fun _ => I n) E := by
  induction n with
  | zero => exact Triple.pure () fun _ hs => hs
  | succ n ih => exact bind (ih fun i hi => h i (by omega)) fun _ => h n (by omega)

end Triple

/-! ## Preserved predicates -/

/-- `c` keeps `I`, whether it returns or stops. -/
def Keeps (I : σ → Prop) (c : Prog σ ε α) : Prop := ∀ s, I s → I (c.run s).2

namespace Keeps

variable {I : σ → Prop} {c : Prog σ ε α}

theorem pure (a : α) : Keeps I (pure a : Prog σ ε α) := fun _ hs => hs

theorem read (f : σ → α) : Keeps I (read f : Prog σ ε α) := fun _ hs => hs

theorem lift (r : Except ε α) : Keeps I (lift r : Prog σ ε α) := fun _ hs => hs

/-- What `c` establishes from `s` and the rest of the program keeps. -/
theorem after {f : α → Prog σ ε β} {s : σ} (h : I (c.run s).2) (hf : ∀ a, Keeps I (f a)) :
    I ((c >>= f).run s).2 := by
  rcases hr : c.run s with ⟨e | a, s'⟩
  · rw [hr] at h
    rw [run_bind_error hr]
    exact h
  · rw [hr] at h
    rw [run_bind_ok hr]
    exact hf a s' h

theorem bind {f : α → Prog σ ε β} (hc : Keeps I c) (hf : ∀ a, Keeps I (f a)) :
    Keeps I (c >>= f) := fun s hs => after (hc s hs) hf

theorem ite {p : Prop} [Decidable p] {d : Prog σ ε α} (hc : Keeps I c) (hd : Keeps I d) :
    Keeps I (if p then c else d) := by
  split
  · exact hc
  · exact hd

theorem forUpTo {n : Nat} {body : Nat → Prog σ ε Unit} (h : ∀ i, Keeps I (body i)) :
    Keeps I (forUpTo n body) := by
  induction n with
  | zero => exact pure ()
  | succ n ih => exact bind ih fun _ => h n

/-- What the first iteration of a loop establishes from `s` and the body keeps. -/
theorem forUpTo_first {n : Nat} {body : Nat → Prog σ ε Unit} {s : σ} (hn : 0 < n)
    (h : ∀ i, Keeps I (body i)) (hfirst : I ((body 0).run s).2) :
    I ((Prog.forUpTo n body).run s).2 := by
  induction n with
  | zero => omega
  | succ n ih =>
    by_cases hz : n = 0
    · subst hz
      exact hfirst
    · exact after (ih (by omega)) fun _ => h n

end Keeps

/-- A loop whose iterations change nothing changes nothing. -/
theorem run_forUpTo_skip {n : Nat} {body : Nat → Prog σ ε Unit} {s : σ}
    (h : ∀ i, (body i).run s = (.ok (), s)) : (forUpTo n body).run s = (.ok (), s) := by
  induction n with
  | zero => rfl
  | succ n ih =>
    show (forUpTo n body >>= fun _ => body n).run s = _
    rw [run_bind_ok ih, h n]

/-! ## Simulation -/

/-- From states that `R` relates, `c` and `d` end the same way, a returned value satisfies `V`,
and the states left are related again, after a stop too. -/
def Sim (R : σ → τ → Prop) (c : Prog σ ε α) (d : Prog τ ε α) (V : α → Prop) : Prop :=
  ∀ s t, R s t → (c.run s).1 = (d.run t).1 ∧ (∀ a, (c.run s).1 = .ok a → V a) ∧
    R (c.run s).2 (d.run t).2

namespace Sim

variable {R : σ → τ → Prop} {c : Prog σ ε α} {d : Prog τ ε α} {V : α → Prop}

theorem pure (a : α) (h : V a) : Sim R (pure a : Prog σ ε α) (pure a) V := by
  rintro s t hr
  exact ⟨rfl, fun b hb => by cases hb; exact h, hr⟩

theorem lift (r : Except ε α) (h : ∀ a, r = .ok a → V a) :
    Sim R (lift r) (lift r) V := fun _ _ hr => ⟨rfl, h, hr⟩

theorem read {f : σ → α} {g : τ → α} (h : ∀ s t, R s t → f s = g t ∧ V (f s)) :
    Sim R (read f : Prog σ ε α) (read g) V := by
  intro s t hr
  obtain ⟨e, hv⟩ := h s t hr
  refine ⟨by simp [e], ?_, hr⟩
  rintro a ha
  cases ha
  exact hv

theorem modify {f : σ → σ} {g : τ → τ} (h : ∀ s t, R s t → R (f s) (g t)) :
    Sim R (modify f : Prog σ ε Unit) (modify g) (fun _ => True) :=
  fun s t hr => ⟨rfl, fun _ _ => trivial, h s t hr⟩

theorem bind {X : β → Prop} {f : α → Prog σ ε β} {g : α → Prog τ ε β} (hc : Sim R c d V)
    (hf : ∀ a, V a → Sim R (f a) (g a) X) : Sim R (c >>= f) (d >>= g) X := by
  intro s t hr
  obtain ⟨e, hv, hr'⟩ := hc s t hr
  simp only [run_bind]
  match hs : c.run s, ht : d.run t with
  | (.ok a, s'), (.ok b, t') =>
    rw [hs, ht] at e hr'
    cases e
    exact hf a (hv a (by rw [hs])) s' t' hr'
  | (.error a, s'), (.error b, t') =>
    rw [hs, ht] at e hr'
    cases e
    exact ⟨rfl, by simp, hr'⟩
  | (.ok a, s'), (.error b, t') => rw [hs, ht] at e; cases e
  | (.error a, s'), (.ok b, t') => rw [hs, ht] at e; cases e

theorem ite {p : Prop} [Decidable p] {c' : Prog σ ε α} {d' : Prog τ ε α}
    (h : p → Sim R c d V) (h' : ¬ p → Sim R c' d' V) :
    Sim R (if p then c else c') (if p then d else d') V := by
  split
  · exact h ‹_›
  · exact h' ‹_›

/-- The simulation rule of the counted loop: the bodies agree at every index below `n`. -/
theorem forUpTo {n : Nat} {body : Nat → Prog σ ε Unit} {body' : Nat → Prog τ ε Unit}
    (h : ∀ i < n, Sim R (body i) (body' i) (fun _ => True)) :
    Sim R (forUpTo n body) (forUpTo n body') (fun _ => True) := by
  induction n with
  | zero => exact pure () trivial
  | succ n ih => exact bind (ih fun i hi => h i (by omega)) fun _ _ => h n (by omega)

end Sim

end Prog
