import Mathlib.Logic.Relation
import Mathlib.Order.WellFounded
import Mathlib.Order.Filter.AtTopBot.Basic
import Mathlib.Order.Filter.Finite

/-!
# Links that only go down

`r u v` says that `u` is directly below `v`. Where `r` is well founded, nothing is below itself
and a recursion that goes down ends.

* `link_iff`: a link that puts `c` below `p` keeps a well-founded relation free of cycles exactly
  when `p` is not `c` or below it.
* `eventually_of_step`: what holds at depth `n + 1` of a place if it holds at depth `n` of the
  places directly below holds at every place from some depth on.
-/

namespace Descent

open Relation

variable {α : Type*} {r r' : α → α → Prop} {c p : α}

/-- Nothing is below itself. -/
def Acyclic (r : α → α → Prop) : Prop := ∀ a, ¬ TransGen r a a

theorem acyclic_of_wellFounded (h : WellFounded r) : Acyclic r :=
  fun a ha => h.transGen.irrefl.irrefl a ha

/-- A link below a place that is not below `c` again. -/
theorem wellFounded_link (hr : WellFounded r) (hsub : ∀ u v, r' u v → r u v ∨ u = c ∧ v = p)
    (hno : ¬ ReflTransGen r p c) : WellFounded r' := by
  -- the new link starts nowhere above `p`, so there the old relation is all there is
  have hclean : ∀ x, ¬ ReflTransGen r p x → Acc r' x := by
    intro x
    induction x using hr.induction with
    | _ x ih =>
      intro hx
      refine ⟨x, fun y hy => ?_⟩
      rcases hsub y x hy with h | ⟨-, rfl⟩
      · exact ih y h fun hpy => hx (hpy.tail h)
      · exact absurd .refl hx
  refine ⟨fun x => ?_⟩
  induction x using hr.induction with
  | _ x ih =>
    refine ⟨x, fun y hy => ?_⟩
    rcases hsub y x hy with h | ⟨rfl, -⟩
    · exact ih y h
    · exact hclean y hno

/-- A way up to `c` needs no link from `c`. -/
theorem path_avoiding (hkeep : ∀ u v, r u v → u ≠ c → r' u v) (h : ReflTransGen r p c) :
    ReflTransGen r' p c := by
  induction h using ReflTransGen.head_induction_on with
  | refl => exact .refl
  | @head a b hab _ ih =>
    by_cases ha : a = c
    · rw [ha]
    · exact ih.head (hkeep a b hab ha)

/-- **A new link.** Let `r'` be `r` with `c` below `p`, where at most links from `c` are gone. -/
theorem link_iff (hr : WellFounded r) (hsub : ∀ u v, r' u v → r u v ∨ u = c ∧ v = p)
    (hkeep : ∀ u v, r u v → u ≠ c → r' u v) (hnew : r' c p) :
    Acyclic r' ↔ ¬ ReflTransGen r p c :=
  ⟨fun h hpath => h c (.head' hnew (path_avoiding hkeep hpath)),
    fun hno => acyclic_of_wellFounded (wellFounded_link hr hsub hno)⟩

open Filter in
/-- Induction on the way down: with finitely many places directly below each, what every step up
keeps holds from some depth on. -/
theorem eventually_of_step (hr : WellFounded r) (hfin : ∀ a, {b | r b a}.Finite)
    {P : α → Nat → Prop} (hstep : ∀ a n, (∀ b, r b a → P b n) → P a (n + 1)) (a : α) :
    ∀ᶠ n in atTop, P a n := by
  induction a using hr.induction with
  | _ a ih =>
    have hall : ∀ᶠ n in atTop, ∀ b ∈ {b | r b a}, P b n :=
      (eventually_all_finite (hfin a)).mpr ih
    obtain ⟨n, hn⟩ := eventually_atTop.mp hall
    refine eventually_atTop.mpr ⟨n + 1, fun m hm => ?_⟩
    obtain ⟨m, rfl⟩ : ∃ k, m = k + 1 := ⟨m - 1, by omega⟩
    exact hstep a m (hn m (by omega))

end Descent
