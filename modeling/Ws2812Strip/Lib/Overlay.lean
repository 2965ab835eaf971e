import Mathlib.Data.List.Forall2
import Mathlib.Data.List.Perm.Basic

/-!
# Layers over an image

A layer is a partial image: `some b` where it paints, `none` where one sees through it.

* `paint f g`: the image `g` with the layer `f` painted on it; `paintAll layer cs g`: with the
  layers of `cs` painted on it one after the other, so the last one lies on top.
* `look layer cs g`: the image `g` seen through the layers of `cs`, the first one on top.
* `AgreeAt layer cs p`: any two layers that paint `p` paint it alike. That is exactly when the
  order of the layers does not matter at `p` (`agreeAt_iff`), and then painting and looking give
  the same (`paintAll_eq_look`).
* `exchange σ v g`: the image `g` after each point with `v` has exchanged its pixel with its
  partner under `σ`. A point that has been exchanged twice, once as a partner, is back.
* `exchangeSeen f σ v g`: the same under a layer `f` that one reads through and does not write.
-/

namespace Overlay

variable {α β ι : Type}

/-- The image `g` with the layer `f` painted on it. -/
def paint (f : α → Option β) (g : α → β) : α → β := fun p => (f p).getD (g p)

section Paint

variable {f : α → Option β} {g : α → β} {p : α}

theorem paint_some {b : β} (h : f p = some b) : paint f g p = b := by simp [paint, h]

theorem paint_none (h : f p = none) : paint f g p = g p := by simp [paint, h]

end Paint

/-- The part of a layer where `v` holds. -/
def restrict (v : α → Prop) [DecidablePred v] (f : α → Option β) : α → Option β :=
  fun p => if v p then f p else none

section Restrict

variable {v : α → Prop} [DecidablePred v] {f : α → Option β} {p : α}

theorem restrict_of (h : v p) : restrict v f p = f p := if_pos h

theorem restrict_of_not (h : ¬ v p) : restrict v f p = none := if_neg h

end Restrict

/-! ## Many layers -/

/-- The image `g` with the layers of `cs` painted on it, one after the other. -/
def paintAll (layer : ι → α → Option β) (cs : List ι) (g : α → β) : α → β :=
  cs.foldl (fun h c => paint (layer c) h) g

/-- The image `g` seen through the layers of `cs`. -/
def look (layer : ι → α → Option β) (cs : List ι) (g : α → β) : α → β :=
  fun p => (cs.findSome? fun c => layer c p).getD (g p)

/-- Two layers of `cs` that paint `p` paint it alike. -/
def AgreeAt (layer : ι → α → Option β) (cs : List ι) (p : α) : Prop :=
  ∀ c ∈ cs, ∀ c' ∈ cs, ∀ b b', layer c p = some b → layer c' p = some b' → b = b'

section Many

variable {layer : ι → α → Option β} {cs ds : List ι} {g : α → β} {p : α} {b : β}

theorem look_none (h : ∀ c ∈ cs, layer c p = none) : look layer cs g p = g p := by
  unfold look
  rw [List.findSome?_eq_none_iff.mpr h, Option.getD_none]

/-- Where a layer paints, one sees what the layers agree on. -/
theorem look_some (h : AgreeAt layer cs p) {c : ι} (hc : c ∈ cs) (hb : layer c p = some b) :
    look layer cs g p = b := by
  unfold look
  cases hfind : cs.findSome? fun c => layer c p with
  | none =>
    rw [List.findSome?_eq_none_iff.mp hfind c hc] at hb
    cases hb
  | some b' =>
    obtain ⟨c', hc', hb'⟩ := List.exists_of_findSome?_eq_some hfind
    rw [Option.getD_some]
    exact h c' hc' c hc b' b hb' hb

/-- The first layer lies on top. -/
theorem look_cons_some {c : ι} (hb : layer c p = some b) : look layer (c :: cs) g p = b := by
  simp [look, hb]

theorem look_cons_none {c : ι} (hb : layer c p = none) :
    look layer (c :: cs) g p = look layer cs g p := by
  simp [look, hb]

/-- The first layer lies over what one sees through the others. -/
theorem look_cons (c : ι) (cs : List ι) :
    look layer (c :: cs) g p = paint (layer c) (look layer cs g) p := by
  cases hb : layer c p with
  | none => rw [look_cons_none hb, paint_none hb]
  | some b => rw [look_cons_some hb, paint_some hb]

/-- Two layers of which one is empty at `p` agree there. -/
theorem agreeAt_pair {c c' : ι} (h : layer c p = none ∨ layer c' p = none) :
    AgreeAt layer [c, c'] p := by
  intro d hd d' hd' b b' hb hb'
  rcases List.mem_pair.mp hd with rfl | rfl <;> rcases List.mem_pair.mp hd' with rfl | rfl
  · exact Option.some.inj (hb.symm.trans hb')
  · rcases h with h | h
    · cases h.symm.trans hb
    · cases h.symm.trans hb'
  · rcases h with h | h
    · cases h.symm.trans hb'
    · cases h.symm.trans hb
  · exact Option.some.inj (hb.symm.trans hb')

/-- Layers with other values, seen over an image with the other values. -/
theorem look_map {γ : Type} {layer' : ι → α → Option γ} {g' : α → γ} {φ : β → γ}
    (hl : ∀ c ∈ cs, layer' c p = (layer c p).map φ) (hg : g' p = φ (g p)) :
    look layer' cs g' p = φ (look layer cs g p) := by
  induction cs with
  | nil => exact hg
  | cons c cs ih =>
    obtain ⟨hc, hcs⟩ := List.forall_mem_cons.mp hl
    cases hb : layer c p with
    | none =>
      rw [hb] at hc
      rw [look_cons_none hc, look_cons_none hb, ih hcs]
    | some b =>
      rw [hb] at hc
      rw [look_cons_some hc, look_cons_some hb]

theorem AgreeAt.perm (h : AgreeAt layer cs p) (hp : cs.Perm ds) : AgreeAt layer ds p :=
  fun c hc c' hc' => h c (hp.mem_iff.mpr hc) c' (hp.mem_iff.mpr hc')

/-- Either no layer paints `p`, or the layers agree on a value that one of them paints. -/
theorem AgreeAt.cases (h : AgreeAt layer cs p) :
    (∀ c ∈ cs, layer c p = none) ∨
      ∃ b, (∃ c ∈ cs, layer c p = some b) ∧ ∀ c ∈ cs, layer c p = none ∨ layer c p = some b := by
  by_cases hnone : ∀ c ∈ cs, layer c p = none
  · exact .inl hnone
  push Not at hnone
  obtain ⟨c, hc, hsome⟩ := hnone
  obtain ⟨b, hb⟩ := Option.ne_none_iff_exists'.mp hsome
  refine .inr ⟨b, ⟨c, hc, hb⟩, fun c' hc' => ?_⟩
  cases hb' : layer c' p with
  | none => exact .inl rfl
  | some b' => exact .inr (congrArg some (h c' hc' c hc b' b hb' hb))

/-- Lists of layers that are alike at `p`, one by one, agree there alike. -/
theorem AgreeAt.forall₂ (h : AgreeAt layer cs p)
    (hall : List.Forall₂ (fun c d => layer c p = layer d p) cs ds) : AgreeAt layer ds p := by
  have hmem : ∀ d ∈ ds, ∃ c ∈ cs, layer c p = layer d p := by
    clear h
    induction hall with
    | nil => simp
    | cons hcd _ ih =>
      rintro d hd
      rcases List.mem_cons.mp hd with rfl | hd
      · exact ⟨_, List.mem_cons_self .., hcd⟩
      · obtain ⟨c, hc, he⟩ := ih d hd
        exact ⟨c, List.mem_cons_of_mem _ hc, he⟩
  intro d hd d' hd' b b' hb hb'
  obtain ⟨c, hc, he⟩ := hmem d hd
  obtain ⟨c', hc', he'⟩ := hmem d' hd'
  exact h c hc c' hc' b b' (he.trans hb) (he'.trans hb')

/-- They show alike too. -/
theorem look_forall₂ (hall : List.Forall₂ (fun c d => layer c p = layer d p) cs ds) :
    look layer cs g p = look layer ds g p := by
  induction hall with
  | nil => rfl
  | @cons c d _ _ hcd _ ih =>
    cases hb : layer c p with
    | none => rw [look_cons_none hb, look_cons_none (hcd.symm.trans hb), ih]
    | some b => rw [look_cons_some hb, look_cons_some (hcd.symm.trans hb)]

/-- Layers that agree show the same in every order. -/
theorem look_perm (h : AgreeAt layer cs p) (hp : cs.Perm ds) :
    look layer cs g p = look layer ds g p := by
  rcases h.cases with hnone | ⟨b, ⟨c, hc, hb⟩, -⟩
  · rw [look_none hnone, look_none fun c hc => hnone c (hp.mem_iff.mpr hc)]
  · rw [look_some h hc hb, look_some (h.perm hp) (hp.mem_iff.mp hc) hb]

/-- The order of the layers does not matter at a point exactly when they agree there. -/
theorem agreeAt_iff : AgreeAt layer cs p ↔
    ∀ ds : List ι, cs.Perm ds → look layer ds g p = look layer cs g p := by
  constructor
  · exact fun h ds hp => (look_perm h hp).symm
  · intro h c hc c' hc' b b' hb hb'
    -- each of the two layers comes first in some order
    have hfirst : ∀ c ∈ cs, ∀ b, layer c p = some b → b = look layer cs g p := by
      intro c hc b hb
      obtain ⟨pre, post, rfl⟩ := List.append_of_mem hc
      rw [← h (c :: (pre ++ post)) List.perm_middle, look_cons_some hb]
    rw [hfirst c hc b hb, hfirst c' hc' b' hb']

/-- What lies at `p` depends on what lay there. -/
theorem paintAll_congr {g' : α → β} (h : g p = g' p) :
    paintAll layer cs g p = paintAll layer cs g' p := by
  induction cs generalizing g g' with
  | nil => exact h
  | cons c cs ih => exact ih (by simp [paint, h])

theorem paintAll_none (h : ∀ c ∈ cs, layer c p = none) : paintAll layer cs g p = g p := by
  induction cs generalizing g with
  | nil => rfl
  | cons c cs ih =>
    obtain ⟨hc, hcs⟩ := List.forall_mem_cons.mp h
    exact (ih hcs).trans (paint_none hc)

theorem paintAll_some (h : ∀ c ∈ cs, layer c p = none ∨ layer c p = some b)
    (hex : ∃ c ∈ cs, layer c p = some b) : paintAll layer cs g p = b := by
  induction cs generalizing g with
  | nil =>
    obtain ⟨c, hc, -⟩ := hex
    cases hc
  | cons c cs ih =>
    obtain ⟨hc, hcs⟩ := List.forall_mem_cons.mp h
    by_cases hrest : ∃ c ∈ cs, layer c p = some b
    · exact ih hcs hrest
    · -- the layer `c` is the only one that paints `p`
      have hnone : ∀ c ∈ cs, layer c p = none := fun c' hc' =>
        (hcs c' hc').resolve_right fun hb => hrest ⟨c', hc', hb⟩
      have hb : layer c p = some b := by
        obtain ⟨c', hc', hb⟩ := hex
        rcases List.mem_cons.mp hc' with rfl | hc'
        · exact hb
        · exact absurd ⟨c', hc', hb⟩ hrest
      exact (paintAll_none hnone).trans (paint_some hb)

/-- Painting layers that agree gives what one sees through them, whatever the two orders. -/
theorem paintAll_eq_look (h : AgreeAt layer cs p) (hp : cs.Perm ds) :
    paintAll layer ds g p = look layer cs g p := by
  rcases h.cases with hnone | ⟨b, ⟨c, hc, hb⟩, hall⟩
  · rw [paintAll_none fun c hc => hnone c (hp.mem_iff.mpr hc), look_none hnone]
  · rw [paintAll_some (fun c hc => hall c (hp.mem_iff.mpr hc)) ⟨c, hp.mem_iff.mp hc, hb⟩,
      look_some h hc hb]

/-- Painting layers puts the last one on top. -/
theorem paintAll_eq_look_reverse (layer : ι → α → Option β) (cs : List ι) (g : α → β) (p : α) :
    paintAll layer cs g p = look layer cs.reverse g p := by
  induction cs generalizing g with
  | nil => rfl
  | cons c cs ih =>
    have hstep : paintAll layer (c :: cs) g p = paintAll layer cs (paint (layer c) g) p := rfl
    rw [hstep, ih, List.reverse_cons]
    unfold look paint
    rw [List.findSome?_append]
    cases cs.reverse.findSome? fun c => layer c p with
    | none => cases hb : layer c p <;> simp [hb]
    | some b => rfl

end Many

/-! ## Exchanging pixels -/

/-- The image `g` after the exchange of every point with `v` with its partner under `σ`, one after
the other. -/
def exchange (σ : α → α) (v : α → Prop) [DecidablePred v] (g : α → β) : α → β :=
  fun p => if v p ↔ v (σ p) then g p else g (σ p)

section Exchange

variable {σ : α → α} {v v' : α → Prop} [DecidablePred v] [DecidablePred v'] {g : α → β} {p : α}

theorem exchange_of_iff (h : v p ↔ v (σ p)) : exchange σ v g p = g p := if_pos h

theorem exchange_of_not_iff (h : ¬ (v p ↔ v (σ p))) : exchange σ v g p = g (σ p) := if_neg h

theorem exchange_congr (h : v p ↔ v' p) (h' : v (σ p) ↔ v' (σ p)) :
    exchange σ v g p = exchange σ v' g p := by
  unfold exchange
  rw [if_congr (iff_congr h h') rfl rfl]

/-- The place that the pixel at `p` comes from. -/
theorem exchange_eq (σ : α → α) (v : α → Prop) [DecidablePred v] (g : α → β) (p : α) :
    exchange σ v g p = g (exchange σ v id p) := by
  unfold exchange
  split <;> rfl

/-- Exchanging the same points again puts everything back. -/
theorem exchange_exchange (hσ : ∀ p, σ (σ p) = p) (g : α → β) (p : α) :
    exchange σ v (exchange σ v g) p = g p := by
  by_cases h : v p ↔ v (σ p)
  · rw [exchange_of_iff h, exchange_of_iff h]
  · have h' : ¬ (v (σ p) ↔ v (σ (σ p))) := by
      rw [hσ]
      exact fun hiff => h hiff.symm
    rw [exchange_of_not_iff h, exchange_of_not_iff h', hσ]

/-- One more exchange: the pixels of `n` and its partner change places. -/
theorem exchange_succ [DecidableEq α] {n : α} (hσ : ∀ p, σ (σ p) = p) (hn : ¬ v n)
    (hv : ∀ p, v' p ↔ v p ∨ p = n) (p : α) :
    exchange σ v' g p = if p = σ n then exchange σ v g n
      else if p = n then exchange σ v g (σ n) else exchange σ v g p := by
  have hpartner : ∀ p, σ p = n ↔ p = σ n := fun p =>
    ⟨fun h => by rw [← h, hσ], fun h => by rw [h, hσ]⟩
  unfold exchange
  by_cases h1 : p = σ n
  · subst h1
    by_cases h2 : σ n = n
    · simp [hv, h2]
    · simp [hv, hσ, h2, hn]
  · by_cases h2 : p = n
    · subst h2
      simp [hv, hσ, hn, h1, Ne.symm h1]
    · simp [hv, h1, h2, hpartner]

end Exchange

/-- The image `g` under the layer `f` after the exchange of what one sees at each point with `v` and
at its partner, one after the other. The second time around one sees the layer at the partner. -/
def exchangeSeen (f : α → Option β) (σ : α → α) (v : α → Prop) [DecidablePred v] (g : α → β) :
    α → β :=
  fun p =>
    if v p ∧ v (σ p) then (f (σ p)).getD (paint f g p)
    else if v p ∨ v (σ p) then paint f g (σ p)
    else g p

section ExchangeSeen

variable {f : α → Option β} {σ : α → α} {v v' : α → Prop} [DecidablePred v] [DecidablePred v']
  {g : α → β} {p : α}

theorem exchangeSeen_congr (h : v p ↔ v' p) (h' : v (σ p) ↔ v' (σ p)) :
    exchangeSeen f σ v g p = exchangeSeen f σ v' g p := by
  unfold exchangeSeen
  simp only [h, h']

/-- One more exchange of what one sees at `n` and at its partner. -/
theorem exchangeSeen_succ [DecidableEq α] {n : α} (hσ : ∀ p, σ (σ p) = p) (hn : ¬ v n)
    (hv : ∀ p, v' p ↔ v p ∨ p = n) (p : α) :
    exchangeSeen f σ v' g p = if p = σ n then paint f (exchangeSeen f σ v g) n
      else if p = n then paint f (exchangeSeen f σ v g) (σ n) else exchangeSeen f σ v g p := by
  have hpartner : ∀ p, σ p = n ↔ p = σ n := fun p =>
    ⟨fun h => by rw [← h, hσ], fun h => by rw [h, hσ]⟩
  unfold exchangeSeen paint
  by_cases h1 : p = σ n
  · subst h1
    by_cases h2 : σ n = n
    · -- a point that is its own partner
      cases hf : f n <;> simp [hv, h2, hn, hf]
    · by_cases h3 : v (σ n) <;> cases hf : f n <;> simp [hv, hσ, h2, hn, h3, hf]
  · by_cases h2 : p = n
    · subst h2
      by_cases h3 : v (σ p)
      · simp [hv, hσ, hn, h1, Ne.symm h1, h3]
      · simp [hv, hσ, hn, h1, Ne.symm h1, h3]
    · simp [hv, h1, h2, hpartner]

/-- What one sees afterwards: the layer where it was, and under it what one saw at the partner, of a
pair that was exchanged twice only if the layer is there. -/
theorem paint_exchangeSeen (f : α → Option β) (σ : α → α) (v : α → Prop) [DecidablePred v]
    (g : α → β) (p : α) :
    paint f (exchangeSeen f σ v g) p =
      if f p = none ∧ (v p ∨ v (σ p)) ∧ (v p → v (σ p) → f (σ p) ≠ none) then paint f g (σ p)
      else paint f g p := by
  cases hp : f p with
  | some b => rw [paint_some hp, paint_some hp, if_neg fun h => by cases h.1]
  | none =>
    rw [paint_none hp, paint_none hp]
    unfold exchangeSeen
    by_cases hv : v p <;> by_cases hv' : v (σ p)
    · cases hσ : f (σ p) with
      | none => simp [hv, hv', paint_none hp]
      | some b => simp [hv, hv', paint_some hσ]
    all_goals simp [hv, hv']

end ExchangeSeen

end Overlay
