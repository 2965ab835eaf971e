import Ws2812Strip.Devices
import Ws2812Strip.Lib.Run
import Mathlib.Logic.Function.Basic

/-!
# Pixmaps and their copies

A `Pixmap` can be copied and assigned. The copy takes over `rotate_helper_`, a shared pointer, and
the helper keeps the references to `width_` and `height_` of the pixmap that made it. So what
`index` of one pixmap computes depends on the fields of another one, and on its being alive.

* `PixmapHeap`: the pixmaps of a program, each with the pixmap that its helper refers to.
* `Addressed`: every pixmap that is alive numbers the cells of its own buffer.
* `PixmapOp.proper_iff_ready`: when an operation keeps that. `each_addressed_iff` is the result
  about runs of operations.
-/

namespace Ws2812

open Grid

/-- A pixmap, and `owner`, the pixmap whose `width_` and `height_` its helper refers to. -/
structure PixmapObject where
  pixmap : Pixmap
  owner : Nat
  deriving DecidableEq, Repr

/-- The pixmaps of a program by identity. Identities are not reused, so a reference to a destroyed
pixmap stays dangling. -/
structure PixmapHeap where
  objects : Nat → Option PixmapObject
  next : Nat

/-- Two pixmaps have the same physical size. -/
def PixmapObject.SameSize (p q : PixmapObject) : Prop :=
  p.pixmap.base.width_ = q.pixmap.base.width_ ∧ p.pixmap.base.height_ = q.pixmap.base.height_

namespace PixmapHeap

def empty : PixmapHeap := ⟨fun _ => none, 0⟩

/-- The pixmap that a reference names. -/
def deref (s : PixmapHeap) (o : Nat) : Except Fault PixmapObject :=
  match s.objects o with
  | some p => .ok p
  | none => .error (.undefined .dangling)

/-- `index`, which reads the size through the references of the helper. -/
def index (s : PixmapHeap) (o : Nat) (x y : Int) : Except Fault Int := do
  let p ← s.deref o
  let q ← s.deref p.owner
  p.pixmap.base.rotateHelper_.index .vector q.pixmap.base.width_ q.pixmap.base.height_ x y

/-- The heap with `p` in the place `o`. -/
def set (s : PixmapHeap) (o : Nat) (p : Option PixmapObject) : PixmapHeap :=
  { s with objects := Function.update s.objects o p }

/-- The heap with one more pixmap. -/
def alloc (s : PixmapHeap) (p : PixmapObject) : PixmapHeap :=
  { s.set s.next (some p) with next := s.next + 1 }

def get (o : Nat) : Prog PixmapHeap Fault PixmapObject := fun s => (s.deref o, s)

/-- `Pixmap(w, h, back)`. -/
def construct (w h : Int) (back : LedColor) : Prog PixmapHeap Fault Unit := do
  let _ ← .lift (cint (w * h))
  .modify fun s => s.alloc ⟨.make w h back, s.next⟩

/-- `Pixmap(const Pixmap&)`, which the compiler writes: it copies every field. -/
def copyConstruct (q : Nat) : Prog PixmapHeap Fault Unit := do
  let p ← get q
  .modify fun s => s.alloc p

/-- `operator=(const Pixmap&)`, which the compiler writes: it copies every field. -/
def assign (o q : Nat) : Prog PixmapHeap Fault Unit := do
  let _ ← get o
  let p ← get q
  .modify fun s => s.set o (some p)

/-- `set_rotate`: a helper that it installs refers to the fields of this pixmap. -/
def setRotate (o : Nat) (degree : Int) (flipX flipY : Bool) : Prog PixmapHeap Fault Unit := do
  let p ← get o
  let r := (IRotatablePaintDevice.setRotate degree flipX flipY).run p.pixmap.base
  match r.1 with
  | .ok () => .modify fun s => s.set o (some ⟨{ p.pixmap with base := r.2 }, o⟩)
  | .error e => .stop e

def destroy (o : Nat) : Prog PixmapHeap Fault Unit := do
  let _ ← get o
  .modify fun s => s.set o none

/-- The helper of `p` refers to a pixmap that is alive and as large as `p`. -/
def Refers (s : PixmapHeap) (p : PixmapObject) : Prop :=
  ∃ q, s.objects p.owner = some q ∧ p.SameSize q

/-- The helper of the pixmap `o` refers to a pixmap as large as it, and `index` numbers its logical
coordinates one to one with the cells of its own buffer. -/
structure Addresses (s : PixmapHeap) (o : Nat) (p : PixmapObject) : Prop where
  refers : s.Refers p
  bijective : ∃ f : Int × Int → Int,
    (∀ x y, (x, y) ∈ p.pixmap.base.logical → s.index o x y = .ok (f (x, y))) ∧
    Set.BijOn f p.pixmap.base.logical (below p.pixmap.leds_.length)

/-- Every pixmap that is alive addresses its own buffer. -/
def Addressed (s : PixmapHeap) : Prop := ∀ o p, s.objects o = some p → s.Addresses o p

/-- No other pixmap has a helper that refers to `o`, unless it is as large as `p`. -/
def OnlyOwned (s : PixmapHeap) (o : Nat) (p : PixmapObject) : Prop :=
  ∀ o' p', o' ≠ o → s.objects o' = some p' → p'.owner = o → p'.SameSize p

/-- What holds of the pixmaps of a run whose operations have been proper. -/
structure Inv (s : PixmapHeap) : Prop where
  fresh : ∀ o, s.next ≤ o → s.objects o = none
  wf : ∀ o p, s.objects o = some p → Ws2812.Wf p.pixmap
  refers : ∀ o p, s.objects o = some p → s.Refers p

section Heap

variable {s : PixmapHeap} {o : Nat} {p : PixmapObject}

@[simp] theorem set_self (s : PixmapHeap) (o : Nat) (p : Option PixmapObject) :
    (s.set o p).objects o = p := Function.update_self ..

@[simp] theorem set_of_ne {o' : Nat} (h : o' ≠ o) (s : PixmapHeap) (p : Option PixmapObject) :
    (s.set o p).objects o' = s.objects o' := Function.update_of_ne h ..

@[simp] theorem set_next (s : PixmapHeap) (o : Nat) (p : Option PixmapObject) :
    (s.set o p).next = s.next := rfl

@[simp] theorem alloc_objects (s : PixmapHeap) (p : PixmapObject) :
    (s.alloc p).objects = (s.set s.next (some p)).objects := rfl

theorem deref_ok (h : s.objects o = some p) : s.deref o = .ok p := by
  simp [deref, h]

theorem get_run (h : s.objects o = some p) : (get o).run s = (.ok p, s) := by
  simp [get, Prog.run, deref, h]

/-- A place that is not taken is free. -/
theorem Inv.lt_next (h : s.Inv) (ho : s.objects o = some p) : o < s.next := by
  by_contra hlt
  rw [h.fresh o (by omega)] at ho
  cases ho

/-- A pixmap whose helper refers to one of its size addresses its own buffer. -/
theorem Inv.addressed (h : s.Inv) : s.Addressed := by
  intro o p ho
  have hwf := h.wf o p ho
  obtain ⟨q, hq, hw, hh⟩ := h.refers o p ho
  obtain ⟨cells, he, hlen⟩ := hwf.cells
  have hleds : p.pixmap.leds_ = cells := Option.some.inj he
  refine ⟨h.refers o p ho, p.pixmap.base.cell .vector, fun x y hxy => ?_, ?_⟩
  · have hindex := hwf.fields.index_ok .vector hxy
    unfold index
    rw [deref_ok ho]
    show (s.deref p.owner >>= _) = _
    rw [deref_ok hq]
    change StripRotateHelper.index _ _ _ _ _ _ = _ at hindex
    show StripRotateHelper.index _ _ _ _ _ _ = _
    rw [← hw, ← hh]
    exact hindex
  · rw [hleds, hlen]
    exact hwf.fields.bijOn_cell .vector

/-- A reference survives the replacement of a pixmap by one as large as its referrer. -/
theorem Refers.set {p' : PixmapObject} (h : s.Refers p') (hsize : p'.owner = o → p'.SameSize p) :
    (s.set o (some p)).Refers p' := by
  obtain ⟨q, hq, hs⟩ := h
  by_cases ho : p'.owner = o
  · exact ⟨p, by rw [ho, set_self], hsize ho⟩
  · exact ⟨q, by rw [set_of_ne ho, hq], hs⟩

/-- Writing a pixmap keeps the invariant if its helper refers to one of its size and those whose
helpers refer to it are as large. -/
theorem Inv.set (h : s.Inv) (ho : o < s.next) (hwf : Ws2812.Wf p.pixmap)
    (hrefers : (s.set o (some p)).Refers p) (honly : s.OnlyOwned o p) :
    (s.set o (some p)).Inv where
  fresh o' hnext := by
    rw [set_next] at hnext
    rw [set_of_ne (by omega)]
    exact h.fresh o' hnext
  wf o' p' hp' := by
    by_cases he : o' = o
    · subst he
      rw [set_self] at hp'
      cases hp'
      exact hwf
    · rw [set_of_ne he] at hp'
      exact h.wf o' p' hp'
  refers o' p' hp' := by
    by_cases he : o' = o
    · subst he
      rw [set_self] at hp'
      cases hp'
      exact hrefers
    · rw [set_of_ne he] at hp'
      exact (h.refers o' p' hp').set (honly o' p' he hp')

/-- The place of a new pixmap is not referred to. -/
theorem Inv.owner_ne_next (h : s.Inv) (ho : s.objects o = some p) : p.owner ≠ s.next := by
  obtain ⟨q, hq, -⟩ := h.refers o p ho
  exact (h.lt_next hq).ne

/-- Destroying a pixmap that no other helper refers to keeps the invariant. -/
theorem Inv.erase (h : s.Inv) (ho : s.objects o = some p)
    (hfree : ∀ o' p', o' ≠ o → s.objects o' = some p' → p'.owner ≠ o) : (s.set o none).Inv := by
  have hrest : ∀ o' p', (s.set o none).objects o' = some p' → o' ≠ o ∧ s.objects o' = some p' := by
    intro o' p' hp'
    by_cases he : o' = o
    · rw [he, set_self] at hp'
      cases hp'
    · rw [set_of_ne he] at hp'
      exact ⟨he, hp'⟩
  refine ⟨fun o' hnext => ?_, fun o' p' hp' => h.wf o' p' (hrest o' p' hp').2, fun o' p' hp' => ?_⟩
  · have := h.lt_next ho
    rw [set_next] at hnext
    rw [set_of_ne (by omega)]
    exact h.fresh o' hnext
  · obtain ⟨hne, hp'⟩ := hrest o' p' hp'
    obtain ⟨q, hq, hsize⟩ := h.refers o' p' hp'
    exact ⟨q, by rw [set_of_ne (hfree o' p' hne hp'), hq], hsize⟩

/-- A new pixmap keeps the invariant if its helper refers to one of its size. -/
theorem Inv.alloc (h : s.Inv) (hwf : Ws2812.Wf p.pixmap) (hrefers : (s.alloc p).Refers p) :
    (s.alloc p).Inv := by
  have hroom : Inv { s with next := s.next + 1 } :=
    ⟨fun o ho => h.fresh o (by simp only at ho; omega), h.wf, h.refers⟩
  exact hroom.set (by simp) hwf hrefers
    fun o' p' _ hp' howner => absurd howner (h.owner_ne_next hp')

end Heap

end PixmapHeap

/-! ## Operations -/

/-- What a program does with its pixmaps, `construct` and `copyConstruct` with the next free place
for the new one. -/
inductive PixmapOp where
  | construct (w h : Int) (back : LedColor)
  | copyConstruct (q : Nat)
  | assign (o q : Nat)
  | setRotate (o : Nat) (degree : Int) (flipX flipY : Bool)
  | destroy (o : Nat)

namespace PixmapOp

open PixmapHeap

def exec : PixmapOp → Prog PixmapHeap Fault Unit
  | .construct w h back => PixmapHeap.construct w h back
  | .copyConstruct q => PixmapHeap.copyConstruct q
  | .assign o q => PixmapHeap.assign o q
  | .setRotate o degree flipX flipY => PixmapHeap.setRotate o degree flipX flipY
  | .destroy o => PixmapHeap.destroy o

/-- The heap after the operation, also after one that threw. -/
def after (s : PixmapHeap) (op : PixmapOp) : PixmapHeap := (op.exec.run s).2

/-- A program can perform the operation: the sizes are positive and the pixmaps are alive. -/
def Legal (s : PixmapHeap) : PixmapOp → Prop
  | .construct w h _ => 1 ≤ w ∧ 1 ≤ h
  | .copyConstruct q => ∃ p, s.objects q = some p
  | .assign o q => (∃ p, s.objects o = some p) ∧ ∃ p, s.objects q = some p
  | .setRotate o _ _ _ | .destroy o => ∃ p, s.objects o = some p

/-- The operation is defined, and after it every pixmap addresses its own buffer. -/
structure Proper (s : PixmapHeap) (op : PixmapOp) : Prop where
  defined : ∀ u, (op.exec.run s).1 ≠ .error (.undefined u)
  addressed : (op.after s).Addressed

/-- When an operation is proper: a pixmap that others refer to is assigned only their own size, and
is destroyed only after them. -/
def Ready (s : PixmapHeap) : PixmapOp → Prop
  | .construct w h _ => w * h ≤ INT_MAX
  | .copyConstruct _ | .setRotate .. => True
  | .assign o q => ∀ p, s.objects q = some p → s.OnlyOwned o p
  | .destroy o => ∀ o' p', o' ≠ o → s.objects o' = some p' → p'.owner ≠ o

variable {s : PixmapHeap}

/-! Each operation on pixmaps that are alive, as a function of the heap. -/

theorem run_construct {w h : Int} (hfit : IsInt (w * h)) (back : LedColor) :
    (construct w h back).exec.run s = (.ok (), s.alloc ⟨.make w h back, s.next⟩) := by
  simp [exec, PixmapHeap.construct, cint_ok hfit]

theorem run_construct_overflow {w h : Int} (hfit : ¬ IsInt (w * h)) (back : LedColor) :
    (construct w h back).exec.run s = (.error (.undefined .intOverflow), s) := by
  simp [exec, PixmapHeap.construct, cint_error hfit]

theorem run_copyConstruct {q : Nat} {p : PixmapObject} (hq : s.objects q = some p) :
    (copyConstruct q).exec.run s = (.ok (), s.alloc p) := by
  show (get q >>= _).run s = _
  rw [Prog.run_bind_ok (get_run hq), Prog.run_modify]

theorem run_assign {o q : Nat} {p p' : PixmapObject} (ho : s.objects o = some p')
    (hq : s.objects q = some p) : (assign o q).exec.run s = (.ok (), s.set o (some p)) := by
  show (get o >>= fun _ => get q >>= _).run s = _
  rw [Prog.run_bind_ok (get_run ho), Prog.run_bind_ok (get_run hq), Prog.run_modify]

theorem run_destroy {o : Nat} {p : PixmapObject} (ho : s.objects o = some p) :
    (destroy o).exec.run s = (.ok (), s.set o none) := by
  show (get o >>= _).run s = _
  rw [Prog.run_bind_ok (get_run ho), Prog.run_modify]

/-- `set_rotate` installs a helper that refers to the pixmap itself, or throws and changes
nothing. -/
theorem run_setRotate {o : Nat} {p : PixmapObject} (ho : s.objects o = some p) (degree : Int)
    (flipX flipY : Bool) :
    (∃ r, (IRotatablePaintDevice.setRotate degree flipX flipY).run p.pixmap.base = (.ok (), r) ∧
      (setRotate o degree flipX flipY).exec.run s =
        (.ok (), s.set o (some ⟨{ p.pixmap with base := r }, o⟩))) ∨
    (setRotate o degree flipX flipY).exec.run s =
      (.error (.invalidArgument "IRotatablePaintDevice::set_rotate"), s) := by
  have hrun : (setRotate o degree flipX flipY).exec.run s = _ := Prog.run_bind_ok (get_run ho)
  rcases IRotatablePaintDevice.setRotate_cases degree flipX flipY p.pixmap.base with ⟨d, hr⟩ | hr
  · exact .inl ⟨_, hr, by rw [hrun, hr]; rfl⟩
  · exact .inr (by rw [hrun, hr]; rfl)

/-- A legal operation that is ready is defined and keeps the invariant. -/
theorem inv_after (h : s.Inv) {op : PixmapOp} (hl : op.Legal s) (hr : op.Ready s) :
    (∀ u, (op.exec.run s).1 ≠ .error (.undefined u)) ∧ (op.after s).Inv := by
  unfold after
  cases op with
  | construct w h' back =>
    obtain ⟨hw, hh⟩ := hl
    have hpos := Int.mul_pos (show 0 < w by omega) (show 0 < h' by omega)
    have hfit : IsInt (w * h') := ⟨by unfold INT_MIN; omega, hr⟩
    rw [run_construct hfit]
    refine ⟨by simp, h.alloc (LawfulPaintDevice.fresh_wf (Pixmap.fresh_make hw hh hr)) ?_⟩
    exact ⟨_, by rw [alloc_objects, set_self], rfl, rfl⟩
  | copyConstruct q =>
    obtain ⟨p, hq⟩ := hl
    rw [run_copyConstruct hq]
    refine ⟨by simp, h.alloc (h.wf q p hq) ?_⟩
    exact (h.refers q p hq).set fun howner => absurd howner (h.owner_ne_next hq)
  | assign o q =>
    obtain ⟨⟨p', ho⟩, p, hq⟩ := hl
    rw [run_assign ho hq]
    refine ⟨by simp, h.set (h.lt_next ho) (h.wf q p hq) ?_ (hr p hq)⟩
    exact (h.refers q p hq).set fun _ => ⟨rfl, rfl⟩
  | setRotate o degree flipX flipY =>
    obtain ⟨p, ho⟩ := hl
    rcases run_setRotate ho degree flipX flipY with ⟨r, hrot, hrun⟩ | hrun
    · obtain ⟨hw, hh, -⟩ :=
        IRotatablePaintDevice.setRotate_frame degree flipX flipY p.pixmap.base
      have hwf : ((IRotatablePaintDevice.setRotate degree flipX flipY).run p.pixmap.base).2.Wf :=
        IRotatablePaintDevice.setRotate_wf (h.wf o p ho).fields degree flipX flipY
      rw [hrot] at hw hh hwf
      rw [hrun]
      refine ⟨by simp, h.set (h.lt_next ho) (wf_setBase (h.wf o p ho) hwf hw hh) ?_ ?_⟩
      · exact ⟨_, set_self .., rfl, rfl⟩
      · intro o' p' _ hp' howner
        obtain ⟨q, hq, hsize⟩ := h.refers o' p' hp'
        rw [howner, ho] at hq
        cases hq
        exact ⟨hsize.1.trans hw.symm, hsize.2.trans hh.symm⟩
    · rw [hrun]
      exact ⟨by simp, h⟩
  | destroy o =>
    obtain ⟨p, ho⟩ := hl
    rw [run_destroy ho]
    exact ⟨by simp, h.erase ho hr⟩

/-- **One step.** A legal operation is proper exactly when it is ready. -/
theorem proper_iff_ready (h : s.Inv) {op : PixmapOp} (hl : op.Legal s) :
    op.Proper s ↔ op.Ready s := by
  refine ⟨fun hp => ?_, fun hr => ?_⟩
  · have haddr := hp.addressed
    unfold after at haddr
    cases op with
    | construct w h' back =>
      show w * h' ≤ INT_MAX
      by_contra hbig
      have hfit : ¬ IsInt (w * h') := fun hint => hbig hint.2
      exact hp.defined .intOverflow (by rw [run_construct_overflow hfit])
    | copyConstruct q => trivial
    | assign o q =>
      intro p hq o' p' hne hp' howner
      obtain ⟨⟨u, ho⟩, -⟩ := hl
      rw [run_assign ho hq] at haddr
      obtain ⟨v, hv, hsize⟩ := (haddr o' p' (by rw [set_of_ne hne, hp'])).refers
      rw [howner, set_self] at hv
      cases hv
      exact hsize
    | setRotate o degree flipX flipY => trivial
    | destroy o =>
      intro o' p' hne hp' howner
      obtain ⟨u, ho⟩ := hl
      rw [run_destroy ho] at haddr
      obtain ⟨v, hv, -⟩ := (haddr o' p' (by rw [set_of_ne hne, hp'])).refers
      rw [howner, set_self] at hv
      cases hv
  · obtain ⟨hdef, hinv⟩ := inv_after h hl hr
    exact ⟨hdef, hinv.addressed⟩

end PixmapOp

namespace PixmapHeap

theorem inv_empty : empty.Inv := ⟨fun _ _ => rfl, by simp [empty], by simp [empty]⟩

/-- After a run of ready operations every pixmap that is alive addresses its own buffer. -/
theorem addressed_of_ready {ops : List PixmapOp}
    (hl : Run.Each PixmapOp.after PixmapOp.Legal empty ops)
    (hr : Run.Each PixmapOp.after PixmapOp.Ready empty ops) :
    (ops.foldl PixmapOp.after empty).Addressed :=
  (Run.Each.inv (I := Inv) (fun _ _ hi ha hr => (PixmapOp.inv_after hi ha hr).2) inv_empty hl
    hr).addressed

/-- **Copies of pixmaps.** In every run of constructions, copies, assignments, rotations and
destructions, every pixmap addresses its own buffer after every operation exactly when every
operation is ready. -/
theorem each_addressed_iff (ops : List PixmapOp)
    (hl : Run.Each PixmapOp.after PixmapOp.Legal empty ops) :
    Run.Each PixmapOp.after PixmapOp.Proper empty ops ↔
      Run.Each PixmapOp.after PixmapOp.Ready empty ops :=
  Run.each_iff (I := Inv) (fun _ _ hi ha => PixmapOp.proper_iff_ready hi ha)
    (fun _ _ hi ha hr => (PixmapOp.inv_after hi ha hr).2) inv_empty hl

/-- A pixmap and a copy of it that is turned, then another size for the first one, and its end. -/
theorem each_addressed_iff_turned :
    Run.Each PixmapOp.after PixmapOp.Proper empty
      [.construct 2 3 Led.black, .copyConstruct 0, .setRotate 1 90 false true,
        .construct 5 1 Led.black, .assign 0 2, .destroy 0] := by
  refine (each_addressed_iff _ ?_).mpr ?_
  · exact ⟨⟨by decide, by decide⟩, ⟨_, rfl⟩, ⟨_, rfl⟩, ⟨by decide, by decide⟩,
      ⟨⟨_, rfl⟩, _, rfl⟩, ⟨_, rfl⟩, trivial⟩
  · refine ⟨(by decide : (2 * 3 : Int) ≤ INT_MAX), trivial, trivial,
      (by decide : (5 * 1 : Int) ≤ INT_MAX), fun p hp o' p' hne hp' howner => ?_,
      fun o' p' hne hp' howner => ?_, trivial⟩
    · match o' with
      | 0 => exact absurd rfl hne
      | 1 => cases hp'; cases howner
      | 2 => cases hp'; cases howner
      | n + 3 => cases hp'
    · match o' with
      | 0 => exact absurd rfl hne
      | 1 => cases hp'; cases howner
      | 2 => cases hp'; cases howner
      | n + 3 => cases hp'

/-- A copy whose original is destroyed, and one whose original is assigned another size. -/
theorem not_each_addressed :
    ¬ Run.Each PixmapOp.after PixmapOp.Proper empty
      [.construct 2 3 Led.black, .copyConstruct 0, .destroy 0] ∧
    ¬ Run.Each PixmapOp.after PixmapOp.Proper empty
      [.construct 2 3 Led.black, .copyConstruct 0, .construct 5 1 Led.black, .assign 0 2] := by
  refine ⟨fun h => ?_, fun h => ?_⟩
  · obtain ⟨q, hq, -⟩ := (h.2.2.1.addressed 1 _ rfl).refers
    cases hq
  · obtain ⟨q, hq, hw, -⟩ := (h.2.2.2.1.addressed 1 _ rfl).refers
    cases hq
    exact absurd hw (by decide)

end PixmapHeap

end Ws2812
