import Mathlib.Algebra.Order.Ring.Nat
import Mathlib.Data.List.Induction
import Mathlib.Tactic.Ring

/-!
# Numbers as bytes

* `Bytes.be n v`, `Bytes.ofBE`: the low `n` bytes of a number, the most significant byte first, and
  the number that such bytes spell. Each is the inverse of the other (`ofBE_be`, `be_ofBE`).
* `Bytes.le n v`, `Bytes.ofLE`: the same with the least significant byte first.
* `List.takeExactly`: the first bytes of a stream, if it has as many.
-/

namespace Bytes

/-- The low `n` bytes of `v`, the most significant one first. -/
def be : Nat → Nat → List UInt8
  | 0, _ => []
  | n + 1, v => be n (v / 256) ++ [UInt8.ofNat v]

/-- The number that the bytes spell, the most significant one first. -/
def ofBE (bs : List UInt8) : Nat := bs.foldl (fun v b => v * 256 + b.toNat) 0

/-- The low `n` bytes of `v`, the least significant one first. -/
def le (n v : Nat) : List UInt8 := (be n v).reverse

/-- The number that the bytes spell, the least significant one first. -/
def ofLE (bs : List UInt8) : Nat := ofBE bs.reverse

@[simp] theorem length_be (n v : Nat) : (be n v).length = n := by
  induction n generalizing v with
  | zero => rfl
  | succ n ih => simp [be, ih]

@[simp] theorem length_le (n v : Nat) : (le n v).length = n := by
  simp [le]

@[simp] theorem ofBE_nil : ofBE [] = 0 := rfl

@[simp] theorem ofBE_concat (bs : List UInt8) (b : UInt8) :
    ofBE (bs ++ [b]) = ofBE bs * 256 + b.toNat := by
  simp [ofBE]

theorem ofBE_singleton (b : UInt8) : ofBE [b] = b.toNat := by
  simp [ofBE]

theorem ofBE_be (n v : Nat) : ofBE (be n v) = v % 256 ^ n := by
  induction n generalizing v with
  | zero => simp [be, Nat.mod_one]
  | succ n ih =>
    have hbyte : (UInt8.ofNat v).toNat = v % 256 := by simp
    rw [be, ofBE_concat, ih, hbyte, pow_succ', Nat.mod_mul]
    ring

/-- A number that fits reads back as itself. -/
theorem ofBE_be_of_lt {n v : Nat} (h : v < 256 ^ n) : ofBE (be n v) = v := by
  rw [ofBE_be, Nat.mod_eq_of_lt h]

theorem ofBE_lt (bs : List UInt8) : ofBE bs < 256 ^ bs.length := by
  induction bs using List.reverseRecOn with
  | nil => simp
  | append_singleton bs b ih =>
    have hb := b.toNat_lt
    rw [ofBE_concat, List.length_append, List.length_singleton, pow_succ]
    omega

theorem be_ofBE (bs : List UInt8) : be bs.length (ofBE bs) = bs := by
  induction bs using List.reverseRecOn with
  | nil => rfl
  | append_singleton bs b ih =>
    have hb := b.toNat_lt
    have hdiv : (ofBE bs * 256 + b.toNat) / 256 = ofBE bs := by omega
    have hbyte : UInt8.ofNat (ofBE bs * 256 + b.toNat) = b := by
      apply UInt8.toNat_inj.mp
      simp only [UInt8.toNat_ofNat', Nat.reducePow]
      omega
    rw [List.length_append, List.length_singleton, be, ofBE_concat, hdiv, ih, hbyte]

theorem ofLE_lt (bs : List UInt8) : ofLE bs < 256 ^ bs.length := by
  simpa [ofLE] using ofBE_lt bs.reverse

/-- Bytes that are read are written again. -/
theorem le_ofLE_mod {n : Nat} {bs : List UInt8} (h : bs.length = n) :
    le n (ofLE bs % 256 ^ n) = bs := by
  have hbe := be_ofBE bs.reverse
  rw [List.length_reverse, h] at hbe
  rw [Nat.mod_eq_of_lt (h ▸ ofLE_lt bs), le, ofLE, hbe, List.reverse_reverse]

theorem ofLE_le (n v : Nat) : ofLE (le n v) = v % 256 ^ n := by
  rw [ofLE, le, List.reverse_reverse, ofBE_be]

theorem ofLE_le_of_lt {n v : Nat} (h : v < 256 ^ n) : ofLE (le n v) = v := by
  rw [ofLE_le, Nat.mod_eq_of_lt h]

end Bytes

namespace List

variable {α : Type}

/-- The first `n` elements and the rest, if there are `n`. -/
def takeExactly (n : Nat) (xs : List α) : Option (List α × List α) :=
  if n ≤ xs.length then some (xs.take n, xs.drop n) else none

theorem takeExactly_eq_some {n : Nat} {xs a b : List α} :
    xs.takeExactly n = some (a, b) ↔ xs = a ++ b ∧ a.length = n := by
  unfold takeExactly
  constructor
  · intro h
    split at h
    · rename_i hn
      obtain ⟨rfl, rfl⟩ := Prod.mk.inj (Option.some.inj h)
      exact ⟨(take_append_drop n xs).symm, by simp [hn]⟩
    · cases h
  · rintro ⟨rfl, rfl⟩
    simp

end List
