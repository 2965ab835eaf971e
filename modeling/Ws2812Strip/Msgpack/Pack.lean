import Ws2812Strip.Msgpack.Format
import Mathlib.Tactic.Linarith

/-!
# Packing MessagePack

What `packer` writes for the values that requests and replies are made of. Each function writes an
encoding of the object that the value is read back as.
-/

namespace Msgpack

open Bytes

/-- `_msgpack_store16`, `_msgpack_store32`: the `n` low bytes of an integer. -/
def store (n : Nat) (d : Int) : List UInt8 := be n (d % 256 ^ n).toNat

/-- `pack_imp_int32` -/
def packImpInt32 (d : Int) : List UInt8 :=
  if d < -32 then
    if d < -32768 then 0xd2 :: store 4 d
    else if d < -128 then 0xd1 :: store 2 d
    else 0xd0 :: store 1 d
  else if d < 128 then store 1 d
  else if d < 256 then 0xcc :: store 1 d
  else if d < 65536 then 0xcd :: store 2 d
  else 0xce :: store 4 d

/-- `pack_imp_uint32` -/
def packImpUint32 (d : Nat) : List UInt8 :=
  if d < 256 then
    if d < 128 then store 1 d
    else 0xcc :: store 1 d
  else if d < 65536 then 0xcd :: store 2 d
  else 0xce :: store 4 d

/-- `pack_true`, `pack_false` -/
def packBool (b : Bool) : List UInt8 := if b then [0xc3] else [0xc2]

/-- `pack_array` -/
def packArray (n : Nat) : List UInt8 :=
  if n < 16 then [UInt8.ofNat (0x90 + n)]
  else if n < 65536 then 0xdc :: store 2 n
  else 0xdd :: store 4 n

/-- `pack_str` -/
def packStr (l : Nat) : List UInt8 :=
  if l < 32 then [UInt8.ofNat (0xa0 + l)]
  else if l < 256 then 0xd9 :: store 1 l
  else if l < 65536 then 0xda :: store 2 l
  else 0xdb :: store 4 l

/-! ## What is written is an encoding -/

@[simp] theorem length_store (n : Nat) (d : Int) : (store n d).length = n := length_be ..

theorem ofBE_store {n : Nat} {d : Int} (h0 : 0 ≤ d) (hd : d < 256 ^ n) :
    ofBE (store n d) = d.toNat := by
  rw [store, Int.emod_eq_of_lt h0 hd]
  refine ofBE_be_of_lt ?_
  zify
  omega

/-- A negative number is stored as its two's complement. -/
theorem ofBE_store_neg {n : Nat} {d : Int} (hd : d < 0) (hlo : -(256 ^ n) ≤ d) :
    (ofBE (store n d) : Int) = d + 256 ^ n := by
  have hmod : d % 256 ^ n = d + 256 ^ n := by
    rw [← Int.add_emod_right, Int.emod_eq_of_lt (by omega) (by omega)]
  rw [store, hmod, ofBE_be_of_lt]
  · omega
  · zify
    omega

theorem store_one {d : Int} (h0 : 0 ≤ d) (hd : d < 256) :
    ∃ b : UInt8, store 1 d = [b] ∧ b.toNat = d.toNat := by
  have hread := ofBE_store (n := 1) h0 (by omega)
  obtain ⟨b, hb⟩ := List.length_eq_one_iff.mp (length_store 1 d)
  rw [hb, ofBE_singleton] at hread
  exact ⟨b, hb, hread⟩

theorem signed_store {n : Nat} {d : Int} (hn : 0 < n) (hd : d < 0)
    (hlo : -(2 ^ (8 * n - 1)) ≤ d) : signed (store n d) = d := by
  have hpow : (256 : Int) ^ n = 2 ^ (8 * n) := by
    rw [show (256 : Int) = 2 ^ 8 by norm_num, ← pow_mul]
  have hhalf : (2 : Int) ^ (8 * n) = 2 * 2 ^ (8 * n - 1) := by
    rw [← pow_succ']
    congr 1
    omega
  have hpos : (0 : Int) < 2 ^ (8 * n - 1) := by positivity
  have hread := ofBE_store_neg (n := n) hd (by omega)
  unfold signed
  rw [length_store, if_neg]
  · omega
  · zify
    omega

/-- A nonnegative number in the format with a width of its own. -/
theorem leaf_uint {k : Nat} {b : UInt8} {d : Int} (hk : k < 4) (hb : b.toNat = 0xcc + k)
    (h0 : 0 ≤ d) (hd : d < 256 ^ 2 ^ k) :
    Leaf (.positiveInteger d.toNat) (b :: store (2 ^ k) d) := by
  rw [← ofBE_store h0 hd]
  exact .uint hk hb (length_store ..)

theorem leaf_int {k : Nat} {b : UInt8} {d : Int} (hk : k < 4) (hb : b.toNat = 0xd0 + k)
    (hd : d < 0) (hlo : -(2 ^ (8 * 2 ^ k - 1)) ≤ d) :
    Leaf (visitNegativeInteger d) (b :: store (2 ^ k) d) := by
  have hread := signed_store (by positivity) hd hlo
  have hleaf := Leaf.int hk hb (length_store (2 ^ k) d)
  rwa [hread] at hleaf

theorem leaf_fixint {d : Int} (h0 : 0 ≤ d) (hd : d < 128) :
    Leaf (.positiveInteger d.toNat) (store 1 d) := by
  obtain ⟨b, hb, hnat⟩ := store_one h0 (by omega)
  rw [hb, ← hnat]
  exact .fixint (by omega)

/-- A fixnum, negative or not. -/
theorem leaf_packFixint {d : Int} (hlo : -32 ≤ d) (hd : d < 128) :
    Leaf (visitNegativeInteger d) (store 1 d) := by
  by_cases h0 : 0 ≤ d
  · rw [visitNegativeInteger, if_pos h0]
    exact leaf_fixint h0 hd
  · obtain ⟨b, hb⟩ := List.length_eq_one_iff.mp (length_store 1 d)
    have hread := ofBE_store_neg (n := 1) (d := d) (by omega) (by omega)
    have hsigned := signed_store (n := 1) (d := d) (by omega) (by omega) (by omega)
    rw [hb] at hread hsigned
    rw [ofBE_singleton] at hread
    have hleaf := Leaf.negativeFixint (b := b) (by omega)
    rwa [hsigned, ← hb] at hleaf

theorem leaf_packImpUint32 {d : Nat} (hd : d < 2 ^ 32) :
    Leaf (.positiveInteger d) (packImpUint32 d) := by
  have h0 : (0 : Int) ≤ d := by omega
  unfold packImpUint32
  split
  · split
    · exact leaf_fixint (d := d) h0 (by omega)
    · exact leaf_uint (k := 0) (d := d) (by omega) rfl h0 (by omega)
  split
  · exact leaf_uint (k := 1) (d := d) (by omega) rfl h0 (by omega)
  · exact leaf_uint (k := 2) (d := d) (by omega) rfl h0 (by omega)

theorem leaf_packImpInt32 {d : Int} (hlo : -2147483648 ≤ d) (hhi : d ≤ 2147483647) :
    Leaf (visitNegativeInteger d) (packImpInt32 d) := by
  unfold packImpInt32
  split
  · split
    · exact leaf_int (k := 2) (by omega) rfl (by omega) (by omega)
    split
    · exact leaf_int (k := 1) (by omega) rfl (by omega) (by omega)
    · exact leaf_int (k := 0) (by omega) rfl (by omega) (by omega)
  split
  · exact leaf_packFixint (by omega) (by omega)
  have h0 : 0 ≤ d := by omega
  rw [visitNegativeInteger, if_pos h0]
  split
  · exact leaf_uint (k := 0) (by omega) rfl h0 (by omega)
  split
  · exact leaf_uint (k := 1) (by omega) rfl h0 (by omega)
  · exact leaf_uint (k := 2) (by omega) rfl h0 (by omega)

theorem leaf_packBool (b : Bool) : Leaf (.boolean b) (packBool b) := by
  cases b
  · exact .false rfl
  · exact .true rfl

/-- A small number in the low bits of a selector. -/
theorem toNat_selector {c n : Nat} (h : c + n < 256) : (UInt8.ofNat (c + n)).toNat = c + n := by
  simp only [UInt8.toNat_ofNat', Nat.reducePow]
  omega

theorem leaf_packStr {s : List UInt8} (hs : s.length < 2 ^ 32) :
    Leaf (.str s) (packStr s.length ++ s) := by
  have hwide : ∀ k < 3, ∀ b : UInt8, b.toNat = 0xd9 + k → (s.length : Int) < 256 ^ 2 ^ k →
      Leaf (.str s) ((b :: store (2 ^ k) s.length) ++ s) := by
    intro k hk b hb hfit
    exact .str hk hb (length_store ..) (by rw [ofBE_store (by omega) hfit, Int.toNat_natCast])
  unfold packStr
  split
  · exact .fixstr (by omega) (toNat_selector (by omega))
  split
  · exact hwide 0 (by omega) 0xd9 rfl (by omega)
  split
  · exact hwide 1 (by omega) 0xda rfl (by omega)
  · exact hwide 2 (by omega) 0xdb rfl (by omega)

theorem arrayHead_packArray {n : Nat} (hn : n < 2 ^ 32) : ArrayHead n (packArray n) := by
  have hwide : ∀ k < 2, ∀ b : UInt8, b.toNat = 0xdc + k → (n : Int) < 256 ^ 2 ^ (k + 1) →
      ArrayHead n (b :: store (2 ^ (k + 1)) n) := by
    intro k hk b hb hfit
    have hhead := ArrayHead.wide hk hb (length_store (2 ^ (k + 1)) n)
    rwa [ofBE_store (by omega) hfit, Int.toNat_natCast] at hhead
  unfold packArray
  split
  · exact .fix (by omega) (toNat_selector (by omega))
  split
  · exact hwide 0 (by omega) 0xdc rfl (by omega)
  · exact hwide 1 (by omega) 0xdd rfl (by omega)

end Msgpack
