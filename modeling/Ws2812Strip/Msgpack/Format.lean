import Ws2812Strip.Msgpack.Unpack

/-!
# The MessagePack format

`Encodes os bytes`: the bytes are encodings of the objects `os`, one after the other. `unpack_iff`
is the specification of the reader. Since the reader is a function, an encoding has one meaning, and
none is the beginning of another one.

The limits of `unpack_limit` and of the size fields are `2 ^ 32 - 1`. No message below `2 ^ 32`
bytes reaches them, and the model leaves them out.
-/

namespace Msgpack

open Bytes

/-! ## The grammar -/

/-- The encodings of an object without parts: a selector byte `b`, and what belongs to it. -/
inductive Leaf : Object → List UInt8 → Prop
  | nil {b : UInt8} (hb : b.toNat = 0xc0) : Leaf .nil [b]
  | false {b : UInt8} (hb : b.toNat = 0xc2) : Leaf (.boolean false) [b]
  | true {b : UInt8} (hb : b.toNat = 0xc3) : Leaf (.boolean true) [b]
  | fixint {b : UInt8} (hb : b.toNat ≤ 0x7f) : Leaf (.positiveInteger b.toNat) [b]
  | negativeFixint {b : UInt8} (hb : 0xe0 ≤ b.toNat) :
    Leaf (visitNegativeInteger (signed [b])) [b]
  | uint {b : UInt8} {k : Nat} {n : List UInt8} (hk : k < 4) (hb : b.toNat = 0xcc + k)
    (hn : n.length = 2 ^ k) : Leaf (.positiveInteger (ofBE n)) (b :: n)
  | int {b : UInt8} {k : Nat} {n : List UInt8} (hk : k < 4) (hb : b.toNat = 0xd0 + k)
    (hn : n.length = 2 ^ k) : Leaf (visitNegativeInteger (signed n)) (b :: n)
  | float32 {b : UInt8} {n : List UInt8} (hb : b.toNat = 0xca) (hn : n.length = 4) :
    Leaf (.float32 (ofBE n)) (b :: n)
  | float64 {b : UInt8} {n : List UInt8} (hb : b.toNat = 0xcb) (hn : n.length = 8) :
    Leaf (.float64 (ofBE n)) (b :: n)
  | fixstr {b : UInt8} {s : List UInt8} (hs : s.length < 32) (hb : b.toNat = 0xa0 + s.length) :
    Leaf (.str s) (b :: s)
  | str {b : UInt8} {k : Nat} {n s : List UInt8} (hk : k < 3) (hb : b.toNat = 0xd9 + k)
    (hn : n.length = 2 ^ k) (hs : s.length = ofBE n) : Leaf (.str s) (b :: (n ++ s))
  | bin {b : UInt8} {k : Nat} {n s : List UInt8} (hk : k < 3) (hb : b.toNat = 0xc4 + k)
    (hn : n.length = 2 ^ k) (hs : s.length = ofBE n) : Leaf (.bin s) (b :: (n ++ s))
  | ext {b : UInt8} {k : Nat} {n s : List UInt8} (hk : k < 3) (hb : b.toNat = 0xc7 + k)
    (hn : n.length = 2 ^ k) (hs : s.length = ofBE n + 1) : Leaf (.ext s) (b :: (n ++ s))
  | fixext {b : UInt8} {k : Nat} {s : List UInt8} (hk : k < 5) (hb : b.toNat = 0xd4 + k)
    (hs : s.length = 2 ^ k + 1) : Leaf (.ext s) (b :: s)

/-- The heads of an array of `size` items. -/
inductive ArrayHead : Nat → List UInt8 → Prop
  | fix {b : UInt8} {size : Nat} (hs : size < 16) (hb : b.toNat = 0x90 + size) :
    ArrayHead size [b]
  | wide {b : UInt8} {k : Nat} {n : List UInt8} (hk : k < 2) (hb : b.toNat = 0xdc + k)
    (hn : n.length = 2 ^ (k + 1)) : ArrayHead (ofBE n) (b :: n)

/-- The heads of a map of `size` keys and values. -/
inductive MapHead : Nat → List UInt8 → Prop
  | fix {b : UInt8} {size : Nat} (hs : size < 16) (hb : b.toNat = 0x80 + size) :
    MapHead size [b]
  | wide {b : UInt8} {k : Nat} {n : List UInt8} (hk : k < 2) (hb : b.toNat = 0xde + k)
    (hn : n.length = 2 ^ (k + 1)) : MapHead (ofBE n) (b :: n)

inductive Encodes : List Object → List UInt8 → Prop
  | nil : Encodes [] []
  | leaf {o : Object} {os : List Object} {e es : List UInt8} (h : Leaf o e) (hs : Encodes os es) :
    Encodes (o :: os) (e ++ es)
  | array {items os : List Object} {head body es : List UInt8} (h : ArrayHead items.length head)
    (hi : Encodes items body) (hs : Encodes os es) :
    Encodes (.array items :: os) (head ++ body ++ es)
  | map {items os : List Object} {size : Nat} {head body es : List UInt8} (h : MapHead size head)
    (hsize : items.length = 2 * size) (hi : Encodes items body) (hs : Encodes os es) :
    Encodes (.map items :: os) (head ++ body ++ es)

/-- The bytes of an item. -/
def Spells : Item → List UInt8 → Prop
  | .value o => Leaf o
  | .array size => ArrayHead size
  | .map size => MapHead size

/-! ## Items -/

theorem bind_eq_ok {ε α β : Type} {x : Except ε α} {f : α → Except ε β} {b : β} :
    x >>= f = .ok b ↔ ∃ a, x = .ok a ∧ f a = .ok b := by
  cases x with
  | error e => simp [bind, Except.bind]
  | ok a => simp [bind, Except.bind]

theorem load_eq_ok {n : Nat} {bytes a b : List UInt8} :
    load n bytes = .ok (a, b) ↔ bytes = a ++ b ∧ a.length = n := by
  rw [← List.takeExactly_eq_some]
  unfold load
  cases bytes.takeExactly n <;> simp

theorem load_append {n : Nat} {a : List UInt8} (h : a.length = n) (b : List UInt8) :
    load n (a ++ b) = .ok (a, b) :=
  load_eq_ok.mpr ⟨rfl, h⟩

/-- A value whose size is in the bytes `n`. -/
theorem payload_eq_ok {size : Nat} {make : List UInt8 → Object} {rest rest' : List UInt8}
    {i : Item} :
    (do let (s, rest) ← load size rest
        .ok (.value (make s), rest) : Except UnpackError (Item × List UInt8)) = .ok (i, rest') ↔
      ∃ s, rest = s ++ rest' ∧ s.length = size ∧ i = .value (make s) := by
  rw [bind_eq_ok]
  constructor
  · rintro ⟨⟨s, r⟩, hload, h⟩
    cases h
    obtain ⟨rfl, hs⟩ := load_eq_ok.mp hload
    exact ⟨s, rfl, hs, rfl⟩
  · rintro ⟨s, rfl, hs, rfl⟩
    exact ⟨(s, rest'), load_append hs rest', rfl⟩

/-- The widths of the selectors `c`, ..., `c + m - 1`. -/
theorem trail_family (c m : Nat) (width : Nat → Nat) {selector : Nat} {n : List UInt8}
    (hn : n.length = trail.getD (selector - 0xc4) 0) (hlo : c ≤ selector) (hhi : selector < c + m)
    (htrail : ∀ k < m, trail.getD (c + k - 0xc4) 0 = width k) :
    ∃ k < m, selector = c + k ∧ n.length = width k := by
  obtain ⟨k, rfl⟩ := Nat.exists_eq_add_of_le hlo
  exact ⟨k, by omega, rfl, by rw [hn, htrail k (by omega)]⟩

/-- What is read at a selector from `0xc4` on spells the item. -/
theorem trailed_sound {b : UInt8} {n rest rest' : List UInt8} {i : Item} (hlo : 0xc4 ≤ b.toNat)
    (hhi : b.toNat ≤ 0xdf) (hn : n.length = trail.getD (b.toNat - 0xc4) 0)
    (h : trailed b.toNat n rest = .ok (i, rest')) :
    ∃ s, rest = s ++ rest' ∧ Spells i (b :: (n ++ s)) := by
  have hnone : ∀ i', Spells i' (b :: n) → ∃ s, rest' = s ++ rest' ∧ Spells i' (b :: (n ++ s)) :=
    fun i' hi => ⟨[], rfl, by rwa [List.append_nil]⟩
  unfold trailed at h
  split at h
  · obtain ⟨s, rfl, hs, rfl⟩ := payload_eq_ok.mp h
    obtain ⟨k, hk, hb, hw⟩ := trail_family 0xc4 3 (2 ^ ·) hn hlo (by omega) (by decide)
    exact ⟨s, rfl, .bin hk hb hw hs⟩
  split at h
  · obtain ⟨s, rfl, hs, rfl⟩ := payload_eq_ok.mp h
    obtain ⟨k, hk, hb, hw⟩ := trail_family 0xc7 3 (2 ^ ·) hn (by omega) (by omega) (by decide)
    exact ⟨s, rfl, .ext hk hb hw hs⟩
  split at h
  · rename_i hb
    cases h
    exact hnone _ (.float32 hb (by rw [hn, hb]; rfl))
  split at h
  · rename_i hb
    cases h
    exact hnone _ (.float64 hb (by rw [hn, hb]; rfl))
  split at h
  · cases h
    obtain ⟨k, hk, hb, hw⟩ := trail_family 0xcc 4 (2 ^ ·) hn (by omega) (by omega) (by decide)
    exact hnone _ (.uint hk hb hw)
  split at h
  · cases h
    obtain ⟨k, hk, hb, hw⟩ := trail_family 0xd0 4 (2 ^ ·) hn (by omega) (by omega) (by decide)
    exact hnone _ (.int hk hb hw)
  split at h
  · cases h
    obtain ⟨k, hk, hb, hw⟩ := trail_family 0xd4 5 (2 ^ · + 1) hn (by omega) (by omega) (by decide)
    exact hnone _ (.fixext hk hb hw)
  split at h
  · obtain ⟨s, rfl, hs, rfl⟩ := payload_eq_ok.mp h
    obtain ⟨k, hk, hb, hw⟩ := trail_family 0xd9 3 (2 ^ ·) hn (by omega) (by omega) (by decide)
    exact ⟨s, rfl, .str hk hb hw hs⟩
  split at h
  · cases h
    obtain ⟨k, hk, hb, hw⟩ := trail_family 0xdc 2 (fun k => 2 ^ (k + 1)) hn (by omega) (by omega)
      (by decide)
    exact hnone _ (.wide hk hb hw)
  · cases h
    obtain ⟨k, hk, hb, hw⟩ := trail_family 0xde 2 (fun k => 2 ^ (k + 1)) hn (by omega) (by omega)
      (by decide)
    exact hnone _ (.wide hk hb hw)

/-- What is read at the front of a message spells the item. -/
theorem item_sound {bytes rest : List UInt8} {i : Item} (h : item bytes = .ok (i, rest)) :
    ∃ e, bytes = e ++ rest ∧ Spells i e := by
  cases bytes with
  | nil => cases h
  | cons b bytes =>
    simp only [item] at h
    split at h
    · rename_i hb
      cases h
      exact ⟨[b], rfl, .fixint hb⟩
    split at h
    · rename_i hb
      cases h
      exact ⟨[b], rfl, .negativeFixint hb⟩
    split at h
    · rename_i hb
      obtain ⟨⟨n, r⟩, hload, htrailed⟩ := bind_eq_ok.mp h
      obtain ⟨rfl, hn⟩ := load_eq_ok.mp hload
      obtain ⟨s, rfl, hs⟩ := trailed_sound hb.1 hb.2 hn htrailed
      exact ⟨b :: (n ++ s), by simp, hs⟩
    split at h
    · rename_i hb
      obtain ⟨s, rfl, hs, rfl⟩ := payload_eq_ok.mp h
      have hlen : b.toNat = 0xa0 + s.length := by omega
      exact ⟨b :: s, rfl, .fixstr (by omega) hlen⟩
    split at h
    · rename_i hb
      cases h
      exact ⟨[b], rfl, .fix (by omega) (by omega)⟩
    split at h
    · rename_i hb
      cases h
      exact ⟨[b], rfl, .fix (by omega) (by omega)⟩
    split at h
    · rename_i hb
      cases h
      exact ⟨[b], rfl, .false hb⟩
    split at h
    · rename_i hb
      cases h
      exact ⟨[b], rfl, .true hb⟩
    split at h
    · rename_i hb
      cases h
      exact ⟨[b], rfl, .nil hb⟩
    · cases h

theorem item_trailed {b : UInt8} {n : List UInt8} (hlo : 0xc4 ≤ b.toNat) (hhi : b.toNat ≤ 0xdf)
    (hn : n.length = trail.getD (b.toNat - 0xc4) 0) (rest : List UInt8) :
    item (b :: (n ++ rest)) = trailed b.toNat n rest := by
  simp only [item]
  rw [if_neg (by omega), if_neg (by omega), if_pos ⟨hlo, hhi⟩, load_append hn]
  rfl

/-- A family of selectors reads what its members are followed by. -/
theorem item_family (c m : Nat) (width : Nat → Nat) {b : UInt8} {k : Nat} {n : List UInt8}
    (hb : b.toNat = c + k) (hk : k < m) (hn : n.length = width k) (hlo : 0xc4 ≤ c)
    (hhi : c + m ≤ 0xe0) (htrail : ∀ k < m, trail.getD (c + k - 0xc4) 0 = width k)
    (rest : List UInt8) : item (b :: (n ++ rest)) = trailed (c + k) n rest := by
  rw [item_trailed (by omega) (by omega) (by rw [hn, hb, htrail k hk]), hb]

theorem item_leaf {o : Object} {e : List UInt8} (h : Leaf o e) (rest : List UInt8) :
    item (e ++ rest) = .ok (.value o, rest) := by
  cases h with
  | nil hb => simp [item, hb]
  | false hb => simp [item, hb]
  | true hb => simp [item, hb]
  | fixint hb => simp [item, hb]
  | @negativeFixint b hb =>
    have h1 : ¬ b.toNat ≤ 127 := by omega
    simp [item, hb, h1]
  | uint hk hb hn =>
    rw [List.cons_append, item_family 0xcc 4 (2 ^ ·) hb hk hn (by omega) (by omega) (by decide)]
    simp (disch := omega) only [trailed, if_neg, if_pos]
  | int hk hb hn =>
    rw [List.cons_append, item_family 0xd0 4 (2 ^ ·) hb hk hn (by omega) (by omega) (by decide)]
    simp (disch := omega) only [trailed, if_neg, if_pos]
  | float32 hb hn =>
    rw [List.cons_append, item_family (k := 0) 0xca 1 (fun _ => 4) hb (by omega) hn (by omega)
      (by omega) (by decide)]
    simp (disch := omega) only [trailed, if_neg, if_pos, if_true]
  | float64 hb hn =>
    rw [List.cons_append, item_family (k := 0) 0xcb 1 (fun _ => 8) hb (by omega) hn (by omega)
      (by omega) (by decide)]
    simp (disch := omega) only [trailed, if_neg, if_pos, if_true]
  | @fixstr b s hs hb =>
    simp only [List.cons_append, item]
    simp (disch := omega) only [if_neg, if_pos]
    exact payload_eq_ok.mpr ⟨s, rfl, by omega, rfl⟩
  | str hk hb hn hs =>
    rw [List.cons_append, List.append_assoc,
      item_family 0xd9 3 (2 ^ ·) hb hk hn (by omega) (by omega) (by decide)]
    simp (disch := omega) only [trailed, if_neg, if_pos]
    exact payload_eq_ok.mpr ⟨_, rfl, hs, rfl⟩
  | bin hk hb hn hs =>
    rw [List.cons_append, List.append_assoc,
      item_family 0xc4 3 (2 ^ ·) hb hk hn (by omega) (by omega) (by decide)]
    simp (disch := omega) only [trailed, if_pos]
    exact payload_eq_ok.mpr ⟨_, rfl, hs, rfl⟩
  | ext hk hb hn hs =>
    rw [List.cons_append, List.append_assoc,
      item_family 0xc7 3 (2 ^ ·) hb hk hn (by omega) (by omega) (by decide)]
    simp (disch := omega) only [trailed, if_neg, if_pos]
    exact payload_eq_ok.mpr ⟨_, rfl, hs, rfl⟩
  | fixext hk hb hs =>
    rw [List.cons_append, item_family 0xd4 5 (2 ^ · + 1) hb hk hs (by omega) (by omega) (by decide)]
    simp (disch := omega) only [trailed, if_neg, if_pos]

theorem item_arrayHead {size : Nat} {e : List UInt8} (h : ArrayHead size e) (rest : List UInt8) :
    item (e ++ rest) = .ok (.array size, rest) := by
  cases h with
  | fix hs hb =>
    simp only [List.cons_append, List.nil_append, item]
    simp (disch := omega) only [if_neg, if_pos]
    rw [show _ % 16 = size by omega]
  | wide hk hb hn =>
    rw [List.cons_append,
      item_family 0xdc 2 (fun k => 2 ^ (k + 1)) hb hk hn (by omega) (by omega) (by decide)]
    simp (disch := omega) only [trailed, if_neg, if_pos]

theorem item_mapHead {size : Nat} {e : List UInt8} (h : MapHead size e) (rest : List UInt8) :
    item (e ++ rest) = .ok (.map size, rest) := by
  cases h with
  | fix hs hb =>
    simp only [List.cons_append, List.nil_append, item]
    simp (disch := omega) only [if_neg, if_pos]
    rw [show _ % 16 = size by omega]
  | wide hk hb hn =>
    rw [List.cons_append,
      item_family 0xde 2 (fun k => 2 ^ (k + 1)) hb hk hn (by omega) (by omega) (by decide)]
    simp (disch := omega) only [trailed, if_neg]

/-- The reader at the front of a message that begins with the bytes of an item. -/
theorem item_complete {i : Item} {e : List UInt8} (h : Spells i e) (rest : List UInt8) :
    item (e ++ rest) = .ok (i, rest) := by
  cases i with
  | value o => exact item_leaf h rest
  | array size => exact item_arrayHead h rest
  | map size => exact item_mapHead h rest

/-! ## The stack -/

/-- Objects that are read one after the other, down to the outcome of the last one. -/
inductive Consumes : List Frame → List Object → Object ⊕ List Frame → Prop
  | last {stack : List Frame} {o : Object} {r : Object ⊕ List Frame} (h : consume o stack = r) :
    Consumes stack [o] r
  | cons {stack stack' : List Frame} {o : Object} {os : List Object} {r : Object ⊕ List Frame}
    (h : consume o stack = .inr stack') (hs : Consumes stack' os r) : Consumes stack (o :: os) r

/-- Without a container the message is one object. -/
theorem consumes_nil_iff {os : List Object} {o : Object} : Consumes [] os (.inl o) ↔ os = [o] := by
  constructor
  · intro h
    cases h with
    | last h => rw [Sum.inl.inj h]
    | cons h _ => cases h
  · rintro rfl
    exact .last rfl

/-- The items that are missing in an array complete it. -/
theorem consumes_array {rest : Nat} {stack : List Frame} {items acc : List Object}
    (hlen : items.length = rest) (hpos : rest ≠ 0) :
    Consumes (⟨.arrayItem, rest, acc⟩ :: stack) items (consume (.array (acc ++ items)) stack) := by
  induction items generalizing rest acc with
  | nil => exact absurd hlen.symm hpos
  | cons o items ih =>
    obtain rfl := hlen
    by_cases hlast : items = []
    · subst hlast
      exact .last (by simp [consume])
    · have hrest : items.length ≠ 0 := by simpa using hlast
      have hih := @ih items.length (acc ++ [o]) rfl hrest
      rw [List.append_assoc, List.singleton_append] at hih
      exact .cons (by simp [consume, hrest]) hih

/-- The keys and values that are missing in a map complete it. -/
theorem consumes_map {rest : Nat} {stack : List Frame} {items acc : List Object}
    (hlen : items.length = 2 * rest) (hpos : rest ≠ 0) :
    Consumes (⟨.mapKey, rest, acc⟩ :: stack) items (consume (.map (acc ++ items)) stack) := by
  induction rest generalizing items acc with
  | zero => exact absurd rfl hpos
  | succ n ih =>
    obtain ⟨key, value, items, rfl⟩ : ∃ key value items', items = key :: value :: items' := by
      rcases items with _ | ⟨key, _ | ⟨value, items⟩⟩
      · simp at hlen
      · simp only [List.length_cons, List.length_nil] at hlen
        omega
      · exact ⟨key, value, items, rfl⟩
    have hkey : consume key (⟨.mapKey, n + 1, acc⟩ :: stack) =
        .inr (⟨.mapValue, n + 1, acc ++ [key]⟩ :: stack) := rfl
    refine .cons hkey ?_
    by_cases hlast : n = 0
    · subst hlast
      obtain rfl : items = [] := by simpa using hlen
      exact .last (by simp [consume])
    · have hih := @ih items (acc ++ [key, value])
        (by simp only [List.length_cons] at hlen; omega) hlast
      rw [List.append_assoc] at hih
      exact .cons (by simp [consume, hlast]) hih

/-- Objects that end the message in an unfinished array complete the array first. -/
theorem Consumes.array_split {rest : Nat} {stack : List Frame} {os acc : List Object} {o : Object}
    (h : Consumes (⟨.arrayItem, rest, acc⟩ :: stack) os (.inl o)) (hpos : rest ≠ 0) :
    ∃ items os', os = items ++ os' ∧ items.length = rest ∧
      Consumes stack (.array (acc ++ items) :: os') (.inl o) := by
  induction os generalizing rest acc with
  | nil => cases h
  | cons first os ih =>
    by_cases hlast : rest - 1 = 0
    · refine ⟨[first], os, rfl, by simp; omega, ?_⟩
      cases h with
      | last h => exact .last (by simpa [consume, hlast] using h)
      | cons h hs => exact .cons (by simpa [consume, hlast] using h) hs
    · cases h with
      | last h => simp [consume, hlast] at h
      | cons h hs =>
        simp only [consume, hlast, if_false, Sum.inr.injEq] at h
        subst h
        obtain ⟨items, os', rfl, hlen, hitems⟩ := ih hs hlast
        refine ⟨first :: items, os', rfl, by simp; omega, ?_⟩
        rwa [List.append_assoc] at hitems

/-- The same for a map. -/
theorem Consumes.map_split {rest : Nat} {stack : List Frame} {os acc : List Object} {o : Object}
    (h : Consumes (⟨.mapKey, rest, acc⟩ :: stack) os (.inl o)) (hpos : rest ≠ 0) :
    ∃ items os', os = items ++ os' ∧ items.length = 2 * rest ∧
      Consumes stack (.map (acc ++ items) :: os') (.inl o) := by
  induction rest generalizing os acc with
  | zero => exact absurd rfl hpos
  | succ n ih =>
    cases h with
    | last h => simp [consume] at h
    | @cons _ _ key os _ h hs =>
      simp only [consume, Sum.inr.injEq] at h
      subst h
      by_cases hlast : n = 0
      · subst hlast
        cases hs with
        | @last _ value _ h =>
          exact ⟨[key, value], [], rfl, rfl, .last (by simpa [consume] using h)⟩
        | @cons _ _ value os _ h hs =>
          exact ⟨[key, value], os, rfl, rfl, .cons (by simpa [consume] using h) hs⟩
      · cases hs with
        | last h => simp [consume, hlast] at h
        | @cons _ _ value os _ h hs =>
          simp only [consume, Nat.add_sub_cancel, hlast, if_false, Sum.inr.injEq] at h
          subst h
          obtain ⟨items, os', rfl, hlen, hitems⟩ := ih hs hlast
          refine ⟨key :: value :: items, os', rfl, by simp; omega, ?_⟩
          rwa [List.append_assoc, List.append_assoc] at hitems

/-! ## The loop -/

/-- An encoding of objects in a row is one of the first ones and one of the others. -/
theorem Encodes.split {os os' : List Object} {e : List UInt8} (h : Encodes (os ++ os') e) :
    ∃ e₁ e₂, e = e₁ ++ e₂ ∧ Encodes os e₁ ∧ Encodes os' e₂ := by
  induction os generalizing e with
  | nil => exact ⟨[], e, rfl, .nil, h⟩
  | cons o os ih =>
    cases h with
    | @leaf _ _ e es h hs =>
      obtain ⟨e₁, e₂, rfl, h₁, h₂⟩ := ih hs
      exact ⟨e ++ e₁, e₂, by simp, .leaf h h₁, h₂⟩
    | @array items _ head body es h hi hs =>
      obtain ⟨e₁, e₂, rfl, h₁, h₂⟩ := ih hs
      exact ⟨head ++ body ++ e₁, e₂, by simp, .array h hi h₁, h₂⟩
    | @map items _ size head body es h hsize hi hs =>
      obtain ⟨e₁, e₂, rfl, h₁, h₂⟩ := ih hs
      exact ⟨head ++ body ++ e₁, e₂, by simp, .map h hsize hi h₁, h₂⟩

theorem Spells.length_pos {i : Item} {e : List UInt8} (h : Spells i e) : 0 < e.length := by
  cases i <;> cases h <;> simp

/-- What is left of a message after an outcome of the stack. -/
def resume (n : Nat) (rest : List UInt8) :
    Object ⊕ List Frame → Except UnpackError (Object × List UInt8)
  | .inl o => .ok (o, rest)
  | .inr stack => execute n stack rest

/-- One round of the loop. -/
theorem execute_item {i : Item} {e : List UInt8} (h : Spells i e) {n : Nat}
    (hn : e.length ≤ n) (stack : List Frame) (rest : List UInt8) :
    execute n stack (e ++ rest) = resume (n - 1) rest (visit stack i) := by
  have hpos := h.length_pos
  obtain ⟨n, rfl⟩ : ∃ m, n = m + 1 := ⟨n - 1, by omega⟩
  rw [execute, item_complete h]
  show (match visit stack i with | .inl o => _ | .inr stack => _) = _
  cases visit stack i <;> rfl

/-- From any stack the loop reads the bytes `e` and consumes the object `o`. -/
def Reads (o : Object) (e : List UInt8) : Prop :=
  ∀ stack n rest, e.length ≤ n →
    ∃ m, n ≤ m + e.length ∧ execute n stack (e ++ rest) = resume m rest (consume o stack)

/-- The loop reads the bytes `e` and consumes the objects `os`. -/
def ReadsAll (os : List Object) (e : List UInt8) : Prop :=
  ∀ stack r n rest, Consumes stack os r → e.length ≤ n →
    ∃ m, n ≤ m + e.length ∧ execute n stack (e ++ rest) = resume m rest r

theorem Reads.leaf {o : Object} {e : List UInt8} (h : Leaf o e) : Reads o e := by
  intro stack n rest hn
  have hpos := Spells.length_pos (i := .value o) h
  exact ⟨n - 1, by omega, execute_item (i := .value o) h hn stack rest⟩

/-- The head of a container, and its items. -/
theorem Reads.container {o : Object} {i : Item} {items : List Object} {head body : List UInt8}
    (hhead : Spells i head) (hitems : ReadsAll items body)
    (hvisit : ∀ stack, items = [] ∧ body = [] ∧ visit stack i = consume o stack ∨
      ∃ stack', visit stack i = .inr stack' ∧ Consumes stack' items (consume o stack)) :
    Reads o (head ++ body) := by
  intro stack n rest hn
  have hpos := hhead.length_pos
  rw [List.length_append] at hn
  rw [List.append_assoc, execute_item hhead (by omega)]
  obtain ⟨-, rfl, hempty⟩ | ⟨stack', hstack, hconsumes⟩ := hvisit stack
  · exact ⟨n - 1, by simp; omega, by rw [hempty]; rfl⟩
  · obtain ⟨m, hm, hrun⟩ := hitems stack' _ (n - 1) rest hconsumes (by omega)
    exact ⟨m, by simp; omega, by rw [hstack]; exact hrun⟩

/-- An object, and the others after it. -/
theorem Reads.cons {o : Object} {os : List Object} {e es : List UInt8} (h : Reads o e)
    (hs : ReadsAll os es) (hnil : os = [] → es = []) : ReadsAll (o :: os) (e ++ es) := by
  intro stack r n rest hr hn
  rw [List.length_append] at hn
  obtain ⟨m, hm, hrun⟩ := h stack n (es ++ rest) (by omega)
  rw [List.append_assoc, hrun]
  cases hr with
  | last hlast =>
    obtain rfl := hnil rfl
    exact ⟨m, by simpa using hm, by rw [hlast]; rfl⟩
  | cons hcons hr =>
    obtain ⟨m', hm', hrun'⟩ := hs _ r m rest hr (by omega)
    exact ⟨m', by simp; omega, by rw [hcons]; exact hrun'⟩

theorem Encodes.eq_nil {e : List UInt8} (h : Encodes [] e) : e = [] := by
  cases h
  rfl

/-- The loop reads every encoding. -/
theorem Encodes.readsAll {os : List Object} {e : List UInt8} (h : Encodes os e) :
    ReadsAll os e := by
  induction h with
  | nil => exact fun _ _ _ _ hr => by cases hr
  | leaf h hs ih => exact (Reads.leaf h).cons ih fun hnil => (hnil ▸ hs).eq_nil
  | @array items os head body es h hi hs ihi ihs =>
    refine Reads.cons (Reads.container (i := .array items.length) h ihi fun stack => ?_) ihs
      fun hnil => (hnil ▸ hs).eq_nil
    by_cases hitems : items = []
    · subst hitems
      exact .inl ⟨rfl, hi.eq_nil, rfl⟩
    · have hlen : items.length ≠ 0 := by simpa using hitems
      exact .inr ⟨_, if_neg hlen, consumes_array rfl hlen⟩
  | @map items os size head body es h hsize hi hs ihi ihs =>
    refine Reads.cons (Reads.container (i := .map size) h ihi fun stack => ?_) ihs
      fun hnil => (hnil ▸ hs).eq_nil
    by_cases hzero : size = 0
    · obtain rfl : items = [] := by simpa [hzero] using hsize
      exact .inl ⟨rfl, hi.eq_nil, if_pos hzero⟩
    · exact .inr ⟨_, if_neg hzero, consumes_map hsize hzero⟩

/-- What the loop returns, it has read from an encoding. -/
theorem execute_sound {n : Nat} {stack : List Frame} {bytes rest : List UInt8} {o : Object}
    (hrun : execute n stack bytes = .ok (o, rest)) :
    ∃ os e, bytes = e ++ rest ∧ Encodes os e ∧ Consumes stack os (.inl o) := by
  induction n generalizing stack bytes with
  | zero => cases hrun
  | succ n ih =>
    obtain ⟨⟨i, bytes'⟩, hitem, hrest⟩ := bind_eq_ok.mp hrun
    obtain ⟨e, rfl, hspells⟩ := item_sound hitem
    have h : resume n bytes' (visit stack i) = .ok (o, rest) := by
      cases hvisit : visit stack i <;> simpa [resume, hvisit] using hrest
    -- an item that is a whole object
    have hobject : ∀ v, visit stack i = consume v stack →
        (∀ os es, Encodes os es → Encodes (v :: os) (e ++ es)) →
        ∃ os e', e ++ bytes' = e' ++ rest ∧ Encodes os e' ∧ Consumes stack os (.inl o) := by
      intro v hv hencodes
      rw [hv] at h
      cases hc : consume v stack with
      | inl o' =>
        rw [hc] at h
        cases h
        exact ⟨[v], e, rfl, by simpa using hencodes [] [] .nil, .last hc⟩
      | inr stack' =>
        rw [hc] at h
        obtain ⟨os, es, rfl, henc, hcons⟩ := ih h
        exact ⟨v :: os, e ++ es, by simp, hencodes os es henc, .cons hc hcons⟩
    cases i with
    | value v => exact hobject v rfl fun os es hs => .leaf hspells hs
    | array size =>
      by_cases hsize : size = 0
      · subst hsize
        refine hobject (.array []) rfl fun os es hs => ?_
        have hempty : Encodes (.array [] :: os) (e ++ [] ++ es) := .array hspells .nil hs
        rwa [List.append_nil] at hempty
      · simp only [visit, if_neg hsize] at h
        obtain ⟨os, es, rfl, henc, hcons⟩ := ih h
        obtain ⟨items, os, rfl, hlen, hcons⟩ := hcons.array_split hsize
        obtain ⟨body, es, rfl, hitems, hos⟩ := henc.split
        exact ⟨.array items :: os, e ++ body ++ es, by simp,
          .array (hlen.symm ▸ hspells) hitems hos, hcons⟩
    | map size =>
      by_cases hsize : size = 0
      · subst hsize
        refine hobject (.map []) rfl fun os es hs => ?_
        have hempty : Encodes (.map [] :: os) (e ++ [] ++ es) := .map hspells rfl .nil hs
        rwa [List.append_nil] at hempty
      · simp only [visit, if_neg hsize] at h
        obtain ⟨os, es, rfl, henc, hcons⟩ := ih h
        obtain ⟨items, os, rfl, hlen, hcons⟩ := hcons.map_split hsize
        obtain ⟨body, es, rfl, hitems, hos⟩ := henc.split
        exact ⟨.map items :: os, e ++ body ++ es, by simp, .map hspells hlen hitems hos, hcons⟩

/-! ## The reader -/

/-- What is read is an object of the format. -/
theorem encodes_of_unpack {bytes rest : List UInt8} {o : Object}
    (h : unpack bytes = .ok (o, rest)) : ∃ e, bytes = e ++ rest ∧ Encodes [o] e := by
  obtain ⟨os, e, he, henc, hcons⟩ := execute_sound h
  obtain rfl := consumes_nil_iff.mp hcons
  exact ⟨e, he, henc⟩

/-- An object of the format is read, whatever bytes follow. -/
theorem Encodes.unpack_append {o : Object} {e : List UInt8} (h : Encodes [o] e)
    (rest : List UInt8) : unpack (e ++ rest) = .ok (o, rest) := by
  obtain ⟨m, -, hrun⟩ := h.readsAll [] (.inl o) (e ++ rest).length rest
    (consumes_nil_iff.mpr rfl) (by simp)
  exact hrun

/-- **The reader accepts the format.** On a message below `2 ^ 32` bytes it returns an object
exactly if the message begins with an encoding of that object, and the bytes that follow. -/
theorem unpack_iff {bytes rest : List UInt8} {o : Object} :
    unpack bytes = .ok (o, rest) ↔ ∃ e, bytes = e ++ rest ∧ Encodes [o] e := by
  constructor
  · exact encodes_of_unpack
  · rintro ⟨e, rfl, h⟩
    exact h.unpack_append rest

end Msgpack
