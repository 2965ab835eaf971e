import Ws2812Strip.Lib.Bytes
import Mathlib.Tactic.IntervalCases

/-!
# Unpacking MessagePack

The reader that the server and its clients give the bytes of a message to.

* `item`: what `context::execute` reads at a selector byte, with the bytes that belong to it.
* `consume`, `execute`: the stack of unfinished arrays and maps (`unpack_stack`), and the loop.
* `unpack`: the object that a message begins with, and the bytes after it.
-/

namespace Msgpack

open Bytes

/-- `msgpack::object`. Floats keep their bits; a map has its keys and values in turn. -/
inductive Object where
  | nil
  | boolean (b : Bool)
  | positiveInteger (u64 : Nat)
  | negativeInteger (i64 : Int)
  | float32 (bits : Nat)
  | float64 (bits : Nat)
  | str (s : List UInt8)
  | bin (s : List UInt8)
  /-- The type, and the data. -/
  | ext (s : List UInt8)
  | array (items : List Object)
  | map (items : List Object)

/-- What is thrown while a message is unpacked. -/
inductive UnpackError where
  | insufficientBytes
  | parseError
  deriving DecidableEq, Repr

/-! ## Items -/

/-- An object without parts, or the head of an array or of a map. -/
inductive Item where
  | value (o : Object)
  | array (size : Nat)
  | map (size : Nat)

/-- The signed number of a big-endian word. -/
def signed (n : List UInt8) : Int :=
  if ofBE n < 2 ^ (8 * n.length - 1) then ofBE n else ofBE n - 2 ^ (8 * n.length)

/-- `visit_negative_integer` -/
def visitNegativeInteger (v : Int) : Object :=
  if v ≥ 0 then .positiveInteger v.toNat else .negativeInteger v

/-- `trail`: the number of bytes that belong to the selector, from `0xc4` on. -/
def trail : List Nat :=
  [1, 2, 4,       -- bin
   1, 2, 4,       -- ext
   4, 8,          -- float
   1, 2, 4, 8,    -- uint
   1, 2, 4, 8,    -- int
   2, 3, 5, 9, 17,  -- fixext
   1, 2, 4,       -- str
   2, 4,          -- array
   2, 4]          -- map

/-- The next `n` bytes of the message. -/
def load (n : Nat) (bytes : List UInt8) : Except UnpackError (List UInt8 × List UInt8) :=
  match bytes.takeExactly n with
  | some r => .ok r
  | none => .error .insufficientBytes

/-- `switch (m_cs)`, with the cases that differ in the width only taken together. The bytes `n`
belong to the selector. -/
def trailed (selector : Nat) (n rest : List UInt8) : Except UnpackError (Item × List UInt8) :=
  if selector ≤ 0xc6 then do
    let (s, rest) ← load (ofBE n) rest
    .ok (.value (.bin s), rest)
  else if selector ≤ 0xc9 then do
    let (s, rest) ← load (ofBE n + 1) rest
    .ok (.value (.ext s), rest)
  else if selector = 0xca then .ok (.value (.float32 (ofBE n)), rest)
  else if selector = 0xcb then .ok (.value (.float64 (ofBE n)), rest)
  else if selector ≤ 0xcf then .ok (.value (.positiveInteger (ofBE n)), rest)
  else if selector ≤ 0xd3 then .ok (.value (visitNegativeInteger (signed n)), rest)
  else if selector ≤ 0xd8 then .ok (.value (.ext n), rest)
  else if selector ≤ 0xdb then do
    let (s, rest) ← load (ofBE n) rest
    .ok (.value (.str s), rest)
  else if selector ≤ 0xdd then .ok (.array (ofBE n), rest)
  else .ok (.map (ofBE n), rest)

/-- The item at the front of the message, and the bytes after it. -/
def item : List UInt8 → Except UnpackError (Item × List UInt8)
  | [] => .error .insufficientBytes
  | b :: bytes =>
    let selector := b.toNat
    if selector ≤ 0x7f then .ok (.value (.positiveInteger selector), bytes)
    else if 0xe0 ≤ selector then .ok (.value (visitNegativeInteger (signed [b])), bytes)
    else if 0xc4 ≤ selector ∧ selector ≤ 0xdf then do
      let (n, rest) ← load (trail.getD (selector - 0xc4) 0) bytes
      trailed selector n rest
    else if 0xa0 ≤ selector ∧ selector ≤ 0xbf then do
      let (s, rest) ← load (selector % 32) bytes
      .ok (.value (.str s), rest)
    else if 0x90 ≤ selector ∧ selector ≤ 0x9f then .ok (.array (selector % 16), bytes)
    else if 0x80 ≤ selector ∧ selector ≤ 0x8f then .ok (.map (selector % 16), bytes)
    else if selector = 0xc2 then .ok (.value (.boolean false), bytes)
    else if selector = 0xc3 then .ok (.value (.boolean true), bytes)
    else if selector = 0xc0 then .ok (.value .nil, bytes)
    else .error .parseError

/-! ## The stack -/

/-- `msgpack_container_type` -/
inductive Container where
  | arrayItem
  | mapKey
  | mapValue
  deriving DecidableEq, Repr

/-- An entry of `unpack_stack`, with the part of the container that the visitor has built. -/
structure Frame where
  type : Container
  rest : Nat
  items : List Object

/-- An object has been read: it goes into the innermost container, and so does each container that
it completes. `inl`: the message is complete. -/
def consume : Object → List Frame → Object ⊕ List Frame
  | o, [] => .inl o
  | o, ⟨.arrayItem, rest, items⟩ :: stack =>
    if rest - 1 = 0 then consume (.array (items ++ [o])) stack
    else .inr (⟨.arrayItem, rest - 1, items ++ [o]⟩ :: stack)
  | o, ⟨.mapKey, rest, items⟩ :: stack => .inr (⟨.mapValue, rest, items ++ [o]⟩ :: stack)
  | o, ⟨.mapValue, rest, items⟩ :: stack =>
    if rest - 1 = 0 then consume (.map (items ++ [o])) stack
    else .inr (⟨.mapKey, rest - 1, items ++ [o]⟩ :: stack)

/-- What an item does to the stack: `start_aggregate`, or a visit and `consume`. -/
def visit (stack : List Frame) : Item → Object ⊕ List Frame
  | .value o => consume o stack
  | .array size =>
    if size = 0 then consume (.array []) stack else .inr (⟨.arrayItem, size, []⟩ :: stack)
  | .map size =>
    if size = 0 then consume (.map []) stack else .inr (⟨.mapKey, size, []⟩ :: stack)

/-- `context::execute`, with at most `n` rounds of its loop. -/
def execute : Nat → List Frame → List UInt8 → Except UnpackError (Object × List UInt8)
  | 0, _, _ => .error .insufficientBytes
  | n + 1, stack, bytes => do
    let (i, rest) ← item bytes
    match visit stack i with
    | .inl o => .ok (o, rest)
    | .inr stack => execute n stack rest

/-- `msgpack::unpack`: the first object of the message, and the bytes after it. A round of the loop
takes at least one byte. -/
def unpack (bytes : List UInt8) : Except UnpackError (Object × List UInt8) :=
  execute bytes.length [] bytes

end Msgpack
