import Ws2812Strip.Basic
import Ws2812Strip.Msgpack.Pack

/-!
# Arguments and results as bytes

`msgpack_codec`: a call carries the tuple of its arguments and a reply the tuple of a result code
and a result, packed as arrays. The types of the program's handlers are those of `CType`.

`unpackArgs_packArgs`: arguments that a client packs are read back as they were, also with bytes
after them.
-/

namespace RestRpc

open Msgpack Ws2812

/-- `MAX_BUF_LEN` -/
def MAX_BUF_LEN : Nat := 10485760

/-! ## Values -/

/-- The value of an `int`. -/
abbrev CInt := {n : Int // IsInt n}

/-- `convert_integer_sign<int, true>`; `none` is a `type_error`. -/
def convertInt : Object → Option CInt
  | .positiveInteger u64 =>
    if h : (u64 : Int) ≤ INT_MAX then some ⟨u64, by unfold IsInt INT_MIN; omega⟩ else none
  | .negativeInteger i64 =>
    if h : INT_MIN ≤ i64 ∧ i64 ≤ INT_MAX then some ⟨i64, h⟩ else none
  | _ => none

/-- `convert_integer_sign<uint32_t, false>` -/
def convertUint32 : Object → Option UInt32
  | .positiveInteger u64 => if u64 ≤ 4294967295 then some (UInt32.ofNat u64) else none
  | _ => none

/-- `convert<bool>` -/
def convertBool : Object → Option Bool
  | .boolean b => some b
  | _ => none

/-- `convert<std::string>` -/
def convertString : Object → Option (List UInt8)
  | .bin s => some s
  | .str s => some s
  | _ => none

/-- The types of arguments and results. -/
inductive CType where
  | int
  | uint32
  | bool
  | string
  deriving DecidableEq, Repr

namespace CType

abbrev Val : CType → Type
  | .int => CInt
  | .uint32 => UInt32
  | .bool => Bool
  | .string => List UInt8

/-- What an element of a tuple is initialised with. -/
def default : (t : CType) → t.Val
  | .int => (⟨0, by decide⟩ : CInt)
  | .uint32 => (0 : UInt32)
  | .bool => false
  | .string => ([] : List UInt8)

/-- `adaptor::convert` -/
def convert : (t : CType) → Object → Option t.Val
  | .int => convertInt
  | .uint32 => convertUint32
  | .bool => convertBool
  | .string => convertString

/-- `adaptor::pack` -/
def pack : (t : CType) → t.Val → List UInt8
  | .int => fun n : CInt => packImpInt32 n
  | .uint32 => fun c : UInt32 => packImpUint32 c.toNat
  | .bool => packBool
  | .string => fun s : List UInt8 => packStr s.length ++ s

/-- What a packed value is unpacked to. -/
def object : (t : CType) → t.Val → Object
  | .int => fun n : CInt => visitNegativeInteger n
  | .uint32 => fun c : UInt32 => .positiveInteger c.toNat
  | .bool => .boolean
  | .string => .str

end CType

theorem convertInt_visit (n : CInt) : convertInt (visitNegativeInteger n) = some n := by
  obtain ⟨n, hlo, hhi⟩ := n
  unfold visitNegativeInteger
  split
  · rename_i h
    have h0 : 0 ≤ n := h
    have hnat : ((n.toNat : Nat) : Int) = n := by omega
    simp only [convertInt, hnat, dif_pos hhi]
  · exact dif_pos ⟨hlo, hhi⟩

theorem convertUint32_toNat (c : UInt32) :
    convertUint32 (.positiveInteger c.toNat) = some c := by
  have hc := c.toNat_lt
  simp only [convertUint32]
  rw [if_pos (by omega), UInt32.ofNat_toNat]

theorem CType.convert_object (t : CType) (v : t.Val) : t.convert (t.object v) = some v := by
  cases t with
  | int => exact convertInt_visit v
  | uint32 => exact convertUint32_toNat v
  | bool => rfl
  | string => rfl

theorem leaf_string {s : List UInt8} (h : (packStr s.length ++ s).length < MAX_BUF_LEN) :
    Leaf (.str s) (packStr s.length ++ s) := by
  rw [List.length_append] at h
  exact leaf_packStr (by unfold MAX_BUF_LEN at h; omega)

/-- A value that fits in a message. -/
theorem CType.leaf_pack (t : CType) (v : t.Val) (h : (t.pack v).length < MAX_BUF_LEN) :
    Leaf (t.object v) (t.pack v) := by
  cases t with
  | int =>
    obtain ⟨n, hlo, hhi⟩ := v
    exact leaf_packImpInt32 hlo hhi
  | uint32 => exact leaf_packImpUint32 (UInt32.toNat_lt v)
  | bool => exact leaf_packBool v
  | string => exact leaf_string h

/-! ## Tuples -/

@[reducible] def Args : List CType → Type
  | [] => Unit
  | t :: ts => t.Val × Args ts

/-- `StdTupleConverter::convert`: missing elements keep their initial values, and elements too many
are left out. -/
def convertTuple : (ts : List CType) → List Object → Option (Args ts)
  | [], _ => some ()
  | t :: ts, [] => do
    let rest ← convertTuple ts []
    some (t.default, rest)
  | t :: ts, o :: os => do
    let v ← t.convert o
    let rest ← convertTuple ts os
    some (v, rest)

/-- `StdTuplePacker::pack` -/
def packTuple : (ts : List CType) → Args ts → List UInt8
  | [], _ => []
  | t :: ts, (v, rest) => t.pack v ++ packTuple ts rest

/-- `msgpack_codec::pack_args` -/
def packArgs (ts : List CType) (args : Args ts) : List UInt8 :=
  packArray ts.length ++ packTuple ts args

/-- `msgpack_codec::unpack`; `none` is the exception "unpack failed: Args not match!". -/
def unpackArgs (ts : List CType) (data : List UInt8) : Option (Args ts) :=
  match unpack data with
  | .ok (.array items, _) => convertTuple ts items
  | _ => none

/-- What packed arguments are unpacked to. -/
def objects : (ts : List CType) → Args ts → List Object
  | [], _ => []
  | t :: ts, (v, rest) => t.object v :: objects ts rest

@[simp] theorem length_objects (ts : List CType) (args : Args ts) :
    (objects ts args).length = ts.length := by
  induction ts with
  | nil => rfl
  | cons t ts ih =>
    obtain ⟨v, rest⟩ := args
    simp [objects, ih]

theorem convertTuple_objects (ts : List CType) (args : Args ts) :
    convertTuple ts (objects ts args) = some args := by
  induction ts with
  | nil => rfl
  | cons t ts ih =>
    obtain ⟨v, rest⟩ := args
    simp only [objects, convertTuple, CType.convert_object, ih]
    rfl

theorem encodes_packTuple {ts : List CType} {args : Args ts}
    (h : (packTuple ts args).length < MAX_BUF_LEN) :
    Encodes (objects ts args) (packTuple ts args) := by
  induction ts with
  | nil => exact .nil
  | cons t ts ih =>
    obtain ⟨v, rest⟩ := args
    simp only [packTuple, List.length_append] at h
    exact .leaf (t.leaf_pack v (by omega)) (ih (by omega))

/-- The body of a call encodes the array of its arguments. -/
theorem encodes_packArgs {ts : List CType} {args : Args ts}
    (h : (packArgs ts args).length < MAX_BUF_LEN) (hts : ts.length < 2 ^ 32) :
    Encodes [.array (objects ts args)] (packArgs ts args) := by
  rw [packArgs, List.length_append] at h
  have hhead : ArrayHead (objects ts args).length (packArray ts.length) := by
    rw [length_objects]
    exact arrayHead_packArray hts
  have hbody := Encodes.array hhead (encodes_packTuple (by omega)) .nil
  rwa [List.append_nil] at hbody

theorem unpackArgs_of_encodes {ts : List CType} {items : List Object} {e : List UInt8}
    (h : Encodes [.array items] e) (rest : List UInt8) :
    unpackArgs ts (e ++ rest) = convertTuple ts items := by
  unfold unpackArgs
  rw [h.unpack_append]

/-- **Arguments.** What is packed is read back, whatever bytes follow. -/
theorem unpackArgs_packArgs {ts : List CType} {args : Args ts}
    (h : (packArgs ts args).length < MAX_BUF_LEN) (hts : ts.length < 2 ^ 32) (rest : List UInt8) :
    unpackArgs ts (packArgs ts args ++ rest) = some args := by
  rw [unpackArgs_of_encodes (encodes_packArgs h hts), convertTuple_objects]

/-- **Round trip of arguments.** The packed arguments are read back, whatever bytes follow; and the
packing of other arguments never begins with them. -/
theorem packArgs_roundTrip {ts : List CType} {args : Args ts}
    (h : (packArgs ts args).length < MAX_BUF_LEN) (hts : ts.length < 2 ^ 32) :
    (∀ rest, unpackArgs ts (packArgs ts args ++ rest) = some args) ∧
    ∀ args', (packArgs ts args').length < MAX_BUF_LEN →
      packArgs ts args <+: packArgs ts args' → args' = args := by
  refine ⟨unpackArgs_packArgs h hts, fun args' h' hpre => ?_⟩
  obtain ⟨rest, hrest⟩ := hpre
  have hread := unpackArgs_packArgs h hts rest
  have hread' := unpackArgs_packArgs h' hts []
  rw [List.append_nil, ← hrest, hread] at hread'
  exact (Option.some.inj hread').symm

/-- The arguments of `draw_pixel`, and a byte. -/
theorem packArgs_roundTrip_drawPixel :
    unpackArgs [.int, .int, .uint32]
      (packArgs [.int, .int, .uint32] (⟨-3, by decide⟩, ⟨300, by decide⟩, 255, ()) ++ [192]) =
        some (⟨-3, by decide⟩, ⟨300, by decide⟩, 255, ()) :=
  (packArgs_roundTrip (by decide) (by decide)).1 [192]

/-! ## Results -/

/-- `result_code::OK` and `result_code::FAIL` -/
def OK : CInt := ⟨0, by decide⟩

def FAIL : CInt := ⟨1, by decide⟩

/-- `pack_args_str(result_code::FAIL, what)` -/
def packError (what : List UInt8) : List UInt8 := packArgs [.int, .string] (FAIL, what, ())

/-- What the client throws when it asks for a result. -/
inductive ResultError where
  | logicError (what : List UInt8)
  | invalidArgument (what : String)
  deriving DecidableEq, Repr

/-- `codec.unpack` -/
def unpackResult (ts : List CType) (result : List UInt8) : Except ResultError (Args ts) :=
  match unpackArgs ts result with
  | some args => .ok args
  | none => .error (.invalidArgument "unpack failed: Args not match!")

/-- `has_error` -/
def hasError (result : List UInt8) : Except ResultError Bool :=
  if result.isEmpty then .ok true
  else do
    let tp ← unpackResult [.int] result
    .ok (decide (tp.1 ≠ OK))

/-- `get_result` -/
def getResult (t : CType) (result : List UInt8) : Except ResultError t.Val := do
  let tp ← unpackResult [.int, t] result
  .ok tp.2.1

/-- `get_error_msg` -/
def getErrorMsg (result : List UInt8) : Except ResultError (List UInt8) := do
  let tp ← unpackResult [.int, .string] result
  .ok tp.2.1

/-- The error of a result with an error code, in `req_result::as`. -/
def raise {α : Type} (data : List UInt8) : Except ResultError α := do
  let what ← if data.isEmpty then .ok data else getErrorMsg data
  .error (.logicError what)

/-- `req_result::as<T>` -/
def asResult (t : CType) (data : List UInt8) : Except ResultError t.Val := do
  let error ← hasError data
  if error then raise data else getResult t data

/-- `req_result::as` -/
def asVoid (data : List UInt8) : Except ResultError Unit := do
  let error ← hasError data
  if error then raise data else .ok ()

theorem packArray_ne_nil (n : Nat) : packArray n ≠ [] := by
  unfold packArray
  split
  · simp
  split <;> simp

theorem packArgs_isEmpty (ts : List CType) (args : Args ts) :
    (packArgs ts args).isEmpty = false := by
  simp [packArgs, packArray_ne_nil]

/-- The code of a result, whatever follows it. -/
theorem hasError_packArgs {ts : List CType} {code : CInt} {args : Args ts}
    (h : (packArgs (.int :: ts) (code, args)).length < MAX_BUF_LEN)
    (hts : (CType.int :: ts).length < 2 ^ 32) :
    hasError (packArgs (.int :: ts) (code, args)) = .ok (decide (code ≠ OK)) := by
  have hunpack : unpackArgs [.int] (packArgs (.int :: ts) (code, args)) = some (code, ()) := by
    have henc : unpackArgs [.int] (packArgs (.int :: ts) (code, args) ++ []) = _ :=
      unpackArgs_of_encodes (encodes_packArgs h hts) []
    rw [List.append_nil] at henc
    have hcode : CType.int.convert (CType.int.object code) = some code :=
      CType.convert_object .int code
    rw [henc]
    simp only [objects, convertTuple, hcode]
    rfl
  unfold hasError unpackResult
  rw [packArgs_isEmpty, hunpack]
  rfl

theorem unpackResult_packArgs {ts : List CType} {args : Args ts}
    (h : (packArgs ts args).length < MAX_BUF_LEN) (hts : ts.length < 2 ^ 32) :
    unpackResult ts (packArgs ts args) = .ok args := by
  have hunpack := unpackArgs_packArgs h hts []
  rw [List.append_nil] at hunpack
  unfold unpackResult
  rw [hunpack]

/-- **Results.** A result with the code `OK` is read back. -/
theorem asResult_packArgs {t : CType} {v : t.Val}
    (h : (packArgs [.int, t] (OK, v, ())).length < MAX_BUF_LEN) :
    asResult t (packArgs [.int, t] (OK, v, ())) = .ok v := by
  unfold asResult getResult
  rw [hasError_packArgs h (by simp), unpackResult_packArgs h (by simp)]
  rfl

theorem asVoid_packArgs : asVoid (packArgs [.int] (OK, ())) = .ok () := by
  unfold asVoid
  rw [hasError_packArgs (by decide) (by simp)]
  rfl

theorem raise_packError {α : Type} {what : List UInt8}
    (h : (packError what).length < MAX_BUF_LEN) :
    (raise (packError what) : Except ResultError α) = .error (.logicError what) := by
  unfold raise getErrorMsg packError
  rw [packArgs_isEmpty, unpackResult_packArgs h (by simp)]
  rfl

/-- An error is thrown with the text that the server has given. -/
theorem asResult_packError {t : CType} {what : List UInt8}
    (h : (packError what).length < MAX_BUF_LEN) :
    asResult t (packError what) = .error (.logicError what) := by
  have herror : hasError (packError what) = .ok true := hasError_packArgs h (by simp)
  unfold asResult
  rw [herror]
  exact raise_packError h

theorem asVoid_packError {what : List UInt8} (h : (packError what).length < MAX_BUF_LEN) :
    asVoid (packError what) = .error (.logicError what) := by
  have herror : hasError (packError what) = .ok true := hasError_packArgs h (by simp)
  unfold asVoid
  rw [herror]
  exact raise_packError h

end RestRpc
