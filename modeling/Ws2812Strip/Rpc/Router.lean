import Ws2812Strip.Rpc.Codec
import Ws2812Strip.Rpc.Md5
import Ws2812Strip.Server

/-!
# The router

`main` registers a handler for each request under the hash of its name. A call carries that hash
and the packed arguments.

* `route`: what the server does with the body of a call, and the body of its reply.
* `route_args`: a call whose body unpacks to arguments of the function runs the handler with these.
  `route_rejected`, `route_unknown`: any other call leaves the service as it was.
-/

namespace RestRpc

open Msgpack Ws2812 IPaintDevice

/-! ## The registered functions -/

inductive Method where
  | render
  | drawPixel
  | drawText
  | drawNumber
  | clear
  | width
  | height
  | pixel
  | setRotate
  | setTransparent
  | setBackground
  | setAutoRender
  deriving DecidableEq, Repr

namespace Method

/-- In the order of the calls of `register_handler`. -/
def all : List Method :=
  [.render, .drawPixel, .drawText, .drawNumber, .clear, .width, .height, .pixel, .setRotate,
    .setTransparent, .setBackground, .setAutoRender]

def name : Method → String
  | .render => "render"
  | .drawPixel => "draw_pixel"
  | .drawText => "draw_text"
  | .drawNumber => "draw_number"
  | .clear => "clear"
  | .width => "width"
  | .height => "height"
  | .pixel => "pixel"
  | .setRotate => "set_rotate"
  | .setTransparent => "set_transparent"
  | .setBackground => "set_background"
  | .setAutoRender => "set_auto_render"

/-- The parameters of the handler after the connection. -/
@[reducible] def params : Method → List CType
  | .drawPixel => [.int, .int, .uint32]
  | .drawText => [.int, .int, .string, .uint32, .uint32]
  | .drawNumber => [.int, .int, .int, .uint32, .uint32]
  | .pixel => [.int, .int]
  | .setRotate => [.int, .bool, .bool]
  | .setTransparent => [.bool]
  | .setBackground => [.uint32]
  | .setAutoRender => [.bool]
  | .render | .clear | .width | .height => []

/-- The call of the handler. -/
def request : (m : Method) → Args m.params → Request
  | .render, _ => .render
  | .drawPixel, (x, y, color, _) => .drawPixel x.val y.val color
  | .drawText, (x, y, text, color, background, _) =>
    .drawText x.val y.val text color background
  | .drawNumber, (x, y, number, color, background, _) =>
    .drawNumber x.val y.val number.val color background
  | .clear, _ => .clear
  | .width, _ => .width
  | .height, _ => .height
  | .pixel, (x, y, _) => .pixel x.val y.val
  | .setRotate, (degree, flipX, flipY, _) => .setRotate degree.val flipX flipY
  | .setTransparent, (transparent, _) => .setTransparent transparent
  | .setBackground, (color, _) => .setBackground color
  | .setAutoRender, (autoRender, _) => .setAutoRender autoRender

def key (m : Method) : UInt32 := md5Hash32 (bytesOf m.name)

end Method

/-- `map_invokers_`: a handler that is registered replaces one under the same key. -/
@[irreducible] def invokers (key : UInt32) : Option Method := Method.all.reverse.find? (·.key = key)

/-! ## Replies -/

/-- What `call` packs: the code `OK`, and what the handler has returned. -/
def packReply : Reply → List UInt8
  | .done => packArray 1 ++ packImpInt32 0
  | .int n => packArray 2 ++ packImpInt32 0 ++ packImpInt32 n
  | .color c => packArray 2 ++ packImpInt32 0 ++ packImpUint32 c.toNat
  | .flag b => packArray 2 ++ packImpInt32 0 ++ packBool b

/-- `std::to_string` -/
def toDecimal (n : Nat) : List UInt8 :=
  if n = 0 then bytesOf "0" else (decimal n).map fun digit => UInt8.ofNat (48 + digit)

/-- The result of a handler that ended in `r`: what it returned, or the text of the exception that
`apply` catches; `none` is undefined behaviour of the handler. -/
def resultOf : Except Fault Reply → Option (List UInt8)
  | .ok reply => some (packReply reply)
  | .error (.invalidArgument what) => some (packError (bytesOf what))
  | .error (.outOfRange what) => some (packError (bytesOf what))
  | .error (.undefined _) => none

/-- `invoker::apply` -/
def apply (signed : Bool) (m : Method) (s : Service) (data : List UInt8) :
    Option (Service × List UInt8) :=
  match unpackArgs m.params data with
  | none => some (s, packError (bytesOf "unpack failed: Args not match!"))
  | some args => do
    let result ← resultOf (((m.request args).handle signed).run ⟨s.strip, []⟩).1
    some (s.after signed (m.request args), result)

/-- `router::route`: the service after the call, and the body of the response. -/
def route (signed : Bool) (s : Service) (key : UInt32) (data : List UInt8) :
    Option (Service × List UInt8) :=
  match invokers key with
  | none => some (s, packError (bytesOf "unknown function: " ++ toDecimal key.toNat))
  | some m => do
    let (s, result) ← apply signed m s data
    some (s, if MAX_BUF_LEN ≤ result.length then
      packError (bytesOf ("the response result is out of range: more than 10M " ++ m.name))
      else result)

/-! ## The keys -/

theorem Method.mem_all (m : Method) : m ∈ Method.all := by
  cases m <;> decide

/-- No two names have the same key. -/
theorem Method.nodup_keys : (Method.all.map Method.key).Nodup := by
  decide +kernel

theorem Method.key_injective : Function.Injective Method.key :=
  fun a b h => List.inj_on_of_nodup_map nodup_keys a.mem_all b.mem_all h

theorem key_of_invokers {key : UInt32} {m : Method} (h : invokers key = some m) : m.key = key := by
  unfold invokers at h
  have hkey := List.find?_some h
  exact of_decide_eq_true hkey

theorem invokers_key (m : Method) : invokers m.key = some m := by
  cases hfind : invokers m.key with
  | none =>
    unfold invokers at hfind
    rw [List.find?_eq_none] at hfind
    exact absurd (by simp) (hfind m (List.mem_reverse.mpr m.mem_all))
  | some m' => rw [Method.key_injective (key_of_invokers hfind)]

/-! ## The size of a reply -/

theorem length_packArray_le (n : Nat) : (packArray n).length ≤ 5 := by
  unfold packArray
  split
  · simp
  split <;> simp

theorem length_packImpInt32 (d : Int) :
    0 < (packImpInt32 d).length ∧ (packImpInt32 d).length ≤ 5 := by
  unfold packImpInt32
  split_ifs <;> simp

theorem length_packImpUint32_le (d : Nat) : (packImpUint32 d).length ≤ 5 := by
  unfold packImpUint32
  split_ifs <;> simp

theorem length_packStr_le (l : Nat) : (packStr l).length ≤ 5 := by
  unfold packStr
  split_ifs <;> simp

theorem length_packReply (r : Reply) :
    0 < (packReply r).length ∧ (packReply r).length < MAX_BUF_LEN := by
  have hcode := length_packImpInt32 0
  have hone := length_packArray_le 1
  have htwo := length_packArray_le 2
  unfold MAX_BUF_LEN
  cases r with
  | done =>
    simp only [packReply, List.length_append]
    omega
  | int n =>
    have hn := length_packImpInt32 n
    simp only [packReply, List.length_append]
    omega
  | color c =>
    have hc := length_packImpUint32_le c.toNat
    simp only [packReply, List.length_append]
    omega
  | flag b =>
    have hb : (packBool b).length = 1 := by cases b <;> rfl
    simp only [packReply, List.length_append]
    omega

theorem length_packError (what : List UInt8) :
    0 < (packError what).length ∧ (packError what).length ≤ what.length + 15 := by
  have hcode := length_packImpInt32 1
  have harray := length_packArray_le 2
  have hstr := length_packStr_le what.length
  have hlen : (packError what).length = (packArray 2).length + ((packImpInt32 1).length +
      ((packStr what.length).length + what.length)) := by
    simp [packError, packArgs, packTuple, CType.pack, FAIL]
  omega

theorem length_toDecimal_le (key : UInt32) : (toDecimal key.toNat).length ≤ 10 := by
  unfold toDecimal
  split
  · decide
  · have hkey := key.toNat_lt
    have hdigits : (Nat.digits 10 key.toNat).length ≤ 10 :=
      (Nat.digits_length_le_iff (by decide) _).mpr (by omega)
    simpa [decimal] using hdigits

theorem resultOf_length {r : Except Fault Reply} {result : List UInt8}
    (h : resultOf r = some result) : 0 < result.length := by
  unfold resultOf at h
  split at h
  · cases h
    exact (length_packReply _).1
  · cases h
    exact (length_packError _).1
  · cases h
    exact (length_packError _).1
  · cases h

theorem apply_length {signed : Bool} {m : Method} {s s' : Service} {data result : List UInt8}
    (h : apply signed m s data = some (s', result)) : 0 < result.length := by
  unfold apply at h
  split at h
  · cases h
    exact (length_packError _).1
  · obtain ⟨r, hr, h⟩ := Option.bind_eq_some_iff.mp h
    cases h
    exact resultOf_length hr

/-- **Replies.** The body of a response is never empty, and fits in a message. -/
theorem route_length {signed : Bool} {s s' : Service} {key : UInt32} {data result : List UInt8}
    (h : route signed s key data = some (s', result)) :
    0 < result.length ∧ result.length < MAX_BUF_LEN := by
  unfold route at h
  cases hinv : invokers key with
  | none =>
    rw [hinv] at h
    cases h
    have hdecimal := length_toDecimal_le key
    have htext : (bytesOf "unknown function: ").length = 18 := by decide +kernel
    have hlen := length_packError (bytesOf "unknown function: " ++ toDecimal key.toNat)
    rw [List.length_append] at hlen
    unfold MAX_BUF_LEN
    omega
  | some m =>
    rw [hinv] at h
    obtain ⟨⟨s₁, r⟩, happly, h⟩ := Option.bind_eq_some_iff.mp h
    cases h
    split
    · have htext : ∀ m : Method, (bytesOf ("the response result is out of range: more than 10M " ++
          m.name)).length ≤ 100 := by
        intro m
        cases m <;> decide +kernel
      have hm := htext m
      have hlen := length_packError (bytesOf ("the response result is out of range: more than 10M "
        ++ m.name))
      exact ⟨hlen.1, by unfold MAX_BUF_LEN; omega⟩
    · rename_i hfit
      exact ⟨apply_length happly, by omega⟩

/-! ## What a call does -/

/-- The arguments of a call are accepted. -/
theorem apply_args {signed : Bool} {m : Method} {s : Service} {data : List UInt8}
    {args : Args m.params} (h : unpackArgs m.params data = some args) :
    apply signed m s data =
      (resultOf (((m.request args).handle signed).run ⟨s.strip, []⟩).1).map fun result =>
        (s.after signed (m.request args), result) := by
  unfold apply
  rw [h]
  cases hr : resultOf (((m.request args).handle signed).run ⟨s.strip, []⟩).1 with
  | none => simp [hr]
  | some result => simp [hr]

/-- A call of a registered function whose reply fits in a message. -/
theorem route_args {signed : Bool} {m : Method} {s : Service} {data result : List UInt8}
    {args : Args m.params} (h : unpackArgs m.params data = some args)
    (hresult : resultOf (((m.request args).handle signed).run ⟨s.strip, []⟩).1 = some result)
    (hlen : result.length < MAX_BUF_LEN) :
    route signed s m.key data = some (s.after signed (m.request args), result) := by
  unfold route
  rw [invokers_key]
  simp only [apply_args h, hresult, Option.map_some, Option.bind_eq_bind, Option.bind_some]
  rw [if_neg (by omega)]

/-- A body that is not one of the function's leaves the service as it was. -/
theorem route_rejected {signed : Bool} {m : Method} {s : Service} {data : List UInt8}
    (h : unpackArgs m.params data = none) :
    route signed s m.key data =
      some (s, packError (bytesOf "unpack failed: Args not match!")) := by
  have happly : apply signed m s data =
      some (s, packError (bytesOf "unpack failed: Args not match!")) := by
    unfold apply
    rw [h]
  have hfit : ¬ MAX_BUF_LEN ≤ (packError (bytesOf "unpack failed: Args not match!")).length := by
    decide +kernel
  unfold route
  rw [invokers_key]
  simp only [happly, Option.bind_eq_bind, Option.bind_some]
  rw [if_neg hfit]

/-- A call of a function that is not registered leaves the service as it was. -/
theorem route_unknown {signed : Bool} {s : Service} {key : UInt32} (h : invokers key = none)
    (data : List UInt8) : route signed s key data =
      some (s, packError (bytesOf "unknown function: " ++ toDecimal key.toNat)) := by
  unfold route
  rw [h]

/-- A call does one request or none. -/
theorem route_service {signed : Bool} {s : Service} {key : UInt32} {data : List UInt8}
    {r : Service × List UInt8} (h : route signed s key data = some r) :
    r.1 = s ∨ ∃ req, r.1 = s.after signed req := by
  cases hm : invokers key with
  | none =>
    rw [route_unknown hm] at h
    cases h
    exact .inl rfl
  | some m =>
    obtain rfl := key_of_invokers hm
    cases hargs : unpackArgs m.params data with
    | none =>
      rw [route_rejected hargs] at h
      cases h
      exact .inl rfl
    | some args =>
      unfold route at h
      rw [hm] at h
      obtain ⟨⟨s', result⟩, happly, h⟩ := Option.bind_eq_some_iff.mp h
      rw [apply_args hargs] at happly
      obtain ⟨_, -, hservice⟩ := Option.map_eq_some_iff.mp happly
      obtain ⟨rfl, rfl⟩ := Prod.mk.inj hservice
      cases h
      exact .inr ⟨m.request args, rfl⟩

end RestRpc
