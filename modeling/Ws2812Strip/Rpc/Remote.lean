import Ws2812Strip.Panel
import Ws2812Strip.Rpc.Progress
import Ws2812Strip.Rpc.Router

/-!
# The panel from afar

Clients that call the program's functions over connections use a panel.

* `Method.read`: what `call<T>` of a client makes of a response. `answer`: what it gets from the
  panel itself.
* `route_shows`: a call is the request of the panel, with the reply that the panel gives.
* `Net.Reachable.panel`: as long as handlers and rounds do not overlap, all clients share one panel,
  on which their calls are done one after the other.
-/

namespace RestRpc

open Msgpack Ws2812 Ws2812.Service

/-! ## What a client reads -/

/-- `call<T>`, with the type `T` that the handler returns. -/
def Method.read (m : Method) (data : List UInt8) : Except ResultError Reply :=
  match m with
  | .width | .height => (asResult .int data).map fun n : CInt => .int n
  | .pixel => (asResult .uint32 data).map Reply.color
  | .setAutoRender => (asResult .bool data).map Reply.flag
  | .render | .drawPixel | .drawText | .drawNumber | .clear | .setRotate | .setTransparent
  | .setBackground => (asVoid data).map fun _ => .done

/-- What a client gets of what the handler did: an exception arrives as a `logic_error` with its
text. Nothing comes back of undefined behaviour. -/
def remote : Except Fault Reply → Option (Except ResultError Reply)
  | .ok reply => some (.ok reply)
  | .error (.invalidArgument what) => some (.error (.logicError (bytesOf what)))
  | .error (.outOfRange what) => some (.error (.logicError (bytesOf what)))
  | .error (.undefined _) => none

/-- The values that the handler can return. -/
def Method.Returns : Method → Reply → Prop
  | .width, .int n | .height, .int n => IsInt n
  | .pixel, .color _ | .setAutoRender, .flag _ => True
  | .render, .done | .drawPixel, .done | .drawText, .done | .drawNumber, .done | .clear, .done
  | .setRotate, .done | .setTransparent, .done | .setBackground, .done => True
  | _, _ => False

/-- A result is packed as the tuple of its code and its value. -/
theorem asResult_append {t : CType} (v : t.Val)
    (h : (packArray 2 ++ packImpInt32 0 ++ t.pack v).length < MAX_BUF_LEN) :
    asResult t (packArray 2 ++ packImpInt32 0 ++ t.pack v) = .ok v := by
  have htuple : packArray 2 ++ packImpInt32 0 ++ t.pack v = packArgs [.int, t] (OK, v, ()) := by
    simp [packArgs, packTuple, CType.pack, OK]
  rw [htuple] at h ⊢
  exact asResult_packArgs h

/-- What the handler returns is read back. -/
theorem Method.read_packReply {m : Method} {r : Reply} (h : m.Returns r) :
    m.read (packReply r) = .ok r := by
  have hlen := (length_packReply r).2
  cases r with
  | done =>
    have hdone : asVoid (packReply .done) = .ok () := asVoid_packArgs
    cases m with
    | width | height | pixel | setAutoRender => exact h.elim
    | render | drawPixel | drawText | drawNumber | clear | setRotate | setTransparent
    | setBackground =>
      simp only [Method.read, hdone]
      rfl
  | int n =>
    cases m with
    | width | height =>
      have hread : asResult .int (packReply (.int n)) = .ok ⟨n, h⟩ :=
        asResult_append (t := .int) (⟨n, h⟩ : CInt) hlen
      simp only [Method.read, hread]
      rfl
    | render | drawPixel | drawText | drawNumber | clear | setRotate | setTransparent
    | setBackground | pixel | setAutoRender => exact h.elim
  | color c =>
    cases m with
    | pixel =>
      have hread : asResult .uint32 (packReply (.color c)) = .ok c :=
        asResult_append (t := .uint32) c hlen
      simp only [Method.read, hread]
      rfl
    | render | drawPixel | drawText | drawNumber | clear | setRotate | setTransparent
    | setBackground | width | height | setAutoRender => exact h.elim
  | flag b =>
    cases m with
    | setAutoRender =>
      have hread : asResult .bool (packReply (.flag b)) = .ok b :=
        asResult_append (t := .bool) b hlen
      simp only [Method.read, hread]
      rfl
    | render | drawPixel | drawText | drawNumber | clear | setRotate | setTransparent
    | setBackground | width | height | pixel => exact h.elim

/-- An error reaches the client, whatever the function returns. -/
theorem Method.read_packError (m : Method) {what : List UInt8}
    (h : (packError what).length < MAX_BUF_LEN) :
    m.read (packError what) = .error (.logicError what) := by
  cases m with
  | width | height | pixel | setAutoRender =>
    simp only [Method.read, asResult_packError h]
    rfl
  | render | drawPixel | drawText | drawNumber | clear | setRotate | setTransparent
  | setBackground =>
    simp only [Method.read, asVoid_packError h]
    rfl

/-! ## One call -/

/-- What the panel gives a client that calls `m`. -/
def answer (initial : Int × Int → LedColor) (p : Panel) (m : Method) (data : List UInt8) :
    Option (Except ResultError Reply) :=
  match unpackArgs m.params data with
  | none => some (.error (.logicError (bytesOf "unpack failed: Args not match!")))
  | some args => remote (p.respond 16 32 initial (m.request args))

theorem answer_rejected {initial : Int × Int → LedColor} {p : Panel} {m : Method}
    {data : List UInt8} (h : unpackArgs m.params data = none) : answer initial p m data =
      some (.error (.logicError (bytesOf "unpack failed: Args not match!"))) := by
  unfold answer
  rw [h]

theorem answer_args {initial : Int × Int → LedColor} {p : Panel} {m : Method} {data : List UInt8}
    {args : Args m.params} (h : unpackArgs m.params data = some args) :
    answer initial p m data = remote (p.respond 16 32 initial (m.request args)) := by
  unfold answer
  rw [h]

theorem logicalSize_isInt (t : StripRotateHelper) :
    IsInt (t.logicalSize 16 32).1 ∧ IsInt (t.logicalSize 16 32).2 := by
  obtain ⟨degree, flipX, flipY⟩ := t
  cases degree <;> simp [StripRotateHelper.logicalSize, IsInt, INT_MIN, INT_MAX]

/-- The panel returns what the function can return, or rejects an orientation. -/
theorem respond_cases (initial : Int × Int → LedColor) (p : Panel) (m : Method)
    (args : Args m.params) :
    (∃ reply, p.respond 16 32 initial (m.request args) = .ok reply ∧ m.Returns reply) ∨
      p.respond 16 32 initial (m.request args) =
        .error (.invalidArgument "IRotatablePaintDevice::set_rotate") := by
  obtain ⟨hwidth, hheight⟩ := logicalSize_isInt p.orientation
  cases m with
  | width => exact .inl ⟨_, rfl, hwidth⟩
  | height => exact .inl ⟨_, rfl, hheight⟩
  | setRotate =>
    obtain ⟨degree, flipX, flipY, _⟩ := args
    simp only [Method.request, Panel.respond]
    cases RotateDegree.ofValue? degree.val with
    | some d => exact .inl ⟨_, rfl, trivial⟩
    | none => exact .inr rfl
  | render | drawPixel | drawText | drawNumber | clear | pixel | setTransparent | setBackground
  | setAutoRender => exact .inl ⟨_, rfl, trivial⟩

/-- The reply of the panel fits in a message, and is read as it was given. -/
theorem respond_result (initial : Int × Int → LedColor) (p : Panel) (m : Method)
    (args : Args m.params) :
    ∃ result, resultOf (p.respond 16 32 initial (m.request args)) = some result ∧
      result.length < MAX_BUF_LEN ∧
      some (m.read result) = remote (p.respond 16 32 initial (m.request args)) := by
  rcases respond_cases initial p m args with ⟨reply, hrespond, hreturns⟩ | hrespond
  · rw [hrespond]
    refine ⟨_, rfl, (length_packReply reply).2, ?_⟩
    rw [Method.read_packReply hreturns]
    rfl
  · rw [hrespond]
    have hlen : (packError (bytesOf "IRotatablePaintDevice::set_rotate")).length < MAX_BUF_LEN := by
      decide +kernel
    refine ⟨_, rfl, hlen, ?_⟩
    rw [m.read_packError hlen]
    rfl

/-- **One call.** A service that shows a panel handles a call as the panel does, and the client
reads what the panel answers. -/
theorem route_shows {signed : Bool} {initial : Int × Int → LedColor} {s : Service} {p : Panel}
    (hs : Shows 16 32 initial s p) {m : Method} {data : List UInt8} {args : Args m.params}
    (hargs : unpackArgs m.params data = some args)
    (hadm : p.Admissible 16 32 (.request (m.request args))) :
    ∃ s' result, route signed s m.key data = some (s', result) ∧
      Shows 16 32 initial s' (p.next 16 32 (m.request args)) ∧
      some (m.read result) = answer initial p m data := by
  obtain ⟨hreply, hnext⟩ :
    (((m.request args).handle signed).run ⟨s.strip, []⟩).1 =
        p.respond 16 32 initial (m.request args) ∧
      Shows 16 32 initial (s.after signed (m.request args)) (p.next 16 32 (m.request args)) :=
    hs.request (m.request args) hadm
  obtain ⟨result, hresult, hlen, hread⟩ := respond_result initial p m args
  rw [← hreply] at hresult
  refine ⟨_, result, route_args hargs hresult hlen, hnext, ?_⟩
  rw [hread, answer_args hargs]

/-- **A call is the request.** A client that packs the arguments of a function gets what the panel
gives, and the panel is used as if it were here; bytes after the arguments do not matter. -/
theorem call_shows {signed : Bool} {initial : Int × Int → LedColor} {s : Service} {p : Panel}
    (hs : Shows 16 32 initial s p) (m : Method) (args : Args m.params)
    (hlen : (packArgs m.params args).length < MAX_BUF_LEN)
    (hadm : p.Admissible 16 32 (.request (m.request args))) (rest : List UInt8) :
    ∃ s' result, route signed s m.key (packArgs m.params args ++ rest) = some (s', result) ∧
      Shows 16 32 initial s' (p.next 16 32 (m.request args)) ∧
      some (m.read result) = remote (p.respond 16 32 initial (m.request args)) := by
  have hcount : m.params.length < 2 ^ 32 := by cases m <;> decide
  have hargs := unpackArgs_packArgs hlen hcount rest
  obtain ⟨s', result, hroute, hshows, hread⟩ := route_shows hs hargs hadm
  rw [answer_args hargs] at hread
  exact ⟨s', result, hroute, hshows, hread⟩

/-- The colour of a pixel, asked for over the network with one byte too many. -/
theorem call_shows_pixel : ∃ s' result,
    route true (Service.start (some fun _ => Led.red)) Method.pixel.key
      (packArgs Method.pixel.params (⟨3, by decide⟩, ⟨5, by decide⟩, ()) ++ [7]) =
        some (s', result) ∧
    Shows 16 32 (initialImage fun _ => Led.red) s' Panel.start ∧
    Method.pixel.read result = .ok (.color Led.red) := by
  obtain ⟨s', result, hroute, hshows, hread⟩ := @call_shows true _ _ _
    (shows_start fun _ => Led.red) .pixel (⟨3, by decide⟩, ⟨5, by decide⟩, ()) (by decide)
    ⟨⟨by decide, by decide⟩, by decide, by decide⟩ [7]
  exact ⟨s', result, hroute, hshows, Option.some.inj hread⟩

/-! ## All calls -/

/-- The request of a call that the server accepts. -/
def requestOf (call : Call) : Option Request := do
  let m ← invokers call.funcId
  let args ← unpackArgs m.params call.data
  some (m.request args)

theorem requestOf_unknown {call : Call} (h : invokers call.funcId = none) :
    requestOf call = none := by
  simp [requestOf, h]

theorem requestOf_rejected {call : Call} {m : Method} (h : invokers call.funcId = some m)
    (hargs : unpackArgs m.params call.data = none) : requestOf call = none := by
  simp [requestOf, h, hargs]

theorem requestOf_args {call : Call} {m : Method} {args : Args m.params}
    (h : invokers call.funcId = some m) (hargs : unpackArgs m.params call.data = some args) :
    requestOf call = some (m.request args) := by
  simp [requestOf, h, hargs]

namespace Entry

variable {ι : Type}

/-- What the entry does to the panel. -/
def event? : Entry ι → Option ServerEvent
  | .handled _ call _ => (requestOf call).map .request
  | .background => some .tick

/-- The panel after an entry. A call that is not accepted changes nothing. -/
def next (p : Panel) (e : Entry ι) : Panel := e.event?.elim p (p.step 16 32)

def Admissible (p : Panel) (e : Entry ι) : Prop := ∀ ev ∈ e.event?, p.Admissible 16 32 ev

/-- The client reads from the result what the panel answers. -/
def Answered (initial : Int × Int → LedColor) (p : Panel) : Entry ι → Prop
  | .handled _ call result =>
    match invokers call.funcId with
    | some m => some (m.read result) = answer initial p m call.data
    | none => ∀ m : Method, m.read result = .error (.logicError
        (bytesOf "unknown function: " ++ toDecimal call.funcId.toNat))
  | .background => True

variable {call : Call} {req : Request} {p : Panel} {i : ι} {result : List UInt8}
  {initial : Int × Int → LedColor} {m : Method}

/-- A call that is not accepted. -/
theorem next_of_none (h : requestOf call = none) : next p (.handled i call result) = p := by
  simp [next, event?, h]

theorem next_of_some (h : requestOf call = some req) :
    next p (.handled i call result) = p.next 16 32 req := by
  simp [next, event?, h, Panel.step]

theorem admissible_iff (h : requestOf call = some req) :
    Admissible p (.handled i call result) ↔ p.Admissible 16 32 (.request req) := by
  simp [Admissible, event?, h]

theorem answered_iff (h : invokers call.funcId = some m) :
    Answered initial p (.handled i call result) ↔
      some (m.read result) = answer initial p m call.data := by
  simp [Answered, h]

theorem answered_unknown (h : invokers call.funcId = none) :
    Answered initial p (.handled i call result) ↔ ∀ m : Method, m.read result =
      .error (.logicError (bytesOf "unknown function: " ++ toDecimal call.funcId.toNat)) := by
  simp [Answered, h]

end Entry

/-- A call that the service handles is answered by the panel that it shows. -/
theorem handled_shows {ι : Type} {signed : Bool} {initial : Int × Int → LedColor} {s : Service}
    {p : Panel} (hs : Shows 16 32 initial s p) (i : ι) {call : Call} {r : Service × List UInt8}
    (hr : route signed s call.funcId call.data = some r)
    (hadm : Entry.Admissible p (.handled i call r.2)) :
    Shows 16 32 initial r.1 (Entry.next p (.handled i call r.2)) ∧
      Entry.Answered initial p (.handled i call r.2) := by
  cases hm : invokers call.funcId with
  | none =>
    obtain rfl := Option.some.inj ((route_unknown hm call.data).symm.trans hr)
    rw [Entry.next_of_none (requestOf_unknown hm), Entry.answered_unknown hm]
    exact ⟨hs, fun m => m.read_packError (route_length hr).2⟩
  | some m =>
    rw [← key_of_invokers hm] at hr
    rw [Entry.answered_iff hm]
    cases hargs : unpackArgs m.params call.data with
    | none =>
      obtain rfl := Option.some.inj ((route_rejected hargs).symm.trans hr)
      rw [Entry.next_of_none (requestOf_rejected hm hargs), answer_rejected hargs]
      exact ⟨hs, congrArg some (m.read_packError (route_length hr).2)⟩
    | some args =>
      have hreq := requestOf_args hm hargs
      obtain ⟨s', result, hroute, hshows, hread⟩ :=
        route_shows hs hargs ((Entry.admissible_iff hreq).mp hadm)
      obtain rfl := Option.some.inj (hroute.symm.trans hr)
      rw [Entry.next_of_some hreq]
      exact ⟨hshows, hread⟩

/-- A call is handled, if the panel admits the request that it makes. -/
theorem route_isSome {signed : Bool} {initial : Int × Int → LedColor} {s : Service} {p : Panel}
    (hs : Shows 16 32 initial s p) {call : Call}
    (hadm : ∀ req ∈ requestOf call, p.Admissible 16 32 (.request req)) :
    (route signed s call.funcId call.data).isSome := by
  cases hm : invokers call.funcId with
  | none =>
    rw [route_unknown hm]
    rfl
  | some m =>
    rw [← key_of_invokers hm]
    cases hargs : unpackArgs m.params call.data with
    | none =>
      rw [route_rejected hargs]
      rfl
    | some args =>
      have hreq := hadm _ (requestOf_args hm hargs)
      obtain ⟨s', result, hroute, -⟩ := @route_shows signed _ _ _ hs _ _ _ hargs hreq
      rw [hroute]
      rfl

/-- A request leaves the size of the strip and of its buffer. -/
theorem kept_after_request (signed : Bool) (s : Service) (req : Request) :
    WS2811Strip.Kept s.strip (s.after signed req).strip := by
  rcases after_cases signed s req with ⟨op, hop⟩ | hsame
  · rw [hop]
    exact WS2811Strip.kept_after op s.strip
  · rw [hsame]
    exact .refl _

namespace Net

theorem sendable_route (signed : Bool) : Sendable (route signed) := by
  intro s funcId data r hr
  obtain ⟨hpos, hlen⟩ := route_length hr
  exact ⟨List.ne_nil_of_length_pos hpos, hlen⟩

/-- A client has called `width`, while another peer has sent what no client sends. -/
theorem reachable_width : ∃ n : Net Bool Service,
    Reachable (route true) Service.tick (· = true) (Service.start (some fun _ => Led.red)) n ∧
    n.log = [.handled true ⟨1, Method.width.key, [144]⟩ [146, 0, 16]] ∧
    Run.Each Entry.next Entry.Admissible Panel.start n.log ∧
    (n.link true).Open ∧ (n.link true).Quiet ∧ (n.link true).received.2 = [] := by
  have hkey : Method.width.key = 3937281702 := by decide +kernel
  have hargs : unpackArgs Method.width.params [144] = some () := by decide
  have hroute := @route_args true .width (Service.start (some fun _ => Led.red)) _ [146, 0, 16] _
    hargs rfl (by decide)
  have hinvokers := invokers_key .width
  have hreq := @requestOf_args ⟨1, Method.width.key, [144]⟩ .width () hinvokers hargs
  have hadm : Entry.Admissible Panel.start (.handled true ⟨1, Method.width.key, [144]⟩
    [146, 0, 16]) := (Entry.admissible_iff hreq).mpr trivial
  rw [hkey] at hroute hadm ⊢
  have start : Reachable (route true) Service.tick (· = true)
      (Service.start (some fun _ => Led.red)) _ := .start (fun _ : Bool => 0) (fun _ => 0)
  have sent := start.step (.send false (List.replicate 20 7) (by decide))
  have reserved := sent.step (.reserve true 3937281702 [144] (by decide) (by decide) (by decide))
  have called := reserved.step (.call true ⟨1, 3937281702, [144]⟩ (0, 0) (by decide))
  have written := called.step (.clientWrite true 21 rfl)
  have header := written.step (.serverRead true (by decide) rfl)
  have served := header.step (.serve true ⟨1, 3937281702, [144]⟩ (0, 0) (by decide) rfl hroute)
  have replied := served.step (.serverWrite true 23 rfl)
  have arrived := replied.step (.clientRead true (by decide))
  have finished := arrived.step (.clientRead true (by decide))
  exact ⟨_, finished, rfl, ⟨hadm, trivial⟩, ⟨rfl, rfl, rfl, nofun⟩,
    ⟨rfl, by decide, rfl, by decide⟩, rfl⟩

/-- The service that has done the entries of the log shows the panel after them. -/
theorem Executes.shows {ι : Type} {signed : Bool} {initial : Int × Int → LedColor}
    {s₀ s : Service} {p : Panel} {log : List (Entry ι)}
    (h : Executes (route signed) Service.tick s₀ log s) (hs : Shows 16 32 initial s₀ p)
    (hadm : Run.Each Entry.next Entry.Admissible p log) :
    Shows 16 32 initial s (log.foldl Entry.next p) ∧
      Run.Each Entry.next (Entry.Answered initial) p log := by
  induction h with
  | start => exact ⟨hs, trivial⟩
  | handled h i hr ih =>
    rw [Run.each_concat] at hadm ⊢
    obtain ⟨hshows, hanswered⟩ := ih hadm.1
    obtain ⟨hnext, hanswer⟩ := handled_shows hshows i hr hadm.2
    rw [List.foldl_concat]
    exact ⟨hnext, hanswered, hanswer⟩
  | background h hround ih =>
    rw [Run.each_concat] at hadm ⊢
    obtain ⟨hshows, hanswered⟩ := ih hadm.1
    rw [List.foldl_concat, eq_of_tick hround]
    exact ⟨hshows, hanswered, trivial⟩

/-- What the service has done leaves the size of the strip and of its buffer. -/
theorem Executes.kept {ι : Type} {signed : Bool} {s₀ s : Service} {log : List (Entry ι)}
    (h : Executes (route signed) Service.tick s₀ log s) : WS2811Strip.Kept s₀.strip s.strip := by
  induction h with
  | start => exact .refl _
  | handled h i hr ih =>
    rcases route_service hr with hsame | ⟨req, hreq⟩
    · rw [hsame]
      exact ih
    · rw [hreq]
      exact ih.trans (kept_after_request signed _ req)
  | background h hround ih =>
    rw [eq_of_tick hround]
    exact ih

/-- **The strip keeps its shape.** Handlers and rounds do not overlap (`Step`). Whatever bytes the
peers send and however `init` went, in every state that is reached the strip has the size and the
number of LEDs of the beginning, its fields fit together, and its buffer has as many cells as ever.
A call or a round that has no defined behaviour leads to no state. -/
theorem Reachable.strip_kept {ι : Type} [DecidableEq ι] {isClient : ι → Prop} {signed : Bool}
    {cells : Option (Nat → LedColor)} {n : Net ι Service}
    (h : Reachable (route signed) Service.tick isClient (Service.start cells) n) :
    WS2811Strip.Kept (Service.start cells).strip n.service.strip ∧ n.service.strip.Sound := by
  have hkept := (h.inv (sendable_route signed)).1.kept
  exact ⟨hkept, hkept.sound
    ((WS2811Strip.sound_make (by decide) (by decide) (by decide) _).init cells)⟩

theorem strip_kept_width : ∃ n : Net Bool Service,
    Reachable (route true) Service.tick (· = true) (Service.start (some fun _ => Led.red)) n ∧
    n.log ≠ [] ∧
    WS2811Strip.Kept (Service.start (some fun _ => Led.red)).strip n.service.strip ∧
    n.service.strip.Sound := by
  obtain ⟨n, hn, hlog, -⟩ := reachable_width
  refine ⟨n, hn, ?_, hn.strip_kept⟩
  rw [hlog]
  exact List.cons_ne_nil _ _

/-- **Clients share one panel.** Handlers and rounds do not overlap (`Step`). In every state that is
reached, whatever the order of the steps and the sizes of the pieces, the calls of all clients have
been done on one panel, one after the other and those of one client in the order in which they were
written; the service shows that panel. What a client reads of a result is what the panel answered to
the call, and its promises have been set to the results of its own calls, in order, but for a last
one that it failed to read. -/
theorem Reachable.panel {ι : Type} [DecidableEq ι] {isClient : ι → Prop} {signed : Bool}
    {cells : Nat → LedColor} {n : Net ι Service}
    (h : Reachable (route signed) Service.tick isClient (Service.start (some cells)) n)
    (hadm : Run.Each Entry.next Entry.Admissible Panel.start n.log) :
    Shows 16 32 (initialImage cells) n.service (n.log.foldl Entry.next Panel.start) ∧
    Run.Each Entry.next (Entry.Answered (initialImage cells)) Panel.start n.log ∧
    ∀ i, isClient i → (servedOn i n.log).map Prod.fst <+: (n.link i).calls ∧
      ((n.link i).client.reading ≠ .stopped →
        (n.link i).client.results <+: (servedOn i n.log).map Served.response) ∧
      Link.Delivered (n.link i).client.results ((servedOn i n.log).map Served.response) := by
  obtain ⟨hexec, hlinks⟩ := h.inv (sendable_route signed)
  obtain ⟨hshows, hanswered⟩ := hexec.shows (shows_start cells) hadm
  refine ⟨hshows, hanswered, fun i hclient => ?_⟩
  have hlink := hlinks i hclient
  exact ⟨hlink.served_isPrefix, fun hreads => (hlink.waits hreads).results_isPrefix,
    hlink.delivered⟩

theorem panel_width : ∃ n : Net Bool Service,
    Reachable (route true) Service.tick (· = true) (Service.start (some fun _ => Led.red)) n ∧
    n.log = [.handled true ⟨1, Method.width.key, [144]⟩ [146, 0, 16]] ∧
    Run.Each Entry.next Entry.Admissible Panel.start n.log ∧
    Run.Each Entry.next (Entry.Answered (initialImage fun _ => Led.red)) Panel.start n.log := by
  obtain ⟨n, hn, hlog, hadm, -⟩ := reachable_width
  exact ⟨n, hn, hlog, hadm, (hn.panel hadm).2.1⟩

/-- **Every admissible call is answered**, as long as handlers and rounds do not overlap (`Step`). A
client whose calls ask for what the panel admits has all its replies once no step of the programs is
left on its connection. -/
theorem Reachable.panel_answers {ι : Type} [DecidableEq ι] {isClient : ι → Prop} {signed : Bool}
    {cells : Nat → LedColor} {n : Net ι Service}
    (h : Reachable (route signed) Service.tick isClient (Service.start (some cells)) n)
    (hadm : Run.Each Entry.next Entry.Admissible Panel.start n.log) {i : ι} (hclient : isClient i)
    (hopen : (n.link i).Open) (hstop : ∀ n', ¬ Internal (route signed) i n n')
    (hnext : ∀ call, (n.link i).received.2 = [call] → ∀ req ∈ requestOf call,
      (n.log.foldl Entry.next Panel.start).Admissible 16 32 (.request req)) :
    (servedOn i n.log).map Prod.fst = (n.link i).calls ∧
    (n.link i).client.results = (servedOn i n.log).map Served.response ∧
    (n.link i).client.futureMap.Perm ((n.link i).client.started.map Call.reqId) := by
  rcases quiet_or_undefined hstop with hquiet | ⟨call, hcall, hundefined⟩
  · exact h.answered (sendable_route signed) hclient hopen hquiet
  · have hexec := (h.inv (sendable_route signed)).1
    obtain ⟨hshows, -⟩ := hexec.shows (shows_start cells) hadm
    have hsome := @route_isSome signed _ _ _ hshows _ (hnext call hcall)
    rw [hundefined] at hsome
    cases hsome

theorem panel_answers_width : ∃ n : Net Bool Service,
    Reachable (route true) Service.tick (· = true) (Service.start (some fun _ => Led.red)) n ∧
    Run.Each Entry.next Entry.Admissible Panel.start n.log ∧ (n.link true).Open ∧
    (∀ n', ¬ Internal (route true) true n n') ∧
    (n.link true).client.results = [⟨1, [146, 0, 16]⟩] := by
  obtain ⟨n, hn, hlog, hadm, hopen, hquiet, hnone⟩ := reachable_width
  have hstop : ∀ n', ¬ Internal (route true) true n n' := fun n' h => h.not_quiet hquiet
  have hresults := (hn.panel_answers hadm rfl hopen hstop fun call hcall => by
    rw [hnone] at hcall
    cases hcall).2.1
  refine ⟨n, hn, hadm, hopen, hstop, ?_⟩
  rw [hresults, hlog]
  rfl

end Net

end RestRpc
