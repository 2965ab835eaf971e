import Ws2812Strip.Rpc.Connection
import Mathlib.Data.List.Infix
import Mathlib.Logic.Function.Basic

/-!
# Clients and a server

Any number of peers, each on a connection of its own, and a server. Some of the peers are clients
that use `rpc_client`; the others send what they like. Bytes travel in order, in pieces of any size.
Any read or write of either end may fail at any time.

A handler, and a round of the render thread, is one step: they do not overlap. The program does not
see to that. Its `io_service_pool` has a thread for each core, each connection is served by one of
them, and nothing keeps the handlers of two connections, or a handler and the render thread, apart;
what they do to each other is not in this model.

* `Net.Step`: what can happen next. The service itself, `handle`, is any partial function, and so is
  a round, `background`: they need not be defined everywhere.
* `Link.Inv`: how the bytes on the way, the promises and the results of a connection belong
  together, with a lemma for each function that changes a connection.
-/

namespace RestRpc

open Function

/-! ## The parties -/

/-- `rpc_client`, as far as futures go. -/
structure Client where
  fuId : UInt64
  /-- The calls of threads that have their id, and have not written their message yet. -/
  started : List Call
  /-- The keys of `future_map_`. -/
  futureMap : List UInt64
  /-- Of each message, the bytes that are not written yet. -/
  outbox : List (List UInt8)
  /-- The socket takes the bytes that `async_write` has for it. -/
  writing : Bool
  reading : ClientReading
  /-- `has_connected_` -/
  connected : Bool
  /-- The values that `call_back` has set. -/
  results : List Response

/-- A client, the server's end of its connection, and the bytes between them. -/
structure Link where
  client : Client
  conn : Connection
  /-- Of each message, the bytes that are not written yet. -/
  writeQueue : List (List UInt8)
  up : List UInt8
  down : List UInt8
  /-- The server's socket is open. -/
  isOpen : Bool
  /-- The calls that have been written, in that order. The program does not keep them. -/
  calls : List Call

/-- The first message of a queue gives up to `k` bytes; a message that is written goes. -/
def writeSome (k : Nat) : List (List UInt8) → List UInt8 × List (List UInt8)
  | [] => ([], [])
  | m :: ms => (m.take k, if m.length ≤ k then ms else m.drop k :: ms)

theorem writeSome_flatten (k : Nat) (queue : List (List UInt8)) :
    (writeSome k queue).1 ++ (writeSome k queue).2.flatten = queue.flatten := by
  cases queue with
  | nil => rfl
  | cons m ms =>
    simp only [writeSome]
    split
    · rename_i h
      rw [List.take_of_length_le h, List.flatten_cons]
    · rw [List.flatten_cons, ← List.append_assoc, List.take_append_drop, List.flatten_cons]

namespace Link

/-- `async_call<FUTURE>`, up to the message. -/
def reserve (funcId : UInt32) (data : List UInt8) (l : Link) : Link :=
  let id := l.client.fuId + 1
  { l with client := { l.client with
    fuId := id
    started := l.client.started ++ [⟨id, funcId, data⟩]
    futureMap := l.client.futureMap ++ [id] } }

/-- A message joins the queue of the client. -/
def enqueue (m : Message) (l : Link) : Link :=
  { l with client := { l.client with outbox := l.client.outbox ++ [m.bytes] } }

/-- `async_call<FUTURE>`: the call's message is written. -/
def call (call : Call) (pad : UInt8 × UInt8) (l : Link) : Link :=
  let l := { l with
    client := { l.client with started := l.client.started.erase call }
    calls := l.calls ++ [call] }
  l.enqueue ⟨call.reqId, REQ_RES, call.funcId, call.data, pad⟩

/-- The message of `enable_auto_heartbeat`. -/
def heartbeat (pad : UInt8 × UInt8) (l : Link) : Link := l.enqueue ⟨0, REQ_RES, 0, [], pad⟩

/-- The client's socket takes some bytes. -/
def clientWrite (k : Nat) (l : Link) : Link :=
  let w := writeSome k l.client.outbox
  { l with client := { l.client with outbox := w.2 }, up := l.up ++ w.1 }

/-- The server's socket takes some bytes. -/
def serverWrite (k : Nat) (l : Link) : Link :=
  let w := writeSome k l.writeQueue
  { l with writeQueue := w.2, down := l.down ++ w.1 }

/-- What the server's end does with the bytes that it waits for. -/
def received (l : Link) : Connection × List Call := l.conn.step (l.up.take l.conn.need)

/-- The server's end has read. It closes the socket after a header that is none. -/
def serverRead (l : Link) : Link :=
  { l with
    conn := l.received.1
    up := l.up.drop l.conn.need
    isOpen := l.isOpen && decide (l.received.1.reading ≠ .closed) }

/-- `connection::response` -/
def response (reqId : UInt64) (result : List UInt8) (pad : UInt8 × UInt8) (l : Link) : Link :=
  let m : Message := ⟨reqId, REQ_RES, 0, result, pad⟩
  { l with writeQueue := l.writeQueue ++ [m.bytes] }

/-- What the client does with the bytes that it waits for. -/
def arrived (l : Link) : ClientReading × List Response :=
  l.client.reading.step (l.down.take l.client.reading.need)

/-- The client has read: `call_back` sets the promise of each response. It would `close` after a
message that is no response; the server sends none. -/
def clientRead (l : Link) : Link :=
  { l with
    client := { l.client with
      reading := l.arrived.1
      futureMap := l.arrived.2.foldl (fun ids r => ids.erase r.reqId) l.client.futureMap
      results := l.client.results ++ l.arrived.2 }
    down := l.down.drop l.client.reading.need }

/-- A peer sends bytes. -/
def send (bytes : List UInt8) (l : Link) : Link := { l with up := l.up ++ bytes }

/-! ### When a connection breaks -/

/-- `close` of the client, with `clear_cache`. What has been written is still on the way. If it was
reading a body, the aborted read calls `call_back`, which fails its assertion: the promise is
gone. -/
def close (l : Link) : Link :=
  { l with client := { l.client with
    futureMap := []
    outbox := []
    writing := false
    reading := .stopped
    connected := false } }

/-- A write of the client fails. `has_connected_` is false before `close` asks for it, so `close`
does nothing, and the client goes on reading. -/
def writeFailed (l : Link) : Link :=
  { l with client := { l.client with writing := false, connected := false } }

/-- The client fails to read a header: `close`, if no write has failed before. -/
def headFailed (l : Link) : Link :=
  if l.client.connected then l.close else { l with client := { l.client with reading := .stopped } }

/-- The client fails to read the body of a response: `call_back` sets its promise to an empty
result. `has_connected_` is false before `close` asks for it. -/
def bodyFailed (reqId : UInt64) (l : Link) : Link :=
  { l with client := { l.client with
    futureMap := l.client.futureMap.erase reqId
    reading := .stopped
    connected := false
    results := l.client.results ++ [⟨reqId, []⟩] } }

/-- `close` of the server's end: after a write that fails, and when its timer has run out. -/
def serverClose (l : Link) : Link :=
  { l with conn := { l.conn with reading := .closed }, isOpen := false }

/-- The server's end fails to read. The handler of `read_body` does not close the socket. -/
def serverFailed (l : Link) : Link :=
  if l.conn.reading = .head then l.serverClose
  else { l with conn := { l.conn with reading := .closed } }

/-- A connection that has just been made. -/
def start (reqId : UInt64) (reqType : UInt8) : Link where
  client := ⟨0, [], [], [], true, .head, true, []⟩
  conn := .start reqId reqType
  writeQueue := []
  up := []
  down := []
  isOpen := true
  calls := []

end Link

/-- What the server has done. -/
inductive Entry (ι : Type) where
  | handled (i : ι) (call : Call) (result : List UInt8)
  /-- A round of a thread of the program itself. -/
  | background

structure Net (ι σ : Type) where
  service : σ
  link : ι → Link
  /-- The program does not keep it. -/
  log : List (Entry ι)

namespace Net

variable {ι σ : Type} [DecidableEq ι] (handle : σ → UInt32 → List UInt8 → Option (σ × List UInt8))
  (background : σ → Option σ) (isClient : ι → Prop)

def setLink (i : ι) (l : Link) (n : Net ι σ) : Net ι σ := { n with link := update n.link i l }

/-- The server handles a call: `route`. -/
def serve (i : ι) (call : Call) (pad : UInt8 × UInt8) (r : σ × List UInt8) (n : Net ι σ) :
    Net ι σ where
  service := r.1
  link := update n.link i ((n.link i).serverRead.response call.reqId r.2 pad)
  log := n.log ++ [.handled i call r.2]

/-- What can happen. A handler that is called returns before anything else happens, and so does a
round of the program. A peer that is not a client may send any bytes. A client numbers its futures
below `2 ^ 63`; `call_back` takes the ids from there on for callbacks. -/
inductive Step : Net ι σ → Net ι σ → Prop
  | reserve {n : Net ι σ} (i : ι) (funcId : UInt32) (data : List UInt8) (hne : data ≠ [])
    (hfits : data.length < MAX_BUF_LEN) (hid : (n.link i).client.fuId.toNat + 1 < 2 ^ 63) :
    Step n (n.setLink i ((n.link i).reserve funcId data))
  | call {n : Net ι σ} (i : ι) (call : Call) (pad : UInt8 × UInt8)
    (hcall : call ∈ (n.link i).client.started) : Step n (n.setLink i ((n.link i).call call pad))
  | heartbeat {n : Net ι σ} (i : ι) (pad : UInt8 × UInt8)
    (hconnected : (n.link i).client.connected = true) :
    Step n (n.setLink i ((n.link i).heartbeat pad))
  | clientWrite {n : Net ι σ} (i : ι) (k : Nat) (hwriting : (n.link i).client.writing = true) :
    Step n (n.setLink i ((n.link i).clientWrite k))
  | serverWrite {n : Net ι σ} (i : ι) (k : Nat) (hopen : (n.link i).isOpen = true) :
    Step n (n.setLink i ((n.link i).serverWrite k))
  | serverRead {n : Net ι σ} (i : ι)
    (hready : Connection.reader.Ready (n.link i).conn (n.link i).up)
    (hcalls : (n.link i).received.2 = []) : Step n (n.setLink i (n.link i).serverRead)
  | serve {n : Net ι σ} (i : ι) (call : Call) (pad : UInt8 × UInt8) {r : σ × List UInt8}
    (hready : Connection.reader.Ready (n.link i).conn (n.link i).up)
    (hcalls : (n.link i).received.2 = [call])
    (hhandle : handle n.service call.funcId call.data = some r) : Step n (n.serve i call pad r)
  | clientRead {n : Net ι σ} (i : ι) (hready : 0 < (n.link i).client.reading.need ∧
      (n.link i).client.reading.need ≤ (n.link i).down.length) :
    Step n (n.setLink i (n.link i).clientRead)
  | send {n : Net ι σ} (i : ι) (bytes : List UInt8) (hpeer : ¬ isClient i) :
    Step n (n.setLink i ((n.link i).send bytes))
  | background {n : Net ι σ} {s : σ} (hround : background n.service = some s) :
    Step n { n with service := s, log := n.log ++ [.background] }
  | close {n : Net ι σ} (i : ι) (hconnected : (n.link i).client.connected = true) :
    Step n (n.setLink i (n.link i).close)
  | writeFailed {n : Net ι σ} (i : ι) (houtbox : (n.link i).client.outbox ≠ []) :
    Step n (n.setLink i (n.link i).writeFailed)
  | headFailed {n : Net ι σ} (i : ι) (hhead : (n.link i).client.reading = .head) :
    Step n (n.setLink i (n.link i).headFailed)
  | bodyFailed {n : Net ι σ} (i : ι) {reqId : UInt64} {reqType : UInt8} {size : Nat}
    (hbody : (n.link i).client.reading = .body reqId reqType size) :
    Step n (n.setLink i ((n.link i).bodyFailed reqId))
  | serverClose {n : Net ι σ} (i : ι) : Step n (n.setLink i (n.link i).serverClose)
  | serverFailed {n : Net ι σ} (i : ι) : Step n (n.setLink i (n.link i).serverFailed)

/-- The states that lead from a service `s₀` and new connections. -/
inductive Reachable (s₀ : σ) : Net ι σ → Prop
  | start (reqId : ι → UInt64) (reqType : ι → UInt8) :
    Reachable s₀ ⟨s₀, fun i => .start (reqId i) (reqType i), []⟩
  | step {n n' : Net ι σ} (h : Reachable s₀ n) (hs : Step handle background isClient n n') :
    Reachable s₀ n'

end Net

/-! ## One connection -/

namespace Connection

/-- A message that is sent after the others. -/
theorem Pending.concat {c : Connection} {ms : List Message} {bytes : List UInt8}
    (h : c.Pending ms bytes) (m : Message) : c.Pending (ms ++ [m]) (bytes ++ m.bytes) := by
  obtain ⟨reading, reqId, reqType⟩ := c
  cases reading with
  | closed => exact h.elim
  | head =>
    have hbytes : bytes = ms.flatMap Message.bytes := h
    subst hbytes
    simp [Pending]
  | body funcId size =>
    obtain ⟨m', ms', rfl, hne, rfl, rfl, rfl, rfl, rfl⟩ := h
    exact ⟨m', ms' ++ [m], rfl, hne, rfl, rfl, rfl, rfl, by simp⟩

theorem Pending.not_closed {c : Connection} {ms : List Message} {bytes : List UInt8}
    (h : c.Pending ms bytes) : c.reading ≠ .closed := by
  intro hclosed
  unfold Pending at h
  rwa [hclosed] at h

/-- A connection that goes on is not closed. -/
theorem not_closed_of_ready {c : Connection} {buf : List UInt8} (h : reader.Ready c buf) :
    c.reading ≠ .closed := by
  intro hclosed
  have hpos := h.1
  simp [reader, need, hclosed] at hpos

end Connection

namespace ClientReading

theorem Pending.concat {reading : ClientReading} {ms : List Message} {bytes : List UInt8}
    (h : reading.Pending ms bytes) (m : Message) :
    reading.Pending (ms ++ [m]) (bytes ++ m.bytes) := by
  cases reading with
  | stopped => exact h.elim
  | head =>
    have hbytes : bytes = ms.flatMap Message.bytes := h
    subst hbytes
    simp [Pending]
  | body reqId reqType size =>
    obtain ⟨m', ms', rfl, rfl, rfl, rfl, rfl⟩ := h
    exact ⟨m', ms' ++ [m], rfl, rfl, rfl, rfl, by simp⟩

theorem Pending.ne_stopped {reading : ClientReading} {ms : List Message} {bytes : List UInt8}
    (h : reading.Pending ms bytes) : reading ≠ .stopped := by
  rintro rfl
  exact h

/-- A client that goes on has not stopped. -/
theorem ne_stopped_of_need {reading : ClientReading} (h : 0 < reading.need) :
    reading ≠ .stopped := by
  rintro rfl
  cases h

end ClientReading

/-- A call that the server has handled, and its result. -/
abbrev Served := Call × List UInt8

/-- The response that belongs to a call. -/
def Served.response (s : Served) : Response := ⟨s.1.reqId, s.2⟩

namespace Link

/-- Promises have been set to the replies, in their order. If the body of a reply could not be read,
its promise has an empty result, and none is set after it. -/
def Delivered (results replies : List Response) : Prop :=
  results <+: replies ∨
    ∃ rs r, results = rs ++ [⟨r.reqId, []⟩] ∧ rs ++ [r] <+: replies

theorem Delivered.mono {results replies replies' : List Response} (h : Delivered results replies)
    (hle : replies <+: replies') : Delivered results replies' := by
  rcases h with h | ⟨rs, r, rfl, h⟩
  · exact .inl (h.trans hle)
  · exact .inr ⟨rs, r, rfl, h.trans hle⟩

/-- The calls that a server's end that reads has still to read. What follows the bytes on the way is
the queue of the client, as long as that can write. -/
def Sends (l : Link) (served : List Served) : Prop :=
  ∃ (ms : List Message) (rest : List UInt8), (∀ m ∈ ms, m.Fits) ∧
    l.calls = served.map Prod.fst ++ ms.filterMap Connection.call? ∧
    l.conn.Pending ms (l.up ++ rest) ∧
    (l.client.writing = true → rest = l.client.outbox.flatten)

/-- The replies that a client that reads has still to read, and the promises that wait. -/
structure Waits (l : Link) (served : List Served) : Prop where
  down : ∃ ms : List Message, (∀ m ∈ ms, ClientReading.Reply m) ∧
    served.map Served.response = l.client.results ++ ms.map ClientReading.response ∧
    l.client.reading.Pending ms (l.down ++ l.writeQueue.flatten)
  futures : l.client.futureMap.Perm
    ((l.client.started ++ l.calls.drop l.client.results.length).map Call.reqId)

/-- The calls `served` of a connection have been handled, in this order. -/
structure Inv (l : Link) (served : List Served) : Prop where
  ids_le : ∀ c ∈ l.client.started ++ l.calls, c.reqId.toNat ≤ l.client.fuId.toNat
  ids_nodup : ((l.client.started ++ l.calls).map Call.reqId).Nodup
  started_fits : ∀ c ∈ l.client.started, c.data ≠ [] ∧ c.data.length < MAX_BUF_LEN
  served_isPrefix : served.map Prod.fst <+: l.calls
  delivered : Delivered l.client.results (served.map Served.response)
  connected : l.client.connected = true →
    l.client.writing = true ∧ l.client.reading ≠ .stopped
  sends : l.conn.reading ≠ .closed → l.Sends served
  waits : l.client.reading ≠ .stopped → l.Waits served

variable {l : Link} {served : List Served}

theorem inv_start (reqId : UInt64) (reqType : UInt8) : (start reqId reqType).Inv [] where
  ids_le := by simp [start]
  ids_nodup := by simp [start]
  started_fits := by simp [start]
  served_isPrefix := List.nil_prefix
  delivered := .inl List.nil_prefix
  connected _ := ⟨rfl, nofun⟩
  sends _ := ⟨[], [], by simp, rfl, rfl, fun _ => rfl⟩
  waits _ := ⟨⟨[], by simp, rfl, rfl⟩, .refl _⟩

/-- A client that reads has set its promises to the replies. -/
theorem Waits.results_isPrefix (h : l.Waits served) :
    l.client.results <+: served.map Served.response := by
  obtain ⟨ms, -, hresults, -⟩ := h.down
  exact ⟨_, hresults.symm⟩

theorem Inv.results_le (h : l.Inv served) (hw : l.Waits served) :
    l.client.results.length ≤ l.calls.length := by
  have hresults := hw.results_isPrefix.length_le
  have hserved := h.served_isPrefix.length_le
  rw [List.length_map] at hresults hserved
  omega

/-! ### Calls -/

/-- A thread takes an id that no call has. -/
theorem Inv.reserve (h : l.Inv served) {funcId : UInt32} {data : List UInt8} (hne : data ≠ [])
    (hfits : data.length < MAX_BUF_LEN) (hid : l.client.fuId.toNat + 1 < 2 ^ 63) :
    (l.reserve funcId data).Inv served := by
  have hnew : (l.client.fuId + 1).toNat = l.client.fuId.toNat + 1 := by
    rw [UInt64.toNat_add]
    exact Nat.mod_eq_of_lt (by simp; omega)
  set c : Call := ⟨l.client.fuId + 1, funcId, data⟩ with hc
  have hperm : ∀ cs : List Call, (l.client.started ++ [c] ++ cs).Perm
      (c :: (l.client.started ++ cs)) := by
    intro cs
    rw [List.append_assoc, List.singleton_append]
    exact List.perm_middle
  refine ⟨?_, ?_, ?_, h.served_isPrefix, h.delivered, h.connected, h.sends, fun hreads => ?_⟩
  · intro c' hc'
    have hfu : (l.reserve funcId data).client.fuId.toNat = l.client.fuId.toNat + 1 := hnew
    rw [hfu]
    rcases List.mem_cons.mp ((hperm l.calls).mem_iff.mp hc') with rfl | hold
    · exact hnew.le
    · exact (h.ids_le c' hold).trans (by omega)
  · have hnodup : ((c :: (l.client.started ++ l.calls)).map Call.reqId).Nodup := by
      rw [List.map_cons, List.nodup_cons]
      refine ⟨fun hmem => ?_, h.ids_nodup⟩
      obtain ⟨c', hc', heq⟩ := List.mem_map.mp hmem
      have hle := h.ids_le c' hc'
      have hid' : c'.reqId.toNat = (l.client.fuId + 1).toNat := congrArg UInt64.toNat heq
      omega
    exact ((hperm l.calls).map Call.reqId).nodup_iff.mpr hnodup
  · intro c' hc'
    rcases List.mem_append.mp hc' with hold | hnew'
    · exact h.started_fits c' hold
    · rw [List.mem_singleton] at hnew'
      subst hnew'
      exact ⟨hne, hfits⟩
  · obtain ⟨hdown, hfutures⟩ := h.waits hreads
    refine ⟨hdown, ?_⟩
    refine (hfutures.append_right [c.reqId]).trans ?_
    have hmap := ((hperm (l.calls.drop l.client.results.length)).map Call.reqId).symm
    refine List.Perm.trans ?_ hmap
    rw [List.map_cons]
    exact List.perm_append_singleton _ _

/-- A message joins the queue of the client, and with it what the server's end has to read. -/
theorem Sends.enqueue (h : l.Sends served) {m : Message} (hm : m.Fits) {l' : Link}
    (hclient : l'.client.outbox = (l.enqueue m).client.outbox)
    (hwriting : l'.client.writing = l.client.writing) (hconn : l'.conn = l.conn)
    (hup : l'.up = l.up) (hcalls : l'.calls = l.calls ++ (Connection.call? m).toList) :
    l'.Sends served := by
  obtain ⟨ms, rest, hms, hold, hpending, hrest⟩ := h
  refine ⟨ms ++ [m], rest ++ m.bytes, ?_, ?_, ?_, fun hw => ?_⟩
  · intro m' hm'
    rcases List.mem_append.mp hm' with hold | hnew
    · exact hms m' hold
    · rw [List.mem_singleton] at hnew
      rwa [hnew]
  · rw [hcalls, hold, List.filterMap_append, ← List.append_assoc]
    cases hcall : Connection.call? m <;> simp [hcall]
  · rw [hconn, hup, ← List.append_assoc]
    exact hpending.concat m
  · rw [hclient, hrest (hwriting ▸ hw)]
    simp [Link.enqueue]

theorem Inv.heartbeat (h : l.Inv served) (pad : UInt8 × UInt8) :
    (l.heartbeat pad).Inv served :=
  { h with
    sends hreads := by
      have hfits : Message.Fits ⟨0, REQ_RES, 0, [], pad⟩ := by simp [Message.Fits, MAX_BUF_LEN]
      exact (h.sends hreads).enqueue hfits rfl rfl rfl rfl (List.append_nil _).symm
    waits hreads := ⟨(h.waits hreads).down, (h.waits hreads).futures⟩ }

/-- The message of a call is written. -/
theorem Inv.call (h : l.Inv served) {call : Call} (pad : UInt8 × UInt8)
    (hcall : call ∈ l.client.started) : (l.call call pad).Inv served := by
  have hperm : ∀ cs : List Call, (l.client.started.erase call ++ (cs ++ [call])).Perm
      (l.client.started ++ cs) := by
    intro cs
    have herase := (List.perm_cons_erase hcall).symm
    rw [← List.append_assoc]
    exact (List.perm_append_singleton call _).trans (herase.append_right cs)
  obtain ⟨hne, hfits⟩ := h.started_fits call hcall
  refine ⟨?_, ?_, ?_, h.served_isPrefix.trans (List.prefix_append _ _), h.delivered, h.connected,
    fun hreads => ?_, fun hreads => ?_⟩
  · exact fun c hc => h.ids_le c ((hperm l.calls).mem_iff.mp hc)
  · exact ((hperm l.calls).map Call.reqId).nodup_iff.mpr h.ids_nodup
  · exact fun c hc => h.started_fits c (List.mem_of_mem_erase hc)
  · have hsome : Connection.call? ⟨call.reqId, REQ_RES, call.funcId, call.data, pad⟩ =
        some call := by
      simp [Connection.call?, hne]
    refine (h.sends hreads).enqueue (m := ⟨call.reqId, REQ_RES, call.funcId, call.data, pad⟩) hfits
      rfl rfl rfl rfl ?_
    rw [hsome]
    rfl
  · have hwaits := h.waits hreads
    refine ⟨hwaits.down, ?_⟩
    have hfutures := hwaits.futures.trans
      ((hperm (l.calls.drop l.client.results.length)).map Call.reqId).symm
    rw [← List.drop_append_of_le_length (h.results_le hwaits)] at hfutures
    exact hfutures

/-! ### Bytes -/

theorem Inv.clientWrite (h : l.Inv served) (k : Nat) (hwriting : l.client.writing = true) :
    (l.clientWrite k).Inv served :=
  { h with
    sends hreads := by
      obtain ⟨ms, rest, hms, hcalls, hpending, hrest⟩ := h.sends hreads
      refine ⟨ms, _, hms, hcalls, ?_, fun _ => rfl⟩
      rw [hrest hwriting, ← writeSome_flatten k l.client.outbox, ← List.append_assoc] at hpending
      exact hpending
    waits hreads := ⟨(h.waits hreads).down, (h.waits hreads).futures⟩ }

theorem Inv.serverWrite (h : l.Inv served) (k : Nat) : (l.serverWrite k).Inv served :=
  { h with
    waits hreads := by
      obtain ⟨⟨ms, hms, hresults, hpending⟩, hfutures⟩ := h.waits hreads
      refine ⟨⟨ms, hms, hresults, ?_⟩, hfutures⟩
      rw [← writeSome_flatten k l.writeQueue, ← List.append_assoc] at hpending
      exact hpending }

/-- What the server's end reads, it takes off the calls that are on the way. -/
theorem Sends.received (h : l.Sends served) (hlen : l.conn.need ≤ l.up.length) :
    ∃ (ms : List Message) (rest : List UInt8), (∀ m ∈ ms, m.Fits) ∧
      l.calls = served.map Prod.fst ++ (l.received.2 ++ ms.filterMap Connection.call?) ∧
      l.serverRead.conn.Pending ms (l.serverRead.up ++ rest) ∧
      (l.client.writing = true → rest = l.client.outbox.flatten) := by
  obtain ⟨ms, rest, hms, hcalls, hpending, hrest⟩ := h
  obtain ⟨done, ms', rfl, hdone, hnext⟩ :=
    hpending.step hms (by rw [List.length_append]; omega)
  rw [List.take_append_of_le_length hlen] at hdone hnext
  rw [List.drop_append_of_le_length hlen] at hnext
  refine ⟨ms', rest, fun m hm => hms m (List.mem_append_right _ hm), ?_, hnext, hrest⟩
  rw [hcalls, List.filterMap_append]
  exact congrArg (fun cs => served.map Prod.fst ++ (cs ++ ms'.filterMap Connection.call?))
    hdone.symm

/-- The server's end reads a part of a message that makes no call yet. -/
theorem Inv.serverRead (h : l.Inv served) (hready : Connection.reader.Ready l.conn l.up)
    (hcalls : l.received.2 = []) : l.serverRead.Inv served :=
  { h with
    sends _ := by
      obtain ⟨ms, rest, hms, heq, hpending, hrest⟩ :=
        (h.sends (Connection.not_closed_of_ready hready)).received hready.2
      rw [hcalls, List.nil_append] at heq
      exact ⟨ms, rest, hms, heq, hpending, hrest⟩
    waits hreads := ⟨(h.waits hreads).down, (h.waits hreads).futures⟩ }

/-- The server's end reads a call, which is handled, and answers. -/
theorem Inv.serve (h : l.Inv served) (hready : Connection.reader.Ready l.conn l.up) {call : Call}
    (hcalls : l.received.2 = [call]) {result : List UInt8} (hne : result ≠ [])
    (hfits : result.length < MAX_BUF_LEN) (pad : UInt8 × UInt8) :
    (l.serverRead.response call.reqId result pad).Inv (served ++ [(call, result)]) := by
  obtain ⟨ms, rest, hms, heq, hpending, hrest⟩ :=
    (h.sends (Connection.not_closed_of_ready hready)).received hready.2
  rw [hcalls, ← List.append_assoc] at heq
  have hcallsEq : l.calls =
      (served ++ [(call, result)]).map Prod.fst ++ ms.filterMap Connection.call? := by
    rw [heq, List.map_append]
    rfl
  refine ⟨h.ids_le, h.ids_nodup, h.started_fits, ⟨_, hcallsEq.symm⟩, ?_, h.connected,
    fun _ => ⟨ms, rest, hms, hcallsEq, hpending, hrest⟩, fun hreads => ?_⟩
  · rw [List.map_append]
    exact h.delivered.mono (List.prefix_append _ _)
  · obtain ⟨⟨rs, hrs, hresults, hdown⟩, hfutures⟩ := h.waits hreads
    let m : Message := ⟨call.reqId, REQ_RES, 0, result, pad⟩
    refine ⟨⟨rs ++ [m], ?_, ?_, ?_⟩, hfutures⟩
    · intro m' hm'
      rcases List.mem_append.mp hm' with hold | hnew
      · exact hrs m' hold
      · rw [List.mem_singleton] at hnew
        rw [hnew]
        exact ⟨hfits, hne, rfl⟩
    · rw [List.map_append, hresults, List.map_append, List.append_assoc]
      rfl
    · have hconcat := hdown.concat m
      simpa [Link.response, Link.serverRead] using hconcat

/-- The promises of the responses `rs` are set. -/
theorem perm_foldl_erase {rs : List Response} {ids a b : List UInt64}
    (h : ids.Perm (a ++ (rs.map Response.reqId ++ b))) :
    (rs.foldl (fun ids r => ids.erase r.reqId) ids).Perm (a ++ b) := by
  induction rs generalizing ids with
  | nil => exact h
  | cons r rs ih =>
    refine ih ?_
    have herase := h.erase r.reqId
    rw [List.map_cons, List.cons_append] at herase
    refine herase.trans ((List.perm_middle.erase r.reqId).trans ?_)
    rw [List.erase_cons_head]

/-- What the client reads, it takes off the results that are on the way. -/
theorem Waits.arrived (h : l.Waits served) (hlen : l.client.reading.need ≤ l.down.length) :
    ∃ ms : List Message, (∀ m ∈ ms, ClientReading.Reply m) ∧
      served.map Served.response =
        l.client.results ++ (l.arrived.2 ++ ms.map ClientReading.response) ∧
      l.clientRead.client.reading.Pending ms (l.clientRead.down ++ l.writeQueue.flatten) := by
  obtain ⟨ms, hms, hresults, hpending⟩ := h.down
  obtain ⟨done, ms', rfl, hdone, hnext⟩ :=
    hpending.step hms (by rw [List.length_append]; omega)
  rw [List.take_append_of_le_length hlen] at hdone hnext
  rw [List.drop_append_of_le_length hlen] at hnext
  refine ⟨ms', fun m hm => hms m (List.mem_append_right _ hm), ?_, hnext⟩
  rw [hresults, List.map_append]
  exact congrArg (fun rs => l.client.results ++ (rs ++ ms'.map ClientReading.response)) hdone.symm

/-- The responses that arrive are those of the calls that wait first. -/
theorem Inv.drop_ids (h : l.Inv served) {rs rest : List Response}
    (hserved : served.map Served.response = l.client.results ++ (rs ++ rest)) :
    (l.calls.drop l.client.results.length).map Call.reqId =
      rs.map Response.reqId ++
        (l.calls.drop (l.client.results ++ rs).length).map Call.reqId := by
  obtain ⟨waiting, hcalls⟩ := h.served_isPrefix
  have hids : l.calls.map Call.reqId = l.client.results.map Response.reqId ++
      (rs.map Response.reqId ++ (rest.map Response.reqId ++ waiting.map Call.reqId)) := by
    have hmap := congrArg (List.map Response.reqId) hserved
    rw [List.map_map, List.map_append, List.map_append] at hmap
    rw [← hcalls, List.map_append, List.map_map]
    have hsame : Call.reqId ∘ Prod.fst = Response.reqId ∘ Served.response := rfl
    rw [hsame, hmap, List.append_assoc, List.append_assoc]
  rw [List.map_drop, List.map_drop, hids, List.drop_left' (List.length_map _)]
  congr 1
  rw [← List.append_assoc, List.drop_left' (by simp)]

/-- The client reads: the promises that it sets are those of the calls that wait first. -/
theorem Inv.clientRead (h : l.Inv served) (hready : 0 < l.client.reading.need ∧
    l.client.reading.need ≤ l.down.length) : l.clientRead.Inv served := by
  have hwaits := h.waits (ClientReading.ne_stopped_of_need hready.1)
  obtain ⟨ms, hms, hserved, hpending⟩ := hwaits.arrived hready.2
  have hresults : served.map Served.response =
      l.clientRead.client.results ++ ms.map ClientReading.response := by
    rw [hserved, ← List.append_assoc]
    rfl
  refine ⟨h.ids_le, h.ids_nodup, h.started_fits, h.served_isPrefix, .inl ⟨_, hresults.symm⟩,
    fun hconnected => ⟨(h.connected hconnected).1, hpending.ne_stopped⟩, h.sends,
    fun _ => ⟨⟨ms, hms, hresults, hpending⟩, ?_⟩⟩
  have hfutures := hwaits.futures
  rw [List.map_append, h.drop_ids hserved] at hfutures
  have hset := perm_foldl_erase hfutures
  rwa [← List.map_append] at hset

/-! ### Breaks -/

/-- The server's end reads what has been written before the client writes no more. -/
theorem Sends.silent (h : l.Sends served) {client : Client} (hwriting : client.writing = false) :
    { l with client := client }.Sends served := by
  obtain ⟨ms, rest, hms, hcalls, hpending, -⟩ := h
  refine ⟨ms, rest, hms, hcalls, hpending, fun hw => ?_⟩
  rw [hwriting] at hw
  cases hw

theorem Inv.close (h : l.Inv served) : l.close.Inv served :=
  { h with
    connected := nofun
    sends hreads := (h.sends hreads).silent rfl
    waits hreads := absurd rfl hreads }

theorem Inv.writeFailed (h : l.Inv served) : l.writeFailed.Inv served :=
  { h with
    connected := nofun
    sends hreads := (h.sends hreads).silent rfl
    waits hreads := ⟨(h.waits hreads).down, (h.waits hreads).futures⟩ }

theorem Inv.headFailed (h : l.Inv served) : l.headFailed.Inv served := by
  unfold Link.headFailed
  split
  · exact h.close
  · rename_i hno
    exact { h with
      connected := fun hconnected => absurd hconnected hno
      waits := fun hreads => absurd rfl hreads }

/-- The reply whose body is being read is the one of the call that waits first. -/
theorem Waits.body (h : l.Waits served) {reqId : UInt64} {reqType : UInt8} {size : Nat}
    (hbody : l.client.reading = .body reqId reqType size) :
    ∃ r rest, r.reqId = reqId ∧
      served.map Served.response = l.client.results ++ ([r] ++ rest) := by
  obtain ⟨ms, -, hresults, hpending⟩ := h.down
  rw [hbody] at hpending
  obtain ⟨m, ms', rfl, -, rfl, -, -⟩ := hpending
  exact ⟨ClientReading.response m, ms'.map ClientReading.response, rfl, hresults⟩

theorem Inv.bodyFailed (h : l.Inv served) {reqId : UInt64} {reqType : UInt8} {size : Nat}
    (hbody : l.client.reading = .body reqId reqType size) : (l.bodyFailed reqId).Inv served :=
  { h with
    delivered := by
      obtain ⟨r, rest, rfl, hserved⟩ := (h.waits (by rw [hbody]; nofun)).body hbody
      refine .inr ⟨l.client.results, r, rfl, rest, ?_⟩
      rw [hserved, List.append_assoc]
    connected := nofun
    waits hreads := absurd rfl hreads }

/-- The server's end reads no more; its socket may be closed. -/
theorem Inv.serverStops (h : l.Inv served) (isOpen : Bool) :
    { l with conn := { l.conn with reading := .closed }, isOpen := isOpen }.Inv served :=
  { h with
    sends hreads := absurd rfl hreads
    waits hreads := ⟨(h.waits hreads).down, (h.waits hreads).futures⟩ }

theorem Inv.serverClose (h : l.Inv served) : l.serverClose.Inv served := h.serverStops false

theorem Inv.serverFailed (h : l.Inv served) : l.serverFailed.Inv served := by
  unfold Link.serverFailed
  split
  · exact h.serverClose
  · exact h.serverStops l.isOpen

end Link

end RestRpc
