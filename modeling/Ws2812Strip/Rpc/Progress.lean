import Ws2812Strip.Rpc.Delivery
import Mathlib.Data.Prod.Lex

/-!
# No reply is lost

* `Net.Reachable.answered`: when nothing is left to be written or read on a connection, every call
  on it has its result.
* `Net.Internal`: the steps that the programs take by themselves, but for heartbeats and breaks.
  Each leaves less to do (`Internal.work_lt`), so they come to an end (`finishes`).
-/

namespace RestRpc

open Function

namespace Link

/-- The connection has not broken, at either end. -/
structure Open (l : Link) : Prop where
  connected : l.client.connected = true
  writing : l.client.writing = true
  isOpen : l.isOpen = true
  reads : l.conn.reading ≠ .closed

/-- Nothing is left to be written or read. -/
structure Quiet (l : Link) : Prop where
  outbox : l.client.outbox = []
  up : ¬ Connection.reader.Ready l.conn l.up
  writeQueue : l.writeQueue = []
  down : ¬ (0 < l.client.reading.need ∧ l.client.reading.need ≤ l.down.length)

end Link

/-- Bytes that are not enough for the client are of no reply. -/
theorem ClientReading.Pending.eq_nil {reading : ClientReading} {ms : List Message}
    {bytes : List UInt8} (h : reading.Pending ms bytes) (hms : ∀ m ∈ ms, Reply m)
    (hstuck : ¬ (0 < reading.need ∧ reading.need ≤ bytes.length)) : ms = [] := by
  cases reading with
  | stopped => exact h.elim
  | head =>
    cases ms with
    | nil => rfl
    | cons m ms =>
      have hbytes : bytes = m.bytes ++ ms.flatMap Message.bytes := h
      refine absurd ⟨by simp [need, HEAD_LEN], ?_⟩ hstuck
      rw [hbytes, Message.bytes]
      simp [need]
  | body reqId reqType size =>
    obtain ⟨m, ms', rfl, rfl, -, -, rfl⟩ := h
    have hm := hms m (List.mem_cons_self ..)
    exact absurd ⟨List.length_pos_iff.mpr hm.content_ne_nil, by simp [need]⟩ hstuck

namespace Net

variable {ι σ : Type} [DecidableEq ι] {handle : σ → UInt32 → List UInt8 → Option (σ × List UInt8)}
  {background : σ → Option σ} {isClient : ι → Prop} {s₀ : σ} {n n' : Net ι σ}

/-- **No reply is lost.** Once nothing is left to be written or read on an open connection, every
call that was written has been handled and its promise set to the result; the promises that are not
set are those of calls that are not written. -/
theorem Reachable.answered (hsend : Sendable handle)
    (h : Reachable handle background isClient s₀ n) {i : ι} (hclient : isClient i)
    (hopen : (n.link i).Open) (hquiet : (n.link i).Quiet) :
    (servedOn i n.log).map Prod.fst = (n.link i).calls ∧
    (n.link i).client.results = (servedOn i n.log).map Served.response ∧
    (n.link i).client.futureMap.Perm ((n.link i).client.started.map Call.reqId) := by
  have hlink := (h.inv hsend).2 i hclient
  obtain ⟨ms, rest, -, hcalls, hup, hrest⟩ := hlink.sends hopen.reads
  rw [hrest hopen.writing, hquiet.outbox, List.flatten_nil, List.append_nil] at hup
  obtain rfl := hup.eq_nil hquiet.up
  have hwaits := hlink.waits (hlink.connected hopen.connected).2
  obtain ⟨rs, hrs, hresults, hdown⟩ := hwaits.down
  rw [hquiet.writeQueue, List.flatten_nil, List.append_nil] at hdown
  obtain rfl := hdown.eq_nil hrs hquiet.down
  rw [List.filterMap_nil, List.append_nil] at hcalls
  rw [List.map_nil, List.append_nil] at hresults
  refine ⟨hcalls.symm, hresults.symm, ?_⟩
  have hlen : (n.link i).calls.length ≤ (n.link i).client.results.length := by
    rw [hcalls, ← hresults, List.length_map, List.length_map]
  have hfutures := hwaits.futures
  rwa [List.drop_eq_nil_of_le hlen, List.append_nil] at hfutures

/-- A step on the connection `i` that the two programs and the network take by themselves. The timer
of `enable_auto_heartbeat`, which never ends, is not among them, and nothing breaks. -/
inductive Internal (handle : σ → UInt32 → List UInt8 → Option (σ × List UInt8)) (i : ι) :
    Net ι σ → Net ι σ → Prop
  | clientWrite {n : Net ι σ} {k : Nat} (hk : 0 < k) (hne : (n.link i).client.outbox ≠ []) :
    Internal handle i n (n.setLink i ((n.link i).clientWrite k))
  | serverWrite {n : Net ι σ} {k : Nat} (hk : 0 < k) (hne : (n.link i).writeQueue ≠ []) :
    Internal handle i n (n.setLink i ((n.link i).serverWrite k))
  | serverRead {n : Net ι σ} (hready : Connection.reader.Ready (n.link i).conn (n.link i).up)
    (hcalls : (n.link i).received.2 = []) :
    Internal handle i n (n.setLink i (n.link i).serverRead)
  | serve {n : Net ι σ} {call : Call} {pad : UInt8 × UInt8} {r : σ × List UInt8}
    (hready : Connection.reader.Ready (n.link i).conn (n.link i).up)
    (hcalls : (n.link i).received.2 = [call])
    (hhandle : handle n.service call.funcId call.data = some r) :
    Internal handle i n (n.serve i call pad r)
  | clientRead {n : Net ι σ} (hready : 0 < (n.link i).client.reading.need ∧
      (n.link i).client.reading.need ≤ (n.link i).down.length) :
    Internal handle i n (n.setLink i (n.link i).clientRead)

/-- They are steps of the network. -/
theorem Internal.step {i : ι} (h : Internal handle i n n') (hopen : (n.link i).Open) :
    Step handle background isClient n n' := by
  cases h with
  | clientWrite hk hne => exact .clientWrite i _ hopen.writing
  | serverWrite hk hne => exact .serverWrite i _ hopen.isOpen
  | serverRead hready hcalls => exact .serverRead i hready hcalls
  | serve hready hcalls hhandle => exact .serve i _ _ hready hcalls hhandle
  | clientRead hready => exact .clientRead i hready

end Net

/-- What is left to do with a queue, and with the bytes that it has given to the network. -/
def pendingWork (queue : List (List UInt8)) (wire : List UInt8) : Nat :=
  2 * queue.flatten.length + queue.length + wire.length

theorem pendingWork_writeSome {k : Nat} (hk : 0 < k) {queue : List (List UInt8)} (hne : queue ≠ [])
    (wire : List UInt8) :
    pendingWork (writeSome k queue).2 (wire ++ (writeSome k queue).1) < pendingWork queue wire := by
  cases queue with
  | nil => exact absurd rfl hne
  | cons m ms =>
    unfold pendingWork
    simp only [writeSome]
    split
    · simp only [List.flatten_cons, List.length_append, List.length_cons, List.length_take]
      omega
    · simp only [List.flatten_cons, List.length_append, List.length_cons, List.length_take,
        List.length_drop]
      omega

theorem pendingWork_drop {k : Nat} {wire : List UInt8} (hk : 0 < k ∧ k ≤ wire.length)
    (queue : List (List UInt8)) : pendingWork queue (wire.drop k) < pendingWork queue wire := by
  unfold pendingWork
  rw [List.length_drop]
  omega

/-- What is left to do on a connection: first the calls, then the replies. -/
def Link.work (l : Link) : Nat ×ₗ Nat :=
  toLex (pendingWork l.client.outbox l.up, pendingWork l.writeQueue l.down)

/-- A call is left whose handler has no defined behaviour. -/
def Net.Undefined {ι σ : Type} (handle : σ → UInt32 → List UInt8 → Option (σ × List UInt8))
    (i : ι) (n : Net ι σ) : Prop :=
  ∃ call, (n.link i).received.2 = [call] ∧ handle n.service call.funcId call.data = none

namespace Net

variable {ι σ : Type} [DecidableEq ι] {handle : σ → UInt32 → List UInt8 → Option (σ × List UInt8)}
  {background : σ → Option σ} {isClient : ι → Prop} {s₀ : σ} {n n' : Net ι σ}

theorem link_serve (i : ι) (call : Call) (pad : UInt8 × UInt8) (r : σ × List UInt8) (n : Net ι σ) :
    (n.serve i call pad r).link i = (n.link i).serverRead.response call.reqId r.2 pad :=
  update_self ..

/-- Each of these steps leaves less to do. -/
theorem Internal.work_lt {i : ι} (h : Internal handle i n n') :
    (n'.link i).work < (n.link i).work := by
  cases h with
  | clientWrite hk hne =>
    rw [link_setLink, Link.work, Link.work, Prod.Lex.toLex_lt_toLex]
    exact .inl (pendingWork_writeSome hk hne _)
  | serverWrite hk hne =>
    rw [link_setLink, Link.work, Link.work, Prod.Lex.toLex_lt_toLex]
    exact .inr ⟨rfl, pendingWork_writeSome hk hne _⟩
  | serverRead hready hcalls =>
    rw [link_setLink, Link.work, Link.work, Prod.Lex.toLex_lt_toLex]
    exact .inl (pendingWork_drop hready _)
  | serve hready hcalls hhandle =>
    rw [link_serve, Link.work, Link.work, Prod.Lex.toLex_lt_toLex]
    exact .inl (pendingWork_drop hready _)
  | clientRead hready =>
    rw [link_setLink, Link.work, Link.work, Prod.Lex.toLex_lt_toLex]
    exact .inr ⟨rfl, pendingWork_drop hready _⟩

theorem Internal.wellFounded (handle : σ → UInt32 → List UInt8 → Option (σ × List UInt8)) (i : ι) :
    WellFounded fun n' n : Net ι σ => Internal handle i n n' :=
  Subrelation.wf (fun h => h.work_lt) (InvImage.wf (fun n : Net ι σ => (n.link i).work)
    wellFounded_lt)

/-- The server's end reads one call at a time. -/
theorem received_cases (l : Link) : l.received.2 = [] ∨ ∃ call, l.received.2 = [call] := by
  unfold Link.received Connection.step
  split
  · exact .inl rfl
  · unfold Connection.readBody
    simp only
    split
    · exact .inr ⟨_, rfl⟩
    · exact .inl rfl
  · exact .inl rfl

/-- A connection on which no such step is possible has nothing left to do, or a call without
defined behaviour. -/
theorem quiet_or_undefined {i : ι} (h : ∀ n', ¬ Internal handle i n n') :
    (n.link i).Quiet ∨ n.Undefined handle i := by
  by_cases hup : Connection.reader.Ready (n.link i).conn (n.link i).up
  · rcases received_cases (n.link i) with hnone | ⟨call, hcall⟩
    · exact absurd (.serverRead hup hnone) (h _)
    · refine .inr ⟨call, hcall, ?_⟩
      cases hhandle : handle n.service call.funcId call.data with
      | none => rfl
      | some r =>
        have hserve : Internal handle i n (n.serve i call (0, 0) r) := .serve hup hcall hhandle
        exact absurd hserve (h _)
  · refine .inl ⟨?_, hup, ?_, fun hdown => h _ (.clientRead hdown)⟩
    · by_contra hne
      exact h _ (.clientWrite (k := 1) (by decide) hne)
    · by_contra hne
      exact h _ (.serverWrite (k := 1) (by decide) hne)

/-- On a quiet connection no such step is possible. -/
theorem Internal.not_quiet {i : ι} (h : Internal handle i n n') : ¬ (n.link i).Quiet := by
  intro hquiet
  cases h with
  | clientWrite hk hne => exact hne hquiet.outbox
  | serverWrite hk hne => exact hne hquiet.writeQueue
  | serverRead hready hcalls => exact hquiet.up hready
  | serve hready hcalls hhandle => exact hquiet.up hready
  | clientRead hready => exact hquiet.down hready

/-- The server's end has not closed the connection of a client whose message it has read. -/
theorem Reachable.serverRead_open (hsend : Sendable handle)
    (h : Reachable handle background isClient s₀ n) {i : ι} (hclient : isClient i)
    (hopen : (n.link i).Open) (hready : Connection.reader.Ready (n.link i).conn (n.link i).up) :
    (n.link i).serverRead.Open := by
  obtain ⟨ms, rest, -, -, hpending, -⟩ :=
    (((h.inv hsend).2 i hclient).sends hopen.reads).received hready.2
  have hreads : (n.link i).received.1.reading ≠ .closed := hpending.not_closed
  exact ⟨hopen.connected, hopen.writing, by simp [Link.serverRead, hopen.isOpen, hreads], hreads⟩

/-- These steps do not break the connection of a client. -/
theorem Internal.keeps_open (hsend : Sendable handle)
    (hn : Reachable handle background isClient s₀ n) {i : ι} (hclient : isClient i)
    (hopen : (n.link i).Open) (h : Internal handle i n n') : (n'.link i).Open := by
  cases h with
  | clientWrite hk hne | serverWrite hk hne | clientRead hready =>
    rw [link_setLink]
    exact ⟨hopen.connected, hopen.writing, hopen.isOpen, hopen.reads⟩
  | serverRead hready hcalls =>
    rw [link_setLink]
    exact hn.serverRead_open hsend hclient hopen hready
  | serve hready hcalls hhandle =>
    obtain ⟨hconnected, hwriting, hisOpen, hreads⟩ :=
      hn.serverRead_open hsend hclient hopen hready
    rw [link_serve]
    exact ⟨hconnected, hwriting, hisOpen, hreads⟩

/-- **A connection that is left alone finishes.** The steps that the programs take by themselves on
the connection of a client, heartbeats apart, come to an end, whatever their order and the sizes of
the pieces. While the connection is open they are steps of the network and leave it open. At the end
all its calls are answered, or the next call has no defined behaviour. -/
theorem finishes (hsend : Sendable handle) {i : ι} (hclient : isClient i) :
    WellFounded (fun n' n : Net ι σ => Internal handle i n n') ∧
    (∀ n n', Internal handle i n n' → (n.link i).Open → Step handle background isClient n n') ∧
    (∀ n n', Reachable handle background isClient s₀ n → (n.link i).Open → Internal handle i n n' →
      (n'.link i).Open) ∧
    ∀ n, Reachable handle background isClient s₀ n → (n.link i).Open →
      (∀ n', ¬ Internal handle i n n') → n.Undefined handle i ∨
        (servedOn i n.log).map Prod.fst = (n.link i).calls ∧
        (n.link i).client.results = (servedOn i n.log).map Served.response ∧
        (n.link i).client.futureMap.Perm ((n.link i).client.started.map Call.reqId) := by
  refine ⟨Internal.wellFounded handle i, fun n n' h => h.step,
    fun n n' hn hopen h => h.keeps_open hsend hn hclient hopen, fun n hn hopen hstop => ?_⟩
  rcases quiet_or_undefined hstop with hquiet | hundefined
  · exact .inr (hn.answered hsend hclient hopen hquiet)
  · exact .inl hundefined

/-- The client has read the response, and nothing is left to do. -/
theorem quiet_answered : answering.clientRead.Open ∧ answering.clientRead.Quiet ∧
    answering.clientRead.received.2 = [] :=
  ⟨⟨rfl, rfl, rfl, nofun⟩, ⟨rfl, by decide, rfl, by decide⟩, rfl⟩

theorem finishes_count : ∃ n : Net Bool Nat, Reachable count some (· = true) 0 n ∧
    (n.link true).Open ∧ (∀ n', ¬ Internal count true n n') ∧
    (servedOn true n.log).map Prod.fst = [⟨1, 5, [144]⟩] ∧
    (n.link true).client.results = (servedOn true n.log).map Served.response := by
  obtain ⟨n, hn, -, hlink⟩ := reachable_answering
  obtain ⟨hopen, hquiet, hnone⟩ := quiet_answered
  have hread := hn.step (.clientRead true (by rw [hlink]; decide))
  set n' := n.setLink true (n.link true).clientRead
  have hlink' : n'.link true = answering.clientRead := by rw [link_setLink, hlink]
  rw [← hlink'] at hopen hquiet hnone
  have hstop : ∀ n'', ¬ Internal count true n' n'' := fun _ h => h.not_quiet hquiet
  obtain ⟨-, -, -, hend⟩ := @finishes Bool Nat _ count some (· = true) 0 sendable_count true rfl
  rcases hend n' hread hopen hstop with ⟨call, hcall, -⟩ | ⟨hserved, hresults, -⟩
  · rw [hnone] at hcall
    cases hcall
  · refine ⟨n', hread, hopen, hstop, hserved.trans ?_, hresults⟩
    rw [hlink']
    rfl

end Net

end RestRpc
