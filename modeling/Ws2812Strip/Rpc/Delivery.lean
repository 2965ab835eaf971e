import Ws2812Strip.Rpc.Network

/-!
# Replies reach their calls

* `Net.step_inv`: every step of the network keeps the invariant of every connection.
* `Net.Reachable.safe`: in every state that is reached, the server has handled the calls in some
  order, and each result of a client is the reply to its own call, or is empty where that could not
  be read.
* `Net.Reachable.promise`: every response that a client reads finds its promise.
-/

namespace RestRpc

open Function

/-- The call of an entry, if it came over the connection `i`. -/
def Entry.served? {ι : Type} [DecidableEq ι] (i : ι) : Entry ι → Option Served
  | .handled j call result => if j = i then some (call, result) else none
  | .background => none

/-- What has been handled on the connection `i`. -/
def servedOn {ι : Type} [DecidableEq ι] (i : ι) (log : List (Entry ι)) : List Served :=
  log.filterMap (Entry.served? i)

namespace Net

variable {ι σ : Type} [DecidableEq ι] {handle : σ → UInt32 → List UInt8 → Option (σ × List UInt8)}
  {background : σ → Option σ} {isClient : ι → Prop} {s₀ : σ} {n n' : Net ι σ}

/-- The service does the entries of the log one after the other, with these results. -/
inductive Executes (handle : σ → UInt32 → List UInt8 → Option (σ × List UInt8))
    (background : σ → Option σ) (s₀ : σ) : List (Entry ι) → σ → Prop
  | start : Executes handle background s₀ [] s₀
  | handled {log : List (Entry ι)} {s : σ} (h : Executes handle background s₀ log s) (i : ι)
    {call : Call} {r : σ × List UInt8} (hr : handle s call.funcId call.data = some r) :
    Executes handle background s₀ (log ++ [.handled i call r.2]) r.1
  | background {log : List (Entry ι)} {s s' : σ} (h : Executes handle background s₀ log s)
    (hround : background s = some s') : Executes handle background s₀ (log ++ [.background]) s'

/-- The service gives results that can be sent. -/
def Sendable (handle : σ → UInt32 → List UInt8 → Option (σ × List UInt8)) : Prop :=
  ∀ s funcId data r, handle s funcId data = some r → r.2 ≠ [] ∧ r.2.length < MAX_BUF_LEN

def Inv (handle : σ → UInt32 → List UInt8 → Option (σ × List UInt8))
    (background : σ → Option σ) (isClient : ι → Prop) (s₀ : σ) (n : Net ι σ) : Prop :=
  Executes handle background s₀ n.log n.service ∧
    ∀ i, isClient i → (n.link i).Inv (servedOn i n.log)

/-- A step on one connection that makes no entry. -/
theorem Inv.setLink (h : Inv handle background isClient s₀ n) {i : ι} {l : Link}
    (hl : isClient i → l.Inv (servedOn i n.log)) :
    Inv handle background isClient s₀ (n.setLink i l) := by
  refine ⟨h.1, fun j hclient => ?_⟩
  show (update n.link i l j).Inv (servedOn j n.log)
  by_cases hj : j = i
  · subst hj
    rw [update_self]
    exact hl hclient
  · rw [update_of_ne hj]
    exact h.2 j hclient

theorem servedOn_handled (i : ι) (log : List (Entry ι)) (call : Call) (result : List UInt8) :
    servedOn i (log ++ [.handled i call result]) = servedOn i log ++ [(call, result)] := by
  simp [servedOn, Entry.served?]

theorem servedOn_handled_ne {i j : ι} (hj : j ≠ i) (log : List (Entry ι)) (call : Call)
    (result : List UInt8) : servedOn j (log ++ [.handled i call result]) = servedOn j log := by
  simp [servedOn, Entry.served?, Ne.symm hj]

theorem servedOn_background (i : ι) (log : List (Entry ι)) :
    servedOn i (log ++ [.background]) = servedOn i log := by
  simp [servedOn, Entry.served?]

theorem Inv.serve (h : Inv handle background isClient s₀ n) (hsend : Sendable handle) {i : ι}
    {call : Call} {r : σ × List UInt8} (pad : UInt8 × UInt8)
    (hready : Connection.reader.Ready (n.link i).conn (n.link i).up)
    (hcalls : (n.link i).received.2 = [call])
    (hhandle : handle n.service call.funcId call.data = some r) :
    Inv handle background isClient s₀ (n.serve i call pad r) := by
  obtain ⟨hne, hfits⟩ := hsend _ _ _ _ hhandle
  refine ⟨h.1.handled i hhandle, fun j hclient => ?_⟩
  show (update n.link i ((n.link i).serverRead.response call.reqId r.2 pad) j).Inv
    (servedOn j (n.log ++ [.handled i call r.2]))
  by_cases hj : j = i
  · subst hj
    rw [update_self, servedOn_handled]
    exact (h.2 j hclient).serve hready hcalls hne hfits pad
  · rw [update_of_ne hj, servedOn_handled_ne hj]
    exact h.2 j hclient

/-- **What can happen keeps the bytes, the promises and the results together.** -/
theorem step_inv (hsend : Sendable handle) (h : Inv handle background isClient s₀ n)
    (hs : Step handle background isClient n n') : Inv handle background isClient s₀ n' := by
  cases hs with
  | reserve i funcId data hne hfits hid =>
    exact h.setLink fun hc => (h.2 i hc).reserve hne hfits hid
  | call i call pad hcall => exact h.setLink fun hc => (h.2 i hc).call pad hcall
  | heartbeat i pad hconnected => exact h.setLink fun hc => (h.2 i hc).heartbeat pad
  | clientWrite i k hwriting => exact h.setLink fun hc => (h.2 i hc).clientWrite k hwriting
  | serverWrite i k hopen => exact h.setLink fun hc => (h.2 i hc).serverWrite k
  | serverRead i hready hcalls => exact h.setLink fun hc => (h.2 i hc).serverRead hready hcalls
  | serve i call pad hready hcalls hhandle => exact h.serve hsend pad hready hcalls hhandle
  | clientRead i hready => exact h.setLink fun hc => (h.2 i hc).clientRead hready
  | send i bytes hpeer => exact h.setLink fun hc => absurd hc hpeer
  | background hround =>
    refine ⟨h.1.background hround, fun j hclient => ?_⟩
    show (n.link j).Inv (servedOn j (n.log ++ [.background]))
    rw [servedOn_background]
    exact h.2 j hclient
  | close i hconnected => exact h.setLink fun hc => (h.2 i hc).close
  | writeFailed i houtbox => exact h.setLink fun hc => (h.2 i hc).writeFailed
  | headFailed i hhead => exact h.setLink fun hc => (h.2 i hc).headFailed
  | bodyFailed i hbody => exact h.setLink fun hc => (h.2 i hc).bodyFailed hbody
  | serverClose i => exact h.setLink fun hc => (h.2 i hc).serverClose
  | serverFailed i => exact h.setLink fun hc => (h.2 i hc).serverFailed

theorem Reachable.inv (hsend : Sendable handle) (h : Reachable handle background isClient s₀ n) :
    Inv handle background isClient s₀ n := by
  induction h with
  | start reqId reqType => exact ⟨.start, fun i _ => Link.inv_start (reqId i) (reqType i)⟩
  | step _ hs ih => exact step_inv hsend ih hs

/-- **Replies.** A handler and a round do not overlap with another one (`Step`). Then in every state
that is reached, the calls of all peers have been handled one after the other in some order,
whatever else has happened in which order, connections that broke included. Those of a client are
handled in the order in which they are written, each at most once, and what its promises have been
set to are their results, in the same order; only the last one can be empty instead, if the client
has failed to read it and reads no more. No two calls have the same id. The other peers may send any
bytes. -/
theorem Reachable.safe (hsend : Sendable handle)
    (h : Reachable handle background isClient s₀ n) :
    Executes handle background s₀ n.log n.service ∧
    ∀ i, isClient i → (servedOn i n.log).map Prod.fst <+: (n.link i).calls ∧
      ((n.link i).client.reading ≠ .stopped →
        (n.link i).client.results <+: (servedOn i n.log).map Served.response) ∧
      Link.Delivered (n.link i).client.results ((servedOn i n.log).map Served.response) ∧
      ((n.link i).calls.map Call.reqId).Nodup := by
  obtain ⟨hexec, hlinks⟩ := h.inv hsend
  refine ⟨hexec, fun i hclient => ?_⟩
  have hlink := hlinks i hclient
  refine ⟨hlink.served_isPrefix, fun hreads => (hlink.waits hreads).results_isPrefix,
    hlink.delivered, ?_⟩
  have hnodup := hlink.ids_nodup
  rw [List.map_append] at hnodup
  exact (List.nodup_append.mp hnodup).2.1

/-- A service that counts its calls. -/
def count (s : Nat) (_funcId : UInt32) (_data : List UInt8) : Option (Nat × List UInt8) :=
  some (s + 1, [192])

theorem sendable_count : Sendable count := by
  intro s funcId data r hr
  cases hr
  exact ⟨List.cons_ne_nil _ _, show 1 < MAX_BUF_LEN by decide⟩

/-- A connection whose client has read the header of the response to its call. -/
def answering : Link where
  client := ⟨1, [], [1], [], true, .body 1 REQ_RES 1, true, []⟩
  conn := ⟨.head, 1, REQ_RES⟩
  writeQueue := []
  up := []
  down := [192]
  isOpen := true
  calls := [⟨1, 5, [144]⟩]

/-- One client, and a peer that sends what no client sends. -/
theorem reachable_answering : ∃ n : Net Bool Nat, Reachable count some (· = true) 0 n ∧
    servedOn true n.log = [(⟨1, 5, [144]⟩, [192])] ∧ n.link true = answering := by
  have start : Reachable count some (· = true) 0 _ := .start (fun _ : Bool => 0) (fun _ => 0)
  have sent := start.step (.send false (List.replicate 20 7) (by decide))
  have reserved := sent.step (.reserve true 5 [144] (by decide) (by decide) (by decide))
  have called := reserved.step (.call true ⟨1, 5, [144]⟩ (0, 0) (by decide))
  have written := called.step (.clientWrite true 21 rfl)
  have closed := written.step (.serverRead false (by decide) rfl)
  have header := closed.step (.serverRead true (by decide) rfl)
  have served := header.step (.serve true ⟨1, 5, [144]⟩ (0, 0) (by decide) rfl rfl)
  have replied := served.step (.serverWrite true 21 rfl)
  exact ⟨_, replied.step (.clientRead true (by decide)), rfl, rfl⟩

theorem link_setLink (i : ι) (l : Link) (n : Net ι σ) : (n.setLink i l).link i = l := update_self ..

/-- The client then fails to read the body. -/
theorem safe_count : ∃ n : Net Bool Nat, Reachable count some (· = true) 0 n ∧
    servedOn true n.log = [(⟨1, 5, [144]⟩, [192])] ∧
    (n.link true).client.results = [⟨1, []⟩] ∧
    Executes count some 0 n.log n.service ∧
    (servedOn true n.log).map Prod.fst <+: (n.link true).calls ∧
    Link.Delivered (n.link true).client.results ((servedOn true n.log).map Served.response) := by
  obtain ⟨n, hn, hserved, hlink⟩ := reachable_answering
  have hbody : (n.link true).client.reading = .body 1 REQ_RES 1 := by
    rw [hlink]
    rfl
  have hbroken := hn.step (.bodyFailed true hbody)
  obtain ⟨hexec, hclients⟩ := hbroken.safe sendable_count
  obtain ⟨hcalls, -, hdelivered, -⟩ := hclients true rfl
  refine ⟨_, hbroken, hserved, ?_, hexec, hcalls, hdelivered⟩
  rw [link_setLink, hlink]
  rfl

/-- A response comes with the body that the client reads. -/
theorem reading_of_arrived {l : Link} {r : Response} (hr : r ∈ l.arrived.2) :
    ∃ reqType size, l.client.reading = .body r.reqId reqType size := by
  unfold Link.arrived at hr
  cases hreading : l.client.reading with
  | head | stopped =>
    rw [hreading] at hr
    cases hr
  | body reqId reqType size =>
    rw [hreading] at hr
    simp only [ClientReading.step, ClientReading.readBody] at hr
    split at hr
    · obtain rfl := List.mem_singleton.mp hr
      exact ⟨reqType, size, rfl⟩
    · split at hr <;> cases hr

/-- **The assertion of `call_back`.** Each response that a client reads finds its promise, when it
has come as a whole and also when reading its body fails. This is about clients that read: one that
calls `close` while it waits for a body throws the promise away before the aborted read asks for it
(`Link.close`). -/
theorem Reachable.promise (hsend : Sendable handle)
    (h : Reachable handle background isClient s₀ n) {i : ι} (hclient : isClient i) :
    (∀ r ∈ (n.link i).arrived.2, r.reqId ∈ (n.link i).client.futureMap) ∧
    ∀ reqId reqType size, (n.link i).client.reading = .body reqId reqType size →
      reqId ∈ (n.link i).client.futureMap := by
  have hlink := (h.inv hsend).2 i hclient
  have hread : ∀ reqId reqType size, (n.link i).client.reading = .body reqId reqType size →
      reqId ∈ (n.link i).client.futureMap := by
    intro reqId reqType size hbody
    have hwaits := hlink.waits (by rw [hbody]; nofun)
    obtain ⟨r, rest, rfl, hserved⟩ := hwaits.body hbody
    rw [hwaits.futures.mem_iff, List.map_append, hlink.drop_ids hserved]
    simp
  refine ⟨fun r hr => ?_, hread⟩
  obtain ⟨reqType, size, hbody⟩ := reading_of_arrived hr
  exact hread _ _ _ hbody

theorem promise_count : ∃ n : Net Bool Nat, Reachable count some (· = true) 0 n ∧
    (n.link true).arrived.2 = [⟨1, [192]⟩] ∧ 1 ∈ (n.link true).client.futureMap := by
  obtain ⟨n, hn, -, hlink⟩ := reachable_answering
  have harrived : (n.link true).arrived.2 = [⟨1, [192]⟩] := by
    rw [hlink]
    rfl
  exact ⟨n, hn, harrived, (hn.promise sendable_count rfl).1 ⟨1, [192]⟩
    (harrived ▸ List.mem_singleton_self _)⟩

end Net

end RestRpc
