import Ws2812Strip.Lib.Bytes
import Ws2812Strip.Lib.Reader
import Ws2812Strip.Rpc.Codec

/-!
# Messages on a connection

A message is a header of 20 bytes and a body. Both ends read the header first, and then as many
bytes as it says.

* `Header.bytes`, `Header.ofBytes`: the `rpc_header` in the memory of a little-endian machine.
* `Connection.reader`, `ClientReading.step`: what the server and a client do with the bytes of a
  connection. `Connection.chunks`: how the bytes are cut on the way does not matter.
* `Connection.Pending`: what is on the way, for a connection in the middle of a message.
  `Connection.Pending.step`: a step of the reader takes the next message off it.
* `Connection.reads`: the messages that are written make their calls.
* `Connection.Begun`: what is read of a message, for any bytes. `Connection.calls_of_bytes`: a
  connection makes the calls of the messages that its bytes begin with.
-/

namespace RestRpc

open Bytes

def MAGIC_NUM : UInt8 := 39

/-- `sizeof(rpc_header)` with `pack(4)` -/
def HEAD_LEN : Nat := 20

/-- `request_type` -/
def REQ_RES : UInt8 := 0

def SUB_PUB : UInt8 := 1

/-! ## The header -/

/-- `rpc_header` -/
structure Header where
  magic : UInt8
  reqType : UInt8
  bodyLen : UInt32
  reqId : UInt64
  funcId : UInt32
  deriving DecidableEq, Repr

/-- The bytes of the header. The two bytes that align `body_len` have any content. -/
def Header.bytes (pad : UInt8 × UInt8) (h : Header) : List UInt8 :=
  h.magic :: h.reqType :: pad.1 :: pad.2 ::
    (le 4 h.bodyLen.toNat ++ le 8 h.reqId.toNat ++ le 4 h.funcId.toNat)

/-- `(rpc_header *)(head_)` -/
def Header.ofBytes (head : List UInt8) : Header where
  magic := head.getD 0 0
  reqType := head.getD 1 0
  bodyLen := UInt32.ofNat (ofLE ((head.drop 4).take 4))
  reqId := UInt64.ofNat (ofLE ((head.drop 8).take 8))
  funcId := UInt32.ofNat (ofLE ((head.drop 16).take 4))

@[simp] theorem Header.length_bytes (pad : UInt8 × UInt8) (h : Header) :
    (h.bytes pad).length = HEAD_LEN := by
  simp [Header.bytes, HEAD_LEN]

/-- **Headers.** A header that is written is read. -/
theorem Header.ofBytes_bytes (pad : UInt8 × UInt8) (h : Header) : ofBytes (h.bytes pad) = h := by
  have h32 := h.bodyLen.toNat_lt
  have h64 := h.reqId.toNat_lt
  have hf := h.funcId.toNat_lt
  have hlen : ofLE (le 4 h.bodyLen.toNat) = h.bodyLen.toNat := ofLE_le_of_lt (by omega)
  have hid : ofLE (le 8 h.reqId.toNat) = h.reqId.toNat := ofLE_le_of_lt (by omega)
  have hfunc : ofLE (le 4 h.funcId.toNat) = h.funcId.toNat := ofLE_le_of_lt (by omega)
  have hdrop : (le 4 h.bodyLen.toNat).drop 12 = [] := List.drop_eq_nil_of_le (by simp)
  have htake : (le 4 h.funcId.toNat).take 4 = le 4 h.funcId.toNat :=
    List.take_of_length_le (by simp)
  unfold ofBytes Header.bytes
  simp [List.drop_append, hlen, hid, hfunc, hdrop, htake]

/-- Every 20 bytes are a header. -/
theorem Header.bytes_ofBytes {head : List UInt8} (h : head.length = HEAD_LEN) :
    ∃ pad, (ofBytes head).bytes pad = head := by
  rcases head with _ | ⟨magic, _ | ⟨reqType, _ | ⟨pad₀, _ | ⟨pad₁, tail⟩⟩⟩⟩
  iterate 4 · simp [HEAD_LEN] at h
  have htail : tail.length = 16 := by simpa [HEAD_LEN] using h
  have hlen : le 4 (ofLE (tail.take 4) % 256 ^ 4) = tail.take 4 :=
    le_ofLE_mod (by simp [htail])
  have hid : le 8 (ofLE ((tail.drop 4).take 8) % 256 ^ 8) = (tail.drop 4).take 8 :=
    le_ofLE_mod (by simp [htail])
  have hfunc : le 4 (ofLE ((tail.drop 12).take 4) % 256 ^ 4) = tail.drop 12 := by
    rw [le_ofLE_mod (by simp [htail])]
    exact List.take_of_length_le (by simp [htail])
  have hsplit : tail.take 4 ++ ((tail.drop 4).take 8 ++ tail.drop 12) = tail := by
    have hdrop : tail.drop 12 = (tail.drop 4).drop 8 := by rw [List.drop_drop]
    rw [hdrop, List.take_append_drop, List.take_append_drop]
  refine ⟨(pad₀, pad₁), ?_⟩
  simpa [bytes, ofBytes, hsplit] using congrArg₂ (· ++ ·) hlen (congrArg₂ (· ++ ·) hid hfunc)

/-! ## Messages -/

/-- `message_type`, and `client_message_type`: what is to be written. -/
structure Message where
  reqId : UInt64
  reqType : UInt8
  funcId : UInt32
  content : List UInt8
  pad : UInt8 × UInt8
  deriving DecidableEq, Repr

namespace Message

/-- `header_` -/
def header (m : Message) : Header :=
  ⟨MAGIC_NUM, m.reqType, UInt32.ofNat m.content.length, m.reqId, m.funcId⟩

/-- The buffers that `write` hands over. -/
def bytes (m : Message) : List UInt8 := m.header.bytes m.pad ++ m.content

/-- The assertion of `write` and of `response`. -/
def Fits (m : Message) : Prop := m.content.length < MAX_BUF_LEN

theorem Fits.bodyLen {m : Message} (h : m.Fits) :
    m.header.bodyLen.toNat = m.content.length := by
  have hlen : m.content.length < 2 ^ 32 := by
    unfold Fits MAX_BUF_LEN at h
    omega
  simpa [header] using Nat.mod_eq_of_lt hlen

theorem take_bytes (m : Message) (rest : List UInt8) :
    (m.bytes ++ rest).take HEAD_LEN = m.header.bytes m.pad := by
  rw [bytes, List.append_assoc]
  exact List.take_left' (m.header.length_bytes m.pad)

theorem drop_bytes (m : Message) (rest : List UInt8) :
    (m.bytes ++ rest).drop HEAD_LEN = m.content ++ rest := by
  rw [bytes, List.append_assoc]
  exact List.drop_left' (m.header.length_bytes m.pad)

/-- The header of the message that bytes begin with. -/
theorem header_of_isPrefix {m : Message} {head bytes : List UInt8} (hlen : head.length = HEAD_LEN)
    (h : m.bytes <+: head ++ bytes) : m.header.bytes m.pad = head := by
  obtain ⟨rest, hrest⟩ := h
  rw [← m.take_bytes rest, hrest, List.take_left' hlen]

end Message

/-! ## The server's end -/

/-- What `read_head` and `read_body` wait for. -/
inductive Reading where
  | head
  | body (funcId : UInt32) (size : Nat)
  | closed
  deriving DecidableEq, Repr

/-- A call that goes to the router. -/
structure Call where
  reqId : UInt64
  funcId : UInt32
  data : List UInt8
  deriving DecidableEq, Repr

/-- `connection`, as far as it reads. -/
structure Connection where
  reading : Reading
  reqId : UInt64
  reqType : UInt8
  deriving DecidableEq, Repr

namespace Connection

/-- `start`. The members that the first header sets have any content. -/
def start (reqId : UInt64) (reqType : UInt8) : Connection := ⟨.head, reqId, reqType⟩

def need (c : Connection) : Nat :=
  match c.reading with
  | .head => HEAD_LEN
  | .body _ size => size
  | .closed => 0

/-- The handler of `read_head`. -/
def readHead (c : Connection) (head : List UInt8) : Connection :=
  let header := Header.ofBytes head
  if header.magic ≠ MAGIC_NUM then { c with reading := .closed }
  else
    let c := { c with reqId := header.reqId, reqType := header.reqType }
    let bodyLen := header.bodyLen.toNat
    if 0 < bodyLen ∧ bodyLen < MAX_BUF_LEN then
      { c with reading := .body header.funcId bodyLen }
    else if bodyLen = 0 then { c with reading := .head }
    else { c with reading := .closed }

/-- The handler of `read_body`. A subscription goes to `sub_map_`, which nothing here reads. -/
def readBody (c : Connection) (funcId : UInt32) (body : List UInt8) : Connection × List Call :=
  ({ c with reading := .head },
    if c.reqType = REQ_RES then [⟨c.reqId, funcId, body⟩] else [])

def step (c : Connection) (bytes : List UInt8) : Connection × List Call :=
  match c.reading with
  | .head => (c.readHead bytes, [])
  | .body funcId _ => c.readBody funcId bytes
  | .closed => (c, [])

/-- The calls that the bytes of a connection make. -/
def reader : Reader Connection UInt8 Call := ⟨need, step⟩

/-- **Chunks.** A connection makes the calls that the stream of its bytes makes, however the stream
is cut on the way. -/
theorem chunks (reqId : UInt64) (reqType : UInt8) (chunks : List (List UInt8)) :
    reader.feedAll (start reqId reqType, []) chunks =
      reader.feed (start reqId reqType, []) chunks.flatten :=
  reader.feedAll_eq (fun h => by simp [reader, start, need, HEAD_LEN, Reader.Ready] at h) chunks

/-- The call that a message makes. A heartbeat has no body. -/
def call? (m : Message) : Option Call :=
  if m.content = [] ∨ m.reqType ≠ REQ_RES then none else some ⟨m.reqId, m.funcId, m.content⟩

/-- The bytes on the way are what is missing of the messages, the first of which may have been
begun. -/
def Pending (c : Connection) (ms : List Message) (bytes : List UInt8) : Prop :=
  match c.reading with
  | .head => bytes = ms.flatMap Message.bytes
  | .body funcId size => ∃ m ms', ms = m :: ms' ∧ m.content ≠ [] ∧ m.content.length = size ∧
    m.funcId = funcId ∧ m.reqId = c.reqId ∧ m.reqType = c.reqType ∧
    bytes = m.content ++ ms'.flatMap Message.bytes
  | .closed => False

theorem readHead_header {c : Connection} {m : Message} (hm : m.Fits) :
    c.readHead (m.header.bytes m.pad) =
      ⟨if m.content = [] then .head else .body m.funcId m.content.length, m.reqId, m.reqType⟩ := by
  have hlen := hm.bodyLen
  unfold Message.Fits at hm
  unfold readHead
  rw [Header.ofBytes_bytes]
  by_cases hempty : m.content = []
  · simp [Message.header, hempty]
  · have hpos : 0 < m.content.length := List.length_pos_iff.mpr hempty
    simp only [hlen, hempty, if_false, hpos, hm, and_self, if_true]
    rfl

/-- **A step of the reader** finishes a message, or begins one with a body. -/
theorem Pending.step {c : Connection} {ms : List Message} {bytes : List UInt8}
    (h : c.Pending ms bytes) (hms : ∀ m ∈ ms, m.Fits) (hlen : c.need ≤ bytes.length) :
    ∃ done ms', ms = done ++ ms' ∧
      (c.step (bytes.take c.need)).2 = done.filterMap call? ∧
      (c.step (bytes.take c.need)).1.Pending ms' (bytes.drop c.need) := by
  obtain ⟨reading, reqId, reqType⟩ := c
  cases reading with
  | closed => exact h.elim
  | head =>
    cases ms with
    | nil =>
      have hbytes : bytes = [] := h
      subst hbytes
      simp [need, HEAD_LEN] at hlen
    | cons m ms =>
      have hbytes : bytes = m.bytes ++ ms.flatMap Message.bytes := h
      have hm := hms m (List.mem_cons_self ..)
      subst hbytes
      simp only [need, m.take_bytes, m.drop_bytes, Connection.step, readHead_header hm]
      by_cases hempty : m.content = []
      · exact ⟨[m], ms, rfl, by simp [call?, hempty], by simp [Pending, hempty]⟩
      · refine ⟨[], m :: ms, rfl, rfl, ?_⟩
        simp only [Pending, hempty, if_false]
        exact ⟨m, ms, rfl, hempty, rfl, rfl, rfl, rfl, rfl⟩
  | body funcId size =>
    obtain ⟨m, ms, rfl, hne, rfl, rfl, rfl, rfl, rfl⟩ := h
    refine ⟨[m], ms, rfl, ?_, ?_⟩
    · by_cases hreq : m.reqType = REQ_RES <;>
        simp [need, Connection.step, readBody, call?, hne, hreq]
    · simp [need, Connection.step, readBody, Pending]

/-- Bytes that are not enough for the reader are of no message. -/
theorem Pending.eq_nil {c : Connection} {ms : List Message} {bytes : List UInt8}
    (h : c.Pending ms bytes) (hstuck : ¬ reader.Ready c bytes) : ms = [] := by
  obtain ⟨reading, reqId, reqType⟩ := c
  cases reading with
  | closed => exact h.elim
  | head =>
    cases ms with
    | nil => rfl
    | cons m ms =>
      have hbytes : bytes = m.bytes ++ ms.flatMap Message.bytes := h
      refine absurd ⟨by simp [reader, need, HEAD_LEN], ?_⟩ hstuck
      rw [hbytes, Message.bytes]
      simp [reader, need]
  | body funcId size =>
    obtain ⟨m, ms', rfl, hne, rfl, -, -, -, rfl⟩ := h
    exact absurd ⟨List.length_pos_iff.mpr hne, by simp [reader, need]⟩ hstuck

/-- A reader that has all the bytes of some messages finishes them. -/
theorem Pending.drain {c : Connection} {bytes : List UInt8} {ms : List Message}
    (h : c.Pending ms bytes) (hms : ∀ m ∈ ms, m.Fits) :
    (reader.drain c bytes).2 = ms.filterMap call? ∧
      (reader.drain c bytes).1.1.reading = .head ∧ (reader.drain c bytes).1.2 = [] := by
  induction c, bytes using Reader.drain.induct reader generalizing ms with
  | case1 c bytes hready next =>
    rename_i ih
    obtain ⟨done, ms', rfl, hdone, hnext⟩ := h.step hms hready.2
    obtain ⟨hcalls, hhead, hempty⟩ := ih hnext fun m hm => hms m (List.mem_append_right _ hm)
    rw [reader.drain_ready hready]
    refine ⟨?_, hhead, hempty⟩
    rw [List.filterMap_append, ← hdone, ← hcalls]
    rfl
  | case2 c bytes hstuck =>
    obtain rfl := h.eq_nil hstuck
    rw [reader.drain_stuck hstuck]
    obtain ⟨reading, reqId, reqType⟩ := c
    cases reading with
    | closed => exact h.elim
    | head => exact ⟨rfl, rfl, h⟩
    | body funcId size =>
      obtain ⟨m, ms', hcons, -⟩ := h
      cases hcons

/-- **The calls of a stream.** The bytes of any messages, cut into any chunks, make the calls of
these messages, in this order, and nothing is left over. -/
theorem reads (reqId : UInt64) (reqType : UInt8) {ms : List Message} (hms : ∀ m ∈ ms, m.Fits)
    {chunks : List (List UInt8)} (h : chunks.flatten = ms.flatMap Message.bytes) :
    let read := reader.feedAll (start reqId reqType, []) chunks
    read.2 = ms.filterMap call? ∧ read.1.1.reading = .head ∧ read.1.2 = [] := by
  have hpending : (start reqId reqType).Pending ms ([] ++ chunks.flatten) := h
  have hread := hpending.drain hms
  simp only [Connection.chunks]
  exact hread

/-- A heartbeat and a call, of which the last byte comes on its own. -/
theorem reads_call :
    (reader.feedAll (start 0 0, [])
      [Message.bytes ⟨0, REQ_RES, 0, [], (0, 0)⟩ ++
        (Message.bytes ⟨1, REQ_RES, 7, [0x92, 3, 4], (0, 0)⟩).dropLast, [4]]).2 =
      [⟨1, 7, [0x92, 3, 4]⟩] := by
  have hms : ∀ m ∈ [(⟨0, REQ_RES, 0, [], (0, 0)⟩ : Message),
      ⟨1, REQ_RES, 7, [0x92, 3, 4], (0, 0)⟩], m.Fits :=
    List.forall_mem_cons.mpr ⟨show 0 < MAX_BUF_LEN by decide,
      List.forall_mem_singleton.mpr (show 3 < MAX_BUF_LEN by decide)⟩
  have hbytes : [Message.bytes ⟨0, REQ_RES, 0, [], (0, 0)⟩ ++
      (Message.bytes ⟨1, REQ_RES, 7, [0x92, 3, 4], (0, 0)⟩).dropLast, [4]].flatten =
      List.flatMap Message.bytes [⟨0, REQ_RES, 0, [], (0, 0)⟩,
        ⟨1, REQ_RES, 7, [0x92, 3, 4], (0, 0)⟩] := by decide
  exact (reads 0 0 hms hbytes).1

/-- What the connection has read of the message that it reads: nothing, the header, or a header that
no message has. -/
def Begun (c : Connection) (read : List UInt8) : Prop :=
  match c.reading with
  | .head => read = []
  | .body funcId size => 0 < size ∧ size < MAX_BUF_LEN ∧
    ∃ pad, read = Header.bytes pad ⟨MAGIC_NUM, c.reqType, UInt32.ofNat size, c.reqId, funcId⟩
  | .closed => read.length = HEAD_LEN ∧ ∀ m : Message, m.Fits → m.header.bytes m.pad ≠ read

/-- **A header** begins a message with a body, or is a heartbeat, or closes the connection. -/
theorem Begun.readHead (c : Connection) {head : List UInt8} (hlen : head.length = HEAD_LEN) :
    ∃ (done : List Message) (read : List UInt8),
      head = done.flatMap Message.bytes ++ read ∧ (∀ m ∈ done, m.Fits) ∧
        done.filterMap call? = [] ∧ (c.readHead head).Begun read := by
  obtain ⟨pad, hpad⟩ := Header.bytes_ofBytes hlen
  have hread : ∀ {m : Message}, m.header.bytes m.pad = head → m.header = Header.ofBytes head := by
    intro m hm
    rw [← hm, Header.ofBytes_bytes]
  simp only [Connection.readHead]
  split_ifs with hmagic hbody hempty
  · refine ⟨[], head, rfl, by simp, rfl, hlen, fun m _ hm => hmagic ?_⟩
    rw [← hread hm]
    rfl
  · refine ⟨[], head, rfl, by simp, rfl, hbody.1, hbody.2, pad, ?_⟩
    rw [UInt32.ofNat_toNat, ← not_not.mp hmagic]
    exact hpad.symm
  · let heartbeat : Message :=
      ⟨(Header.ofBytes head).reqId, (Header.ofBytes head).reqType, (Header.ofBytes head).funcId, [],
        pad⟩
    have hheader : heartbeat.header = Header.ofBytes head := by
      have hzero : UInt32.ofNat 0 = (Header.ofBytes head).bodyLen := by
        rw [← hempty, UInt32.ofNat_toNat]
      simp only [heartbeat, Message.header, List.length_nil, ← not_not.mp hmagic, hzero]
    refine ⟨[heartbeat], [], ?_, ?_, rfl, rfl⟩
    · simp [Message.bytes, hheader, hpad, heartbeat]
    · simp [heartbeat, Message.Fits, MAX_BUF_LEN]
  · refine ⟨[], head, rfl, by simp, rfl, hlen, fun m hm heq => ?_⟩
    have hbodyLen := hm.bodyLen
    rw [hread heq] at hbodyLen
    unfold Message.Fits at hm
    omega

/-- **A step of the reader**, whatever the bytes. -/
theorem Begun.step {c : Connection} {read bytes : List UInt8} (h : c.Begun read)
    (hready : reader.Ready c bytes) :
    ∃ (done : List Message) (read' : List UInt8),
      read ++ bytes.take c.need = done.flatMap Message.bytes ++ read' ∧ (∀ m ∈ done, m.Fits) ∧
        (c.step (bytes.take c.need)).2 = done.filterMap call? ∧
        (c.step (bytes.take c.need)).1.Begun read' := by
  obtain ⟨reading, reqId, reqType⟩ := c
  obtain ⟨hpos, hle⟩ := hready
  cases reading with
  | closed => exact absurd hpos (by simp [reader, need])
  | head =>
    have hread : read = [] := h
    subst hread
    have hlen : (bytes.take HEAD_LEN).length = HEAD_LEN := List.length_take_of_le hle
    obtain ⟨done, read', hhead, hdone, hcalls, hnext⟩ := Begun.readHead ⟨.head, reqId, reqType⟩ hlen
    exact ⟨done, read', hhead, hdone, hcalls.symm, hnext⟩
  | body funcId size =>
    obtain ⟨hsize, hmax, pad, rfl⟩ := h
    have hlen : (bytes.take size).length = size := List.length_take_of_le hle
    refine ⟨[⟨reqId, reqType, funcId, bytes.take size, pad⟩], [], ?_, ?_, ?_, rfl⟩
    · simp [Message.bytes, Message.header, hlen, need]
    · simp [Message.Fits, hlen, hmax]
    · have hne : bytes.take size ≠ [] := List.length_pos_iff.mp (by rwa [hlen])
      by_cases hreq : reqType = REQ_RES <;>
        simp [need, Connection.step, readBody, call?, hne, hreq]

/-- A reader that is stuck has less than a message. -/
theorem Begun.not_isPrefix {c : Connection} {read bytes : List UInt8} (h : c.Begun read)
    (hstuck : ¬ reader.Ready c bytes) {m : Message} (hm : m.Fits) :
    ¬ m.bytes <+: read ++ bytes := by
  intro hpre
  have hlen := hpre.length_le
  obtain ⟨reading, reqId, reqType⟩ := c
  cases reading with
  | closed => exact h.2 m hm (m.header_of_isPrefix h.1 hpre)
  | head =>
    have hread : read = [] := h
    subst hread
    refine hstuck ⟨by simp [reader, need, HEAD_LEN], ?_⟩
    simp [Message.bytes, reader, need] at hlen ⊢
    omega
  | body funcId size =>
    obtain ⟨hsize, hmax, pad, rfl⟩ := h
    have hheader := congrArg Header.ofBytes (m.header_of_isPrefix (Header.length_bytes pad _) hpre)
    rw [Header.ofBytes_bytes, Header.ofBytes_bytes] at hheader
    have hcontent : m.content.length = size := by
      rw [← hm.bodyLen, hheader]
      exact Nat.mod_eq_of_lt (by unfold MAX_BUF_LEN at hmax; omega)
    refine hstuck ⟨hsize, ?_⟩
    simp [Message.bytes, reader, need] at hlen ⊢
    omega

/-- A reader that has any bytes makes the calls of the messages that they begin with. -/
theorem Begun.drain {c : Connection} {read bytes : List UInt8} (h : c.Begun read) :
    ∃ (ms : List Message) (rest : List UInt8),
      read ++ bytes = ms.flatMap Message.bytes ++ rest ∧ (∀ m ∈ ms, m.Fits) ∧
        (∀ m : Message, m.Fits → ¬ m.bytes <+: rest) ∧
        (reader.drain c bytes).2 = ms.filterMap call? := by
  induction c, bytes using Reader.drain.induct reader generalizing read with
  | case1 c bytes hready next =>
    rename_i ih
    obtain ⟨done, read', hread, hdone, hcalls, hnext⟩ := h.step hready
    obtain ⟨ms, rest, hrest, hms, hend, hdrain⟩ := ih hnext
    refine ⟨done ++ ms, rest, ?_, ?_, hend, ?_⟩
    · calc read ++ bytes
          = read ++ bytes.take c.need ++ bytes.drop c.need := by
            rw [List.append_assoc, List.take_append_drop]
        _ = done.flatMap Message.bytes ++ (read' ++ bytes.drop c.need) := by
            rw [hread, List.append_assoc]
        _ = (done ++ ms).flatMap Message.bytes ++ rest := by
            rw [List.flatMap_append, List.append_assoc, ← hrest]
            rfl
    · exact List.forall_mem_append.mpr ⟨hdone, hms⟩
    · rw [reader.drain_ready hready, List.filterMap_append, ← hcalls, ← hdrain]
      rfl
  | case2 c bytes hstuck =>
    rw [reader.drain_stuck hstuck]
    exact ⟨[], read ++ bytes, rfl, fun m hm => absurd hm List.not_mem_nil,
      fun m hm => h.not_isPrefix hstuck hm, rfl⟩

/-- **Any bytes.** Whatever a peer sends, and however it is cut on the way, the connection makes the
calls of the messages that the stream begins with, and of nothing after them. -/
theorem calls_of_bytes (reqId : UInt64) (reqType : UInt8) (chunks : List (List UInt8)) :
    ∃ (ms : List Message) (rest : List UInt8),
      chunks.flatten = ms.flatMap Message.bytes ++ rest ∧ (∀ m ∈ ms, m.Fits) ∧
        (∀ m : Message, m.Fits → ¬ m.bytes <+: rest) ∧
        (reader.feedAll (start reqId reqType, []) chunks).2 = ms.filterMap call? := by
  have hbegun : (start reqId reqType).Begun [] := rfl
  simp only [Connection.chunks]
  exact hbegun.drain

end Connection

/-! ## The client's end -/

/-- What `do_read` and `read_body` of the client wait for. -/
inductive ClientReading where
  | head
  | body (reqId : UInt64) (reqType : UInt8) (size : Nat)
  /-- After `close`, and after a header that no branch of `do_read` handles. -/
  | stopped
  deriving DecidableEq, Repr

/-- What `call_back` is called with. -/
structure Response where
  reqId : UInt64
  data : List UInt8
  deriving DecidableEq, Repr

namespace ClientReading

def need : ClientReading → Nat
  | .head => HEAD_LEN
  | .body _ _ size => size
  | .stopped => 0

/-- The handler of `do_read`. -/
def readHead (head : List UInt8) : ClientReading :=
  let header := Header.ofBytes head
  let bodyLen := header.bodyLen.toNat
  if 0 < bodyLen ∧ bodyLen < MAX_BUF_LEN then .body header.reqId header.reqType bodyLen
  else .stopped

/-- The handler of `read_body`. What is published goes to the subscribers. -/
def readBody (reqId : UInt64) (reqType : UInt8) (body : List UInt8) :
    ClientReading × List Response :=
  if reqType = REQ_RES then (.head, [⟨reqId, body⟩])
  else if reqType = SUB_PUB then (.head, [])
  else (.stopped, [])

def step (reading : ClientReading) (bytes : List UInt8) : ClientReading × List Response :=
  match reading with
  | .head => (readHead bytes, [])
  | .body reqId reqType _ => readBody reqId reqType bytes
  | .stopped => (.stopped, [])

/-- The response of a message. -/
def response (m : Message) : Response := ⟨m.reqId, m.content⟩

/-- A message that a server sends as the reply to a call. -/
structure Reply (m : Message) : Prop where
  fits : m.Fits
  content_ne_nil : m.content ≠ []
  reqType_eq : m.reqType = REQ_RES

/-- The bytes on the way are what is missing of the replies, the first of which may have been
begun. -/
def Pending (reading : ClientReading) (ms : List Message) (bytes : List UInt8) : Prop :=
  match reading with
  | .head => bytes = ms.flatMap Message.bytes
  | .body reqId reqType size => ∃ m ms', ms = m :: ms' ∧ m.content.length = size ∧
    m.reqId = reqId ∧ m.reqType = reqType ∧ bytes = m.content ++ ms'.flatMap Message.bytes
  | .stopped => False

/-- **A step of the client** finishes a reply, or begins one. -/
theorem Pending.step {reading : ClientReading} {ms : List Message} {bytes : List UInt8}
    (h : reading.Pending ms bytes) (hms : ∀ m ∈ ms, Reply m)
    (hlen : reading.need ≤ bytes.length) :
    ∃ done ms', ms = done ++ ms' ∧
      (reading.step (bytes.take reading.need)).2 = done.map response ∧
      (reading.step (bytes.take reading.need)).1.Pending ms' (bytes.drop reading.need) := by
  cases reading with
  | stopped => exact h.elim
  | head =>
    cases ms with
    | nil =>
      have hbytes : bytes = [] := h
      subst hbytes
      simp [need, HEAD_LEN] at hlen
    | cons m ms =>
      have hbytes : bytes = m.bytes ++ ms.flatMap Message.bytes := h
      have hm := hms m (List.mem_cons_self ..)
      have hlen := hm.fits.bodyLen
      have hpos : 0 < m.content.length := List.length_pos_iff.mpr hm.content_ne_nil
      have hhead : readHead (m.header.bytes m.pad) = .body m.reqId m.reqType m.content.length := by
        unfold readHead
        rw [Header.ofBytes_bytes]
        simp only [hlen]
        exact if_pos ⟨hpos, hm.fits⟩
      subst hbytes
      simp only [need, m.take_bytes, m.drop_bytes, ClientReading.step, hhead]
      exact ⟨[], m :: ms, rfl, rfl, m, ms, rfl, rfl, rfl, rfl, rfl⟩
  | body reqId reqType size =>
    obtain ⟨m, ms, rfl, rfl, rfl, rfl, rfl⟩ := h
    have hm := hms m (List.mem_cons_self ..)
    refine ⟨[m], ms, rfl, ?_, ?_⟩
    · simp [need, ClientReading.step, readBody, response, hm.reqType_eq]
    · simp [need, ClientReading.step, readBody, Pending, hm.reqType_eq]

end ClientReading

end RestRpc
