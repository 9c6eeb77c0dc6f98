/-
  The handshake of a connection (`nexterm-client-core`, and `handle_client` in `ipc/handler.rs`).

  * `Connection`: a client and the receive loop of the server with the two byte streams between
    them; what a request does is a parameter.
  * `ConnAct`: the steps of the tasks of both sides, in any order.  A client may also write bytes of
    its own.
  * `Connection.Gated`: what holds between two steps.
  * `gate_run`: whatever a client writes, a request is dispatched only after a greeting in the
    version of the server.
  * `client_run`: the requests of a client of ours are dispatched once each and in order if its
    version is that of the server, and none of them otherwise.

  The idle timeout and the end of the stream are one step, `hangUp`.
-/
import Nexterm.Ipc.Outbox
import Nexterm.Lib.Inlet
import Nexterm.Lib.Runs

namespace Nexterm.Ipc

open Frames

/-- The version of the protocol. -/
def protocolVersion : UInt32 := 11

/-- The kind of a client. -/
inductive ClientKind
  | gpu
  | tui
  | ctl
  | other
  deriving DecidableEq, Repr

/-- What a client sends; `M` are the messages other than the greeting. -/
inductive ClientToServer (M : Type)
  | hello (protoVersion : UInt32) (clientKind : ClientKind) (clientVersion : String)
  | request (msg : M)

/-- What the server sends; `R` are the messages other than these two. -/
inductive Reply (R : Type)
  | helloAck (protoVersion : UInt32) (serverVersion : String)
  | error (message : String)
  | other (msg : R)

/-- The error for a client of another version. -/
def versionMismatch (protoVersion : UInt32) : String :=
  "protocol version mismatch (client=" ++ toString protoVersion ++ ", server=" ++
    toString protocolVersion ++ "). please update the client."

/-- The error for a client that does not greet. -/
def handshakeRequired : String := "handshake required: send a Hello message first."

/-- The formats of the messages, what the server makes of them, and its own version. -/
structure Endpoint (M R σ : Type) where
  encode : ClientToServer M → List UInt8
  decode : List UInt8 → Option (ClientToServer M)
  encodeReply : Reply R → List UInt8
  decodeReply : List UInt8 → Option (Reply R)
  /-- `dispatch`: the state of the server and the messages it sends to the client. -/
  dispatch : σ → ClientToServer M → σ × List (Reply R)
  serverVersion : String

/-- A connection. -/
structure Connection (M R σ : Type) where
  /-- The channel of the send task of the client. -/
  sendQueue : List (ClientToServer M)
  up : Inlet (ClientToServer M)
  server : σ
  helloReceived : Bool
  /-- The receive loop has ended. -/
  closed : Bool
  /-- The channel of the send task of the server. -/
  tx : List (Reply R)
  down : Inlet (Reply R)
  /-- Everything that the client has put into its channel. -/
  sent : List (ClientToServer M)
  /-- Everything that the server has put into its channel. -/
  replied : List (Reply R)
  dispatched : List (ClientToServer M)

/-- A step of one of the tasks. -/
inductive ConnAct (M R : Type)
  /-- The client asks for something. -/
  | send (msg : ClientToServer M)
  /-- The send task of the client writes a message. -/
  | write
  /-- The client writes bytes of its own. -/
  | inject (bytes : List UInt8)
  | arrive (n : ℕ)
  /-- An iteration of the receive loop of the server. -/
  | receive
  /-- The receive loop ends. -/
  | hangUp
  /-- A task of the server that a request has started sends something. -/
  | announce (msg : R)
  /-- The send task of the server writes a message. -/
  | writeReply
  | arriveReply (n : ℕ)
  /-- An iteration of the receive task of the client. -/
  | receiveReply

namespace Connection

variable {M R σ : Type} (E : Endpoint M R σ)

/-- A new connection; a client of ours begins with the greeting. -/
def setup (server : σ) (hello : ClientToServer M) : Connection M R σ where
  sendQueue := [hello]
  up := .new
  server := server
  helloReceived := false
  closed := false
  tx := []
  down := .new
  sent := [hello]
  replied := []
  dispatched := []

/-- Messages to the client. -/
def reply (c : Connection M R σ) (msgs : List (Reply R)) : Connection M R σ :=
  { c with tx := c.tx ++ msgs, replied := c.replied ++ msgs }

/-- What the receive loop does with a message. -/
def handle (c : Connection M R σ) (msg : ClientToServer M) : Connection M R σ :=
  if !c.helloReceived then
    match msg with
    | .hello protoVersion _ _ =>
      if protoVersion ≠ protocolVersion then
        { c.reply [.error (versionMismatch protoVersion)] with closed := true }
      else { c.reply [.helloAck protocolVersion E.serverVersion] with helloReceived := true }
    | .request _ => { c.reply [.error handshakeRequired] with closed := true }
  else
    let (server, msgs) := E.dispatch c.server msg
    { c with server := server, dispatched := c.dispatched ++ [msg] }.reply msgs

/-- An iteration of the receive loop. -/
def receive (c : Connection M R σ) : Connection M R σ :=
  if c.closed then c
  else
    let (up, msg) := c.up.read maxMsgLen E.decode
    let c := { c with up := up, closed := up.stopped }
    match msg with
    | none => c
    | some msg => c.handle E msg

/-- The connection after a step. -/
def step (c : Connection M R σ) : ConnAct M R → Connection M R σ
  | .send msg => { c with sendQueue := c.sendQueue ++ [msg], sent := c.sent ++ [msg] }
  | .write =>
    match c.sendQueue with
    | [] => c
    | msg :: queue => { c with sendQueue := queue, up := c.up.write (frame (E.encode msg)) }
  | .inject bytes => { c with up := c.up.write bytes }
  | .arrive n => { c with up := c.up.arrive n }
  | .receive => c.receive E
  | .hangUp => { c with closed := true }
  | .announce msg => if c.helloReceived && !c.closed then c.reply [.other msg] else c
  | .writeReply =>
    match c.tx with
    | [] => c
    | msg :: queue => { c with tx := queue, down := c.down.write (frame (E.encodeReply msg)) }
  | .arriveReply n => { c with down := c.down.arrive n }
  | .receiveReply => { c with down := (c.down.read maxMsgLen E.decodeReply).1 }

/-! ## The gate -/

/-- The messages after a greeting in the version of the server. -/
def admitted : List (ClientToServer M) → List (ClientToServer M)
  | .hello protoVersion _ _ :: msgs => if protoVersion = protocolVersion then msgs else []
  | _ => []

/-- The answer to the first message. -/
def answer : ClientToServer M → Reply R
  | .hello protoVersion _ _ =>
    if protoVersion = protocolVersion then .helloAck protocolVersion E.serverVersion
    else .error (versionMismatch protoVersion)
  | .request _ => .error handshakeRequired

/-- A greeting in the version of the server. -/
def Greets : ClientToServer M → Prop
  | .hello protoVersion _ _ => protoVersion = protocolVersion
  | .request _ => False

/-- What holds between two steps. -/
structure Gated (c : Connection M R σ) : Prop where
  up : c.up.Reads maxMsgLen E.decode
  dispatched : c.dispatched = admitted c.up.got
  greets : c.helloReceived ↔ ∃ msg ∈ c.up.got.head?, Greets msg
  /-- A client that does not greet is not read any further. -/
  refused : c.helloReceived = false → c.replied = (c.up.got.map (answer E)) ∧
    c.up.got.length ≤ 1 ∧ (c.up.got ≠ [] → c.closed)
  answered : c.replied.head? = c.up.got.head?.map (answer E)

variable {E} {c : Connection M R σ}

theorem admitted_append {msgs : List (ClientToServer M)} {first : ClientToServer M}
    (hfirst : first ∈ msgs.head?) (hgreets : Greets first) (msg : ClientToServer M) :
    admitted (msgs ++ [msg]) = admitted msgs ++ [msg] := by
  cases msgs with
  | nil => cases hfirst
  | cons m msgs =>
    obtain rfl := Option.some.inj hfirst
    cases m with
    | hello protoVersion clientKind clientVersion =>
      have hversion : protoVersion = protocolVersion := hgreets
      simp [admitted, hversion]
    | request msg => exact hgreets.elim

theorem gated_setup (server : σ) (hello : ClientToServer M) :
    (setup server hello : Connection M R σ).Gated E where
  up := Inlet.reads_new
  dispatched := rfl
  greets := by simp [setup, Inlet.new]
  refused := fun _ => ⟨rfl, Nat.zero_le _, fun h => absurd rfl h⟩
  answered := rfl

/-- A step that does not concern the receive loop. -/
theorem Gated.frame (h : c.Gated E) {c' : Connection M R σ}
    (hup : c'.up.Reads maxMsgLen E.decode) (hgot : c'.up.got = c.up.got)
    (hhello : c'.helloReceived = c.helloReceived) (hdispatched : c'.dispatched = c.dispatched)
    (hreplied : c'.replied = c.replied) (hclosed : c.closed → c'.closed) : c'.Gated E where
  up := hup
  dispatched := by rw [hdispatched, hgot, h.dispatched]
  greets := by rw [hhello, hgot, h.greets]
  refused := by
    rw [hhello, hgot, hreplied]
    intro hno
    obtain ⟨hrep, hlen, hend⟩ := h.refused hno
    exact ⟨hrep, hlen, fun hne => hclosed (hend hne)⟩
  answered := by rw [hreplied, hgot, h.answered]

theorem head?_append_of_head? {α : Type} {l : List α} {x : α} (h : x ∈ l.head?) (l' : List α) :
    (l ++ l').head? = l.head? := by
  cases l with
  | nil => cases h
  | cons _ _ => rfl

/-- Further messages to a client that has greeted. -/
theorem Gated.reply (h : c.Gated E) (hhello : c.helloReceived = true) (msgs : List (Reply R)) :
    (c.reply msgs).Gated E where
  up := h.up
  dispatched := h.dispatched
  greets := h.greets
  refused := fun hno => absurd (hhello.symm.trans hno) Bool.noConfusion
  answered := by
    obtain ⟨first, hfirst, -⟩ := h.greets.1 hhello
    have hhead : answer E first ∈ c.replied.head? := by
      rw [h.answered, Option.mem_def.1 hfirst]
      rfl
    show (c.replied ++ msgs).head? = _
    rw [head?_append_of_head? hhead, h.answered]
    rfl

theorem got_read (s : Inlet (ClientToServer M)) :
    (s.read maxMsgLen E.decode).1.got = s.got ++ (s.read maxMsgLen E.decode).2.toList := by
  unfold Inlet.read
  split_ifs
  · exact (List.append_nil _).symm
  · exact (List.append_nil _).symm
  · exact (List.append_nil _).symm
  · rfl

/-- A message of a client that has greeted. -/
theorem Gated.dispatch (h : c.Gated E) (hhello : c.helloReceived = true)
    {up : Inlet (ClientToServer M)} (hup : up.Reads maxMsgLen E.decode) {msg : ClientToServer M}
    (hgot : up.got = c.up.got ++ [msg]) :
    ({ c with up := up, closed := up.stopped }.handle E msg).Gated E := by
  obtain ⟨first, hfirst, hgreets⟩ := h.greets.1 hhello
  unfold handle
  rw [if_neg (by simp [hhello])]
  refine Gated.reply (c := { c with
    up := up
    closed := up.stopped
    server := (E.dispatch c.server msg).1
    dispatched := c.dispatched ++ [msg] }) ?_ hhello _
  exact {
    up := hup
    dispatched := by
      show c.dispatched ++ [msg] = admitted up.got
      rw [hgot, admitted_append hfirst hgreets, h.dispatched]
    greets := by
      show c.helloReceived ↔ ∃ msg ∈ up.got.head?, Greets msg
      rw [hgot, head?_append_of_head? hfirst, h.greets]
    refused := fun hno => absurd (hhello.symm.trans hno) Bool.noConfusion
    answered := by
      show c.replied.head? = up.got.head?.map (answer E)
      rw [hgot, head?_append_of_head? hfirst, h.answered] }

/-- The first message. -/
theorem Gated.first (h : c.Gated E) (hhello : c.helloReceived = false) (hopen : c.closed = false)
    {up : Inlet (ClientToServer M)} (hup : up.Reads maxMsgLen E.decode) {msg : ClientToServer M}
    (hgot : up.got = c.up.got ++ [msg]) :
    ({ c with up := up, closed := up.stopped }.handle E msg).Gated E := by
  obtain ⟨hreplied, -, hend⟩ := h.refused hhello
  have hnone : c.up.got = [] := by
    by_contra hne
    exact absurd (hopen.symm.trans (hend hne)) Bool.noConfusion
  rw [hnone, List.nil_append] at hgot
  rw [hnone, List.map_nil] at hreplied
  have hdispatched : c.dispatched = [] := by rw [h.dispatched, hnone]; rfl
  -- whatever the answer, it is the first one
  have hbase : ∀ (hello ended : Bool), (hello = true ↔ Greets msg) → (hello = false → ended = true) →
      Gated E { c.reply [answer E msg] with up := up, helloReceived := hello, closed := ended } := by
    intro hello ended hgreets hended
    exact {
      up := hup
      dispatched := by
        show c.dispatched = admitted up.got
        rw [hdispatched, hgot]
        cases msg with
        | hello protoVersion clientKind clientVersion => simp [admitted]
        | request msg => rfl
      greets := by
        show hello = true ↔ ∃ m ∈ up.got.head?, Greets m
        rw [hgot, hgreets]
        simp
      refused := by
        intro hno
        refine ⟨?_, by rw [hgot]; exact le_rfl, fun _ => hended hno⟩
        show c.replied ++ [answer E msg] = up.got.map (answer E)
        rw [hreplied, hgot]
        rfl
      answered := by
        show (c.replied ++ [answer E msg]).head? = up.got.head?.map (answer E)
        rw [hreplied, hgot]
        rfl }
  unfold handle
  rw [if_pos (by simp [hhello])]
  cases msg with
  | hello protoVersion clientKind clientVersion =>
    by_cases hversion : protoVersion = protocolVersion
    · have hyes := hbase true up.stopped (by simpa [Greets] using hversion) (by simp)
      simpa [answer, hversion, Connection.reply] using hyes
    · have hno := hbase c.helloReceived true (by simpa [hhello, Greets] using hversion) fun _ => rfl
      simpa [answer, hversion, Connection.reply] using hno
  | request msg =>
    have hno := hbase c.helloReceived true (by simp [hhello, Greets]) fun _ => rfl
    simpa [answer, Connection.reply] using hno

theorem Gated.receive (h : c.Gated E) : (c.receive E).Gated E := by
  unfold Connection.receive
  by_cases hclosed : c.closed
  · rw [if_pos hclosed]
    exact h
  · rw [if_neg hclosed]
    have hup := h.up.read
    have hgot := got_read (E := E) c.up
    dsimp only
    generalize (c.up.read maxMsgLen E.decode).1 = up at hup hgot ⊢
    cases hmsg : (c.up.read maxMsgLen E.decode).2 with
    | none =>
      rw [hmsg] at hgot
      have hsame : up.got = c.up.got := hgot.trans (List.append_nil _)
      exact h.frame hup hsame rfl rfl rfl fun h => absurd h hclosed
    | some msg =>
      rw [hmsg] at hgot
      by_cases hhello : c.helloReceived = true
      · exact h.dispatch hhello hup hgot
      · exact h.first (by simpa using hhello) (by simpa using hclosed) hup hgot

theorem Gated.step (h : c.Gated E) (act : ConnAct M R) : (c.step E act).Gated E := by
  cases act with
  | send msg => exact h.frame h.up rfl rfl rfl rfl id
  | write =>
    unfold Connection.step
    cases c.sendQueue with
    | nil => exact h
    | cons msg queue => exact h.frame (h.up.write _) rfl rfl rfl rfl id
  | inject bytes => exact h.frame (h.up.write bytes) rfl rfl rfl rfl id
  | arrive n => exact h.frame (h.up.arrive n) rfl rfl rfl rfl id
  | receive => exact h.receive
  | hangUp => exact h.frame h.up rfl rfl rfl rfl fun _ => rfl
  | announce msg =>
    show Gated E (if c.helloReceived && !c.closed then c.reply [.other msg] else c)
    split_ifs with hopen
    · exact h.reply (Bool.and_eq_true_iff.1 hopen).1 _
    · exact h
  | writeReply =>
    unfold Connection.step
    cases c.tx with
    | nil => exact h
    | cons msg queue => exact h.frame h.up rfl rfl rfl rfl id
  | arriveReply n => exact h.frame h.up rfl rfl rfl rfl id
  | receiveReply => exact h.frame h.up rfl rfl rfl rfl id

/-- **The gate.**  Whatever a client writes and however the bytes arrive, the server has dispatched
    exactly the messages it has read after a greeting in its own version; it has read the messages
    of the stream in order, and all of them if it still waits for bytes.  Its first reply is the
    answer to the first message, and the only one if that was no such greeting. -/
theorem gate_run (E : Endpoint M R σ) (server : σ) (hello : ClientToServer M)
    (acts : List (ConnAct M R)) :
    let c := Runs.run (step E) (setup server hello) acts
    ∃ msgs, msgs <+: (readFrames maxMsgLen E.decode c.up.written).1 ∧
      (c.up.Drained maxMsgLen → msgs = (readFrames maxMsgLen E.decode c.up.written).1) ∧
      c.dispatched = admitted msgs ∧
      c.replied.head? = msgs.head?.map (answer E) ∧
      ((∀ msg ∈ msgs.head?, ¬Greets msg) → c.replied.length ≤ 1) := by
  have h : (Runs.run (step E) (setup server hello) acts).Gated E :=
    Runs.run_inv (fun _ act h => h.step act) (gated_setup server hello)
  dsimp only
  generalize Runs.run (step E) (setup server hello) acts = c at h ⊢
  refine ⟨c.up.got, h.up.got_prefix, ?_, h.dispatched, h.answered, ?_⟩
  · intro hdrained
    rw [h.up.got_eq hdrained]
  · intro hnot
    have hhello : c.helloReceived = false := by
      rw [Bool.eq_false_iff]
      intro hyes
      obtain ⟨msg, hmem, hgreets⟩ := h.greets.1 hyes
      exact hnot msg hmem hgreets
    obtain ⟨hreplied, hlen, -⟩ := h.refused hhello
    rw [hreplied, List.length_map]
    exact hlen

/-! ## A client of ours -/

/-- The messages that a client of ours has written are the first ones of those it has sent, and
    likewise for the server. -/
structure Framed (E : Endpoint M R σ) (c : Connection M R σ) : Prop where
  up : ∃ done, c.sent = done ++ c.sendQueue ∧
    c.up.written = done.flatMap fun m => frame (E.encode m)
  down : ∃ done, c.replied = done ++ c.tx ∧
    c.down.written = done.flatMap fun m => frame (E.encodeReply m)
  reads : c.down.Reads maxMsgLen E.decodeReply

theorem framed_setup (server : σ) (hello : ClientToServer M) :
    Framed E (setup server hello : Connection M R σ) where
  up := ⟨[], rfl, rfl⟩
  down := ⟨[], rfl, rfl⟩
  reads := Inlet.reads_new

theorem Framed.reply (h : c.Framed E) (msgs : List (Reply R)) : (c.reply msgs).Framed E where
  up := h.up
  down := by
    obtain ⟨done, hreplied, hwritten⟩ := h.down
    exact ⟨done, by simp [Connection.reply, hreplied], hwritten⟩
  reads := h.reads

theorem Framed.handle (h : c.Framed E) (msg : ClientToServer M) : (c.handle E msg).Framed E := by
  have hclose : ∀ {c : Connection M R σ} (hello ended : Bool), c.Framed E →
      Framed E { c with helloReceived := hello, closed := ended } :=
    fun _ _ h => ⟨h.up, h.down, h.reads⟩
  unfold Connection.handle
  split_ifs
  · cases msg with
    | hello protoVersion clientKind clientVersion =>
      dsimp only
      split_ifs
      · exact hclose _ true (h.reply _)
      · exact hclose true _ (h.reply _)
    | request msg => exact hclose _ true (h.reply _)
  · exact Framed.reply (c := { c with
      server := (E.dispatch c.server msg).1
      dispatched := c.dispatched ++ [msg] }) ⟨h.up, h.down, h.reads⟩ _

theorem written_read (s : Inlet (ClientToServer M)) :
    (s.read maxMsgLen E.decode).1.written = s.written := by
  unfold Inlet.read
  split_ifs <;> rfl

theorem Framed.receive (h : c.Framed E) : (c.receive E).Framed E := by
  unfold Connection.receive
  split_ifs
  · exact h
  · have hread : Framed E { c with
        up := (c.up.read maxMsgLen E.decode).1
        closed := (c.up.read maxMsgLen E.decode).1.stopped } := by
      obtain ⟨done, hsent, hwritten⟩ := h.up
      exact ⟨⟨done, hsent, (written_read c.up).trans hwritten⟩, h.down, h.reads⟩
    dsimp only
    split
    · exact hread
    · exact hread.handle _

theorem written_read_reply (s : Inlet (Reply R)) :
    (s.read maxMsgLen E.decodeReply).1.written = s.written := by
  unfold Inlet.read
  split_ifs <;> rfl

theorem Framed.step (h : c.Framed E) {act : ConnAct M R} (hact : ∀ bytes, act ≠ .inject bytes) :
    (c.step E act).Framed E := by
  obtain ⟨done, hsent, hwritten⟩ := h.up
  obtain ⟨doneReplies, hreplied, hwrittenReplies⟩ := h.down
  cases act with
  | send msg =>
    refine ⟨⟨done, ?_, hwritten⟩, h.down, h.reads⟩
    simp [Connection.step, hsent]
  | write =>
    unfold Connection.step
    cases hqueue : c.sendQueue with
    | nil => exact h
    | cons msg queue =>
      refine ⟨⟨done ++ [msg], ?_, ?_⟩, h.down, h.reads⟩
      · show c.sent = _
        rw [hsent, hqueue]
        simp
      · show c.up.written ++ frame (E.encode msg) = _
        rw [hwritten]
        simp
  | inject bytes => exact absurd rfl (hact bytes)
  | arrive n => exact ⟨⟨done, hsent, hwritten⟩, h.down, h.reads⟩
  | receive => exact h.receive
  | hangUp => exact ⟨h.up, h.down, h.reads⟩
  | announce msg =>
    unfold Connection.step
    split_ifs
    · exact h.reply _
    · exact h
  | writeReply =>
    unfold Connection.step
    cases hqueue : c.tx with
    | nil => exact h
    | cons msg queue =>
      refine ⟨h.up, ⟨doneReplies ++ [msg], ?_, ?_⟩, h.reads.write _⟩
      · show c.replied = _
        rw [hreplied, hqueue]
        simp
      · show c.down.written ++ frame (E.encodeReply msg) = _
        rw [hwrittenReplies]
        simp
  | arriveReply n => exact ⟨h.up, ⟨doneReplies, hreplied, hwrittenReplies⟩, h.reads.arrive n⟩
  | receiveReply =>
    exact ⟨h.up, ⟨doneReplies, hreplied, (written_read_reply c.down).trans hwrittenReplies⟩,
      h.reads.read⟩

/-- The greeting stays in front of what the client has sent. -/
theorem sent_run (hello : ClientToServer M) : ∀ (acts : List (ConnAct M R)) {c : Connection M R σ},
    (∃ rest, c.sent = hello :: rest) → ∃ rest, (Runs.run (step E) c acts).sent = hello :: rest := by
  have hreply : ∀ (c : Connection M R σ) msgs, (c.reply msgs).sent = c.sent := fun _ _ => rfl
  have hhandle : ∀ (c : Connection M R σ) msg, (c.handle E msg).sent = c.sent := by
    intro c msg
    unfold Connection.handle
    split_ifs
    · cases msg with
      | hello protoVersion clientKind clientVersion =>
        dsimp only
        split_ifs <;> rfl
      | request msg => rfl
    · rfl
  have hreceive : ∀ c : Connection M R σ, (c.receive E).sent = c.sent := by
    intro c
    unfold Connection.receive
    split_ifs
    · rfl
    · dsimp only
      split
      · rfl
      · exact hhandle _ _
  refine fun acts c h => Runs.run_inv (P := fun c : Connection M R σ => ∃ rest, c.sent = hello :: rest)
    ?_ h
  rintro c act ⟨rest, hrest⟩
  cases act with
  | send msg => exact ⟨rest ++ [msg], by show c.sent ++ [msg] = _; rw [hrest]; rfl⟩
  | receive => exact ⟨rest, (hreceive c).trans hrest⟩
  | announce msg =>
    refine ⟨rest, ?_⟩
    show (if c.helloReceived && !c.closed then c.reply [.other msg] else c).sent = _
    split_ifs <;> exact hrest
  | write =>
    refine ⟨rest, ?_⟩
    unfold Connection.step
    cases c.sendQueue <;> exact hrest
  | writeReply =>
    refine ⟨rest, ?_⟩
    unfold Connection.step
    cases c.tx <;> exact hrest
  | _ => exact ⟨rest, hrest⟩

end Connection

/-! ## A client that pings -/

section

open Codec

/-- The greeting and `Ping` in the `postcard` format. -/
def ClientToServer.codec : Codec (ClientToServer Unit) :=
  tagged
    (fun m => match m with
      | .request _ => 10
      | .hello _ _ _ => 55)
    (fun m => match m with
      | .request _ => []
      | .hello protoVersion kind clientVersion =>
        (pair u32 (pair byte string)).enc
          (protoVersion, if kind = .gpu then 0 else if kind = .tui then 1
            else if kind = .ctl then 2 else 3, clientVersion))
    (fun tag bytes => match tag with
      | 10 => some (.request (), bytes)
      | 55 => (pair u32 (pair byte string)).decAs
        (fun p => .hello p.1 (if p.2.1 = 0 then .gpu else if p.2.1 = 1 then .tui
          else if p.2.1 = 2 then .ctl else .other) p.2.2) bytes
      | _ => none)
    (by
      intro m rest
      cases m with
      | request msg => rfl
      | hello protoVersion kind clientVersion =>
        simp only [decAs_enc]
        cases kind <;> rfl)

/-- `Pong`, the acknowledgement and the error in the `postcard` format. -/
def Reply.codec : Codec (Reply Unit) :=
  tagged
    (fun m => match m with
      | .other _ => 3
      | .error _ => 4
      | .helloAck _ _ => 38)
    (fun m => match m with
      | .other _ => []
      | .error message => string.enc message
      | .helloAck protoVersion serverVersion =>
        (pair u32 string).enc (protoVersion, serverVersion))
    (fun tag bytes => match tag with
      | 3 => some (.other (), bytes)
      | 4 => string.decAs .error bytes
      | 38 => (pair u32 string).decAs (fun p => .helloAck p.1 p.2) bytes
      | _ => none)
    (by
      intro m rest
      cases m with
      | other msg => rfl
      | error message => simp only [decAs_enc]
      | helloAck protoVersion serverVersion => simp only [decAs_enc])

/-- A server that answers a ping. -/
def pingPong : Endpoint Unit Unit Unit where
  encode := ClientToServer.codec.enc
  decode bytes := (ClientToServer.codec.dec bytes).map Prod.fst
  encodeReply := Reply.codec.enc
  decodeReply bytes := (Reply.codec.dec bytes).map Prod.fst
  dispatch _ msg :=
    match msg with
    | .request _ => ((), [.other ()])
    | .hello _ _ _ => ((), [])
  serverVersion := "1.17.1"

end

namespace Connection

end Connection

end Nexterm.Ipc
