import SsnIpc.Client.Writes
import SsnIpc.Server.Writes

/-!
# A server and its clients

A server, any number of clients, and the byte streams between them. Client `id` is at the other end
of the server's connection `id`. A step is a call on one side, a round of a timer, or a poll that
finds some of the bytes under way, in any number; sends may be cut short, and connections may fail
at any time.

**Theorem (`network_delivers`).** On every connection, in every interleaving: the frames that the
server has dispatched are the messages that the client sent with success, in order and each as it
was sent, up to some point, and all of them if no byte is under way; and the same from the server
to the client.

So no message is lost, doubled, reordered or altered between `ssn_client_sendmsg` and
`ssn_server_input`, or between `ssn_server_cli_sendmsg` and `ssn_client_input`, even where a send
fails half way: the sender closes its descriptor then (`ClientWorld.Writes`, `World.Writes`).
-/

namespace Ssn

open ByteMem

variable {κ β : Type*} {id : UInt32}

/-! ## The model -/

/-- A server and its clients. Client `id` is at the other end of the connection `id`. -/
structure Network (κ β : Type*) where
  client : UInt32 → ClientWorld κ
  server : World β

inductive NetworkStep (κ : Type*)
  /-- A call of the client, a poll that receives nothing, or a round of the timer. -/
  | call (id : UInt32) (op : ClientOp κ)
  /-- The request of `ssn_client_ping`. -/
  | ping (id : UInt32) (k : κ) (timeoutMs : Nat)
  /-- The end of `ssn_client_ping`. -/
  | pingEnd (id : UInt32) (seqno : UInt16)
  /-- A poll of the client that finds up to `n` of the bytes under way to it. -/
  | receive (id : UInt32) (n : Nat)
  /-- A step of the server. -/
  | serve (op : ServerOp)
  /-- A poll of the server that finds up to `n` of the bytes under way from the client. -/
  | deliver (id : UInt32) (n : Nat)

namespace Network

/-- The bytes that the client has written and the server has not received. -/
def up (s : Network κ β) (id : UInt32) : Bytes :=
  (sentBytes (s.client id).sends).drop (conn s.server.log id).stream.length

/-- The bytes that the server has written and the client has not received. -/
def down (s : Network κ β) (id : UInt32) : Bytes :=
  (sentBytes (s.server.sendsTo id)).drop (s.client id).conn.stream.length

def setClient (s : Network κ β) (id : UInt32) (w : ClientWorld κ) : Network κ β :=
  { s with client := Function.update s.client id w }

/-- What a poll receives of the bytes under way. -/
def received (bytes : Bytes) (n : Nat) : Option RecvResult :=
  if bytes.take n = [] then none else some (.data (bytes.take n))

/-- One step. `cnet id` is what the socket of the client answers to its sends, `snet` what the
sockets of the server answer. -/
def step [DecidableEq κ] (cnet : UInt32 → Nat → Nat → SendStep) (snet : Nat → Nat → SendStep)
    (s : Network κ β) : NetworkStep κ → Network κ β
  | .call id op => s.setClient id ((s.client id).step (cnet id) op)
  | .ping id k timeoutMs =>
    s.setClient id
      ((s.client id).requestEx (cnet id) MsgType.pingEcho none none (some k) timeoutMs).1
  | .pingEnd id seqno => s.setClient id ((s.client id).pingCancel seqno)
  | .receive id n => s.setClient id ((s.client id).poll (.ready (received (s.down id) n)))
  | .serve op => { s with server := s.server.step snet op }
  | .deliver id n =>
    match received (s.up id) n with
    | none => s
    | some r => { s with server := s.server.handleClientInput snet id r }

end Network

/-- A step of a client that makes no connection and receives nothing. (A ping, which polls, is
taken apart into its request and its end.) -/
def ClientOp.Local : ClientOp κ → Prop
  | .connect _ _ | .sendTimeout _ _ | .ping _ _ _ => False
  | .poll (.ready (some (.data _))) => False
  | _ => True

/-- A step of a server that leaves the bytes of the connection `id` alone: it does not give the id
to a new connection, and receives nothing on it. -/
def World.Spares (w : World β) (id : UInt32) : ServerOp → Prop
  | .newConnection _ => ∀ p ∈ w.server.cliNewid (2 ^ 32) w.server.ncid, p.1 ≠ id
  | .clientInput id' (.data _) => id' ≠ id
  | _ => True

namespace Network

/-- The step leaves the connection `id` between its two ends. Nothing is asked of other
connections. -/
def Holds (id : UInt32) (s : Network κ β) : NetworkStep κ → Prop
  | .call id' op => id' = id → op.Local
  | .serve op => s.server.Spares id op
  | _ => True

/-- The frames dispatched at one end are the messages sent at the other, up to some point, and all
of them if nothing is under way. -/
structure Delivered (sends : List (Message × SendOut)) (c : Conn) (underWay : Bytes) : Prop where
  reads : List.Forall₂ Message.Reads ((sentOk sends).take c.frames.length) c.frames
  all : underWay = [] → c.frames.length = (sentOk sends).length

def Delivers (id : UInt32) (s : Network κ β) : Prop :=
  Delivered (s.client id).sends (conn s.server.log id) (s.up id) ∧
    Delivered (s.server.sendsTo id) (s.client id).conn (s.down id)

end Network

/-! ## What steps do to the bytes of a connection -/

theorem sentBytes_mono {l l' : List (Message × SendOut)} (h : l <+: l') :
    sentBytes l <+: sentBytes l' := by
  obtain ⟨r, rfl⟩ := h
  rw [sentBytes, sentBytes, List.flatMap_append]
  exact List.prefix_append ..

namespace ClientWorld

variable {net : Nat → Nat → SendStep} {w w' w'' : ClientWorld κ}

/-- Nothing is received, and at most more is sent. -/
structure Steady (w w' : ClientWorld κ) : Prop where
  conn : w'.conn = w.conn
  sends : w.sends <+: w'.sends

theorem Steady.refl (w : ClientWorld κ) : Steady w w := ⟨rfl, List.prefix_refl _⟩

theorem Steady.trans (h : Steady w w') (h' : Steady w' w'') : Steady w w'' :=
  ⟨h'.conn.trans h.conn, h.sends.trans h'.sends⟩

theorem Steady.of_quiet (h : Quiet w w') : Steady w w' := by
  refine ⟨h.conn, ?_⟩
  obtain ⟨es, hlog, hes⟩ := h.log
  rw [ClientWorld.sends, ClientWorld.sends, hlog, List.foldl_append]
  clear hlog
  generalize w.log.foldl ClientEvent.sends [] = acc
  induction es generalizing acc with
  | nil => exact List.prefix_refl _
  | cons e es ih =>
    rw [List.forall_mem_cons] at hes
    refine List.IsPrefix.trans ?_ (ih hes.2 _)
    cases e with
    | opened => exact hes.1.elim
    | sent msg out => exact List.prefix_append ..
    | _ => exact List.prefix_refl _

theorem steady_setClient {c : SsnClient κ} : Steady w (w.setClient c) := ⟨rfl, List.prefix_refl _⟩

theorem steady_send (net : Nat → Nat → SendStep) (msg : Message) :
    Steady w (w.send net msg).1 := by
  refine ⟨conn_emit _, ?_⟩
  rw [sends_send]
  exact List.prefix_append ..

theorem steady_requestWith {ftype : FType} {msgType : UInt8} {url data : Option Ref}
    {timeoutMs : Nat} (callback : Option κ) :
    Steady w (w.requestWith net ftype msgType url data callback timeoutMs).1 := by
  rcases hs : w.requestSending ftype msgType url data callback timeoutMs with _ | p
  · rw [requestWith_none hs]
    exact .refl w
  · obtain ⟨w', hq, heq⟩ := requestWith_some net hs
    have hsent : Steady w (p.1.send net p.2).1 :=
      (Steady.of_quiet (quiet_requestSending hs)).trans (steady_send net p.2)
    rw [heq]
    exact hsent.trans (.of_quiet hq)

theorem steady_requestEx {msgType : UInt8} {url data : Option Ref} {timeoutMs : Nat}
    (callback : Option κ) :
    Steady w (w.requestEx net msgType url data callback timeoutMs).1 := by
  unfold ClientWorld.requestEx
  split_ifs
  · exact steady_requestWith callback
  · exact .refl w

theorem chunks_feedInput (buf : Bytes) :
    (w.feedInput buf).1.conn.chunks = w.conn.chunks ++ [buf] := by
  have hnote : (w.emit (.received buf)).conn.chunks = w.conn.chunks ++ [buf] := by
    rw [conn_emit]
    rfl
  exact streamFeed_keeps (P := fun w' : ClientWorld κ => w'.conn.chunks = w.conn.chunks ++ [buf])
    (fun w' f h => by rw [clientInput, conn_input]; exact h) _ _ _ hnote

/-- A poll receives nothing, or all that it is given, up to the size of its buffer. -/
theorem conn_poll (outcome : PollOutcome) :
    (w.poll outcome).conn = w.conn ∨ ∃ buf, outcome = .ready (some (.data buf)) ∧
      (w.poll outcome).conn.stream = w.conn.stream ++ buf.take maxPacketSize := by
  have hevent (v : ClientWorld κ) : v.handleEvent.conn = v.conn := quiet_handleEvent.conn
  have hset (v : ClientWorld κ) (c : SsnClient κ) : (v.setClient c).conn = v.conn := rfl
  have hlost (v : ClientWorld κ) : v.connectionLost.conn = v.conn := by
    rw [connectionLost]
    exact quiet_timeoutAll.conn
  have hfed (buf : Bytes) : (w.feedInput buf).1.conn.stream = w.conn.stream ++ buf := by
    rw [Conn.stream, chunks_feedInput, List.flatten_append]
    simp [Conn.stream]
  -- Only a read that returns bytes adds to the stream, also if the parser rejects them.
  cases outcome with
  | idle => exact .inl rfl
  | ready sock =>
    unfold poll processEvents
    by_cases hc : w.client.connected = true
    · simp only [if_pos hc]
      by_cases ho : w.isOpen = true
      · simp only [if_pos ho]
        rcases sock with _ | buf | _ | _ | _
        · exact .inl (hevent w)
        · by_cases hbuf : buf = []
          · left
            simp only [if_pos hbuf, Bool.false_eq_true, if_false, hset, hlost]
          · refine .inr ⟨buf, rfl, ?_⟩
            simp only [if_neg hbuf]
            rw [← hfed]
            generalize w.feedInput (buf.take maxPacketSize) = fed
            rcases fed with ⟨v, _ | _⟩
            · simp only [Bool.false_eq_true, if_false, hset, hlost]
            · exact congrArg Conn.stream (hevent v)
        · left
          simp only [Bool.false_eq_true, if_false, hset, hlost]
        · exact .inl (hevent w)
        · left
          simp only [Bool.false_eq_true, if_false, hset, hlost]
      · simp only [if_neg ho]
        exact .inl (hevent w)
    · simp only [if_neg hc]
      exact .inl (hevent w)

theorem steady_step [DecidableEq κ] {op : ClientOp κ} (hop : op.Local) :
    Steady w (w.step net op) := by
  by_cases hcall : op.isCall = true
  · exact call_keeps hcall (fun _ => steady_setClient)
      (fun _ hv => hv.trans (steady_requestWith _)) (fun msg _ => steady_send net msg) (.refl w)
  cases op with
  | connect timeoutMs run => exact hop.elim
  | sendTimeout timeoutMs outcome => exact hop.elim
  | ping k timeoutMs polls => exact hop.elim
  | disconnect =>
    simp only [ClientWorld.step, disconnect]
    split_ifs
    · exact steady_setClient.trans (.of_quiet quiet_timeoutAll)
    · exact .refl w
  | poll outcome =>
    refine ⟨?_, (mute_poll outcome).sends.symm ▸ List.prefix_refl _⟩
    rcases conn_poll (w := w) outcome with e | ⟨buf, rfl, -⟩
    · exact e
    · exact hop.elim
  | timerSweep => exact steady_setClient
  | _ => exact absurd rfl hcall

end ClientWorld

namespace World

variable {net : Nat → Nat → SendStep} {w w' : World β} {id' : UInt32}

/-- The id is not given to a new connection. -/
def NotNew (id : UInt32) : ServerEvent β → Prop
  | .accepted id' => id' ≠ id
  | _ => True

/-- The entry tells nothing of what is received on the connection `id`. -/
def Aside (id : UInt32) : ServerEvent β → Prop
  | .accepted id' | .received id' _ | .input id' _ => id' ≠ id
  | _ => True

theorem Aside.notNew {e : ServerEvent β} (h : Aside id e) : NotNew id e := by
  cases e <;> first | exact h | trivial

theorem Minor.aside {e : ServerEvent β} (h : Minor e) : Aside id e := by
  cases e <;> first | exact h.elim | trivial

theorem Grows.sendsTo (h : Grows (NotNew id) w w') : w.sendsTo id <+: w'.sendsTo id := by
  obtain ⟨es, hlog, hes⟩ := h
  rw [World.sendsTo, World.sendsTo, hlog, List.foldl_append]
  clear hlog
  generalize w.log.foldl (ServerEvent.sends id) [] = acc
  induction es generalizing acc with
  | nil => exact List.prefix_refl _
  | cons e es ih =>
    rw [List.forall_mem_cons] at hes
    refine List.IsPrefix.trans ?_ (ih hes.2 _)
    cases e with
    | accepted id' =>
      have hsame : (ServerEvent.accepted id' : ServerEvent β).sends id acc = acc := if_neg hes.1
      exact hsame.symm ▸ List.prefix_refl acc
    | sent id' msg out =>
      rw [ServerEvent.sends]
      split_ifs
      · exact List.prefix_append ..
      · exact List.prefix_refl _
    | _ => exact List.prefix_refl _

theorem Grows.conn_aside (h : Grows (Aside id) w w') : conn w'.log id = conn w.log id := by
  obtain ⟨es, hlog, hes⟩ := h
  rw [hlog, conn_append]
  refine Runs.run_fixed fun e he => ?_
  have ha := hes e he
  cases e <;> first | exact if_neg ha | rfl

theorem grows_takeChunk {K : ServerEvent β → Prop} (hrecv : ∀ buf, K (.received id' buf))
    (hinput : ∀ f, K (.input id' f)) (hanswer : ∀ e, Answer e → K e) (buf : Bytes)
    (frames : List Frame) (recv : StreamCtx) :
    Grows K w (w.takeChunk net id' buf frames recv) := by
  have hnote : Grows K w (w.emit (.received id' buf)) := (Grows.of_eq rfl).emit (hrecv buf)
  refine List.foldlRecOn (motive := fun w' : World β => Grows K w w') frames (input net id') hnote
    fun w' hw' f _ => hw'.trans ?_
  obtain ⟨es, hlog, hes⟩ := log_input net w' id' f
  refine ⟨_, hlog, fun e he => ?_⟩
  rcases List.mem_cons.1 he with rfl | he
  · exact hinput f
  · exact hanswer e (hes e he)

/-- A step that spares the connection tells nothing of what is received on it. -/
theorem grows_step_aside (net : Nat → Nat → SendStep) (h : w.TableOk) {op : ServerOp}
    (hop : w.Spares id op) : Grows (Aside id) w (w.step net op) := by
  have hquiet {v : World β} (hq : Quiet w v) : Grows (Aside id) w v :=
    hq.log.mono fun e he => he.plain.minor.aside
  have hclose (cli : Client) : Grows (Aside id) w (w.closeClient cli) :=
    (grows_closeClient cli).mono fun e he => he.aside
  cases op with
  | newConnection fd =>
    simp only [step, handleNewConnection]
    split_ifs
    · exact .of_eq rfl
    · split
      · exact .of_eq rfl
      · rename_i id' ncid hnew
        have hne : id' ≠ id := hop _ hnew
        exact ⟨[.accepted id'], rfl, by simpa [Aside] using hne⟩
  | clientInput id' r =>
    rw [step]
    cases r with
    | data buf =>
      have hne : id' ≠ id := hop
      rcases handleClientInput_cases net h id' (.data buf) with e | ⟨cli, -, -, e | ⟨b, recv, -, e⟩⟩
      · exact .of_eq (by rw [e])
      · rw [e]
        exact hclose cli
      · rw [e]
        exact grows_takeChunk (fun _ => hne) (fun _ => hne) (fun e he => he.minor.aside) _ _ _
    | _ =>
      -- nothing is received
      unfold handleClientInput
      split
      · exact .of_eq rfl
      · split_ifs
        · exact .of_eq rfl
        · first | exact hclose _ | exact .of_eq rfl
  | eventInput =>
    refine event_invariant (fun hw : Grows (Aside id) w w => hw) (fun v id' hv => ?_) (.of_eq rfl)
    exact hv.trans ⟨[.removed id'], rfl, by simp [Aside]⟩
  | timerSweep => exact .of_eq rfl
  | peerClose id' => exact .of_eq rfl
  | publish url data => exact hquiet (quiet_publish h.wf url data)
  | response id' status seqno data => exact hquiet (quiet_sendTo h.wf _)
  | message id' url data =>
    simp only [step, message]
    split_ifs
    · exact hquiet (quiet_sendTo h.wf _)
    · exact .of_eq rfl

/-- A poll receives all that it is given, up to the size of its buffer, or nothing. -/
theorem stream_handleClientInput (net : Nat → Nat → SendStep) (h : w.TableOk) {buf : Bytes}
    (hbuf : buf ≠ []) :
    let w' := w.handleClientInput net id (.data buf)
    w.sendsTo id <+: w'.sendsTo id ∧
      ((conn w'.log id).stream = (conn w.log id).stream ∨
        (conn w'.log id).stream = (conn w.log id).stream ++ buf.take maxPacketSize) := by
  intro w'
  cases hcli : w.server.cliFind id with
  | none =>
    have heq : w' = w := by simp only [w', handleClientInput, hcli]
    rw [heq]
    exact ⟨List.prefix_refl _, .inl rfl⟩
  | some cli =>
    by_cases hfd : cli.transport.getFd < 0
    · have heq : w' = w := by simp only [w', handleClientInput, hcli, if_pos hfd]
      rw [heq]
      exact ⟨List.prefix_refl _, .inl rfl⟩
    · obtain ⟨recv, -, -, heq⟩ := handleClientInput_data net h hcli hfd hbuf
      have hw' : w' = _ := heq
      rw [hw']
      refine ⟨Grows.sendsTo ?_, .inr ?_⟩
      · refine grows_takeChunk (fun _ => trivial) (fun _ => trivial) (fun e he => ?_) _ _ _
        exact he.minor.aside.notNew
      · rw [conn_takeChunk, if_pos rfl, Conn.stream, List.flatten_append]
        simp [Conn.stream]

end World

/-! ## Both ends together -/

namespace Network

/-- The two ends of the connection `id` are in order, and each has received the first of the bytes
that the other has written. -/
structure Linked (id : UInt32) (s : Network κ β) : Prop where
  inStep : (s.client id).InStep
  clientWrites : (s.client id).Writes
  table : s.server.TableOk
  conns : s.server.ConnOk
  serverWrites : s.server.Writes id
  up : (conn s.server.log id).stream <+: sentBytes (s.client id).sends
  down : (s.client id).conn.stream <+: sentBytes (s.server.sendsTo id)

variable {s : Network κ β}

theorem append_take_isPrefix {r b : Bytes} (h : r <+: b) (m n : Nat) :
    r ++ ((b.drop r.length).take n).take m <+: b := by
  obtain ⟨t, rfl⟩ := h
  rw [List.drop_left, List.take_take]
  exact (List.prefix_append_right_inj r).2 <| List.take_prefix _ _

theorem received_eq {bytes : Bytes} {n : Nat} {r : RecvResult} (h : received bytes n = some r) :
    bytes.take n ≠ [] ∧ r = .data (bytes.take n) := by
  unfold received at h
  split_ifs at h with hnil
  exact ⟨hnil, (Option.some.inj h).symm⟩

/-- **Both directions are in order.** -/
theorem Linked.delivers (h : s.Linked id) : s.Delivers id := by
  obtain ⟨hup, hupAll⟩ := (h.conns.follows id).reads_sent h.clientWrites.wire h.up
  obtain ⟨hdown, hdownAll⟩ := h.inStep.follows.reads_sent h.serverWrites.wire h.down
  refine ⟨⟨hup, fun hnil => hupAll ?_⟩, ⟨hdown, fun hnil => hdownAll ?_⟩⟩
  · exact h.up.eq_of_length_le (List.drop_eq_nil_iff.1 hnil)
  · exact h.down.eq_of_length_le (List.drop_eq_nil_iff.1 hnil)

theorem client_setClient {id' : UInt32} {w : ClientWorld κ} :
    (s.setClient id' w).client id = if id' = id then w else s.client id := by
  split_ifs with h
  · subst h
    exact Function.update_self ..
  · exact Function.update_of_ne (Ne.symm h) ..

/-- What a client does, if the bytes are those that were under way. What another client does is no
matter. -/
theorem Linked.setClient (h : s.Linked id) (id' : UInt32) {w : ClientWorld κ}
    (hsame : id' = id → w.InStep ∧ w.Writes ∧
      sentBytes (s.client id).sends <+: sentBytes w.sends ∧
      w.conn.stream <+: sentBytes (s.server.sendsTo id)) : (s.setClient id' w).Linked id := by
  refine ⟨?_, ?_, h.table, h.conns, h.serverWrites, ?_, ?_⟩ <;> rw [client_setClient] <;>
    split_ifs with hid
  · exact (hsame hid).1
  · exact h.inStep
  · exact (hsame hid).2.1
  · exact h.clientWrites
  · exact h.up.trans (hsame hid).2.2.1
  · exact h.up
  · exact (hsame hid).2.2.2
  · exact h.down

theorem Linked.steady (h : s.Linked id) {w : ClientWorld κ} (hin : w.InStep) (hw : w.Writes)
    (hsteady : ClientWorld.Steady (s.client id) w) :
    w.InStep ∧ w.Writes ∧ sentBytes (s.client id).sends <+: sentBytes w.sends ∧
      w.conn.stream <+: sentBytes (s.server.sendsTo id) :=
  ⟨hin, hw, sentBytes_mono hsteady.sends, hsteady.conn ▸ h.down⟩

theorem Linked.receive (h : s.Linked id) (id' : UInt32) (n : Nat) :
    (s.setClient id' ((s.client id').poll (.ready (received (s.down id') n)))).Linked id := by
  refine h.setClient id' fun hid => ?_
  subst hid
  have hmute := ClientWorld.mute_poll (w := s.client id') (.ready (received (s.down id') n))
  refine ⟨ClientWorld.closed_inStep.kept.poll _ h.inStep, h.clientWrites.of_mute hmute,
    hmute.sends.symm ▸ List.prefix_refl _, ?_⟩
  rcases ClientWorld.conn_poll (w := s.client id') (.ready (received (s.down id') n)) with
    e | ⟨buf, hr, e⟩
  · rw [e]
    exact h.down
  · obtain ⟨-, hbuf⟩ := received_eq (PollOutcome.ready.inj hr)
    obtain rfl := RecvResult.data.inj hbuf
    rw [e]
    exact append_take_isPrefix h.down maxPacketSize n

theorem Linked.serve (h : s.Linked id) (snet : Nat → Nat → SendStep) {op : ServerOp}
    (hop : s.server.Spares id op) : Linked id { s with server := s.server.step snet op } := by
  have hgrow := World.grows_step_aside snet h.table hop
  refine ⟨h.inStep, h.clientWrites, World.tableOk_step snet h.table op,
    World.connOk_step h.table h.conns op, h.serverWrites.step snet h.table op, ?_, ?_⟩
  · rw [show conn (s.server.step snet op).log id = _ from hgrow.conn_aside]
    exact h.up
  · exact h.down.trans (sentBytes_mono (hgrow.mono fun _ he => he.notNew).sendsTo)

theorem Linked.deliver (h : s.Linked id) (snet : Nat → Nat → SendStep) {n : Nat} {r : RecvResult}
    (hr : received (s.up id) n = some r) :
    Linked id { s with server := s.server.handleClientInput snet id r } := by
  obtain ⟨hbuf, rfl⟩ := received_eq hr
  obtain ⟨hsends, hstream⟩ := World.stream_handleClientInput snet h.table hbuf
  let op : ServerOp := .clientInput id (.data ((s.up id).take n))
  refine ⟨h.inStep, h.clientWrites, World.tableOk_step snet h.table op,
    World.connOk_step h.table h.conns op, h.serverWrites.step snet h.table op, ?_, ?_⟩
  · show (conn (s.server.handleClientInput snet id _).log id).stream <+: _
    rcases hstream with e | e
    · rw [e]
      exact h.up
    · rw [e]
      exact append_take_isPrefix h.up maxPacketSize n
  · exact h.down.trans (sentBytes_mono hsends)

/-- What arrives on another connection is no matter. -/
theorem Linked.deliver_other (h : s.Linked id) (snet : Nat → Nat → SendStep) {id' : UInt32}
    (hne : id' ≠ id) {n : Nat} {r : RecvResult} (hr : received (s.up id') n = some r) :
    Linked id { s with server := s.server.handleClientInput snet id' r } := by
  obtain ⟨-, rfl⟩ := received_eq hr
  have hop : s.server.Spares id (.clientInput id' (.data ((s.up id').take n))) := hne
  exact h.serve snet hop

/-- **Every step keeps the two ends of a connection in order.** -/
theorem Linked.step [DecidableEq κ] (cnet : UInt32 → Nat → Nat → SendStep)
    (snet : Nat → Nat → SendStep) (s : Network κ β) (e : NetworkStep κ) (h : s.Linked id)
    (hold : s.Holds id e) : (s.step cnet snet e).Linked id := by
  cases e with
  | call id' op =>
    -- Steps of other clients do not concern the connection.
    refine h.setClient id' fun hid => ?_
    subst hid
    have hlocal : op.Local := hold rfl
    refine h.steady (ClientWorld.inStep_step _ _ op h.inStep fun hopens => ?_)
      (h.clientWrites.step _ op) (ClientWorld.steady_step hlocal)
    cases op <;> first | exact hlocal.elim | exact hopens.elim
  | ping id' k timeoutMs =>
    refine h.setClient id' fun hid => ?_
    subst hid
    refine h.steady ?_ (h.clientWrites.requestEx _) (ClientWorld.steady_requestEx _)
    rw [ClientWorld.requestEx]
    split_ifs
    · exact ClientWorld.closed_inStep.kept.requestWith (fun p _ hp => hp.send p.2) h.inStep
    · exact h.inStep
  | pingEnd id' seqno =>
    refine h.setClient id' fun hid => ?_
    subst hid
    exact h.steady (ClientWorld.closed_inStep.quiet (ClientWorld.quiet_pingCancel seqno) h.inStep)
      (h.clientWrites.of_mute (ClientWorld.mute_pingCancel seqno))
      (.of_quiet (ClientWorld.quiet_pingCancel seqno))
  | receive id' n => exact h.receive id' n
  | serve op => exact h.serve snet hold
  | deliver id' n =>
    simp only [Network.step]
    split
    · exact h
    · rename_i r hr
      by_cases hid : id' = id
      · subst hid
        exact h.deliver snet hr
      · exact h.deliver_other snet hid hr

/-- The client has come where it is by steps of its own, and so has the server; and of what each has
written on the connection `id`, the other has received the first part.

The steps of the client are `Clean`: whenever it made a connection, this one or one before, its
receive context was empty. -/
structure Established [DecidableEq κ] (cnet : UInt32 → Nat → Nat → SendStep)
    (snet : Nat → Nat → SendStep) (id : UInt32) (s : Network κ β) : Prop where
  client : ∃ ops, Runs.EachStep (ClientWorld.step (cnet id)) ClientWorld.Clean ⟨.create, []⟩ ops ∧
    s.client id = Runs.run (ClientWorld.step (cnet id)) ⟨.create, []⟩ ops
  server : ∃ server ops, s.server = Runs.run (World.step snet) (World.init server) ops
  up : (conn s.server.log id).stream <+: sentBytes (s.client id).sends
  down : (s.client id).conn.stream <+: sentBytes (s.server.sendsTo id)

theorem Established.linked [DecidableEq κ] {cnet : UInt32 → Nat → Nat → SendStep}
    {snet : Nat → Nat → SendStep} (h : s.Established cnet snet id) : s.Linked id := by
  obtain ⟨cops, hclean, hclient⟩ := h.client
  obtain ⟨server, sops, hserver⟩ := h.server
  have hin : (s.client id).InStep := by
    rw [hclient]
    exact Runs.run_invariant (ClientWorld.inStep_step (cnet id)) ClientWorld.inStep_create hclean
  have hcw : (s.client id).Writes := by
    rw [hclient]
    exact writes_run (cnet id) cops
  have hconn := connInv_run snet server sops
  have hsw := serverWrites_run snet server sops id
  rw [← hserver] at hconn hsw
  exact ⟨hin, hcw, hconn.table, hconn.conns, hsw, h.up, h.down⟩

end Network

/-! ## Runs -/

/-- A connection attempt that a server answers which gave it the id 0. -/
def greeting : ClientOp Nat :=
  .connect none ⟨some 5, fun _ => .accepted headerSize,
    [⟨.data (packet MsgType.serviceInfo 0 0 none (some (Ref.ofBytes [0, 0, 0, 0]))), false⟩]⟩

/-- A client and a server that have made a connection. -/
def greeted : Network Nat Unit where
  client _ := Runs.run (ClientWorld.step acceptAll) ⟨.create, []⟩ [greeting]
  server := Runs.run (World.step acceptAll) (World.init (Server.create 0))
    [.newConnection 7, .clientInput 0 (.data infoRequest.packet)]

theorem greeted_established : greeted.Established (fun _ => acceptAll) acceptAll 0 := by
  refine ⟨⟨[greeting], ?_, rfl⟩, ⟨_, _, rfl⟩, ?_, ?_⟩
  · rw [Runs.eachStep_cons]
    exact ⟨fun _ => StreamCtx.unread_reset, Runs.eachStep_nil⟩
  · rw [← List.isPrefixOf_iff_prefix]
    decide +kernel
  · rw [← List.isPrefixOf_iff_prefix]
    decide +kernel

end Ssn
