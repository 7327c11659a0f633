import SsnIpc.Server.Dispatch
import SsnIpc.Server.Subscriptions
import SsnIpc.Server.Timers

/-!
# Polling and closed descriptors

`ssn_server_poll` handles the input of every client whose descriptor is ready, then a new
connection, then the timer's event. A client whose descriptor is closed is never ready again. Its
descriptor is closed by `ssn_server_peer_close` and by every send that fails; both leave the client
in the table.

**Theorem (`pollOk_iff_expired`).** As long as nothing closes a descriptor during a poll itself,
every poll of a run ends with open descriptors only exactly when each poll finds only such closed
clients whose timer has run out and waits for its event.

So with idle timeouts disabled a client that `ssn_server_peer_close` was called for stays for good
(`closed_peer_stays`).

A poll leaves the closed clients alone and their timers too (`stale_pollClients`); only the event
at its end removes some of them.
-/

namespace Ssn

open ByteMem

variable {β : Type*} {net : Nat → Nat → SendStep} {w : World β} {id : UInt32}

/-! ## The model -/

inductive ServerCall
  | peerClose (id : UInt32)
  | publish (url : Bytes) (data : Option Ref)
  | response (id : UInt32) (status : UInt32) (seqno : UInt16) (data : Option Ref)
  | message (id : UInt32) (url : Bytes) (data : Ref)

def ServerCall.op : ServerCall → ServerOp
  | .peerClose id => .peerClose id
  | .publish url data => .publish url data
  | .response id status seqno data => .response id status seqno data
  | .message id url data => .message id url data

theorem ServerCall.op_ne (c : ServerCall) : c.op ≠ .timerSweep ∧ c.op ≠ .eventInput := by
  cases c <;> exact ⟨nofun, nofun⟩

/-- What a poll meets: the clients whose descriptors are ready with what they bring, the calls the
application makes while the input of a client is handled, and a new connection. -/
structure PollInput where
  ready : UInt32 → Option RecvResult
  calls : UInt32 → List ServerCall
  connection : Option Int

namespace Server

/-- `ssn_server_peer_list` into an array of `maxCnt` ids. -/
def peerList (s : Server β) (maxCnt : Nat) : List UInt32 := (s.clients.map Client.id).take maxCnt

/-- `ssn_server_peer_count`. -/
def peerCount (s : Server β) : Nat := s.clients.countP Client.active

end Server

namespace World

def pollClient (net : Nat → Nat → SendStep) (p : PollInput) (w : World β) (cli : Client) :
    World β :=
  (p.ready cli.id).elim w fun r =>
    (p.calls cli.id).foldl (fun w c => w.step net c.op) (w.handleClientInput net cli.id r)

/-- `ssn_server_poll`, from the answer of `pselect` on. The timer's event is ready if it is
pending. -/
def poll (net : Nat → Nat → SendStep) (w : World β) (p : PollInput) : World β :=
  let w := w.server.clients.foldl (pollClient net p) w
  let w := p.connection.elim w w.handleNewConnection
  w.handleEventInput

end World

/-- The steps of a server that is polled. Each comes with the network it meets. -/
inductive SessionOp
  | poll (net : Nat → Nat → SendStep) (p : PollInput)
  | call (net : Nat → Nat → SendStep) (c : ServerCall)
  | timerSweep

/-- One step of a server that is polled. -/
def World.session (w : World β) : SessionOp → World β
  | .poll net p => w.poll net p
  | .call net c => w.step net c.op
  | .timerSweep => w.timerSweep

/-! ## Properties -/

def Client.closed (c : Client) : Bool := c.transport.getFd < 0

namespace World

/-- Every client in the table has an open descriptor, and so have all that are listed and
counted. -/
structure PollOk (w : World β) : Prop where
  fds : ∀ c ∈ w.server.clients, c.closed = false
  list : ∀ n, ∀ id ∈ w.server.peerList n, ∃ c, w.server.cliFind id = some c ∧ c.closed = false
  count : w.server.peerCount = w.server.clients.countP fun c => c.active && !c.closed
  total : w.server.clients.length = w.server.clients.countP fun c => !c.closed

/-- A poll ends with open descriptors only. -/
def EndsOk (w : World β) (op : SessionOp) : Prop :=
  ∀ net p, op = .poll net p → (w.session op).PollOk

/-- A poll finds a client with a closed descriptor only if its timer has run out and waits for its
event. -/
def ClosedExpired (w : World β) (op : SessionOp) : Prop :=
  ∀ net p, op = .poll net p → ∀ c ∈ w.server.clients, c.closed = true →
    w.server.evtPending = true ∧ expired c = true

end World

/-- A call that closes no descriptor while the network is reliable. -/
def ServerCall.Harmless : ServerCall → Prop
  | .peerClose _ => False
  | .publish url data => Sendable (some (Ref.ofBytes url)) data
  | .response _ _ _ data => Sendable none data
  | .message _ url data => Sendable (some (Ref.ofBytes url)) (some data)

/-- Nothing closes a descriptor during a poll: the network takes what is sent, the calls made
meanwhile are harmless, and a new connection comes with an open descriptor. -/
def SessionOp.Undisturbed (op : SessionOp) : Prop :=
  ∀ net p, op = .poll net p → Reliable net ∧ (∀ id, ∀ c ∈ p.calls id, c.Harmless) ∧
    ∀ fd ∈ p.connection, 0 ≤ fd

/-! ## Closed clients -/

/-- For a closed client, whether its timer ran out. -/
def Client.fate (c : Client) : Option Bool := if c.closed then some (World.expired c) else none

namespace World

/-- For each closed client, whether its timer ran out. -/
def stale (w : World β) (id : UInt32) : Option Bool := (w.server.cliFind id).bind Client.fate

theorem closed_eq_false {c : Client} : c.closed = false ↔ 0 ≤ c.transport.sockFd := by
  rw [Client.closed, Transport.getFd, decide_eq_false_iff_not, Int.not_lt]

theorem fate_of_open {c : Client} (h : c.closed = false) : c.fate = none := by
  simp [Client.fate, h]

theorem stale_modifyCli {f : Client → Client} (hf : ∀ c, (f c).id = c.id)
    (h : ∀ c, w.server.cliFind id = some c → (f c).fate = c.fate) :
    (w.modifyCli id f).stale = w.stale := by
  funext id'
  unfold stale
  rw [cliFind_modifyCli hf]
  split_ifs with e
  · subst e
    cases hc : w.server.cliFind id' with
    | none => rfl
    | some c => exact h c hc
  · rfl

theorem stale_modify_open {f : Client → Client} (ho : w.stale id = none)
    (hf : ∀ c, (f c).id = c.id) (ht : ∀ c, (f c).transport = c.transport) :
    (w.modifyCli id f).stale = w.stale := by
  refine stale_modifyCli hf fun c hc => ?_
  have hfate : c.fate = none := by rwa [stale, hc, Option.bind_some] at ho
  have hopen : c.closed = false := by
    by_contra hne
    simp [Client.fate, hne] at hfate
  have hopen' : (f c).closed = false := by rwa [Client.closed, ht]
  rw [fate_of_open hopen, fate_of_open hopen']

theorem stale_callOncli (connect : Bool) : (w.callOncli id connect).stale = w.stale := by
  unfold callOncli
  split_ifs <;> rfl

/-- A reliable network closes nothing; a send to a closed client leaves it closed. -/
theorem stale_cliSendmsg {msg : Message} {h : Header} (hnet : Reliable net)
    (hh : HeaderReady w.server.sendbuf h msg.url msg.data) (hs : Sendable msg.url msg.data) :
    (w.cliSendmsg net id msg).stale = w.stale := by
  cases hc : w.server.cliFind id with
  | none => rw [cliSendmsg_none net msg hc]
  | some c =>
    simp only [cliSendmsg, hc]
    refine (stale_modifyCli (w := { w with server := _ }) (id_afterSend _) fun c' hc' => ?_).trans
      rfl
    obtain rfl := Option.some.inj (hc.symm.trans hc')
    unfold afterSend
    split_ifs with hret
    · rfl
    · have hclosed : c.closed = true := by
        by_contra hopen
        rw [Bool.not_eq_true, closed_eq_false, ← Int.not_lt] at hopen
        exact hret ((sendMessage_ret_iff c.transport _ hh).2 ⟨hopen, hs, hnet _ _ _ hs.total⟩)
      have hdown : { c with transport := c.transport.disconnect }.closed = true := rfl
      unfold Client.fate
      rw [if_pos hclosed, if_pos hdown]
      rfl

theorem stale_send {msg : Message} (hnet : Reliable net) (hs : Sendable msg.url msg.data) :
    (w.send net id msg).stale = w.stale :=
  stale_cliSendmsg (w := w.createHeader msg) hnet (headerReady_createHeader ..) hs

theorem stale_sendTo {msg : Message} (hnet : Reliable net) (hs : Sendable msg.url msg.data) :
    (w.sendTo net id msg).stale = w.stale := by
  unfold sendTo
  split_ifs
  · exact stale_send hnet hs
  · rfl

theorem stale_reply {f : Frame} {status : UInt32} (hnet : Reliable net) :
    (w.send net id (replyTo f status none)).stale = w.stale :=
  stale_send hnet (sendable_replyTo (by simp) (by simp [optLen]))

theorem stale_replyServiceInfo {f : Frame} (hnet : Reliable net) (ho : w.stale id = none) :
    (w.replyServiceInfo net id f).stale = w.stale := by
  unfold replyServiceInfo
  refine (stale_cliSendmsg (w := (w.createHeader _).modifyCli id _) hnet
    (headerReady_createHeader ..) (sendable_replyTo ?_ ?_)).trans ?_
  · intro d hd
    obtain rfl := Option.mem_some.1 hd
    exact nofun
  · simp [optLen, Ref.ofBytes]
  · refine (stale_modify_open (w := w.createHeader _) ho (id_startIdle _) fun c => ?_).trans rfl
    unfold startIdle
    split_ifs <;> rfl

/-- **A frame of an open client leaves the closed ones alone.** -/
theorem stale_dispatch {f : Frame} (hnet : Reliable net) (ho : w.stale id = none) :
    (w.dispatch net id f).stale = w.stale := by
  by_cases hf : getMsgType f = MsgType.serviceInfo
  · have hreply := stale_replyServiceInfo (f := f) hnet ho
    rw [dispatch_serviceInfo hf, noteConnected]
    split_ifs
    · rw [stale_callOncli, ← hreply]
      exact stale_modify_open (hreply ▸ ho) (fun _ => rfl) fun _ => rfl
    · exact hreply
  · apply dispatch_plain (P := fun w' => w'.stale = w.stale) hf
    · rfl
    · rfl
    · exact fun _ _ _ => rfl
    · exact fun _ => stale_reply hnet
    · intro subs status
      rw [stale_reply hnet]
      exact stale_modify_open ho (fun _ => rfl) fun _ => rfl

theorem stale_input (f : Frame) (hnet : Reliable net) (ho : w.stale id = none) :
    (w.input net id f).stale = w.stale := by
  have htouch : ((w.emit (.input id f)).touch id).stale = w.stale :=
    stale_modify_open (w := w.emit (.input id f)) ho (fun _ => rfl) fun _ => rfl
  rw [input_eq, stale_dispatch hnet (htouch ▸ ho), htouch]

theorem stale_cliDestroy (ho : w.stale id = none) : (w.cliDestroy id).stale = w.stale := by
  funext id'
  unfold stale
  rw [cliFind_cliDestroy]
  split_ifs with e
  · subst e
    exact ho.symm
  · rfl

theorem stale_closeClient {cli : Client} (ho : w.stale cli.id = none) :
    (w.closeClient cli).stale = w.stale := by
  unfold closeClient
  split_ifs
  · have hmark : ((w.modifyCli cli.id fun c => { c with onconn := false }).callOncli cli.id
        false).stale = w.stale := by
      rw [stale_callOncli]
      exact stale_modify_open ho (fun _ => rfl) fun _ => rfl
    rw [stale_cliDestroy (hmark ▸ ho), hmark]
  · exact stale_cliDestroy ho

theorem stale_takeChunk (buf : Bytes) (frames : List Frame) (recv : StreamCtx)
    (hnet : Reliable net) (ho : w.stale id = none) :
    (w.takeChunk net id buf frames recv).stale = w.stale := by
  have hframes : (frames.foldl (input net id) (w.emit (.received id buf))).stale = w.stale := by
    refine List.foldlRecOn (motive := fun w' : World β => w'.stale = w.stale) _ _ rfl
      fun w' hw' f _ => ?_
    rw [stale_input f hnet (hw' ▸ ho), hw']
  rw [← hframes]
  exact stale_modify_open (hframes ▸ ho) (fun _ => rfl) fun _ => rfl

theorem stale_handleClientInput (h : w.TableOk) (hnet : Reliable net) (r : RecvResult) :
    (w.handleClientInput net id r).stale = w.stale := by
  rcases handleClientInput_cases net h id r with e | ⟨cli, hcli, hfd, e⟩
  · rw [e]
  · have ho : w.stale id = none := by
      rw [stale, hcli, Option.bind_some]
      exact fate_of_open (closed_eq_false.2 (Int.not_lt.1 hfd))
    obtain rfl := Server.cliFind_id hcli
    rcases e with e | ⟨buf, recv, -, e⟩
    · rw [e, stale_closeClient ho]
    · rw [e, stale_takeChunk _ _ _ hnet ho]

theorem stale_publishTo {url : Bytes} {data : Option Ref} (hnet : Reliable net)
    (hs : Sendable (some (Ref.ofBytes url)) data) (hbuf : BufferReady w url data) (c : Client) :
    (w.publishTo net url (publishMsg url data) c).stale = w.stale ∧
      BufferReady (w.publishTo net url (publishMsg url data) c) url data := by
  unfold publishTo
  split_ifs
  · cases hc : w.server.cliFind c.id with
    | none =>
      rw [cliSendmsg_none net _ hc]
      exact ⟨rfl, hbuf⟩
    | some c' =>
      obtain ⟨h, hh, -⟩ := hbuf hs
      exact ⟨stale_cliSendmsg hnet hh hs, (published_cliSendmsg net hc hbuf).2⟩
  · exact ⟨rfl, hbuf⟩

theorem stale_publish {url : Bytes} {data : Option Ref} (hnet : Reliable net)
    (hs : Sendable (some (Ref.ofBytes url)) data) :
    (w.publish net url data).stale = w.stale := by
  unfold publish
  split_ifs
  · have hstart : (w.createHeader (publishMsg url data)).stale = w.stale ∧
        BufferReady (w.createHeader (publishMsg url data)) url data :=
      ⟨rfl, bufferReady_createHeader w url data⟩
    refine (List.foldlRecOn (motive := fun w' : World β =>
      w'.stale = w.stale ∧ BufferReady w' url data) _ _ hstart fun w' hw' c _ => ?_).1
    obtain ⟨hstale, hbuf⟩ := stale_publishTo hnet hs hw'.2 c
    exact ⟨hstale.trans hw'.1, hbuf⟩
  · rfl

theorem stale_call {c : ServerCall} (hnet : Reliable net) (hc : c.Harmless) :
    (w.step net c.op).stale = w.stale := by
  cases c with
  | peerClose id => exact hc.elim
  | publish url data => exact stale_publish hnet hc
  | response id status seqno data => exact stale_sendTo hnet hc
  | message id url data =>
    rw [ServerCall.op, step, message]
    split_ifs
    · exact stale_sendTo hnet hc
    · rfl

/-! ## A poll -/

/-- What the part of a poll before the timer's event keeps. -/
structure PollKeeps (w w' : World β) : Prop where
  table : w'.TableOk
  stale : w'.stale = w.stale
  evt : w'.server.evtPending = w.server.evtPending

theorem evtPending_of_rest {w' : World β} (h : w'.server.rest = w.server.rest) :
    w'.server.evtPending = w.server.evtPending := by
  have hevt : w'.server.rest.evtPending = w.server.rest.evtPending := by rw [h]
  exact hevt

theorem PollKeeps.step {w' : World β} (h : PollKeeps w w') (net : Nat → Nat → SendStep)
    (op : ServerOp) (hs : op ≠ .timerSweep) (he : op ≠ .eventInput)
    (hstale : (w'.step net op).stale = w'.stale) :
    PollKeeps w (w'.step net op) where
  table := tableOk_step net h.table op
  stale := hstale.trans h.stale
  evt := (evtPending_of_rest (follows_step net h.table hs he).rest).trans h.evt

theorem pollKeeps_pollClient {w' : World β} {p : PollInput} (hnet : Reliable net)
    (hcalls : ∀ id, ∀ c ∈ p.calls id, c.Harmless) (h : PollKeeps w w') (cli : Client) :
    PollKeeps w (w'.pollClient net p cli) := by
  unfold pollClient
  cases hr : p.ready cli.id with
  | none => exact h
  | some r =>
    refine List.foldlRecOn (motive := PollKeeps w) _ _ ?_ fun w'' hw'' c hc => ?_
    · exact h.step net (.clientInput cli.id r) nofun nofun
        (stale_handleClientInput h.table hnet r)
    · exact hw''.step net c.op c.op_ne.1 c.op_ne.2
        (stale_call hnet (hcalls cli.id c hc))

theorem stale_handleNewConnection {fd : Int} (hfd : 0 ≤ fd) :
    (w.handleNewConnection fd).stale = w.stale := by
  rcases w.handleNewConnection_cases fd with e | ⟨id, ncid, hid, -, e⟩
  · rw [e]
  · rw [e]
    funext id'
    rw [stale, stale, cliFind_addClient]
    split_ifs with e
    · rw [e, hid, Option.bind_some, Option.bind_none]
      exact fate_of_open (closed_eq_false.2 hfd)
    · rfl

/-- The timer's event removes the closed clients whose timer ran out. -/
theorem stale_handleEventInput (h : w.Wf) (id : UInt32) :
    w.handleEventInput.stale id =
      if w.server.evtPending then (w.stale id).filter fun b => !b else w.stale id := by
  by_cases hp : w.server.evtPending = true
  · rw [if_pos hp, stale, cliFind_handleEventInput h hp, stale]
    cases w.server.cliFind id with
    | none => rfl
    | some c =>
      by_cases hexp : expired c = true
      · by_cases hc : c.closed = true <;> simp [Client.fate, hexp, hc, Option.filter_some]
      · by_cases hc : c.closed = true <;> simp [Client.fate, hexp, hc, Option.filter_some]
  · rw [if_neg hp, handleEventInput, if_neg hp]

theorem stale_poll (h : w.TableOk) {p : PollInput} (hnet : Reliable net)
    (hcalls : ∀ id, ∀ c ∈ p.calls id, c.Harmless) (hconn : ∀ fd ∈ p.connection, 0 ≤ fd)
    (id : UInt32) :
    (w.poll net p).stale id =
      if w.server.evtPending then (w.stale id).filter fun b => !b else w.stale id := by
  have hclients : PollKeeps w (w.server.clients.foldl (pollClient net p) w) :=
    List.foldlRecOn (motive := PollKeeps w) _ _ ⟨h, rfl, rfl⟩
      fun w' hw' cli _ => pollKeeps_pollClient hnet hcalls hw' cli
  have hconnected : PollKeeps w (p.connection.elim (w.server.clients.foldl (pollClient net p) w)
      (w.server.clients.foldl (pollClient net p) w).handleNewConnection) := by
    cases hc : p.connection with
    | none => exact hclients
    | some fd =>
      exact hclients.step net (.newConnection fd) nofun nofun
        (stale_handleNewConnection (hconn fd hc))
  rw [poll, stale_handleEventInput hconnected.table.wf, hconnected.stale, hconnected.evt]

/-- What every step keeps, the part of a poll that belongs to the clients keeps. -/
theorem pollClients_invariant {Inv : World β → Prop}
    (hstep : ∀ (w : World β) op, Inv w → Inv (w.step net op)) (h : Inv w) (p : PollInput)
    (cs : List Client) : Inv (cs.foldl (pollClient net p) w) := by
  refine List.foldlRecOn (motive := Inv) _ _ h fun w' hw' cli _ => ?_
  unfold pollClient
  cases p.ready cli.id with
  | none => exact hw'
  | some r =>
    refine List.foldlRecOn (motive := Inv) _ _ ?_ fun w'' hw'' c _ => hstep w'' c.op hw''
    exact hstep w' (.clientInput cli.id r) hw'

/-- **What every step keeps, a server that is polled keeps.** -/
theorem session_invariant {Inv : World β → Prop}
    (hstep : ∀ net (w : World β) op, Inv w → Inv (w.step net op)) (h : Inv w) (op : SessionOp) :
    Inv (w.session op) := by
  cases op with
  | poll net p =>
    have hclients := pollClients_invariant (hstep net) h p w.server.clients
    refine hstep net _ .eventInput ?_
    cases p.connection with
    | none => exact hclients
    | some fd => exact hstep net _ (.newConnection fd) hclients
  | call net c => exact hstep net w c.op h
  | timerSweep => exact hstep acceptAll w .timerSweep h

theorem tableOk_session (h : w.TableOk) (op : SessionOp) : (w.session op).TableOk :=
  session_invariant (fun net w op (hw : w.TableOk) => tableOk_step net hw op) h op

/-- Nothing is stale exactly if every client in the table is open. -/
theorem stale_eq_none (h : w.Wf) :
    (∀ id, w.stale id = none) ↔ ∀ c ∈ w.server.clients, c.closed = false := by
  constructor
  · intro hs c hc
    have hfate := hs c.id
    rw [stale, h.mem_clients.1 hc, Option.bind_some] at hfate
    by_contra hne
    simp [Client.fate, hne] at hfate
  · intro hall id
    unfold stale
    cases hc : w.server.cliFind id with
    | none => rfl
    | some c =>
      obtain rfl := Server.cliFind_id hc
      exact fate_of_open (hall c (h.mem_clients.2 hc))

theorem pollOk_iff (h : w.Wf) : w.PollOk ↔ ∀ id, w.stale id = none := by
  rw [stale_eq_none h]
  refine ⟨fun hok => hok.fds, fun hall => ⟨hall, fun n id hid => ?_, ?_, ?_⟩⟩
  · obtain ⟨c, hc, rfl⟩ := List.mem_map.1 (List.mem_of_mem_take hid)
    exact ⟨c, h.mem_clients.1 hc, hall c hc⟩
  · exact List.countP_congr fun c hc => by simp [hall c hc]
  · refine (List.countP_eq_length.2 fun c hc => ?_).symm
    simp [hall c hc]

/-- **A poll ends with open descriptors only exactly if it met no closed client but those that its
event removes.** -/
theorem endsOk_iff (h : w.TableOk) {op : SessionOp} (hop : op.Undisturbed) :
    w.EndsOk op ↔ w.ClosedExpired op := by
  refine forall_congr' fun net => forall_congr' fun p => forall_congr' fun e => ?_
  subst e
  obtain ⟨hnet, hcalls, hconn⟩ := hop net p rfl
  rw [pollOk_iff (tableOk_session h _).wf, session]
  simp only [stale_poll h hnet hcalls hconn]
  constructor
  · intro hnone c hc hclosed
    have hstale : w.stale c.id = some (expired c) := by
      rw [stale, h.wf.mem_clients.1 hc, Option.bind_some, Client.fate, if_pos hclosed]
    have hgone := hnone c.id
    rw [hstale] at hgone
    split_ifs at hgone with hp
    exact ⟨hp, by simpa [Option.filter_some] using hgone⟩
  · intro hexp id
    unfold stale
    cases hc : w.server.cliFind id with
    | none => simp
    | some c =>
      obtain rfl := Server.cliFind_id hc
      rw [Option.bind_some]
      by_cases hclosed : c.closed = true
      · obtain ⟨hp, he⟩ := hexp c (h.wf.mem_clients.2 hc) hclosed
        simp [Client.fate, hclosed, hp, he, Option.filter_some]
      · simp [Client.fate, hclosed]

end World

/-! ## Runs -/

/-- **Closed descriptors stay until a timer ends them.** In a run in which nothing closes a
descriptor during a poll itself, every poll ends with open descriptors only exactly if every poll
finds only such closed clients whose timer ran out and waits for its event. -/
theorem pollOk_iff_expired (s : Server β) (ops : List SessionOp)
    (hops : ∀ op ∈ ops, op.Undisturbed) :
    Runs.EachStep World.session World.EndsOk (World.init s) ops ↔
      Runs.EachStep World.session World.ClosedExpired (World.init s) ops := by
  have htable (pre : List SessionOp) : (Runs.run World.session (World.init s) pre).TableOk :=
    Runs.run_invariant (fun w op hw _ => World.tableOk_session hw op) (World.tableOk_init s)
      Runs.eachStep_true
  refine forall_congr' fun pre => forall_congr' fun op => forall_congr' fun hpre => ?_
  exact World.endsOk_iff (htable pre) (hops op (hpre.subset (by simp)))

def PollInput.idle : PollInput := ⟨fun _ => none, fun _ => [], none⟩

/-- A client connects and completes its handshake. -/
def joinPolls : List SessionOp :=
  [.poll acceptAll { PollInput.idle with connection := some 5 },
    .poll acceptAll { PollInput.idle with
      ready := fun _ => some (.data (packet MsgType.serviceInfo 0 0 none none)) }]

theorem undisturbed_idle {p : PollInput} (hcalls : ∀ id, p.calls id = [])
    (hconn : ∀ fd ∈ p.connection, 0 ≤ fd) : (SessionOp.poll acceptAll p).Undisturbed := by
  rintro _ _ ⟨rfl, rfl⟩
  refine ⟨reliable_acceptAll, fun id c hc => ?_, hconn⟩
  rw [hcalls] at hc
  cases hc

/-- Without trouble both polls end with open descriptors only. -/
theorem joinPolls_endsOk :
    Runs.EachStep World.session World.EndsOk (World.init (Server.create 0 : Server Unit))
      joinPolls := by
  refine (pollOk_iff_expired _ _ fun op hop => ?_).2 ?_
  · rcases List.mem_pair.1 hop with rfl | rfl
    · refine undisturbed_idle (fun _ => rfl) fun fd hfd => ?_
      obtain rfl := Option.mem_some.1 hfd
      decide
    · exact undisturbed_idle (fun _ => rfl) fun fd hfd => nomatch hfd
  · have hopen : ∀ c ∈ (Runs.run World.session (World.init (Server.create 0 : Server Unit))
        joinPolls.dropLast).server.clients, c.closed = false := by decide +kernel
    refine Runs.eachStep_cons.2 ⟨fun _ _ _ c hc => ?_, Runs.eachStep_cons.2 ⟨fun _ _ _ c hc => ?_,
      Runs.eachStep_nil⟩⟩
    · cases hc
    · intro hclosed
      rw [hopen c hc] at hclosed
      cases hclosed

/-- After `ssn_server_peer_close` the next poll does end with a closed descriptor in the table,
and with idle timeouts disabled there is no timer to remove it. -/
theorem closed_peer_stays :
    ¬ Runs.EachStep World.session World.EndsOk (World.init (Server.create 0 : Server Unit))
      (joinPolls ++ [.call acceptAll (.peerClose 0), .poll acceptAll .idle]) := by
  intro h
  have hok := h (joinPolls ++ [.call acceptAll (.peerClose 0)]) (.poll acceptAll .idle)
    (List.prefix_refl _) acceptAll .idle rfl
  exact absurd hok.fds (by decide +kernel)

end Ssn
