import SsnIpc.Lib.Runs
import SsnIpc.Server.Table

/-!
# The timers of the clients

Each client carries one countdown (`hst.alive`, in milliseconds) and a flag that tells whether
its node is in the server's timer list (`hst.linked`). Five things happen to them: a client is
accepted, one of its frames is processed, the timer thread sweeps, the timer's event is handled,
a connection ends. `TimerEvent.step` is what each of them does to the timers of all clients.

Events come in any order. A server only handles the timer's event after a sweep signalled it;
here it may come at any time.

**Theorem (`timers_run`).** The timers of a server are a run of these events: every step does to
them what its events do (`timers_step`).
-/

namespace Ssn

open ByteMem

variable {β : Type*} {net : Nat → Nat → SendStep} {w : World β} {id : UInt32}

/-! ## One timer -/

/-- `ssn_server_hst_t` without its links. -/
structure Hst where
  alive : Int
  linked : Bool
  deriving DecidableEq, Repr

namespace Hst

/-- The handshake timer of a new client, as `ssn_server_cli_init` sets it. -/
def start (handshake : Int) : Hst := ⟨handshake, true⟩

/-- What `ssn_server_input` does before the switch: a running timer starts over. -/
def touch (keepalive : Int) (h : Hst) : Hst :=
  if 0 < keepalive ∧ h.alive ≠ 0 then { h with alive := idleMs keepalive } else h

/-- What `ssn_server_handle_service_info` does: the idle timer takes over, or the node leaves the
list if idle connections are kept. -/
def startIdle (keepalive : Int) (h : Hst) : Hst :=
  if 0 < keepalive then { h with alive := idleMs keepalive }
  else if h.linked then ⟨0, false⟩
  else h

def frame (keepalive : Int) (f : Frame) (h : Hst) : Hst :=
  if getMsgType f = MsgType.serviceInfo then (h.touch keepalive).startIdle keepalive
  else h.touch keepalive

def sweep (h : Hst) : Hst :=
  if h.linked then
    { h with alive := if h.alive ≤ timerPeriod then 0 else h.alive - timerPeriod }
  else h

def expired (h : Hst) : Bool := h.linked ∧ h.alive = 0

@[simp] theorem linked_sweep (h : Hst) : h.sweep.linked = h.linked := by
  unfold sweep
  split_ifs <;> rfl

theorem alive_sweep {h : Hst} (hl : h.linked = true) :
    h.sweep.alive = if h.alive ≤ timerPeriod then 0 else h.alive - timerPeriod := by
  rw [sweep, if_pos hl]

end Hst

def Client.hst (c : Client) : Hst := ⟨c.hstAlive, c.hstLinked⟩

/-! ## The timers of all clients -/

inductive TimerEvent
  /-- A client is accepted under this id. -/
  | accepted (id : UInt32)
  /-- A frame of the client is processed. -/
  | frame (id : UInt32) (f : Frame)
  /-- A round of the timer thread. -/
  | sweep
  /-- `ssn_server_handle_event_input`. -/
  | event
  /-- The connection of the client ends. -/
  | closed (id : UInt32)

/-- The timers of the clients in the table. -/
abbrev Timers := UInt32 → Option Hst

/-- One event. A client is accepted under an id that is free. -/
def TimerEvent.step (keepalive handshake : Int) (t : Timers) : TimerEvent → Timers
  | .accepted id =>
    if (t id).isSome then t else Function.update t id (some (Hst.start handshake))
  | .frame id f => Function.update t id ((t id).map (Hst.frame keepalive f))
  | .sweep => fun id => (t id).map Hst.sweep
  | .event => fun id => (t id).filter fun h => !h.expired
  | .closed id => Function.update t id none

/-- The event an entry of the server's log stands for. -/
def ServerEvent.timer : ServerEvent β → Option TimerEvent
  | .accepted id => some (.accepted id)
  | .input id f => some (.frame id f)
  | .removed id => some (.closed id)
  | .received _ _ | .sent _ _ _ | .oncli _ _ | .onrpc _ _ _ | .onmsg _ _ => none

namespace World

/-- The events of a step: a sweep, the timer's event, or what the step writes to the log. -/
def timerEvents (net : Nat → Nat → SendStep) (w : World β) (op : ServerOp) : List TimerEvent :=
  match op with
  | .timerSweep => [.sweep]
  | .eventInput => if w.server.evtPending then [.event] else []
  | op => ((w.step net op).log.drop w.log.length).filterMap ServerEvent.timer

/-! ## What the server does to timers -/

theorem hst_startIdle (keepalive : Int) (c : Client) :
    (startIdle keepalive c).hst = c.hst.startIdle keepalive := by
  unfold startIdle Hst.startIdle
  split_ifs with h1 h2 h3 h3
  · rfl
  · rfl
  · exact absurd h2 h3
  · exact absurd h3 h2
  · rfl

theorem hst_sweepCli (c : Client) : (sweepCli c).hst = c.hst.sweep := by
  unfold sweepCli Hst.sweep
  cases h : c.hstLinked <;> simp [Client.hst, h]

theorem expired_eq (c : Client) : expired c = c.hst.expired := rfl

theorem hst_transport (c : Client) (t : Transport) : { c with transport := t }.hst = c.hst := rfl

theorem hst_touch : (w.touch id).view Client.hst =
    Function.update (w.view Client.hst) id
      ((w.view Client.hst id).map (Hst.touch w.server.keepaliveTimeout)) := by
  refine view_modifyCli_map _ _ _ (fun _ => rfl) fun c => ?_
  unfold Hst.touch Client.hst
  split_ifs <;> rfl

theorem hst_replyServiceInfo {f : Frame} : (w.replyServiceInfo net id f).view Client.hst =
    Function.update (w.view Client.hst) id
      ((w.view Client.hst id).map (Hst.startIdle w.server.keepaliveTimeout)) := by
  unfold replyServiceInfo
  simp only
  rw [view_cliSendmsg _ hst_transport]
  exact view_modifyCli_map _ _ _ (id_startIdle _) (hst_startIdle _)

/-- Behind `ssn_server_input`'s own reset only SERVICE_INFO writes to a timer. -/
theorem hst_dispatch_plain {f : Frame} (hf : getMsgType f ≠ MsgType.serviceInfo) :
    (w.dispatch net id f).view Client.hst = w.view Client.hst := by
  apply dispatch_plain (P := fun w' => w'.view Client.hst = w.view Client.hst) hf
  · rfl
  · rfl
  · exact fun _ _ _ => rfl
  · exact fun _ => view_send _ hst_transport _
  · intro subs status
    rw [view_send _ hst_transport]
    exact view_modifyCli_same _ (fun _ => rfl) fun _ => rfl

/-- **What a frame does to the timers.** -/
theorem hst_input (f : Frame) : (w.input net id f).view Client.hst =
    Function.update (w.view Client.hst) id
      ((w.view Client.hst id).map (Hst.frame w.server.keepaliveTimeout f)) := by
  have htouch : ((w.emit (.input id f)).touch id).view Client.hst =
      Function.update (w.view Client.hst) id
        ((w.view Client.hst id).map (Hst.touch w.server.keepaliveTimeout)) := hst_touch
  rw [input_eq]
  by_cases hf : getMsgType f = MsgType.serviceInfo
  · rw [dispatch_serviceInfo hf, view_noteConnected fun _ => rfl, hst_replyServiceInfo, htouch,
      Function.update_idem, Function.update_self, Option.map_map]
    congr 2
    funext h
    rw [Hst.frame, if_pos hf]
    rfl
  · rw [hst_dispatch_plain hf, htouch]
    congr 2
    funext h
    rw [Hst.frame, if_neg hf]

theorem hst_publish (url : Bytes) (data : Option Ref) :
    (w.publish net url data).view Client.hst = w.view Client.hst := by
  unfold publish
  split_ifs
  · refine List.foldlRecOn (motive := fun w' : World β => w'.view Client.hst = w.view Client.hst)
      _ _ rfl fun w' hw' c _ => ?_
    unfold publishTo
    split_ifs
    · rw [view_cliSendmsg _ hst_transport, hw']
    · exact hw'
  · rfl

theorem hst_timerSweep :
    w.timerSweep.view Client.hst = fun id => (w.view Client.hst id).map Hst.sweep := by
  funext id
  have hfind : w.timerSweep.server.cliFind id = (w.server.cliFind id).map sweepCli :=
    Buckets.find_map id_sweepCli id
  rw [view, hfind, view, Option.map_map, Option.map_map]
  congr 1
  funext c
  exact hst_sweepCli c

theorem hst_handleEventInput (h : w.Wf) (hp : w.server.evtPending = true) :
    w.handleEventInput.view Client.hst =
      fun id => (w.view Client.hst id).filter fun h => !h.expired := by
  funext id
  rw [view, cliFind_handleEventInput h hp, view]
  cases w.server.cliFind id with
  | none => rfl
  | some c =>
    rw [Option.map_some, Option.filter_some, Option.filter_some, ← expired_eq]
    by_cases hexp : expired c = true
    · simp [hexp]
    · simp [hexp]

/-! ## What stays the same -/

end World

/-- All of a server but its clients, its id counter and its send buffer. -/
def Server.rest (s : Server β) : Server β :=
  { s with ncid := 0, clis := fun _ => [], sendbuf := Mem.zero }

namespace World

theorem rest_cliSendmsg (msg : Message) :
    (w.cliSendmsg net id msg).server.rest = w.server.rest := by
  unfold cliSendmsg
  split <;> rfl

theorem rest_send (msg : Message) : (w.send net id msg).server.rest = w.server.rest :=
  rest_cliSendmsg (w := w.createHeader msg) msg

theorem rest_callOncli (connect : Bool) :
    (w.callOncli id connect).server.rest = w.server.rest := by
  unfold callOncli
  split_ifs <;> rfl

theorem rest_replyServiceInfo {f : Frame} :
    (w.replyServiceInfo net id f).server.rest = w.server.rest := by
  unfold replyServiceInfo
  simp only
  rw [rest_cliSendmsg]
  rfl

theorem rest_dispatch {f : Frame} : (w.dispatch net id f).server.rest = w.server.rest := by
  by_cases hf : getMsgType f = MsgType.serviceInfo
  · rw [dispatch_serviceInfo hf, noteConnected]
    split_ifs
    · exact (rest_callOncli true).trans rest_replyServiceInfo
    · exact rest_replyServiceInfo
  · apply dispatch_plain (P := fun w' => w'.server.rest = w.server.rest) hf
    · rfl
    · rfl
    · exact fun _ _ _ => rfl
    · exact fun _ => rest_send _
    · exact fun _ _ => rest_send _

theorem rest_input (f : Frame) : (w.input net id f).server.rest = w.server.rest :=
  rest_dispatch (w := (w.emit (.input id f)).touch id)

theorem rest_publish (url : Bytes) (data : Option Ref) :
    (w.publish net url data).server.rest = w.server.rest := by
  unfold publish
  split_ifs
  · refine List.foldlRecOn (motive := fun w' : World β => w'.server.rest = w.server.rest) _ _ rfl
      fun w' hw' c _ => ?_
    unfold publishTo
    split_ifs
    · rw [rest_cliSendmsg, hw']
    · exact hw'
  · rfl

/-! ## The server runs the timers -/

/-- What the entries `es` of a log do to the timers of a server. -/
def runTimers (s : Server β) (t : Timers) (es : List (ServerEvent β)) : Timers :=
  Runs.run (TimerEvent.step s.keepaliveTimeout s.handshakeTimeout) t
    (es.filterMap ServerEvent.timer)

theorem runTimers_append (s : Server β) (t : Timers) (es fs : List (ServerEvent β)) :
    runTimers s t (es ++ fs) = runTimers s (runTimers s t es) fs := by
  rw [runTimers, List.filterMap_append, Runs.run_append]
  rfl

theorem runTimers_rest {s s' : Server β} (h : s'.rest = s.rest) : runTimers s' = runTimers s := by
  have hk : s'.rest.keepaliveTimeout = s.rest.keepaliveTimeout := by rw [h]
  have hh : s'.rest.handshakeTimeout = s.rest.handshakeTimeout := by rw [h]
  funext t es
  show Runs.run (TimerEvent.step s'.rest.keepaliveTimeout s'.rest.handshakeTimeout) t _ = _
  rw [hk, hh]
  rfl

/-- The timers of `w'` are those of `w` after the events in its log; settings stay. -/
structure Follows (w w' : World β) : Prop where
  rest : w'.server.rest = w.server.rest
  log : ∃ es, w'.log = w.log ++ es ∧
    w'.view Client.hst = runTimers w.server (w.view Client.hst) es

theorem Follows.trans {w₁ w₂ w₃ : World β} (h₁ : Follows w₁ w₂) (h₂ : Follows w₂ w₃) :
    Follows w₁ w₃ := by
  obtain ⟨es, hes, ht₁⟩ := h₁.log
  obtain ⟨fs, hfs, ht₂⟩ := h₂.log
  refine ⟨h₂.rest.trans h₁.rest, es ++ fs, by rw [hfs, hes, List.append_assoc], ?_⟩
  rw [ht₂, ht₁, runTimers_rest h₁.rest, runTimers_append]

theorem Follows.still {w' : World β} (hrest : w'.server.rest = w.server.rest)
    (hlog : Grows (fun e => e.timer = none) w w')
    (hview : w'.view Client.hst = w.view Client.hst) : Follows w w' := by
  obtain ⟨es, he, hnone⟩ := hlog
  refine ⟨hrest, es, he, ?_⟩
  rw [hview, runTimers, List.filterMap_eq_nil_iff.2 hnone]
  rfl

theorem follows_cliDestroy : Follows w (w.cliDestroy id) :=
  ⟨rfl, [.removed id], rfl, view_cliDestroy _⟩

theorem Answer.timer {e : ServerEvent β} (h : Answer e) : e.timer = none := by
  cases e <;> first | exact h.elim | rfl

theorem IsSent.timer {e : ServerEvent β} (h : IsSent e) : e.timer = none := by
  cases e <;> first | exact h.elim | rfl

theorem follows_input (f : Frame) : Follows w (w.input net id f) := by
  obtain ⟨es, he, hes⟩ := log_input net w id f
  refine ⟨rest_input f, _, he, ?_⟩
  have hnil : es.filterMap ServerEvent.timer = [] :=
    List.filterMap_eq_nil_iff.2 fun e hmem => (hes e hmem).timer
  rw [runTimers, List.filterMap_cons_some (f := ServerEvent.timer) rfl, hnil, hst_input]
  rfl

theorem follows_closeClient (cli : Client) : Follows w (w.closeClient cli) := by
  unfold closeClient
  refine Follows.trans ?_ follows_cliDestroy
  split_ifs
  · refine .still (rest_callOncli false) ?_ ?_
    · exact (Grows.of_eq (log_modifyCli _)).trans (grows_callOncli (fun _ _ => rfl) false)
    · rw [view_callOncli]
      exact view_modifyCli_same _ (fun _ => rfl) fun _ => rfl
  · exact .still rfl (.of_eq rfl) rfl

theorem follows_takeChunk (buf : Bytes) (frames : List Frame) (recv : StreamCtx) :
    Follows w (w.takeChunk net id buf frames recv) := by
  have hframes : Follows w (frames.foldl (input net id) (w.emit (.received id buf))) := by
    refine List.foldlRecOn (motive := Follows w) _ _ ?_ fun w' hw' f _ =>
      hw'.trans (follows_input f)
    exact .still rfl ((Grows.of_eq rfl).emit rfl) rfl
  refine hframes.trans (.still rfl (.of_eq rfl) ?_)
  exact view_modifyCli_same _ (fun _ => rfl) fun _ => rfl

theorem follows_addClient (hid : w.server.cliFind id = none) (ncid : UInt32) (fd : Int) :
    Follows w (w.addClient id ncid fd) := by
  refine ⟨rfl, [.accepted id], rfl, ?_⟩
  have hnone : w.view Client.hst id = none := by rw [view, hid, Option.map_none]
  rw [view_addClient, runTimers, List.filterMap_cons_some (f := ServerEvent.timer) rfl,
    List.filterMap_nil, Runs.run_cons, Runs.run_nil, TimerEvent.step, hnone, if_neg (by simp)]
  rfl

theorem follows_sendTo (msg : Message) : Follows w (w.sendTo net id msg) := by
  unfold sendTo
  split_ifs
  · exact .still (rest_send msg) (grows_send (fun _ _ _ => rfl) msg) (view_send _ hst_transport msg)
  · exact .still rfl (.of_eq rfl) rfl

/-- All steps but the timer's own show in the log what they do to the timers. -/
theorem follows_step (net : Nat → Nat → SendStep) (h : w.TableOk) {op : ServerOp}
    (hs : op ≠ .timerSweep) (he : op ≠ .eventInput) : Follows w (w.step net op) := by
  have hself : Follows w w := .still rfl (.of_eq rfl) rfl
  -- Sweeps and the timer's event are about all timers at once, and are treated apart.
  cases op with
  | newConnection fd =>
    rw [step]
    rcases w.handleNewConnection_cases fd with e | ⟨id, ncid, hid, -, e⟩
    · rwa [e]
    · rw [e]
      exact follows_addClient hid ncid fd
  | clientInput id r =>
    rw [step]
    rcases handleClientInput_cases net h id r with e | ⟨cli, -, -, e | ⟨buf, recv, -, e⟩⟩
    · rwa [e]
    · rw [e]
      exact follows_closeClient cli
    · rw [e]
      exact follows_takeChunk buf _ recv
  | eventInput => exact absurd rfl he
  | timerSweep => exact absurd rfl hs
  | peerClose id =>
    refine .still rfl (.of_eq rfl) ?_
    exact view_modifyCli_same _ (fun _ => rfl) fun _ => rfl
  | publish url data =>
    refine .still (rest_publish url data) ?_ (hst_publish url data)
    exact (quiet_publish h.wf url data).log.mono fun _ he => he.timer
  | response id status seqno data => exact follows_sendTo _
  | message id url data =>
    rw [step, message]
    split_ifs
    · exact follows_sendTo _
    · exact hself

/-- **Every step of the server does to the timers what its events do.** -/
theorem timers_step (h : w.TableOk) (op : ServerOp) :
    (w.step net op).view Client.hst =
      Runs.run (TimerEvent.step w.server.keepaliveTimeout w.server.handshakeTimeout)
        (w.view Client.hst) (w.timerEvents net op) := by
  by_cases hs : op = .timerSweep
  · subst hs
    exact hst_timerSweep
  by_cases he : op = .eventInput
  · subst he
    rw [step, timerEvents]
    by_cases hp : w.server.evtPending = true
    · rw [if_pos hp, hst_handleEventInput h.wf hp]
      rfl
    · rw [if_neg hp, handleEventInput, if_neg hp]
      rfl
  obtain ⟨es, hes, ht⟩ := (follows_step net h hs he).log
  have hevents : w.timerEvents net op = es.filterMap ServerEvent.timer := by
    unfold timerEvents
    split
    · exact absurd rfl hs
    · exact absurd rfl he
    · rw [hes, List.drop_left]
  rw [ht, hevents]
  rfl

/-- All of a server that its steps leave alone. -/
def settings (s : Server β) : Server β := { s.rest with evtPending := false }

theorem settings_step (net : Nat → Nat → SendStep) (h : w.TableOk) (op : ServerOp) :
    settings (w.step net op).server = settings w.server := by
  by_cases hs : op = .timerSweep
  · subst hs
    rfl
  by_cases he : op = .eventInput
  · subst he
    rw [step, handleEventInput]
    split_ifs
    · refine List.foldlRecOn (motive := fun w' : World β =>
        settings w'.server = settings w.server) _ _ ?_ fun _ h _ _ => h
      rfl
    · rfl
  rw [settings, settings, (follows_step net h hs he).rest]

theorem timeouts_step (net : Nat → Nat → SendStep) (h : w.TableOk) (op : ServerOp) :
    (w.step net op).server.keepaliveTimeout = w.server.keepaliveTimeout ∧
      (w.step net op).server.handshakeTimeout = w.server.handshakeTimeout := by
  have hk : (settings (w.step net op).server).keepaliveTimeout =
      (settings w.server).keepaliveTimeout := by rw [settings_step net h op]
  have hh : (settings (w.step net op).server).handshakeTimeout =
      (settings w.server).handshakeTimeout := by rw [settings_step net h op]
  exact ⟨hk, hh⟩

theorem router_step (net : Nat → Nat → SendStep) (h : w.TableOk) (op : ServerOp) :
    (w.step net op).server.router = w.server.router := by
  show (settings (w.step net op).server).router = (settings w.server).router
  rw [settings_step net h op]

def timerTrace (net : Nat → Nat → SendStep) (w : World β) : List ServerOp → List TimerEvent
  | [] => []
  | op :: ops => w.timerEvents net op ++ (w.step net op).timerTrace net ops

/-- **The timers of a server are a run of `TimerEvent.step`.** -/
theorem timers_run (h : w.TableOk) (ops : List ServerOp) :
    (Runs.run (World.step net) w ops).view Client.hst =
      Runs.run (TimerEvent.step w.server.keepaliveTimeout w.server.handshakeTimeout)
        (w.view Client.hst) (w.timerTrace net ops) := by
  induction ops generalizing w with
  | nil => rfl
  | cons op ops ih =>
    obtain ⟨hk, hh⟩ := timeouts_step net h op
    rw [Runs.run_cons, ih (tableOk_step net h op), timers_step h op, hk, hh, timerTrace,
      Runs.run_append]

end World

end Ssn
