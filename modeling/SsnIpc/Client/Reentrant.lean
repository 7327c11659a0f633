import SsnIpc.Client.Requests
import SsnIpc.Client.Steps
import SsnIpc.Layers.ClientCalls
import SsnIpc.Lib.Runs

/-!
# Callbacks that call the client

A client runs the user's callbacks without its lock, and they may call the client again. The state
here has a stack of the callbacks that are running: what the client still has to do when each of
them returns (`Resume`). The user's code is on top of it, in the innermost callback or outside of
all of them, and makes the next step: a call of the client's interface, or `ret`, the return from
the callback. A poll, and with it a ping, is only made outside of callbacks.

The frames that a poll meets are given by the step, as in the functions with locks: a callback that
connects again writes to the buffer that the parser is reading. For the same reason a connection
attempt finds the parser in a state that is part of the step.

**Theorems (`settles_disconnect`, `settles_connect`, `settles_poll`).** When callbacks return at
once, these steps do what the functions without nested calls do.
-/

namespace Ssn

open ByteMem

variable {κ : Type*} {net : Nat → Nat → SendStep}

/-! ## Parts of the client's functions -/

def SsnClient.handlerCall (c : SsnClient κ) (f : Frame) : Option (ClientEvent κ) :=
  if getMsgType f = MsgType.publish then
    match (c.subHandlers.find? fun h => h.url = f.url).bind SubHandler.callback with
    | some k => some (.published k f)
    | none =>
      match c.onsub, c.onmsg with
      | some k, _ => some (.onsub k f)
      | none, some k => some (.onmsg k f)
      | none, none => none
  else c.onmsg.map (.onmsg · f)

theorem SsnClient.call?_of_handlerCall {c : SsnClient κ} {f : Frame} {e : ClientEvent κ}
    (h : c.handlerCall f = some e) : e.call? = none := by
  unfold SsnClient.handlerCall at h
  split_ifs at h
  · split at h
    · cases h
      rfl
    · split at h <;> cases h <;> rfl
  · obtain ⟨k, -, rfl⟩ := Option.map_eq_some_iff.1 h
    rfl

instance (f : Frame) : Decidable (ClientWorld.IsReply f) :=
  inferInstanceAs (Decidable (_ ∧ _))

/-! ## The stack of callbacks -/

/-- What a function does after it told pending requests that there is no reply: nothing
(`ssn_client_disconnect`, the timer's event), the rest of a connection attempt, or the end of
`ssn_client_poll` on a lost connection. -/
inductive AfterCalls
  | done
  | dial (timeoutMs : Option Nat) (run : ConnectRun) (recv : StreamCtx)
  | hangUp

/-- What is left to do when a callback returns. -/
inductive Resume
  /-- The callback `k` of a reply: `ssn_client_input` frees the slot, and the parser goes on with
  the frames. -/
  | reply (index k : Nat) (fs : List Frame) (ok : Bool)
  /-- The handler of a publication or a message. -/
  | handler (fs : List Frame) (ok : Bool)
  /-- A callback without a reply, in the loop of `ssn_client_collect_and_call_pending`. -/
  | failed (items : List (Pending Nat)) (after : AfterCalls)

/-- A client, the callbacks that are running, innermost first, and the number of requests made. The
number of a request is the identity of its callback. -/
structure Reentrant where
  world : ClientWorld Nat
  stack : List Resume
  requests : Nat

namespace Reentrant

/-- The client goes on to `w`. -/
def setWorld (s : Reentrant) (w : ClientWorld Nat) : Reentrant := { s with world := w }

/-- A callback is called; `r` is left to do when it returns. -/
def enter (s : Reentrant) (e : ClientEvent Nat) (r : Resume) : Reentrant :=
  { s with world := s.world.emit e, stack := r :: s.stack }

/-- The rest of a function after its calls. -/
def finish (s : Reentrant) : AfterCalls → Reentrant
  | .done => s
  | .dial timeoutMs run recv =>
    s.setWorld ((s.world.setClient { s.world.client with recv }).dial timeoutMs run).1
  | .hangUp =>
    s.setWorld (s.world.setClient { s.world.client with connected := false, transport := none })

/-- The calling loop of `ssn_client_collect_and_call_pending`, up to the next callback. -/
def callItems (after : AfterCalls) : List (Pending Nat) → Reentrant → Reentrant
  | [], s => s.finish after
  | p :: items, s =>
    match ClientWorld.failedCall p with
    | some (k, _) => s.enter (.called k none) (.failed items after)
    | none => callItems after items s

/-- `ssn_client_collect_and_call_pending`, up to the first callback. -/
def collectAndCallPending (s : Reentrant) (onlyTimeout : Bool) (after : AfterCalls) : Reentrant :=
  let (c, items) := s.world.client.collect onlyTimeout
  callItems after items (s.setWorld (s.world.setClient c))

/-- `ssn_client_disconnect`. -/
def disconnect (s : Reentrant) : Reentrant :=
  if s.world.client.connected then
    (s.setWorld (s.world.setClient { s.world.client with
      connected := false
      transport := s.world.client.transport.map Transport.disconnect })).collectAndCallPending
        false .done
  else s

/-- `ssn_client_connect`. -/
def connect (s : Reentrant) (timeoutMs : Option Nat) (run : ConnectRun) (recv : StreamCtx) :
    Reentrant :=
  (s.setWorld (s.world.setClient { s.world.client with
    connected := false, transport := none })).collectAndCallPending
      false (.dial timeoutMs run recv)

/-- The part of `ssn_client_process_events` for the timer's event. -/
def handleEvent (s : Reentrant) : Reentrant :=
  if s.world.client.evtPending then
    (s.setWorld (s.world.setClient { s.world.client with
      evtPending := false })).collectAndCallPending true .done
  else s

/-- The part of `ssn_client_poll` for a lost connection. -/
def connectionLost (s : Reentrant) : Reentrant :=
  (s.setWorld (s.world.setClient { s.world.client with
    connected := false })).collectAndCallPending false .hangUp

/-- `ssn_client_input` for each frame of a poll, up to the next callback. After the last frame
`ssn_stream_feed` returns `ok`. -/
def feed (ok : Bool) : List Frame → Reentrant → Reentrant
  | [], s => if ok then s.handleEvent else s.connectionLost
  | f :: fs, s =>
    let s := s.setWorld (s.world.emit (.input f))
    if ClientWorld.IsReply f then
      match s.world.client.getPendingSnapshot (getSeqno f) with
      | none => feed ok fs s
      | some (index, p) =>
        match ClientWorld.replyCall f p with
        | some (k, _) => s.enter (.called k (some f)) (.reply index k fs ok)
        | none =>
          feed ok fs (s.setWorld (s.world.setClient (s.world.client.freePendingIndex index)))
    else
      match s.world.client.handlerCall f with
      | some e => s.enter e (.handler fs ok)
      | none => feed ok fs s

/-- `ssn_client_poll`. -/
def poll (s : Reentrant) : ClientPollInput → Reentrant
  | .idle => s
  | .ready sock =>
    if s.world.client.connected then
      match if s.world.isOpen then sock else .quiet with
      | .frames fs ok => s.feed ok fs
      | .lost => s.connectionLost
      | .quiet => s.handleEvent
    else s.handleEvent

def ret (s : Reentrant) : Reentrant :=
  match s.stack with
  | [] => s
  | .reply index _ fs ok :: stack =>
    feed ok fs { s with
      world := s.world.setClient (s.world.client.freePendingIndex index), stack := stack }
  | .handler fs ok :: stack => feed ok fs { s with stack := stack }
  | .failed items after :: stack => callItems after items { s with stack := stack }

def requested (s : Reentrant) (w : ClientWorld Nat) : Reentrant :=
  { s with world := w, requests := s.requests + 1 }

end Reentrant

/-- The steps of the user's code, of the timer thread, and the end of a ping. -/
inductive ReentrantOp
  | call (url : Bytes) (data : Option Ref) (callback : Bool) (timeoutMs : Nat)
  | subscribe (url : Bytes) (handler : Option Nat) (timeoutMs : Nat)
  | unsubscribe (url : Bytes) (timeoutMs : Nat)
  | message (url : Bytes) (data : Option Ref)
  | sendTimeout (timeoutMs : Int) (outcome : Option Nat)
  | ping (timeoutMs : Nat)
  | pingEnd (seqno : UInt16)
  | connect (timeoutMs : Option Nat) (run : ConnectRun) (recv : StreamCtx)
  | disconnect
  | poll (input : ClientPollInput)
  | timerSweep
  | ret

/-- One step. Polls and ends of pings are left out inside of a callback. -/
def Reentrant.step (net : Nat → Nat → SendStep) (s : Reentrant) : ReentrantOp → Reentrant
  | .call url data callback timeoutMs =>
    s.requested (s.world.callEx net url data (if callback then some s.requests else none)
      timeoutMs).1
  | .subscribe url handler timeoutMs =>
    s.requested (s.world.subscribe net url handler timeoutMs).1
  | .unsubscribe url timeoutMs => s.requested (s.world.unsubscribe net url timeoutMs).1
  | .message url data => s.setWorld (s.world.message net url data)
  | .sendTimeout timeoutMs outcome => s.setWorld (s.world.setSendTimeout timeoutMs outcome)
  | .ping timeoutMs =>
    s.requested (s.world.requestEx net MsgType.pingEcho none none (some s.requests) timeoutMs).1
  | .pingEnd seqno => if s.stack.isEmpty then s.setWorld (s.world.pingCancel seqno) else s
  | .connect timeoutMs run recv => s.connect timeoutMs run recv
  | .disconnect => s.disconnect
  | .poll input => if s.stack.isEmpty then s.poll input else s
  | .timerSweep => s.setWorld (s.world.setClient s.world.client.timerSweep)
  | .ret => s.ret

/-! ## The cases of the parser's loop -/

namespace Reentrant

variable {s : Reentrant} {ok : Bool} {f : Frame} {fs : List Frame}

theorem feed_unknown (hf : ClientWorld.IsReply f)
    (hs : s.world.client.getPendingSnapshot (getSeqno f) = none) :
    s.feed ok (f :: fs) = (s.setWorld (s.world.emit (.input f))).feed ok fs := by
  rw [feed, if_pos hf]
  simp only [setWorld, ClientWorld.emit, hs]

theorem feed_mute (hf : ClientWorld.IsReply f) {c : Nat × Pending Nat}
    (hs : s.world.client.getPendingSnapshot (getSeqno f) = some c)
    (hc : ClientWorld.replyCall f c.2 = none) :
    s.feed ok (f :: fs) = (s.setWorld ((s.world.emit (.input f)).setClient
      (s.world.client.freePendingIndex c.1))).feed ok fs := by
  rw [feed, if_pos hf]
  simp only [setWorld, ClientWorld.emit, hs, hc]

theorem feed_reply (hf : ClientWorld.IsReply f) {c : Nat × Pending Nat}
    (hs : s.world.client.getPendingSnapshot (getSeqno f) = some c) {r : Nat × Option Frame}
    (hc : ClientWorld.replyCall f c.2 = some r) :
    s.feed ok (f :: fs) = (s.setWorld (s.world.emit (.input f))).enter
      (.called r.1 (some f)) (.reply c.1 r.1 fs ok) := by
  rw [feed, if_pos hf]
  simp only [setWorld, ClientWorld.emit, hs, hc]

theorem feed_unhandled (hf : ¬ ClientWorld.IsReply f) (hc : s.world.client.handlerCall f = none) :
    s.feed ok (f :: fs) = (s.setWorld (s.world.emit (.input f))).feed ok fs := by
  rw [feed, if_neg hf]
  simp only [setWorld, ClientWorld.emit, hc]

theorem feed_handled (hf : ¬ ClientWorld.IsReply f) {e : ClientEvent Nat}
    (hc : s.world.client.handlerCall f = some e) :
    s.feed ok (f :: fs) =
      (s.setWorld (s.world.emit (.input f))).enter e (.handler fs ok) := by
  rw [feed, if_neg hf]
  simp only [setWorld, ClientWorld.emit, hc]

end Reentrant

/-! ## Callbacks that return at once -/

namespace ClientWorld

variable {w : ClientWorld κ}

theorem callFailed_of_some {p : Pending κ} {k : κ} {r : Option Frame}
    (h : failedCall p = some (k, r)) : w.callFailed p = w.emit (.called k none) := by
  rcases p with ⟨seqno, timeoutMs, _ | _ | _, _ | k'⟩ <;> cases h <;> rfl

theorem callFailed_of_none {p : Pending κ} (h : failedCall p = none) : w.callFailed p = w := by
  rcases p with ⟨seqno, timeoutMs, _ | _ | _, _ | k'⟩ <;> first | rfl | cases h

theorem input_handler {f : Frame} (hf : ¬ IsReply f) :
    w.input f = ((w.client.handlerCall f).elim (w.emit (.input f)) (w.emit (.input f)).emit) := by
  unfold input SsnClient.handlerCall
  simp only
  split_ifs with hpub hmsg
  · unfold handlePublish
    cases hfind : (w.client.subHandlers.find? fun h => h.url = f.url).bind SubHandler.callback with
    | some k => simp [emit, hfind]
    | none => cases hs : w.client.onsub <;> cases hm : w.client.onmsg <;> simp [emit, hfind, hs, hm]
  · unfold handleMessage
    cases hm : w.client.onmsg <;> simp [emit, hm]
  · exact absurd ⟨hpub, hmsg⟩ hf

theorem input_unknown {f : Frame} (hf : IsReply f)
    (hs : w.client.getPendingSnapshot (getSeqno f) = none) : w.input f = w.emit (.input f) :=
  input_of_none hf (Option.map_eq_none_iff.2 hs)

theorem input_snapshot {f : Frame} (hf : IsReply f) {c : Nat × Pending κ}
    (hs : w.client.getPendingSnapshot (getSeqno f) = some c) :
    w.input f = (((replyCall f c.2).elim (w.emit (.input f)) fun r =>
      (w.emit (.input f)).emit (.called r.1 (some f))).setClient
        (w.client.freePendingIndex c.1)) := by
  rw [input_reply hf, handlePendingReply,
    show (w.emit (.input f)).client.getPendingSnapshot (getSeqno f) = some c from hs]
  unfold replyCall replyFType handleResponse handleRpcResponse handleReply
  simp only
  split_ifs <;> cases hk : c.2.callback <;> simp_all [setClient, emit, eq_comm]

end ClientWorld

namespace Reentrant

variable {s s' s'' : Reentrant}

/-- If callbacks return and do nothing else, then `s` becomes `s'`. -/
def Settles (net : Nat → Nat → SendStep) (s s' : Reentrant) : Prop :=
  ∃ n, Runs.run (step net) s (List.replicate n .ret) = s'

theorem Settles.refl (s : Reentrant) : Settles net s s := ⟨0, rfl⟩

theorem Settles.trans (h : Settles net s s') (h' : Settles net s' s'') : Settles net s s'' := by
  obtain ⟨n, rfl⟩ := h
  obtain ⟨m, rfl⟩ := h'
  exact ⟨n + m, by rw [List.replicate_add, Runs.run_append]⟩

theorem Settles.of_ret (h : Settles net s.ret s') : Settles net s s' := by
  obtain ⟨n, rfl⟩ := h
  exact ⟨n + 1, rfl⟩

theorem settles_callItems (after : AfterCalls) (items : List (Pending Nat)) (s : Reentrant) :
    Settles net (s.callItems after items)
      ((s.setWorld (items.foldl ClientWorld.callFailed s.world)).finish after) := by
  induction items generalizing s with
  | nil => exact .refl _
  | cons p items ih =>
    rw [callItems, List.foldl_cons]
    cases hp : ClientWorld.failedCall p with
    | none =>
      rw [ClientWorld.callFailed_of_none hp]
      exact ih s
    | some c =>
      rw [ClientWorld.callFailed_of_some hp]
      exact .of_ret (ih (s.setWorld (s.world.emit (.called c.1 none))))

theorem settles_collectAndCallPending (onlyTimeout : Bool) (after : AfterCalls) (s : Reentrant) :
    Settles net (s.collectAndCallPending onlyTimeout after)
      ((s.setWorld (s.world.collectAndCallPending onlyTimeout)).finish after) := by
  unfold collectAndCallPending ClientWorld.collectAndCallPending
  rcases s.world.client.collect onlyTimeout with ⟨c, items⟩
  exact settles_callItems after items _

theorem settles_disconnect (s : Reentrant) :
    Settles net (s.step net .disconnect) (s.setWorld s.world.disconnect) := by
  show Settles net s.disconnect _
  unfold disconnect ClientWorld.disconnect
  split_ifs
  · exact settles_collectAndCallPending false .done _
  · exact .refl s

theorem settles_connect (timeoutMs : Option Nat) (run : ConnectRun) (s : Reentrant) :
    Settles net (s.step net (.connect timeoutMs run s.world.client.recv))
      (s.setWorld (s.world.connect timeoutMs run).1) := by
  have hrecv := (ClientWorld.quiet_timeoutAll (w := s.world.setClient
    { s.world.client with connected := false, transport := none })).recv
  rw [ClientWorld.connect, step, connect]
  refine (settles_collectAndCallPending false _ _).trans ?_
  -- The parser is as it was before the calls.
  rw [← ClientWorld.timeoutAll]
  simp only [setWorld] at hrecv ⊢
  generalize ClientWorld.timeoutAll _ = w at hrecv ⊢
  have h : s.world.client.recv = w.client.recv := hrecv.symm
  rw [h]
  exact .refl _

theorem settles_handleEvent (s : Reentrant) :
    Settles net s.handleEvent (s.setWorld s.world.handleEvent) := by
  unfold handleEvent ClientWorld.handleEvent
  split_ifs
  · exact settles_collectAndCallPending true .done _
  · exact .refl s

theorem settles_connectionLost (s : Reentrant) :
    Settles net s.connectionLost ((s.setWorld s.world.connectionLost).finish .hangUp) :=
  settles_collectAndCallPending false .hangUp _

theorem settles_feed (ok : Bool) (fs : List Frame) (s : Reentrant) :
    Settles net (s.feed ok fs) ((s.setWorld (fs.foldl ClientWorld.input s.world)).feed ok []) := by
  induction fs generalizing s with
  | nil => exact .refl _
  | cons f fs ih =>
    rw [List.foldl_cons]
    by_cases hf : ClientWorld.IsReply f
    · cases hs : s.world.client.getPendingSnapshot (getSeqno f) with
      | none =>
        rw [feed_unknown hf hs, ClientWorld.input_unknown hf hs]
        exact ih _
      | some c =>
        rw [ClientWorld.input_snapshot hf hs]
        cases hc : ClientWorld.replyCall f c.2 with
        | none =>
          rw [feed_mute hf hs hc]
          exact ih _
        | some r =>
          rw [feed_reply hf hs hc]
          exact .of_ret (ih _)
    · rw [ClientWorld.input_handler hf]
      cases hc : s.world.client.handlerCall f with
      | none =>
        rw [feed_unhandled hf hc]
        exact ih _
      | some e =>
        rw [feed_handled hf hc]
        exact .of_ret (ih _)

theorem settles_poll {s : Reentrant} (hs : s.stack = []) (hc : s.world.client.connected = true)
    (hopen : s.world.isOpen = true) (fs : List Frame) (ok : Bool) :
    Settles net (s.step net (.poll (.ready (.frames fs ok))))
      (if ok then s.setWorld (fs.foldl ClientWorld.input s.world).handleEvent
        else (s.setWorld (fs.foldl ClientWorld.input s.world).connectionLost).finish .hangUp) := by
  have hpoll : s.step net (.poll (.ready (.frames fs ok))) = s.feed ok fs := by
    simp [step, hs, poll, hc, hopen]
  rw [hpoll]
  refine (settles_feed ok fs s).trans ?_
  rw [feed]
  split_ifs
  · exact settles_handleEvent _
  · exact settles_connectionLost _

end Reentrant

end Ssn
