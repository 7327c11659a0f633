import SsnIpc.Client.Connections
import SsnIpc.Frame.Wire

/-!
# What a client writes

The sends of a client on the connection in use, from the SERVICE_INFO with which it was made. Only
requests and one-way messages send; polls, replies, timeouts and the end of a connection do not,
and none of them opens a descriptor (`Mute`). A send that fails closes the descriptor.

**Theorem (`Writes.step`).** The sends of a client on a connection are those of one wire: each is
whole or less than a frame, and nothing goes out behind one that failed.
-/

namespace Ssn

open ByteMem

variable {κ : Type*} {net : Nat → Nat → SendStep} {w w' w'' : ClientWorld κ}

/-- The message with which `ssn_client_connect` begins. -/
def infoRequest : Message := ⟨MsgType.serviceInfo, 0, 0, none, none⟩

/-- The send of that message, without which there is no connection. -/
def infoSend : Message × SendOut :=
  (infoRequest, ⟨true, [infoRequest.packet], infoRequest.packet, []⟩)

/-- What an event adds to the sends on the connection in use. -/
def ClientEvent.sends (acc : List (Message × SendOut)) :
    ClientEvent κ → List (Message × SendOut)
  | .opened => [infoSend]
  | .sent msg out => acc ++ [(msg, out)]
  | _ => acc

def ClientOp.isCall : ClientOp κ → Bool
  | .call _ _ _ _ | .subscribe _ _ _ | .unsubscribe _ _ | .message _ _ => true
  | _ => false

namespace ClientWorld

/-- The messages sent on the connection in use, each with what its send did. -/
def sends (w : ClientWorld κ) : List (Message × SendOut) := w.log.foldl ClientEvent.sends []

@[simp] theorem sends_emit (e : ClientEvent κ) : (w.emit e).sends = e.sends w.sends := by
  simp [sends, emit]

/-! ## Steps that send nothing -/

/-- Nothing is sent, and no descriptor is opened. -/
structure Mute (w w' : ClientWorld κ) : Prop where
  sends : w'.sends = w.sends
  shut : w.isOpen = false → w'.isOpen = false

theorem Mute.refl (w : ClientWorld κ) : Mute w w := ⟨rfl, fun h => h⟩

theorem Mute.trans (h : Mute w w') (h' : Mute w' w'') : Mute w w'' :=
  ⟨h'.sends.trans h.sends, fun hw => h'.shut (h.shut hw)⟩

theorem mute_emit {e : ClientEvent κ} (he : e.sends w.sends = w.sends) : Mute w (w.emit e) :=
  ⟨(sends_emit e).trans he, fun h => h⟩

theorem mute_setClient {c : SsnClient κ} (hc : c.transport = w.client.transport) :
    Mute w (w.setClient c) := by
  refine ⟨rfl, fun h => ?_⟩
  rwa [isOpen, setClient, hc]

theorem mute_down {c : SsnClient κ} (hc : c.transport = none) : Mute w (w.setClient c) := by
  refine ⟨rfl, fun _ => ?_⟩
  simp [isOpen, setClient, hc]

theorem mute_of_link {c : SsnClient κ} (hc : c.link = w.client.link) : Mute w (w.setClient c) :=
  mute_setClient (congrArg Link.transport hc)

theorem mute_callFailed (p : Pending κ) : Mute w (w.callFailed p) := by
  unfold callFailed
  split
  · exact mute_emit rfl
  · exact mute_emit rfl
  · exact .refl w

theorem mute_collectAndCallPending (onlyTimeout : Bool) :
    Mute w (w.collectAndCallPending onlyTimeout) := by
  have hfold (items : List (Pending κ)) (w : ClientWorld κ) :
      Mute w (items.foldl callFailed w) := by
    induction items generalizing w with
    | nil => exact .refl w
    | cons p items ih => exact (mute_callFailed p).trans (ih _)
  have hlink := w.client.link_collect onlyTimeout
  rcases hcol : w.client.collect onlyTimeout with ⟨c, items⟩
  rw [hcol] at hlink
  simp only [collectAndCallPending, hcol]
  exact (mute_of_link hlink).trans (hfold items _)

theorem mute_handleEvent : Mute w w.handleEvent := by
  unfold handleEvent
  split_ifs
  · apply Mute.trans _ (mute_collectAndCallPending true)
    exact mute_setClient rfl
  · exact .refl w

theorem mute_timeoutAll : Mute w w.timeoutAll := by
  rw [timeoutAll]
  exact mute_collectAndCallPending false

theorem mute_connectionLost : Mute w w.connectionLost := by
  rw [connectionLost]
  apply Mute.trans _ mute_timeoutAll
  exact mute_setClient rfl

theorem mute_handleReply (ftype : FType) (f : Frame) (p : Pending κ) :
    Mute w (w.handleReply ftype f p) := by
  unfold handleReply
  split
  · split_ifs
    · exact mute_emit rfl
    · exact .refl w
  · exact .refl w

theorem mute_handlePendingReply (f : Frame) : Mute w (w.handlePendingReply f) := by
  unfold handlePendingReply
  split
  · exact .refl w
  · apply Mute.trans _ (mute_of_link (SsnClient.link_freePendingIndex _))
    split_ifs
    · exact mute_handleReply .res f _
    · exact mute_handleReply .rpc f _
    · exact .refl w

theorem mute_handlePublish (f : Frame) : Mute w (w.handlePublish f) := by
  unfold handlePublish
  split
  · exact mute_emit rfl
  · split
    · exact mute_emit rfl
    · exact mute_emit rfl
    · exact .refl w

theorem mute_handleMessage (f : Frame) : Mute w (w.handleMessage f) := by
  unfold handleMessage
  split
  · exact mute_emit rfl
  · exact .refl w

theorem mute_input (f : Frame) : Mute w (w.input f) := by
  have hnote : Mute w (w.emit (.input f)) := mute_emit rfl
  unfold input
  simp only
  split_ifs
  · exact hnote.trans (mute_handlePublish f)
  · exact hnote.trans (mute_handleMessage f)
  · exact hnote.trans (mute_handlePendingReply f)

theorem mute_feedInput (buf : Bytes) : Mute w (w.feedInput buf).1 := by
  have hnote : Mute w (w.emit (.received buf)) := mute_emit rfl
  have hfed : Mute w (streamFeed clientInput w.client.recv buf (w.emit (.received buf))).2.1 :=
    streamFeed_keeps (P := Mute w) (fun _ f h => h.trans (mute_input f)) _ _ _ hnote
  apply hfed.trans
  exact mute_setClient rfl

theorem mute_poll (outcome : PollOutcome) : Mute w (w.poll outcome) :=
  poll_keeps (P := Mute w) (fun h => h.trans mute_handleEvent)
    (fun h => h.trans mute_connectionLost) (fun {_ buf} _ h => h.trans (mute_feedInput buf))
    (fun h => h.trans (mute_down rfl)) outcome (.refl w)

theorem mute_pingCancel (seqno : UInt16) : Mute w (w.pingCancel seqno) := by
  unfold pingCancel
  simp only
  split_ifs
  · exact mute_of_link (SsnClient.link_freePendingIndex _)
  · exact .refl w

theorem mute_disconnect : Mute w w.disconnect := by
  unfold disconnect
  split_ifs
  · apply Mute.trans _ mute_timeoutAll
    refine ⟨rfl, fun _ => ?_⟩
    cases h : w.client.transport <;> simp [isOpen, setClient, Transport.disconnect, Transport.getFd]
  · exact .refl w

theorem mute_createHeader (msg : Message) : Mute w (w.createHeader msg) := mute_setClient rfl

theorem mute_feedConn (buf : Bytes) : Mute w (w.feedConn buf).1.1 := by
  have hinput (arg : ClientWorld κ × Nat) (f : Frame) : Mute arg.1 (connInput arg f).1 := by
    have hnote : Mute arg.1 (arg.1.emit (.connInput f)) := mute_emit rfl
    unfold connInput
    simp only
    split_ifs
    · exact hnote
    · exact hnote.trans (mute_setClient rfl)
    · exact hnote
  have hnote : Mute w (w.emit (.received buf)) := mute_emit rfl
  have hfed : Mute w
      (streamFeed clientConnInput w.client.recv buf (w.emit (.received buf), 0)).2.1.1 :=
    streamFeed_keeps (P := fun arg : ClientWorld κ × Nat => Mute w arg.1)
      (fun arg f h => h.trans (hinput arg f)) _ _ _ hnote
  apply hfed.trans
  exact mute_setClient rfl

theorem mute_pingWait [DecidableEq κ] (k : κ) (start timeoutMs waited : Nat)
    (polls : Nat → PollOutcome) : Mute w (w.pingWait k start timeoutMs waited polls) := by
  fun_induction pingWait w k start timeoutMs waited polls with
  | case1 w waited polls hrun ih => exact (mute_poll (polls 0)).trans ih
  | case2 w => exact .refl w

/-! ## Calls -/

/-- **What a call keeps.** It may change the list of handlers, make a request and send a message. A
request that is no RPC call has no callback. -/
theorem call_keeps [DecidableEq κ] {P : ClientWorld κ → Prop} {op : ClientOp κ}
    (hop : op.isCall = true) (hhandlers : ∀ hs, P (w.withHandlers hs))
    (hrequest : ∀ {v : ClientWorld κ} {ftype msgType url data callback timeoutMs},
      (∃ url data k t, op = .call url data k t) ∨
        msgType ≠ MsgType.rpcRequest ∧ callback = none → P v →
      P (v.requestWith net ftype msgType url data callback timeoutMs).1)
    (hsend : ∀ msg : Message, msg.msgType = MsgType.message → P (w.send net msg).1) (h : P w) :
    P (w.step net op) := by
  -- Handlers are changed before the request, and stay changed if it is not made.
  cases op with
  | call url data callback timeoutMs =>
    simp only [ClientWorld.step, callEx]
    split_ifs
    · exact hrequest (.inl ⟨url, data, callback, timeoutMs, rfl⟩) h
    · exact h
  | subscribe url callback timeoutMs =>
    simp only [ClientWorld.step, subscribe, requestEx]
    split_ifs
    · exact hrequest (.inr ⟨by decide, rfl⟩) (hhandlers _)
    · exact hhandlers _
    · exact h
  | unsubscribe url timeoutMs =>
    simp only [ClientWorld.step, unsubscribe, requestEx]
    split_ifs
    · exact hrequest (.inr ⟨by decide, rfl⟩) (hhandlers _)
    · exact hhandlers _
    · exact h
  | message url data =>
    simp only [ClientWorld.step, message]
    split_ifs
    · exact hsend _ rfl
    · exact h
  | _ => cases hop

/-! ## Sends -/

/-- All sends went over one wire, whose descriptor is closed if one of them failed. -/
structure Writes (w : ClientWorld κ) : Prop where
  wire : OneWire w.sends
  shut : (∃ s ∈ w.sends, s.2.ret = false) → w.isOpen = false

theorem Writes.of_mute (h : w.Writes) (hm : Mute w w') : w'.Writes := by
  refine ⟨hm.sends ▸ h.wire, fun hex => hm.shut (h.shut ?_)⟩
  rwa [hm.sends] at hex

theorem sends_send (msg : Message) :
    (w.send net msg).1.sends = w.sends ++ [(msg, ((w.createHeader msg).sendOut net msg).2)] := by
  rw [send, sendmsg]
  simp only [sends_emit]
  rfl

theorem sockFd_wire (h : w.isOpen = false) : w.wire.sockFd < 0 := by
  unfold wire
  cases ht : w.client.transport with
  | none => exact (by decide : (-1 : Int) < 0)
  | some t =>
    simp only [isOpen, ht, Option.any_some, Transport.getFd] at h
    exact Int.not_le.1 (of_decide_eq_false h)

/-- **A send keeps to the wire,** and closes its descriptor if it fails. -/
theorem Writes.send (net : Nat → Nat → SendStep) (h : w.Writes) (msg : Message) :
    (w.send net msg).1.Writes := by
  have hshut (hret : ((w.createHeader msg).sendOut net msg).2.ret = false) :
      (w.send net msg).1.isOpen = false := by
    simp only [ClientWorld.send, sendmsg, isOpen, emit, setClient, hret, Bool.false_eq_true,
      if_false]
    cases (w.createHeader msg).client.transport <;> simp [Transport.disconnect, Transport.getFd]
  have hkeep (hw : w.isOpen = false) : (w.send net msg).1.isOpen = false := by
    have hclosed : (w.createHeader msg).wire.sockFd < 0 := sockFd_wire hw
    exact hshut (sendMessage_closed hclosed).1
  refine ⟨?_, fun hex => ?_⟩
  · rw [sends_send]
    refine h.wire.append (fun hex => ?_) fun _ => ⟨_, headerReady_createHeader .., rfl⟩
    exact sockFd_wire (w := w.createHeader msg) (h.shut hex)
  · rw [sends_send] at hex
    obtain ⟨s, hs, hret⟩ := hex
    rcases List.mem_append.1 hs with hs | hs
    · exact hkeep (h.shut ⟨s, hs, hret⟩)
    · obtain rfl := List.mem_singleton.1 hs
      exact hshut hret

section Request

variable {ftype : FType} {msgType : UInt8} {url data : Option Ref} {timeoutMs : Nat}

theorem Writes.requestWith (h : w.Writes) (callback : Option κ) :
    (w.requestWith net ftype msgType url data callback timeoutMs).1.Writes := by
  cases callback with
  | none =>
    have hprep := h.of_mute (mute_of_link w.client.link_prepareSeqno)
    exact hprep.send net ⟨msgType, 0, w.client.prepareSeqno.1, url, data⟩
  | some k =>
    rw [ClientWorld.requestWith, requestPending]
    rcases ha : w.client.allocPendingIndex with _ | ⟨index, c⟩
    · exact h
    · have hreg : (w.setClient (c.register index ftype k timeoutMs)).Writes := by
        refine h.of_mute (mute_setClient ?_)
        exact congrArg Link.transport (SsnClient.link_allocPendingIndex ha)
      have hsent := hreg.send net ⟨msgType, 0, c.seqno, url, data⟩
      simp only
      split_ifs
      · exact hsent
      · exact hsent.of_mute (mute_of_link (SsnClient.link_freePendingIndex index))

theorem Writes.requestEx (h : w.Writes) (callback : Option κ) :
    (w.requestEx net msgType url data callback timeoutMs).1.Writes := by
  unfold ClientWorld.requestEx
  split_ifs
  · exact h.requestWith callback
  · exact h

end Request

theorem oneWire_info : OneWire [infoSend] := by
  refine ⟨Framing.Wire.nil.append (a := sendAttempt infoSend) ⟨fun _ => ?_, fun h => ?_⟩ ?_, ?_⟩
  · exact ⟨rfl, next_packet sendable_none⟩
  · cases h
  · simp
  · intro msg hmsg
    obtain rfl : msg = infoRequest := by simpa [sentOk, infoSend] using hmsg
    exact sendable_none

theorem Writes.of_opened (h : w.sends = [infoSend]) : w.Writes := by
  refine ⟨h ▸ oneWire_info, fun hex => ?_⟩
  simp [h, infoSend] at hex

theorem Writes.connect (h : w.Writes) (timeoutMs : Option Nat) (run : ConnectRun) :
    (w.connect timeoutMs run).1.Writes := by
  have hdown : Mute w
      (w.setClient { w.client with connected := false, transport := none }).timeoutAll :=
    (mute_down rfl).trans mute_timeoutAll
  rw [ClientWorld.connect]
  generalize (w.setClient { w.client with connected := false, transport := none }).timeoutAll = w'
    at hdown ⊢
  unfold dial
  cases run.fd with
  | none => exact h.of_mute hdown
  | some fd =>
    have hopened : ((w'.emit .opened).createHeader infoRequest).sends = [infoSend] :=
      ((mute_createHeader _).sends).trans (sends_emit _)
    have hshaken := handshake_keeps (P := fun w' : ClientWorld κ => w'.sends = [infoSend])
      (fun {_ buf} _ hw => (mute_feedConn buf).sends.trans hw) (maxRetries (timeoutMs.getD 3000))
      run.recvs hopened
    simp only
    split_ifs <;> dsimp only
    · exact .of_opened hshaken
    · exact .of_opened hshaken
    · exact .of_opened hopened

theorem Writes.setSendTimeout (h : w.Writes) (timeoutMs : Int) (outcome : Option Nat) :
    (w.setSendTimeout timeoutMs outcome).Writes := by
  have hset : (w.setClient { w.client with
      sendTimeout := if 0 < timeoutMs then timeoutMs else 100 }).Writes :=
    h.of_mute (mute_setClient rfl)
  unfold ClientWorld.setSendTimeout
  simp only
  split
  · exact .of_opened (sends_emit _)
  · exact hset

theorem Writes.ping [DecidableEq κ] (h : w.Writes) (k : κ) (timeoutMs : Nat)
    (polls : Nat → PollOutcome) : (w.ping net k timeoutMs polls).Writes := by
  have hreq : (w.requestEx net MsgType.pingEcho none none (some k) timeoutMs).1.Writes :=
    h.requestEx (some k)
  unfold ClientWorld.ping
  split
  · rename_i heq
    rwa [heq] at hreq
  · rename_i heq
    rw [heq] at hreq
    have hwaited := hreq.of_mute (mute_pingWait k w.log.length timeoutMs 0 polls)
    simp only
    split_ifs
    · exact hwaited
    · exact hwaited.of_mute (mute_pingCancel _)

/-- **A step keeps to the wire.** -/
theorem Writes.step [DecidableEq κ] (net : Nat → Nat → SendStep) (h : w.Writes)
    (op : ClientOp κ) : (w.step net op).Writes := by
  have hset {c : SsnClient κ} (hc : c.transport = w.client.transport) : (w.setClient c).Writes :=
    h.of_mute (mute_setClient hc)
  by_cases hcall : op.isCall = true
  · exact call_keeps hcall (fun _ => hset rfl) (fun _ hv => hv.requestWith _)
      (fun msg _ => h.send net msg) h
  cases op with
  | connect timeoutMs run => exact h.connect timeoutMs run
  | sendTimeout timeoutMs outcome => exact h.setSendTimeout timeoutMs outcome
  | ping k timeoutMs polls => exact h.ping k timeoutMs polls
  | disconnect => exact h.of_mute mute_disconnect
  | poll outcome => exact h.of_mute (mute_poll outcome)
  | timerSweep => exact hset rfl
  | _ => exact absurd rfl hcall

end ClientWorld

theorem writes_run [DecidableEq κ] (net : Nat → Nat → SendStep) (ops : List (ClientOp κ)) :
    (Runs.run (ClientWorld.step net) ⟨.create, []⟩ ops).Writes := by
  have hinit : (⟨.create, []⟩ : ClientWorld κ).Writes :=
    ⟨OneWire.nil, fun h => by simp [ClientWorld.sends] at h⟩
  exact Runs.run_invariant (fun w op hw _ => hw.step net op) hinit Runs.eachStep_true

end Ssn
