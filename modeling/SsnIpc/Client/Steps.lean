import SsnIpc.Client.Ops

/-!
# What a step of the client can do

Most of what a client does concerns its requests and leaves its connection alone (`Quiet`). What
remains of a step is little: it may receive bytes, take the connection down, bring up a new one,
change the list of handlers (`handlersAfter`) or send one message (`sending`).

**Theorem (`Closed.step`).** What each of these keeps, a step keeps. Every invariant of the
client's connection is proved from it.
-/

namespace Ssn

open ByteMem

variable {κ : Type*} {net : Nat → Nat → SendStep} {w w' w'' : ClientWorld κ}

/-! ## Quiet changes -/

/-- The part of a client that its requests do not use. -/
structure Link (κ : Type*) where
  connected : Bool
  transport : Option Transport
  recv : StreamCtx
  subHandlers : List (SubHandler κ)
  onsub : Option κ
  onmsg : Option κ

namespace SsnClient

variable {c : SsnClient κ}

def link (c : SsnClient κ) : Link κ :=
  ⟨c.connected, c.transport, c.recv, c.subHandlers, c.onsub, c.onmsg⟩

theorem link_freePendingIndex (index : Nat) : (c.freePendingIndex index).link = c.link := by
  unfold freePendingIndex
  split_ifs <;> rfl

theorem link_collect (c : SsnClient κ) (onlyTimeout : Bool) :
    (c.collect onlyTimeout).1.link = c.link := by
  suffices h : ∀ (is : List Nat) (acc : SsnClient κ × List (Pending κ)),
      (is.foldl (collectOne onlyTimeout) acc).1.link = acc.1.link from h _ (c, [])
  intro is acc
  induction is generalizing acc with
  | nil => rfl
  | cons i is ih =>
    rw [List.foldl_cons, ih]
    unfold collectOne
    simp only
    split_ifs
    · exact link_freePendingIndex i
    · rfl

theorem link_prepareSeqno : c.prepareSeqno.2.link = c.link := by
  unfold prepareSeqno
  split_ifs <;> rfl

theorem link_allocPendingIndex {index : Nat} {c' : SsnClient κ}
    (h : c.allocPendingIndex = some (index, c')) : c'.link = c.link := by
  obtain ⟨_, -, heq⟩ := Option.map_eq_some_iff.1 h
  obtain ⟨-, rfl⟩ := Prod.mk.inj heq
  rfl

end SsnClient

/-- An event that is not about the bytes of a connection. -/
def ClientEvent.Minor : ClientEvent κ → Prop
  | .opened => False
  | .received _ => False
  | .connInput _ => False
  | .input _ => False
  | _ => True

namespace ClientWorld

/-- Nothing happened but to requests, and callbacks were called. -/
structure Quiet (w w' : ClientWorld κ) : Prop where
  link : w'.client.link = w.client.link
  log : ∃ es, w'.log = w.log ++ es ∧ ∀ e ∈ es, e.Minor

theorem Quiet.recv (h : Quiet w w') : w'.client.recv = w.client.recv := congrArg Link.recv h.link

theorem Quiet.refl (w : ClientWorld κ) : Quiet w w := ⟨rfl, [], by simp, by simp⟩

theorem Quiet.trans (h : Quiet w w') (h' : Quiet w' w'') : Quiet w w'' := by
  obtain ⟨es, hes, hm⟩ := h.log
  obtain ⟨es', hes', hm'⟩ := h'.log
  refine ⟨h'.link.trans h.link, es ++ es', by rw [hes', hes, List.append_assoc], fun e he => ?_⟩
  exact (List.mem_append.1 he).elim (hm e) (hm' e)

theorem quiet_emit {e : ClientEvent κ} (he : e.Minor) : Quiet w (w.emit e) :=
  ⟨rfl, [e], rfl, by simpa using he⟩

theorem quiet_setClient {c : SsnClient κ} (hc : c.link = w.client.link) :
    Quiet w (w.setClient c) :=
  ⟨hc, [], by simp [setClient], by simp⟩

theorem quiet_callFailed (p : Pending κ) : Quiet w (w.callFailed p) := by
  unfold callFailed
  split
  · exact quiet_emit trivial
  · exact quiet_emit trivial
  · exact .refl w

theorem quiet_collectAndCallPending (onlyTimeout : Bool) :
    Quiet w (w.collectAndCallPending onlyTimeout) := by
  have hfold (items : List (Pending κ)) (w : ClientWorld κ) :
      Quiet w (items.foldl callFailed w) := by
    induction items generalizing w with
    | nil => exact .refl w
    | cons p items ih => exact (quiet_callFailed p).trans (ih _)
  have hlink := w.client.link_collect onlyTimeout
  rcases hcol : w.client.collect onlyTimeout with ⟨c, items⟩
  rw [hcol] at hlink
  simp only [collectAndCallPending, hcol]
  exact (quiet_setClient hlink).trans (hfold items _)

theorem quiet_timeoutAll : Quiet w w.timeoutAll := by
  rw [timeoutAll]
  exact quiet_collectAndCallPending false

theorem quiet_createHeader (msg : Message) : Quiet w (w.createHeader msg) := quiet_setClient rfl

theorem quiet_handleEvent : Quiet w w.handleEvent := by
  unfold handleEvent
  split_ifs
  · have h : Quiet w (w.setClient { w.client with evtPending := false }) := quiet_setClient rfl
    exact h.trans (quiet_collectAndCallPending true)
  · exact .refl w

theorem quiet_handlePublish (f : Frame) : Quiet w (w.handlePublish f) := by
  unfold handlePublish
  split
  · exact quiet_emit trivial
  · split
    · exact quiet_emit trivial
    · exact quiet_emit trivial
    · exact .refl w

theorem quiet_handleMessage (f : Frame) : Quiet w (w.handleMessage f) := by
  unfold handleMessage
  split
  · exact quiet_emit trivial
  · exact .refl w

theorem quiet_handleReply (ftype : FType) (f : Frame) (p : Pending κ) :
    Quiet w (w.handleReply ftype f p) := by
  unfold handleReply
  split
  · split_ifs
    · exact quiet_emit trivial
    · exact .refl w
  · exact .refl w

theorem quiet_handlePendingReply (f : Frame) : Quiet w (w.handlePendingReply f) := by
  unfold handlePendingReply
  split
  · exact .refl w
  · refine Quiet.trans ?_ (quiet_setClient (SsnClient.link_freePendingIndex _))
    split_ifs
    · exact quiet_handleReply .res f _
    · exact quiet_handleReply .rpc f _
    · exact .refl w

theorem quiet_input (f : Frame) : Quiet (w.emit (.input f)) (w.input f) := by
  unfold input
  simp only
  split_ifs
  · exact quiet_handlePublish f
  · exact quiet_handleMessage f
  · exact quiet_handlePendingReply f

theorem quiet_connInput (packetCnt : Nat) (f : Frame) :
    Quiet (w.emit (.connInput f)) (connInput (w, packetCnt) f).1 := by
  unfold connInput
  simp only
  split_ifs
  · exact .refl _
  · exact quiet_setClient rfl
  · exact .refl _

theorem quiet_pingCancel (seqno : UInt16) : Quiet w (w.pingCancel seqno) := by
  unfold pingCancel
  simp only
  split_ifs
  · exact quiet_setClient (SsnClient.link_freePendingIndex _)
  · exact .refl w

/-! ## What a step sends, opens and handles -/

def withHandlers (w : ClientWorld κ) (hs : List (SubHandler κ)) : ClientWorld κ :=
  w.setClient { w.client with subHandlers := hs }

def handlersAfter (w : ClientWorld κ) : ClientOp κ → List (SubHandler κ)
  | .subscribe url callback _ =>
    if urlOk url ∧ w.client.connected then ⟨url, callback⟩ :: w.client.subHandlers
    else w.client.subHandlers
  | .unsubscribe url _ =>
    if w.client.connected ∧ urlOk url then w.client.subHandlers.eraseP fun h => h.url = url
    else w.client.subHandlers
  | _ => w.client.subHandlers

/-- The message of a request and the state in which it is sent, if it gets that far. -/
def requestSending (w : ClientWorld κ) (ftype : FType) (msgType : UInt8) (url data : Option Ref)
    (callback : Option κ) (timeoutMs : Nat) : Option (ClientWorld κ × Message) :=
  match callback with
  | some k =>
    match w.client.allocPendingIndex with
    | none => none
    | some (index, c) =>
      some (w.setClient (c.register index ftype k timeoutMs), ⟨msgType, 0, c.seqno, url, data⟩)
  | none =>
    some (w.setClient w.client.prepareSeqno.2, ⟨msgType, 0, w.client.prepareSeqno.1, url, data⟩)

/-- The message of a step and the state in which it is sent. -/
def sending (w : ClientWorld κ) : ClientOp κ → Option (ClientWorld κ × Message)
  | .call url data callback timeoutMs =>
    if w.client.connected ∧ urlOk url then
      w.requestSending .rpc MsgType.rpcRequest (some (Ref.ofBytes url)) data callback timeoutMs
    else none
  | .subscribe url callback timeoutMs =>
    if urlOk url ∧ w.client.connected then
      (w.withHandlers (⟨url, callback⟩ :: w.client.subHandlers)).requestSending .res
        MsgType.subscribe (some (Ref.ofBytes url)) none none timeoutMs
    else none
  | .unsubscribe url timeoutMs =>
    if w.client.connected ∧ urlOk url then
      (w.withHandlers (w.client.subHandlers.eraseP fun h => h.url = url)).requestSending .res
        MsgType.unsubscribe (some (Ref.ofBytes url)) none none timeoutMs
    else none
  | .message url data =>
    if w.client.connected ∧ urlOk url ∧ data.isSome then
      some (w, ⟨MsgType.message, 0, 0, some (Ref.ofBytes url), data⟩)
    else none
  | .ping k timeoutMs _ =>
    if w.client.connected then
      w.requestSending .res MsgType.pingEcho none none (some k) timeoutMs
    else none
  | _ => none

/-- The step makes a connection to the server. -/
def Opens (w : ClientWorld κ) : ClientOp κ → Prop
  | .connect _ run => run.fd.isSome = true
  | .sendTimeout _ outcome =>
    w.client.connected = true ∧ w.client.transport.isSome = true ∧ outcome.isSome = true
  | _ => False

section Request

variable {ftype : FType} {msgType : UInt8} {url data : Option Ref} {callback : Option κ}
  {timeoutMs : Nat} {p : ClientWorld κ × Message}

theorem exists_slot_of_requestSending {k : κ}
    (h : w.requestSending ftype msgType url data (some k) timeoutMs = some p) :
    ∃ index c, w.client.allocPendingIndex = some (index, c) ∧
      p = (w.setClient (c.register index ftype k timeoutMs),
        ⟨msgType, 0, c.seqno, url, data⟩) := by
  rw [requestSending] at h
  rcases ha : w.client.allocPendingIndex with _ | ⟨index, c⟩
  · simp [ha] at h
  · simp only [ha, Option.some.injEq] at h
    exact ⟨index, c, rfl, h.symm⟩

theorem quiet_requestSending
    (h : w.requestSending ftype msgType url data callback timeoutMs = some p) : Quiet w p.1 := by
  cases callback with
  | none =>
    obtain rfl := Option.some.inj h
    exact quiet_setClient SsnClient.link_prepareSeqno
  | some k =>
    obtain ⟨index, c, ha, rfl⟩ := exists_slot_of_requestSending h
    have hlink : c.link = w.client.link := SsnClient.link_allocPendingIndex ha
    exact quiet_setClient hlink

theorem requestWith_none
    (h : w.requestSending ftype msgType url data callback timeoutMs = none) :
    w.requestWith net ftype msgType url data callback timeoutMs = (w, none) := by
  cases callback with
  | none => cases h
  | some k =>
    rw [requestSending] at h
    rcases ha : w.client.allocPendingIndex with _ | ⟨index, c⟩
    · rw [requestWith, requestPending, ha]
    · simp [ha] at h

theorem requestWith_some (net : Nat → Nat → SendStep)
    (h : w.requestSending ftype msgType url data callback timeoutMs = some p) :
    ∃ w', Quiet (p.1.send net p.2).1 w' ∧
      w.requestWith net ftype msgType url data callback timeoutMs =
        (w', if (p.1.send net p.2).2 then some p.2.seqno else none) := by
  cases callback with
  | none =>
    obtain rfl := Option.some.inj h
    exact ⟨_, .refl _, rfl⟩
  | some k =>
    obtain ⟨index, c, ha, rfl⟩ := exists_slot_of_requestSending h
    rw [requestWith, requestPending]
    simp only [ha]
    split_ifs
    · exact ⟨_, .refl _, rfl⟩
    · exact ⟨_, quiet_setClient (SsnClient.link_freePendingIndex index), rfl⟩

end Request

/-! ## The rule -/

/-- A property of clients that survives what happens to a connection other than sends and new
connections. -/
structure Closed (Inv : ClientWorld κ → Prop) : Prop where
  quiet : ∀ {w w'}, Quiet w w' → Inv w → Inv w'
  input : ∀ {w buf}, buf ≠ [] ∧ buf.length ≤ maxPacketSize → Inv w → Inv (w.feedInput buf).1
  conn : ∀ {w buf}, buf ≠ [] ∧ buf.length ≤ maxPacketSize → Inv w → Inv (w.feedConn buf).1.1
  down : ∀ {w} t, Inv w → Inv (w.setClient { w.client with connected := false, transport := t })
  up : ∀ {w t}, 0 ≤ t.getFd → Inv w →
    Inv (w.setClient { w.client with transport := some t, connected := true })

/-- For a property that depends neither on the log nor on the receive context, bytes received are
no matter. -/
theorem Closed.of_link {Inv : ClientWorld κ → Prop}
    (hlink : ∀ {w w'}, w'.client.link = w.client.link → Inv w → Inv w')
    (hrecv : ∀ {w} recv, Inv w → Inv (w.setClient { w.client with recv }))
    (hdown : ∀ {w} t, Inv w →
      Inv (w.setClient { w.client with connected := false, transport := t }))
    (hup : ∀ {w t}, 0 ≤ t.getFd → Inv w →
      Inv (w.setClient { w.client with transport := some t, connected := true })) :
    Closed Inv where
  quiet hq := hlink hq.link
  input _ h := hrecv _ (streamFeed_keeps (P := Inv) (fun _ f => hlink (quiet_input f).link) _ _ _
    (hlink (by rfl) h))
  conn _ h := hrecv _ (streamFeed_keeps (P := fun arg : ClientWorld κ × Nat => Inv arg.1)
    (fun arg f => hlink (quiet_connInput arg.2 f).link) _ _ _ (hlink (by rfl) h))
  down := hdown
  up := hup

theorem chunk_take {buf : Bytes} (hbuf : buf ≠ []) :
    buf.take maxPacketSize ≠ [] ∧ (buf.take maxPacketSize).length ≤ maxPacketSize := by
  refine ⟨fun h => ?_, ?_⟩
  · rcases List.take_eq_nil_iff.1 h with h | h
    · exact absurd h (by decide)
    · exact hbuf h
  · rw [List.length_take]
    exact Nat.min_le_left ..

/-- What the timer's event, the loss of the connection and a chunk received keep, a poll keeps. -/
theorem poll_keeps {P : ClientWorld κ → Prop} (hevent : ∀ {w}, P w → P w.handleEvent)
    (hlost : ∀ {w}, P w → P w.connectionLost)
    (hfeed : ∀ {w buf}, buf ≠ [] ∧ buf.length ≤ maxPacketSize → P w → P (w.feedInput buf).1)
    (hdown : ∀ {w}, P w →
      P (w.setClient { w.client with connected := false, transport := none }))
    (outcome : PollOutcome) (h : P w) : P (w.poll outcome) := by
  cases outcome with
  | idle => exact h
  | ready sock =>
    have hdone : P (w.processEvents sock).1 := by
      unfold processEvents
      split_ifs with hc ho
      · rcases sock with _ | buf | _ | _ | _ <;> dsimp only
        · exact hevent h
        · by_cases hbuf : buf = []
          · simp only [if_pos hbuf]
            exact hlost h
          · have hfed := hfeed (chunk_take hbuf) h
            simp only [if_neg hbuf]
            split_ifs <;> dsimp only
            · exact hevent hfed
            · exact hlost hfed
        · exact hlost h
        · exact hevent h
        · exact hlost h
      · exact hevent h
      · exact hevent h
    rw [poll]
    simp only
    split_ifs
    · exact hdone
    · exact hdown hdone

/-- What a chunk received in a handshake keeps, the handshake keeps. -/
theorem handshake_keeps {P : ClientWorld κ → Prop}
    (hconn : ∀ {w buf}, buf ≠ [] ∧ buf.length ≤ maxPacketSize → P w → P (w.feedConn buf).1.1)
    (retries : Nat) (recvs : List HandshakeRecv) (h : P w) :
    P (w.handshake retries recvs).1 := by
  induction retries generalizing w recvs with
  | zero => exact h
  | succ retries ih =>
    cases recvs with
    | nil => exact h
    | cons r recvs =>
      rw [handshake]
      cases r.result with
      | data buf =>
        by_cases hbuf : buf = []
        · simpa only [if_pos hbuf] using h
        · have hfed := hconn (chunk_take hbuf) h
          simp only [if_neg hbuf]
          generalize w.feedConn (buf.take maxPacketSize) = fed at hfed ⊢
          rcases fed with ⟨⟨w', packetCnt⟩, _ | _⟩ <;> dsimp only at hfed ⊢ <;> split_ifs
          · exact ih recvs hfed
          · exact hfed
          · exact hfed
          · exact ih recvs hfed
      | eof => exact h
      | again => exact ih recvs h
      | error => exact h

/-- A property of clients that survives requests, bytes received and the loss of the connection. -/
structure Kept (Inv : ClientWorld κ → Prop) : Prop where
  quiet : ∀ {w w'}, Quiet w w' → Inv w → Inv w'
  input : ∀ {w buf}, buf ≠ [] ∧ buf.length ≤ maxPacketSize → Inv w → Inv (w.feedInput buf).1
  down : ∀ {w} t, Inv w → Inv (w.setClient { w.client with connected := false, transport := t })

namespace Kept

variable {Inv : ClientWorld κ → Prop} (hI : Kept Inv)
include hI

theorem connectionLost (h : Inv w) : Inv w.connectionLost := by
  rw [ClientWorld.connectionLost]
  exact hI.quiet quiet_timeoutAll (hI.down w.client.transport h)

theorem poll (outcome : PollOutcome) (h : Inv w) : Inv (w.poll outcome) :=
  poll_keeps (fun h => hI.quiet quiet_handleEvent h) (fun h => hI.connectionLost h)
    (fun hbuf h => hI.input hbuf h) (fun h => hI.down none h) outcome h

theorem requestWith {ftype : FType} {msgType : UInt8} {url data : Option Ref} {callback : Option κ}
    {timeoutMs : Nat}
    (hsend : ∀ p ∈ w.requestSending ftype msgType url data callback timeoutMs, Inv p.1 →
      Inv (p.1.send net p.2).1) (h : Inv w) :
    Inv (w.requestWith net ftype msgType url data callback timeoutMs).1 := by
  rcases hs : w.requestSending ftype msgType url data callback timeoutMs with _ | p
  · rw [requestWith_none hs]
    exact h
  · obtain ⟨w', hq, heq⟩ := requestWith_some net hs
    rw [heq]
    exact hI.quiet hq (hsend p hs (hI.quiet (quiet_requestSending hs) h))

theorem pingWait [DecidableEq κ] (k : κ) (start timeoutMs waited : Nat)
    (polls : Nat → PollOutcome) (h : Inv w) :
    Inv (w.pingWait k start timeoutMs waited polls) := by
  fun_induction ClientWorld.pingWait w k start timeoutMs waited polls with
  | case1 w waited polls hrun ih => exact ih (hI.poll (polls 0) h)
  | case2 => exact h

/-- A step that makes no connection, given that the property survives the message it sends and the
change of handlers. -/
theorem step [DecidableEq κ] (op : ClientOp κ)
    (hsend : ∀ p ∈ w.sending op, Inv p.1 → Inv (p.1.send net p.2).1) (hopen : ¬ w.Opens op)
    (hhandlers : Inv (w.withHandlers (w.handlersAfter op))) (h : Inv w) :
    Inv (w.step net op) := by
  cases op with
  | connect timeoutMs run =>
    cases hfd : run.fd with
    | none =>
      simp only [ClientWorld.step, ClientWorld.connect, ClientWorld.dial, hfd]
      exact hI.quiet quiet_timeoutAll (hI.down none h)
    | some fd => exact absurd (by rw [Opens, hfd]; rfl) hopen
  | disconnect =>
    simp only [ClientWorld.step, disconnect]
    split_ifs
    · exact hI.quiet quiet_timeoutAll (hI.down _ h)
    · exact h
  | call url data callback timeoutMs =>
    simp only [ClientWorld.step, callEx, sending] at hsend ⊢
    split_ifs with hc
    · exact hI.requestWith (by simpa only [if_pos hc] using hsend) h
    · exact h
  | subscribe url callback timeoutMs =>
    simp only [ClientWorld.step, subscribe, sending, handlersAfter] at hsend hhandlers ⊢
    split_ifs with hc
    · rw [if_pos hc] at hsend hhandlers
      rw [requestEx, if_pos (by exact hc.2)]
      exact hI.requestWith hsend hhandlers
    · exact h
  | unsubscribe url timeoutMs =>
    simp only [ClientWorld.step, unsubscribe, sending, handlersAfter] at hsend hhandlers ⊢
    split_ifs with hc
    · rw [if_pos hc] at hsend hhandlers
      rw [requestEx, if_pos (by exact hc.1)]
      exact hI.requestWith hsend hhandlers
    · exact h
  | message url data =>
    simp only [ClientWorld.step, message, sending] at hsend ⊢
    split_ifs with hc
    · rw [if_pos hc] at hsend
      exact hsend _ rfl h
    · exact h
  | ping k timeoutMs polls =>
    -- The request, the polls that wait for the reply, and the cancellation if there is none.
    have hreq : Inv (w.requestEx net MsgType.pingEcho none none (some k) timeoutMs).1 := by
      simp only [sending] at hsend
      rw [requestEx]
      split_ifs with hc
      · exact hI.requestWith (by simpa only [if_pos hc] using hsend) h
      · exact h
    simp only [ClientWorld.step, ping]
    split
    · rename_i heq
      rwa [heq] at hreq
    · rename_i heq
      rw [heq] at hreq
      split_ifs
      · exact hI.pingWait _ _ _ _ _ hreq
      · exact hI.quiet (quiet_pingCancel _) (hI.pingWait _ _ _ _ _ hreq)
  | sendTimeout timeoutMs outcome =>
    have hq : Quiet w (w.setClient { w.client with
        sendTimeout := if 0 < timeoutMs then timeoutMs else 100 }) := quiet_setClient rfl
    have hset := hI.quiet hq h
    simp only [ClientWorld.step]
    rcases hc : w.client.connected with _ | _
    · simpa only [setSendTimeout, setClient, hc] using hset
    · rcases ht : w.client.transport with _ | t
      · simpa only [setSendTimeout, setClient, hc, ht] using hset
      · rcases outcome with _ | fd
        · simpa only [setSendTimeout, setClient, hc, ht] using hset
        · exact absurd ⟨hc, by rw [ht]; rfl, rfl⟩ hopen
  | poll outcome => exact hI.poll outcome h
  | timerSweep => exact hI.quiet (quiet_setClient rfl) h

end Kept

namespace Closed

variable {Inv : ClientWorld κ → Prop} (hI : Closed Inv)
include hI

theorem kept : Kept Inv := ⟨hI.quiet, hI.input, hI.down⟩

theorem handshake (retries : Nat) (recvs : List HandshakeRecv) (h : Inv w) :
    Inv (w.handshake retries recvs).1 :=
  handshake_keeps hI.conn retries recvs h

theorem connect (timeoutMs : Option Nat) (run : ConnectRun)
    (hopen : run.fd.isSome = true → ∀ w', w'.client.recv = w.client.recv → Inv w' →
      Inv (w'.emit .opened)) (h : Inv w) : Inv (w.connect timeoutMs run).1 := by
  have hall := quiet_timeoutAll
    (w := w.setClient { w.client with connected := false, transport := none })
  have hdown := hI.quiet hall (hI.down none h)
  cases hfd : run.fd with
  | none => simpa only [ClientWorld.connect, ClientWorld.dial, hfd] using hdown
  | some fd =>
    have hopened := hopen (by rw [hfd]; rfl) _ hall.recv hdown
    have hready := hI.quiet (quiet_createHeader ⟨MsgType.serviceInfo, 0, 0, none, none⟩) hopened
    have hshaken := hI.handshake (maxRetries (timeoutMs.getD 3000)) run.recvs hready
    simp only [ClientWorld.connect, ClientWorld.dial, hfd]
    split_ifs <;> dsimp only
    · exact hI.up (Int.natCast_nonneg fd) hshaken
    · exact hshaken
    · exact hready

/-- **What a step keeps.** A property that survives what happens to a connection survives a step,
if it survives the message the step sends, the connection it makes and the change of handlers. -/
theorem step [DecidableEq κ] (op : ClientOp κ)
    (hsend : ∀ p ∈ w.sending op, Inv p.1 → Inv (p.1.send net p.2).1)
    (hopen : w.Opens op → ∀ w', w'.client.recv = w.client.recv → Inv w' → Inv (w'.emit .opened))
    (hhandlers : Inv (w.withHandlers (w.handlersAfter op))) (h : Inv w) :
    Inv (w.step net op) := by
  by_cases ho : w.Opens op
  · cases op with
    | connect timeoutMs run => exact hI.connect timeoutMs run hopen h
    | sendTimeout timeoutMs outcome =>
      obtain ⟨hc, ht, hfd⟩ := ho
      obtain ⟨t, ht⟩ := Option.isSome_iff_exists.1 ht
      obtain ⟨fd, rfl⟩ := Option.isSome_iff_exists.1 hfd
      have hq : Quiet w (w.setClient { w.client with
          sendTimeout := if 0 < timeoutMs then timeoutMs else 100 }) := quiet_setClient rfl
      have hup := hI.up (t := ⟨fd, if 0 < timeoutMs then timeoutMs else 100⟩)
        (Int.natCast_nonneg fd) (hI.quiet hq h)
      have hopened := hopen ⟨hc, by rw [ht]; rfl, rfl⟩ _ (by rfl) hup
      simpa only [ClientWorld.step, setSendTimeout, setClient, hc, ht] using hopened
    | _ => exact ho.elim
  · exact hI.kept.step op hsend ho hhandlers h

end Closed

end ClientWorld

end Ssn
