import SsnIpc.Client.Connections
import SsnIpc.Client.Publish

/-!
# Subscriptions that fail

`ssn_client_subscribe` puts the handler into the list first and then sends the request. Between the
two it does not hold the lock, so a poll in another thread may find the connection lost.

**Theorem (`unchanged_iff_sent`).** A subscription that fails leaves the handlers as they were
exactly when, once the handler is in the list, its request goes out.

So only the failures before that (a wrong url, no connection, no memory) leave nothing behind. After
any other the handler stays, and the publications of the next connection reach it
(`failedSubscribe_heard`).
-/

namespace Ssn

open ByteMem

variable {κ : Type*} (net : Nat → Nat → SendStep) {w : ClientWorld κ}

namespace ClientWorld

/-- `ssn_client_subscribe` with what can happen around it: whether there is memory for the handler,
and the polls that another thread makes between the two sections under the lock. -/
def subscribeAmid (w : ClientWorld κ) (url : Bytes) (callback : Option κ) (timeoutMs : Nat)
    (mem : Bool) (polls : List PollOutcome) : ClientWorld κ × Option UInt16 :=
  if urlOk url ∧ w.client.connected then
    if mem then
      (polls.foldl poll (w.withHandlers (⟨url, callback⟩ :: w.client.subHandlers))).requestEx net
        MsgType.subscribe (some (Ref.ofBytes url)) none none timeoutMs
    else (w, none)
  else (w, none)

/-- Alone and with memory this is `subscribe`. -/
theorem subscribeAmid_alone (url : Bytes) (callback : Option κ) (timeoutMs : Nat) :
    w.subscribeAmid net url callback timeoutMs true [] = w.subscribe net url callback timeoutMs :=
  rfl

/-- The request to subscribe goes out: the client is connected, its descriptor open, the url can be
sent, and the socket takes the packet within the waiting budget. -/
structure SubscribeSent (w : ClientWorld κ) (url : Bytes) : Prop where
  connected : w.client.connected = true
  isOpen : ¬ w.wire.sockFd < 0
  sendable : Sendable (some (Ref.ofBytes url)) none
  delivers : Delivers (headerSize + url.length) w.wire.budget (net w.log.length)

/-! ## Handlers -/

/-- Nothing but the calls to subscribe and unsubscribe changes the handlers. -/
theorem closed_handlers (hs : List (SubHandler κ)) :
    Closed fun w : ClientWorld κ => w.client.subHandlers = hs :=
  .of_link (fun hl h => (congrArg Link.subHandlers hl).trans h) (fun _ h => h) (fun _ h => h)
    (fun _ h => h)

theorem subHandlers_polls (polls : List PollOutcome) (w : ClientWorld κ) :
    (polls.foldl poll w).client.subHandlers = w.client.subHandlers := by
  induction polls generalizing w with
  | nil => rfl
  | cons outcome polls ih =>
    rw [List.foldl_cons, ih]
    exact (closed_handlers _).kept.poll outcome rfl

theorem subHandlers_requestEx (msgType : UInt8) (url data : Option Ref) (callback : Option κ)
    (timeoutMs : Nat) :
    (w.requestEx net msgType url data callback timeoutMs).1.client.subHandlers =
      w.client.subHandlers := by
  unfold requestEx
  split_ifs
  · exact (closed_handlers _).kept.requestWith (fun _ _ hp => hp) rfl
  · rfl

theorem requestEx_isSome_iff (url : Bytes) (timeoutMs : Nat) :
    (w.requestEx net MsgType.subscribe (some (Ref.ofBytes url)) none none timeoutMs).2.isSome =
      true ↔ w.SubscribeSent net url := by
  by_cases hc : w.client.connected = true
  · rw [requestEx, if_pos hc, requestWith, requestPlain]
    -- the transport and the log are those of `w`, since a sequence number touches neither
    have hlink : w.client.prepareSeqno.2.link = w.client.link := SsnClient.link_prepareSeqno
    have htransport : w.client.prepareSeqno.2.transport = w.client.transport :=
      congrArg Link.transport hlink
    have hwire : (w.setClient w.client.prepareSeqno.2).wire = w.wire := by
      simp only [wire, setClient, htransport]
    have hret := sendMessage_ret_iff w.wire (net w.log.length) (headerReady_createHeader
      w.client.prepareSeqno.2.sendbuf MsgType.subscribe 0 w.client.prepareSeqno.1
      (some (Ref.ofBytes url)) none)
    have hsend : ((w.setClient w.client.prepareSeqno.2).send net
        ⟨MsgType.subscribe, 0, w.client.prepareSeqno.1, some (Ref.ofBytes url), none⟩).2 =
        (sendMessage w.wire (Ssn.createHeader w.client.prepareSeqno.2.sendbuf MsgType.subscribe 0
          w.client.prepareSeqno.1) (some (Ref.ofBytes url)) none (net w.log.length)).2.ret := by
      rw [← hwire]
      rfl
    simp only [hsend]
    rw [apply_ite Option.isSome]
    simp only [Option.isSome_some, Option.isSome_none, Bool.if_false_right, Bool.and_true,
      Bool.decide_eq_true]
    rw [hret]
    constructor
    · rintro ⟨hopen, hs, hd⟩
      exact ⟨hc, hopen, hs, hd⟩
    · intro h
      exact ⟨h.isOpen, h.sendable, h.delivers⟩
  · rw [requestEx, if_neg hc]
    exact iff_of_false Bool.false_ne_true fun h => hc h.connected

end ClientWorld

/-! ## What a failure leaves -/

/-- **Failed subscriptions:** a subscription that fails leaves the handlers as they were exactly
when its request, once the handler is in the list, goes out. -/
theorem unchanged_iff_sent (url : Bytes) (callback : Option κ) (timeoutMs : Nat) (mem : Bool)
    (polls : List PollOutcome) :
    ((w.subscribeAmid net url callback timeoutMs mem polls).2.isSome = false →
        (w.subscribeAmid net url callback timeoutMs mem polls).1.client.subHandlers =
          w.client.subHandlers) ↔
      (urlOk url = true → w.client.connected = true → mem = true →
        (polls.foldl ClientWorld.poll
          (w.withHandlers (⟨url, callback⟩ :: w.client.subHandlers))).SubscribeSent net url) := by
  unfold ClientWorld.subscribeAmid
  by_cases hready : urlOk url = true ∧ w.client.connected = true
  · cases mem with
    | false => simp
    | true =>
      rw [if_pos hready, if_pos rfl, ClientWorld.subHandlers_requestEx,
        ClientWorld.subHandlers_polls, ← ClientWorld.requestEx_isSome_iff net url timeoutMs]
      -- the handler that was put in front makes the list longer
      have hne : (⟨url, callback⟩ :: w.client.subHandlers) ≠ w.client.subHandlers :=
        List.cons_ne_self _ _
      constructor
      · intro h _ _ _
        by_contra hfail
        exact hne (h (Bool.eq_false_iff.2 hfail))
      · intro h hfail
        exact absurd (h hready.1 hready.2 rfl) (Bool.eq_false_iff.1 hfail)
  · rw [if_neg hready]
    exact iff_of_true (fun _ => rfl) fun hurl hc => absurd ⟨hurl, hc⟩ hready

/-- A subscription to `/a`, on a socket that fails. -/
def failedSubscribe : ClientWorld Nat × Option UInt16 :=
  connectedWorld.subscribeAmid (fun _ _ => .failed) [slash, 0x61] (some 7) 0 true []

def connectedAgain : ClientWorld Nat :=
  Runs.run (ClientWorld.step fun _ _ => .failed) failedSubscribe.1 [answered]

/-- The subscription fails and leaves its handler, and a publication of `/a` over the next
connection reaches its callback. -/
theorem failedSubscribe_heard :
    failedSubscribe.2 = none ∧ connectedWorld.client.subHandlers.map SubHandler.url = [] ∧
      failedSubscribe.1.client.subHandlers.map SubHandler.url = [[slash, 0x61]] ∧
      connectedAgain.client.connected = true ∧
      (connectedAgain.input publishA).log =
        connectedAgain.log ++ [.input publishA, .published 7 publishA] := by
  have hfacts : failedSubscribe.2 = none ∧
      connectedWorld.client.subHandlers.map SubHandler.url = [] ∧
      failedSubscribe.1.client.subHandlers.map SubHandler.url = [[slash, 0x61]] ∧
      connectedAgain.client.connected = true ∧
      connectedAgain.callbackOf publishA.url = some 7 := by
    decide +kernel
  obtain ⟨hfail, hbefore, hafter, hconn, hcallback⟩ := hfacts
  exact ⟨hfail, hbefore, hafter, hconn, ClientWorld.log_input_heard (by decide +kernel) hcallback⟩

end Ssn
