import SsnIpc.Frame.RoundTrip
import SsnIpc.Server.Subscriptions
import SsnIpc.System.Unsendable

/-!
# Subscriptions on both sides

The client keeps a list of handlers, with one entry for each call of `ssn_client_subscribe`, and
`ssn_client_unsubscribe` takes one entry out. The server keeps a set. The two are compared on one
connection, where every request that is sent arrives before the next call.

**Theorem (`agree_iff_single`).** The urls with a handler are the urls in the server's list, after
every call, exactly when no url is unsubscribed while it has more than one handler.
-/

namespace Ssn

open ByteMem

variable {κ β : Type*} {cnet snet : Nat → Nat → SendStep} {id : UInt32}

/-! ## Calls and their requests -/

inductive SubCall (κ : Type*)
  | subscribe (url : Bytes) (callback : Option κ) (timeoutMs : Nat)
  | unsubscribe (url : Bytes) (timeoutMs : Nat)

namespace SubCall

def url : SubCall κ → Bytes
  | .subscribe url _ _ | .unsubscribe url _ => url

def msgType : SubCall κ → UInt8
  | .subscribe _ _ _ => MsgType.subscribe
  | .unsubscribe _ _ => MsgType.unsubscribe

/-- What the call does to the urls of the client's handlers. -/
def handle (urls : List Bytes) : SubCall κ → List Bytes
  | .subscribe url _ _ => url :: urls
  | .unsubscribe url _ => urls.erase url

/-- What the request does to the server's list. -/
def record (urls : List Bytes) : SubCall κ → List Bytes
  | .subscribe url _ _ => urls.insert url
  | .unsubscribe url _ => urls.erase url

end SubCall

def ClientWorld.lastSent (w : ClientWorld κ) : Bytes :=
  match w.log.getLast? with
  | some (.sent _ out) => out.accepted
  | _ => []

namespace Ends

/-- A call, with what it returns: the sequence number of the request if it was sent. -/
def subCall (cnet : Nat → Nat → SendStep) (e : Ends κ β) : SubCall κ → Ends κ β × Option UInt16
  | .subscribe url callback timeoutMs =>
    let (client, seqno) := e.client.subscribe cnet url callback timeoutMs
    ({ e with client }, seqno)
  | .unsubscribe url timeoutMs =>
    let (client, seqno) := e.client.unsubscribe cnet url timeoutMs
    ({ e with client }, seqno)

/-- The server, which knows the client by `id`, processes the message that was sent last. -/
def deliver (snet : Nat → Nat → SendStep) (id : UInt32) (e : Ends κ β) : Ends κ β :=
  match packetInput e.client.lastSent with
  | some f => { e with server := e.server.input snet id f }
  | none => e

/-- A call, after which its request is delivered. -/
def subStep (cnet snet : Nat → Nat → SendStep) (id : UInt32) (e : Ends κ β) (c : SubCall κ) :
    Ends κ β :=
  let (e, seqno) := e.subCall cnet c
  if seqno.isSome then e.deliver snet id else e

def Returns (cnet : Nat → Nat → SendStep) (e : Ends κ β) (c : SubCall κ) : Prop :=
  (e.subCall cnet c).2.isSome = true

def handled (e : Ends κ β) : List Bytes := e.client.client.subHandlers.map SubHandler.url

/-- The urls in the server's list for the client. -/
def subscribed (e : Ends κ β) (id : UInt32) : List Bytes :=
  (e.server.view Client.subscribed id).getD []

/-- The urls with a handler are those in the server's list. -/
def Agree (id : UInt32) (e : Ends κ β) : Prop := ∀ u, u ∈ e.handled ↔ u ∈ e.subscribed id

/-- A url that is unsubscribed does not have several handlers. -/
def Single (e : Ends κ β) : SubCall κ → Prop
  | .subscribe _ _ _ => True
  | .unsubscribe url _ => e.handled.count url ≤ 1

end Ends

/-! ## The request of a call -/

namespace ClientWorld

variable {w : ClientWorld κ} {net : Nat → Nat → SendStep}

theorem send_true {msg : Message} (h : (w.send net msg).2 = true) :
    Sendable msg.url msg.data ∧ (w.send net msg).1.lastSent = msg.packet := by
  obtain ⟨hs, hacc⟩ := sendMessage_true (headerReady_createHeader ..) h
  refine ⟨hs, ?_⟩
  have hlog : (w.send net msg).1.log =
      w.log ++ [.sent msg ((w.createHeader msg).sendOut net msg).2] := rfl
  rw [lastSent, hlog, List.getLast?_concat]
  exact hacc

theorem requestEx_true {msgType : UInt8} {url data : Option Ref} {timeoutMs : Nat}
    (h : (w.requestEx net msgType url data none timeoutMs).2.isSome = true) :
    Sendable url data ∧
      (∃ seqno, (w.requestEx net msgType url data none timeoutMs).1.lastSent =
        packet msgType 0 seqno url data) ∧
      (w.requestEx net msgType url data none timeoutMs).1.client.subHandlers =
        w.client.subHandlers := by
  by_cases hc : w.client.connected = true
  · rw [requestEx, if_pos hc, requestWith, requestPlain] at h ⊢
    simp only at h ⊢
    by_cases hok : ((w.setClient w.client.prepareSeqno.2).send net
        ⟨msgType, 0, w.client.prepareSeqno.1, url, data⟩).2 = true
    · obtain ⟨hs, hlast⟩ := send_true hok
      have hlink := SsnClient.link_prepareSeqno (c := w.client)
      exact ⟨hs, ⟨_, hlast⟩, congrArg Link.subHandlers hlink⟩
    · rw [if_neg hok] at h
      cases h
  · rw [requestEx, if_neg hc] at h
    cases h

end ClientWorld

/-- To remove the newest handler of a url is to remove the url. -/
theorem map_url_eraseP (url : Bytes) (hs : List (SubHandler κ)) :
    (hs.eraseP fun h => h.url = url).map SubHandler.url = (hs.map SubHandler.url).erase url := by
  induction hs with
  | nil => rfl
  | cons h hs ih =>
    by_cases he : h.url = url
    · simp [he]
    · simp [he, ih]

/-- A request that arrives does to the server's list what its type says. -/
theorem World.subscribed_input (w : World β) {f : Frame} {subs : List Bytes → List Bytes}
    (hf : ∀ c : World.Core, (c.after f).subscribed = subs c.subscribed) :
    (w.input snet id f).view Client.subscribed id =
      (w.view Client.subscribed id).map subs := by
  rw [World.view_subscribed, World.core_input, Function.update_self, World.view_subscribed,
    Option.map_map, Option.map_map]
  congr 1
  funext c
  exact hf c

namespace Ends

variable {e : Ends κ β}

theorem deliver_request (snet : Nat → Nat → SendStep) (id : UInt32) {msgType : UInt8}
    {seqno : UInt16} {url : Bytes}
    (hs : Sendable (some (Ref.ofBytes url)) none)
    (hsent : e.client.lastSent = packet msgType 0 seqno (some (Ref.ofBytes url)) none) :
    ∃ f, getMsgType f = msgType ∧ f.url = url ∧
      e.deliver snet id = { e with server := e.server.input snet id f } := by
  let f : Frame := ⟨packet msgType 0 seqno (some (Ref.ofBytes url)) none, validate_packet hs⟩
  obtain ⟨htype, -, -, hurl, -⟩ := fields_of_packet hs (f := f) rfl
  refine ⟨f, htype, hurl, ?_⟩
  have hin : packetInput e.client.lastSent = some f := by rw [hsent]; exact packetInput_bytes f
  rw [deliver, hin]

theorem subCall_sent {c : SubCall κ} (h : e.Returns cnet c) :
    urlOk c.url = true ∧ Sendable (some (Ref.ofBytes c.url)) none ∧
      (∃ seqno, (e.subCall cnet c).1.client.lastSent =
        packet c.msgType 0 seqno (some (Ref.ofBytes c.url)) none) ∧
      (e.subCall cnet c).1.handled = c.handle e.handled ∧
      (e.subCall cnet c).1.server = e.server := by
  cases c with
  | subscribe url callback timeoutMs =>
    have hret : (e.client.subscribe cnet url callback timeoutMs).2.isSome = true := h
    simp only [subCall, handled]
    rw [ClientWorld.subscribe] at hret ⊢
    by_cases hc : urlOk url = true ∧ e.client.client.connected = true
    · rw [if_pos hc] at hret ⊢
      obtain ⟨hs, hlast, hhandlers⟩ := ClientWorld.requestEx_true hret
      exact ⟨hc.1, hs, hlast, congrArg (List.map SubHandler.url) hhandlers, trivial⟩
    · rw [if_neg hc] at hret
      cases hret
  | unsubscribe url timeoutMs =>
    have hret : (e.client.unsubscribe cnet url timeoutMs).2.isSome = true := h
    simp only [subCall, handled]
    rw [ClientWorld.unsubscribe] at hret ⊢
    by_cases hc : e.client.client.connected = true ∧ urlOk url = true
    · rw [if_pos hc] at hret ⊢
      obtain ⟨hs, hlast, hhandlers⟩ := ClientWorld.requestEx_true hret
      refine ⟨hc.2, hs, hlast, ?_, trivial⟩
      rw [hhandlers]
      exact map_url_eraseP url e.client.client.subHandlers
    · rw [if_neg hc] at hret
      cases hret

/-- A call that returns true changes both lists. -/
theorem subStep_returns (snet : Nat → Nat → SendStep) (id : UInt32) {c : SubCall κ}
    (h : e.Returns cnet c) :
    (e.subStep cnet snet id c).handled = c.handle e.handled ∧
      (e.subStep cnet snet id c).server.view Client.subscribed id =
        (e.server.view Client.subscribed id).map c.record := by
  obtain ⟨hurl, hs, ⟨seqno, hlast⟩, hhandled, hserver⟩ := subCall_sent h
  have hstep : e.subStep cnet snet id c = (e.subCall cnet c).1.deliver snet id := if_pos h
  obtain ⟨f, htype, hfurl, hdeliver⟩ := deliver_request snet id hs hlast
  rw [hstep, hdeliver]
  refine ⟨hhandled, ?_⟩
  rw [hserver]
  refine World.subscribed_input e.server fun core => ?_
  rw [World.Core.after, htype, hfurl, hurl]
  cases c <;> rfl

/-! ## Both lists -/

/-- The lists agree, and the server's holds no url twice. -/
structure InAgreement (id : UInt32) (e : Ends κ β) : Prop where
  agree : e.Agree id
  nodup : (e.subscribed id).Nodup
  present : (e.server.view Client.subscribed id).isSome = true

/-- Where a url stands at most once it is gone after it is removed. -/
theorem mem_erase_of_count_le {urls : List Bytes} {url u : Bytes} (h : urls.count url ≤ 1) :
    u ∈ urls.erase url ↔ u ≠ url ∧ u ∈ urls := by
  by_cases hu : u = url
  · subst hu
    have hcount : (urls.erase u).count u = 0 := by
      rw [List.count_erase_self]
      omega
    simp [List.count_eq_zero.1 hcount]
  · simp [hu, List.mem_erase_of_ne hu]

theorem subscribed_subStep (snet : Nat → Nat → SendStep) {c : SubCall κ} (h : e.InAgreement id)
    (hret : e.Returns cnet c) :
    (e.subStep cnet snet id c).subscribed id = c.record (e.subscribed id) := by
  have hview := (subStep_returns snet id hret).2
  obtain ⟨subs, hsubs⟩ := Option.isSome_iff_exists.1 h.present
  rw [subscribed, hview, subscribed, hsubs]
  rfl

/-- A url that has one handler at most is unsubscribed on both sides. -/
theorem inAgreement_subStep (cnet snet : Nat → Nat → SendStep) {c : SubCall κ}
    (h : e.InAgreement id) (hret : e.Returns cnet c) (hc : e.Single c) :
    (e.subStep cnet snet id c).InAgreement id := by
  have hsubs := subscribed_subStep snet h hret
  obtain ⟨hhandled, hview⟩ := subStep_returns snet id hret
  refine ⟨fun u => ?_, ?_, by rw [hview, Option.isSome_map]; exact h.present⟩
  · rw [hhandled, hsubs]
    cases c with
    | subscribe url callback timeoutMs =>
      rw [SubCall.handle, SubCall.record, List.mem_cons, List.mem_insert_iff, h.agree u]
    | unsubscribe url timeoutMs =>
      rw [SubCall.handle, SubCall.record, mem_erase_of_count_le hc, h.nodup.mem_erase_iff,
        h.agree u]
  · rw [hsubs]
    cases c with
    | subscribe url callback timeoutMs => exact h.nodup.insert
    | unsubscribe url timeoutMs => exact h.nodup.erase url

/-- A url that has more keeps one of them, and is unsubscribed at the server. -/
theorem not_agree_subStep (cnet snet : Nat → Nat → SendStep) {c : SubCall κ}
    (h : e.InAgreement id) (hret : e.Returns cnet c) (hbad : ¬ e.Single c) :
    ¬ (e.subStep cnet snet id c).Agree id := by
  cases c with
  | subscribe url callback timeoutMs => exact absurd trivial hbad
  | unsubscribe url timeoutMs =>
    intro hagree
    have hleft : url ∈ e.handled.erase url := by
      have hcount : ¬ e.handled.count url ≤ 1 := hbad
      rw [← List.count_pos_iff, List.count_erase_self]
      omega
    have hgone := hagree url
    rw [(subStep_returns snet id hret).1, subscribed_subStep snet h hret, SubCall.handle,
      SubCall.record, h.nodup.mem_erase_iff] at hgone
    exact (hgone.1 hleft).1 rfl

end Ends

/-- **Subscriptions on both sides.** Take a client without handlers and a server that has it in its
table without subscriptions. For every sequence of calls that return true, each request being
processed before the next call: after every call the urls that have a handler are those in the
server's list, if and only if no url is unsubscribed while it has more than one handler. -/
theorem agree_iff_single (cnet snet : Nat → Nat → SendStep) (id : UInt32) (e : Ends κ β)
    (hclient : e.client.client.subHandlers = [])
    (hserver : e.server.view Client.subscribed id = some []) (calls : List (SubCall κ))
    (hret : Runs.EachStep (Ends.subStep cnet snet id) (Ends.Returns cnet) e calls) :
    Runs.Always (Ends.subStep cnet snet id) (Ends.Agree id) e calls ↔
      Runs.EachStep (Ends.subStep cnet snet id) Ends.Single e calls := by
  refine Runs.always_iff_eachStep (fun _ _ h hr hc => Ends.inAgreement_subStep cnet snet h hr hc)
    (fun _ h => h.agree) (fun _ _ h hr hbad => Ends.not_agree_subStep cnet snet h hr hbad) ?_ hret
  refine ⟨fun u => ?_, ?_, ?_⟩
  · rw [Ends.handled, hclient, Ends.subscribed, hserver]
    exact Iff.rfl
  · rw [Ends.subscribed, hserver]
    exact List.nodup_nil
  · rw [hserver]
    rfl

/-- A subscription to `url`. -/
def subTo (url : Bytes) : SubCall Unit := .subscribe url none 100

/-- Two urls are subscribed, and the first is unsubscribed. -/
def subOnce : List (SubCall Unit) :=
  [subTo [slash, 0x61], subTo [slash, 0x62], .unsubscribe [slash, 0x61] 100]

/-- A url is subscribed twice and unsubscribed once. -/
def subTwice : List (SubCall Unit) :=
  [subTo [slash, 0x61], subTo [slash, 0x61], .unsubscribe [slash, 0x61] 100]

theorem subOnce_agree :
    Runs.Always (Ends.subStep acceptAll acceptAll 0) (Ends.Agree 0) justConnected subOnce := by
  refine (agree_iff_single acceptAll acceptAll 0 justConnected rfl (by decide +kernel) subOnce
    ?_).2 ?_
  · simp only [subOnce, Runs.eachStep_cons, Runs.eachStep_nil, and_true, Ends.Returns]
    decide +kernel
  · simp only [subOnce, subTo, Runs.eachStep_cons, Runs.eachStep_nil, and_true, Ends.Single]
    decide +kernel

/-- All calls return true. The client still has a handler; the server has no subscription. -/
theorem subTwice_not_agree :
    Runs.EachStep (Ends.subStep acceptAll acceptAll 0) (Ends.Returns acceptAll) justConnected
        subTwice ∧
      ¬ Runs.Always (Ends.subStep acceptAll acceptAll 0) (Ends.Agree 0) justConnected
        subTwice := by
  constructor
  · simp only [subTwice, Runs.eachStep_cons, Runs.eachStep_nil, and_true, Ends.Returns]
    decide +kernel
  · intro h
    have hagree := h subTwice (List.prefix_refl _) [slash, 0x61]
    exact absurd (hagree.1 (by decide +kernel)) (by decide +kernel)

end Ssn
