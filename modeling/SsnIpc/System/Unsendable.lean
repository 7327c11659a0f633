import SsnIpc.Client.Connections
import SsnIpc.Lib.Runs
import SsnIpc.Server.Table

/-!
# Messages that cannot be encoded

`ssn_send_message` refuses a message whose lengths do not fit, before it writes a byte. It reports
that as it reports a broken socket, and its callers on both sides act on either in the same way:
they close the connection.

**Theorem (`unsendable_exact`).** Whatever function of the interface such a message is passed to:
no byte is written; the call reports failure, unless it is a publication with a valid url; and the
connections stay as they were exactly when the message never gets as far as `ssn_send_message` on
a connection that is open.
-/

namespace Ssn

open ByteMem

variable {κ β : Type*} {net cnet snet : Nat → Nat → SendStep}

/-! ## The interface -/

/-- A call by which an application sends a message. The url and the data are pointers, possibly
`NULL`, with a length. -/
inductive Outgoing (κ : Type*)
  /-- `ssn_client_call`. -/
  | call (url data : Option Ref) (callback : Option κ) (timeoutMs : Nat)
  /-- `ssn_client_message`. -/
  | message (url data : Option Ref)
  /-- `ssn_client_subscribe`. -/
  | subscribe (url : Option Ref) (callback : Option κ) (timeoutMs : Nat)
  /-- `ssn_server_response`. -/
  | response (id : UInt32) (status : UInt32) (seqno : UInt16) (data : Option Ref)
  /-- `ssn_server_message`. -/
  | serverMessage (id : UInt32) (url data : Option Ref)
  /-- `ssn_server_publish`. -/
  | publish (url data : Option Ref)

namespace Outgoing

def url : Outgoing κ → Option Ref
  | .call url _ _ _ | .message url _ | .subscribe url _ _ => url
  | .response _ _ _ _ => none
  | .serverMessage _ url _ | .publish url _ => url

def data : Outgoing κ → Option Ref
  | .call _ data _ _ | .message _ data => data
  | .subscribe _ _ _ => none
  | .response _ _ _ data | .serverMessage _ _ data | .publish _ data => data

end Outgoing

/-- What `ssn_client_message` reports. -/
def ClientWorld.messageRet (net : Nat → Nat → SendStep) (w : ClientWorld κ) (url : Bytes)
    (data : Option Ref) : Bool :=
  if w.client.connected ∧ urlOk url ∧ data.isSome then
    (w.send net ⟨MsgType.message, 0, 0, some (Ref.ofBytes url), data⟩).2
  else false

/-- What `ssn_server_response` and `ssn_server_message` report of a message to a client that may
not be there. -/
def World.sendToRet (net : Nat → Nat → SendStep) (w : World β) (id : UInt32) (msg : Message) :
    Bool :=
  match w.server.cliFind id with
  | none => false
  | some cli => (sendMessage cli.transport (w.createHeader msg).server.sendbuf msg.url msg.data
      (net w.log.length)).2.ret

/-- A client and a server. -/
structure Ends (κ β : Type*) where
  client : ClientWorld κ
  server : World β

namespace Ends

/-- A call, and whether it reports success. A `NULL` url is refused like an empty one. -/
def perform (cnet snet : Nat → Nat → SendStep) (e : Ends κ β) : Outgoing κ → Ends κ β × Bool
  | .call url data callback timeoutMs =>
    let (client, seqno) := e.client.callEx cnet (optBytes url) data callback timeoutMs
    ({ e with client }, seqno.isSome)
  | .message url data =>
    ({ e with client := e.client.message cnet (optBytes url) data },
      e.client.messageRet cnet (optBytes url) data)
  | .subscribe url callback timeoutMs =>
    let (client, seqno) := e.client.subscribe cnet (optBytes url) callback timeoutMs
    ({ e with client }, seqno.isSome)
  | .response id status seqno data =>
    ({ e with server := e.server.response snet id status seqno data },
      e.server.sendToRet snet id ⟨MsgType.rpcRequest, status, seqno, none, data⟩)
  | .serverMessage id url data =>
    match data with
    | none => (e, false)
    | some data =>
      ({ e with server := e.server.message snet id (optBytes url) data },
        urlOk (optBytes url) && e.server.sendToRet snet id
          ⟨MsgType.message, 0, 0, some (Ref.ofBytes (optBytes url)), some data⟩)
  | .publish url data =>
    ({ e with server := e.server.publish snet (optBytes url) data }, urlOk (optBytes url))

end Ends

/-- What a client handed to its transport. -/
def ClientEvent.offers : ClientEvent κ → List Bytes
  | .sent _ out => out.offers
  | _ => []

def ClientWorld.written (w : ClientWorld κ) : List Bytes := w.log.flatMap ClientEvent.offers

/-- What a server handed to the transport of one of its clients. -/
def ServerEvent.offers : ServerEvent β → List Bytes
  | .sent _ _ out => out.offers
  | _ => []

/-- What was written to the connections of a server. -/
def World.written (w : World β) : List Bytes := w.log.flatMap ServerEvent.offers

namespace Ends

/-- Everything that was written to a connection. -/
def written (e : Ends κ β) : List Bytes × List Bytes := (e.client.written, e.server.written)

def connections (e : Ends κ β) : Bool × Option Transport × (UInt32 → Option Transport) :=
  (e.client.client.connected, e.client.client.transport, e.server.view Client.transport)

end Ends

/-! ## What is spared -/

/-- The client has no open connection. -/
def ClientWorld.Shut (w : ClientWorld κ) : Prop := ∀ t ∈ w.client.transport, t.sockFd = -1

/-- The server has no open connection to the client `id`. -/
def World.Shut (w : World β) (id : UInt32) : Prop :=
  ∀ t ∈ w.view Client.transport id, t.sockFd = -1

namespace Ends

/-- The call does not get as far as `ssn_send_message`, or only on connections that are closed. -/
def Spared (e : Ends κ β) : Outgoing κ → Prop
  | .call url data callback timeoutMs =>
    (e.client.sending (.call (optBytes url) data callback timeoutMs)).isSome = true → e.client.Shut
  | .message url data =>
    (e.client.sending (.message (optBytes url) data)).isSome = true → e.client.Shut
  | .subscribe url callback timeoutMs =>
    (e.client.sending (.subscribe (optBytes url) callback timeoutMs)).isSome = true →
      e.client.Shut
  | .response id _ _ _ => e.server.Shut id
  | .serverMessage id url data =>
    urlOk (optBytes url) = true → data.isSome = true → e.server.Shut id
  | .publish url _ =>
    urlOk (optBytes url) = true → ∀ c ∈ e.server.server.clients, c.active = true →
      Server.cliSubMatch c.subscribed (optBytes url) = true → e.server.Shut c.id

end Ends

/-- A publication that is not refused. -/
def Outgoing.Published : Outgoing κ → Prop
  | .publish url _ => urlOk (optBytes url) = true
  | _ => False

/-! ## The url -/

theorem ofBytes_optBytes {url : Option Ref} (h : urlOk (optBytes url) = true) :
    some (Ref.ofBytes (optBytes url)) = url := by
  cases url with
  | none => cases h
  | some u =>
    obtain ⟨ptr, len, fits⟩ := u
    cases ptr with
    | none => cases h
    | some b =>
      obtain rfl := fits b rfl
      rfl

/-! ## The client -/

/-- Closing a connection changes it unless it is closed already. -/
theorem map_disconnect_eq_self {t : Option Transport} :
    t.map Transport.disconnect = t ↔ ∀ x ∈ t, x.sockFd = -1 := by
  cases t with
  | none => simp
  | some x =>
    obtain ⟨fd, sendTimeoutMs⟩ := x
    simp only [Option.map_some, Transport.disconnect, Option.some.injEq, Transport.mk.injEq,
      and_true, Option.mem_def, forall_eq']
    exact eq_comm

namespace ClientWorld

variable {w : ClientWorld κ}

/-- What becomes of a client when a call fails before (`sent` is false) or in
`ssn_send_message`. -/
structure Refused (sent : Prop) (w w' : ClientWorld κ) : Prop where
  written : w'.written = w.written
  connected : w'.client.connected = w.client.connected
  transport : sent → w'.client.transport = w.client.transport.map Transport.disconnect
  kept : ¬ sent → w'.client.transport = w.client.transport

theorem Refused.early {sent : Prop} (h : ¬ sent) : Refused sent w w :=
  ⟨rfl, rfl, fun hs => absurd hs h, fun _ => rfl⟩

theorem Refused.of_link {sent : Prop} {w₁ w₂ w' : ClientWorld κ} (h : Refused sent w₁ w₂)
    (hlink : w₁.client.link = w.client.link) (hlog : w₁.log = w.log)
    (hlink' : w'.client.link = w₂.client.link) (hlog' : w'.log = w₂.log) : Refused sent w w' := by
  have ht : w₁.client.transport = w.client.transport := congrArg Link.transport hlink
  have ht' : w'.client.transport = w₂.client.transport := congrArg Link.transport hlink'
  refine ⟨?_, ?_, fun hs => ?_, fun hs => ?_⟩
  · have hwritten := h.written
    rwa [ClientWorld.written, ClientWorld.written, hlog, ← hlog'] at hwritten
  · exact (congrArg Link.connected hlink').trans (h.connected.trans (congrArg Link.connected hlink))
  · rw [ht', h.transport hs, ht]
  · rw [ht', h.kept hs, ht]

theorem send_unsendable (net : Nat → Nat → SendStep) (w : ClientWorld κ) (msg : Message)
    (h : ¬ Sendable msg.url msg.data) {sent : Prop} (hsent : sent) :
    (w.send net msg).2 = false ∧ Refused sent w (w.send net msg).1 := by
  have hout : ((w.createHeader msg).sendOut net msg).2 = .refused :=
    sendMessage_of_not _ _ _ h
  simp only [send, sendmsg]
  generalize (w.createHeader msg).sendOut net msg = out at hout ⊢
  obtain ⟨buf, _⟩ := out
  obtain rfl := hout
  refine ⟨rfl, ?_, rfl, fun _ => rfl, absurd hsent⟩
  simp [ClientWorld.written, emit, setClient, createHeader, ClientEvent.offers, SendOut.refused]

theorem requestWith_unsendable (net : Nat → Nat → SendStep) (w : ClientWorld κ) (ftype : FType)
    (msgType : UInt8) {url data : Option Ref} (callback : Option κ) (timeoutMs : Nat)
    (h : ¬ Sendable url data) :
    (w.requestWith net ftype msgType url data callback timeoutMs).2 = none ∧
      Refused ((w.requestSending ftype msgType url data callback timeoutMs).isSome = true) w
        (w.requestWith net ftype msgType url data callback timeoutMs).1 := by
  cases callback with
  | none =>
    have hsend := send_unsendable net (w.setClient w.client.prepareSeqno.2)
      ⟨msgType, 0, w.client.prepareSeqno.1, url, data⟩ h
      (show (w.requestSending ftype msgType url data none timeoutMs).isSome = true from rfl)
    rw [requestWith, requestPlain]
    simp only [hsend.1]
    exact ⟨rfl, hsend.2.of_link SsnClient.link_prepareSeqno rfl rfl rfl⟩
  | some k =>
    rw [requestWith, requestPending, requestSending]
    rcases ha : w.client.allocPendingIndex with _ | ⟨index, c⟩
    · exact ⟨rfl, .early (by simp)⟩
    · have hsend := send_unsendable net (w.setClient (c.register index ftype k timeoutMs))
        ⟨msgType, 0, c.seqno, url, data⟩ h
        (show (some (w.setClient (c.register index ftype k timeoutMs),
          (⟨msgType, 0, c.seqno, url, data⟩ : Message))).isSome = true from rfl)
      simp only [hsend.1]
      have hlink : c.link = w.client.link := SsnClient.link_allocPendingIndex ha
      exact ⟨rfl, hsend.2.of_link hlink rfl (SsnClient.link_freePendingIndex index) rfl⟩

theorem callEx_unsendable (net : Nat → Nat → SendStep) (w : ClientWorld κ) {url data : Option Ref}
    (callback : Option κ) (timeoutMs : Nat) (h : ¬ Sendable url data) :
    (w.callEx net (optBytes url) data callback timeoutMs).2 = none ∧
      Refused ((w.sending (.call (optBytes url) data callback timeoutMs)).isSome = true) w
        (w.callEx net (optBytes url) data callback timeoutMs).1 := by
  rw [callEx, sending]
  split_ifs with hc
  · rw [ofBytes_optBytes hc.2]
    exact requestWith_unsendable net w _ _ callback timeoutMs h
  · exact ⟨rfl, .early (by simp)⟩

theorem message_unsendable (net : Nat → Nat → SendStep) (w : ClientWorld κ)
    {url data : Option Ref} (h : ¬ Sendable url data) :
    w.messageRet net (optBytes url) data = false ∧
      Refused ((w.sending (.message (optBytes url) data)).isSome = true) w
        (w.message net (optBytes url) data) := by
  rw [messageRet, message, sending]
  split_ifs with hc
  · rw [ofBytes_optBytes hc.2.1]
    exact send_unsendable net w ⟨MsgType.message, 0, 0, url, data⟩ h rfl
  · exact ⟨rfl, .early (by simp)⟩

theorem subscribe_unsendable (net : Nat → Nat → SendStep) (w : ClientWorld κ) {url : Option Ref}
    (callback : Option κ) (timeoutMs : Nat) (h : ¬ Sendable url none) :
    (w.subscribe net (optBytes url) callback timeoutMs).2 = none ∧
      Refused ((w.sending (.subscribe (optBytes url) callback timeoutMs)).isSome = true) w
        (w.subscribe net (optBytes url) callback timeoutMs).1 := by
  rw [subscribe, sending]
  split_ifs with hc
  · rw [ofBytes_optBytes hc.1, requestEx, if_pos (by exact hc.2)]
    obtain ⟨hret, hw⟩ := requestWith_unsendable net
      (w.withHandlers (⟨optBytes url, callback⟩ :: w.client.subHandlers)) .res MsgType.subscribe
      none timeoutMs h
    exact ⟨hret, hw.written, hw.connected, hw.transport, hw.kept⟩
  · exact ⟨rfl, .early (by simp)⟩

/-- The connection stays as it was if it is closed already, or if nothing was sent. -/
theorem Refused.transport_eq_iff {sent : Prop} {w' : ClientWorld κ} (h : Refused sent w w') :
    w'.client.transport = w.client.transport ↔ (sent → w.Shut) := by
  by_cases hs : sent
  · rw [h.transport hs, map_disconnect_eq_self, Shut]
    exact ⟨fun h _ => h, fun h => h hs⟩
  · rw [h.kept hs]
    exact iff_of_true rfl fun hs' => absurd hs' hs

end ClientWorld

/-! ## The server -/

namespace World

variable {w : World β} {id : UInt32}

theorem written_cliSendmsg (net : Nat → Nat → SendStep) (w : World β) (id : UInt32) {msg : Message}
    (h : ¬ Sendable msg.url msg.data) : (w.cliSendmsg net id msg).written = w.written := by
  cases hc : w.server.cliFind id with
  | none => rw [cliSendmsg_none _ _ hc]
  | some c =>
    rw [written, (cliSendmsg_spec net w id msg hc).1, sendMessage_of_not _ _ _ h]
    simp [written, ServerEvent.offers, SendOut.refused]

theorem transport_cliSendmsg_unsendable (net : Nat → Nat → SendStep) (w : World β) (id : UInt32)
    {msg : Message} (h : ¬ Sendable msg.url msg.data) :
    (w.cliSendmsg net id msg).view Client.transport =
      Function.update (w.view Client.transport) id
        ((w.view Client.transport id).map Transport.disconnect) := by
  cases hc : w.server.cliFind id with
  | none =>
    rw [cliSendmsg_none _ _ hc, view, hc]
    exact (Function.update_eq_self_iff.2 (by rw [view, hc]; rfl)).symm
  | some c =>
    simp only [cliSendmsg, hc, view_emit]
    refine view_modifyCli_map _ _ _ (id_afterSend _) fun c' => ?_
    rw [afterSend, sendMessage_of_not _ _ _ h]
    rfl

theorem update_disconnect_eq_iff {v : UInt32 → Option Transport} {id : UInt32} :
    Function.update v id ((v id).map Transport.disconnect) = v ↔ ∀ t ∈ v id, t.sockFd = -1 := by
  rw [Function.update_eq_self_iff, map_disconnect_eq_self]

theorem sendTo_unsendable (net : Nat → Nat → SendStep) (w : World β) (id : UInt32) (msg : Message)
    (h : ¬ Sendable msg.url msg.data) :
    w.sendToRet net id msg = false ∧ (w.sendTo net id msg).written = w.written ∧
      ((w.sendTo net id msg).view Client.transport = w.view Client.transport ↔ w.Shut id) := by
  rw [sendToRet, sendTo]
  cases hc : w.server.cliFind id with
  | none =>
    refine ⟨rfl, rfl, iff_of_true rfl ?_⟩
    intro t ht
    rw [view, hc] at ht
    cases ht
  | some c =>
    rw [if_pos (show (some c).isSome = true from rfl), send]
    refine ⟨?_, written_cliSendmsg net (w.createHeader msg) id h, ?_⟩
    · simp only [sendMessage_of_not _ _ _ h]
      rfl
    · rw [transport_cliSendmsg_unsendable net (w.createHeader msg) id h, view_createHeader,
        update_disconnect_eq_iff, Shut]

/-- **The loop of a publication.** Every client that it is for loses its connection. -/
theorem publishLoop_unsendable (net : Nat → Nat → SendStep) (url : Bytes) (cs : List Client)
    (w : World β) (msg : Message) (h : ¬ Sendable msg.url msg.data) :
    (cs.foldl (publishTo net url msg) w).written = w.written ∧
      ∀ id, (cs.foldl (publishTo net url msg) w).view Client.transport id =
        if ∃ c ∈ cs, c.id = id ∧ c.active = true ∧ Server.cliSubMatch c.subscribed url = true then
          (w.view Client.transport id).map Transport.disconnect
        else w.view Client.transport id := by
  induction cs generalizing w with
  | nil => simp
  | cons c cs ih =>
    obtain ⟨hwritten, hview⟩ := ih (publishTo net url msg w c)
    rw [List.foldl_cons]
    rw [publishTo] at hwritten hview ⊢
    by_cases hc : c.active = true ∧ Server.cliSubMatch c.subscribed url = true
    · rw [if_pos hc] at hwritten hview ⊢
      refine ⟨hwritten.trans (written_cliSendmsg net w c.id h), fun id => ?_⟩
      rw [hview, transport_cliSendmsg_unsendable net w c.id h]
      by_cases hid : id = c.id
      · subst hid
        rw [Function.update_self, if_pos (c := ∃ c' ∈ c :: cs, _)
          ⟨c, List.mem_cons_self, rfl, hc⟩, Option.map_map]
        split_ifs <;> rfl
      · rw [Function.update_of_ne hid]
        simp only [List.exists_mem_cons_iff, Ne.symm hid, false_and, false_or]
    · rw [if_neg hc] at hwritten hview ⊢
      refine ⟨hwritten, fun id => ?_⟩
      rw [hview]
      simp only [List.exists_mem_cons_iff, hc, and_false, false_or]

end World

/-! ## Both ends -/

namespace Ends

variable {e : Ends κ β}

theorem of_client {client : ClientWorld κ} {sent : Prop}
    (h : ClientWorld.Refused sent e.client client) :
    ({ e with client } : Ends κ β).written = e.written ∧
      (({ e with client } : Ends κ β).connections = e.connections ↔ (sent → e.client.Shut)) := by
  refine ⟨by rw [written, h.written]; rfl, ?_⟩
  rw [← h.transport_eq_iff]
  simp only [connections, h.connected, Prod.mk.injEq, true_and, and_true]

theorem of_server {server : World β} {kept : Prop} (hwritten : server.written = e.server.written)
    (hview : server.view Client.transport = e.server.view Client.transport ↔ kept) :
    ({ e with server } : Ends κ β).written = e.written ∧
      (({ e with server } : Ends κ β).connections = e.connections ↔ kept) := by
  refine ⟨by rw [written, hwritten]; rfl, ?_⟩
  simp only [connections, hview, Prod.mk.injEq, true_and]

end Ends

theorem World.message_unsendable (net : Nat → Nat → SendStep) (w : World β) (id : UInt32)
    {url : Option Ref} {data : Ref} (h : ¬ Sendable url (some data)) :
    (urlOk (optBytes url) && w.sendToRet net id
        ⟨MsgType.message, 0, 0, some (Ref.ofBytes (optBytes url)), some data⟩) = false ∧
      (w.message net id (optBytes url) data).written = w.written ∧
      ((w.message net id (optBytes url) data).view Client.transport = w.view Client.transport ↔
        (urlOk (optBytes url) = true → w.Shut id)) := by
  rw [message]
  split_ifs with hu
  · rw [ofBytes_optBytes hu, hu, Bool.true_and]
    simp only [true_imp_iff]
    exact sendTo_unsendable net w id ⟨MsgType.message, 0, 0, url, some data⟩ h
  · exact ⟨by simp [hu], rfl, iff_of_true rfl fun hok => absurd hok hu⟩

theorem World.publish_unsendable (net : Nat → Nat → SendStep) (w : World β)
    {url data : Option Ref} (h : ¬ Sendable url data) :
    (w.publish net (optBytes url) data).written = w.written ∧
      ((w.publish net (optBytes url) data).view Client.transport = w.view Client.transport ↔
        (urlOk (optBytes url) = true → ∀ c ∈ w.server.clients, c.active = true →
          Server.cliSubMatch c.subscribed (optBytes url) = true → w.Shut c.id)) := by
  rw [publish]
  split_ifs with hu
  · rw [publishMsg, ofBytes_optBytes hu]
    obtain ⟨hwritten, hview⟩ := publishLoop_unsendable net (optBytes url) w.server.clients
      (w.createHeader ⟨MsgType.publish, 0, 0, url, data⟩) ⟨MsgType.publish, 0, 0, url, data⟩ h
    refine ⟨hwritten, fun heq _ c hc hactive hmatch => ?_, fun hshut => ?_⟩
    · have hid := hview c.id
      rw [if_pos ⟨c, hc, rfl, hactive, hmatch⟩, heq, view_createHeader] at hid
      exact map_disconnect_eq_self.1 hid.symm
    · funext id
      rw [hview, view_createHeader]
      split_ifs with hsub
      · obtain ⟨c, hc, rfl, hactive, hmatch⟩ := hsub
        exact map_disconnect_eq_self.2 (hshut hu c hc hactive hmatch)
      · rfl
  · exact ⟨rfl, iff_of_true rfl fun hok => absurd hok hu⟩

/-- **Messages that cannot be encoded.** Take a client and a server in any state, and a call with
a message that cannot be encoded. No byte is written. Failure is reported, except for a publication
with a valid url. The connections stay as they were exactly when the call does not get as far as
`ssn_send_message`, or only on connections that are closed already. -/
theorem unsendable_exact (cnet snet : Nat → Nat → SendStep) (e : Ends κ β) (r : Outgoing κ)
    (h : ¬ Sendable r.url r.data) :
    (e.perform cnet snet r).1.written = e.written ∧
      ((e.perform cnet snet r).2 = false ↔ ¬ r.Published) ∧
      ((e.perform cnet snet r).1.connections = e.connections ↔ e.Spared r) := by
  cases r with
  | call url data callback timeoutMs =>
    obtain ⟨hret, hw⟩ := e.client.callEx_unsendable cnet callback timeoutMs h
    obtain ⟨hwritten, hconn⟩ := Ends.of_client hw
    exact ⟨hwritten, iff_of_true (congrArg Option.isSome hret) (fun hp => hp), hconn⟩
  | message url data =>
    obtain ⟨hret, hw⟩ := e.client.message_unsendable cnet h
    obtain ⟨hwritten, hconn⟩ := Ends.of_client hw
    exact ⟨hwritten, iff_of_true hret (fun hp => hp), hconn⟩
  | subscribe url callback timeoutMs =>
    obtain ⟨hret, hw⟩ := e.client.subscribe_unsendable cnet callback timeoutMs h
    obtain ⟨hwritten, hconn⟩ := Ends.of_client hw
    exact ⟨hwritten, iff_of_true (congrArg Option.isSome hret) (fun hp => hp), hconn⟩
  | response id status seqno data =>
    obtain ⟨hret, hw, hview⟩ := e.server.sendTo_unsendable snet id
      ⟨MsgType.rpcRequest, status, seqno, none, data⟩ h
    obtain ⟨hwritten, hconn⟩ := Ends.of_server hw hview
    exact ⟨hwritten, iff_of_true hret (fun hp => hp), hconn⟩
  | serverMessage id url data =>
    cases data with
    | none => exact ⟨rfl, iff_of_true rfl (fun hp => hp), iff_of_true rfl fun _ hd => by cases hd⟩
    | some data =>
      obtain ⟨hret, hw, hview⟩ := e.server.message_unsendable snet id h
      obtain ⟨hwritten, hconn⟩ := Ends.of_server hw hview
      refine ⟨hwritten, iff_of_true hret (fun hp => hp), hconn.trans ?_⟩
      exact ⟨fun hs hu _ => hs hu, fun hs hu => hs hu rfl⟩
  | publish url data =>
    obtain ⟨hw, hview⟩ := e.server.publish_unsendable snet h
    obtain ⟨hwritten, hconn⟩ := Ends.of_server hw hview
    exact ⟨hwritten, by simp [Ends.perform, Outgoing.Published], hconn⟩

def rootUrl : Ref := Ref.ofBytes [slash]

/-- One byte more than a message to the root can carry. -/
def oversized : Ref := Ref.ofBytes (List.replicate (maxPacketSize - headerSize) 0)

theorem optLen_replicate (n : Nat) :
    optLen (some (Ref.ofBytes (List.replicate n 0))) = n := List.length_replicate

theorem not_sendable_oversized : ¬ Sendable (some rootUrl) (some oversized) := by
  intro h
  have htotal := h.total
  have hurl : optLen (some rootUrl) = 1 := rfl
  rw [hurl, oversized, optLen_replicate] at htotal
  exact absurd htotal (by decide)

/-- A connected client, and a server that has just accepted it. -/
def justConnected : Ends Unit Unit where
  client := connectedClient
  server := (World.init (Server.create 0)).step acceptAll (.newConnection 6)

/-- The client at the server has subscribed to everything. -/
def onlineEnds : Ends Unit Unit where
  client := justConnected.client
  server := justConnected.server.step acceptAll
    (.clientInput 0 (.data (packet MsgType.subscribe 0 1 (some rootUrl) none)))

/-- A message to a client that is connected: not a byte is written, and the connection is lost. -/
theorem oversized_online :
    let r : Outgoing Unit := .message (some rootUrl) (some oversized)
    (onlineEnds.perform acceptAll acceptAll r).1.written = onlineEnds.written ∧
      (onlineEnds.perform acceptAll acceptAll r).2 = false ∧
      (onlineEnds.perform acceptAll acceptAll r).1.connections ≠ onlineEnds.connections := by
  intro r
  obtain ⟨hwritten, hret, hconn⟩ :=
    unsendable_exact acceptAll acceptAll onlineEnds r not_sendable_oversized
  refine ⟨hwritten, hret.2 (fun hp => hp), fun heq => ?_⟩
  -- The call gets as far as the transport, whose descriptor is 5.
  exact absurd (hconn.1 heq rfl ⟨5, 100⟩ rfl) (by decide)

theorem onlineEnds_closes {data : Ref} (h : ¬ Sendable (some rootUrl) (some data)) :
    (onlineEnds.perform acceptAll acceptAll
        (.message (some rootUrl) (some data))).1.client.client.transport = some ⟨-1, 100⟩ ∧
      (onlineEnds.perform acceptAll acceptAll (.publish (some rootUrl) (some data))).2 = true ∧
      onlineEnds.server.view Client.transport 0 = some ⟨6, 100⟩ ∧
      (onlineEnds.perform acceptAll acceptAll
        (.publish (some rootUrl) (some data))).1.server.view Client.transport 0 =
          some ⟨-1, 100⟩ := by
  have hopen : onlineEnds.server.view Client.transport 0 = some ⟨6, 100⟩ := by decide +kernel
  have hurl : urlOk (optBytes (some rootUrl)) = true := by decide
  refine ⟨?_, hurl, hopen, ?_⟩
  · exact (onlineEnds.client.message_unsendable acceptAll h).2.transport rfl
  · have hview := (World.publishLoop_unsendable acceptAll (optBytes (some rootUrl))
      onlineEnds.server.server.clients (onlineEnds.server.createHeader
        ⟨MsgType.publish, 0, 0, some rootUrl, some data⟩)
      ⟨MsgType.publish, 0, 0, some rootUrl, some data⟩ h).2 0
    rw [World.view_createHeader, hopen, if_pos (by decide +kernel)] at hview
    rw [Ends.perform, World.publish, if_pos hurl, World.publishMsg, ofBytes_optBytes hurl]
    exact hview

/-- A connected client loses its connection. So does the server's client, and the publication is
reported as a success. -/
theorem oversized_closes :
    ¬ Sendable (some rootUrl) (some oversized) ∧
      (onlineEnds.perform acceptAll acceptAll
        (.message (some rootUrl) (some oversized))).1.client.client.transport = some ⟨-1, 100⟩ ∧
      (onlineEnds.perform acceptAll acceptAll (.publish (some rootUrl) (some oversized))).2 =
        true ∧
      onlineEnds.server.view Client.transport 0 = some ⟨6, 100⟩ ∧
      (onlineEnds.perform acceptAll acceptAll
        (.publish (some rootUrl) (some oversized))).1.server.view Client.transport 0 =
          some ⟨-1, 100⟩ :=
  ⟨not_sendable_oversized, onlineEnds_closes not_sendable_oversized⟩

end Ssn
