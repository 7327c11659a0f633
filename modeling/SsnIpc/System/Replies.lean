import SsnIpc.Client.Callbacks
import SsnIpc.Server.Acks
import SsnIpc.System.Network

/-!
# Replies across the network

What a server sends to a client is an acknowledgement of one of the client's own requests, a
response to one of its calls, a publication or a message.

**Theorem (`network_acks`).** The acknowledgements that a client has dispatched are those of its own
first requests, in the order of the requests.

**Theorem (`calls_answered`).** A callback is called at most once. The callback of a call gets a
reply only if the server has dispatched that very call, and the reply is one that the server sent
to it. A call that was answered is not waited for any more once no byte is under way.

For the second, the requests of the client are numbered and the numbers serve as callbacks
(`Talk`). A frame that the client dispatches is one that the server sent (`Network.Linked`), a
response is sent only for a request that was dispatched (`World.RpcCaused`), and what is dispatched
was sent by the client. Since sequence numbers of calls differ as long as there are fewer than
65536, the request found in this way is that of the callback (`Exchange.Journal`).
-/

namespace Ssn

open ByteMem

variable {κ β : Type*} {id : UInt32}

/-! ## What was sent -/

section Sends

variable {sends : List (Message × SendOut)} {c : Conn} {underWay : Bytes}

theorem OneWire.sentOk_first (h : OneWire sends) : sentOk sends <+: sends.map Prod.fst := by
  obtain ⟨⟨-, hstops⟩, -⟩ := h
  induction sends with
  | nil => exact List.prefix_refl _
  | cons o sends ih =>
    rw [List.map_cons, List.pairwise_cons] at hstops
    cases hok : o.2.ret with
    | true =>
      have hsplit : sentOk (o :: sends) = o.1 :: sentOk sends := by simp [sentOk, hok]
      rw [hsplit, List.map_cons, List.prefix_cons_inj]
      exact ih hstops.2
    | false =>
      have hnone : sentOk (o :: sends) = [] := by
        rw [sentOk, List.map_eq_nil_iff, List.filter_eq_nil_iff, List.forall_mem_cons]
        refine ⟨by simp [hok], fun o' ho' => ?_⟩
        have hfail : o'.2.ret = false := (hstops.1 _ (List.mem_map_of_mem ho') hok).1
        simp [hfail]
      rw [hnone]
      exact List.nil_prefix

theorem map_tag_of_reads {msgs : List Message} {frames : List Frame}
    (h : List.Forall₂ Message.Reads msgs frames) :
    frames.map Frame.tag = msgs.map Message.tag := by
  induction h with
  | nil => rfl
  | cons hr _ ih => rw [List.map_cons, List.map_cons, hr.tag_eq, ih]

namespace Network.Delivered

theorem sent (h : Delivered sends c underWay) {f : Frame} (hf : f ∈ c.frames) :
    ∃ msg ∈ sentOk sends, msg.Reads f := by
  obtain ⟨msg, hmsg, hreads⟩ := Lists.exists_of_forall₂ h.reads hf
  exact ⟨msg, List.mem_of_mem_take hmsg, hreads⟩

/-- A message that was sent has been dispatched if nothing is under way. -/
theorem arrived (h : Delivered sends c []) {msg : Message} (hmsg : msg ∈ sentOk sends) :
    ∃ f ∈ c.frames, msg.Reads f := by
  have hreads := h.reads
  rw [h.all rfl, List.take_length] at hreads
  exact Lists.exists_of_forall₂ hreads.flip hmsg

/-- The frames dispatched have the types and sequence numbers of the first messages sent. -/
theorem tags (h : Delivered sends c underWay) :
    c.frames.map Frame.tag = ((sentOk sends).map Message.tag).take c.frames.length := by
  rw [← List.map_take]
  exact map_tag_of_reads h.reads

end Network.Delivered

end Sends

/-! ## Acknowledgements -/

namespace Network

/-- The step of the server that a step of the network is. -/
def serverOp (s : Network κ β) : NetworkStep κ → Option ServerOp
  | .serve op => some op
  | .deliver id n => (received (s.up id) n).map (.clientInput id)
  | _ => none

variable {s : Network κ β}

theorem server_step [DecidableEq κ] (cnet : UInt32 → Nat → Nat → SendStep)
    (snet : Nat → Nat → SendStep) (e : NetworkStep κ) :
    (s.step cnet snet e).server = (s.serverOp e).elim s.server (s.server.step snet) := by
  cases e with
  | deliver id n =>
    simp only [step, serverOp]
    cases received (s.up id) n <;> rfl
  | _ => rfl

/-- The ends of the connection are in order, and so are the acknowledgements. -/
structure Acked (id : UInt32) (s : Network κ β) : Prop where
  linked : s.Linked id
  inOrder : s.server.AcksOk id

theorem Acked.step [DecidableEq κ] (cnet : UInt32 → Nat → Nat → SendStep)
    (snet : Nat → Nat → SendStep) (s : Network κ β) (e : NetworkStep κ) (h : s.Acked id)
    (hold : s.Holds id e) : (s.step cnet snet e).Acked id := by
  refine ⟨h.linked.step cnet snet s e hold, ?_⟩
  rw [server_step]
  cases s.serverOp e with
  | none => exact h.inOrder
  | some op => exact h.inOrder.step snet h.linked.table op

/-- The acknowledgements that the client has dispatched are those of its own first requests, and of
all of them if nothing is under way and no send of the server has failed. -/
structure AcksDelivered (id : UInt32) (s : Network κ β) : Prop where
  first : acks ((s.client id).conn.frames.map Frame.tag) <+:
    acks ((sentOk (s.client id).sends).map Message.tag)
  all : s.up id = [] → s.down id = [] → (∀ o ∈ s.server.sendsTo id, o.2.ret = true) →
    acks ((s.client id).conn.frames.map Frame.tag) =
      acks ((sentOk (s.client id).sends).map Message.tag)

theorem Acked.delivered (h : s.Acked id) : s.AcksDelivered id := by
  obtain ⟨hup, hdown⟩ := h.linked.delivers
  have hacks : acks ((s.server.sendsTo id).map fun o => o.1.tag) =
      acks ((conn s.server.log id).frames.map Frame.tag) := h.inOrder
  have hmsgs : (s.server.sendsTo id).map (fun o => o.1.tag) =
      ((s.server.sendsTo id).map Prod.fst).map Message.tag := by rw [List.map_map]; rfl
  refine ⟨?_, fun hup0 hdown0 hok => ?_⟩
  · have hfirst : acks ((s.client id).conn.frames.map Frame.tag) <+:
        acks ((s.server.sendsTo id).map fun o => o.1.tag) := by
      rw [hdown.tags, hmsgs]
      refine acks_mono (.trans ?_ (h.linked.serverWrites.wire.sentOk_first.map _))
      exact List.take_prefix _ _
    rw [hacks, hup.tags] at hfirst
    exact hfirst.trans <| acks_mono <| List.take_prefix _ _
  · rw [hdown.tags, hdown.all hdown0, ← List.length_map (f := Message.tag), List.take_length,
      sentOk_of_all hok, ← hmsgs, hacks, hup.tags, hup.all hup0,
      ← List.length_map (f := Message.tag), List.take_length]

end Network

/-- A network, the requests that one of its clients has made with a callback (`none` for one that
failed), and the calls of their callbacks. The callback of a request is its number. -/
structure Talk (β : Type*) where
  net : Network Nat β
  made : List (Option Message)
  calls : List (Nat × Option Frame)

/-- The steps of a talk: requests with a callback, and any other step of the network. -/
inductive TalkStep
  | call (url : Bytes) (data : Option Ref) (timeoutMs : Nat)
  | ping (timeoutMs : Nat)
  | pingEnd (r : Nat)
  | other (e : NetworkStep Nat)

namespace Talk

open Exchange (Journal)

def advance (id : UInt32) (s : Talk β) (net : Network Nat β) : Talk β :=
  { s with net, calls := s.calls ++ (s.net.client id).callsSince (net.client id) }

def requested (id : UInt32) (s : Talk β) (msg : UInt16 → Message)
    (out : ClientWorld Nat × Option UInt16) : Talk β :=
  { s.advance id (s.net.setClient id out.1) with made := s.made ++ [out.2.map msg] }

def callMsg (url : Bytes) (data : Option Ref) (seqno : UInt16) : Message :=
  ⟨MsgType.rpcRequest, 0, seqno, some (Ref.ofBytes url), data⟩

def pingMsg (seqno : UInt16) : Message := ⟨MsgType.pingEcho, 0, seqno, none, none⟩

/-- One step, in the talk of client `id`. -/
def step (cnet : UInt32 → Nat → Nat → SendStep) (snet : Nat → Nat → SendStep) (id : UInt32)
    (s : Talk β) : TalkStep → Talk β
  | .call url data timeoutMs =>
    s.requested id (callMsg url data)
      ((s.net.client id).callEx (cnet id) url data (some s.made.length) timeoutMs)
  | .ping timeoutMs =>
    s.requested id pingMsg ((s.net.client id).requestEx (cnet id) MsgType.pingEcho none none
      (some s.made.length) timeoutMs)
  | .pingEnd r =>
    match s.made[r]?.join with
    | some msg => s.advance id (s.net.step cnet snet (.pingEnd id msg.seqno))
    | none => s
  | .other e => s.advance id (s.net.step cnet snet e)

/-- The step is not a call or a ping of client `id`. -/
def Plain (id : UInt32) : NetworkStep Nat → Prop
  | .call id' (.call _ _ _ _) | .ping id' _ _ | .pingEnd id' _ => id' ≠ id
  | _ => True

/-- What is assumed of a step: there are fewer than 65536 requests, only pings end, the connection
stays between its two ends, calls of the client have callbacks, and the server's application
responds only to calls that were dispatched. -/
def Proper (id : UInt32) (s : Talk β) : TalkStep → Prop
  | .call _ _ _ | .ping _ => s.made.length + 1 < 65536
  | .pingEnd r => ∃ seqno, s.made[r]? = some (some (pingMsg seqno))
  | .other e => s.net.Holds id e ∧ Plain id e ∧ ∀ op, e = .serve op → s.net.server.Responds id op

/-- The callback of request `k` is in the pool. -/
def Waits (id : UInt32) (s : Talk β) (k : Nat) : Prop :=
  ∃ seqno p, (s.net.client id).client.pending seqno = some p ∧ p.callback = some k

/-- Callbacks are called once, calls get replies that the server sent to them, and replies that came
are not waited for. -/
structure Answered (id : UInt32) (s : Talk β) : Prop where
  once : (s.calls.map Prod.fst).Nodup
  own : ∀ k f, (k, some f) ∈ s.calls → ∃ msg, s.made[k]? = some (some msg) ∧
    (msg.msgType = MsgType.rpcRequest →
      (∃ g ∈ (conn s.net.server.log id).frames, msg.Reads g) ∧
      ∃ reply ∈ sentOk (s.net.server.sendsTo id), reply.Reads f ∧ reply.tag = msg.tag)
  settled : s.net.down id = [] → ∀ k msg, s.made[k]? = some (some msg) →
    msg.msgType = MsgType.rpcRequest →
    (∃ reply ∈ sentOk (s.net.server.sendsTo id), reply.tag = msg.tag) → ¬ s.Waits id k

/-! ### The invariant -/

/-- A message as a request with a callback. -/
def request (msg : Message) : Request := ⟨msg.msgType, msg.seqno, true⟩

def requests (made : List (Option Message)) : List (Option Request) := made.map (Option.map request)

/-- What every step keeps. -/
structure Inv (id : UInt32) (s : Talk β) : Prop where
  linked : s.net.Linked id
  caused : s.net.server.RpcCaused id
  journal : ∃ ended, Journal (requests s.made) s.calls ended (s.net.client id)
  made : ∀ msg ∈ sentOk (s.net.client id).sends, msg.msgType = MsgType.rpcRequest →
    ∃ k : Nat, s.made[k]? = some (some msg)

variable {s : Talk β} {made : List (Option Message)}

theorem sent_requests {k : Nat} {req : Request} :
    Exchange.sent (requests made) k = some req ↔
      ∃ msg, made[k]? = some (some msg) ∧ request msg = req := by
  simp only [Exchange.sent, requests, List.getElem?_map, Option.join_eq_some_iff,
    Option.map_eq_some_iff]
  constructor
  · rintro ⟨o, ho, msg, rfl, hreq⟩
    exact ⟨msg, ho, hreq⟩
  · rintro ⟨msg, hmsg, hreq⟩
    exact ⟨some msg, hmsg, msg, rfl, hreq⟩

/-- Where an RPC reply that the client has dispatched comes from. -/
theorem Inv.origin (h : s.Inv id) {f : Frame} (hf : f ∈ (s.net.client id).conn.frames)
    (ht : getMsgType f = MsgType.rpcRequest) :
    ∃ (k : Nat) (msg : Message), s.made[k]? = some (some msg) ∧ f.tag = msg.tag ∧
      (∃ g ∈ (conn s.net.server.log id).frames, msg.Reads g) ∧
      ∃ reply ∈ sentOk (s.net.server.sendsTo id), reply.Reads f := by
  obtain ⟨hup, hdown⟩ := h.linked.delivers
  obtain ⟨reply, hreply, hreads⟩ := hdown.sent hf
  obtain ⟨o, ho, rfl⟩ := mem_of_mem_sentOk hreply
  obtain ⟨g, hg, htag⟩ := h.caused o ho (hreads.1.symm.trans ht)
  obtain ⟨msg, hmsg, hreads'⟩ := hup.sent hg
  have htags : f.tag = msg.tag := hreads.tag_eq.trans (htag.symm.trans hreads'.tag_eq)
  have hrpc : msg.msgType = MsgType.rpcRequest := (congrArg Prod.fst htags).symm.trans ht
  obtain ⟨k, hk⟩ := h.made msg hmsg hrpc
  exact ⟨k, msg, hk, htags, ⟨g, hg, hreads'⟩, o.1, hreply, hreads⟩

theorem Inv.answered (h : s.Inv id) : s.Answered id := by
  obtain ⟨ended, hj⟩ := h.journal
  refine ⟨hj.book.valid.called_nodup, fun k f hmem => ?_, fun hnil k msg hk hrpc hex hwait => ?_⟩
  · obtain ⟨⟨req, hreq, hseqno, htype⟩, hf⟩ := hj.own k f hmem
    obtain ⟨msg, hk, rfl⟩ := sent_requests.1 hreq
    refine ⟨msg, hk, fun hrpc => ?_⟩
    obtain ⟨k', msg', hk', htag, hg, reply, hreply, hreads⟩ := h.origin hf (htype hrpc)
    -- The request that the reply comes from has the sequence number of request `k`.
    have hsame : k' = k := by
      refine hj.book.seqno_inj (sent_requests.2 ⟨msg', hk', rfl⟩) hreq rfl rfl ?_
      exact (congrArg Prod.snd htag).symm.trans hseqno
    subst hsame
    obtain rfl : msg' = msg := Option.some.inj (Option.some.inj (hk'.symm.trans hk))
    exact ⟨hg, reply, hreply, hreads, hreads.tag_eq.symm.trans htag⟩
  · obtain ⟨reply, hreply, htag⟩ := hex
    obtain ⟨seqno, p, hp, hcb⟩ := hwait
    have hdown := h.linked.delivers.2
    rw [hnil] at hdown
    obtain ⟨f, hf, hreads⟩ := hdown.arrived hreply
    have htags : f.tag = msg.tag := hreads.tag_eq.trans htag
    have hnone := hj.settled f hf ((congrArg Prod.fst htags).trans hrpc)
    obtain ⟨k', req, hcb', hk', -, hs, -⟩ := hj.book.entry hp
    obtain rfl := Option.some.inj (hcb'.symm.trans hcb)
    obtain ⟨msg', hmsg', rfl⟩ := sent_requests.1 hk'
    obtain rfl : msg' = msg := Option.some.inj (Option.some.inj (hmsg'.symm.trans hk))
    rw [show getSeqno f = seqno from (congrArg Prod.snd htags).trans hs, hp] at hnone
    cases hnone

/-! ### What clients send -/

section Sends

variable {net : Nat → Nat → SendStep} {w w' w'' : ClientWorld Nat} {msgType : UInt8}
  {url data : Option Ref} {timeoutMs : Nat}

theorem sentOk_send (net : Nat → Nat → SendStep) (w : ClientWorld Nat) (msg : Message) :
    sentOk (w.send net msg).1.sends =
      sentOk w.sends ++ if (w.send net msg).2 then [msg] else [] := by
  rw [ClientWorld.sends_send, sentOk_append]
  rfl

theorem sentOk_requestPending (ftype : FType) (k : Nat) :
    sentOk (w.requestPending net ftype msgType url data k timeoutMs).1.sends =
      sentOk w.sends ++ ((w.requestPending net ftype msgType url data k timeoutMs).2.map
        fun seqno => ⟨msgType, 0, seqno, url, data⟩).toList := by
  unfold ClientWorld.requestPending
  rcases w.client.allocPendingIndex with _ | ⟨index, c⟩
  · simp
  · simp only
    have hsent := sentOk_send net (w.setClient (c.register index ftype k timeoutMs))
      ⟨msgType, 0, c.seqno, url, data⟩
    split_ifs with hok
    · rw [hsent, if_pos hok]
      rfl
    · show sentOk ((w.setClient _).send net _).1.sends = _
      rw [hsent, if_neg hok]
      rfl

theorem sentOk_requestEx (k : Nat) :
    sentOk (w.requestEx net msgType url data (some k) timeoutMs).1.sends =
      sentOk w.sends ++ ((w.requestEx net msgType url data (some k) timeoutMs).2.map
        fun seqno => ⟨msgType, 0, seqno, url, data⟩).toList := by
  unfold ClientWorld.requestEx
  split_ifs
  · exact sentOk_requestPending .res k
  · simp

theorem sentOk_callEx (url : Bytes) (data : Option Ref) (k : Nat) :
    sentOk (w.callEx net url data (some k) timeoutMs).1.sends =
      sentOk w.sends ++ ((w.callEx net url data (some k) timeoutMs).2.map
        (callMsg url data)).toList := by
  unfold ClientWorld.callEx
  split_ifs
  · exact sentOk_requestPending .rpc k
  · simp

/-- The client goes on without a call, and its journal is kept. -/
structure Goes (w w' : ClientWorld Nat) : Prop where
  journals : ∀ reqs, Exchange.Journals reqs w w'
  rpc : ∀ msg ∈ sentOk w'.sends, msg.msgType = MsgType.rpcRequest → msg ∈ sentOk w.sends

theorem Goes.refl (w : ClientWorld Nat) : Goes w w := ⟨fun _ => .refl w, fun _ h _ => h⟩

theorem Goes.trans (h : Goes w w') (h' : Goes w' w'') : Goes w w'' :=
  ⟨fun reqs => (h.journals reqs).trans (h'.journals reqs),
    fun msg hmsg ht => h.rpc msg (h'.rpc msg hmsg ht) ht⟩

theorem Goes.of_mute (hj : ∀ reqs, Exchange.Journals reqs w w') (hm : ClientWorld.Mute w w') :
    Goes w w' :=
  ⟨hj, fun _ hmsg _ => hm.sends ▸ hmsg⟩

theorem goes_send {msg : Message} (hmsg : msg.msgType ≠ MsgType.rpcRequest) :
    Goes w (w.send net msg).1 := by
  refine ⟨fun _ => Exchange.journals_send net msg, fun m hm ht => ?_⟩
  rw [sentOk_send] at hm
  rcases List.mem_append.1 hm with hm | hm
  · exact hm
  · split_ifs at hm
    · obtain rfl := List.mem_singleton.1 hm
      exact absurd ht hmsg
    · cases hm

theorem goes_local {op : ClientOp Nat} (hlocal : op.Local)
    (hplain : ∀ url data k t, op ≠ .call url data k t) : Goes w (w.step net op) := by
  by_cases hcall : op.isCall = true
  · refine ClientWorld.call_keeps hcall
      (fun _ => .of_mute (fun _ => Exchange.journals_setClient rfl rfl)
        (ClientWorld.mute_setClient rfl))
      (fun {v} ftype msgType url data callback timeoutMs hreq hv => ?_)
      (fun msg hmsg => goes_send (by rw [hmsg]; decide)) (.refl w)
    rcases hreq with ⟨url, data, k, t, hop⟩ | ⟨hne, rfl⟩
    · exact absurd hop (hplain url data k t)
    · have hprep : Goes v (v.setClient v.client.prepareSeqno.2) :=
        .of_mute (fun _ => Exchange.journals_prepareSeqno)
          (ClientWorld.mute_of_link SsnClient.link_prepareSeqno)
      exact (hv.trans hprep).trans (goes_send hne)
  cases op with
  | connect timeoutMs run => exact hlocal.elim
  | sendTimeout timeoutMs outcome => exact hlocal.elim
  | ping k timeoutMs polls => exact hlocal.elim
  | disconnect =>
    exact .of_mute (fun _ => Exchange.journals_disconnect) ClientWorld.mute_disconnect
  | poll outcome =>
    exact .of_mute (fun _ => Exchange.journals_poll outcome) (ClientWorld.mute_poll outcome)
  | timerSweep =>
    exact .of_mute (fun _ => Exchange.journals_timerSweep) (ClientWorld.mute_setClient rfl)
  | _ => exact absurd rfl hcall

end Sends

/-! ### Steps -/

theorem goes_step (cnet : UInt32 → Nat → Nat → SendStep) (snet : Nat → Nat → SendStep)
    {net : Network Nat β} {e : NetworkStep Nat} (hold : net.Holds id e) (hplain : Plain id e) :
    Goes (net.client id) ((net.step cnet snet e).client id) := by
  cases e with
  | serve op => exact .refl _
  | deliver id' n =>
    simp only [Network.step]
    split <;> exact .refl _
  | call id' op =>
    rw [Network.step, Network.client_setClient]
    split_ifs with hid
    · subst hid
      have hcall : ∀ url data k t, op ≠ .call url data k t := by
        rintro url data k t rfl
        exact hplain rfl
      exact goes_local (hold rfl) hcall
    · exact .refl _
  | ping id' k timeoutMs =>
    rw [Network.step, Network.client_setClient, if_neg hplain]
    exact .refl _
  | pingEnd id' seqno =>
    rw [Network.step, Network.client_setClient, if_neg hplain]
    exact .refl _
  | receive id' n =>
    rw [Network.step, Network.client_setClient]
    split_ifs with hid
    · subst hid
      exact .of_mute (fun _ => Exchange.journals_poll _) (ClientWorld.mute_poll _)
    · exact .refl _

theorem calls_advance {net : Network Nat β} {cs : List (Nat × Option Frame)}
    (h : (s.net.client id).Calls (net.client id) cs) :
    (s.advance id net).calls = s.calls ++ cs := by
  rw [advance, h.callsSince_eq]

theorem caused_step (cnet : UInt32 → Nat → Nat → SendStep) (snet : Nat → Nat → SendStep)
    {net : Network Nat β} {e : NetworkStep Nat} (ht : net.server.TableOk)
    (h : net.server.RpcCaused id) (he : ∀ op, e = .serve op → net.server.Responds id op) :
    (net.step cnet snet e).server.RpcCaused id := by
  rw [Network.server_step]
  cases hop : net.serverOp e with
  | none => exact h
  | some op =>
    refine h.step snet ht ?_
    cases e with
    | serve op' =>
      obtain rfl := Option.some.inj hop
      exact he op' rfl
    | deliver id' n =>
      obtain ⟨r, -, rfl⟩ := Option.map_eq_some_iff.1 hop
      exact trivial
    | _ => cases hop

theorem Inv.requested (h : s.Inv id) {e : NetworkStep Nat} (cnet : UInt32 → Nat → Nat → SendStep)
    (snet : Nat → Nat → SendStep) {msg : UInt16 → Message} {entry : Pending Nat}
    {out : ClientWorld Nat × Option UInt16} (hreq : (s.net.client id).Requested (some entry) out)
    (hsteady : ClientWorld.Steady (s.net.client id) out.1)
    (hstep : s.net.step cnet snet e = s.net.setClient id out.1) (hold : s.net.Holds id e)
    (hentry : entry.callback = some s.made.length ∧
      ∀ seqno, ClientWorld.replyFType (msg seqno).msgType = some entry.ftype)
    (hmsg : ∀ seqno, (msg seqno).seqno = seqno ∧ (msg seqno).msgType = (msg 0).msgType)
    (hsends : sentOk out.1.sends = sentOk (s.net.client id).sends ++ (out.2.map msg).toList)
    (hlen : s.made.length + 1 < 65536) : (s.requested id msg out).Inv id := by
  obtain ⟨ended, hj⟩ := h.journal
  have hclient : (s.net.setClient id out.1).client id = out.1 := by
    rw [Network.client_setClient, if_pos rfl]
  have hreqs : (requests s.made).length = s.made.length := List.length_map ..
  -- No reply came for a request that is not made yet.
  have hnew : ∀ f ∈ (s.net.client id).conn.frames, getMsgType f = MsgType.rpcRequest →
      getSeqno f ≠ (s.net.client id).client.seqno := by
    intro f hf ht heq
    obtain ⟨k, m, hk, htag, -⟩ := h.origin hf ht
    have hlt := hj.book.seqno_lt (sent_requests.2 ⟨m, hk, rfl⟩) rfl
    rw [show (request m).seqno = getSeqno f from (congrArg Prod.snd htag).symm, heq] at hlt
    exact Nat.lt_irrefl _ hlt
  obtain ⟨hcalls, hj'⟩ := hj.request hreq hsteady.conn
    ⟨by rw [hreqs]; exact hentry.1, hentry.2 0⟩ (by rwa [hreqs]) hnew
  have hnewcalls : (s.requested id msg out).calls = s.calls := by
    show (s.advance id (s.net.setClient id out.1)).calls = s.calls
    rw [← hclient] at hcalls
    rw [calls_advance hcalls, List.append_nil]
  have hmade : requests (s.made ++ [out.2.map msg]) =
      requests s.made ++ [out.2.map fun seqno => ⟨(msg 0).msgType, seqno, true⟩] := by
    rw [requests, List.map_append, List.map_cons, List.map_nil, Option.map_map]
    refine congrArg (fun g => requests s.made ++ [out.2.map g]) (funext fun seqno => ?_)
    show Request.mk (msg seqno).msgType (msg seqno).seqno true = _
    rw [(hmsg seqno).1, (hmsg seqno).2]
  refine ⟨?_, h.caused, ⟨ended, ?_⟩, ?_⟩
  · show (s.net.setClient id out.1).Linked id
    rw [← hstep]
    exact h.linked.step cnet snet s.net e hold
  · show Journal (requests (s.made ++ [out.2.map msg])) (s.requested id msg out).calls ended
      ((s.net.setClient id out.1).client id)
    rw [hnewcalls, hclient, hmade]
    exact hj'
  · show ∀ m ∈ sentOk ((s.net.setClient id out.1).client id).sends, _ → ∃ k : Nat,
      (s.made ++ [out.2.map msg])[k]? = some (some m)
    rw [hclient, hsends]
    intro m hm hrpc
    rcases List.mem_append.1 hm with hm | hm
    · obtain ⟨k, hk⟩ := h.made m hm hrpc
      exact ⟨k, List.getElem?_append_left (List.getElem?_eq_some_iff.1 hk).1 |>.trans hk⟩
    · refine ⟨s.made.length, ?_⟩
      rw [List.getElem?_concat_length, Option.mem_toList.1 hm]

theorem Inv.advance (h : s.Inv id) {net : Network Nat β} (hlinked : net.Linked id)
    (hcaused : net.server.RpcCaused id) (hgoes : Goes (s.net.client id) (net.client id)) :
    (s.advance id net).Inv id := by
  obtain ⟨ended, hj⟩ := h.journal
  obtain ⟨cs, ended', hcalls, hj'⟩ := hgoes.journals _ _ _ hj
  refine ⟨hlinked, hcaused, ⟨ended', ?_⟩, fun msg hmsg ht => h.made msg (hgoes.rpc msg hmsg ht) ht⟩
  rw [calls_advance hcalls]
  exact hj'

/-- **Every step keeps the talk in order.** -/
theorem Inv.step (cnet : UInt32 → Nat → Nat → SendStep) (snet : Nat → Nat → SendStep)
    (s : Talk β) (e : TalkStep) (h : s.Inv id) (hproper : s.Proper id e) :
    (s.step cnet snet id e).Inv id := by
  obtain ⟨ended, hj⟩ := h.journal
  -- Calls and pings are requests with a callback; a ping that ends only takes its entry out.
  cases e with
  | call url data timeoutMs =>
    have hlocal : (ClientOp.call url data (some s.made.length) timeoutMs).Local := trivial
    refine h.requested (e := .call id (.call url data (some s.made.length) timeoutMs)) cnet snet
      (ClientWorld.callEx_spec url (some s.made.length) hj.book.wf fun _ => hj.book.seqnoFree)
      (ClientWorld.steady_step hlocal) rfl (fun _ => trivial) ⟨rfl, fun _ => rfl⟩
      (fun _ => ⟨rfl, rfl⟩) (sentOk_callEx url data _) hproper
  | ping timeoutMs =>
    exact h.requested (e := .ping id s.made.length timeoutMs) cnet snet
      (ClientWorld.requestEx_spec (some s.made.length) hj.book.wf fun _ => hj.book.seqnoFree)
      (ClientWorld.steady_requestEx _) rfl trivial ⟨rfl, fun _ => rfl⟩ (fun _ => ⟨rfl, rfl⟩)
      (sentOk_requestEx _) hproper
  | pingEnd r =>
    obtain ⟨seqno, hr⟩ := hproper
    obtain ⟨hcalls, hj'⟩ := hj.pingEnd (sent_requests.2 ⟨_, hr, rfl⟩) rfl
    have hstep : s.step cnet snet id (.pingEnd r) =
        s.advance id (s.net.step cnet snet (.pingEnd id seqno)) := by
      simp only [Talk.step, hr, Option.join_some, pingMsg]
    have hclient : (s.net.step cnet snet (.pingEnd id seqno)).client id =
        (s.net.client id).pingCancel seqno := by
      rw [Network.step, Network.client_setClient, if_pos rfl]
    replace hcalls : (s.net.client id).Calls ((s.net.client id).pingCancel seqno) [] := hcalls
    rw [← hclient] at hcalls
    rw [hstep]
    refine ⟨h.linked.step cnet snet s.net (.pingEnd id seqno) trivial, h.caused,
      ⟨ended ++ [r], ?_⟩, ?_⟩
    · rw [calls_advance hcalls, List.append_nil]
      show Journal (requests s.made) s.calls (ended ++ [r])
        ((s.net.step cnet snet (.pingEnd id seqno)).client id)
      rw [hclient]
      exact hj'
    · show ∀ msg ∈ sentOk ((s.net.step cnet snet (.pingEnd id seqno)).client id).sends, _
      rw [hclient, (ClientWorld.mute_pingCancel seqno).sends]
      exact h.made
  | other e =>
    obtain ⟨hold, hplain, hresp⟩ := hproper
    exact h.advance (h.linked.step cnet snet s.net e hold)
      (caused_step cnet snet h.linked.table h.caused hresp) (goes_step cnet snet hold hplain)

/-! ### Runs -/

/-- Requests are numbered from the client's counter on, and so far nobody was called. -/
def start (id : UInt32) (net : Network Nat β) : Talk β :=
  ⟨net, List.replicate (net.client id).client.seqno.toNat none, []⟩

/-- The connection is made, no request is pending and no call was made on it. -/
structure Begins (cnet : UInt32 → Nat → Nat → SendStep) (snet : Nat → Nat → SendStep)
    (id : UInt32) (net : Network Nat β) : Prop where
  established : net.Established cnet snet id
  inUse : ∀ i, (net.client id).client.inUse i = false
  index : ∀ seqno, (net.client id).client.seqnoToIndex seqno = noIndex
  calls : ∀ msg ∈ sentOk (net.client id).sends, msg.msgType ≠ MsgType.rpcRequest
  responses : ∀ o ∈ net.server.sendsTo id, o.1.msgType ≠ MsgType.rpcRequest

theorem book_idle {c : SsnClient Nat} (hin : ∀ i, c.inUse i = false)
    (hindex : ∀ seqno, c.seqnoToIndex seqno = noIndex) :
    Exchange.Book c (requests (List.replicate c.seqno.toNat none)) [] [] := by
  have hpend (seqno : UInt16) : c.pending seqno = none := by
    rw [SsnClient.pending, SsnClient.getPendingSnapshot]
    simp [hindex]
  have hsent {k : Nat} {req : Request}
      (h : Exchange.sent (requests (List.replicate c.seqno.toNat none)) k = some req) : False := by
    obtain ⟨msg, hmsg, -⟩ := sent_requests.1 h
    obtain ⟨hlt, heq⟩ := List.getElem?_eq_some_iff.1 hmsg
    rw [List.getElem_replicate] at heq
    cases heq
  have hflight {s : UInt16} {k : Nat} (h : (Exchange.ledger c
      (requests (List.replicate c.seqno.toNat none)) [] []).flight s = some k) : False := by
    simp [Exchange.ledger, hpend] at h
  refine ⟨⟨fun i hi => ?_, fun s hs => absurd (hindex s) hs⟩, ?_, fun hp => ?_,
    fun hk => (hsent hk).elim, fun hk => (hsent hk).elim, ?_, fun hk => (hsent hk).elim⟩
  · rw [hin] at hi
    cases hi
  · exact ⟨fun h => (hflight h).elim, fun h => (hflight h).elim, fun h => (hflight h).elim,
      fun h => absurd h (by simp [Exchange.ledger]), fun h => absurd h (by simp [Exchange.ledger]),
      List.nodup_nil, fun h => h.elim fun _ hk => (hsent hk.1).elim⟩
  · rw [hpend] at hp
    cases hp
  · simp [requests]

theorem Begins.inv {cnet : UInt32 → Nat → Nat → SendStep} {snet : Nat → Nat → SendStep}
    {net : Network Nat β} (h : Begins cnet snet id net) : (start id net).Inv id := by
  have hbook := book_idle h.inUse h.index
  refine ⟨h.established.linked, fun o ho ht => absurd ht (h.responses o ho),
    ⟨[], hbook, fun k f hmem => ?_, fun f _ _ => ?_⟩,
    fun msg hmsg ht => absurd ht (h.calls msg hmsg)⟩
  · cases hmem
  · show (net.client id).client.pending (getSeqno f) = none
    rw [SsnClient.pending, SsnClient.getPendingSnapshot]
    simp [h.index]

end Talk

end Ssn
