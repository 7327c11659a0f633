import SsnIpc.Client.Exchange

/-!
# Callbacks through any step

`Exchange.Book` follows the pool of a client through requests and honest replies. Here the books are
carried through whatever else can happen to a client on its connection: publications and messages,
replies of the wrong type or to nothing, bytes that are no frames, timeouts and the end of the
connection. Requests keep their numbers; a request whose slot is taken by a reply of the wrong type
counts as ended.

A journal (`Journal`) adds two things to the books. A callback was called with a frame only if the
frame had the sequence number of its request, and for an RPC request its type. And a sequence number
for which an RPC reply was dispatched is not pending, so a reply that has come is not waited for.
-/

namespace Ssn

open ByteMem

namespace Exchange

variable {requests : List (Option Request)} {calls : List (Nat × Option Frame)} {ended : List Nat}
  {w w' w'' : ClientWorld Nat}

/-- The frame may be the reply to request `k`. -/
def Answers (requests : List (Option Request)) (k : Nat) (f : Frame) : Prop :=
  ∃ req, sent requests k = some req ∧ getSeqno f = req.seqno ∧
    (req.msgType = MsgType.rpcRequest → getMsgType f = MsgType.rpcRequest)

/-- The books are in order, callbacks were called with frames that may be their replies, and no RPC
reply that was dispatched is waited for. -/
structure Journal (requests : List (Option Request)) (calls : List (Nat × Option Frame))
    (ended : List Nat) (w : ClientWorld Nat) : Prop where
  book : Book w.client requests (calls.map Prod.fst) ended
  own : ∀ k f, (k, some f) ∈ calls → Answers requests k f ∧ f ∈ w.conn.frames
  settled : ∀ f ∈ w.conn.frames, getMsgType f = MsgType.rpcRequest →
    w.client.pending (getSeqno f) = none

/-- From a state with a journal to one with the journal that has the new calls. -/
def Journals (requests : List (Option Request)) (w w' : ClientWorld Nat) : Prop :=
  ∀ calls ended, Journal requests calls ended w →
    ∃ cs ended', w.Calls w' cs ∧ Journal requests (calls ++ cs) ended' w'

theorem Journals.refl (w : ClientWorld Nat) : Journals requests w w := by
  intro calls ended h
  exact ⟨[], ended, .of_log rfl, by rwa [List.append_nil]⟩

theorem Journals.trans (h : Journals requests w w') (h' : Journals requests w' w'') :
    Journals requests w w'' := by
  intro calls ended hw
  obtain ⟨cs, ended', hcalls, hj⟩ := h calls ended hw
  obtain ⟨cs', ended'', hcalls', hj'⟩ := h' _ _ hj
  exact ⟨cs ++ cs', ended'', hcalls.trans hcalls', by rwa [← List.append_assoc]⟩

/-! ## Steps that call nobody -/

/-- The pool, the counter and the frames dispatched are as before, and nobody is called. -/
theorem Journals.of_pool (hcalls : w.Calls w' []) (hframes : w'.conn.frames = w.conn.frames)
    (hpool : w'.client.pool = w.client.pool) (hs : w'.client.seqno = w.client.seqno) :
    Journals requests w w' := by
  intro calls ended h
  have hp := SsnClient.pending_of_pool hpool
  refine ⟨[], ended, hcalls, ?_⟩
  rw [List.append_nil]
  refine ⟨h.book.of_pending (h.book.wf.of_pool hpool) hp hs, fun k f hmem => ?_, fun f hf ht => ?_⟩
  · rw [hframes]
    exact h.own k f hmem
  · rw [hp]
    exact h.settled f (hframes ▸ hf) ht

theorem journals_setClient {c : SsnClient Nat} (hpool : c.pool = w.client.pool)
    (hs : c.seqno = w.client.seqno) : Journals requests w (w.setClient c) :=
  .of_pool (.of_log rfl) rfl hpool hs

theorem journals_timerSweep : Journals requests w (w.setClient w.client.timerSweep) := by
  intro calls ended h
  refine ⟨[], ended, .of_log rfl, ?_⟩
  rw [List.append_nil]
  refine ⟨h.book.timerSweep, h.own, fun f hf ht => ?_⟩
  show w.client.timerSweep.pending _ = none
  rw [SsnClient.pending_timerSweep h.book.wf, h.settled f hf ht]
  rfl

theorem journals_send (net : Nat → Nat → SendStep) (msg : Message) :
    Journals requests w (w.send net msg).1 := by
  have hsend : w.send net msg = ((w.send net msg).1, (w.send net msg).2) := rfl
  obtain ⟨hcalls, hpool, hs⟩ := ClientWorld.send_spec hsend
  exact .of_pool hcalls (congrArg Conn.frames (ClientWorld.conn_emit _)) hpool hs

theorem journals_prepareSeqno : Journals requests w (w.setClient w.client.prepareSeqno.2) := by
  have hc : w.client.prepareSeqno.2.pool = w.client.pool ∧
      w.client.prepareSeqno.2.seqno = w.client.seqno := by
    unfold SsnClient.prepareSeqno
    split_ifs <;> exact ⟨rfl, rfl⟩
  exact journals_setClient hc.1 hc.2

/-! ## Timeouts -/

theorem poolInv_notPending (s : UInt16) :
    PoolInv fun c : SsnClient Nat => c.Wf ∧ c.pending s = none where
  of_pool h hp _ := ⟨h.1.of_pool hp, (congrFun (SsnClient.pending_of_pool hp) s).trans h.2⟩
  free {c i} hi h := by
    refine ⟨h.1.freePendingIndex hi, ?_⟩
    rw [SsnClient.pending_freePendingIndex h.1 hi]
    by_cases hs : s = (c.pendingPool i).seqno
    · rw [hs, Function.update_self]
    · rw [Function.update_of_ne hs, h.2]

theorem journals_collectAndCallPending (onlyTimeout : Bool) :
    Journals requests w (w.collectAndCallPending onlyTimeout) := by
  intro calls ended h
  obtain ⟨hcalls, hclient⟩ := ClientWorld.collectAndCallPending_spec (w := w) onlyTimeout
  obtain ⟨hbook, hitems⟩ := h.book.collect onlyTimeout
  have hconn := (ClientWorld.quiet_collectAndCallPending (w := w) onlyTimeout).conn
  refine ⟨_, ended, hcalls, ?_, fun k f hmem => ?_, fun f hf ht => ?_⟩
  · have hfst : ((w.client.collect onlyTimeout).2.filterMap ClientWorld.failedCall).map Prod.fst =
        (w.client.collect onlyTimeout).2.filterMap Pending.callback := by
      rw [List.filterMap_congr hitems, List.map_filterMap]
      refine List.filterMap_congr fun p _ => ?_
      cases p.callback <;> rfl
    rw [List.map_append, hfst, hclient]
    exact hbook
  · rw [hconn]
    rcases List.mem_append.1 hmem with hmem | hmem
    · exact h.own k f hmem
    · -- Who is told of a timeout gets no frame.
      obtain ⟨p, hp, hcall⟩ := List.mem_filterMap.1 hmem
      rw [hitems p hp] at hcall
      obtain ⟨k', -, hk⟩ := Option.map_eq_some_iff.1 hcall
      cases hk
  · rw [hclient]
    have hnone := h.settled f (hconn ▸ hf) ht
    exact ((poolInv_notPending (getSeqno f)).collect onlyTimeout ⟨h.book.wf, hnone⟩).2

theorem journals_timeoutAll : Journals requests w w.timeoutAll :=
  journals_collectAndCallPending false

theorem journals_handleEvent : Journals requests w w.handleEvent := by
  unfold ClientWorld.handleEvent
  split_ifs
  · have hset : Journals requests w (w.setClient { w.client with evtPending := false }) :=
      journals_setClient rfl rfl
    exact hset.trans (journals_collectAndCallPending true)
  · exact .refl w

theorem journals_connectionLost : Journals requests w w.connectionLost := by
  have hset : Journals requests w (w.setClient { w.client with connected := false }) :=
    journals_setClient rfl rfl
  rw [ClientWorld.connectionLost]
  exact hset.trans journals_timeoutAll

theorem journals_disconnect : Journals requests w w.disconnect := by
  unfold ClientWorld.disconnect
  split_ifs
  · have hset : Journals requests w (w.setClient { w.client with
        connected := false
        transport := w.client.transport.map Transport.disconnect }) := journals_setClient rfl rfl
    exact hset.trans journals_timeoutAll
  · exact .refl w

/-! ## Input -/

theorem calls_input_not_reply {f : Frame} (hf : ¬ ClientWorld.IsReply f) :
    w.Calls (w.input f) [] := by
  have hin : w.Calls (w.emit (.input f)) [] := ClientWorld.calls_emit _
  unfold ClientWorld.input
  simp only
  split_ifs with hpub hmsg
  · have hpublish : (w.emit (.input f)).Calls ((w.emit (.input f)).handlePublish f) [] := by
      unfold ClientWorld.handlePublish
      split
      · exact ClientWorld.calls_emit _
      · split
        · exact ClientWorld.calls_emit _
        · exact ClientWorld.calls_emit _
        · exact .of_log rfl
    exact hin.trans hpublish
  · have hmessage : (w.emit (.input f)).Calls ((w.emit (.input f)).handleMessage f) [] := by
      unfold ClientWorld.handleMessage
      split
      · exact ClientWorld.calls_emit _
      · exact .of_log rfl
    exact hin.trans hmessage
  · exact absurd ⟨hpub, hmsg⟩ hf

theorem rpc_of_replyFType {t t' : UInt8} {ftype : FType}
    (h : ClientWorld.replyFType t = some ftype) (h' : ClientWorld.replyFType t' = some ftype)
    (ht : t = MsgType.rpcRequest) : t' = MsgType.rpcRequest := by
  subst ht
  obtain rfl : FType.rpc = ftype := Option.some.inj h
  unfold ClientWorld.replyFType at h'
  split_ifs at h' with hres hrpc
  · cases h'
  · exact hrpc

theorem Journal.reply {f : Frame} {p : Pending Nat} (h : Journal requests calls ended w)
    (hf : ClientWorld.IsReply f) (hp : w.client.pending (getSeqno f) = some p) :
    ∃ cs ended', w.Calls (w.input f) cs ∧ Journal requests (calls ++ cs) ended' (w.input f) := by
  obtain ⟨hcalls, hwf, hpend, hs⟩ := ClientWorld.input_of_some hf h.book.wf hp
  obtain ⟨k, req, hcb, hk, hc, hseq, hft⟩ := h.book.entry hp
  have hframes : (w.input f).conn.frames = w.conn.frames ++ [f] := by
    rw [ClientWorld.conn_input]
    rfl
  have hsettled : ∀ g ∈ (w.input f).conn.frames, getMsgType g = MsgType.rpcRequest →
      (w.input f).client.pending (getSeqno g) = none := by
    intro g hg ht
    rw [hpend]
    by_cases hgf : getSeqno g = getSeqno f
    · rw [hgf, Function.update_self]
    · rw [Function.update_of_ne hgf]
      rw [hframes] at hg
      rcases List.mem_append.1 hg with hg | hg
      · exact h.settled g hg ht
      · exact absurd (congrArg getSeqno (List.mem_singleton.1 hg)) hgf
  have hown : ∀ k f', (k, some f') ∈ calls →
      Answers requests k f' ∧ f' ∈ (w.input f).conn.frames := by
    intro k f' hmem
    rw [hframes]
    exact ⟨(h.own k f' hmem).1, List.mem_append_left _ (h.own k f' hmem).2⟩
  unfold ClientWorld.replyCall at hcalls
  split_ifs at hcalls with hmatch
  · -- The callback is called.
    rw [hcb] at hcalls
    refine ⟨_, ended, hcalls, ?_, fun k' f' hmem => ?_, hsettled⟩
    · rw [List.map_append]
      exact h.book.call hp hcb hwf hpend hs
    · rcases List.mem_append.1 hmem with hmem | hmem
      · exact hown k' f' hmem
      · obtain ⟨rfl, hf'⟩ := Prod.mk.inj (List.mem_singleton.1 hmem)
        obtain rfl := Option.some.inj hf'
        refine ⟨⟨req, hk, hseq.symm, rpc_of_replyFType hft hmatch⟩, ?_⟩
        rw [hframes]
        exact List.mem_append_right _ (List.mem_singleton.2 rfl)
  · -- The reply is of the wrong type, and the request loses its slot.
    refine ⟨[], ended ++ [k], hcalls, ?_, ?_, hsettled⟩
    · rw [List.append_nil]
      exact h.book.drop hk hc hwf (hseq ▸ hpend) hs
    · rw [List.append_nil]
      exact hown

theorem journals_input (f : Frame) : Journals requests w (w.input f) := by
  intro calls ended h
  have hframes : (w.input f).conn.frames = w.conn.frames ++ [f] := by
    rw [ClientWorld.conn_input]
    rfl
  -- A frame that changes no client.
  have hsame (hcalls : w.Calls (w.input f) []) (hclient : (w.input f).client = w.client)
      (hfree : getMsgType f = MsgType.rpcRequest → w.client.pending (getSeqno f) = none) :
      ∃ cs ended', w.Calls (w.input f) cs ∧ Journal requests (calls ++ cs) ended' (w.input f) := by
    refine ⟨[], ended, hcalls, ?_⟩
    rw [List.append_nil]
    refine ⟨hclient ▸ h.book, fun k f' hmem => ?_, fun g hg ht => ?_⟩
    · rw [hframes]
      exact ⟨(h.own k f' hmem).1, List.mem_append_left _ (h.own k f' hmem).2⟩
    · rw [hclient]
      rw [hframes] at hg
      rcases List.mem_append.1 hg with hg | hg
      · exact h.settled g hg ht
      · obtain rfl := List.mem_singleton.1 hg
        exact hfree ht
  by_cases hf : ClientWorld.IsReply f
  · cases hp : w.client.pending (getSeqno f) with
    | some p => exact h.reply hf hp
    | none =>
      have heq := ClientWorld.input_of_none hf hp
      refine hsame ?_ (by rw [heq]; rfl) fun _ => hp
      rw [heq]
      exact ClientWorld.calls_emit _
  · refine hsame (calls_input_not_reply hf) (ClientWorld.input_not_reply hf) fun ht => absurd ?_ hf
    rw [ClientWorld.IsReply, ht]
    decide

theorem journals_feedInput (buf : Bytes) : Journals requests w (w.feedInput buf).1 := by
  have hnote : Journals requests w (w.emit (.received buf)) := by
    refine .of_pool (ClientWorld.calls_emit _) ?_ rfl rfl
    rw [ClientWorld.conn_emit]
    rfl
  have hfed : Journals requests w
      (streamFeed ClientWorld.clientInput w.client.recv buf (w.emit (.received buf))).2.1 :=
    streamFeed_keeps (P := Journals requests w) (fun _ f hv => hv.trans (journals_input f)) _ _ _
      hnote
  exact hfed.trans (journals_setClient rfl rfl)

/-- **A poll keeps the journal, whatever it receives.** -/
theorem journals_poll (outcome : PollOutcome) : Journals requests w (w.poll outcome) :=
  ClientWorld.poll_keeps (P := Journals requests w) (fun h => h.trans journals_handleEvent)
    (fun h => h.trans journals_connectionLost) (fun _ h => h.trans (journals_feedInput _))
    (fun h => h.trans (journals_setClient rfl rfl)) outcome (.refl w)

/-! ## Requests -/

theorem Journal.pingEnd (h : Journal requests calls ended w) {k : Nat} {req : Request}
    (hk : sent requests k = some req) (hc : req.callback = true) :
    w.Calls (w.pingCancel req.seqno) [] ∧
      Journal requests calls (ended ++ [k]) (w.pingCancel req.seqno) := by
  obtain ⟨hlog, hwf, hpend, hs⟩ := ClientWorld.pingCancel_spec h.book.wf req.seqno
  have hconn : (w.pingCancel req.seqno).conn = w.conn := by rw [ClientWorld.conn, hlog]; rfl
  refine ⟨.of_log hlog, h.book.drop hk hc hwf hpend hs, fun k f hmem => ?_, fun f hf ht => ?_⟩
  · rw [hconn]
    exact h.own k f hmem
  · exact ((poolInv_notPending (getSeqno f)).pingCancel req.seqno
      ⟨h.book.wf, h.settled f (hconn ▸ hf) ht⟩).2

/-- A request with a callback, which is the number of the request. `hnew` is that no RPC reply was
dispatched for a request not yet made. -/
theorem Journal.request (h : Journal requests calls ended w) {entry : Pending Nat}
    {out : ClientWorld Nat × Option UInt16} (hreq : w.Requested (some entry) out)
    (hconn : out.1.conn = w.conn) {msgType : UInt8}
    (hentry : entry.callback = some requests.length ∧
      ClientWorld.replyFType msgType = some entry.ftype)
    (hlen : requests.length + 1 < 65536)
    (hnew : ∀ f ∈ w.conn.frames, getMsgType f = MsgType.rpcRequest →
      getSeqno f ≠ w.client.seqno) :
    w.Calls out.1 [] ∧
      Journal (requests ++ [out.2.map fun seqno => ⟨msgType, seqno, true⟩]) calls ended out.1 := by
  refine ⟨hreq.calls, h.book.request hreq ?_ (fun he => by cases he) (fun p hp => ?_) hlen,
    fun k f hmem => ?_, fun f hf ht => ?_⟩
  · rw [hentry.2]
    rfl
  · obtain rfl := Option.some.inj hp
    exact hentry
  · obtain ⟨⟨req, hk, hrest⟩, hf⟩ := h.own k f hmem
    rw [hconn]
    exact ⟨⟨req, sent_concat.2 (.inl hk), hrest⟩, hf⟩
  · rw [hconn] at hf
    have hnone := h.settled f hf ht
    obtain ⟨-, -, hout⟩ := hreq
    generalize out.2 = ret at hout
    cases hout with
    | failed hp hs => rw [hp, hnone]
    | plain seqno he => cases he
    | registered p he hp hs => rw [hp, Function.update_of_ne (hnew f hf ht), hnone]

end Exchange

end Ssn
