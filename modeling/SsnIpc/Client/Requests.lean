import SsnIpc.Client.Pending

/-!
# Requests, replies and the pool

What the operations of a client do to its pool, seen as a map from sequence numbers to pending
requests, and which pending callbacks they call: one specification for each operation
(`Requested`, `Replied`, `pingCancel_spec`).
-/

namespace Ssn

open ByteMem

variable {κ : Type*} {net : Nat → Nat → SendStep} {w w' w'' : ClientWorld κ}

/-! ## Calls in the log -/

def ClientEvent.call? : ClientEvent κ → Option (κ × Option Frame)
  | .called k reply => some (k, reply)
  | _ => none

namespace ClientWorld

def callsSince (w w' : ClientWorld κ) : List (κ × Option Frame) :=
  (w'.log.drop w.log.length).filterMap ClientEvent.call?

/-- The log grows, and `cs` are the calls in what is new. -/
def Calls (w w' : ClientWorld κ) (cs : List (κ × Option Frame)) : Prop :=
  ∃ es, w'.log = w.log ++ es ∧ es.filterMap ClientEvent.call? = cs

theorem Calls.of_log (h : w'.log = w.log) : Calls w w' [] := ⟨[], by simp [h], rfl⟩

theorem calls_emit (e : ClientEvent κ) : Calls w (w.emit e) e.call?.toList := by
  refine ⟨[e], rfl, ?_⟩
  cases h : e.call? <;> simp [h]

theorem Calls.trans {cs cs' : List (κ × Option Frame)} (h : Calls w w' cs)
    (h' : Calls w' w'' cs') : Calls w w'' (cs ++ cs') := by
  obtain ⟨es, hes, rfl⟩ := h
  obtain ⟨es', hes', rfl⟩ := h'
  exact ⟨es ++ es', by rw [hes', hes, List.append_assoc], List.filterMap_append⟩

theorem Calls.callsSince_eq {cs : List (κ × Option Frame)} (h : Calls w w' cs) :
    w.callsSince w' = cs := by
  obtain ⟨es, hes, rfl⟩ := h
  rw [callsSince, hes, List.drop_left]

/-! ## Requests -/

/-- What a request that wants `entry` in the pool does to it, and the sequence number it reports. -/
inductive RequestOutcome (c c' : SsnClient κ) (entry : Option (Pending κ)) : Option UInt16 → Prop
  | failed : c'.pending = c.pending → c'.seqno = c.seqno ∨ c'.seqno = c.seqno + 1 →
      RequestOutcome c c' entry none
  | plain (seqno : UInt16) : entry = none → c'.pending = c.pending → c'.seqno = c.seqno →
      RequestOutcome c c' entry (some seqno)
  | registered (p : Pending κ) : entry = some p →
      c'.pending = Function.update c.pending c.seqno (some p) → c'.seqno = c.seqno + 1 →
      RequestOutcome c c' entry (some c.seqno)

/-- A request calls nobody, and the pool stays well formed. -/
structure Requested (w : ClientWorld κ) (entry : Option (Pending κ))
    (out : ClientWorld κ × Option UInt16) : Prop where
  calls : Calls w out.1 []
  wf : out.1.client.Wf
  outcome : RequestOutcome w.client out.1.client entry out.2

theorem send_spec {msg : Message} {ok : Bool} (h : w.send net msg = (w', ok)) :
    Calls w w' [] ∧ w'.client.pool = w.client.pool ∧ w'.client.seqno = w.client.seqno := by
  obtain ⟨rfl, -⟩ := Prod.mk.inj h
  exact ⟨calls_emit (w := w) (.sent msg _), rfl, rfl⟩

/-- The entry of a request with a callback. -/
def entryOf (w : ClientWorld κ) (ftype : FType) (callback : Option κ) (timeoutMs : Nat) :
    Option (Pending κ) :=
  callback.map fun k => ⟨w.client.seqno, UInt32.ofNat timeoutMs, ftype, some k⟩

section Request

variable {ftype : FType} {msgType : UInt8} {url data : Option Ref} {timeoutMs : Nat}

theorem requested_none {entry : Option (Pending κ)} (h : w.client.Wf) :
    Requested w entry (w, none) :=
  ⟨.of_log rfl, h, .failed rfl (.inl rfl)⟩

theorem requestPlain_spec (h : w.client.Wf) :
    Requested w none (w.requestPlain net msgType url data) := by
  unfold requestPlain
  rcases hp : w.client.prepareSeqno with ⟨seqno, c⟩
  obtain ⟨hpool, hseqno⟩ : c.pool = w.client.pool ∧ c.seqno = w.client.seqno := by
    obtain rfl : _ = c := congrArg Prod.snd hp
    unfold SsnClient.prepareSeqno
    split_ifs <;> exact ⟨rfl, rfl⟩
  rcases hsend : (w.setClient c).send net ⟨msgType, 0, seqno, url, data⟩ with ⟨w', ok⟩
  obtain ⟨hcalls, hpool', hseqno'⟩ := send_spec hsend
  have hpend := SsnClient.pending_of_pool (hpool'.trans hpool)
  simp only [hsend]
  refine ⟨hcalls, h.of_pool (hpool'.trans hpool), ?_⟩
  split_ifs
  · exact .plain seqno rfl hpend (hseqno'.trans hseqno)
  · exact .failed hpend (.inl (hseqno'.trans hseqno))

theorem requestPending_spec (k : κ) (h : w.client.Wf) (hf : w.client.SeqnoFree) :
    Requested w (w.entryOf ftype (some k) timeoutMs)
      (w.requestPending net ftype msgType url data k timeoutMs) := by
  unfold requestPending
  rcases ha : w.client.allocPendingIndex with _ | ⟨index, c⟩
  · exact requested_none h
  have hs := hf.pending h ha
  have hseqno : c.seqno = w.client.seqno := by rw [(SsnClient.allocPendingIndex_spec ha).2.2]
  rcases hsend : (w.setClient (c.register index ftype k timeoutMs)).send net
    ⟨msgType, 0, c.seqno, url, data⟩ with ⟨w', ok⟩
  obtain ⟨hcalls, hpool, hseqno'⟩ := send_spec hsend
  have hwf := (h.register hs ha).of_pool hpool
  have hpend := (SsnClient.pending_of_pool hpool).trans (SsnClient.pending_register h hs ha)
  have hnext : w'.client.seqno = w.client.seqno + 1 := hseqno'.trans (congrArg (· + 1) hseqno)
  simp only [hsend]
  split_ifs
  · rw [hseqno]
    exact ⟨hcalls, hwf, .registered _ rfl hpend hnext⟩
  · -- The slot taken is freed again.
    have huse : w'.client.inUse index = true := by
      rw [SsnClient.inUse_of_pool hpool]
      exact (SsnClient.inUse_register ha index).trans (by simp)
    have hslot : (w'.client.pendingPool index).seqno = w.client.seqno := by
      rw [show w'.client.pendingPool = _ from
        (congrArg Prod.fst hpool).trans (SsnClient.register_pool ha).1, Function.update_self]
    refine ⟨hcalls, hwf.freePendingIndex huse, .failed ?_ (.inr ?_)⟩
    · refine (SsnClient.pending_freePendingIndex hwf huse).trans ?_
      rw [hslot, hpend, Function.update_idem]
      exact Function.update_eq_self_iff.2 hs.symm
    · exact (SsnClient.seqno_freePendingIndex index).trans hnext

theorem requestWith_spec (callback : Option κ) (h : w.client.Wf)
    (hf : callback.isSome = true → w.client.SeqnoFree) :
    Requested w (w.entryOf ftype callback timeoutMs)
      (w.requestWith net ftype msgType url data callback timeoutMs) := by
  cases callback with
  | none => exact requestPlain_spec h
  | some k => exact requestPending_spec k h (hf rfl)

theorem requestEx_spec (callback : Option κ) (h : w.client.Wf)
    (hf : callback.isSome = true → w.client.SeqnoFree) :
    Requested w (w.entryOf .res callback timeoutMs)
      (w.requestEx net msgType url data callback timeoutMs) := by
  unfold requestEx
  split_ifs
  · exact requestWith_spec callback h hf
  · exact requested_none h

theorem callEx_spec (url : Bytes) (callback : Option κ) (h : w.client.Wf)
    (hf : callback.isSome = true → w.client.SeqnoFree) :
    Requested w (w.entryOf .rpc callback timeoutMs)
      (w.callEx net url data callback timeoutMs) := by
  unfold callEx
  split_ifs
  · exact requestWith_spec callback h hf
  · exact requested_none h

theorem Requested.of_handlers {entry : Option (Pending κ)} {out : ClientWorld κ × Option UInt16}
    (hs : List (SubHandler κ))
    (h : Requested (w.setClient { w.client with subHandlers := hs }) entry out) :
    Requested w entry out := by
  obtain ⟨hcalls, hwf, hout⟩ := h
  refine ⟨hcalls, hwf, ?_⟩
  generalize out.2 = ret at hout ⊢
  cases hout with
  | failed hp hs => exact .failed hp hs
  | plain seqno he hp hs => exact .plain seqno he hp hs
  | registered p he hp hs => exact .registered p he hp hs

theorem subscribe_spec (url : Bytes) (callback : Option κ) (h : w.client.Wf) :
    Requested w none (w.subscribe net url callback timeoutMs) := by
  unfold subscribe
  split_ifs
  · refine .of_handlers _ (requestEx_spec none (h.of_pool ?_) nofun)
    rfl
  · exact requested_none h

theorem unsubscribe_spec (url : Bytes) (h : w.client.Wf) :
    Requested w none (w.unsubscribe net url timeoutMs) := by
  unfold unsubscribe
  split_ifs
  · refine .of_handlers _ (requestEx_spec none (h.of_pool ?_) nofun)
    rfl
  · exact requested_none h

end Request

/-! ## Replies -/

def replyFType (msgType : UInt8) : Option FType :=
  if msgType = MsgType.subscribe ∨ msgType = MsgType.unsubscribe ∨ msgType = MsgType.pingEcho then
    some .res
  else if msgType = MsgType.rpcRequest then some .rpc
  else none

/-- The call that a reply makes on the pending request of its sequence number. -/
def replyCall (f : Frame) (p : Pending κ) : Option (κ × Option Frame) :=
  if replyFType (getMsgType f) = some p.ftype then p.callback.map (·, some f) else none

/-- A frame that is looked up in the pool. -/
def IsReply (f : Frame) : Prop :=
  getMsgType f ≠ MsgType.publish ∧ getMsgType f ≠ MsgType.message

theorem input_reply {f : Frame} (hf : IsReply f) :
    w.input f = (w.emit (.input f)).handlePendingReply f := by
  rw [input, if_neg hf.1, if_neg hf.2]

theorem input_not_reply {f : Frame} (hf : ¬ IsReply f) : (w.input f).client = w.client := by
  unfold input
  simp only
  split_ifs with hpub hmsg
  · unfold handlePublish
    split
    · rfl
    · split <;> rfl
  · unfold handleMessage
    split <;> rfl
  · exact absurd ⟨hpub, hmsg⟩ hf

theorem input_of_none {f : Frame} (hf : IsReply f)
    (hnone : w.client.pending (getSeqno f) = none) : w.input f = w.emit (.input f) := by
  have hsnap : (w.emit (.input f)).client.getPendingSnapshot (getSeqno f) = none :=
    Option.map_eq_none_iff.1 hnone
  rw [input_reply hf, handlePendingReply, hsnap]

theorem handleReply_spec (ftype : FType) (f : Frame) (p : Pending κ) :
    Calls w (w.handleReply ftype f p)
        (if some ftype = some p.ftype then p.callback.map (·, some f) else none).toList ∧
      (w.handleReply ftype f p).client = w.client := by
  unfold handleReply
  cases p.callback with
  | none => exact ⟨by simpa using Calls.of_log rfl, rfl⟩
  | some k =>
    by_cases hft : p.ftype = ftype
    · simp only [hft, if_true]
      exact ⟨calls_emit _, rfl⟩
    · simp only [hft, Option.some_inj, Ne.symm hft, if_false, and_true]
      exact .of_log rfl

/-- What a reply does before the slot is freed. -/
theorem dispatch_spec (f : Frame) (p : Pending κ) :
    let v := if getMsgType f = MsgType.subscribe ∨ getMsgType f = MsgType.unsubscribe ∨
        getMsgType f = MsgType.pingEcho then w.handleResponse f p
      else if getMsgType f = MsgType.rpcRequest then w.handleRpcResponse f p
      else w
    Calls w v (replyCall f p).toList ∧ v.client = w.client := by
  unfold replyCall replyFType
  by_cases hres : getMsgType f = MsgType.subscribe ∨ getMsgType f = MsgType.unsubscribe ∨
      getMsgType f = MsgType.pingEcho
  · simp only [if_pos hres]
    exact handleReply_spec .res f p
  · by_cases hrpc : getMsgType f = MsgType.rpcRequest
    · simp only [if_neg hres, if_pos hrpc]
      exact handleReply_spec .rpc f p
    · simp only [if_neg hres, if_neg hrpc]
      exact ⟨.of_log rfl, trivial⟩

/-- A reply calls the callback of its pending request if that is of the right type, and ends the
request in any case. -/
theorem input_of_some {f : Frame} {p : Pending κ} (hf : IsReply f) (h : w.client.Wf)
    (hp : w.client.pending (getSeqno f) = some p) :
    Calls w (w.input f) (replyCall f p).toList ∧ (w.input f).client.Wf ∧
      (w.input f).client.pending = Function.update w.client.pending (getSeqno f) none ∧
      (w.input f).client.seqno = w.client.seqno := by
  obtain ⟨i, hi, rfl, hseq⟩ := (SsnClient.pending_iff h).1 hp
  have hsnap : (w.emit (.input f)).client.getPendingSnapshot (getSeqno f) =
      some (i, w.client.pendingPool i) := (SsnClient.getPendingSnapshot_iff h).2 ⟨hi, rfl, hseq⟩
  have hemit : Calls w (w.emit (.input f)) [] := calls_emit _
  obtain ⟨hcalls, hclient⟩ := dispatch_spec (w := w.emit (.input f)) f (w.client.pendingPool i)
  rw [input_reply hf, handlePendingReply, hsnap]
  simp only
  refine ⟨hemit.trans hcalls, ?_⟩
  rw [setClient, hclient]
  refine ⟨h.freePendingIndex hi, ?_, SsnClient.seqno_freePendingIndex i⟩
  rw [← hseq]
  exact SsnClient.pending_freePendingIndex h hi

theorem pingCancel_spec (h : w.client.Wf) (s : UInt16) :
    (w.pingCancel s).log = w.log ∧ (w.pingCancel s).client.Wf ∧
      (w.pingCancel s).client.pending = Function.update w.client.pending s none ∧
      (w.pingCancel s).client.seqno = w.client.seqno := by
  unfold pingCancel
  simp only
  split_ifs with hc
  · obtain ⟨hin, hseq⟩ := h.index s hc.1
    refine ⟨rfl, h.freePendingIndex hin, ?_, SsnClient.seqno_freePendingIndex _⟩
    exact (SsnClient.pending_freePendingIndex h hin).trans (by rw [hseq])
  · refine ⟨rfl, h, (Function.update_eq_self_iff.2 ?_).symm, rfl⟩
    rw [eq_comm, Option.eq_none_iff_forall_ne_some]
    intro p hp
    obtain ⟨i, hi, rfl, rfl⟩ := (SsnClient.pending_iff h).1 hp
    obtain ⟨hlt, hidx⟩ := h.slot i hi
    refine hc ⟨?_, by rw [hidx]; exact hi⟩
    simp only [hidx, noIndex, maxPending] at *
    omega

/-! ## Timeouts -/

/-- The call that tells a pending request that there is no reply. -/
def failedCall (p : Pending κ) : Option (κ × Option Frame) :=
  match p.ftype with
  | .unset => none
  | _ => p.callback.map (·, none)

theorem failedCall_of_replyFType {msgType : UInt8} {p : Pending κ}
    (h : replyFType msgType = some p.ftype) : failedCall p = p.callback.map (·, none) := by
  have hset : p.ftype ≠ .unset := by
    intro hunset
    rw [hunset, replyFType] at h
    split_ifs at h <;> cases h
  unfold failedCall
  split
  · exact absurd ‹_› hset
  · rfl

theorem callFailed_spec (p : Pending κ) :
    Calls w (w.callFailed p) (failedCall p).toList ∧ (w.callFailed p).client = w.client := by
  rcases p with ⟨seqno, timeoutMs, _ | _ | _, _ | k⟩
  all_goals first | exact ⟨.of_log rfl, rfl⟩ | exact ⟨calls_emit _, rfl⟩

theorem foldl_callFailed_spec (items : List (Pending κ)) :
    Calls w (items.foldl callFailed w) (items.filterMap failedCall) ∧
      (items.foldl callFailed w).client = w.client := by
  induction items generalizing w with
  | nil => exact ⟨.of_log rfl, rfl⟩
  | cons p items ih =>
    obtain ⟨hcalls, hclient⟩ := callFailed_spec (w := w) p
    obtain ⟨hcalls', hclient'⟩ := ih (w := w.callFailed p)
    rw [List.foldl_cons, hclient', hclient]
    refine ⟨?_, rfl⟩
    convert hcalls.trans hcalls' using 1
    cases h : failedCall p <;> simp [h]

/-- The requests collected are told so, after they have left the pool. -/
theorem collectAndCallPending_spec (onlyTimeout : Bool) :
    Calls w (w.collectAndCallPending onlyTimeout)
        ((w.client.collect onlyTimeout).2.filterMap failedCall) ∧
      (w.collectAndCallPending onlyTimeout).client = (w.client.collect onlyTimeout).1 := by
  rw [collectAndCallPending]
  rcases w.client.collect onlyTimeout with ⟨c, items⟩
  exact foldl_callFailed_spec (w := w.setClient c) items

end ClientWorld

end Ssn
