import SsnIpc.Server.Answers
import SsnIpc.Server.Writes

/-!
# Acknowledgements

`ssn_server_input` acknowledges SERVICE_INFO, SUBSCRIBE, UNSUBSCRIBE and PING_ECHO itself, and at
once. An RPC request it leaves to the application, unless there is no method for it.

**Theorem (`acks_in_order`).** On every connection of every run, the acknowledgements sent are
those of the frames dispatched: one for each, in order, with its type and sequence number.

If the application responds only to requests that were dispatched on the connection, the RPC
responses carry the sequence numbers of such requests too (`RpcCaused.step`). Both follow from what
a step can do to a connection (`step_keeps`).
-/

namespace Ssn

open ByteMem

variable {β : Type*} {net : Nat → Nat → SendStep} {w w' : World β} {id id' : UInt32}

/-! ## Types and sequence numbers -/

/-- The server acknowledges frames of this type itself. -/
def isAck (t : UInt8) : Bool :=
  t = MsgType.serviceInfo ∨ t = MsgType.subscribe ∨ t = MsgType.unsubscribe ∨ t = MsgType.pingEcho

/-- The type and the sequence number of a message. -/
def Message.tag (msg : Message) : UInt8 × UInt16 := (msg.msgType, msg.seqno)

/-- The type and the sequence number of a frame. -/
def Frame.tag (f : Frame) : UInt8 × UInt16 := (getMsgType f, getSeqno f)

def acks (tags : List (UInt8 × UInt16)) : List (UInt8 × UInt16) := tags.filter fun t => isAck t.1

theorem acks_append (l l' : List (UInt8 × UInt16)) : acks (l ++ l') = acks l ++ acks l' :=
  List.filter_append ..

theorem acks_mono {l l' : List (UInt8 × UInt16)} (h : l <+: l') : acks l <+: acks l' :=
  h.filter _

theorem Message.Reads.tag_eq {msg : Message} {f : Frame} (h : msg.Reads f) : f.tag = msg.tag :=
  Prod.ext h.1 h.2.2.1

namespace World

def acksSent (w : World β) (id : UInt32) : List (UInt8 × UInt16) :=
  acks ((w.sendsTo id).map fun s => s.1.tag)

/-- The frames dispatched on it that are to be acknowledged. -/
def acksDue (w : World β) (id : UInt32) : List (UInt8 × UInt16) :=
  acks ((conn w.log id).frames.map Frame.tag)

/-- Every RPC response on the connection is to a request that was dispatched. -/
def RpcCaused (w : World β) (id : UInt32) : Prop :=
  ∀ s ∈ w.sendsTo id, s.1.msgType = MsgType.rpcRequest →
    ∃ f ∈ (conn w.log id).frames, f.tag = s.1.tag

/-! ## The reply to a frame -/

section Reply

variable {f : Frame}

theorem tag_replyOf {msg : Message} (h : w.replyOf true id f = some msg) : msg.tag = f.tag := by
  unfold replyOf at h
  split_ifs at h <;> exact (congrArg Message.tag (Option.some.inj h)).symm.trans rfl

theorem acks_replyOf :
    acks ((w.replyOf true id f).toList.map Message.tag) = acks [f.tag] := by
  cases h : w.replyOf true id f with
  | some msg => simp only [Option.toList_some, List.map_cons, List.map_nil, tag_replyOf h]
  | none =>
    have hnot : isAck (getMsgType f) = false := by
      unfold replyOf at h
      split_ifs at h with h1 h2 h3 h4 h5 h6
      · rw [h2]
        rfl
      · simp [isAck, h1, h5, not_or.1 h6]
    simp [acks, Frame.tag, hnot]

theorem sends_input (net : Nat → Nat → SendStep) (id : UInt32) (f : Frame) {cli : Client}
    (hcli : w.server.cliFind id' = some cli) :
    ∃ out, (w.input net id' f).sendsTo id = w.sendsTo id ++
      if id' = id then (w.replyOf true id' f).toList.map (·, out) else [] := by
  obtain ⟨out, hlog : (w.input net id' f).log = _⟩ := log_inputWith net true f hcli
  have hcall (acc : List (Message × SendOut)) :
      (w.callOf id' f).toList.foldl (ServerEvent.sends id) acc = acc := by
    unfold callOf
    split_ifs
    · rfl
    · rfl
    · rfl
    · rfl
    · cases (w.server.router.handler f.url).join <;> rfl
    · rfl
  refine ⟨out, ?_⟩
  rw [sendsTo, sendsTo, hlog, List.foldl_append, List.foldl_cons, List.foldl_append, hcall]
  by_cases e : id' = id <;> cases w.replyOf true id' f <;> simp [ServerEvent.sends, e]

theorem sendsTo_input (net : Nat → Nat → SendStep) (f : Frame) {cli : Client}
    (hcli : w.server.cliFind id = some cli) :
    ∃ out, (w.input net id f).sendsTo id =
        w.sendsTo id ++ (w.replyOf true id f).toList.map (·, out) ∧
      (conn (w.input net id f).log id).frames = (conn w.log id).frames ++ [f] := by
  obtain ⟨out, hs⟩ := sends_input net id f hcli
  rw [if_pos rfl] at hs
  exact ⟨out, hs, by rw [conn_input, Conn.event, if_pos rfl]⟩

end Reply

/-! ## Steps -/

def AcksOk (w : World β) (id : UInt32) : Prop := w.acksSent id = w.acksDue id

/-- Neither the frames dispatched on the connection nor the messages sent on it change. -/
structure Apart (id : UInt32) (w w' : World β) : Prop where
  frames : (conn w'.log id).frames = (conn w.log id).frames
  sends : w'.sendsTo id = w.sendsTo id

theorem Apart.of_log (h : w'.log = w.log) : Apart id w w' := by
  refine ⟨by rw [h], ?_⟩
  rw [sendsTo, h]
  rfl

theorem Apart.of_mute (hlog : Grows Minor w w') (hm : Mute id w w') : Apart id w w' :=
  ⟨by rw [hlog.conn_eq], hm.sends⟩

theorem Apart.acksOk (h : Apart id w w') (hw : w.AcksOk id) : w'.AcksOk id := by
  rw [AcksOk, acksSent, acksDue, h.frames, h.sends]
  exact hw

/-- One more message on the connection, and no frame. -/
structure Sent (id : UInt32) (msg : Message) (w w' : World β) : Prop where
  frames : (conn w'.log id).frames = (conn w.log id).frames
  sends : ∃ out, w'.sendsTo id = w.sendsTo id ++ [(msg, out)]

theorem conn_cliSendmsg (w : World β) (id id' : UInt32) (net : Nat → Nat → SendStep)
    (msg : Message) : conn (w.cliSendmsg net id' msg).log id = conn w.log id :=
  (grows_cliSendmsg (K := Minor) (fun _ _ _ => trivial) msg).conn_eq id

theorem cliSendmsg_cases (net : Nat → Nat → SendStep) (w : World β) (id id' : UInt32)
    (msg : Message) :
    Apart id w (w.cliSendmsg net id' msg) ∨
      id' = id ∧ Sent id msg w (w.cliSendmsg net id' msg) := by
  have hframes := congrArg Conn.frames (conn_cliSendmsg w id id' net msg)
  cases hcli : w.server.cliFind id' with
  | none =>
    left
    rw [cliSendmsg_none net msg hcli]
    exact .of_log rfl
  | some cli =>
    have hsends := sendsTo_cliSendmsg net id msg hcli
    by_cases e : id' = id
    · rw [if_pos e] at hsends
      exact .inr ⟨e, hframes, _, hsends⟩
    · rw [if_neg e, List.append_nil] at hsends
      exact .inl ⟨hframes, hsends⟩

theorem sendTo_cases (net : Nat → Nat → SendStep) (w : World β) (id id' : UInt32)
    (msg : Message) :
    Apart id w (w.sendTo net id' msg) ∨ id' = id ∧ Sent id msg w (w.sendTo net id' msg) := by
  unfold World.sendTo
  split_ifs
  · rcases cliSendmsg_cases net (w.createHeader msg) id id' msg with ha | ⟨e, hs⟩
    · exact .inl ⟨ha.frames, ha.sends⟩
    · exact .inr ⟨e, hs.frames, hs.sends⟩
  · exact .inl (.of_log rfl)

theorem publish_keeps {P : World β → Prop} (hheader : ∀ {w} msg, P w → P (w.createHeader msg))
    {url : Bytes} {data : Option Ref}
    (hsend : ∀ {w id'}, P w → P (w.cliSendmsg net id' (publishMsg url data))) (hw : P w) :
    P (w.publish net url data) := by
  unfold World.publish
  split_ifs
  · refine List.foldlRecOn (motive := P) _ _ (hheader _ hw) fun w' hw' c _ => ?_
    unfold publishTo
    split_ifs
    · exact hsend hw'
    · exact hw'
  · exact hw

theorem apart_input (net : Nat → Nat → SendStep) (hne : id' ≠ id) (f : Frame) {cli : Client}
    (hcli : w.server.cliFind id' = some cli) : Apart id w (w.input net id' f) := by
  obtain ⟨out, hs⟩ := sends_input net id f hcli
  rw [if_neg hne, List.append_nil] at hs
  exact ⟨by rw [conn_input, Conn.event, if_neg hne], hs⟩

theorem AcksOk.input (net : Nat → Nat → SendStep) (hw : w.AcksOk id) (f : Frame) {cli : Client}
    (hcli : w.server.cliFind id = some cli) : (w.input net id f).AcksOk id := by
  obtain ⟨out, hs, hc⟩ := sendsTo_input net f hcli
  rw [AcksOk, acksSent, acksDue, hs, hc, List.map_append, List.map_append, acks_append,
    acks_append]
  have hnew : acks (((w.replyOf true id f).toList.map (·, out)).map fun s => s.1.tag) =
      acks ([f].map Frame.tag) := by
    rw [List.map_map]
    exact acks_replyOf
  rw [hnew]
  exact congrArg (· ++ _) hw

/-- The frames of a chunk, one after the other. The client stays in the table meanwhile. -/
theorem takeChunk_keeps {P : World β → Prop} {buf : Bytes} {frames : List Frame} {recv : StreamCtx}
    (hnote : P (w.emit (.received id' buf)))
    (hinput : ∀ {w : World β} (f : Frame), (w.view Client.core id').isSome = true → P w →
      P (w.input net id' f))
    (hrecv : ∀ {w : World β}, P w → P (w.modifyCli id' fun c => { c with recv }))
    (hcli : (w.view Client.core id').isSome = true) : P (w.takeChunk net id' buf frames recv) := by
  have hstart : ((w.emit (.received id' buf)).view Client.core id').isSome = true ∧
      P (w.emit (.received id' buf)) := ⟨hcli, hnote⟩
  refine hrecv (List.foldlRecOn (motive := fun w' : World β =>
    (w'.view Client.core id').isSome = true ∧ P w') frames _ hstart fun w' hw' f _ => ⟨?_, ?_⟩).2
  · rw [core_input, Function.update_self, Option.isSome_map]
    exact hw'.1
  · exact hinput f hw'.1 hw'.2

/-- **What a step can be for a connection:** something that leaves it apart, a frame of its client,
a send of the application, or its beginning. -/
theorem step_keeps {P : World β → Prop} {op : ServerOp} (h : w.TableOk)
    (hapart : ∀ {v v' : World β}, Apart id v v' → P v → P v')
    (hinput : ∀ {v : World β} {cli : Client} (f : Frame), v.server.cliFind id = some cli → P v →
      P (v.input net id f))
    (hpublish : ∀ {v v' : World β} url data, op = .publish url data →
      Sent id (publishMsg url data) v v' → P v → P v')
    (hresponse : ∀ {v' : World β} status seqno data, op = .response id status seqno data →
      Sent id ⟨MsgType.rpcRequest, status, seqno, none, data⟩ w v' → P v')
    (hmessage : ∀ {v' : World β} {msg}, msg.msgType = MsgType.message → Sent id msg w v' → P v')
    (haccept : ∀ ncid fd, op = .newConnection fd →
      w.server.cliNewid (2 ^ 32) w.server.ncid = some (id, ncid) → P (w.addClient id ncid fd))
    (hw : P w) : P (w.step net op) := by
  have hlog : ∀ {v v' : World β}, P v → v'.log = v.log → P v' := by
    intro v v' hv e
    exact hapart (.of_log e) hv
  -- Only accepting, receiving and sending concern the connection `id`; the rest is apart from it.
  cases op with
  | newConnection fd =>
    rw [step, handleNewConnection]
    split_ifs
    · exact hw
    · split
      · exact hw
      rename_i id' ncid hnew
      by_cases hid : id' = id
      · subst hid
        exact haccept ncid fd rfl hnew
      · refine hapart ⟨?_, (mute_addClient hid ncid fd).sends⟩ hw
        show (conn (w.log ++ [.accepted id']) id).frames = _
        rw [conn_append, List.foldl_cons, List.foldl_nil, Conn.event, if_neg hid]
  | clientInput id' r =>
    rw [step]
    rcases handleClientInput_cases net h id' r with e | ⟨cli, hcli, -, e | ⟨buf, recv, -, e⟩⟩
    · rwa [e]
    · rw [e]
      exact hapart (.of_mute (grows_closeClient cli) (mute_closeClient cli)) hw
    · rw [e]
      -- The bytes are noted first, and then each frame they complete is handled.
      have hnote : Apart id w (w.emit (.received id' buf)) := by
        refine ⟨?_, sendsTo_emit _⟩
        show (conn (w.log ++ [.received id' buf]) id).frames = _
        rw [conn_append, List.foldl_cons, List.foldl_nil, Conn.event]
        split_ifs <;> rfl
      refine takeChunk_keeps (hapart hnote hw) (fun {v} f hv hPv => ?_)
        (fun hv => hlog hv rfl) (by rw [view, hcli]; rfl)
      rw [view, Option.isSome_map] at hv
      obtain ⟨cli', hcli'⟩ := Option.isSome_iff_exists.1 hv
      by_cases hid : id' = id
      · subst hid
        exact hinput f hcli' hPv
      · exact hapart (apart_input net hid f hcli') hPv
  | eventInput =>
    refine event_invariant (fun hw => hlog hw rfl) (fun v id' hv => ?_) hw
    have hgrows : Grows Minor v (v.cliDestroy id') := (Grows.of_eq rfl).emit trivial
    exact hapart (.of_mute hgrows mute_cliDestroy) hv
  | timerSweep => exact hlog hw rfl
  | peerClose id' => exact hlog hw rfl
  | publish url data =>
    refine publish_keeps (fun _ hv => hlog hv rfl) (fun {v id'} hv => ?_) hw
    rcases cliSendmsg_cases net v id id' (publishMsg url data) with ha | ⟨-, hs⟩
    · exact hapart ha hv
    · exact hpublish url data rfl hs hv
  | response id' status seqno data =>
    rcases sendTo_cases net w id id' ⟨MsgType.rpcRequest, status, seqno, none, data⟩ with
      ha | ⟨rfl, hs⟩
    · exact hapart ha hw
    · exact hresponse status seqno data rfl hs
  | message id' url data =>
    rw [step, World.message]
    split_ifs
    · rcases sendTo_cases net w id id' ⟨MsgType.message, 0, 0, some (Ref.ofBytes url), some data⟩
        with ha | ⟨-, hs⟩
      · exact hapart ha hw
      · exact hmessage rfl hs
    · exact hw

theorem empty_addClient (w : World β) (id ncid : UInt32) (fd : Int) :
    (w.addClient id ncid fd).sendsTo id = [] ∧
      (conn (w.addClient id ncid fd).log id).frames = [] := by
  refine ⟨(sendsTo_emit _).trans (if_pos rfl), ?_⟩
  show (conn (w.log ++ [.accepted id]) id).frames = _
  rw [conn_append, List.foldl_cons, List.foldl_nil, Conn.event, if_pos rfl]
  rfl

theorem AcksOk.sent {msg : Message} (hw : w.AcksOk id) (h : Sent id msg w w')
    (hmsg : isAck msg.msgType = false) : w'.AcksOk id := by
  obtain ⟨hf, out, hs⟩ := h
  rw [AcksOk, acksSent, acksDue, hf, hs, List.map_append, acks_append]
  have hnil : acks ([(msg, out)].map fun s => s.1.tag) = [] := by
    simp [acks, Message.tag, hmsg]
  rw [hnil, List.append_nil]
  exact hw

theorem AcksOk.step (net : Nat → Nat → SendStep) (h : w.TableOk) (hw : w.AcksOk id)
    (op : ServerOp) : (w.step net op).AcksOk id := by
  refine step_keeps h (fun ha hv => ha.acksOk hv) (fun f hcli hv => hv.input net f hcli)
    (fun url data _ hs hv => hv.sent hs rfl) (fun status seqno data _ hs => hw.sent hs rfl)
    (fun hmsg hs => hw.sent hs (by rw [hmsg]; rfl)) (fun ncid fd _ _ => ?_) hw
  obtain ⟨hs, hf⟩ := empty_addClient w id ncid fd
  rw [AcksOk, acksSent, acksDue, hs, hf]
  rfl

/-- **What all messages on a connection are like.** It may depend on the frames dispatched so far,
and is not lost when there are more. -/
theorem sends_step (net : Nat → Nat → SendStep) {Q : List Frame → Message → Prop}
    (hmono : ∀ {fs : List Frame} {f : Frame} {msg : Message}, Q fs msg → Q (fs ++ [f]) msg)
    (hreply : ∀ {v : World β} {f : Frame} {msg : Message} (fs : List Frame),
      v.replyOf true id f = some msg → Q (fs ++ [f]) msg)
    (hplain : ∀ {fs : List Frame} {msg : Message},
      msg.msgType = MsgType.publish ∨ msg.msgType = MsgType.message → Q fs msg)
    {op : ServerOp} (hresponse : ∀ status seqno data, op = .response id status seqno data →
      Q (conn w.log id).frames ⟨MsgType.rpcRequest, status, seqno, none, data⟩)
    (h : w.TableOk) (hw : ∀ s ∈ w.sendsTo id, Q (conn w.log id).frames s.1) :
    ∀ s ∈ (w.step net op).sendsTo id, Q (conn (w.step net op).log id).frames s.1 := by
  have hsent {v v' : World β} {msg : Message} (hmsg : Q (conn v.log id).frames msg)
      (hs : Sent id msg v v') (hv : ∀ s ∈ v.sendsTo id, Q (conn v.log id).frames s.1) :
      ∀ s ∈ v'.sendsTo id, Q (conn v'.log id).frames s.1 := by
    obtain ⟨hf, out, hsends⟩ := hs
    rw [hf, hsends, List.forall_mem_append, List.forall_mem_singleton]
    exact ⟨hv, hmsg⟩
  refine step_keeps (P := fun v : World β => ∀ s ∈ v.sendsTo id, Q (conn v.log id).frames s.1) h
    (fun ha hv => ?_) (fun {v cli} f hcli hv => ?_)
    (fun url data _ hs hv => hsent (hplain (.inl rfl)) hs hv)
    (fun status seqno data hop hs => hsent (hresponse status seqno data hop) hs hw)
    (fun hmsg hs => hsent (hplain (.inr hmsg)) hs hw) (fun ncid fd _ _ => ?_) hw
  · rw [ha.sends, ha.frames]
    exact hv
  · obtain ⟨out, hs, hf⟩ := sendsTo_input net f hcli
    rw [hs, hf, List.forall_mem_append]
    refine ⟨fun s hmem => hmono (hv s hmem), fun s hmem => ?_⟩
    obtain ⟨msg, hmsg, rfl⟩ := List.mem_map.1 hmem
    exact hreply _ (Option.mem_toList.1 hmsg)
  · rw [(empty_addClient w id ncid fd).1]
    exact fun s hmem => absurd hmem List.not_mem_nil

/-- The application responds on the connection only to a request that was dispatched on it. -/
def Responds (id : UInt32) (w : World β) : ServerOp → Prop
  | .response id' _ seqno _ =>
    id' = id → ∃ f ∈ (conn w.log id).frames, f.tag = (MsgType.rpcRequest, seqno)
  | _ => True

theorem RpcCaused.step (net : Nat → Nat → SendStep) (h : w.TableOk) (hw : w.RpcCaused id)
    {op : ServerOp} (hop : w.Responds id op) : (w.step net op).RpcCaused id := by
  refine sends_step net (Q := fun fs msg =>
      msg.msgType = MsgType.rpcRequest → ∃ f ∈ fs, f.tag = msg.tag)
    (fun hq ht => ?_) (fun fs hmsg _ => ?_) (fun hmsg ht => ?_) (fun status seqno data e _ => ?_)
    h hw
  · obtain ⟨f, hf, htag⟩ := hq ht
    exact ⟨f, List.mem_append_left _ hf, htag⟩
  · exact ⟨_, List.mem_append_right _ (List.mem_singleton_self _), (tag_replyOf hmsg).symm⟩
  · rw [ht] at hmsg
    exact absurd hmsg (by decide)
  · subst e
    exact hop rfl

end World

/-! ## Runs -/

theorem acksOk_run (net : Nat → Nat → SendStep) (s : Server β) (ops : List ServerOp)
    (id : UInt32) : (Runs.run (World.step net) (World.init s) ops).AcksOk id :=
  World.run_keeps (P := fun w => w.AcksOk id) net rfl ops fun _ op ht hw => hw.step net ht op

/-- On every connection of every run, the acknowledgements the server sends are those of the frames
dispatched there: one for each frame that asks for one, in order, with its type and its sequence
number, whatever is published or sent in between and whatever the sockets do. -/
theorem acks_in_order (net : Nat → Nat → SendStep) (s : Server β) (ops : List ServerOp)
    (id : UInt32) :
    acks (((Runs.run (World.step net) (World.init s) ops).sendsTo id).map fun o => o.1.tag) =
      acks ((conn (Runs.run (World.step net) (World.init s) ops).log id).frames.map Frame.tag) :=
  acksOk_run net s ops id

end Ssn
