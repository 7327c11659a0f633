import SsnIpc.Protocol.Registry
import SsnIpc.Protocol.Seqnos

/-!
# Names and payloads on the wire

**Theorem (`faithful_iff`).** A sending function of the protocol layer that reports success has put
a frame on the wire with the whole name and the whole payload, and reports a failure for what no
frame can hold, exactly when the name has less than 2^16 bytes and the payload less than 2^32, or
what is left of them is not sent (`Goes`).

Longer ones are cut to their lengths modulo 2^16 and 2^32 before `ssn_send_message` can see how long
they are; what is left is sent as if it were the whole (`longTopic_cut`).
-/

namespace Ssn

open ByteMem

variable {κ : Type*}

/-! ## The functions and what they are given -/

/-- A call of one of the sending functions, with its arguments. -/
inductive ProtocolSend (κ : Type*)
  | rpcCall (net : Nat → Nat → SendStep) (w : RpcWorld κ) (methodName : Bytes) (data : Ref)
    (timeoutMs : UInt64) (now : Timespec) (stack : Mem)
  | rpcResponse (c : SendingCtx) (seqno : UInt16) (status : UInt32) (data : Ref) (env : SendEnv)
  | publish (c : SendingCtx) (topic : Bytes) (data : Ref) (env : SendEnv)
  | subscribe (s : PubsubSub) (topic : Bytes) (mem : EntryMem) (env : SendEnv)
  | msgSend (m : MsgSend) (data : Ref) (env : SendEnv)

/-- The bytes that the transport took. -/
def RpcEvent.wire : RpcEvent κ → Bytes
  | .sent _ out => out.accepted
  | _ => []

/-- The bytes that the transport took between two states of a context. -/
def SendingCtx.wireSince (c c' : SendingCtx) : Bytes :=
  (c'.sends.drop c.sends.length).flatMap SendOut.accepted

namespace ProtocolSend

def ret : ProtocolSend κ → Int
  | .rpcCall net w methodName data timeoutMs now stack =>
    (w.call net (some methodName) data timeoutMs now stack).2
  | .rpcResponse c seqno status data env => (c.rpcResponse seqno status data env).2
  | .publish c topic data env => (c.publish (some topic) data env).2
  | .subscribe s topic mem env => (s.subscribe (some topic) mem env).2
  | .msgSend m data env => (m.send data env).2

/-- The bytes that the transport took during the call. -/
def wire : ProtocolSend κ → Bytes
  | .rpcCall net w methodName data timeoutMs now stack =>
    ((w.call net (some methodName) data timeoutMs now stack).1.log.drop w.log.length).flatMap
      RpcEvent.wire
  | .rpcResponse c seqno status data env => c.wireSince (c.rpcResponse seqno status data env).1
  | .publish c topic data env => c.wireSince (c.publish (some topic) data env).1
  | .subscribe s topic mem env =>
    s.toSendingCtx.wireSince (s.subscribe (some topic) mem env).1.toSendingCtx
  | .msgSend m data env => m.toSendingCtx.wireSince (m.send data env).1.toSendingCtx

/-- The name that the function was given, if it takes one. -/
def name? : ProtocolSend κ → Option Bytes
  | .rpcCall _ _ methodName _ _ _ _ => some methodName
  | .publish _ topic _ _ => some topic
  | .subscribe _ topic _ _ => some topic
  | _ => none

/-- The data that the function was given, if it takes any. -/
def data? : ProtocolSend κ → Option Ref
  | .rpcCall _ _ _ data _ _ _ => some data
  | .rpcResponse _ _ _ data _ => some data
  | .publish _ _ data _ => some data
  | .subscribe _ _ _ _ => none
  | .msgSend _ data _ => some data

def name (x : ProtocolSend κ) : Bytes := x.name?.getD []

def payload (x : ProtocolSend κ) : Bytes := optBytes x.data?

/-- Success means that the frame on the wire decodes to the whole name and the whole payload, and
what no frame can hold is reported as a failure. -/
def Faithful (x : ProtocolSend κ) : Prop :=
  (x.ret = 0 → ∃ f u d, packetInput x.wire = some f ∧ getUrl f = some u ∧ getData f = some d ∧
    u.contents = x.name ∧ d.contents = x.payload) ∧
  (0xFFFF < x.name.length ∨
    maxPacketSize < headerSize + x.name.length + x.payload.length → x.ret ≠ 0)

/-- What the cast to 16 bits leaves of the length of the name. -/
def nameLen (x : ProtocolSend κ) : Nat := x.name.length % 2 ^ 16

/-- What the cast to 32 bits leaves of the length of the data. -/
def dataLen (x : ProtocolSend κ) : Nat := x.data?.elim 0 Ref.len % 2 ^ 32

/-- The transport that the function comes to send on, and the answers of its socket: there is a
transport, and a free slot for a request, or memory for the entry of a topic. -/
def sendsOn : ProtocolSend κ → Option (Transport × (Nat → SendStep))
  | .rpcCall net w _ _ _ _ _ =>
    if ∃ i < rpcMaxPending, (w.req.pendingPool i).inUse = false then
      w.req.transport.map (·, net w.log.length)
    else none
  | .rpcResponse c _ _ _ env => c.transport.map (·, env.net)
  | .publish c _ _ env => c.transport.map (·, env.net)
  | .subscribe s topic mem env =>
    if mem.entry ∧ ((s.topicTable.getStr topic).isSome ∨ mem.node ∧ mem.strKey) then
      s.transport.map (·, env.net)
    else none
  | .msgSend m _ env => m.transport.map (·, env.net)

/-- The call comes to send, and what is left of its arguments fits and is taken by the socket. -/
structure Goes (x : ProtocolSend κ) (t : Transport) (net : Nat → SendStep) : Prop where
  sendsOn : x.sendsOn = some (t, net)
  fd : ¬t.sockFd < 0
  ptr : ∀ d ∈ x.data?, d.ptr = none → d.len % 2 ^ 32 = 0
  fits : headerSize + x.nameLen + x.dataLen ≤ maxPacketSize
  taken : Delivers (headerSize + x.nameLen + x.dataLen) t.budget net

/-! ## What each function sends -/

/-- The call ends with a send of its name and data, their lengths narrowed. -/
structure SendsAs (x : ProtocolSend κ) (c : SendCall) : Prop where
  url : c.url = x.name?.map nameRef
  data : c.data = x.data?.map payloadRef
  ret : x.ret = if c.out.ret then 0 else -1
  wire : x.wire = c.out.accepted

variable {x : ProtocolSend κ} {t : Transport} {net : Nat → SendStep}

/-- A function that ends with the send of a context. -/
theorem sendsAs_ctx {c : SendingCtx} {msg : Message} {env : SendEnv}
    (hret : x.ret = (c.send t msg env).2) (hwire : x.wire = c.wireSince (c.send t msg env).1)
    (hurl : msg.url = x.name?.map nameRef) (hdata : msg.data = x.data?.map payloadRef) :
    ∃ call : SendCall, call.transport = t ∧ call.net = env.net ∧ x.SendsAs call := by
  refine ⟨⟨t, env.stack, msg.msgType, msg.status, msg.seqno, msg.url, msg.data, env.net⟩, rfl, rfl,
    hurl, hdata, hret, hwire.trans ?_⟩
  simp [SendingCtx.send, SendingCtx.wireSince]

theorem pendingPoolAlloc_isSome_iff {r : RpcReq κ} : r.pendingPoolAlloc.isSome = true ↔
    ∃ i < rpcMaxPending, (r.pendingPool i).inUse = false := by
  simp [RpcReq.pendingPoolAlloc, List.mem_range]

theorem sendRequest_spec (net : Nat → Nat → SendStep) (w : RpcWorld κ) (t : Transport) (i : Nat)
    (e : RpcPending κ) (msg : Message) (stack : Mem) :
    let call : SendCall :=
      ⟨t, stack, msg.msgType, msg.status, msg.seqno, msg.url, msg.data, net w.log.length⟩
    (w.sendRequest net t i e msg stack).2 = (if call.out.ret then 0 else -1) ∧
      (w.sendRequest net t i e msg stack).1.log = w.log ++ [.sent msg call.out] := by
  unfold RpcWorld.sendRequest SendCall.out
  dsimp only
  split_ifs <;> exact ⟨rfl, rfl⟩

/-- A free slot is all that a call needs: a sequence number is always found. -/
theorem sendsAs_rpcCall {net' : Nat → Nat → SendStep} {w : RpcWorld κ} {methodName : Bytes}
    {data : Ref} {timeoutMs : UInt64} {now : Timespec} {stack : Mem}
    (h : (rpcCall net' w methodName data timeoutMs now stack).sendsOn = some (t, net)) :
    ∃ c : SendCall, c.transport = t ∧ c.net = net ∧
      (rpcCall net' w methodName data timeoutMs now stack).SendsAs c := by
  rw [sendsOn] at h
  split_ifs at h with hslot
  obtain ⟨t', ht, heq⟩ := Option.map_eq_some_iff.1 h
  cases heq
  obtain ⟨⟨i, r⟩, halloc⟩ := Option.isSome_iff_exists.1 (pendingPoolAlloc_isSome_iff.2 hslot)
  obtain ⟨seqno, hseqno⟩ := RpcReq.takeSeqno_isSome r
  have hpair : r.takeSeqno = (some seqno, r.takeSeqno.2) := Prod.ext hseqno rfl
  have hcall : w.call net' (some methodName) data timeoutMs now stack =
      (w.setReq r.takeSeqno.2).sendRequest net' t i (w.entry seqno timeoutMs now)
        (RpcWorld.requestMsg methodName data seqno) stack := by
    simp only [RpcWorld.call, ht, halloc]
    rw [hpair]
  obtain ⟨hret, hlog⟩ := sendRequest_spec net' (w.setReq r.takeSeqno.2) t i
    (w.entry seqno timeoutMs now) (RpcWorld.requestMsg methodName data seqno) stack
  refine ⟨_, rfl, rfl, rfl, rfl, by rw [ret, hcall]; exact hret, ?_⟩
  rw [wire, hcall, hlog]
  simp [RpcWorld.setReq, RpcEvent.wire]

theorem setStr_snd {ν : Type*} (t : HashTable ν) (key : Bytes) (value : ν) (mem : NodeMem) :
    (t.setStr key value mem).2 = true ↔
      (t.getStr key).isSome = true ∨ mem.node = true ∧ mem.strKey = true := by
  have hfirst := Buckets.isSome_updateFirst HashNode.strKey (some key)
    (fun n : HashNode ν => { n with value }) (t.buckets (strHashIndex key t.capacity))
  have hget : (t.getStr key).isSome =
      (t.buckets (strHashIndex key t.capacity)).any fun n => n.strKey = some key := by
    rw [HashTable.getStr, Option.isSome_map, List.isSome_find?]
  rw [← hget] at hfirst
  unfold HashTable.setStr
  dsimp only
  split
  · rename_i nodes hnodes
    rw [hnodes] at hfirst
    exact iff_of_true rfl (.inl hfirst.symm)
  · rename_i hnone
    rw [hnone] at hfirst
    split_ifs with hmem
    · exact iff_of_true rfl (.inr hmem)
    · simpa [← hfirst] using hmem

theorem sendSubscribe_spec (s : PubsubSub) (t : Transport) (topic : Bytes) (env : SendEnv) :
    let sent := s.toSendingCtx.send t (topicMsg MsgType.subscribe topic) env
    (s.sendSubscribe t topic env).2 = sent.2 ∧
      (s.sendSubscribe t topic env).1.toSendingCtx = sent.1 := by
  unfold PubsubSub.sendSubscribe
  dsimp only
  split_ifs with h
  · exact ⟨h.symm, rfl⟩
  · unfold SendingCtx.send at h ⊢
    dsimp only at h ⊢
    split_ifs at h ⊢
    · exact absurd rfl h
    · exact ⟨rfl, rfl⟩

theorem sendsAs_subscribe {s : PubsubSub} {topic : Bytes} {mem : EntryMem} {env : SendEnv}
    (h : (subscribe s topic mem env : ProtocolSend κ).sendsOn = some (t, net)) :
    ∃ c : SendCall, c.transport = t ∧ c.net = net ∧
      (subscribe s topic mem env : ProtocolSend κ).SendsAs c := by
  rw [sendsOn] at h
  split_ifs at h with hmem
  obtain ⟨t', ht, heq⟩ := Option.map_eq_some_iff.1 h
  cases heq
  have hset := (setStr_snd s.topicTable topic ⟨CString.copyBounded 64 topic, true⟩
    mem.toNodeMem).2 hmem.2
  have hcall : s.subscribe (some topic) mem env = PubsubSub.sendSubscribe
      { s with
        topicTable := (s.topicTable.setStr topic ⟨CString.copyBounded 64 topic, true⟩
          mem.toNodeMem).1
        topicCount := s.topicCount + 1 } t topic env := by
    simp only [PubsubSub.subscribe, ht, hmem.1, hset, if_true]
  obtain ⟨hret, hctx⟩ := sendSubscribe_spec
    { s with
      topicTable := (s.topicTable.setStr topic ⟨CString.copyBounded 64 topic, true⟩
        mem.toNodeMem).1
      topicCount := s.topicCount + 1 } t topic env
  have hwire : (subscribe s topic mem env : ProtocolSend κ).wire =
      s.toSendingCtx.wireSince
        (s.toSendingCtx.send t (topicMsg MsgType.subscribe topic) env).1 := by
    rw [wire, hcall, hctx]
  exact sendsAs_ctx (by rw [ret, hcall]; exact hret) hwire rfl rfl

/-- **Every function that comes to send** sends the name and the data it was given, with lengths cut
to 16 and 32 bits, and reports what becomes of that. -/
theorem sendsAs_of_sendsOn (h : x.sendsOn = some (t, net)) :
    ∃ c : SendCall, c.transport = t ∧ c.net = net ∧ x.SendsAs c := by
  cases x with
  | rpcCall => exact sendsAs_rpcCall h
  | rpcResponse c seqno status data env =>
    obtain ⟨_ | t, sends⟩ := c <;> cases h
    exact sendsAs_ctx rfl rfl rfl rfl
  | publish c topic data env =>
    obtain ⟨_ | t, sends⟩ := c <;> cases h
    exact sendsAs_ctx rfl rfl rfl rfl
  | subscribe => exact sendsAs_subscribe h
  | msgSend m data env =>
    obtain ⟨⟨_ | t, sends⟩, nextSeqno⟩ := m <;> cases h
    exact sendsAs_ctx rfl rfl rfl rfl

/-- Any other call reports a failure. -/
theorem ret_of_sendsOn (h : x.sendsOn = none) : x.ret = -1 := by
  cases x with
  | rpcCall net' w methodName data timeoutMs now stack =>
    rw [sendsOn] at h
    split_ifs at h with hslot
    · rw [Option.map_eq_none_iff] at h
      simp only [ret, RpcWorld.call, h]
    · rw [← pendingPoolAlloc_isSome_iff, Bool.not_eq_true, Option.isSome_eq_false_iff,
        Option.isNone_iff_eq_none] at hslot
      cases ht : w.req.transport <;> simp only [ret, RpcWorld.call, ht, hslot]
  | rpcResponse c seqno status data env =>
    obtain ⟨_ | t, sends⟩ := c <;> cases h
    rfl
  | publish c topic data env =>
    obtain ⟨_ | t, sends⟩ := c <;> cases h
    rfl
  | subscribe s topic mem env =>
    rw [sendsOn] at h
    split_ifs at h with hmem
    · rw [Option.map_eq_none_iff] at h
      simp only [ret, PubsubSub.subscribe, h]
    · rw [← setStr_snd s.topicTable topic ⟨CString.copyBounded 64 topic, true⟩ mem.toNodeMem,
        not_and] at hmem
      cases ht : s.transport with
      | none => simp only [ret, PubsubSub.subscribe, ht]
      | some t =>
        simp only [ret, PubsubSub.subscribe, ht]
        split_ifs with hentry hset
        · exact absurd hset (hmem hentry)
        · rfl
        · rfl
  | msgSend m data env =>
    obtain ⟨⟨_ | t, sends⟩, nextSeqno⟩ := m <;> cases h
    rfl

/-! ## What arrives -/

variable {c : SendCall}

/-- The frame on the wire has the name and the data as they were cut. -/
theorem SendsAs.frame (h : x.SendsAs c) (hret : c.out.ret = true) :
    ∃ f u d, packetInput x.wire = some f ∧ getUrl f = some u ∧ getData f = some d ∧
      u.contents = optBytes (x.name?.map nameRef) ∧
      d.contents = optBytes (x.data?.map payloadRef) := by
  obtain ⟨hs, hacc⟩ := sendMessage_true (headerReady_createHeader ..) hret
  have hwhole : validateAndGetTotalLength c.out.accepted = some c.out.accepted.length := by
    rw [SendCall.out, hacc]
    exact validate_packet hs
  obtain ⟨-, -, -, ⟨u, hu, hcu⟩, ⟨d, hd, hcd⟩, hin⟩ :=
    SendCall.readBack_of_bytes hret (f := ⟨c.out.accepted, hwhole⟩) rfl
  rw [h.url] at hcu
  rw [h.data] at hcd
  rw [h.wire]
  exact ⟨_, u, d, hin, hu, hd, hcu, hcd⟩

theorem optBytes_map_some {β : Type*} (f : β → Ref) (b : β) :
    optBytes ((some b).map f) = (f b).contents := rfl

theorem optBytes_nameRef_eq_iff (name : Option Bytes) :
    optBytes (name.map nameRef) = name.getD [] ↔ (name.getD []).length < 2 ^ 16 := by
  cases name with
  | none => simp [optBytes]
  | some name => exact contents_narrow_eq_iff (Ref.ofBytes name) (by decide)

theorem optBytes_payloadRef_eq_iff (data : Option Ref) :
    optBytes (data.map payloadRef) = optBytes data ↔ (optBytes data).length < 2 ^ 32 := by
  cases data with
  | none => simp [optBytes]
  | some data => exact contents_narrow_eq_iff data (by decide)

theorem SendsAs.fits (h : x.SendsAs c) (hret : c.out.ret = true) (hname : x.name.length < 2 ^ 16)
    (hpayload : x.payload.length < 2 ^ 32) :
    headerSize + x.name.length + x.payload.length ≤ maxPacketSize := by
  obtain ⟨hs, -⟩ := sendMessage_true (headerReady_createHeader ..) hret
  have htotal := hs.total
  rw [← length_optBytes hs.url_ptr, ← length_optBytes hs.data_ptr, h.url, h.data,
    (optBytes_nameRef_eq_iff _).2 hname, (optBytes_payloadRef_eq_iff _).2 hpayload] at htotal
  exact htotal

/-! ## When a function succeeds -/

theorem optLen_nameRef : optLen (x.name?.map nameRef) = x.nameLen := by
  rw [nameLen, name]
  cases x.name? <;> rfl

theorem optLen_payloadRef : optLen (x.data?.map payloadRef) = x.dataLen := by
  rw [dataLen]
  cases x.data? <;> rfl

/-- What is left of a name and of data can be sent if it fits, and no data are claimed that are not
there. -/
theorem sendable_narrowed_iff :
    Sendable (x.name?.map nameRef) (x.data?.map payloadRef) ↔
      (∀ d ∈ x.data?, d.ptr = none → d.len % 2 ^ 32 = 0) ∧
        headerSize + x.nameLen + x.dataLen ≤ maxPacketSize := by
  have hdangle : (∀ d ∈ x.data?.map payloadRef, d.NoDangle) ↔
      ∀ d ∈ x.data?, d.ptr = none → d.len % 2 ^ 32 = 0 := by
    cases x.data? with
    | none => simp
    | some d => simp [Ref.NoDangle, payloadRef, Ref.narrow]
  rw [← hdangle, ← optLen_nameRef, ← optLen_payloadRef]
  refine ⟨fun h => ⟨h.data_ptr, h.total⟩, fun h => ⟨?_, fun u hu => ?_, h.1, h.2⟩⟩
  · rw [optLen_nameRef]
    exact Nat.le_of_lt_succ (Nat.mod_lt _ (by decide))
  · obtain ⟨name, -, rfl⟩ := Option.mem_map.1 hu
    exact nameRef_noDangle name

theorem SendsAs.ret_iff (h : x.SendsAs c) : x.ret = 0 ↔ c.out.ret = true := by
  rw [h.ret]
  cases c.out.ret <;> decide

/-- **A function succeeds** if it comes to send and what is left of its arguments goes. -/
theorem ret_eq_zero_iff : x.ret = 0 ↔ ∃ t net, x.Goes t net := by
  cases hon : x.sendsOn with
  | none =>
    rw [ret_of_sendsOn hon]
    refine iff_of_false (by decide) ?_
    rintro ⟨t, net, h⟩
    cases hon.symm.trans h.sendsOn
  | some on =>
    obtain ⟨t, net⟩ := on
    obtain ⟨c, rfl, rfl, hc⟩ := sendsAs_of_sendsOn hon
    have hout := sendMessage_ret_iff c.transport c.net
      (headerReady_createHeader c.sendbuf c.msgType c.status c.seqno c.url c.data)
    rw [hc.ret_iff, SendCall.out, hout, hc.url, hc.data, sendable_narrowed_iff, optLen_nameRef,
      optLen_payloadRef]
    constructor
    · rintro ⟨hfd, ⟨hptr, hfits⟩, htaken⟩
      exact ⟨_, _, hon, hfd, hptr, hfits, htaken⟩
    · rintro ⟨t, net, h⟩
      obtain ⟨rfl, rfl⟩ := Prod.mk.inj (Option.some.inj (hon.symm.trans h.sendsOn))
      exact ⟨h.fd, ⟨h.ptr, h.fits⟩, h.taken⟩

/-- On an open socket that takes everything, a call succeeds if what is left of its lengths fits. -/
theorem ret_of_acceptAll (hon : x.sendsOn = some (t, acceptAll 0)) (hfd : ¬t.sockFd < 0)
    (hptr : ∀ d ∈ x.data?, d.ptr = none → d.len % 2 ^ 32 = 0)
    (hfits : headerSize + x.nameLen + x.dataLen ≤ maxPacketSize) : x.ret = 0 :=
  ret_eq_zero_iff.2 ⟨t, _, hon, hfd, hptr, hfits, delivers_acceptAll _ 0 hfits⟩

theorem sendsAs_of_ret (h : x.ret = 0) : ∃ c, x.SendsAs c ∧ c.out.ret = true := by
  obtain ⟨t, net, hgoes⟩ := ret_eq_zero_iff.1 h
  obtain ⟨c, -, -, hc⟩ := sendsAs_of_sendsOn hgoes.sendsOn
  exact ⟨c, hc, hc.ret_iff.1 h⟩

theorem faithful_of_whole (hname : x.name.length < 2 ^ 16) (hpayload : x.payload.length < 2 ^ 32) :
    x.Faithful := by
  constructor
  · intro hret
    obtain ⟨c, hc, hout⟩ := sendsAs_of_ret hret
    obtain ⟨f, u, d, hf, hu, hd, hname', hpayload'⟩ := hc.frame hout
    exact ⟨f, u, d, hf, hu, hd, hname'.trans ((optBytes_nameRef_eq_iff _).2 hname),
      hpayload'.trans ((optBytes_payloadRef_eq_iff _).2 hpayload)⟩
  · intro hlarge hret
    obtain ⟨c, hc, hout⟩ := sendsAs_of_ret hret
    have htotal := hc.fits hout hname hpayload
    omega

theorem whole_of_faithful (h : x.Faithful) (hret : x.ret = 0) :
    x.name.length < 2 ^ 16 ∧ x.payload.length < 2 ^ 32 := by
  obtain ⟨f, u, d, hf, hu, hd, hname, hpayload⟩ := h.1 hret
  obtain ⟨c, hc, hout⟩ := sendsAs_of_ret hret
  obtain ⟨f', u', d', hf', hu', hd', hname', hpayload'⟩ := hc.frame hout
  obtain rfl : f' = f := Option.some.inj (hf'.symm.trans hf)
  obtain rfl : u' = u := Option.some.inj (hu'.symm.trans hu)
  obtain rfl : d' = d := Option.some.inj (hd'.symm.trans hd)
  exact ⟨(optBytes_nameRef_eq_iff _).1 (hname'.symm.trans hname),
    (optBytes_payloadRef_eq_iff _).1 (hpayload'.symm.trans hpayload)⟩

end ProtocolSend

open ProtocolSend

/-- **What success means.** A sending function is faithful if and only if the name has less than
2^16 bytes and the payload less than 2^32, or there is no transport, no free slot or no memory, or
the socket is not open, or what the casts leave of the lengths does not fit into a packet, or is not
zero for data that are not there, or the socket does not take the packet. -/
theorem faithful_iff (x : ProtocolSend κ) :
    x.Faithful ↔ (x.name.length < 2 ^ 16 ∧ x.payload.length < 2 ^ 32) ∨
      ¬∃ t net, x.Goes t net := by
  rw [← ret_eq_zero_iff]
  constructor
  · intro h
    by_cases hret : x.ret = 0
    · exact .inl (whole_of_faithful h hret)
    · exact .inr hret
  · rintro (⟨hname, hpayload⟩ | hret)
    · exact faithful_of_whole hname hpayload
    · exact ⟨fun h => absurd h hret, fun _ => hret⟩

/-! ## Names and payloads that are cut -/

/-- A topic of 65537 bytes is published: a slash and 65536 letters. -/
def longTopic : ProtocolSend Nat :=
  .publish ⟨some ⟨3, 0⟩, []⟩ (slash :: List.replicate 65536 0x61) Ref.null .ready

/-- A message of 4 GiB is sent. -/
def longMessage : ProtocolSend Nat :=
  .msgSend ⟨⟨some ⟨3, 0⟩, []⟩, 1⟩ (Ref.ofBytes (List.replicate (2 ^ 32) 0)) .ready

theorem length_longTopic : longTopic.name.length = 65537 := by
  show (slash :: List.replicate 65536 0x61).length = 65537
  rw [List.length_cons, List.length_replicate]

theorem ret_longTopic : longTopic.ret = 0 := by
  have hname : longTopic.nameLen = 1 := by
    rw [nameLen, length_longTopic]
    decide
  have hdata : longTopic.dataLen = 0 := rfl
  refine ret_of_acceptAll (t := ⟨3, 0⟩) rfl (by decide) ?_ ?_
  · rintro d hd -
    cases hd
    rfl
  · rw [hname, hdata]
    decide

theorem ret_longMessage : longMessage.ret = 0 := by
  have hname : longMessage.nameLen = 0 := rfl
  have hmessage : longMessage.data? = some (Ref.ofBytes (List.replicate (2 ^ 32) 0)) := rfl
  have hdata : longMessage.dataLen = 0 := by
    rw [dataLen, hmessage, Option.elim_some, Ref.len_ofBytes, List.length_replicate, Nat.mod_self]
  refine ret_of_acceptAll (t := ⟨3, 0⟩) rfl (by decide) ?_ ?_
  · rintro d hd hnull
    cases hd
    cases hnull
  · rw [hname, hdata]
    decide

/-- Both succeed on a socket that takes everything. The topic of the frame is the slash alone, and
the message is empty. -/
theorem longTopic_cut :
    (longTopic.ret = 0 ∧ longTopic.name.length = 65537 ∧
      ∃ f u, packetInput longTopic.wire = some f ∧ getUrl f = some u ∧ u.contents = [slash]) ∧
    longMessage.ret = 0 ∧ longMessage.payload.length = 2 ^ 32 ∧
      ∃ f d, packetInput longMessage.wire = some f ∧ getData f = some d ∧ d.contents = [] := by
  refine ⟨⟨ret_longTopic, length_longTopic, ?_⟩, ret_longMessage, ?_, ?_⟩
  · obtain ⟨c, hc, hout⟩ := sendsAs_of_ret ret_longTopic
    obtain ⟨f, u, -, hf, hu, -, hcontents, -⟩ := hc.frame hout
    refine ⟨f, u, hf, hu, hcontents.trans ?_⟩
    have hname : longTopic.name? = some (slash :: List.replicate 65536 0x61) := rfl
    have hmod : (65536 + 1) % 2 ^ 16 = 1 := by decide
    rw [hname, optBytes_map_some, nameRef, contents_narrow, Ref.contents_ofBytes,
      Ref.len_ofBytes, List.length_cons, List.length_replicate, hmod, List.take_succ_cons,
      List.take_zero]
  · show (List.replicate (2 ^ 32) (0 : UInt8)).length = 2 ^ 32
    exact List.length_replicate
  · obtain ⟨c, hc, hout⟩ := sendsAs_of_ret ret_longMessage
    obtain ⟨f, -, d, hf, -, hd, -, hcontents⟩ := hc.frame hout
    refine ⟨f, d, hf, hd, hcontents.trans ?_⟩
    have hdata : longMessage.data? = some (Ref.ofBytes (List.replicate (2 ^ 32) 0)) := rfl
    rw [hdata, optBytes_map_some, payloadRef, contents_narrow, Ref.len_ofBytes,
      List.length_replicate, Nat.mod_self, List.take_zero]

end Ssn
