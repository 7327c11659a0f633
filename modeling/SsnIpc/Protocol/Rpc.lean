import SsnIpc.Frame.Send

/-!
# The requester of the RPC protocol layer

`ssn_rpc_req_t` of `src/protocol/rpc/ssn_rpc.c`: a requester of its own, apart from the client. It
keeps 256 slots for the requests in flight. A call takes the first free slot, a sequence number no
slot in use has, and a deadline; a poll first gives up the requests whose deadline has come, then
receives once and hands a reply to the request it belongs to.

The clock is a parameter of each step (`now`), and so is what is received. As for the client, what
happens is written to a log, and `net n` is what the socket answers to the send that finds `n`
entries there. The callback `on_reply` and its argument are one value of a type `κ`; callbacks do
not call back into the requester here.

A request is known by the place of its send in the log. A slot carries that number (`born`) next
to the fields of `rpc_pending_entry_t`; no function looks at it.
-/

namespace Ssn

open ByteMem

/-! ## Time -/

/-- A `struct timespec` as `clock_gettime` fills it in. -/
structure Timespec where
  sec : Nat
  nsec : Nat
  nsec_lt : nsec < 1000000000
  deriving DecidableEq

namespace Timespec

theorem nsec_zero_lt : 0 < 1000000000 := by decide

def ofSec (sec : Nat) : Timespec := ⟨sec, 0, nsec_zero_lt⟩

def toNanos (t : Timespec) : Nat := t.sec * 1000000000 + t.nsec

theorem carry_lt {nsec : Nat} (ms : Nat) (h : nsec < 1000000000) :
    nsec + ms % 1000 * 1000000 - 1000000000 < 1000000000 := by omega

/-- The deadline of a request made at `t`: seconds and nanoseconds are added apart, with a
carry. -/
def expireTime (t : Timespec) (timeoutMs : UInt64) : Timespec :=
  let nsec := t.nsec + timeoutMs.toNat % 1000 * 1000000
  if h : nsec < 1000000000 then ⟨t.sec + timeoutMs.toNat / 1000, nsec, h⟩
  else ⟨t.sec + timeoutMs.toNat / 1000 + 1, nsec - 1000000000, carry_lt _ t.nsec_lt⟩

/-- The test of `ssn_rpc_poll`. -/
def expired (now expire : Timespec) : Bool :=
  expire.sec < now.sec ∨ (now.sec = expire.sec ∧ expire.nsec ≤ now.nsec)

theorem toNanos_expireTime (t : Timespec) (timeoutMs : UInt64) :
    (t.expireTime timeoutMs).toNanos = t.toNanos + timeoutMs.toNat * 1000000 := by
  simp only [expireTime, toNanos]
  split_ifs <;> simp only <;> omega

theorem expired_iff (now expire : Timespec) :
    now.expired expire = true ↔ expire.toNanos ≤ now.toNanos := by
  have h := now.nsec_lt
  have h' := expire.nsec_lt
  simp only [expired, toNanos, decide_eq_true_eq]
  omega

end Timespec

/-! ## State -/

/-- `RPC_MAX_PENDING`. -/
def rpcMaxPending : Nat := 256

/-- `RPC_DEFAULT_TIMEOUT_MS`. -/
def rpcDefaultTimeoutMs : UInt64 := 5000

/-- `SSN_ECODE_TIMEOUT`. -/
def ecodeTimeout : UInt32 := 3

/-- `rpc_pending_entry_t`, and the number of the request that was put there last. -/
structure RpcPending (κ : Type*) where
  seqno : UInt16
  timeoutMs : UInt64
  callback : Option κ
  expireTime : Timespec
  inUse : Bool
  born : Nat

/-- `ssn_rpc_req_t`. -/
structure RpcReq (κ : Type*) where
  transport : Option Transport
  onReply : Option κ
  nextSeqno : UInt16
  pendingPool : Nat → RpcPending κ

structure ReplyCall (κ : Type*) where
  callback : κ
  seqno : UInt16
  status : UInt32
  data : Ref

/-- What can be seen of a requester from outside. -/
inductive RpcEvent (κ : Type*)
  /-- A request was handed to `ssn_send_message`. -/
  | sent (msg : Message) (out : SendOut)
  /-- `ssn_packet_input` found a frame at the front of what was received. -/
  | input (frame : Frame)
  /-- The callback of the request `born` was called. -/
  | called (born : Nat) (call : ReplyCall κ)

/-- A requester and its log. -/
structure RpcWorld (κ : Type*) where
  req : RpcReq κ
  log : List (RpcEvent κ)

variable {κ : Type*}

/-- A `NULL` pointer with length 0. -/
def Ref.null : Ref := ⟨none, 0, by simp⟩

theorem fits_take {ptr : Option Bytes} {len : Nat} (h : ∀ b ∈ ptr, b.length = len) (n : Nat) :
    ∀ b ∈ ptr.map (List.take (len % n)), b.length = len % n := by
  intro b hb
  obtain ⟨a, ha, rfl⟩ := Option.map_eq_some_iff.1 hb
  rw [List.length_take, h a ha, Nat.min_eq_left (Nat.mod_le len n)]

/-- A pointer whose length was cut to a narrower integer type. -/
def Ref.narrow (r : Ref) (n : Nat) : Ref :=
  ⟨r.ptr.map (List.take (r.len % n)), r.len % n, fits_take r.fits n⟩

/-- The data of a frame as `ssn_get_data` returns them. -/
def dataRef (f : Frame) : Ref := (getData f).getD Ref.null

namespace RpcReq

/-- `ssn_rpc_req_create`. -/
def create (onReply : Option κ) : RpcReq κ where
  transport := none
  onReply := onReply
  nextSeqno := 1
  pendingPool _ := ⟨0, 0, none, .ofSec 0, false, 0⟩

/-- Write to slot `i`. -/
def setSlot (r : RpcReq κ) (i : Nat) (e : RpcPending κ) : RpcReq κ :=
  { r with pendingPool := Function.update r.pendingPool i e }

/-- `pending_pool_find`. -/
def pendingPoolFind (r : RpcReq κ) (seqno : UInt16) : Option Nat :=
  (List.range rpcMaxPending).find? fun i =>
    (r.pendingPool i).inUse ∧ (r.pendingPool i).seqno = seqno

/-- `pending_pool_alloc`. -/
def pendingPoolAlloc (r : RpcReq κ) : Option (Nat × RpcReq κ) :=
  ((List.range rpcMaxPending).find? fun i => !(r.pendingPool i).inUse).map fun i =>
    (i, r.setSlot i { r.pendingPool i with inUse := true })

/-- `pending_pool_free`. -/
def pendingPoolFree (r : RpcReq κ) (i : Nat) : RpcReq κ :=
  r.setSlot i { r.pendingPool i with inUse := false }

/-- The search of `ssn_rpc_call` for a sequence number that is not in flight, with a number of
turns left. The last turn gives up. -/
def seekSeqno (r : RpcReq κ) : Nat → UInt16 → Option UInt16 × RpcReq κ
  | 0, seqno => (some seqno, r)
  | n + 1, seqno =>
    if (r.pendingPoolFind seqno).isNone then (some seqno, r)
    else
      let r' := { r with nextSeqno := r.nextSeqno + 1 }
      if n = 0 then (none, r') else r'.seekSeqno n r.nextSeqno

/-- The sequence number of a new request. -/
def takeSeqno (r : RpcReq κ) : Option UInt16 × RpcReq κ :=
  { r with nextSeqno := r.nextSeqno + 1 }.seekSeqno (rpcMaxPending + 1) r.nextSeqno

end RpcReq

/-! ## Calls and polls -/

/-- What a poll of the protocol layer received: the frame at the front of it, or the value to
return. -/
def recvFrame : RecvResult → Except Int Frame
  | .data buf =>
    if buf = [] then .error 0
    else
      match packetInput (buf.take maxPacketSize) with
      | some f => .ok f
      | none => .error (-1)
  | .eof => .error 0
  | .again => .error (-1)
  | .error => .error (-1)

namespace RpcWorld

def emit (w : RpcWorld κ) (e : RpcEvent κ) : RpcWorld κ := { w with log := w.log ++ [e] }

def setReq (w : RpcWorld κ) (r : RpcReq κ) : RpcWorld κ := { w with req := r }

/-- `ssn_rpc_connect`. -/
def connect (w : RpcWorld κ) : Option Transport → RpcWorld κ × Int
  | none => (w, -1)
  | some t => (w.setReq { w.req with transport := some t }, 0)

def entry (w : RpcWorld κ) (seqno : UInt16) (timeoutMs : UInt64) (now : Timespec) : RpcPending κ :=
  let timeoutMs := if timeoutMs = 0 then rpcDefaultTimeoutMs else timeoutMs
  ⟨seqno, timeoutMs, w.req.onReply, now.expireTime timeoutMs, true, w.log.length⟩

/-- The message of a request. Both lengths are cast to the types of the header's fields. -/
def requestMsg (methodName : Bytes) (data : Ref) (seqno : UInt16) : Message :=
  ⟨MsgType.rpcRequest, 0, seqno, some ((Ref.ofBytes methodName).narrow (2 ^ 16)),
    some (data.narrow (2 ^ 32))⟩

/-- The end of `ssn_rpc_call`: slot `i` is filled in and the request is sent from the buffer
`stack`; the slot is freed again if that fails. -/
def sendRequest (net : Nat → Nat → SendStep) (w : RpcWorld κ) (t : Transport) (i : Nat)
    (e : RpcPending κ) (msg : Message) (stack : Mem) : RpcWorld κ × Int :=
  let out := (sendMessage t (createHeader stack msg.msgType msg.status msg.seqno) msg.url msg.data
    (net w.log.length)).2
  let w := (w.setReq (w.req.setSlot i e)).emit (.sent msg out)
  if out.ret then (w, 0) else (w.setReq (w.req.pendingPoolFree i), -1)

/-- `ssn_rpc_call`. -/
def call (net : Nat → Nat → SendStep) (w : RpcWorld κ) (methodName : Option Bytes) (data : Ref)
    (timeoutMs : UInt64) (now : Timespec) (stack : Mem) : RpcWorld κ × Int :=
  match methodName, w.req.transport with
  | none, _ => (w, -1)
  | some _, none => (w, -1)
  | some methodName, some t =>
    match w.req.pendingPoolAlloc with
    | none => (w, -1)
    | some (i, r) =>
      match r.takeSeqno with
      | (none, r) => (w.setReq (r.pendingPoolFree i), -1)
      | (some seqno, r) =>
        (w.setReq r).sendRequest net t i (w.entry seqno timeoutMs now)
          (requestMsg methodName data seqno) stack

def callback (w : RpcWorld κ) (e : RpcPending κ) (status : UInt32) (data : Ref) : RpcWorld κ :=
  match e.callback with
  | some k => w.emit (.called e.born ⟨k, e.seqno, status, data⟩)
  | none => w

/-- One turn of the loop of `ssn_rpc_poll` over the slots. -/
def expireOne (now : Timespec) (w : RpcWorld κ) (i : Nat) : RpcWorld κ :=
  let e := w.req.pendingPool i
  if e.inUse ∧ now.expired e.expireTime then
    let w := w.callback e ecodeTimeout Ref.null
    w.setReq (w.req.pendingPoolFree i)
  else w

/-- The loop of `ssn_rpc_poll` over the slots. -/
def expire (w : RpcWorld κ) (now : Timespec) : RpcWorld κ :=
  (List.range rpcMaxPending).foldl (expireOne now) w

/-- `ssn_rpc_handle_reply`. -/
def handleReply (w : RpcWorld κ) (f : Frame) : RpcWorld κ × Int :=
  if getMsgType f ≠ MsgType.rpcRequest then (w, 0)
  else
    match w.req.pendingPoolFind (getSeqno f) with
    | none => (w, 0)
    | some i =>
      let w := w.callback (w.req.pendingPool i) (getStatus f) (dataRef f)
      (w.setReq (w.req.pendingPoolFree i), 1)

/-- `ssn_rpc_poll` on a requester. -/
def poll (w : RpcWorld κ) (now : Timespec) (recv : RecvResult) : RpcWorld κ × Int :=
  if w.req.transport.isNone then (w, -1)
  else
    let w := w.expire now
    match recvFrame recv with
    | .error ret => (w, ret)
    | .ok f =>
      let w := w.emit (.input f)
      if getMsgType f ≠ MsgType.rpcRequest then (w, 0) else ((w.handleReply f).1, 1)

end RpcWorld

inductive RpcOp
  | connect (transport : Option Transport)
  | call (methodName : Option Bytes) (data : Ref) (timeoutMs : UInt64) (now : Timespec)
    (stack : Mem)
  | poll (now : Timespec) (recv : RecvResult)

def RpcWorld.step (net : Nat → Nat → SendStep) (w : RpcWorld κ) : RpcOp → RpcWorld κ
  | .connect t => (w.connect t).1
  | .call methodName data timeoutMs now stack =>
    (w.call net methodName data timeoutMs now stack).1
  | .poll now recv => (w.poll now recv).1

end Ssn
