import Mathlib.Data.List.TakeDrop
import SsnIpc.Frame.RoundTrip
import SsnIpc.Protocol.Rpc

/-!
# Sending functions of the protocol layer

`ssn_rpc_response`, `ssn_pubsub_pub_publish` and `ssn_msg_send`. Like `ssn_rpc_call` and
`ssn_pubsub_sub_subscribe` they create a header in a buffer on the stack, make references to the
name and the data, with lengths cast to 16 and 32 bits, and call `ssn_send_message`.

A context has a log of its sends, which no function looks at.
-/

namespace Ssn

open ByteMem

/-- A name as it is passed to `ssn_send_message`: `(uint16_t)strlen(name)` bytes of it. -/
def nameRef (name : Bytes) : Ref := (Ref.ofBytes name).narrow (2 ^ 16)

/-- Data as they are passed to `ssn_send_message`: `(uint32_t)data_len` bytes of them. -/
def payloadRef (data : Ref) : Ref := data.narrow (2 ^ 32)

/-- What surrounds a send: what is on the stack where the buffer lies, and what the socket
answers. -/
structure SendEnv where
  stack : Mem
  net : Nat → SendStep

/-- The transport of a context and its sends so far. -/
structure SendingCtx where
  transport : Option Transport
  sends : List SendOut

namespace SendingCtx

/-- A header and a send, and the result of the function that ends with them. -/
def send (c : SendingCtx) (t : Transport) (msg : Message) (env : SendEnv) : SendingCtx × Int :=
  let out := SendCall.out
    ⟨t, env.stack, msg.msgType, msg.status, msg.seqno, msg.url, msg.data, env.net⟩
  ({ c with sends := c.sends ++ [out] }, if out.ret then 0 else -1)

/-- `ssn_rpc_response`. -/
def rpcResponse (c : SendingCtx) (seqno : UInt16) (status : UInt32) (data : Ref) (env : SendEnv) :
    SendingCtx × Int :=
  match c.transport with
  | none => (c, -1)
  | some t => c.send t ⟨MsgType.rpcRequest, status, seqno, none, some (payloadRef data)⟩ env

/-- `ssn_pubsub_pub_publish`. -/
def publish (c : SendingCtx) (topic : Option Bytes) (data : Ref) (env : SendEnv) :
    SendingCtx × Int :=
  match topic, c.transport with
  | none, _ => (c, -1)
  | some _, none => (c, -1)
  | some topic, some t =>
    c.send t ⟨MsgType.publish, 0, 0, some (nameRef topic), some (payloadRef data)⟩ env

end SendingCtx

/-- `ssn_msg_send_t`. -/
structure MsgSend extends SendingCtx where
  nextSeqno : UInt16

/-- `ssn_msg_send`. The sequence number goes up whether the send succeeds or not. -/
def MsgSend.send (m : MsgSend) (data : Ref) (env : SendEnv) : MsgSend × Int :=
  match m.transport with
  | none => (m, -1)
  | some t =>
    let (c, ret) := m.toSendingCtx.send t
      ⟨MsgType.message, 0, m.nextSeqno, none, some (payloadRef data)⟩ env
    (⟨c, m.nextSeqno + 1⟩, ret)

/-! ## What is left of a name and of data -/

theorem Ref.contents_ofBytes (b : Bytes) : (Ref.ofBytes b).contents = b := rfl

theorem Ref.len_ofBytes (b : Bytes) : (Ref.ofBytes b).len = b.length := rfl

theorem contents_narrow (r : Ref) (n : Nat) :
    (r.narrow n).contents = r.contents.take (r.len % n) := by
  obtain ⟨ptr, len, fits⟩ := r
  cases ptr <;> simp [Ref.narrow, Ref.contents]

/-- Data keep all their bytes if the narrow type can count them, and lose some if not. -/
theorem contents_narrow_eq_iff (r : Ref) {n : Nat} (hn : 0 < n) :
    (r.narrow n).contents = r.contents ↔ r.contents.length < n := by
  rw [contents_narrow, List.take_eq_self_iff]
  obtain ⟨ptr, len, fits⟩ := r
  cases ptr with
  | none => simp [Ref.contents, hn]
  | some b =>
    have hlen : b.length = len := fits b rfl
    simp only [Ref.contents, Option.getD_some, hlen]
    constructor
    · intro hle
      exact Nat.lt_of_le_of_lt hle (Nat.mod_lt _ hn)
    · intro hlt
      exact Nat.le_of_eq (Nat.mod_eq_of_lt hlt).symm

theorem nameRef_noDangle (name : Bytes) : (nameRef name).NoDangle := by
  intro h
  cases h

/-! ## A socket that takes everything -/

/-- A buffer of zeros and a socket that takes everything. -/
def SendEnv.ready : SendEnv := ⟨.zero, acceptAll 0⟩

end Ssn
