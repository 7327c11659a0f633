import SsnIpc.Client.State

/-!
# What the client does

The functions of the client's interface: requests (call, subscribe, unsubscribe, ping), one-way
messages, connecting and disconnecting, and polling. They are the steps of a client (`ClientOp`,
`ClientWorld.step`), together with a round of the timer thread.

What the outside does is a parameter of each step: what a poll or a connection attempt meets is
part of the step, and `net n` is what the socket answers to the send that finds `n` entries in the
log. Callbacks are written to the log; they do not call back into the client here. A url is given
by its bytes; `NULL` is refused like an empty one.
-/

namespace Ssn

open ByteMem

variable {κ : Type*} (net : Nat → Nat → SendStep)

namespace ClientWorld

def emit (w : ClientWorld κ) (e : ClientEvent κ) : ClientWorld κ := { w with log := w.log ++ [e] }

def setClient (w : ClientWorld κ) (c : SsnClient κ) : ClientWorld κ := { w with client := c }

/-! ## Pending requests that end without a reply -/

/-- A pending callback is told that there is no reply. -/
def callFailed (w : ClientWorld κ) (p : Pending κ) : ClientWorld κ :=
  match p.ftype, p.callback with
  | .rpc, some k => w.emit (.called k none)
  | .res, some k => w.emit (.called k none)
  | _, _ => w

/-- `ssn_client_collect_and_call_pending`. -/
def collectAndCallPending (w : ClientWorld κ) (onlyTimeout : Bool) : ClientWorld κ :=
  let (c, items) := w.client.collect onlyTimeout
  items.foldl callFailed (w.setClient c)

/-- `ssn_client_timeout_all`. -/
def timeoutAll (w : ClientWorld κ) : ClientWorld κ := w.collectAndCallPending false

/-! ## Requests -/

/-- `ssn_create_header` in the client's send buffer. -/
def createHeader (w : ClientWorld κ) (msg : Message) : ClientWorld κ :=
  w.setClient { w.client with
    sendbuf := Ssn.createHeader w.client.sendbuf msg.msgType msg.status msg.seqno }

/-- The transport to send on; `NULL` sends as a closed one does. -/
def wire (w : ClientWorld κ) : Transport := w.client.transport.getD ⟨-1, 0⟩

/-- What sending the message in this state does. -/
def sendOut (w : ClientWorld κ) (msg : Message) : Mem × SendOut :=
  sendMessage w.wire w.client.sendbuf msg.url msg.data (net w.log.length)

/-- `ssn_client_sendmsg`: send what the header in the send buffer and the arguments say, and close
the descriptor if that fails. -/
def sendmsg (w : ClientWorld κ) (msg : Message) : ClientWorld κ × Bool :=
  let (sendbuf, out) := w.sendOut net msg
  let transport := if out.ret then w.client.transport
    else w.client.transport.map Transport.disconnect
  ((w.setClient { w.client with sendbuf, transport }).emit (.sent msg out), out.ret)

def send (w : ClientWorld κ) (msg : Message) : ClientWorld κ × Bool :=
  (w.createHeader msg).sendmsg net msg

/-- A request with a callback: it takes a slot, which is freed again if the send fails. -/
def requestPending (w : ClientWorld κ) (ftype : FType) (msgType : UInt8) (url data : Option Ref)
    (k : κ) (timeoutMs : Nat) : ClientWorld κ × Option UInt16 :=
  match w.client.allocPendingIndex with
  | none => (w, none)
  | some (index, c) =>
    let (w, ok) := (w.setClient (c.register index ftype k timeoutMs)).send net
      ⟨msgType, 0, c.seqno, url, data⟩
    if ok then (w, some c.seqno) else (w.setClient (w.client.freePendingIndex index), none)

def requestPlain (w : ClientWorld κ) (msgType : UInt8) (url data : Option Ref) :
    ClientWorld κ × Option UInt16 :=
  let (seqno, c) := w.client.prepareSeqno
  let (w, ok) := (w.setClient c).send net ⟨msgType, 0, seqno, url, data⟩
  (w, if ok then some seqno else none)

/-- What `ssn_client_request_ex` and `ssn_client_call_ex` share: the sequence number of the
request if it was sent. -/
def requestWith (w : ClientWorld κ) (ftype : FType) (msgType : UInt8) (url data : Option Ref)
    (callback : Option κ) (timeoutMs : Nat) : ClientWorld κ × Option UInt16 :=
  match callback with
  | some k => w.requestPending net ftype msgType url data k timeoutMs
  | none => w.requestPlain net msgType url data

/-- `ssn_client_request_ex`. -/
def requestEx (w : ClientWorld κ) (msgType : UInt8) (url data : Option Ref) (callback : Option κ)
    (timeoutMs : Nat) : ClientWorld κ × Option UInt16 :=
  if w.client.connected then w.requestWith net .res msgType url data callback timeoutMs
  else (w, none)

/-- `ssn_client_call_ex`, that is `ssn_client_call`. -/
def callEx (w : ClientWorld κ) (url : Bytes) (data : Option Ref) (callback : Option κ)
    (timeoutMs : Nat) : ClientWorld κ × Option UInt16 :=
  if w.client.connected ∧ urlOk url then
    w.requestWith net .rpc MsgType.rpcRequest (some (Ref.ofBytes url)) data callback timeoutMs
  else (w, none)

/-- `ssn_client_subscribe`: the handler is kept whatever becomes of the request. -/
def subscribe (w : ClientWorld κ) (url : Bytes) (callback : Option κ) (timeoutMs : Nat) :
    ClientWorld κ × Option UInt16 :=
  if urlOk url ∧ w.client.connected then
    (w.setClient { w.client with subHandlers := ⟨url, callback⟩ :: w.client.subHandlers }).requestEx
      net MsgType.subscribe (some (Ref.ofBytes url)) none none timeoutMs
  else (w, none)

/-- `ssn_client_unsubscribe`: the newest handler of the url goes. -/
def unsubscribe (w : ClientWorld κ) (url : Bytes) (timeoutMs : Nat) :
    ClientWorld κ × Option UInt16 :=
  if w.client.connected ∧ urlOk url then
    (w.setClient { w.client with
        subHandlers := w.client.subHandlers.eraseP fun h => h.url = url }).requestEx
      net MsgType.unsubscribe (some (Ref.ofBytes url)) none none timeoutMs
  else (w, none)

/-- `ssn_client_message`. -/
def message (w : ClientWorld κ) (url : Bytes) (data : Option Ref) : ClientWorld κ :=
  if w.client.connected ∧ urlOk url ∧ data.isSome then
    (w.send net ⟨MsgType.message, 0, 0, some (Ref.ofBytes url), data⟩).1
  else w

/-! ## Input -/

/-- `ssn_client_handle_publish`: the first handler whose url is the frame's, or the general
handlers if there is none with a callback. -/
def handlePublish (w : ClientWorld κ) (f : Frame) : ClientWorld κ :=
  match (w.client.subHandlers.find? fun h => h.url = f.url).bind SubHandler.callback with
  | some k => w.emit (.published k f)
  | none =>
    match w.client.onsub, w.client.onmsg with
    | some k, _ => w.emit (.onsub k f)
    | none, some k => w.emit (.onmsg k f)
    | none, none => w

/-- `ssn_client_handle_message`. -/
def handleMessage (w : ClientWorld κ) (f : Frame) : ClientWorld κ :=
  match w.client.onmsg with
  | some k => w.emit (.onmsg k f)
  | none => w

/-- `ssn_client_handle_response` and `ssn_client_handle_rpc_response`: the callback is called if
it is of the type the reply asks for. -/
def handleReply (w : ClientWorld κ) (ftype : FType) (f : Frame) (p : Pending κ) : ClientWorld κ :=
  match p.callback with
  | some k => if p.ftype = ftype then w.emit (.called k (some f)) else w
  | none => w

/-- `ssn_client_handle_response`. -/
def handleResponse (w : ClientWorld κ) (f : Frame) (p : Pending κ) : ClientWorld κ :=
  w.handleReply .res f p

/-- `ssn_client_handle_rpc_response`. -/
def handleRpcResponse (w : ClientWorld κ) (f : Frame) (p : Pending κ) : ClientWorld κ :=
  w.handleReply .rpc f p

/-- A reply: whatever its type, the slot of its sequence number is freed. (The pool of the
protocol layer, which `ssn_rpc_handle_reply` looks at, is empty.) -/
def handlePendingReply (w : ClientWorld κ) (f : Frame) : ClientWorld κ :=
  match w.client.getPendingSnapshot (getSeqno f) with
  | none => w
  | some (index, p) =>
    let w :=
      if getMsgType f = MsgType.subscribe ∨ getMsgType f = MsgType.unsubscribe ∨
          getMsgType f = MsgType.pingEcho then w.handleResponse f p
      else if getMsgType f = MsgType.rpcRequest then w.handleRpcResponse f p
      else w
    w.setClient (w.client.freePendingIndex index)

/-- What `ssn_client_input` does with a frame. -/
def input (w : ClientWorld κ) (f : Frame) : ClientWorld κ :=
  let w := w.emit (.input f)
  if getMsgType f = MsgType.publish then w.handlePublish f
  else if getMsgType f = MsgType.message then w.handleMessage f
  else w.handlePendingReply f

/-- `ssn_client_input`, the callback of the stream parser. It returns `client->valid`. -/
def clientInput (w : ClientWorld κ) (f : Frame) : ClientWorld κ × Bool := (w.input f, true)

/-! ## Polling -/

/-- The timer's event: pending requests that timed out are reported. -/
def handleEvent (w : ClientWorld κ) : ClientWorld κ :=
  if w.client.evtPending then
    (w.setClient { w.client with evtPending := false }).collectAndCallPending true
  else w

def connectionLost (w : ClientWorld κ) : ClientWorld κ :=
  (w.setClient { w.client with connected := false }).timeoutAll

/-- Bytes received go through the stream parser to `ssn_client_input`. The second result is what
`ssn_stream_feed` returns. -/
def feedInput (w : ClientWorld κ) (buf : Bytes) : ClientWorld κ × Bool :=
  let (recv, w, e) := streamFeed clientInput w.client.recv buf (w.emit (.received buf))
  (w.setClient { w.client with recv }, e.ret)

def isOpen (w : ClientWorld κ) : Bool := w.client.transport.any fun t => 0 ≤ t.getFd

/-- `ssn_client_process_events`, where `sock` is what is received if the descriptor is ready. -/
def processEvents (w : ClientWorld κ) (sock : Option RecvResult) : ClientWorld κ × Bool :=
  if w.client.connected then
    match if w.isOpen then sock else none with
    | some (.data buf) =>
      if buf = [] then (w.connectionLost, false)
      else
        let (w, ok) := w.feedInput (buf.take maxPacketSize)
        if ok then (w.handleEvent, true) else (w.connectionLost, false)
    | some .eof => (w.connectionLost, false)
    | some .error => (w.connectionLost, false)
    | some .again => (w.handleEvent, true)
    | none => (w.handleEvent, true)
  else (w.handleEvent, true)

end ClientWorld

/-- What `pselect` reports: nothing, or descriptors that are ready. -/
inductive PollOutcome
  | idle
  | ready (sock : Option RecvResult)

/-- What a try to receive the server's answer brings. `stale` tells whether the error code left
over from an earlier call is `EAGAIN`, which is looked at when the stream parser fails. -/
structure HandshakeRecv where
  result : RecvResult
  stale : Bool

/-- What a connection attempt meets: the descriptor if the connection is made, then what the
socket answers to the handshake, and what is received. -/
structure ConnectRun where
  fd : Option Nat
  net : Nat → SendStep
  recvs : List HandshakeRecv

/-- `ssn_client_send`: `total` of `len` bytes are out. -/
def clientSend (t : Transport) (buffer : Mem) (len total : Nat) (net : Nat → SendStep) : Bool :=
  match transportSend t (buffer.slice total (len - total)) (net 0) with
  | .accepted n =>
    if _h : 0 < n ∧ total + n < len then
      clientSend t buffer len (total + n) (fun i => net (i + 1))
    else 0 < n ∧ total + n = len
  | _ => false
termination_by len - total

namespace ClientWorld

/-- `ssn_client_poll`. -/
def poll (w : ClientWorld κ) : PollOutcome → ClientWorld κ
  | .idle => w
  | .ready sock =>
    let (w, ok) := w.processEvents sock
    if ok then w
    else w.setClient { w.client with connected := false, transport := none }

/-! ## Connecting -/

/-- What `ssn_client_conn_input` does with a frame; the number counts the answers seen. -/
def connInput (arg : ClientWorld κ × Nat) (f : Frame) : ClientWorld κ × Nat :=
  let (w, packetCnt) := arg
  let w := w.emit (.connInput f)
  if getMsgType f ≠ MsgType.serviceInfo ∨ getStatus f ≠ 0 ∨ f.data = [] then (w, packetCnt)
  else if 4 ≤ f.data.length then
    (w.setClient { w.client with cid := some (UInt32.ofNat (ofBe (f.data.take 4))) }, packetCnt + 1)
  else (w, packetCnt + 1)

/-- `ssn_client_conn_input`. -/
def clientConnInput (arg : ClientWorld κ × Nat) (f : Frame) : (ClientWorld κ × Nat) × Bool :=
  (connInput arg f, true)

/-- Bytes received go through the stream parser to `ssn_client_conn_input`. -/
def feedConn (w : ClientWorld κ) (buf : Bytes) : (ClientWorld κ × Nat) × Bool :=
  let (recv, (w, packetCnt), e) :=
    streamFeed clientConnInput w.client.recv buf (w.emit (.received buf), 0)
  ((w.setClient { w.client with recv }, packetCnt), e.ret)

/-- The receive loop of `ssn_client_connect`, with a number of tries left: true once the server
has answered. -/
def handshake (w : ClientWorld κ) : Nat → List HandshakeRecv → ClientWorld κ × Bool
  | 0, _ => (w, false)
  | _ + 1, [] => (w, false)
  | retries + 1, r :: recvs =>
    match r.result with
    | .data buf =>
      if buf = [] then (w, false)
      else
        match w.feedConn (buf.take maxPacketSize) with
        | ((w, packetCnt), true) => if 0 < packetCnt then (w, true) else handshake w retries recvs
        | ((w, _), false) => if r.stale then handshake w retries recvs else (w, false)
    | .eof => (w, false)
    | .error => (w, false)
    | .again => handshake w retries recvs

/-- The number of tries for a connection timeout, given in milliseconds. -/
def maxRetries (timeoutMs : Nat) : Nat := max 5 (min 60 (timeoutMs / 100))

/-- The part of `ssn_client_connect` after the pending requests were told. -/
def dial (w : ClientWorld κ) (timeoutMs : Option Nat) (run : ConnectRun) :
    ClientWorld κ × Bool :=
  match run.fd with
  | none => (w, false)
  | some fd =>
    let t : Transport := ⟨fd, w.client.sendTimeout⟩
    let w := (w.emit .opened).createHeader ⟨MsgType.serviceInfo, 0, 0, none, none⟩
    if clientSend t w.client.sendbuf headerSize 0 run.net then
      let (w, ok) := w.handshake (maxRetries (timeoutMs.getD 3000)) run.recvs
      if ok then (w.setClient { w.client with transport := some t, connected := true }, true)
      else (w, false)
    else (w, false)

/-- `ssn_client_connect`. -/
def connect (w : ClientWorld κ) (timeoutMs : Option Nat) (run : ConnectRun) :
    ClientWorld κ × Bool :=
  (w.setClient { w.client with connected := false, transport := none }).timeoutAll.dial timeoutMs
    run

/-- `ssn_client_disconnect`. -/
def disconnect (w : ClientWorld κ) : ClientWorld κ :=
  if w.client.connected then
    (w.setClient { w.client with
      connected := false
      transport := w.client.transport.map Transport.disconnect }).timeoutAll
  else w

/-- `ssn_client_send_timeout`: a live connection is replaced by a new one with the new timeout, if
one can be made (`outcome`). -/
def setSendTimeout (w : ClientWorld κ) (timeoutMs : Int) (outcome : Option Nat) : ClientWorld κ :=
  let sendTimeout := if 0 < timeoutMs then timeoutMs else 100
  let w := w.setClient { w.client with sendTimeout }
  match w.client.connected, w.client.transport, outcome with
  | true, some _, some fd =>
    (w.setClient { w.client with transport := some ⟨fd, sendTimeout⟩ }).emit .opened
  | _, _, _ => w

/-! ## Ping -/

section Ping

variable [DecidableEq κ]

/-- The flag that `ping_reply_cb` writes, after what was logged since the ping. -/
def replied (k : κ) (es : List (ClientEvent κ)) : Bool :=
  es.foldl (fun r e =>
    match e with
    | .called k' reply => if k' = k then reply.any fun f => getStatus f = 0 else r
    | _ => r) false

/-- The waiting loop of `ssn_client_ping`: polls of 10 ms each until the reply is there. `start`
is where the log stood. -/
def pingWait (w : ClientWorld κ) (k : κ) (start timeoutMs waited : Nat)
    (polls : Nat → PollOutcome) : ClientWorld κ :=
  if _h : ¬ replied k (w.log.drop start) ∧ waited < timeoutMs then
    pingWait (w.poll (polls 0)) k start timeoutMs (waited + 10) (fun i => polls (i + 1))
  else w
termination_by timeoutMs - waited

/-- The end of `ssn_client_ping`: an entry that got no reply is withdrawn. -/
def pingCancel (w : ClientWorld κ) (seqno : UInt16) : ClientWorld κ :=
  let index := w.client.seqnoToIndex seqno
  if index ≠ noIndex ∧ w.client.inUse index then w.setClient (w.client.freePendingIndex index)
  else w

/-- `ssn_client_ping`. The callback `k` stands for `ping_reply_cb` with the address of its flag. -/
def ping (w : ClientWorld κ) (k : κ) (timeoutMs : Nat) (polls : Nat → PollOutcome) :
    ClientWorld κ :=
  match w.requestEx net MsgType.pingEcho none none (some k) timeoutMs with
  | (w', none) => w'
  | (w', some seqno) =>
    let w'' := w'.pingWait k w.log.length timeoutMs 0 polls
    if replied k (w''.log.drop w.log.length) then w'' else w''.pingCancel seqno

end Ping

end ClientWorld

inductive ClientOp (κ : Type*)
  | connect (timeoutMs : Option Nat) (run : ConnectRun)
  | disconnect
  | call (url : Bytes) (data : Option Ref) (callback : Option κ) (timeoutMs : Nat)
  | subscribe (url : Bytes) (callback : Option κ) (timeoutMs : Nat)
  | unsubscribe (url : Bytes) (timeoutMs : Nat)
  | message (url : Bytes) (data : Option Ref)
  | ping (k : κ) (timeoutMs : Nat) (polls : Nat → PollOutcome)
  | sendTimeout (timeoutMs : Int) (outcome : Option Nat)
  | poll (outcome : PollOutcome)
  | timerSweep

def ClientWorld.step [DecidableEq κ] (w : ClientWorld κ) : ClientOp κ → ClientWorld κ
  | .connect timeoutMs run => (w.connect timeoutMs run).1
  | .disconnect => w.disconnect
  | .call url data callback timeoutMs => (w.callEx net url data callback timeoutMs).1
  | .subscribe url callback timeoutMs => (w.subscribe net url callback timeoutMs).1
  | .unsubscribe url timeoutMs => (w.unsubscribe net url timeoutMs).1
  | .message url data => w.message net url data
  | .ping k timeoutMs polls => w.ping net k timeoutMs polls
  | .sendTimeout timeoutMs outcome => w.setSendTimeout timeoutMs outcome
  | .poll outcome => w.poll outcome
  | .timerSweep => w.setClient w.client.timerSweep

end Ssn
