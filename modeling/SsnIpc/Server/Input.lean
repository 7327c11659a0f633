import SsnIpc.Server.State

/-!
# What the server does with its input

The handlers behind `ssn_server_poll`: a frame (`ssn_server_input` and one handler per message
type), the input of a client, a new connection and the timer's event. Together with the timer
sweep and the calls of the application they are the steps of the server (`ServerOp`,
`World.step`). Calls of user handlers are written to the log; they do not call back into the
server here.
-/

namespace Ssn

open ByteMem

variable {β : Type*} (net : Nat → Nat → SendStep)

/-- `SSN_ECODE_INVALID_ARGS`. -/
def ecodeInvalidArgs : UInt32 := 1

/-- `SSN_ECODE_NOT_FOUND`. -/
def ecodeNotFound : UInt32 := 2

/-- `SSN_ECODE_OUT_OF_MEMORY`. -/
def ecodeOutOfMemory : UInt32 := 0x03000001

/-- `SSN_TIMER_PERIOD`, in milliseconds. -/
def timerPeriod : Int := 50

/-- `INT_MAX`. -/
def intMax : Int := 2147483647

/-- `keepalive_timeout * 1000`, in `int`: the idle timeout in milliseconds. An overflow, which C
leaves open, wraps around. -/
def idleMs (keepalive : Int) : Int := (keepalive * 1000).bmod 0x100000000

theorem idleMs_of_le {keepalive : Int} (h0 : 0 < keepalive) (h : 1000 * keepalive ≤ intMax) :
    idleMs keepalive = keepalive * 1000 := by
  simp only [intMax] at h
  exact Int.bmod_eq_of_le (by omega) (by omega)

/-! ## Frames -/

/-- A reply with the type and sequence number of the frame. -/
def replyTo (f : Frame) (status : UInt32) (data : Option Ref) : Message :=
  ⟨getMsgType f, status, getSeqno f, none, data⟩

namespace World

/-- The handshake is complete: the timer of the client becomes its idle timer, or the client
leaves the timer list if idle connections are kept. -/
def startIdle (keepalive : Int) (cli : Client) : Client :=
  if 0 < keepalive then { cli with hstAlive := idleMs keepalive }
  else if cli.hstLinked then { cli with hstAlive := 0, hstLinked := false }
  else cli

/-- The reply of `ssn_server_handle_service_info`: the id of the client. The header is written
before the timer is touched. -/
def replyServiceInfo (w : World β) (id : UInt32) (f : Frame) : World β :=
  let msg := replyTo f 0 (some (Ref.ofBytes (toBe 4 id.toNat)))
  ((w.createHeader msg).modifyCli id (startIdle w.server.keepaliveTimeout)).cliSendmsg net id msg

/-- The end of `ssn_server_handle_service_info`: the first time, the connect handler is called. -/
def noteConnected (w : World β) (id : UInt32) : World β :=
  if (w.server.cliFind id).any fun cli => !cli.onconn then
    (w.modifyCli id fun cli => { cli with onconn := true }).callOncli id true
  else w

/-- `ssn_server_handle_service_info`. -/
def handleServiceInfo (w : World β) (id : UInt32) (f : Frame) : World β :=
  (w.replyServiceInfo net id f).noteConnected id

/-- `ssn_server_handle_rpc_request`. (A method table that was built without a fault answers every
lookup, see `Sim.handler_eq`.) -/
def handleRpcRequest (w : World β) (id : UInt32) (f : Frame) : World β :=
  if urlOk f.url then
    match (w.server.router.handler f.url).join with
    | some handler => w.emit (.onrpc id handler f)
    | none => w.send net id (replyTo f ecodeNotFound none)
  else w.send net id (replyTo f ecodeInvalidArgs none)

/-- The client has subscribed to the url already. -/
def isSubscribed (w : World β) (id : UInt32) (url : Bytes) : Bool :=
  (w.server.cliFind id).any fun cli => url ∈ cli.subscribed

/-- `ssn_server_handle_subscribe`, where `memory` tells whether there is memory for a new
subscription. -/
def handleSubscribeWith (memory : Bool) (w : World β) (id : UInt32) (f : Frame) : World β :=
  let status :=
    if urlOk f.url then if w.isSubscribed id f.url ∨ memory then 0 else ecodeOutOfMemory
    else ecodeInvalidArgs
  let w := if urlOk f.url ∧ memory then
      w.modifyCli id fun cli =>
        if f.url ∈ cli.subscribed then cli else { cli with subscribed := f.url :: cli.subscribed }
    else w
  w.send net id (replyTo f status none)

def handleSubscribe (w : World β) (id : UInt32) (f : Frame) : World β :=
  w.handleSubscribeWith net true id f

/-- `ssn_server_handle_unsubscribe`: one subscription, or all of them if the url is not one. -/
def handleUnsubscribe (w : World β) (id : UInt32) (f : Frame) : World β :=
  let w := w.modifyCli id fun cli =>
    { cli with subscribed := if urlOk f.url then cli.subscribed.erase f.url else [] }
  w.send net id (replyTo f 0 none)

/-- `ssn_server_handle_ping_echo`. -/
def handlePingEcho (w : World β) (id : UInt32) (f : Frame) : World β :=
  w.send net id (replyTo f 0 none)

/-- The part of `ssn_server_input` before the switch: the client is active, and a running idle
timer starts over. -/
def touch (w : World β) (id : UInt32) : World β :=
  let keepalive := w.server.keepaliveTimeout
  w.modifyCli id fun cli =>
    { cli with
      active := true
      hstAlive := if 0 < keepalive ∧ cli.hstAlive ≠ 0 then idleMs keepalive else cli.hstAlive }

/-- The switch of `ssn_server_input` on the message type. -/
def dispatchWith (memory : Bool) (w : World β) (id : UInt32) (f : Frame) : World β :=
  if getMsgType f = MsgType.message then
    if w.server.hasOnmsg then w.emit (.onmsg id f) else w
  else if getMsgType f = MsgType.serviceInfo then w.handleServiceInfo net id f
  else if getMsgType f = MsgType.rpcRequest then w.handleRpcRequest net id f
  else if getMsgType f = MsgType.subscribe then w.handleSubscribeWith net memory id f
  else if getMsgType f = MsgType.unsubscribe then w.handleUnsubscribe net id f
  else if getMsgType f = MsgType.pingEcho then w.handlePingEcho net id f
  else w

def dispatch (w : World β) (id : UInt32) (f : Frame) : World β := w.dispatchWith net true id f

/-- What `ssn_server_input` does with a frame. -/
def inputWith (memory : Bool) (id : UInt32) (w : World β) (f : Frame) : World β :=
  ((w.emit (.input id f)).touch id).dispatchWith net memory id f

def input (id : UInt32) (w : World β) (f : Frame) : World β := w.inputWith net true id f

theorem handleSubscribe_eq (w : World β) (id : UInt32) (f : Frame) :
    w.handleSubscribe net id f =
      (if urlOk f.url then w.modifyCli id fun cli =>
          if f.url ∈ cli.subscribed then cli else { cli with subscribed := f.url :: cli.subscribed }
        else w).send net id (replyTo f (if urlOk f.url then 0 else ecodeInvalidArgs) none) := by
  simp [handleSubscribe, handleSubscribeWith]

theorem input_eq (w : World β) (id : UInt32) (f : Frame) :
    w.input net id f = ((w.emit (.input id f)).touch id).dispatch net id f := rfl

/-- `ssn_server_input`, the callback of the stream parser. It returns `server->valid`, so a server
that is not being destroyed always goes on. -/
def serverInput (id : UInt32) (w : World β) (f : Frame) : World β × Bool :=
  (w.input net id f, true)

/-! ## Polling -/

/-- The end of a connection: the connect handler is told if it knows of the client, then the
client is destroyed. -/
def closeClient (w : World β) (cli : Client) : World β :=
  let w := if cli.onconn then
      (w.modifyCli cli.id fun cli => { cli with onconn := false }).callOncli cli.id false
    else w
  w.cliDestroy cli.id

/-- `ssn_server_handle_client_input` for a client whose descriptor is ready. The result of
`ssn_stream_feed` is not looked at. -/
def handleClientInput (w : World β) (id : UInt32) (r : RecvResult) : World β :=
  match w.server.cliFind id with
  | none => w
  | some cli =>
    if cli.transport.getFd < 0 then w
    else
      match r with
      | .data buf =>
        if buf = [] then w.closeClient cli
        else
          let buf := buf.take maxPacketSize
          let (recv, w, _) :=
            streamFeed (serverInput net id) cli.recv buf (w.emit (.received id buf))
          w.modifyCli id fun cli => { cli with recv }
      | .eof => w.closeClient cli
      | .again => w
      | .error => w.closeClient cli

/-- A client as `ssn_server_handle_new_connection` and `ssn_server_cli_init` set it up: a fresh
stream parser and a running handshake timer. -/
def cliInit (s : Server β) (id : UInt32) (fd : Int) : Client where
  id := id
  active := false
  onconn := false
  subscribed := []
  hstAlive := s.handshakeTimeout
  hstLinked := true
  recv := streamInit ⟨0, 0, Mem.zero⟩
  transport := ⟨fd, s.sendTimeout⟩

/-- A new client enters the table. -/
def addClient (w : World β) (id ncid : UInt32) (fd : Int) : World β :=
  { w with server := { w.server with
      ncid
      clis := Buckets.insert Client.id cliHash w.server.clis (cliInit w.server id fd) } }.emit
    (.accepted id)

/-- `ssn_server_handle_new_connection` for an accepted descriptor, which is refused at the
limit. -/
def handleNewConnection (w : World β) (fd : Int) : World β :=
  if w.server.maxConnections.toNat ≤ w.server.clients.length then w
  else
    match w.server.cliNewid (2 ^ 32) w.server.ncid with
    | none => w
    | some (id, ncid) => w.addClient id ncid fd

/-- A client whose timer ran out. -/
def expired (cli : Client) : Bool := cli.hstLinked ∧ cli.hstAlive = 0

/-- `ipc_event_pair_drain`. -/
def drainEvent (w : World β) : World β :=
  { w with server := { w.server with evtPending := false } }

/-- `ssn_server_handle_event_input`: clients whose timer ran out are disconnected and
destroyed. -/
def handleEventInput (w : World β) : World β :=
  if w.server.evtPending then
    let w := w.drainEvent
    (w.server.clients.filter expired).foldl (fun w cli => w.cliDestroy cli.id) w
  else w

/-- The timer of a client 50 ms later. -/
def sweepCli (cli : Client) : Client :=
  if cli.hstLinked then
    { cli with hstAlive := if cli.hstAlive ≤ timerPeriod then 0 else cli.hstAlive - timerPeriod }
  else cli

/-- One round of `ssn_server_timer_handle` for this server. -/
def timerSweep (w : World β) : World β :=
  let emit := w.server.clients.any fun cli => cli.hstLinked ∧ cli.hstAlive ≤ timerPeriod
  { w with server := { w.server with
      clis := fun i => (w.server.clis i).map sweepCli
      evtPending := w.server.evtPending || emit } }

/-! ## Calls of the application -/

/-- `ssn_server_peer_close`. -/
def peerClose (w : World β) (id : UInt32) : World β :=
  w.modifyCli id fun cli => { cli with transport := cli.transport.disconnect }

/-- What `ssn_server_publish` sends. -/
def publishMsg (url : Bytes) (data : Option Ref) : Message :=
  ⟨MsgType.publish, 0, 0, some (Ref.ofBytes url), data⟩

/-- The body of the loop of `ssn_server_do_publish`. -/
def publishTo (url : Bytes) (msg : Message) (w : World β) (cli : Client) : World β :=
  if cli.active ∧ Server.cliSubMatch cli.subscribed url then w.cliSendmsg net cli.id msg else w

/-- `ssn_server_publish`: one header, then a send to every active client with a matching
subscription. -/
def publish (w : World β) (url : Bytes) (data : Option Ref) : World β :=
  if urlOk url then
    let msg := publishMsg url data
    w.server.clients.foldl (publishTo net url msg) (w.createHeader msg)
  else w

/-- A message to a client that may not be there; then the send buffer is not touched. -/
def sendTo (w : World β) (id : UInt32) (msg : Message) : World β :=
  if (w.server.cliFind id).isSome then w.send net id msg else w

/-- `ssn_server_response`. -/
def response (w : World β) (id : UInt32) (status : UInt32) (seqno : UInt16) (data : Option Ref) :
    World β :=
  w.sendTo net id ⟨MsgType.rpcRequest, status, seqno, none, data⟩

/-- `ssn_server_message`. -/
def message (w : World β) (id : UInt32) (url : Bytes) (data : Ref) : World β :=
  if urlOk url then w.sendTo net id ⟨MsgType.message, 0, 0, some (Ref.ofBytes url), some data⟩
  else w

end World

inductive ServerOp
  | newConnection (fd : Int)
  | clientInput (id : UInt32) (r : RecvResult)
  | eventInput
  | timerSweep
  | peerClose (id : UInt32)
  | publish (url : Bytes) (data : Option Ref)
  | response (id : UInt32) (status : UInt32) (seqno : UInt16) (data : Option Ref)
  | message (id : UInt32) (url : Bytes) (data : Ref)

def World.step (w : World β) : ServerOp → World β
  | .newConnection fd => w.handleNewConnection fd
  | .clientInput id r => w.handleClientInput net id r
  | .eventInput => w.handleEventInput
  | .timerSweep => w.timerSweep
  | .peerClose id => w.peerClose id
  | .publish url data => w.publish net url data
  | .response id status seqno data => w.response net id status seqno data
  | .message id url data => w.message net id url data

end Ssn
