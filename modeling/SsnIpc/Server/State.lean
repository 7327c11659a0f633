import SsnIpc.Lib.Buckets
import SsnIpc.Frame.Send
import SsnIpc.Frame.Stream
import SsnIpc.Server.Router

/-!
# The server and its clients

The state of `ssn_server_t` and of its clients (`ssn_server_cli_t`), and the functions on a single
client: finding, adding, removing it and sending to it. A client is named by its id where the C
code holds a pointer to it.

What the server does to the outside is written to a log: frames taken in, sends, handler calls.
What the outside does is a parameter: `net n` is what the socket answers to the send that finds
`n` entries in the log, so every send has answers of its own.
-/

namespace Ssn

open ByteMem

/-! ## State -/

/-- `ssn_server_cli_t`. The subscriptions are listed newest first; `hstAlive` and `hstLinked` are
the fields of its node in the timer list. -/
structure Client where
  id : UInt32
  active : Bool
  onconn : Bool
  subscribed : List Bytes
  hstAlive : Int
  hstLinked : Bool
  recv : StreamCtx
  transport : Transport

/-- `IPC_CLI_HASH_SIZE`. -/
def cliHashSize : Nat := 64

/-- `ssn_server_cli_hash`. -/
def cliHash (id : UInt32) : Nat := id.toNat % cliHashSize

theorem cliHash_lt (id : UInt32) : cliHash id < cliHashSize :=
  Nat.mod_lt _ (by decide)

/-- `ssn_server_t`, for a server that is not being destroyed. `evtPending` is the event pair
that the timer thread signals; `hasOncli` and `hasOnmsg` tell whether the handlers are set. -/
structure Server (β : Type*) where
  ncid : UInt32
  clis : Nat → List Client
  router : Router β
  hasOncli : Bool
  hasOnmsg : Bool
  sendTimeout : Int
  handshakeTimeout : Int
  keepaliveTimeout : Int
  maxConnections : UInt32
  evtPending : Bool
  sendbuf : Mem

/-- What can be seen of a server from outside. -/
inductive ServerEvent (β : Type*)
  /-- A connection was accepted and given an id. -/
  | accepted (id : UInt32)
  /-- Bytes were received from the client. -/
  | received (id : UInt32) (buf : Bytes)
  /-- A frame was passed to `ssn_server_input`. -/
  | input (id : UInt32) (frame : Frame)
  /-- `ssn_server_cli_sendmsg` was called. -/
  | sent (id : UInt32) (msg : Message) (out : SendOut)
  /-- The connect handler was called. -/
  | oncli (id : UInt32) (connect : Bool)
  /-- A method was called. -/
  | onrpc (id : UInt32) (handler : β) (frame : Frame)
  /-- The message handler was called. -/
  | onmsg (id : UInt32) (frame : Frame)
  /-- The client was destroyed. -/
  | removed (id : UInt32)

/-- A server and its log. -/
structure World (β : Type*) where
  server : Server β
  log : List (ServerEvent β)

namespace Server

variable {β : Type*}

/-- `ssn_server_create` with an idle timeout in seconds and defaults otherwise. -/
def create (keepalive : Int) : Server β where
  ncid := 0
  clis _ := []
  router := .init
  hasOncli := false
  hasOnmsg := false
  sendTimeout := 100
  handshakeTimeout := 5000
  keepaliveTimeout := keepalive
  maxConnections := 1020
  evtPending := false
  sendbuf := Mem.zero

def clients (s : Server β) : List Client := Buckets.toList cliHashSize s.clis

/-- `ssn_server_cli_find`. -/
def cliFind (s : Server β) (id : UInt32) : Option Client :=
  Buckets.find Client.id cliHash s.clis id

/-- Write to the client `id`. -/
def modifyCli (s : Server β) (id : UInt32) (f : Client → Client) : Server β :=
  { s with clis := Buckets.modify Client.id cliHash s.clis id f }

/-- `ssn_server_cli_newid`: the first id from `ncid` on that is not in use, and the new counter.
Given as many tries as there are ids. -/
def cliNewid (s : Server β) : Nat → UInt32 → Option (UInt32 × UInt32)
  | 0, _ => none
  | n + 1, ncid =>
    if (s.cliFind ncid).isSome then s.cliNewid n (ncid + 1) else some (ncid, ncid + 1)

/-- `ssn_server_cli_sub_match`: one of the subscriptions is `/`, or is the url, or ends in `/` and
the url is its path or lies below it. -/
def cliSubMatch (subscribed : List Bytes) (url : Bytes) : Bool :=
  subscribed.any fun sub =>
    sub.length = 1 ∨ (sub.length = url.length ∧ sub = url) ∨
      (sub.getLast? = some slash ∧ sub.length - 1 ≤ url.length ∧
        url.take (sub.length - 1) = sub.take (sub.length - 1) ∧
        (url.length = sub.length - 1 ∨ url[sub.length - 1]? = some slash))

/-- `ssn_server_is_subscribed`. -/
def isSubscribed (s : Server β) (url : Bytes) : Bool :=
  !url.isEmpty ∧ s.clients.any fun cli => cli.active ∧ cliSubMatch cli.subscribed url

end Server

namespace World

variable {β : Type*}

/-- A server that was just created, with the settings of `s`: no clients, no event, nothing seen
yet. -/
def init (s : Server β) : World β :=
  ⟨{ s with ncid := 0, clis := fun _ => [], evtPending := false }, []⟩

def emit (w : World β) (e : ServerEvent β) : World β := { w with log := w.log ++ [e] }

/-- Write to the client `id`. -/
def modifyCli (w : World β) (id : UInt32) (f : Client → Client) : World β :=
  { w with server := w.server.modifyCli id f }

/-- `ssn_server_cli_destroy`. -/
def cliDestroy (w : World β) (id : UInt32) : World β :=
  { w with
    server := { w.server with clis := Buckets.erase Client.id cliHash w.server.clis id } }.emit
    (.removed id)

/-- `ssn_create_header` in the server's send buffer. -/
def createHeader (w : World β) (msg : Message) : World β :=
  { w with server := { w.server with
      sendbuf := Ssn.createHeader w.server.sendbuf msg.msgType msg.status msg.seqno } }

/-- The connection of a client after a send: closed if the send failed. -/
def afterSend (out : SendOut) (cli : Client) : Client :=
  if out.ret then cli else { cli with transport := cli.transport.disconnect }

/-- `ssn_server_cli_sendmsg`: send what the header in the send buffer and the arguments say, and
close the connection if that fails. -/
def cliSendmsg (net : Nat → Nat → SendStep) (w : World β) (id : UInt32) (msg : Message) : World β :=
  match w.server.cliFind id with
  | none => w
  | some cli =>
    let (sendbuf, out) :=
      sendMessage cli.transport w.server.sendbuf msg.url msg.data (net w.log.length)
    ({ w with server := { w.server with sendbuf } }.modifyCli id (afterSend out)).emit
      (.sent id msg out)

def send (net : Nat → Nat → SendStep) (w : World β) (id : UInt32) (msg : Message) : World β :=
  (w.createHeader msg).cliSendmsg net id msg

/-- A call of the connect handler, if one is set. -/
def callOncli (w : World β) (id : UInt32) (connect : Bool) : World β :=
  if w.server.hasOncli then w.emit (.oncli id connect) else w

end World

end Ssn
