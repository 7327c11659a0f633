import SsnIpc.Layers.ClientLocks
import SsnIpc.Server.Answers

/-!
# The functions of the server, with their locks and callbacks

What the functions of `ssn_server.c` do to `server->lock`, and where they call the user. What they
do to the server itself is that of the model of one server (`World`). A frame is handled under the
lock, and the handler of its type releases it, before it calls a method or the connect handler;
the message handler is called before the lock is taken.

All functions come back with the locks they were called with. A poll may call the user and has to be
called without locks; the other functions may be called with any lock but the server's own.
-/

namespace Ssn

open ByteMem Locking Locking.Code
open Objects (sweep)

variable {κ β : Type} (net : Nat → Nat → SendStep)

/-! ## References -/

/-- `ssn_server_ref`. -/
def serverRef (s : Nat) : Prog κ β Unit :=
  locked (.server s) (onServer s fun o => { o with refCount := o.refCount + 1 })

/-- `ssn_server_free_resources`. -/
def serverFreeResources (s : Nat) : Prog κ β Unit :=
  onServer s fun o =>
    { o with
      started := false
      world := { o.world with
        server := { o.world.server with clis := fun _ => [], router := .init } } }

/-- The counting part of `ssn_server_unref`: true if the server is to be freed. -/
def ServerObj.dropRef (o : ServerObj β) : Bool × ServerObj β :=
  if 0 < o.refCount then
    (o.refCount - 1 = 0 ∧ o.valid = false, { o with refCount := o.refCount - 1 })
  else (false, o)

/-- `ssn_server_unref`. -/
def serverUnref (s : Nat) : Prog κ β Unit := do
  let shouldFree ← locked (.server s) (perform fun h =>
    ((h.servers s).dropRef.1, h.modifyServer s fun o => o.dropRef.2))
  if shouldFree then serverFreeResources s else pure ()

/-- `ssn_server_create_with_options`, with memory to spare: a server with the settings of `init`. -/
def serverCreate (init : Server β) : Prog κ β Nat := do
  let s ← perform fun h => (h.newServer,
    { h.modifyServer h.newServer fun _ => ⟨.init init, true, 1, false⟩ with
      newServer := h.newServer + 1 })
  locked .serverList (pure ())
  pure s

/-- `ssn_server_start`, where `ok` tells whether the address can be bound. -/
def serverStart (s : Nat) (ok : Bool) : Prog κ β Bool := do
  let o ← readServer s
  if o.valid && ok then
    onServer s fun o => { o with started := true }
    pure true
  else pure false

/-- `ssn_server_destroy`. -/
def serverDestroy (s : Nat) : Prog κ β Unit := do
  let o ← readServer s
  if o.valid then
    locked .serverList (pure ())
    locked (.server s) (onServer s fun o => { o with valid := false })
    serverUnref s
  else pure ()

/-! ## Calls that only use the tables -/

/-- The functions that do their work under the lock, on a server that is not being destroyed. -/
def serverLocked (s : Nat) (f : World β → World β) : Prog κ β Unit := do
  let o ← readServer s
  if o.valid then locked (.server s) (modifyWorld s f) else pure ()

/-- `ssn_server_peer_close`. -/
def serverPeerClose (s : Nat) (id : UInt32) : Prog κ β Unit :=
  serverLocked s fun w => w.peerClose id

/-- `ssn_server_peer_count`, `ssn_server_peer_list` and `ssn_server_is_subscribed`: they only
read. -/
def serverRead (s : Nat) : Prog κ β Unit := serverLocked s id

/-- `ssn_server_publish`. -/
def serverPublish (s : Nat) (url : Bytes) (data : Option Ref) : Prog κ β Unit :=
  if urlOk url then serverLocked s fun w => w.publish net url data else pure ()

/-- `ssn_server_response`. -/
def serverResponse (s : Nat) (id : UInt32) (status : UInt32) (seqno : UInt16)
    (data : Option Ref) : Prog κ β Unit :=
  serverLocked s fun w => w.response net id status seqno data

/-- `ssn_server_message`. -/
def serverMessage (s : Nat) (id : UInt32) (url : Bytes) (data : Ref) : Prog κ β Unit :=
  if urlOk url then serverLocked s fun w => w.message net id url data else pure ()

def World.modifyRouter (w : World β) (f : Router β → Option (Router β)) : World β :=
  { w with server := { w.server with router := (f w.server.router).getD w.server.router } }

/-- `ssn_server_add_method`. -/
def serverAddMethod (s : Nat) (url : Bytes) (callback : β) : Prog κ β Unit :=
  if methodUrlOk url then
    serverLocked s fun w => w.modifyRouter fun r => (r.addMethod url callback).map Prod.fst
  else pure ()

/-- `ssn_server_remove_method`. -/
def serverRemoveMethod (s : Nat) (url : Bytes) : Prog κ β Unit :=
  if methodUrlOk url then
    serverLocked s fun w => w.modifyRouter fun r => r.removeMethod url
  else pure ()

/-- `ssn_server_set_connect_handler`: set or not. -/
def serverSetConnectHandler (s : Nat) (isSet : Bool) : Prog κ β Unit :=
  modifyWorld s fun w => { w with server := { w.server with hasOncli := isSet } }

/-- `ssn_server_set_message_handler`: set or not. -/
def serverSetMessageHandler (s : Nat) (isSet : Bool) : Prog κ β Unit :=
  modifyWorld s fun w => { w with server := { w.server with hasOnmsg := isSet } }

/-! ## Frames -/

def serverCallOncli (s : Nat) (id : UInt32) (connect : Bool) : Prog κ β Unit := do
  let o ← readServer s
  if o.world.server.hasOncli then
    modifyWorld s fun w => w.emit (.oncli id connect)
    invoke
  else pure ()

/-- The end of `ssn_server_handle_service_info`. -/
def serverNoteConnected (s : Nat) (id : UInt32) : Prog κ β Unit := do
  let o ← readServer s
  if (o.world.server.cliFind id).any fun cli => !cli.onconn then
    modifyWorld s fun w => w.modifyCli id fun cli => { cli with onconn := true }
    serverCallOncli s id true
  else pure ()

/-- `ssn_server_handle_service_info`, which has the lock. The reply is sent without it. -/
def serverHandleServiceInfo (s : Nat) (id : UInt32) (f : Frame) : Prog κ β Unit := do
  let msg := replyTo f 0 (some (Ref.ofBytes (toBe 4 id.toNat)))
  modifyWorld s fun w =>
    (w.createHeader msg).modifyCli id (World.startIdle w.server.keepaliveTimeout)
  release (.server s)
  modifyWorld s fun w => w.cliSendmsg net id msg
  serverNoteConnected s id

/-- `ssn_server_handle_rpc_request`, which has the lock. The method is called without it. -/
def serverHandleRpcRequest (s : Nat) (id : UInt32) (f : Frame) : Prog κ β Unit := do
  if urlOk f.url then
    let o ← readServer s
    match (o.world.server.router.handler f.url).join with
    | some handler =>
      release (.server s)
      modifyWorld s fun w => w.emit (.onrpc id handler f)
      invoke
    | none =>
      modifyWorld s fun w => w.send net id (replyTo f ecodeNotFound none)
      release (.server s)
  else
    modifyWorld s fun w => w.send net id (replyTo f ecodeInvalidArgs none)
    release (.server s)

/-- The handlers that answer under the lock and release it. -/
def serverAnswer (s : Nat) (f : World β → World β) : Prog κ β Unit := do
  modifyWorld s f
  release (.server s)

/-- `ssn_server_handle_subscribe`, where there may be no memory for a subscription. -/
def serverHandleSubscribe (memory : Bool) (s : Nat) (id : UInt32) (f : Frame) : Prog κ β Unit :=
  serverAnswer s fun w => w.handleSubscribeWith net memory id f

/-- `ssn_server_handle_unsubscribe`. -/
def serverHandleUnsubscribe (s : Nat) (id : UInt32) (f : Frame) : Prog κ β Unit :=
  serverAnswer s fun w => w.handleUnsubscribe net id f

/-- `ssn_server_handle_ping_echo`. -/
def serverHandlePingEcho (s : Nat) (id : UInt32) (f : Frame) : Prog κ β Unit :=
  serverAnswer s fun w => w.handlePingEcho net id f

/-- The switch of `ssn_server_input`, which has the lock. -/
def serverSwitch (memory : Bool) (s : Nat) (id : UInt32) (f : Frame) : Prog κ β Unit :=
  if getMsgType f = MsgType.serviceInfo then serverHandleServiceInfo net s id f
  else if getMsgType f = MsgType.rpcRequest then serverHandleRpcRequest net s id f
  else if getMsgType f = MsgType.subscribe then serverHandleSubscribe net memory s id f
  else if getMsgType f = MsgType.unsubscribe then serverHandleUnsubscribe net s id f
  else if getMsgType f = MsgType.pingEcho then serverHandlePingEcho net s id f
  else release (.server s)

/-- The part of `ssn_server_input` before the switch: the idle timer is restarted under the lock,
if idle connections are closed. -/
def serverTouch (s : Nat) (id : UInt32) : Prog κ β Unit := do
  modifyWorld s fun w => w.modifyCli id fun cli => { cli with active := true }
  let o ← readServer s
  if 0 < o.world.server.keepaliveTimeout then
    locked (.server s) (modifyWorld s fun w => w.modifyCli id fun cli =>
      if cli.hstAlive = 0 then cli
      else { cli with hstAlive := idleMs w.server.keepaliveTimeout })
  else pure ()

/-- What `ssn_server_input` does after that. -/
def serverDispatch (memory : Bool) (s : Nat) (id : UInt32) (f : Frame) : Prog κ β Unit := do
  if getMsgType f = MsgType.message then
    let o ← readServer s
    if o.world.server.hasOnmsg then
      modifyWorld s fun w => w.emit (.onmsg id f)
      invoke
    else pure ()
  else
    acquire (.server s)
    serverSwitch net memory s id f

/-- `ssn_server_input`. It returns `server->valid`. -/
def serverInputWith (memory : Bool) (s : Nat) (id : UInt32) (f : Frame) : Prog κ β Bool := do
  modifyWorld s fun w => w.emit (.input id f)
  serverTouch s id
  serverDispatch net memory s id f
  let o ← readServer s
  pure o.valid

def serverInput (s : Nat) (id : UInt32) (f : Frame) : Prog κ β Bool :=
  serverInputWith net true s id f

/-- `ssn_stream_feed` with `ssn_server_input`. -/
def serverFeed (s : Nat) (id : UInt32) : List Frame → Prog κ β Unit
  | [] => pure ()
  | f :: fs => do
    let goOn ← serverInput net s id f
    if goOn then serverFeed s id fs else pure ()

/-! ## Polling -/

/-- The connect handler is told of the end of a connection that it knows of. -/
def serverNoteLost (s : Nat) (id : UInt32) (onconn : Bool) : Prog κ β Unit := do
  if onconn then
    modifyWorld s fun w => w.modifyCli id fun cli => { cli with onconn := false }
    serverCallOncli s id false
  else pure ()

/-- `ssn_server_handle_client_input`. -/
def serverHandleClientInput (s : Nat) (input : UInt32 × SocketInput) : Prog κ β Unit := do
  let o ← readServer s
  match o.world.server.cliFind input.1 with
  | none => pure ()
  | some cli =>
    if cli.transport.getFd < 0 then pure ()
    else
      match input.2 with
      | .quiet => pure ()
      | .frames fs _ => serverFeed net s cli.id fs
      | .lost =>
        serverNoteLost s cli.id cli.onconn
        locked (.server s) (modifyWorld s fun w => w.cliDestroy cli.id)

/-- `ssn_server_handle_new_connection`, for an accepted descriptor. The clients are counted under
the lock, which is then taken again to add the new one. -/
def serverHandleNewConnection (s : Nat) (fd : Int) : Prog κ β Unit := do
  let full ← locked (.server s) (gets fun h =>
    decide ((h.servers s).world.server.maxConnections.toNat ≤
      (h.servers s).world.server.clients.length))
  if full then pure ()
  else locked (.server s) (modifyWorld s fun w => w.handleNewConnection fd)

/-- `ssn_server_handle_event_input`. -/
def serverHandleEventInput (s : Nat) : Prog κ β Unit := do
  let o ← readServer s
  if o.world.server.evtPending then
    locked (.server s) (modifyWorld s fun w => w.handleEventInput)
  else pure ()

/-- What `pselect` reports to a server: input of clients, in the order of the table, and a
connection to accept. -/
structure ServerPollInput where
  clients : List (UInt32 × SocketInput)
  accepted : Option Int

def serverAccept (s : Nat) : Option Int → Prog κ β Unit
  | none => pure ()
  | some fd => serverHandleNewConnection s fd

/-- `ssn_server_input_fds`. -/
def serverInputFds (s : Nat) (input : ServerPollInput) : Prog κ β Unit := do
  let o ← readServer s
  if o.valid then
    forEach (serverHandleClientInput net s) input.clients
    serverAccept s input.accepted
    serverHandleEventInput s
  else pure ()

/-- `ssn_server_fds`: false for -1. -/
def serverFds (s : Nat) : Prog κ β Bool := do
  let o ← readServer s
  if o.valid && o.started then
    locked (.server s) (pure ())
    pure true
  else pure false

def serverReady (s : Nat) : Option ServerPollInput → Prog κ β Unit
  | none => pure ()
  | some input => serverInputFds net s input

/-- `ssn_server_poll`. -/
def serverPoll (s : Nat) (input : Option ServerPollInput) : Prog κ β Unit := do
  serverRef s
  let _ ← serverFds s
  serverReady net s input
  serverUnref s

/-- The loop of `ssn_server_run`. After the input listed, `pselect` does not return. -/
def serverRunLoop (s : Nat) : List ServerPollInput → Prog κ β Unit
  | [] => do
    let ok ← serverFds s
    if ok then wait else pure ()
  | input :: inputs => do
    let ok ← serverFds s
    if ok then
      serverInputFds net s input
      serverRunLoop s inputs
    else pure ()

/-- `ssn_server_run`. -/
def serverRun (s : Nat) (inputs : List ServerPollInput) : Prog κ β Unit := do
  serverRef s
  serverRunLoop net s inputs
  serverUnref s

/-! ## Locks -/

section Clean

variable {net} {held : List Mutex} {s : Nat} {id : UInt32}

theorem clean_serverRef (h : .server s ∉ held) :
    Clean sweep held (serverRef s : Prog κ β Unit) held :=
  clean_locked h _

theorem clean_serverUnref (h : .server s ∉ held) :
    Clean sweep held (serverUnref s : Prog κ β Unit) held :=
  (clean_locked h _).bind fun _ => .ite (fun _ => clean_perform _) fun _ => clean_pure ()

theorem clean_serverCreate (h : .serverList ∉ held) (init : Server β) :
    Clean sweep held (serverCreate init : Prog κ β Nat) held :=
  (clean_perform _).bind fun s => (Triple.locked h (clean_pure ())).bind fun _ => clean_pure s

theorem clean_serverStart (ok : Bool) :
    Clean sweep held (serverStart s ok : Prog κ β Bool) held :=
  (clean_perform _).bind fun _ => .ite (fun _ => (clean_perform _).bind fun _ => clean_pure true)
    fun _ => clean_pure false

theorem clean_serverLocked (h : .server s ∉ held) (f : World β → World β) :
    Clean sweep held (serverLocked s f : Prog κ β Unit) held :=
  (clean_perform _).bind fun _ => .ite (fun _ => clean_locked h _) fun _ => clean_pure ()

theorem clean_serverPublish (h : .server s ∉ held) (url : Bytes) (data : Option Ref) :
    Clean sweep held (serverPublish net s url data : Prog κ β Unit) held :=
  .ite (fun _ => clean_serverLocked h _) fun _ => clean_pure ()

theorem clean_serverMessage (h : .server s ∉ held) (url : Bytes) (data : Ref) :
    Clean sweep held (serverMessage net s id url data : Prog κ β Unit) held :=
  .ite (fun _ => clean_serverLocked h _) fun _ => clean_pure ()

theorem clean_serverAddMethod (h : .server s ∉ held) (url : Bytes) (callback : β) :
    Clean sweep held (serverAddMethod s url callback : Prog κ β Unit) held :=
  .ite (fun _ => clean_serverLocked h _) fun _ => clean_pure ()

theorem clean_serverRemoveMethod (h : .server s ∉ held) (url : Bytes) :
    Clean sweep held (serverRemoveMethod s url : Prog κ β Unit) held :=
  .ite (fun _ => clean_serverLocked h _) fun _ => clean_pure ()

/-! ### Functions that may call the user -/

theorem clean_serverCallOncli (connect : Bool) :
    Clean sweep [] (serverCallOncli s id connect : Prog κ β Unit) [] :=
  (clean_perform _).bind fun _ =>
    .ite (fun _ => (clean_perform _).bind fun _ => .invoke) fun _ => clean_pure ()

theorem clean_serverHandleServiceInfo (f : Frame) :
    Clean sweep [.server s] (serverHandleServiceInfo net s id f : Prog κ β Unit) [] := by
  refine (clean_perform _).bind fun _ => Triple.release.bind fun _ =>
    (clean_perform _).bind fun _ => ?_
  refine (clean_perform _).bind fun o => .ite (fun _ => ?_) fun _ => clean_pure ()
  exact (clean_perform _).bind fun _ => clean_serverCallOncli true

theorem clean_serverAnswer (f : World β → World β) :
    Clean sweep [.server s] (serverAnswer s f : Prog κ β Unit) [] :=
  (clean_perform _).bind fun _ => .release

theorem clean_serverHandleRpcRequest (f : Frame) :
    Clean sweep [.server s] (serverHandleRpcRequest net s id f : Prog κ β Unit) [] := by
  refine .ite (fun _ => (clean_perform _).bind fun o => ?_) fun _ => clean_serverAnswer _
  split
  · exact Triple.release.bind fun _ => (clean_perform _).bind fun _ => .invoke
  · exact clean_serverAnswer _

theorem clean_serverSwitch (memory : Bool) (f : Frame) :
    Clean sweep [.server s] (serverSwitch net memory s id f : Prog κ β Unit) [] := by
  refine .ite (fun _ => clean_serverHandleServiceInfo f) fun _ => ?_
  refine .ite (fun _ => clean_serverHandleRpcRequest f) fun _ => ?_
  refine .ite (fun _ => clean_serverAnswer _) fun _ => ?_
  refine .ite (fun _ => clean_serverAnswer _) fun _ => ?_
  exact .ite (fun _ => clean_serverAnswer _) fun _ => .release

theorem clean_serverTouch : Clean sweep [] (serverTouch s id : Prog κ β Unit) [] :=
  (clean_perform _).bind fun _ => (clean_perform _).bind fun _ =>
    .ite (fun _ => clean_locked List.not_mem_nil _) fun _ => clean_pure ()

theorem clean_serverDispatch (memory : Bool) (f : Frame) :
    Clean sweep [] (serverDispatch net memory s id f : Prog κ β Unit) [] := by
  refine .ite (fun _ => (clean_perform _).bind fun o => ?_) fun _ => ?_
  · exact .ite (fun _ => (clean_perform _).bind fun _ => .invoke) fun _ => clean_pure ()
  · exact (Triple.acquire List.not_mem_nil).bind fun _ => clean_serverSwitch memory f

/-- **A frame is handled without locks before and after.** -/
theorem clean_serverInputWith (memory : Bool) (f : Frame) :
    Clean sweep [] (serverInputWith net memory s id f : Prog κ β Bool) [] :=
  (clean_perform _).bind fun _ => clean_serverTouch.bind fun _ =>
    (clean_serverDispatch memory f).bind fun _ => (clean_perform _).bind fun _ => clean_pure _

theorem clean_serverFeed (fs : List Frame) :
    Clean sweep [] (serverFeed net s id fs : Prog κ β Unit) [] := by
  induction fs with
  | nil => exact clean_pure ()
  | cons f fs ih =>
    exact (clean_serverInputWith true f).bind fun _ => .ite (fun _ => ih) fun _ => clean_pure ()

theorem clean_serverHandleClientInput (input : UInt32 × SocketInput) :
    Clean sweep [] (serverHandleClientInput net s input : Prog κ β Unit) [] := by
  refine (clean_perform _).bind fun o => ?_
  split
  · exact clean_pure ()
  · rename_i cli _
    refine .ite (fun _ => clean_pure ()) fun _ => ?_
    split
    · exact clean_pure ()
    · exact clean_serverFeed _
    · have hlost : Clean sweep [] (serverNoteLost s cli.id cli.onconn : Prog κ β Unit) [] :=
        .ite (fun _ => (clean_perform _).bind fun _ => clean_serverCallOncli false)
          fun _ => clean_pure ()
      exact hlost.bind fun _ => clean_locked List.not_mem_nil _

theorem clean_serverInputFds (input : ServerPollInput) :
    Clean sweep [] (serverInputFds net s input : Prog κ β Unit) [] := by
  have haccept : Clean sweep [] (serverAccept s input.accepted : Prog κ β Unit) [] := by
    unfold serverAccept
    split
    · exact clean_pure ()
    · exact (clean_locked List.not_mem_nil _).bind fun _ =>
        .ite (fun _ => clean_pure ()) fun _ => clean_locked List.not_mem_nil _
  have hevent : Clean sweep [] (serverHandleEventInput s : Prog κ β Unit) [] :=
    (clean_perform _).bind fun _ =>
      .ite (fun _ => clean_locked List.not_mem_nil _) fun _ => clean_pure ()
  refine (clean_perform _).bind fun _ => .ite (fun _ => ?_) fun _ => clean_pure ()
  exact (clean_forEach clean_serverHandleClientInput _).bind fun _ => haccept.bind fun _ => hevent

theorem clean_serverFds : Clean sweep [] (serverFds s : Prog κ β Bool) [] :=
  (clean_perform _).bind fun _ => .ite
    (fun _ => (Triple.locked List.not_mem_nil (clean_pure ())).bind fun _ => clean_pure true)
    fun _ => clean_pure false

theorem clean_serverPoll (input : Option ServerPollInput) :
    Clean sweep [] (serverPoll net s input : Prog κ β Unit) [] := by
  refine (clean_serverRef List.not_mem_nil).bind fun _ => clean_serverFds.bind fun _ => ?_
  refine Triple.bind (Q := fun _ => ⊤) ?_ fun _ => clean_serverUnref List.not_mem_nil
  cases input with
  | none => exact clean_pure ()
  | some input => exact clean_serverInputFds input

theorem clean_serverRunLoop (inputs : List ServerPollInput) :
    Clean sweep [] (serverRunLoop net s inputs : Prog κ β Unit) [] := by
  induction inputs with
  | nil => exact clean_serverFds.bind fun _ => .ite (fun _ => .wait) fun _ => clean_pure ()
  | cons input inputs ih =>
    refine clean_serverFds.bind fun _ => .ite (fun _ => ?_) fun _ => clean_pure ()
    exact (clean_serverInputFds input).bind fun _ => ih

theorem clean_serverRun (inputs : List ServerPollInput) :
    Clean sweep [] (serverRun net s inputs : Prog κ β Unit) [] :=
  (clean_serverRef List.not_mem_nil).bind fun _ => (clean_serverRunLoop inputs).bind fun _ =>
    clean_serverUnref List.not_mem_nil

end Clean

end Ssn
