import SsnIpc.Client.Ops
import SsnIpc.Layers.Objects

/-!
# The functions of the client, with their locks and callbacks

What the functions of `ssn_client.c` do to `client->lock`, and where they call the user: pending
requests are collected under the lock and called back without it, and so are handlers of
publications and replies. What a socket brings and takes is a parameter: whether a request could be
sent, the descriptor if a connection was made, the frames that the stream parser hands out. (A
callback that calls the client again can change the parser's buffer under its loop, so the frames
are not computed from bytes here.) Returned values are left out where no caller looks at them.
-/

namespace Ssn

open ByteMem Locking Locking.Code

variable {κ β : Type}

/-! ## References -/

/-- `ssn_client_ref`. -/
def clientRef (c : Nat) : Prog κ β Unit :=
  locked (.client c) (onClient c fun o => ((), { o with refCount := o.refCount + 1 }))

def clientCallFailed (p : Pending κ) : Prog κ β Unit :=
  match p.ftype, p.callback with
  | .rpc, some _ => invoke
  | .res, some _ => invoke
  | _, _ => pure ()

/-- The collecting loop of `ssn_client_collect_and_call_pending`. -/
def ClientObj.collect (o : ClientObj κ) (onlyTimeout : Bool) : List (Pending κ) × ClientObj κ :=
  ((o.core.collect onlyTimeout).2, { o with core := (o.core.collect onlyTimeout).1 })

/-- `ssn_client_collect_and_call_pending`. -/
def clientCollectAndCallPending (c : Nat) (onlyTimeout : Bool) : Prog κ β Unit := do
  let items ← locked (.client c) (onClient c fun o => o.collect onlyTimeout)
  forEach clientCallFailed items

/-- `ssn_client_timeout_all`. -/
def clientTimeoutAll (c : Nat) : Prog κ β Unit := clientCollectAndCallPending c false

/-- The counting part of `ssn_client_unref`: true if the client is to be freed. -/
def ClientObj.dropRef (o : ClientObj κ) : Bool × ClientObj κ :=
  if 0 < o.refCount then
    (o.refCount - 1 = 0 ∧ o.valid = false, { o with refCount := o.refCount - 1 })
  else (false, o)

/-- `ssn_client_unref`. A client that is freed reports its pending requests first. -/
def clientUnref (c : Nat) : Prog κ β Unit := do
  let shouldFree ← locked (.client c) (onClient c ClientObj.dropRef)
  if shouldFree then
    modifyCore c fun o => { o with connected := false, subHandlers := [], transport := none }
    clientCollectAndCallPending c false
  else pure ()

/-- A new client as `ssn_client_create` sets it up. -/
def ClientObj.create : ClientObj κ := ⟨.create, true, 1⟩

/-- `ssn_client_create`, with memory to spare. -/
def clientCreate : Prog κ β Nat := do
  let c ← perform fun h => (h.newClient,
    { h.modifyClient h.newClient fun _ => .create with newClient := h.newClient + 1 })
  locked .clientList (pure ())
  pure c

/-- `ssn_client_close`. -/
def clientClose (c : Nat) : Prog κ β Unit := do
  let wasValid ← locked (.client c) (onClient c fun o => (o.valid, { o with valid := false }))
  if wasValid then
    locked .clientList (pure ())
    clientUnref c
  else pure ()

/-- A function that holds a reference while it works. -/
def withRef {α : Type} (c : Nat) (x : Prog κ β α) : Prog κ β α := do
  clientRef c
  let a ← x
  clientUnref c
  pure a

/-! ## Connections -/

/-- `ssn_client_is_connect`. -/
def clientIsConnect (c : Nat) : Prog κ β Bool :=
  gets fun h => (h.clients c).valid && (h.clients c).core.connected

/-- `ssn_client_connect`, where `fd` is the descriptor if the attempt succeeds. -/
def clientConnect (c : Nat) (fd : Option Nat) : Prog κ β Bool := do
  let o ← readClient c
  if o.valid then
    withRef c do
      modifyCore c fun o => { o with connected := false }
      locked (.client c) (modifyCore c fun o => { o with transport := none })
      clientTimeoutAll c
      match fd with
      | none => pure false
      | some fd =>
        locked (.client c) (modifyCore c fun o =>
          { o with transport := some ⟨fd, o.sendTimeout⟩, connected := true })
        pure true
  else pure false

def SsnClient.hangUp (c : SsnClient κ) : SsnClient κ :=
  { c with transport := c.transport.map Transport.disconnect }

/-- `ssn_client_disconnect`. -/
def clientDisconnect (c : Nat) : Prog κ β Unit := do
  let connected ← clientIsConnect c
  if connected then
    withRef c do
      locked (.client c) (modifyCore c fun o => { o with connected := false }.hangUp)
      clientTimeoutAll c
  else pure ()

/-- What `ssn_client_send_timeout` does to the transport, where `fd` is the descriptor if the new
connection is made. -/
def SsnClient.reopen (c : SsnClient κ) (fd : Option Nat) : SsnClient κ :=
  match c.connected, c.transport, fd with
  | true, some _, some fd => { c with transport := some ⟨fd, c.sendTimeout⟩ }
  | _, _, _ => c

/-- `ssn_client_send_timeout`. -/
def clientSendTimeout (c : Nat) (timeoutMs : Int) (fd : Option Nat) : Prog κ β Unit := do
  let o ← readClient c
  if o.valid then
    withRef c do
      modifyCore c fun o => { o with sendTimeout := if 0 < timeoutMs then timeoutMs else 100 }
      locked (.client c) (modifyCore c fun o => o.reopen fd)
  else pure ()

/-! ## Requests -/

/-- What `ssn_client_request_ex` and `ssn_client_call_ex` do under the lock: the sequence number if
the request was sent. -/
def SsnClient.request (c : SsnClient κ) (ftype : FType) (callback : Option κ) (timeoutMs : Nat)
    (sent : Bool) : Option UInt16 × SsnClient κ :=
  match callback with
  | some k =>
    match c.allocPendingIndex with
    | none => (none, c)
    | some (index, c) =>
      if sent then (some c.seqno, c.register index ftype k timeoutMs)
      else (none, (c.register index ftype k timeoutMs).hangUp.freePendingIndex index)
  | none =>
    if sent then (some c.prepareSeqno.1, c.prepareSeqno.2) else (none, c.prepareSeqno.2.hangUp)

/-- `ssn_client_prepare_seqno`. -/
def clientPrepareSeqno (c : Nat) : Prog κ β UInt16 :=
  locked (.spin c) (onClient c fun o =>
    (o.core.prepareSeqno.1, { o with core := o.core.prepareSeqno.2 }))

/-- A request with the spin lock, which is taken for the number of one that has no callback. -/
def clientRequestLocked (c : Nat) (ftype : FType) (callback : Option κ) (timeoutMs : Nat)
    (sent : Bool) : Prog κ β (Option UInt16) :=
  match callback with
  | some k => onClient c fun o =>
    ((o.core.request ftype (some k) timeoutMs sent).1,
      { o with core := (o.core.request ftype (some k) timeoutMs sent).2 })
  | none => do
    let seqno ← clientPrepareSeqno c
    onClient c fun o =>
      if sent then (some seqno, o) else (none, { o with core := o.core.hangUp })

def clientRequestWith (c : Nat) (ftype : FType) (callback : Option κ) (timeoutMs : Nat)
    (sent : Bool) : Prog κ β (Option UInt16) :=
  withRef c (locked (.client c) (clientRequestLocked c ftype callback timeoutMs sent))

/-- `ssn_client_request_ex`. -/
def clientRequestEx (c : Nat) (callback : Option κ) (timeoutMs : Nat) (sent : Bool) :
    Prog κ β (Option UInt16) := do
  let connected ← clientIsConnect c
  if connected then clientRequestWith c .res callback timeoutMs sent else pure none

/-- `ssn_client_call`. -/
def clientCall (c : Nat) (url : Bytes) (callback : Option κ) (timeoutMs : Nat) (sent : Bool) :
    Prog κ β Bool := do
  let connected ← clientIsConnect c
  if connected && urlOk url then
    let seqno ← clientRequestWith c .rpc callback timeoutMs sent
    pure seqno.isSome
  else pure false

/-- `ssn_client_subscribe`. -/
def clientSubscribe (c : Nat) (url : Bytes) (callback : Option κ) (timeoutMs : Nat)
    (sent : Bool) : Prog κ β Bool := do
  let connected ← clientIsConnect c
  if urlOk url && connected then
    locked (.client c) (modifyCore c fun o =>
      { o with subHandlers := ⟨url, callback⟩ :: o.subHandlers })
    let seqno ← clientRequestEx c none timeoutMs sent
    pure seqno.isSome
  else pure false

/-- `ssn_client_unsubscribe`. -/
def clientUnsubscribe (c : Nat) (url : Bytes) (timeoutMs : Nat) (sent : Bool) :
    Prog κ β Bool := do
  let connected ← clientIsConnect c
  if connected && urlOk url then
    locked (.client c) (modifyCore c fun o =>
      { o with subHandlers := o.subHandlers.eraseP fun h => h.url = url })
    let seqno ← clientRequestEx c none timeoutMs sent
    pure seqno.isSome
  else pure false

/-- `ssn_client_message`. -/
def clientMessage (c : Nat) (url : Bytes) (data : Option Ref) (sent : Bool) : Prog κ β Bool := do
  let connected ← clientIsConnect c
  if connected && urlOk url && data.isSome then
    withRef c (locked (.client c) (modifyCore c fun o => if sent then o else o.hangUp))
    pure sent
  else pure false

/-- `ssn_client_set_on_message`. -/
def clientSetOnMessage (c : Nat) (callback : Option κ) : Prog κ β Unit := do
  let o ← readClient c
  if o.valid then
    withRef c (modifyCore c fun o => { o with onmsg := callback, onsub := callback })
  else pure ()

/-- `ssn_client_set_on_publish`. -/
def clientSetOnPublish (c : Nat) (callback : Option κ) : Prog κ β Unit := do
  let o ← readClient c
  if o.valid then
    withRef c (modifyCore c fun o => { o with onsub := callback })
  else pure ()

/-! ## Input -/

/-- `ssn_client_handle_publish`: the handler is looked up under the lock and called without it. -/
def clientHandlePublish (c : Nat) (f : Frame) : Prog κ β Unit := do
  let callback ← locked (.client c) (gets fun h =>
    ((h.clients c).core.subHandlers.find? fun h => h.url = f.url).bind SubHandler.callback)
  match callback with
  | some _ => invoke
  | none =>
    let o ← readClient c
    match o.core.onsub, o.core.onmsg with
    | none, none => pure ()
    | _, _ => invoke

/-- `ssn_client_handle_message`. -/
def clientHandleMessage (c : Nat) : Prog κ β Unit := do
  let o ← readClient c
  match o.core.onmsg with
  | some _ => invoke
  | none => pure ()

/-- `get_pending_snapshot`. -/
def clientGetPendingSnapshot (c : Nat) (seqno : UInt16) :
    Prog κ β (Option (Nat × Pending κ)) := do
  let o ← readClient c
  let index := o.core.seqnoToIndex seqno
  if index = noIndex ∨ maxPending ≤ index then pure none
  else locked (.client c) (gets fun h =>
    if (h.clients c).core.inUse index then some (index, (h.clients c).core.pendingPool index)
    else none)

/-- `ssn_client_handle_response` and `ssn_client_handle_rpc_response`, by the type of callback that
the frame's type asks for. -/
def clientHandleReply (ftype : FType) (p : Pending κ) : Prog κ β Unit :=
  match p.callback with
  | some _ => if p.ftype = ftype then invoke else pure ()
  | none => pure ()

/-- The switch of `ssn_client_input` on the type of a reply. -/
def clientCallReply (f : Frame) (p : Pending κ) : Prog κ β Unit :=
  if getMsgType f = MsgType.subscribe ∨ getMsgType f = MsgType.unsubscribe ∨
      getMsgType f = MsgType.pingEcho then clientHandleReply .res p
  else if getMsgType f = MsgType.rpcRequest then clientHandleReply .rpc p
  else pure ()

/-- A reply: the callback, then the slot is freed under the lock. -/
def clientHandlePendingReply (c : Nat) (f : Frame) : Prog κ β Unit := do
  let found ← clientGetPendingSnapshot c (getSeqno f)
  match found with
  | none => pure ()
  | some (index, p) =>
    clientCallReply f p
    locked (.client c) (modifyCore c fun o => o.freePendingIndex index)

/-- What `ssn_client_input` does with a frame. -/
def clientDispatch (c : Nat) (f : Frame) : Prog κ β Unit :=
  if getMsgType f = MsgType.publish then clientHandlePublish c f
  else if getMsgType f = MsgType.message then clientHandleMessage c
  else clientHandlePendingReply c f

/-- `ssn_client_input`. It returns `client->valid`. -/
def clientInput (c : Nat) (f : Frame) : Prog κ β Bool := do
  clientDispatch c f
  let o ← readClient c
  pure o.valid

/-- `ssn_stream_feed` with `ssn_client_input`: `ok` is what it returns if no frame stops it. -/
def clientFeed (c : Nat) (ok : Bool) : List Frame → Prog κ β Bool
  | [] => pure ok
  | f :: fs => do
    let goOn ← clientInput c f
    if goOn then clientFeed c ok fs else pure true

/-! ## Polling -/

/-- What a socket has for a poll: nothing, frames and whether the parser takes all input, or the
end of the connection. -/
inductive SocketInput
  | quiet
  | frames (fs : List Frame) (ok : Bool)
  | lost

/-- What `pselect` reports to a client. -/
inductive ClientPollInput
  | idle
  | ready (sock : SocketInput)

/-- `ssn_client_fds`: false for -1. -/
def clientFds (c : Nat) : Prog κ β Bool := do
  let o ← readClient c
  if o.valid then
    if o.core.connected then
      locked (.client c) (pure ())
      pure true
    else pure true
  else pure false

/-- The part of `ssn_client_process_events` for the timer's event. -/
def clientHandleEvent (c : Nat) : Prog κ β Bool := do
  let o ← readClient c
  if o.core.evtPending then
    modifyCore c fun o => { o with evtPending := false }
    clientCollectAndCallPending c true
    pure true
  else pure true

/-- The part of `ssn_client_process_events` for a lost connection. -/
def clientConnectionLost (c : Nat) : Prog κ β Bool := do
  modifyCore c fun o => { o with connected := false }
  clientTimeoutAll c
  pure false

/-- `ssn_client_process_events`. Bytes are received under the lock and parsed without it. -/
def clientProcessEvents (c : Nat) (sock : SocketInput) : Prog κ β Bool := do
  let o ← readClient c
  if o.valid then
    if o.core.connected then
      let isOpen ← locked (.client c) (gets fun h =>
        (h.clients c).core.transport.any fun t => 0 ≤ t.getFd)
      match if isOpen then sock else .quiet with
      | .frames fs ok =>
        let ok ← clientFeed c ok fs
        if ok then clientHandleEvent c else clientConnectionLost c
      | .lost => clientConnectionLost c
      | .quiet => clientHandleEvent c
    else clientHandleEvent c
  else pure false

/-- `ssn_client_poll`. -/
def clientPoll (c : Nat) (input : ClientPollInput) : Prog κ β Unit := do
  let o ← readClient c
  if o.valid then
    withRef c do
      let _ ← clientFds c
      match input with
      | .idle => pure ()
      | .ready sock =>
        let ok ← clientProcessEvents c sock
        if ok then pure ()
        else
          modifyCore c fun o => { o with connected := false }
          locked (.client c) (modifyCore c fun o => { o with transport := none })
  else pure ()

/-- The loop of `ssn_client_run`. After the input listed, `pselect` does not return. -/
def clientRunLoop (c : Nat) : List SocketInput → Prog κ β Unit
  | [] => do
    let ok ← clientFds c
    if ok then wait else pure ()
  | sock :: socks => do
    let ok ← clientFds c
    if ok then
      let ok ← clientProcessEvents c sock
      if ok then clientRunLoop c socks else clientClose c
    else pure ()

/-- `ssn_client_run`. -/
def clientRun (c : Nat) (socks : List SocketInput) : Prog κ β Unit := do
  let o ← readClient c
  if o.valid then withRef c (clientRunLoop c socks) else pure ()

/-- The end of `ssn_client_ping`. -/
def SsnClient.cancel (c : SsnClient κ) (seqno : UInt16) : SsnClient κ :=
  if c.seqnoToIndex seqno ≠ noIndex ∧ c.inUse (c.seqnoToIndex seqno) then
    c.freePendingIndex (c.seqnoToIndex seqno)
  else c

/-- `ssn_client_ping`. The flag that `ping_reply_cb` writes is on the caller's stack: `polls` are
the polls until it is written, no more than the time allows, and `replied` tells whether it was.
(`ping_reply_cb` counts as a user's callback here.) -/
def clientPing (c : Nat) (k : κ) (timeoutMs : Nat) (sent : Bool) (polls : List ClientPollInput)
    (replied : Bool) : Prog κ β Bool := do
  let seqno ← clientRequestEx c (some k) timeoutMs sent
  match seqno with
  | none => pure false
  | some seqno =>
    forEach (clientPoll c) (polls.take ((timeoutMs + 9) / 10))
    if replied then pure true
    else
      locked (.client c) (modifyCore c fun o => o.cancel seqno)
      pure false

end Ssn
