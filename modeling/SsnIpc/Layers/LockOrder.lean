import SsnIpc.Layers.AutoCalls
import SsnIpc.Layers.Locks
import SsnIpc.Lib.LockOrder

/-!
# The order of the locks

Any number of threads call nodes, clients, servers and auto-clients, next to the threads of the
auto-clients and the two timer threads (`ThreadCall`). User callbacks take no lock.

**Theorem (`locks_acyclic`).** The relation "some thread takes `b` while it holds `a`" has no
cycle, and in no state is there a cycle of threads that wait for each other's locks.

The locks are taken in the order of their ranks (`Mutex.rank`): the mutex of a node or of an
auto-client first, then the lock of a list, then that of a client or a server, then the spin lock.
Functions of clients and servers can be called with locks of rank 0 held. No function takes the lock
of a list under that of a client or a server: `ssn_client_close` and `ssn_server_destroy` take the
two one after the other.
-/

namespace Ssn

open ByteMem Locking Locking.Code

variable {κ β α : Type} {net : Nat → Nat → SendStep}

/-- Locks are taken from lower to higher ranks. -/
def Mutex.rank : Mutex → Nat
  | .auto _ | .node _ => 0
  | .clientList | .serverList => 1
  | .client _ | .server _ => 2
  | .spin _ => 3

section Rules

variable {n : Nat} {x : Prog κ β α}

theorem above_forEach {ι : Type} {f : ι → Prog κ β Unit} (h : ∀ i, Above Mutex.rank n (f i))
    (is : List ι) : Above Mutex.rank n (forEach f is) := by
  induction is with
  | nil => exact above_pure ()
  | cons i is ih => exact (h i).bind fun _ => ih

theorem above_lockedPerform (l : Mutex) (hl : n ≤ l.rank) (f : Objects κ β → α × Objects κ β) :
    Above Mutex.rank n (locked l (perform f) : Prog κ β α) :=
  .locked (above_perform f) hl

theorem above_lockedPure (l : Mutex) (hl : n ≤ l.rank) :
    Above Mutex.rank n (locked l (pure ()) : Prog κ β Unit) :=
  .locked (above_pure ()) hl

theorem above_checked {γ : Type} {g : Objects κ β → γ × Objects κ β} {p : γ → Prop}
    [∀ o, Decidable (p o)] {y : γ → Prog κ β α} {a : α} (hy : ∀ o, Above Mutex.rank n (y o)) :
    Above Mutex.rank n (do
      let o ← perform g
      if p o then y o else pure a) :=
  (above_perform g).bind fun o => .ite (hy o) (above_pure a)

theorem above_discard (h : Above Mutex.rank n x) : Above Mutex.rank n (discard x) :=
  h.bind fun _ => above_pure ()

end Rules

/-! ## Clients -/

section Client

variable {c : Nat} {x : Prog κ β α}

theorem above_client (f : Objects κ β → α × Objects κ β) :
    Above Mutex.rank 1 (locked (.client c) (perform f) : Prog κ β α) :=
  above_lockedPerform _ (Nat.le_succ 1) f

theorem above_clientRef : Above Mutex.rank 1 (clientRef c : Prog κ β Unit) := above_client _

theorem above_clientCallFailed (p : Pending κ) :
    Above Mutex.rank 1 (clientCallFailed p : Prog κ β Unit) := by
  unfold clientCallFailed
  split
  · exact above_invoke
  · exact above_invoke
  · exact above_pure ()

theorem above_clientCollectAndCallPending (onlyTimeout : Bool) :
    Above Mutex.rank 1 (clientCollectAndCallPending c onlyTimeout : Prog κ β Unit) :=
  (above_client _).bind fun items => above_forEach above_clientCallFailed items

theorem above_clientUnref : Above Mutex.rank 1 (clientUnref c : Prog κ β Unit) := by
  refine (above_client _).bind fun _ => .ite ?_ (above_pure ())
  exact (above_perform _).bind fun _ => above_clientCollectAndCallPending false

theorem above_clientCreate : Above Mutex.rank 1 (clientCreate : Prog κ β Nat) :=
  (above_perform _).bind fun c =>
    (above_lockedPure .clientList le_rfl).bind fun _ => above_pure c

theorem above_clientClose : Above Mutex.rank 1 (clientClose c : Prog κ β Unit) := by
  refine (above_client _).bind fun _ => .ite ?_ (above_pure ())
  exact (above_lockedPure .clientList le_rfl).bind fun _ => above_clientUnref

theorem above_withRef (hx : Above Mutex.rank 1 x) : Above Mutex.rank 1 (withRef c x) :=
  above_clientRef.bind fun _ => hx.bind fun a => above_clientUnref.bind fun _ => above_pure a

theorem above_clientConnect (fd : Option Nat) :
    Above Mutex.rank 1 (clientConnect c fd : Prog κ β Bool) := by
  refine above_checked fun _ => above_withRef ?_
  refine (above_perform _).bind fun _ => (above_client _).bind fun _ => ?_
  refine (above_clientCollectAndCallPending false).bind fun _ => ?_
  cases fd with
  | none => exact above_pure false
  | some fd => exact (above_client _).bind fun _ => above_pure true

theorem above_clientDisconnect : Above Mutex.rank 1 (clientDisconnect c : Prog κ β Unit) := by
  refine above_checked fun _ => above_withRef ?_
  exact (above_client _).bind fun _ => above_clientCollectAndCallPending false

theorem above_clientSendTimeout (timeoutMs : Int) (fd : Option Nat) :
    Above Mutex.rank 1 (clientSendTimeout c timeoutMs fd : Prog κ β Unit) := by
  refine above_checked fun _ => above_withRef ?_
  exact (above_perform _).bind fun _ => above_client _

/-- The spin lock is taken under the client's. -/
theorem above_clientRequestLocked (ftype : FType) (callback : Option κ) (timeoutMs : Nat)
    (sent : Bool) :
    Above Mutex.rank 3 (clientRequestLocked c ftype callback timeoutMs sent : Prog κ β _) := by
  cases callback with
  | some k => exact above_perform _
  | none => exact (above_lockedPerform (.spin c) le_rfl _).bind fun _ => above_perform _

theorem above_clientRequestWith (ftype : FType) (callback : Option κ) (timeoutMs : Nat)
    (sent : Bool) :
    Above Mutex.rank 1 (clientRequestWith c ftype callback timeoutMs sent : Prog κ β _) :=
  above_withRef (.locked (above_clientRequestLocked _ _ _ _) (Nat.le_succ 1))

theorem above_clientRequestEx (callback : Option κ) (timeoutMs : Nat) (sent : Bool) :
    Above Mutex.rank 1 (clientRequestEx c callback timeoutMs sent : Prog κ β _) :=
  above_checked fun _ => above_clientRequestWith _ _ _ _

theorem above_clientCall (url : Bytes) (callback : Option κ) (timeoutMs : Nat) (sent : Bool) :
    Above Mutex.rank 1 (clientCall c url callback timeoutMs sent : Prog κ β Bool) := by
  refine above_checked fun _ => ?_
  exact (above_clientRequestWith _ _ _ _).bind fun _ => above_pure _

theorem above_modifyThenRequest (f : SsnClient κ → SsnClient κ) (timeoutMs : Nat) (sent : Bool) :
    Above Mutex.rank 1 (do
      locked (.client c) (modifyCore c f)
      let seqno ← clientRequestEx c none timeoutMs sent
      pure seqno.isSome : Prog κ β Bool) :=
  (above_client _).bind fun _ => (above_clientRequestEx none timeoutMs sent).bind fun _ =>
    above_pure _

theorem above_clientSubscribe (url : Bytes) (callback : Option κ) (timeoutMs : Nat)
    (sent : Bool) :
    Above Mutex.rank 1 (clientSubscribe c url callback timeoutMs sent : Prog κ β Bool) :=
  above_checked fun _ => above_modifyThenRequest _ timeoutMs sent

theorem above_clientUnsubscribe (url : Bytes) (timeoutMs : Nat) (sent : Bool) :
    Above Mutex.rank 1 (clientUnsubscribe c url timeoutMs sent : Prog κ β Bool) :=
  above_checked fun _ => above_modifyThenRequest _ timeoutMs sent

theorem above_clientMessage (url : Bytes) (data : Option Ref) (sent : Bool) :
    Above Mutex.rank 1 (clientMessage c url data sent : Prog κ β Bool) := by
  refine above_checked fun _ => ?_
  exact (above_withRef (above_client _)).bind fun _ => above_pure sent

theorem above_clientSetOnMessage (callback : Option κ) :
    Above Mutex.rank 1 (clientSetOnMessage c callback : Prog κ β Unit) :=
  above_checked fun _ => above_withRef (above_perform _)

theorem above_clientSetOnPublish (callback : Option κ) :
    Above Mutex.rank 1 (clientSetOnPublish c callback : Prog κ β Unit) :=
  above_checked fun _ => above_withRef (above_perform _)

/-! ### Input -/

theorem above_clientHandlePublish (f : Frame) :
    Above Mutex.rank 1 (clientHandlePublish c f : Prog κ β Unit) := by
  refine (above_client _).bind fun callback => ?_
  cases callback with
  | some k => exact above_invoke
  | none =>
    refine (above_perform _).bind fun o => ?_
    split
    · exact above_pure ()
    · exact above_invoke

theorem above_clientHandleMessage :
    Above Mutex.rank 1 (clientHandleMessage c : Prog κ β Unit) := by
  refine (above_perform _).bind fun o => ?_
  split
  · exact above_invoke
  · exact above_pure ()

theorem above_clientHandleReply (ftype : FType) (p : Pending κ) :
    Above Mutex.rank 1 (clientHandleReply ftype p : Prog κ β Unit) := by
  unfold clientHandleReply
  split
  · exact .ite above_invoke (above_pure ())
  · exact above_pure ()

theorem above_clientHandlePendingReply (f : Frame) :
    Above Mutex.rank 1 (clientHandlePendingReply c f : Prog κ β Unit) := by
  have hfind : Above Mutex.rank 1 (clientGetPendingSnapshot c (getSeqno f) : Prog κ β _) :=
    (above_perform _).bind fun o => .ite (above_pure none) (above_client _)
  refine hfind.bind fun found => ?_
  split
  · exact above_pure ()
  · refine Above.bind ?_ fun _ => above_client _
    exact .ite (above_clientHandleReply _ _) (.ite (above_clientHandleReply _ _) (above_pure ()))

theorem above_clientFeed (ok : Bool) (fs : List Frame) :
    Above Mutex.rank 1 (clientFeed c ok fs : Prog κ β Bool) := by
  induction fs with
  | nil => exact above_pure ok
  | cons f fs ih =>
    have hdispatch : Above Mutex.rank 1 (clientDispatch c f : Prog κ β Unit) :=
      .ite (above_clientHandlePublish f)
        (.ite above_clientHandleMessage (above_clientHandlePendingReply f))
    have hinput : Above Mutex.rank 1 (clientInput c f : Prog κ β Bool) :=
      hdispatch.bind fun _ => (above_perform _).bind fun _ => above_pure _
    exact hinput.bind fun _ => .ite ih (above_pure true)

/-! ### Polling -/

theorem above_clientFds : Above Mutex.rank 1 (clientFds c : Prog κ β Bool) := by
  refine above_checked fun _ => .ite ?_ (above_pure true)
  exact (above_lockedPure (.client c) (Nat.le_succ 1)).bind fun _ => above_pure true

theorem above_clientHandleEvent : Above Mutex.rank 1 (clientHandleEvent c : Prog κ β Bool) := by
  refine above_checked fun _ => (above_perform _).bind fun _ => ?_
  exact (above_clientCollectAndCallPending true).bind fun _ => above_pure true

theorem above_clientConnectionLost :
    Above Mutex.rank 1 (clientConnectionLost c : Prog κ β Bool) :=
  (above_perform _).bind fun _ =>
    (above_clientCollectAndCallPending false).bind fun _ => above_pure false

theorem above_clientProcessEvents (sock : SocketInput) :
    Above Mutex.rank 1 (clientProcessEvents c sock : Prog κ β Bool) := by
  refine above_checked fun _ => .ite ?_ above_clientHandleEvent
  refine (above_client _).bind fun _ => ?_
  split
  · exact (above_clientFeed _ _).bind fun _ =>
      .ite above_clientHandleEvent above_clientConnectionLost
  · exact above_clientConnectionLost
  · exact above_clientHandleEvent

theorem above_clientPoll (input : ClientPollInput) :
    Above Mutex.rank 1 (clientPoll c input : Prog κ β Unit) := by
  refine above_checked fun _ => above_withRef ?_
  refine above_clientFds.bind fun _ => ?_
  cases input with
  | idle => exact above_pure ()
  | ready sock =>
    refine (above_clientProcessEvents sock).bind fun _ => .ite (above_pure ()) ?_
    exact (above_perform _).bind fun _ => above_client _

theorem above_clientRunLoop (socks : List SocketInput) :
    Above Mutex.rank 1 (clientRunLoop c socks : Prog κ β Unit) := by
  induction socks with
  | nil => exact above_clientFds.bind fun _ => .ite above_wait (above_pure ())
  | cons sock socks ih =>
    refine above_clientFds.bind fun _ => .ite ?_ (above_pure ())
    exact (above_clientProcessEvents sock).bind fun _ => .ite ih above_clientClose

theorem above_clientRun (socks : List SocketInput) :
    Above Mutex.rank 1 (clientRun c socks : Prog κ β Unit) :=
  above_checked fun _ => above_withRef (above_clientRunLoop socks)

theorem above_clientPing (k : κ) (timeoutMs : Nat) (sent : Bool) (polls : List ClientPollInput)
    (replied : Bool) :
    Above Mutex.rank 1 (clientPing c k timeoutMs sent polls replied : Prog κ β Bool) := by
  refine (above_clientRequestEx _ _ _).bind fun seqno => ?_
  cases seqno with
  | none => exact above_pure false
  | some seqno =>
    refine (above_forEach above_clientPoll _).bind fun _ => .ite (above_pure true) ?_
    exact (above_client _).bind fun _ => above_pure false

end Client

/-! ## Servers -/

section Server

variable {s : Nat} {id : UInt32}

theorem above_server (f : Objects κ β → α × Objects κ β) :
    Above Mutex.rank 1 (locked (.server s) (perform f) : Prog κ β α) :=
  above_lockedPerform _ (Nat.le_succ 1) f

theorem above_serverUnref : Above Mutex.rank 1 (serverUnref s : Prog κ β Unit) :=
  (above_server _).bind fun _ => .ite (above_perform _) (above_pure ())

theorem above_serverCreate (init : Server β) :
    Above Mutex.rank 1 (serverCreate init : Prog κ β Nat) :=
  (above_perform _).bind fun s =>
    (above_lockedPure .serverList le_rfl).bind fun _ => above_pure s

theorem above_serverStart (ok : Bool) : Above Mutex.rank 1 (serverStart s ok : Prog κ β Bool) :=
  above_checked fun _ => (above_perform _).bind fun _ => above_pure true

theorem above_serverDestroy : Above Mutex.rank 1 (serverDestroy s : Prog κ β Unit) := by
  refine above_checked fun _ => ?_
  exact (above_lockedPure .serverList le_rfl).bind fun _ =>
    (above_server _).bind fun _ => above_serverUnref

theorem above_serverLocked (f : World β → World β) :
    Above Mutex.rank 1 (serverLocked s f : Prog κ β Unit) :=
  above_checked fun _ => above_server _

/-! ### Frames -/

theorem above_serverCallOncli (connect : Bool) :
    Above Mutex.rank 1 (serverCallOncli s id connect : Prog κ β Unit) :=
  above_checked fun _ => (above_perform _).bind fun _ => above_invoke

theorem releases_serverHandleServiceInfo (f : Frame) :
    Releases Mutex.rank 1 (.server s) (serverHandleServiceInfo net s id f : Prog κ β Unit) := by
  refine .after (above_perform _) (Nat.le_succ 1) fun _ => releases_release.bind fun _ => ?_
  refine (above_perform _).bind fun _ => above_checked fun _ => ?_
  exact (above_perform _).bind fun _ => above_serverCallOncli true

theorem releases_serverAnswer (f : World β → World β) :
    Releases Mutex.rank 1 (.server s) (serverAnswer s f : Prog κ β Unit) :=
  .after (above_perform _) (Nat.le_succ 1) fun _ => releases_release

theorem releases_serverHandleRpcRequest (f : Frame) :
    Releases Mutex.rank 1 (.server s) (serverHandleRpcRequest net s id f : Prog κ β Unit) := by
  refine .ite (.after (above_perform _) (Nat.le_succ 1) fun o => ?_) (releases_serverAnswer _)
  split
  · exact releases_release.bind fun _ => (above_perform _).bind fun _ => above_invoke
  · exact releases_serverAnswer _

theorem releases_serverSwitch (f : Frame) :
    Releases Mutex.rank 1 (.server s) (serverSwitch net true s id f : Prog κ β Unit) :=
  .ite (releases_serverHandleServiceInfo f) (.ite (releases_serverHandleRpcRequest f)
    (.ite (releases_serverAnswer _) (.ite (releases_serverAnswer _)
      (.ite (releases_serverAnswer _) releases_release))))

theorem above_serverInput (f : Frame) :
    Above Mutex.rank 1 (serverInput net s id f : Prog κ β Bool) := by
  have htouch : Above Mutex.rank 1 (serverTouch s id : Prog κ β Unit) :=
    (above_perform _).bind fun _ => above_checked fun _ => above_server _
  have hmessage : Above Mutex.rank 1 (do
      let o ← readServer s
      if o.world.server.hasOnmsg then
        modifyWorld s fun w => w.emit (.onmsg id f)
        invoke
      else pure () : Prog κ β Unit) :=
    above_checked fun _ => (above_perform _).bind fun _ => above_invoke
  have hdispatch : Above Mutex.rank 1 (serverDispatch net true s id f : Prog κ β Unit) :=
    .ite hmessage ((releases_serverSwitch f).acquire (Nat.le_succ 1))
  exact (above_perform _).bind fun _ => htouch.bind fun _ => hdispatch.bind fun _ =>
    (above_perform _).bind fun _ => above_pure _

theorem above_serverFeed (fs : List Frame) :
    Above Mutex.rank 1 (serverFeed net s id fs : Prog κ β Unit) := by
  induction fs with
  | nil => exact above_pure ()
  | cons f fs ih => exact (above_serverInput f).bind fun _ => .ite ih (above_pure ())

/-! ### Polling -/

theorem above_serverHandleClientInput (input : UInt32 × SocketInput) :
    Above Mutex.rank 1 (serverHandleClientInput net s input : Prog κ β Unit) := by
  refine (above_perform _).bind fun o => ?_
  split
  · exact above_pure ()
  refine .ite (above_pure ()) ?_
  split
  · exact above_pure ()
  · exact above_serverFeed _
  · refine Above.bind (.ite ?_ (above_pure ())) fun _ => above_server _
    exact (above_perform _).bind fun _ => above_serverCallOncli false

theorem above_serverInputFds (input : ServerPollInput) :
    Above Mutex.rank 1 (serverInputFds net s input : Prog κ β Unit) := by
  have haccept (accepted : Option Int) :
      Above Mutex.rank 1 (serverAccept s accepted : Prog κ β Unit) := by
    cases accepted with
    | none => exact above_pure ()
    | some fd => exact (above_server _).bind fun _ => .ite (above_pure ()) (above_server _)
  refine above_checked fun _ => ?_
  refine (above_forEach above_serverHandleClientInput _).bind fun _ => (haccept _).bind fun _ => ?_
  exact above_checked fun _ => above_server _

theorem above_serverFds : Above Mutex.rank 1 (serverFds s : Prog κ β Bool) :=
  above_checked fun _ =>
    (above_lockedPure (.server s) (Nat.le_succ 1)).bind fun _ => above_pure true

theorem above_serverPoll (input : Option ServerPollInput) :
    Above Mutex.rank 1 (serverPoll net s input : Prog κ β Unit) := by
  have hready : Above Mutex.rank 1 (serverReady net s input : Prog κ β Unit) := by
    cases input with
    | none => exact above_pure ()
    | some input => exact above_serverInputFds input
  exact (above_server _).bind fun _ => above_serverFds.bind fun _ =>
    hready.bind fun _ => above_serverUnref

theorem above_serverRunLoop (inputs : List ServerPollInput) :
    Above Mutex.rank 1 (serverRunLoop net s inputs : Prog κ β Unit) := by
  induction inputs with
  | nil => exact above_serverFds.bind fun _ => .ite above_wait (above_pure ())
  | cons input inputs ih =>
    exact above_serverFds.bind fun _ =>
      .ite ((above_serverInputFds input).bind fun _ => ih) (above_pure ())

theorem above_serverRun (inputs : List ServerPollInput) :
    Above Mutex.rank 1 (serverRun net s inputs : Prog κ β Unit) :=
  (above_server _).bind fun _ => (above_serverRunLoop inputs).bind fun _ => above_serverUnref

end Server

/-! ## Nodes -/

section Node

variable {n : Nat} {x : Prog κ β α}

theorem above_node (hx : Above Mutex.rank 1 x) : Above Mutex.rank 0 (locked (.node n) x) :=
  .locked hx (Nat.zero_le _)

theorem above_zero (hx : Above Mutex.rank 1 x) : Above Mutex.rank 0 x := hx.mono (Nat.zero_le 1)

theorem above_nodeStart (start : ServerStart β) :
    Above Mutex.rank 0 (nodeStart n start : Prog κ β Unit) := by
  have hserver (capabilities : UInt32) :
      Above Mutex.rank 1 (nodeStartServer n capabilities start : Prog κ β Bool) := by
    refine .ite (above_pure true) (.ite ?_ (above_pure false))
    refine (above_serverCreate _).bind fun _ => (above_perform _).bind fun _ => ?_
    refine (above_serverStart _).bind fun _ => .ite (above_pure true) ?_
    exact above_serverDestroy.bind fun _ => (above_perform _).bind fun _ => above_pure false
  refine above_node (above_checked fun _ => ?_)
  exact (hserver _).bind fun _ => above_perform _

theorem above_nodeStop : Above Mutex.rank 0 (nodeStop n : Prog κ β Unit) := by
  have hserver (server : Option Nat) :
      Above Mutex.rank 1 (nodeStopServer n server : Prog κ β Unit) := by
    cases server with
    | none => exact above_pure ()
    | some s => exact above_serverDestroy.bind fun _ => above_perform _
  have hclient (client : Option Nat) :
      Above Mutex.rank 1 (nodeStopClient n client : Prog κ β Unit) := by
    cases client with
    | none => exact above_pure ()
    | some c => exact above_clientClose.bind fun _ => above_perform _
  refine above_node ((above_perform _).bind fun nd => .ite (above_pure ()) ?_)
  exact (hserver nd.server).bind fun _ => (hclient nd.client).bind fun _ => above_perform _

theorem above_nodeRead : Above Mutex.rank 0 (nodeRead n : Prog κ β Unit) :=
  above_node (above_pure ())

theorem above_nodeDestroy : Above Mutex.rank 0 (nodeDestroy n : Prog κ β Unit) :=
  (above_node (above_perform _)).bind fun _ =>
    .ite (above_nodeStop.bind fun _ => above_nodeRead) (above_pure ())

theorem above_nodeOnServer {f : Nat → Prog κ β Unit} (hf : ∀ s, Above Mutex.rank 1 (f s)) :
    Above Mutex.rank 0 (nodeOnServer n f) := by
  refine above_node ((above_perform _).bind fun nd => ?_)
  split
  · exact above_pure ()
  · exact hf _

theorem above_nodeOnClient {f : Nat → Prog κ β Unit} (hf : ∀ c, Above Mutex.rank 1 (f c)) :
    Above Mutex.rank 0 (nodeOnClient n f) := by
  refine above_node ((above_perform _).bind fun nd => ?_)
  split
  · exact above_pure ()
  · exact hf _

theorem above_nodeGetClient : Above Mutex.rank 1 (nodeGetClient n : Prog κ β _) := by
  refine (above_perform _).bind fun nd => ?_
  split
  · exact above_pure _
  · refine .ite ?_ (above_pure none)
    exact above_clientCreate.bind fun _ => (above_perform _).bind fun _ => above_pure _

theorem above_connectToPeer (peer : Bytes) :
    Above Mutex.rank 1 (connectToPeer n peer : Prog κ β _) := by
  refine above_nodeGetClient.bind fun client => ?_
  cases client with
  | none => exact above_pure none
  | some c =>
    refine (above_perform _).bind fun _ => (above_perform _).bind fun _ => ?_
    exact .ite (above_clientRef.bind fun _ => above_pure _) (above_pure none)

/-- The node's lock is taken and released before the client is used, and taken again behind
that. -/
theorem above_nodeToPeer (peer : Bytes) (fd : Option Nat) {send : Nat → Prog κ β Bool}
    (hsend : ∀ c, Above Mutex.rank 1 (send c)) :
    Above Mutex.rank 0 (nodeToPeer n peer fd send) := by
  have hensure (c : Nat) :
      Above Mutex.rank 0 (nodeEnsureConnected n c peer fd : Prog κ β Bool) := by
    refine (above_perform _).bind fun _ => .ite (above_pure true) ?_
    refine (above_zero (above_clientConnect fd)).bind fun _ => .ite ?_ (above_pure false)
    exact (above_node (above_perform _)).bind fun _ => above_pure true
  have hunref (c : Nat) : Above Mutex.rank 0 (clientUnref c : Prog κ β Unit) :=
    above_zero above_clientUnref
  refine (above_node (above_connectToPeer peer)).bind fun client => ?_
  cases client with
  | none => exact above_pure ()
  | some c =>
    refine (hensure c).bind fun _ => .ite ?_ (hunref c)
    refine (above_zero (hsend c)).bind fun _ => .ite ?_ (hunref c)
    exact above_nodeRead.bind fun _ => hunref c

theorem above_nodePoll (serverInput : Option ServerPollInput) (clientInput : ClientPollInput) :
    Above Mutex.rank 0 (nodePoll net n serverInput clientInput : Prog κ β Unit) := by
  have href (client : Option Nat) :
      Above Mutex.rank 1 (nodeRefClient client : Prog κ β Unit) := by
    cases client with
    | none => exact above_pure ()
    | some c => exact above_clientRef
  have hserver (server : Option Nat) :
      Above Mutex.rank 1 (nodePollServer net serverInput server : Prog κ β Unit) := by
    cases server with
    | none => exact above_pure ()
    | some s => exact above_serverPoll serverInput
  have hclient (client : Option Nat) :
      Above Mutex.rank 1 (nodePollClient clientInput client : Prog κ β Unit) := by
    cases client with
    | none => exact above_pure ()
    | some c => exact (above_clientPoll clientInput).bind fun _ => above_clientUnref
  refine (above_node ((above_perform _).bind fun nd => (href _).bind fun _ => above_pure nd)).bind
    fun nd => ?_
  exact (above_zero (hserver nd.server)).bind fun _ => above_zero (hclient nd.client)

end Node

/-- **The calls of users.** -/
theorem above_code (op : ApiCall κ β) : Above Mutex.rank 0 (op.code net) := by
  cases op with
  | clientCreate => exact above_zero (above_discard above_clientCreate)
  | clientRef c => exact above_zero above_clientRef
  | clientUnref c => exact above_zero above_clientUnref
  | clientClose c => exact above_zero above_clientClose
  | clientConnect c fd => exact above_zero (above_discard (above_clientConnect fd))
  | clientDisconnect c => exact above_zero above_clientDisconnect
  | clientSendTimeout c timeoutMs fd => exact above_zero (above_clientSendTimeout timeoutMs fd)
  | clientCall c url callback timeoutMs sent =>
    exact above_zero (above_discard (above_clientCall url callback timeoutMs sent))
  | clientSubscribe c url callback timeoutMs sent =>
    exact above_zero (above_discard (above_clientSubscribe url callback timeoutMs sent))
  | clientUnsubscribe c url timeoutMs sent =>
    exact above_zero (above_discard (above_clientUnsubscribe url timeoutMs sent))
  | clientMessage c url data sent =>
    exact above_zero (above_discard (above_clientMessage url data sent))
  | clientPing c k timeoutMs sent polls replied =>
    exact above_zero (above_discard (above_clientPing k _ _ _ _))
  | clientSetOnMessage c callback => exact above_zero (above_clientSetOnMessage callback)
  | clientSetOnPublish c callback => exact above_zero (above_clientSetOnPublish callback)
  | clientFds c => exact above_zero (above_discard above_clientFds)
  | clientPoll c input => exact above_zero (above_clientPoll input)
  | clientRun c socks => exact above_zero (above_clientRun socks)
  | serverCreate init => exact above_zero (above_discard (above_serverCreate init))
  | serverStart s ok => exact above_zero (above_discard (above_serverStart ok))
  | serverDestroy s => exact above_zero above_serverDestroy
  | serverPeerClose s id => exact above_zero (above_serverLocked _)
  | serverRead s => exact above_zero (above_serverLocked _)
  | serverPublish s url data => exact .ite (above_zero (above_serverLocked _)) (above_pure ())
  | serverResponse s id status seqno data => exact above_zero (above_serverLocked _)
  | serverMessage s id url data => exact .ite (above_zero (above_serverLocked _)) (above_pure ())
  | serverAddMethod s url callback =>
    exact .ite (above_zero (above_serverLocked _)) (above_pure ())
  | serverRemoveMethod s url => exact .ite (above_zero (above_serverLocked _)) (above_pure ())
  | serverSetConnectHandler s isSet => exact above_perform _
  | serverSetMessageHandler s isSet => exact above_perform _
  | serverPoll s input => exact above_zero (above_serverPoll input)
  | serverRun s inputs => exact above_zero (above_serverRun inputs)
  | nodeCreate capabilities => exact above_perform _
  | nodeStart n start => exact above_nodeStart start
  | nodeStop n => exact above_nodeStop
  | nodeDestroy n => exact above_nodeDestroy
  | nodeRead n => exact above_nodeRead
  | nodeGetClient n => exact above_zero (above_discard above_nodeGetClient)
  | nodeSetConnectHandler n isSet => exact above_nodeOnServer fun _ => above_perform _
  | nodeSetMessageHandler n isSet => exact above_nodeOnServer fun _ => above_perform _
  | nodeSetClientMessageHandler n callback =>
    exact above_nodeOnClient fun _ => above_clientSetOnMessage callback
  | nodeAddRpcMethod n url callback =>
    exact above_nodeOnServer fun _ => .ite (above_serverLocked _) (above_pure ())
  | nodeRemoveRpcMethod n url =>
    exact above_nodeOnServer fun _ => .ite (above_serverLocked _) (above_pure ())
  | nodeGetStats n => exact above_nodeOnServer fun _ => above_serverLocked _
  | nodePublish n url data =>
    exact above_nodeOnServer fun _ => .ite (above_serverLocked _) (above_pure ())
  | nodeSendToPeer n peer url data fd sent =>
    exact above_nodeToPeer peer fd fun _ => above_clientMessage url data sent
  | nodeSubscribe n peer url callback timeoutMs fd sent =>
    exact above_nodeToPeer peer fd fun _ => above_clientSubscribe url (some callback) timeoutMs sent
  | nodeUnsubscribe n url timeoutMs sent =>
    exact above_nodeOnClient fun _ => above_discard (above_clientUnsubscribe url timeoutMs sent)
  | nodeRpcCall n peer url callback timeoutMs fd sent =>
    exact above_nodeToPeer peer fd fun _ => above_clientCall url callback timeoutMs sent
  | nodePoll n serverInput clientInput => exact above_nodePoll serverInput clientInput

/-! ## Auto-clients -/

section Auto

variable {a c : Nat}

theorem above_auto {x : Prog κ β α} (hx : Above Mutex.rank 1 x) :
    Above Mutex.rank 0 (locked (.auto a) x) :=
  .locked hx (Nat.zero_le _)

/-- The client is made, and closed if there is no thread for it, with the mutex held. -/
theorem above_autoStart (start : AutoStart κ) :
    Above Mutex.rank 0 (autoStart a start : Prog κ β Bool) := by
  refine above_auto (above_checked fun _ => ?_)
  refine (above_perform _).bind fun _ => .ite ?_ ((above_perform _).bind fun _ => above_pure false)
  refine above_clientCreate.bind fun _ => (above_perform _).bind fun _ => ?_
  refine (above_clientSetOnPublish _).bind fun _ => (above_perform _).bind fun _ => ?_
  refine .ite (above_pure true) ((above_perform _).bind fun _ => above_clientClose.bind fun _ => ?_)
  exact (above_perform _).bind fun _ => above_pure false

theorem above_autoCloseClient (client : Option Nat) :
    Above Mutex.rank 0 (autoCloseClient a client : Prog κ β Unit) := by
  cases client with
  | none => exact above_pure ()
  | some c => exact (above_zero above_clientClose).bind fun _ => above_perform _

theorem above_autoStop (exits : Bool) : Above Mutex.rank 0 (autoStop a exits : Prog κ β Bool) := by
  refine (above_auto (above_perform _)).bind fun _ => .ite (.ite ?_ above_wait) (above_pure false)
  refine (above_perform _).bind fun _ => (above_autoCloseClient _).bind fun _ => ?_
  exact (above_perform _).bind fun _ => above_pure true

theorem above_autoDelete (exits : Bool) :
    Above Mutex.rank 0 (autoDelete a exits : Prog κ β Unit) :=
  (above_autoStop exits).bind fun _ => (above_perform _).bind fun _ => above_autoCloseClient _

theorem above_autoWrite (f : AutoObj → AutoObj) :
    Above Mutex.rank 0 (autoWrite a f : Prog κ β Unit) :=
  above_auto (above_perform _)

theorem above_autoOnconn : Above Mutex.rank 0 (autoOnconn a : Prog κ β Unit) :=
  above_checked fun _ => above_invoke

theorem above_autoLost : Above Mutex.rank 0 (autoLost a : Prog κ β Unit) :=
  (above_autoWrite _).bind fun _ => above_autoOnconn

theorem above_autoConnecting (r : AutoRound) :
    Above Mutex.rank 0 (autoConnecting a c r : Prog κ β Unit) := by
  refine (above_zero (above_clientConnect _)).bind fun _ => .ite ?_ (above_pure ())
  refine (above_autoWrite _).bind fun _ => (above_perform _).bind fun _ => ?_
  refine (above_forEach (fun url => ?_) _).bind fun _ => above_autoOnconn
  exact above_zero (above_discard (above_clientSubscribe url _ _ _))

theorem above_autoConnected (k : κ) (r : AutoRound) :
    Above Mutex.rank 0 (autoConnected a c k r : Prog κ β Unit) := by
  have hpinged (answered : Bool) :
      Above Mutex.rank 0 (autoPinged a answered : Prog κ β Unit) := by
    refine .ite (above_autoWrite _) ((above_auto (above_perform _)).bind fun _ => ?_)
    exact .ite above_autoLost (above_pure ())
  refine (above_perform _).bind fun _ => (above_zero (above_clientPing k _ _ _ _)).bind fun _ => ?_
  refine (hpinged _).bind fun _ => (above_zero (above_clientPoll _)).bind fun _ => ?_
  exact (above_perform _).bind fun _ => .ite (above_pure ()) above_autoLost

theorem above_autoBranch (k : κ) (r : AutoRound) (state : AutoState) :
    Above Mutex.rank 0 (autoBranch a c k r state : Prog κ β Bool) := by
  have hpass : Above Mutex.rank 0 (locked (.auto a) (pure ()) : Prog κ β Unit) :=
    above_auto (above_pure ())
  cases state with
  | connecting => exact (above_autoConnecting r).bind fun _ => above_pure true
  | connected => exact (above_autoConnected k r).bind fun _ => above_pure true
  | disconnected => exact (above_autoWrite _).bind fun _ => above_pure true
  | stopped => exact above_pure false
  | idle => exact hpass.bind fun _ => hpass.bind fun _ => above_pure true

theorem above_autoThread (k : κ) (rs : List AutoRound) :
    Above Mutex.rank 0 (autoThread a c k rs : Prog κ β Unit) := by
  induction rs with
  | nil => exact above_wait
  | cons r rs ih =>
    refine (above_auto (above_perform _)).bind fun state => ?_
    cases state with
    | none => exact above_pure ()
    | some state => exact (above_autoBranch k r state).bind fun _ => .ite ih (above_pure ())

end Auto

/-! ## The timer threads -/

theorem above_clientTimerHandle (rounds : List (List Nat)) :
    Above Mutex.rank 0 (clientTimerHandle rounds : Prog κ β Unit) := by
  refine above_forEach (fun cs => .locked (above_forEach (fun c => ?_) cs) (Nat.zero_le _)) rounds
  exact above_lockedPerform (.client c) le_rfl _

theorem above_serverTimerHandle (rounds : List (List Nat)) :
    Above Mutex.rank 0 (serverTimerHandle rounds : Prog κ β Unit) := by
  refine above_forEach (fun ss => .locked (above_forEach (fun s => ?_) ss) (Nat.zero_le _)) rounds
  refine above_checked fun _ => ?_
  exact above_lockedPerform (.server s) le_rfl _

/-! ## Threads -/

/-- What a thread runs: a call of the user, or the code of a thread that the library made. -/
inductive ThreadCall (κ β : Type)
  | api (op : ApiCall κ β)
  | autoCreate
  | autoDelete (a : Nat) (exits : Bool)
  | autoSetup (a : Nat) (isSet : Bool)
  | autoStart (a : Nat) (start : AutoStart κ)
  | autoStop (a : Nat) (exits : Bool)
  | autoThread (a c : Nat) (k : κ) (rs : List AutoRound)
  | clientTimer (rounds : List (List Nat))
  | serverTimer (rounds : List (List Nat))

def ThreadCall.code (net : Nat → Nat → SendStep) : ThreadCall κ β → Prog κ β Unit
  | .api op => op.code net
  | .autoCreate => discard Ssn.autoCreate
  | .autoDelete a exits => Ssn.autoDelete a exits
  | .autoSetup a isSet => Ssn.autoSetup a isSet
  | .autoStart a start => discard (Ssn.autoStart a start)
  | .autoStop a exits => discard (Ssn.autoStop a exits)
  | .autoThread a c k rs => Ssn.autoThread a c k rs
  | .clientTimer rounds => clientTimerHandle rounds
  | .serverTimer rounds => serverTimerHandle rounds

theorem above_threadCall (call : ThreadCall κ β) : Above Mutex.rank 0 (call.code net) := by
  cases call with
  | api op => exact above_code op
  | autoCreate => exact above_discard (above_perform _)
  | autoDelete a exits => exact above_autoDelete exits
  | autoSetup a isSet => exact above_perform _
  | autoStart a start => exact above_discard (above_autoStart start)
  | autoStop a exits => exact above_discard (above_autoStop exits)
  | autoThread a c k rs => exact above_autoThread k rs
  | clientTimer rounds => exact above_clientTimerHandle rounds
  | serverTimer rounds => exact above_serverTimerHandle rounds

/-- The threads `ι`, after a run. -/
def threads {ι : Type} [Fintype ι] [DecidableEq ι] (net : Nat → Nat → SendStep) (h : Objects κ β)
    (es : List (MachineEvent ι (ThreadCall κ β) (Objects κ β))) : Machine ι Mutex (Objects κ β) :=
  Runs.run (Machine.step (ThreadCall.code net)) (.init h) es

/-- **No deadlock.** The relation "some thread takes `b` while it holds `a`", over all runs
of the threads, has no cycle, and no state has a cycle of threads that wait for each other. -/
theorem locks_acyclic (ι : Type) [Fintype ι] [DecidableEq ι] (net : Nat → Nat → SendStep)
    (h : Objects κ β) :
    (∀ l, ¬ Relation.TransGen (fun a b =>
      ∃ es : List (MachineEvent ι (ThreadCall κ β) (Objects κ β)), (threads net h es).Nests a b)
        l l) ∧
    ∀ (es : List (MachineEvent ι (ThreadCall κ β) (Objects κ β))) (t : ι),
      ¬ Relation.TransGen (threads net h es).WaitsFor t t :=
  ⟨Machine.nests_acyclic above_threadCall h, fun es =>
    (Machine.inv_run above_threadCall h es).no_deadlock⟩

/-- The client's timer thread takes the lock of a client with that of the list held. -/
example : (threads (ι := Unit) acceptAll (.empty : Objects Unit Unit)
    [.call () (.clientTimer [[0]]), .step ()]).Nests .clientList (.client 0) :=
  ⟨(), List.mem_singleton_self _, rfl⟩

end Ssn
