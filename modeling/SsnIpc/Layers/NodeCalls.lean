import SsnIpc.Layers.ServerCalls
import SsnIpc.Node.Peers

/-!
# The functions of the node, with their locks and callbacks

What the functions of `ssn_node.c` and `ssn_node_comm.c` do to `node->lock`. Those that poll or send
take a reference to the client under the lock and then work without it. The others call the client
or the server with the lock held, among them `ssn_node_stop`, which closes the client: that calls
the user for each pending request, unless the client has none or is kept by another reference
(`nodeStop_quiet`).
-/

namespace Ssn

open ByteMem Locking Locking.Code
open Objects (sweep)

variable {κ β : Type} (net : Nat → Nat → SendStep)

/-! ## Life of a node -/

/-- `SSN_NODE_CAP_SERVER`. -/
def capServer : UInt32 := 4

/-- `SSN_NODE_CAP_CLIENT`. -/
def capClient : UInt32 := 8

/-- A node as `ssn_node_create` sets it up. Without capabilities it is given RPC, PUBSUB, SERVER and
CLIENT. -/
def NodeObj.create (capabilities : UInt32) : NodeObj where
  state := .stopped
  valid := true
  refCount := 1
  capabilities := if capabilities = 0 then 15 else capabilities
  server := none
  client := none
  peerAddress := []

def Objects.empty : Objects κ β where
  clients _ := ⟨.create, false, 0⟩
  servers _ := ⟨.init (.create 0), false, 0, false⟩
  nodes _ := { NodeObj.create 0 with valid := false }
  autos _ := .create
  newClient := 0
  newServer := 0
  newNode := 0
  newAuto := 0

/-- `ssn_node_create`, with memory to spare. -/
def nodeCreate (capabilities : UInt32) : Prog κ β Unit :=
  modify fun h =>
    { h.modifyNode h.newNode fun _ => .create capabilities with newNode := h.newNode + 1 }

/-- What the start of a server can meet: the settings, whether it can be created, and whether its
address can be bound. -/
structure ServerStart (β : Type) where
  init : Server β
  created : Bool
  started : Bool

/-- The part of `ssn_node_start` that makes the server, if the node is to have one. -/
def nodeStartServer (n : Nat) (capabilities : UInt32) (start : ServerStart β) :
    Prog κ β Bool := do
  if capabilities &&& capServer = 0 then pure true
  else if start.created then
    let s ← serverCreate start.init
    onNode n fun nd => { nd with server := some s }
    let ok ← serverStart s start.started
    if ok then pure true
    else
      serverDestroy s
      onNode n fun nd => { nd with server := none }
      pure false
  else pure false

/-- `ssn_node_start`. -/
def nodeStart (n : Nat) (start : ServerStart β) : Prog κ β Unit :=
  locked (.node n) do
    let nd ← readNode n
    if nd.state = .stopped then
      let ok ← nodeStartServer n nd.capabilities start
      onNode n fun nd => { nd with state := if ok then .active else .error }
    else pure ()

/-- The part of `ssn_node_stop` for the server. -/
def nodeStopServer (n : Nat) : Option Nat → Prog κ β Unit
  | none => pure ()
  | some s => do
    serverDestroy s
    onNode n fun nd => { nd with server := none }

/-- The part of `ssn_node_stop` for the client. -/
def nodeStopClient (n : Nat) : Option Nat → Prog κ β Unit
  | none => pure ()
  | some c => do
    clientClose c
    onNode n fun nd => { nd with client := none }

/-- `ssn_node_stop`: all under the lock. -/
def nodeStop (n : Nat) : Prog κ β Unit :=
  locked (.node n) do
    let nd ← readNode n
    if nd.state = .stopped then pure ()
    else
      nodeStopServer n nd.server
      nodeStopClient n nd.client
      onNode n fun nd => { nd with state := .stopped }

/-- The part of `ssn_node_destroy` before the node is stopped: true if it is to be stopped. -/
def NodeObj.drop (nd : NodeObj) : Bool × NodeObj :=
  if nd.valid then
    (nd.refCount ≤ 1 ∧ nd.state = .active, { nd with valid := false, refCount := nd.refCount - 1 })
  else (false, nd)

/-- `ssn_node_destroy`: the lock is released for the stop and taken again. -/
def nodeDestroy (n : Nat) : Prog κ β Unit := do
  let running ← locked (.node n) (perform fun h =>
    ((h.nodes n).drop.1, h.modifyNode n fun nd => nd.drop.2))
  if running then
    nodeStop n
    locked (.node n) (pure ())
  else pure ()

/-! ## Calls under the lock -/

/-- `ssn_node_get_state`, `ssn_node_get_capabilities` and the time stamps of other functions. -/
def nodeRead (n : Nat) : Prog κ β Unit := locked (.node n) (pure ())

/-- The functions that pass on to the server with the lock held. -/
def nodeOnServer (n : Nat) (f : Nat → Prog κ β Unit) : Prog κ β Unit :=
  locked (.node n) do
    let nd ← readNode n
    match nd.server with
    | none => pure ()
    | some s => f s

/-- `ssn_node_set_connect_handler`. -/
def nodeSetConnectHandler (n : Nat) (isSet : Bool) : Prog κ β Unit :=
  nodeOnServer n fun s => serverSetConnectHandler s isSet

/-- `ssn_node_set_message_handler`. -/
def nodeSetMessageHandler (n : Nat) (isSet : Bool) : Prog κ β Unit :=
  nodeOnServer n fun s => serverSetMessageHandler s isSet

/-- `ssn_node_add_rpc_method`. -/
def nodeAddRpcMethod (n : Nat) (url : Bytes) (callback : β) : Prog κ β Unit :=
  nodeOnServer n fun s => serverAddMethod s url callback

/-- `ssn_node_remove_rpc_method`. -/
def nodeRemoveRpcMethod (n : Nat) (url : Bytes) : Prog κ β Unit :=
  nodeOnServer n fun s => serverRemoveMethod s url

/-- `ssn_node_get_stats`. -/
def nodeGetStats (n : Nat) : Prog κ β Unit := nodeOnServer n serverRead

/-- `ssn_node_publish`. -/
def nodePublish (n : Nat) (url : Bytes) (data : Option Ref) : Prog κ β Unit :=
  nodeOnServer n fun s => serverPublish net s url data

/-- The functions that pass on to the client with the lock held. -/
def nodeOnClient (n : Nat) (f : Nat → Prog κ β Unit) : Prog κ β Unit :=
  locked (.node n) do
    let nd ← readNode n
    match nd.client with
    | none => pure ()
    | some c => f c

/-- `ssn_node_set_client_message_handler`. -/
def nodeSetClientMessageHandler (n : Nat) (callback : Option κ) : Prog κ β Unit :=
  nodeOnClient n fun c => clientSetOnMessage c callback

/-- `ssn_node_unsubscribe`. -/
def nodeUnsubscribe (n : Nat) (url : Bytes) (timeoutMs : Nat) (sent : Bool) : Prog κ β Unit :=
  nodeOnClient n fun c => do
    let _ ← clientUnsubscribe c url timeoutMs sent
    pure ()

/-! ## Calls to a peer -/

/-- `ssn_node_get_client`, which takes no lock: the client is made when it is first asked for. -/
def nodeGetClient (n : Nat) : Prog κ β (Option Nat) := do
  let nd ← readNode n
  match nd.client with
  | some c => pure (some c)
  | none =>
    if nd.capabilities &&& capClient ≠ 0 then
      let c ← clientCreate
      onNode n fun nd => { nd with client := some c }
      pure (some c)
    else pure none

/-- `connect_to_peer`, which has the lock: a connected client is refused to callers with another
address. The client comes with a reference. -/
def connectToPeer (n : Nat) (peer : Bytes) : Prog κ β (Option Nat) := do
  let client ← nodeGetClient n
  match client with
  | none => pure none
  | some c =>
    let connected ← clientIsConnect c
    let nd ← readNode n
    if peerOk connected nd.peerAddress peer then
      clientRef c
      pure (some c)
    else pure none

/-- `node_ensure_connected`, without the lock. -/
def nodeEnsureConnected (n c : Nat) (peer : Bytes) (fd : Option Nat) : Prog κ β Bool := do
  let connected ← clientIsConnect c
  if connected then pure true
  else
    let ok ← clientConnect c fd
    if ok then
      locked (.node n) (onNode n fun nd => { nd with peerAddress := keptAddress peer })
      pure true
    else pure false

/-- What the functions that send to a peer share: `send` is the call of the client. -/
def nodeToPeer (n : Nat) (peer : Bytes) (fd : Option Nat) (send : Nat → Prog κ β Bool) :
    Prog κ β Unit := do
  let client ← locked (.node n) (connectToPeer n peer)
  match client with
  | none => pure ()
  | some c =>
    let connected ← nodeEnsureConnected n c peer fd
    if connected then
      let ok ← send c
      if ok then
        nodeRead n
        clientUnref c
      else clientUnref c
    else clientUnref c

/-- `ssn_node_send_to_peer`. -/
def nodeSendToPeer (n : Nat) (peer url : Bytes) (data : Option Ref) (fd : Option Nat)
    (sent : Bool) : Prog κ β Unit :=
  nodeToPeer n peer fd fun c => clientMessage c url data sent

/-- `ssn_node_subscribe`. -/
def nodeSubscribe (n : Nat) (peer url : Bytes) (callback : κ) (timeoutMs : Nat) (fd : Option Nat)
    (sent : Bool) : Prog κ β Unit :=
  nodeToPeer n peer fd fun c => clientSubscribe c url (some callback) timeoutMs sent

/-- `ssn_node_rpc_call`. -/
def nodeRpcCall (n : Nat) (peer url : Bytes) (callback : Option κ) (timeoutMs : Nat)
    (fd : Option Nat) (sent : Bool) : Prog κ β Unit :=
  nodeToPeer n peer fd fun c => clientCall c url callback timeoutMs sent

/-- A reference to the client that a poll will use. -/
def nodeRefClient : Option Nat → Prog κ β Unit
  | none => pure ()
  | some c => clientRef c

/-- The server's part of `ssn_node_poll`. -/
def nodePollServer (input : Option ServerPollInput) : Option Nat → Prog κ β Unit
  | none => pure ()
  | some s => serverPoll net s input

/-- The client's part of `ssn_node_poll`. -/
def nodePollClient (input : ClientPollInput) : Option Nat → Prog κ β Unit
  | none => pure ()
  | some c => do
    clientPoll c input
    clientUnref c

/-- `ssn_node_poll`: the lock is held only to look up server and client. -/
def nodePoll (n : Nat) (serverInput : Option ServerPollInput) (clientInput : ClientPollInput) :
    Prog κ β Unit := do
  let nd ← locked (.node n) (do
    let nd ← readNode n
    nodeRefClient nd.client
    pure nd)
  nodePollServer net serverInput nd.server
  nodePollClient clientInput nd.client

/-! ## Locks -/

section Clean

variable {net} {held : List Mutex} {n : Nat}

/-- Destroying a server does not call the user, and changes only servers. -/
theorem serverDestroy_keeps {s : Nat} (h : .server s ∉ held) (hl : .serverList ∉ held)
    (P : Fact κ β) (hP : ∀ h f, P h → P (h.modifyServer s f)) :
    Triple sweep held P (serverDestroy s : Prog κ β Unit) held fun _ => P := by
  have hpure {held : List Mutex} :
      Triple sweep held P (pure () : Prog κ β Unit) held fun _ => P :=
    .pure (Q := fun _ => P) ()
  have hset {held : List Mutex} (f : ServerObj β → ServerObj β) :
      Triple sweep held P (onServer s f : Prog κ β Unit) held fun _ => P :=
    .perform fun h hs => hP h f hs
  refine Triple.bind (Q := fun _ => P) (.perform fun _ hs => hs) fun _ =>
    .ite (fun _ => ?_) fun _ => hpure
  refine Triple.bind (.locked hl hpure) fun _ => (Triple.locked h (hset _)).bind fun _ => ?_
  refine Triple.bind (Q := fun _ => P) (.locked h (.perform fun o hs =>
    hP o (fun o => o.dropRef.2) hs)) fun _ => ?_
  exact .ite (fun _ => hset _) fun _ => hpure

theorem clean_serverDestroy {s : Nat} (h : .server s ∉ held) (hl : .serverList ∉ held) :
    Clean sweep held (serverDestroy s : Prog κ β Unit) held :=
  serverDestroy_keeps h hl ⊤ fun _ _ _ => trivial

theorem clean_nodeStartServer (capabilities : UInt32) (start : ServerStart β) :
    Clean sweep [.node n] (nodeStartServer n capabilities start : Prog κ β Bool) [.node n] := by
  refine .ite (fun _ => clean_pure true) fun _ => .ite (fun _ => ?_) fun _ => clean_pure false
  refine (clean_serverCreate (by simp) _).bind fun s => (clean_perform _).bind fun _ => ?_
  refine (clean_serverStart _).bind fun _ => .ite (fun _ => clean_pure true) fun _ => ?_
  exact (clean_serverDestroy (by simp) (by simp)).bind fun _ =>
    (clean_perform _).bind fun _ => clean_pure false

theorem clean_nodeStart (start : ServerStart β) :
    Clean sweep [] (nodeStart n start : Prog κ β Unit) [] := by
  refine .locked List.not_mem_nil ((clean_perform _).bind fun nd => ?_)
  refine .ite (fun _ => ?_) fun _ => clean_pure ()
  exact (clean_nodeStartServer _ start).bind fun _ => clean_perform _

theorem clean_nodeRead : Clean sweep [] (nodeRead n : Prog κ β Unit) [] :=
  .locked List.not_mem_nil (clean_pure ())

theorem clean_nodeOnServer {f : Nat → Prog κ β Unit}
    (hf : ∀ s, Clean sweep [.node n] (f s) [.node n]) :
    Clean sweep [] (nodeOnServer n f) [] := by
  refine .locked List.not_mem_nil ((clean_perform _).bind fun nd => ?_)
  split
  · exact clean_pure ()
  · exact hf _

theorem clean_nodeOnClient {f : Nat → Prog κ β Unit}
    (hf : ∀ c, Clean sweep [.node n] (f c) [.node n]) :
    Clean sweep [] (nodeOnClient n f) [] := by
  refine .locked List.not_mem_nil ((clean_perform _).bind fun nd => ?_)
  split
  · exact clean_pure ()
  · exact hf _

theorem clean_nodeGetClient (h : .clientList ∉ held) :
    Clean sweep held (nodeGetClient n : Prog κ β _) held := by
  refine (clean_perform _).bind fun nd => ?_
  split
  · exact clean_pure _
  · refine .ite (fun _ => ?_) fun _ => clean_pure none
    exact (clean_clientCreate h).bind fun c => (clean_perform _).bind fun _ => clean_pure (some c)

theorem clean_connectToPeer (peer : Bytes) :
    Clean sweep [.node n] (connectToPeer n peer : Prog κ β _) [.node n] := by
  refine (clean_nodeGetClient (by simp)).bind fun client => ?_
  cases client with
  | none => exact clean_pure none
  | some c =>
    refine (clean_perform _).bind fun _ => (clean_perform _).bind fun _ => ?_
    refine .ite (fun _ => ?_) fun _ => clean_pure none
    exact (clean_clientRef (by simp)).bind fun _ => clean_pure (some c)

theorem clean_nodeToPeer (peer : Bytes) (fd : Option Nat) {send : Nat → Prog κ β Bool}
    (hsend : ∀ c, Clean sweep [] (send c) []) :
    Clean sweep [] (nodeToPeer n peer fd send) [] := by
  have hensure (c : Nat) :
      Clean sweep [] (nodeEnsureConnected n c peer fd : Prog κ β Bool) [] := by
    refine (clean_perform _).bind fun _ => .ite (fun _ => clean_pure true) fun _ => ?_
    refine (clean_clientConnect fd).bind fun _ => .ite (fun _ => ?_) fun _ => clean_pure false
    exact (clean_locked List.not_mem_nil _).bind fun _ => clean_pure true
  refine (Triple.locked List.not_mem_nil (clean_connectToPeer peer)).bind fun client => ?_
  cases client with
  | none => exact clean_pure ()
  | some c =>
    refine (hensure c).bind fun _ => .ite (fun _ => ?_) fun _ => clean_clientUnref
    refine (hsend c).bind fun _ => .ite (fun _ => ?_) fun _ => clean_clientUnref
    exact clean_nodeRead.bind fun _ => clean_clientUnref

theorem clean_nodeRefClient (client : Option Nat) :
    Clean sweep [.node n] (nodeRefClient client : Prog κ β Unit) [.node n] := by
  cases client with
  | none => exact clean_pure ()
  | some c => exact clean_clientRef (by simp)

theorem clean_nodePollServer (input : Option ServerPollInput) (server : Option Nat) :
    Clean sweep [] (nodePollServer net input server : Prog κ β Unit) [] := by
  cases server with
  | none => exact clean_pure ()
  | some s => exact clean_serverPoll input

theorem clean_nodePollClient (input : ClientPollInput) (client : Option Nat) :
    Clean sweep [] (nodePollClient input client : Prog κ β Unit) [] := by
  cases client with
  | none => exact clean_pure ()
  | some c => exact (clean_clientPoll input).bind fun _ => clean_clientUnref

theorem clean_nodePoll (serverInput : Option ServerPollInput) (clientInput : ClientPollInput) :
    Clean sweep [] (nodePoll net n serverInput clientInput : Prog κ β Unit) [] := by
  have hread : Clean sweep [] (locked (.node n) (do
      let nd ← readNode n
      nodeRefClient nd.client
      pure nd) : Prog κ β NodeObj) [] :=
    .locked List.not_mem_nil ((clean_perform _).bind fun nd =>
      (clean_nodeRefClient _).bind fun _ => clean_pure nd)
  exact hread.bind fun nd => (clean_nodePollServer serverInput nd.server).bind fun _ =>
    clean_nodePollClient clientInput nd.client

/-! ### Stopping a node whose client is quiet -/

/-- To close the client, if there is one, reports no request. -/
def Fact.quietClient (client : Option Nat) : Fact κ β where
  holds h := ∀ c ∈ client, ClientFact.quiet (h.clients c)
  tick_keeps e h hq c hc := (ClientFact.quiet.at c).tick_keeps e h (hq c hc)

/-- To stop the node reports no request: it is stopped, or to close its client reports none. -/
def Fact.quietNode (n : Nat) : Fact κ β where
  holds h := (h.nodes n).state ≠ .stopped → Fact.quietClient (h.nodes n).client h
  tick_keeps e h hq := by
    have hnodes : (sweep e h).nodes = h.nodes := by cases e <;> rfl
    intro hs
    rw [hnodes] at hs ⊢
    exact (Fact.quietClient _).tick_keeps e h (hq hs)

/-- The same, for a node that was read. -/
def Fact.quietRead (nd : NodeObj) : Fact κ β where
  holds h := nd.state ≠ .stopped → Fact.quietClient nd.client h
  tick_keeps e h hq hs := (Fact.quietClient _).tick_keeps e h (hq hs)

theorem nodeStopServer_keeps (client server : Option Nat) :
    Triple sweep [.node n] (Fact.quietClient client) (nodeStopServer n server : Prog κ β Unit)
      [.node n] fun _ => Fact.quietClient client := by
  cases server with
  | none => exact .pure (Q := fun _ => Fact.quietClient client) ()
  | some s =>
    exact (serverDestroy_keeps (by simp) (by simp) _ fun _ _ hq => hq).bind fun _ =>
      .perform fun _ hq => hq

theorem nodeStopClient_quiet (client : Option Nat) :
    Triple sweep [.node n] (Fact.quietClient client) (nodeStopClient n client : Prog κ β Unit)
      [.node n] fun _ => ⊤ := by
  cases client with
  | none => exact (clean_pure ()).triple
  | some c =>
    refine Triple.weaken (P := ClientFact.quiet.at c) ?_ fun h hq => hq c rfl
    exact (clientClose_quiet (by simp) (by simp)).bind fun _ => clean_perform _

theorem nodeStop_quiet :
    Triple sweep [] (Fact.quietNode n) (nodeStop n : Prog κ β Unit) [] fun _ => ⊤ := by
  refine .locked List.not_mem_nil ?_
  refine Triple.bind (Q := fun nd => Fact.quietRead nd) (.perform fun _ hq => hq) fun nd => ?_
  refine .ite (fun _ => (clean_pure ()).triple) fun hs => ?_
  refine Triple.bind ((nodeStopServer_keeps nd.client nd.server).weaken fun h hq => hq hs)
    fun _ => ?_
  exact (nodeStopClient_quiet nd.client).bind fun _ => clean_perform _

/-- To destroy the node reports no request: it was destroyed before, there is another reference to
it, it is not active, or to stop it reports none. -/
def Fact.quietDestroy (n : Nat) : Fact κ β where
  holds h := (h.nodes n).valid = true → (h.nodes n).refCount ≤ 1 → (h.nodes n).state = .active →
    Fact.quietNode n h
  tick_keeps e h hq := by
    have hnodes : (sweep e h).nodes = h.nodes := by cases e <;> rfl
    intro hv hr hs
    rw [hnodes] at hv hr hs
    exact (Fact.quietNode n).tick_keeps e h (hq hv hr hs)

/-- To stop the node reports no request, if the flag is set. -/
def Fact.quietIf (n : Nat) (b : Bool) : Fact κ β where
  holds h := b = true → Fact.quietNode n h
  tick_keeps e h hq hb := (Fact.quietNode n).tick_keeps e h (hq hb)

theorem NodeObj.drop_running {nd : NodeObj} (h : nd.drop.1 = true) :
    nd.valid = true ∧ nd.refCount ≤ 1 ∧ nd.state = .active := by
  unfold drop at h
  split_ifs at h with hv
  exact ⟨hv, of_decide_eq_true h⟩

theorem NodeObj.drop_state (nd : NodeObj) : nd.drop.2.state = nd.state := by
  unfold drop
  split_ifs <;> rfl

theorem NodeObj.drop_client (nd : NodeObj) : nd.drop.2.client = nd.client := by
  unfold drop
  split_ifs <;> rfl

theorem nodeDestroy_quiet :
    Triple sweep [] (Fact.quietDestroy n) (nodeDestroy n : Prog κ β Unit) [] fun _ => ⊤ := by
  refine Triple.bind (Q := fun running => Fact.quietIf n running)
    (.locked List.not_mem_nil (.perform fun h hq hrun => ?_)) fun running => ?_
  · show (Function.update h.nodes n (h.nodes n).drop.2 n).state ≠ .stopped →
      Fact.quietClient (Function.update h.nodes n (h.nodes n).drop.2 n).client h
    rw [Function.update_self, NodeObj.drop_state, NodeObj.drop_client]
    obtain ⟨hv, hr, hs⟩ := NodeObj.drop_running hrun
    exact hq hv hr hs
  · refine .ite (fun hrun => ?_) fun _ => (clean_pure ()).triple
    have hstop : Triple sweep [] (Fact.quietIf n running) (nodeStop n : Prog κ β Unit) []
        fun _ => ⊤ :=
      nodeStop_quiet.weaken fun h hq => hq hrun
    exact hstop.bind fun _ => clean_nodeRead

end Clean

end Ssn
