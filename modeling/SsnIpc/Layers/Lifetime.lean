import SsnIpc.Layers.NodeCalls

/-!
# What calls do to the lifetime of objects

A node goes through `STOPPED`, `ACTIVE` and `ERROR`, makes a server and clients on its way, and
closes them. `Life` is that part of memory: the node without the address of its peer, how many
clients and servers were made, and which of them are open.

Work on a client or a server leaves it alone, whatever comes over the wire (`keeps_clientPoll`,
`keeps_serverPoll` and the lemmas before them): only `ssn_client_close` and `ssn_server_destroy`
close, and only functions of the node write to the node.
-/

namespace Ssn

open ByteMem Locking Locking.Code

variable {κ β α : Type}

/-- A node, and the clients and servers that are there. -/
structure Life where
  state : NodeState
  valid : Bool
  refCount : Nat
  capabilities : UInt32
  server : Option Nat
  client : Option Nat
  newServer : Nat
  newClient : Nat
  serverOpen : Nat → Bool
  clientOpen : Nat → Bool

/-- The life of node `n` in memory. -/
def Objects.life (n : Nat) (h : Objects κ β) : Life where
  state := (h.nodes n).state
  valid := (h.nodes n).valid
  refCount := (h.nodes n).refCount
  capabilities := (h.nodes n).capabilities
  server := (h.nodes n).server
  client := (h.nodes n).client
  newServer := h.newServer
  newClient := h.newClient
  serverOpen := fun s => (h.servers s).valid
  clientOpen := fun c => (h.clients c).valid

theorem Objects.life_modifyClient {n c : Nat} {f : ClientObj κ → ClientObj κ} {h : Objects κ β}
    {b : Bool} (hf : (f (h.clients c)).valid = b) :
    (h.modifyClient c f).life n =
      { h.life n with clientOpen := Function.update (h.life n).clientOpen c b } := by
  have hopen : (fun c' => ((h.modifyClient c f).clients c').valid) =
      Function.update (fun c' => (h.clients c').valid) c b := by
    funext c'
    by_cases hc : c' = c
    · subst hc
      simp [modifyClient, hf]
    · simp [modifyClient, hc]
  rw [life, hopen]
  rfl

theorem Objects.life_modifyServer {n s : Nat} {f : ServerObj β → ServerObj β} {h : Objects κ β}
    {b : Bool} (hf : (f (h.servers s)).valid = b) :
    (h.modifyServer s f).life n =
      { h.life n with serverOpen := Function.update (h.life n).serverOpen s b } := by
  have hopen : (fun s' => ((h.modifyServer s f).servers s').valid) =
      Function.update (fun s' => (h.servers s').valid) s b := by
    funext s'
    by_cases hs : s' = s
    · subst hs
      simp [modifyServer, hf]
    · simp [modifyServer, hs]
  rw [life, hopen]
  rfl

/-! ## Clients -/

section Keeping

variable {n c s : Nat}

theorem keeps_onClient {f : ClientObj κ → α × ClientObj κ} (hf : ∀ o, (f o).2.valid = o.valid) :
    Keeps (Objects.life n) (onClient c f : Prog κ β α) := by
  refine keeps_perform fun h => ?_
  have hsame := Function.update_eq_self c (h.life n).clientOpen
  rw [Objects.life_modifyClient (hf (h.clients c))]
  exact congrArg (fun isOpen => { h.life n with clientOpen := isOpen }) hsame

theorem keeps_modifyCore (f : SsnClient κ → SsnClient κ) :
    Keeps (Objects.life n) (modifyCore c f : Prog κ β Unit) :=
  keeps_onClient fun _ => rfl

theorem keeps_forEach {ι : Type} {v : Objects κ β → Life} {f : ι → Prog κ β Unit}
    (hf : ∀ i, Keeps v (f i)) (is : List ι) : Keeps v (forEach f is) := by
  induction is with
  | nil => exact keeps_pure ()
  | cons i is ih => exact (hf i).bind fun _ => ih

theorem keeps_clientRef : Keeps (Objects.life n) (clientRef c : Prog κ β Unit) :=
  .locked _ (keeps_onClient fun _ => rfl)

theorem keeps_clientCollectAndCallPending (onlyTimeout : Bool) :
    Keeps (Objects.life n) (clientCollectAndCallPending c onlyTimeout : Prog κ β Unit) := by
  have hcollect (o : ClientObj κ) : (o.collect onlyTimeout).2.valid = o.valid := by
    simp only [ClientObj.collect]
  refine Keeps.bind (.locked _ (keeps_onClient hcollect)) fun items => ?_
  refine keeps_forEach (fun p => ?_) items
  unfold clientCallFailed
  split
  · exact keeps_invoke
  · exact keeps_invoke
  · exact keeps_pure ()

theorem keeps_clientUnref : Keeps (Objects.life n) (clientUnref c : Prog κ β Unit) := by
  refine Keeps.bind (.locked _ (keeps_onClient fun o => ?_)) fun _ => .ite ?_ (keeps_pure ())
  · unfold ClientObj.dropRef
    split_ifs
    · rfl
    · rfl
  · exact (keeps_modifyCore _).bind fun _ => keeps_clientCollectAndCallPending false

theorem keeps_withRef {x : Prog κ β α} (hx : Keeps (Objects.life n) x) :
    Keeps (Objects.life n) (withRef c x) :=
  keeps_clientRef.bind fun _ => hx.bind fun a => keeps_clientUnref.bind fun _ => keeps_pure a

theorem keeps_clientIsConnect : Keeps (Objects.life n) (clientIsConnect c : Prog κ β Bool) :=
  keeps_gets _

theorem keeps_clientConnect (fd : Option Nat) :
    Keeps (Objects.life n) (clientConnect c fd : Prog κ β Bool) := by
  refine Keeps.bind (keeps_gets _) fun o => .ite ?_ (keeps_pure false)
  refine keeps_withRef ((keeps_modifyCore _).bind fun _ => ?_)
  refine Keeps.bind (.locked _ (keeps_modifyCore _)) fun _ => ?_
  refine (keeps_clientCollectAndCallPending false).bind fun _ => ?_
  cases fd with
  | none => exact keeps_pure false
  | some fd => exact Keeps.bind (.locked _ (keeps_modifyCore _)) fun _ => keeps_pure true

theorem keeps_clientRequestLocked (ftype : FType) (callback : Option κ) (timeoutMs : Nat)
    (sent : Bool) :
    Keeps (Objects.life n) (clientRequestLocked c ftype callback timeoutMs sent : Prog κ β _) := by
  cases callback with
  | some k => exact keeps_onClient fun _ => rfl
  | none =>
    refine Keeps.bind (.locked _ (keeps_onClient fun _ => rfl)) fun seqno => ?_
    refine keeps_onClient fun o => ?_
    cases sent <;> rfl

theorem keeps_clientRequestWith (ftype : FType) (callback : Option κ) (timeoutMs : Nat)
    (sent : Bool) :
    Keeps (Objects.life n) (clientRequestWith c ftype callback timeoutMs sent : Prog κ β _) :=
  keeps_withRef (.locked _ (keeps_clientRequestLocked _ _ _ _))

theorem keeps_clientCall (url : Bytes) (callback : Option κ) (timeoutMs : Nat) (sent : Bool) :
    Keeps (Objects.life n) (clientCall c url callback timeoutMs sent : Prog κ β Bool) := by
  refine keeps_clientIsConnect.bind fun _ => .ite ?_ (keeps_pure false)
  exact (keeps_clientRequestWith _ _ _ _).bind fun _ => keeps_pure _

theorem keeps_clientSubscribe (url : Bytes) (callback : Option κ) (timeoutMs : Nat)
    (sent : Bool) :
    Keeps (Objects.life n) (clientSubscribe c url callback timeoutMs sent : Prog κ β Bool) := by
  refine keeps_clientIsConnect.bind fun _ => .ite ?_ (keeps_pure false)
  refine Keeps.bind (.locked _ (keeps_modifyCore _)) fun _ => ?_
  refine Keeps.bind ?_ fun _ => keeps_pure _
  exact keeps_clientIsConnect.bind fun _ => .ite (keeps_clientRequestWith _ _ _ _) (keeps_pure none)

theorem keeps_clientMessage (url : Bytes) (data : Option Ref) (sent : Bool) :
    Keeps (Objects.life n) (clientMessage c url data sent : Prog κ β Bool) := by
  refine keeps_clientIsConnect.bind fun _ => .ite ?_ (keeps_pure false)
  exact (keeps_withRef (.locked _ (keeps_modifyCore _))).bind fun _ => keeps_pure sent

/-! ### Input -/

theorem keeps_clientHandlePublish (f : Frame) :
    Keeps (Objects.life n) (clientHandlePublish c f : Prog κ β Unit) := by
  refine Keeps.bind (.locked _ (keeps_gets _)) fun callback => ?_
  cases callback with
  | some k => exact keeps_invoke
  | none =>
    refine Keeps.bind (keeps_gets _) fun o => ?_
    split
    · exact keeps_pure ()
    · exact keeps_invoke

theorem keeps_clientHandleMessage :
    Keeps (Objects.life n) (clientHandleMessage c : Prog κ β Unit) := by
  refine Keeps.bind (keeps_gets _) fun o => ?_
  split
  · exact keeps_invoke
  · exact keeps_pure ()

theorem keeps_clientHandleReply {v : Objects κ β → Life} (ftype : FType) (p : Pending κ) :
    Keeps v (clientHandleReply ftype p : Prog κ β Unit) := by
  unfold clientHandleReply
  split
  · exact .ite keeps_invoke (keeps_pure ())
  · exact keeps_pure ()

theorem keeps_clientHandlePendingReply (f : Frame) :
    Keeps (Objects.life n) (clientHandlePendingReply c f : Prog κ β Unit) := by
  have hfind : Keeps (Objects.life n)
      (clientGetPendingSnapshot c (getSeqno f) : Prog κ β _) :=
    Keeps.bind (keeps_gets _) fun o => .ite (keeps_pure none) (.locked _ (keeps_gets _))
  refine hfind.bind fun found => ?_
  split
  · exact keeps_pure ()
  · refine Keeps.bind ?_ fun _ => .locked _ (keeps_modifyCore _)
    exact .ite (keeps_clientHandleReply _ _) (.ite (keeps_clientHandleReply _ _) (keeps_pure ()))

theorem keeps_clientFeed (ok : Bool) (fs : List Frame) :
    Keeps (Objects.life n) (clientFeed c ok fs : Prog κ β Bool) := by
  have hinput (f : Frame) : Keeps (Objects.life n) (clientInput c f : Prog κ β Bool) := by
    refine Keeps.bind ?_ fun _ => Keeps.bind (keeps_gets _) fun _ => keeps_pure _
    exact .ite (keeps_clientHandlePublish f)
      (.ite keeps_clientHandleMessage (keeps_clientHandlePendingReply f))
  induction fs with
  | nil => exact keeps_pure ok
  | cons f fs ih => exact (hinput f).bind fun _ => .ite ih (keeps_pure true)

theorem keeps_clientHandleEvent :
    Keeps (Objects.life n) (clientHandleEvent c : Prog κ β Bool) := by
  refine Keeps.bind (keeps_gets _) fun o => .ite ?_ (keeps_pure true)
  refine (keeps_modifyCore _).bind fun _ => ?_
  exact (keeps_clientCollectAndCallPending true).bind fun _ => keeps_pure true

theorem keeps_clientConnectionLost :
    Keeps (Objects.life n) (clientConnectionLost c : Prog κ β Bool) :=
  (keeps_modifyCore _).bind fun _ =>
    (keeps_clientCollectAndCallPending false).bind fun _ => keeps_pure false

theorem keeps_clientProcessEvents (sock : SocketInput) :
    Keeps (Objects.life n) (clientProcessEvents c sock : Prog κ β Bool) := by
  refine Keeps.bind (keeps_gets _) fun o => .ite ?_ (keeps_pure false)
  refine .ite ?_ keeps_clientHandleEvent
  refine Keeps.bind (.locked _ (keeps_gets _)) fun isOpen => ?_
  split
  · exact (keeps_clientFeed _ _).bind fun _ =>
      .ite keeps_clientHandleEvent keeps_clientConnectionLost
  · exact keeps_clientConnectionLost
  · exact keeps_clientHandleEvent

theorem keeps_clientPoll (input : ClientPollInput) :
    Keeps (Objects.life n) (clientPoll c input : Prog κ β Unit) := by
  refine Keeps.bind (keeps_gets _) fun o => .ite ?_ (keeps_pure ())
  have hfds : Keeps (Objects.life n) (clientFds c : Prog κ β Bool) := by
    refine Keeps.bind (keeps_gets _) fun o => .ite ?_ (keeps_pure false)
    exact .ite (Keeps.bind (.locked _ (keeps_pure ())) fun _ => keeps_pure true) (keeps_pure true)
  refine keeps_withRef (hfds.bind fun _ => ?_)
  cases input with
  | idle => exact keeps_pure ()
  | ready sock =>
    refine (keeps_clientProcessEvents sock).bind fun ok => .ite (keeps_pure ()) ?_
    exact (keeps_modifyCore _).bind fun _ => .locked _ (keeps_modifyCore _)

/-! ## Servers -/

theorem keeps_onServer {f : ServerObj β → ServerObj β} (hf : ∀ o, (f o).valid = o.valid) :
    Keeps (Objects.life n) (onServer s f : Prog κ β Unit) := by
  refine keeps_perform fun h => ?_
  have hsame := Function.update_eq_self s (h.life n).serverOpen
  rw [Objects.life_modifyServer (hf (h.servers s))]
  exact congrArg (fun isOpen => { h.life n with serverOpen := isOpen }) hsame

theorem keeps_modifyWorld (f : World β → World β) :
    Keeps (Objects.life n) (modifyWorld s f : Prog κ β Unit) :=
  keeps_onServer fun _ => rfl

theorem keeps_serverUnref : Keeps (Objects.life n) (serverUnref s : Prog κ β Unit) := by
  have hdrop (o : ServerObj β) : o.dropRef.2.valid = o.valid := by
    unfold ServerObj.dropRef
    split_ifs
    · rfl
    · rfl
  refine Keeps.bind (.locked _ (keeps_perform fun h => ?_)) fun _ =>
    .ite (keeps_onServer fun _ => rfl) (keeps_pure ())
  have hkeep : Keeps (Objects.life n) (onServer s fun o => o.dropRef.2 : Prog κ β Unit) :=
    keeps_onServer hdrop
  exact (hkeep h).1

theorem keeps_serverCallOncli (id : UInt32) (connect : Bool) :
    Keeps (Objects.life n) (serverCallOncli s id connect : Prog κ β Unit) := by
  refine Keeps.bind (keeps_gets _) fun o => .ite ?_ (keeps_pure ())
  exact (keeps_modifyWorld _).bind fun _ => keeps_invoke

theorem keeps_serverAnswer (f : World β → World β) :
    Keeps (Objects.life n) (serverAnswer s f : Prog κ β Unit) :=
  (keeps_modifyWorld f).bind fun _ => keeps_release _

variable {net : Nat → Nat → SendStep}

theorem keeps_serverHandleServiceInfo (id : UInt32) (f : Frame) :
    Keeps (Objects.life n) (serverHandleServiceInfo net s id f : Prog κ β Unit) := by
  refine (keeps_modifyWorld _).bind fun _ => (keeps_release _).bind fun _ =>
    (keeps_modifyWorld _).bind fun _ => ?_
  refine Keeps.bind (keeps_gets _) fun o => .ite ?_ (keeps_pure ())
  exact (keeps_modifyWorld _).bind fun _ => keeps_serverCallOncli id true

theorem keeps_serverHandleRpcRequest (id : UInt32) (f : Frame) :
    Keeps (Objects.life n) (serverHandleRpcRequest net s id f : Prog κ β Unit) := by
  refine .ite (Keeps.bind (keeps_gets _) fun o => ?_) (keeps_serverAnswer _)
  split
  · exact (keeps_release _).bind fun _ => (keeps_modifyWorld _).bind fun _ => keeps_invoke
  · exact keeps_serverAnswer _

theorem keeps_serverInput (id : UInt32) (f : Frame) :
    Keeps (Objects.life n) (serverInput net s id f : Prog κ β Bool) := by
  have htouch : Keeps (Objects.life n) (serverTouch s id : Prog κ β Unit) := by
    refine (keeps_modifyWorld _).bind fun _ => Keeps.bind (keeps_gets _) fun o => ?_
    exact .ite (.locked _ (keeps_modifyWorld _)) (keeps_pure ())
  have hswitch : Keeps (Objects.life n) (serverSwitch net true s id f : Prog κ β Unit) := by
    refine .ite (keeps_serverHandleServiceInfo id f) (.ite (keeps_serverHandleRpcRequest id f) ?_)
    refine .ite (keeps_serverAnswer _) (.ite (keeps_serverAnswer _) ?_)
    exact .ite (keeps_serverAnswer _) (keeps_release _)
  have hdispatch : Keeps (Objects.life n) (serverDispatch net true s id f : Prog κ β Unit) := by
    refine .ite (Keeps.bind (keeps_gets _) fun o => .ite ?_ (keeps_pure ())) ?_
    · exact (keeps_modifyWorld _).bind fun _ => keeps_invoke
    · exact (keeps_acquire _).bind fun _ => hswitch
  refine (keeps_modifyWorld _).bind fun _ => htouch.bind fun _ => hdispatch.bind fun _ => ?_
  exact Keeps.bind (keeps_gets _) fun _ => keeps_pure _

theorem keeps_serverFeed (id : UInt32) (fs : List Frame) :
    Keeps (Objects.life n) (serverFeed net s id fs : Prog κ β Unit) := by
  induction fs with
  | nil => exact keeps_pure ()
  | cons f fs ih => exact (keeps_serverInput id f).bind fun _ => .ite ih (keeps_pure ())

theorem keeps_serverHandleClientInput (input : UInt32 × SocketInput) :
    Keeps (Objects.life n) (serverHandleClientInput net s input : Prog κ β Unit) := by
  refine Keeps.bind (keeps_gets _) fun o => ?_
  split
  · exact keeps_pure ()
  · refine .ite (keeps_pure ()) ?_
    split
    · exact keeps_pure ()
    · exact keeps_serverFeed _ _
    · refine Keeps.bind (.ite ?_ (keeps_pure ())) fun _ => .locked _ (keeps_modifyWorld _)
      exact (keeps_modifyWorld _).bind fun _ => keeps_serverCallOncli _ false

theorem keeps_serverInputFds (input : ServerPollInput) :
    Keeps (Objects.life n) (serverInputFds net s input : Prog κ β Unit) := by
  have haccept : Keeps (Objects.life n) (serverAccept s input.accepted : Prog κ β Unit) := by
    unfold serverAccept
    split
    · exact keeps_pure ()
    · exact Keeps.bind (.locked _ (keeps_gets _)) fun _ =>
        .ite (keeps_pure ()) (.locked _ (keeps_modifyWorld _))
  refine Keeps.bind (keeps_gets _) fun o => .ite ?_ (keeps_pure ())
  refine (keeps_forEach keeps_serverHandleClientInput _).bind fun _ => haccept.bind fun _ => ?_
  exact Keeps.bind (keeps_gets _) fun _ => .ite (.locked _ (keeps_modifyWorld _)) (keeps_pure ())

theorem keeps_serverPoll (input : Option ServerPollInput) :
    Keeps (Objects.life n) (serverPoll net s input : Prog κ β Unit) := by
  have hready : Keeps (Objects.life n) (serverReady net s input : Prog κ β Unit) := by
    cases input with
    | none => exact keeps_pure ()
    | some input => exact keeps_serverInputFds input
  have hfds : Keeps (Objects.life n) (serverFds s : Prog κ β Bool) := by
    refine Keeps.bind (keeps_gets _) fun o => .ite ?_ (keeps_pure false)
    exact Keeps.bind (.locked _ (keeps_pure ())) fun _ => keeps_pure true
  refine Keeps.bind (.locked _ (keeps_onServer fun _ => rfl)) fun _ => hfds.bind fun _ => ?_
  exact hready.bind fun _ => keeps_serverUnref

end Keeping

end Ssn
