import SsnIpc.Client.Requests
import SsnIpc.Frame.RoundTrip
import SsnIpc.Layers.NodeCalls

/-!
# The code with locks and the models of one client and one server

With callbacks that do nothing, the code that handles input does to a client and to a server what
their models say: pending requests that time out (`exec_clientCollectAndCallPending`), a frame for
the client (`exec_clientInput`), and a frame for the server (`exec_serverInput`). A request does to
the client what its model says, for the right outcome of the send (`client_requestWith`).

**Theorem (`answered_serverInput`).** Whatever callbacks do, a frame for the server is answered as
its type demands, and the handler it leads to is called once, without the lock.
-/

namespace Ssn

open ByteMem Locking Locking.Code

variable {κ β : Type} (h : Objects κ β)

namespace Objects

variable {h}

theorem modifyClient_eq_self {c : Nat} {f : ClientObj κ → ClientObj κ}
    (hf : f (h.clients c) = h.clients c) : h.modifyClient c f = h := by
  rw [modifyClient, hf, Function.update_eq_self]

theorem modifyClient_congr {c : Nat} {f g : ClientObj κ → ClientObj κ}
    (hf : f (h.clients c) = g (h.clients c)) : h.modifyClient c f = h.modifyClient c g := by
  rw [modifyClient, modifyClient, hf]

end Objects

/-! ## The client -/

theorem exec_forEach {ι : Type} {f : ι → Prog κ β Unit}
    (hf : ∀ i h, (f i).exec h = some ((), h)) (is : List ι) :
    (forEach f is).exec h = some ((), h) := by
  induction is with
  | nil => rfl
  | cons i is ih => rw [forEach, exec_bind, hf]; exact ih

theorem exec_clientCallFailed (p : Pending κ) :
    (clientCallFailed p : Prog κ β Unit).exec h = some ((), h) := by
  unfold clientCallFailed
  split <;> rfl

theorem exec_clientCollectAndCallPending (c : Nat) (onlyTimeout : Bool)
    (log : List (ClientEvent κ)) :
    (clientCollectAndCallPending c onlyTimeout).exec h =
      some ((), h.modifyClient c fun o => { o with
        core := ((ClientWorld.mk o.core log).collectAndCallPending onlyTimeout).client }) := by
  simp only [(ClientWorld.collectAndCallPending_spec onlyTimeout).2]
  rw [clientCollectAndCallPending, exec_bind, exec_locked, onClient, exec_perform, Option.bind_some,
    exec_forEach _ fun p h => exec_clientCallFailed h p]
  simp only [ClientObj.collect]

theorem exec_clientHandlePublish (c : Nat) (f : Frame) :
    (clientHandlePublish c f : Prog κ β Unit).exec h = some ((), h) := by
  rw [clientHandlePublish, exec_bind, exec_locked, gets, exec_perform, Option.bind_some]
  split
  · rfl
  · rw [exec_bind, readClient, gets, exec_perform, Option.bind_some]
    split <;> rfl

theorem exec_clientHandleMessage (c : Nat) :
    (clientHandleMessage c : Prog κ β Unit).exec h = some ((), h) := by
  rw [clientHandleMessage, exec_bind, readClient, gets, exec_perform, Option.bind_some]
  split <;> rfl

theorem exec_clientGetPendingSnapshot (c : Nat) (seqno : UInt16) :
    (clientGetPendingSnapshot c seqno : Prog κ β _).exec h =
      some ((h.clients c).core.getPendingSnapshot seqno, h) := by
  rw [clientGetPendingSnapshot, exec_bind, readClient, gets, exec_perform, Option.bind_some,
    SsnClient.getPendingSnapshot]
  split_ifs <;> simp [gets, *]

theorem exec_clientCallReply (f : Frame) (p : Pending κ) :
    (clientCallReply f p : Prog κ β Unit).exec h = some ((), h) := by
  have hreply (ftype : FType) :
      (clientHandleReply ftype p : Prog κ β Unit).exec h = some ((), h) := by
    unfold clientHandleReply
    split
    · split_ifs <;> rfl
    · rfl
  unfold clientCallReply
  split_ifs
  · exact hreply .res
  · exact hreply .rpc
  · rfl

/-- What a reply does to the client in its model: the slot of its sequence number is freed. -/
theorem client_input_reply (w : ClientWorld κ) {f : Frame} (hf : ClientWorld.IsReply f) :
    (w.input f).client = (w.client.getPendingSnapshot (getSeqno f)).elim w.client
      fun p => w.client.freePendingIndex p.1 := by
  rw [ClientWorld.input_reply hf, ClientWorld.handlePendingReply]
  rcases hs : (w.emit (.input f)).client.getPendingSnapshot (getSeqno f) with _ | ⟨index, p⟩
  · rw [show w.client.getPendingSnapshot (getSeqno f) = _ from hs]
    rfl
  · rw [show w.client.getPendingSnapshot (getSeqno f) = _ from hs]
    obtain ⟨-, hclient⟩ := ClientWorld.dispatch_spec (w := w.emit (.input f)) f p
    simp only [ClientWorld.setClient, hclient]
    rfl

theorem exec_clientDispatch (c : Nat) (f : Frame) (log : List (ClientEvent κ)) :
    (clientDispatch c f : Prog κ β Unit).exec h =
      some ((), h.modifyClient c fun o => { o with
        core := ((ClientWorld.mk o.core log).input f).client }) := by
  by_cases hf : ClientWorld.IsReply f
  · rw [clientDispatch, if_neg hf.1, if_neg hf.2, clientHandlePendingReply, exec_bind,
      exec_clientGetPendingSnapshot, Option.bind_some]
    have hcore := client_input_reply (ClientWorld.mk (h.clients c).core log) hf
    rcases hs : (h.clients c).core.getPendingSnapshot (getSeqno f) with _ | ⟨index, p⟩
    · simp only [hs] at hcore
      rw [Objects.modifyClient_eq_self]
      · rfl
      · rw [hcore]
        rfl
    · simp only [hs] at hcore
      show ((clientCallReply f p >>= fun _ => _ : Prog κ β Unit)).exec h = _
      rw [exec_bind, exec_clientCallReply, Option.bind_some, exec_locked, modifyCore, onClient,
        exec_perform]
      refine congrArg (fun h => some ((), h)) (Objects.modifyClient_congr ?_)
      rw [hcore]
      rfl
  · have hsame : (clientDispatch c f : Prog κ β Unit).exec h = some ((), h) := by
      rw [clientDispatch]
      split_ifs with hpub hmsg
      · exact exec_clientHandlePublish h c f
      · exact exec_clientHandleMessage h c
      · exact absurd ⟨hpub, hmsg⟩ hf
    rw [hsame, Objects.modifyClient_eq_self]
    rw [ClientWorld.input_not_reply hf]

theorem exec_clientInput (c : Nat) (f : Frame) (log : List (ClientEvent κ)) :
    (clientInput c f : Prog κ β Bool).exec h =
      some ((h.clients c).valid, h.modifyClient c fun o => { o with
        core := ((ClientWorld.mk o.core log).input f).client }) := by
  rw [clientInput, exec_bind, exec_clientDispatch h c f log, Option.bind_some, exec_bind,
    readClient, gets, exec_perform, Option.bind_some, exec_pure, Objects.clients_modifyClient,
    if_pos rfl]

section Request

variable {net : Nat → Nat → SendStep} {w w' : ClientWorld κ}

theorem client_send {msg : Message} {ok : Bool} (hsend : w.send net msg = (w', ok)) :
    ∃ sendbuf, w'.client = { bif ok then w.client else w.client.hangUp with sendbuf } := by
  unfold ClientWorld.send ClientWorld.sendmsg at hsend
  rcases hout : (w.createHeader msg).sendOut net msg with ⟨sendbuf, out⟩
  simp only [hout] at hsend
  obtain ⟨rfl, rfl⟩ := Prod.mk.inj hsend
  refine ⟨sendbuf, ?_⟩
  cases out.ret with
  | true => rfl
  | false => rfl

/-- `SsnClient.request` has the outcome of the send as a parameter, and leaves the bytes in the send
buffer alone. Otherwise it is what the model of a request does to the client. -/
theorem client_requestWith (ftype : FType) (msgType : UInt8) (url data : Option Ref)
    (callback : Option κ) (timeoutMs : Nat) :
    let out := w.requestWith net ftype msgType url data callback timeoutMs
    ∃ sent sendbuf, out.2 = (w.client.request ftype callback timeoutMs sent).1 ∧
      out.1.client = { (w.client.request ftype callback timeoutMs sent).2 with sendbuf } := by
  cases callback with
  | none =>
    simp only [ClientWorld.requestWith, ClientWorld.requestPlain, SsnClient.request]
    rcases w.client.prepareSeqno with ⟨seqno, c⟩
    rcases hsend : (w.setClient c).send net ⟨msgType, 0, seqno, url, data⟩ with ⟨w', ok⟩
    obtain ⟨sendbuf, hclient⟩ := client_send hsend
    refine ⟨ok, sendbuf, ?_⟩
    cases ok with
    | true => exact ⟨rfl, hclient⟩
    | false => exact ⟨rfl, hclient⟩
  | some k =>
    simp only [ClientWorld.requestWith, ClientWorld.requestPending, SsnClient.request]
    rcases w.client.allocPendingIndex with _ | ⟨index, c⟩
    · exact ⟨true, _, rfl, rfl⟩
    rcases hsend : (w.setClient (c.register index ftype k timeoutMs)).send net
      ⟨msgType, 0, c.seqno, url, data⟩ with ⟨w', ok⟩
    obtain ⟨sendbuf, hclient⟩ := client_send hsend
    refine ⟨ok, sendbuf, ?_⟩
    simp only [hsend]
    cases ok with
    | true => exact ⟨rfl, hclient⟩
    | false =>
      refine ⟨rfl, ?_⟩
      simp only [Bool.false_eq_true, if_false, ClientWorld.setClient, hclient]
      unfold SsnClient.freePendingIndex
      split_ifs <;> rfl

/-- What is done under the lock is `SsnClient.request`. -/
theorem exec_clientRequestLocked (c : Nat) (ftype : FType) (callback : Option κ) (timeoutMs : Nat)
    (sent : Bool) :
    (clientRequestLocked c ftype callback timeoutMs sent : Prog κ β _).exec h =
      some (((h.clients c).core.request ftype callback timeoutMs sent).1, h.modifyClient c fun o =>
        { o with core := (o.core.request ftype callback timeoutMs sent).2 }) := by
  cases callback with
  | some k => rfl
  | none =>
    rw [clientRequestLocked, exec_bind, clientPrepareSeqno, exec_locked, onClient, exec_perform,
      Option.bind_some, onClient, exec_perform]
    cases sent with
    | true => simp [Objects.modifyClient, SsnClient.request]
    | false => simp [Objects.modifyClient, SsnClient.request]

end Request

/-! ## The server -/

section Server

variable {net : Nat → Nat → SendStep} {s : Nat} {id : UInt32}

/-- The world of one server after a change. -/
def Objects.setWorld (h : Objects κ β) (s : Nat) (w : World β) : Objects κ β :=
  h.modifyServer s fun o => { o with world := w }

@[simp] theorem world_setWorld (w : World β) : ((h.setWorld s w).servers s).world = w := by
  simp [Objects.setWorld, Objects.modifyServer]

@[simp] theorem valid_setWorld (w : World β) :
    ((h.setWorld s w).servers s).valid = (h.servers s).valid := by
  simp [Objects.setWorld, Objects.modifyServer]

@[simp] theorem setWorld_setWorld (w w' : World β) :
    (h.setWorld s w).setWorld s w' = h.setWorld s w' := by
  simp [Objects.setWorld, Objects.modifyServer]

theorem setWorld_self : h.setWorld s (h.servers s).world = h := by
  simp [Objects.setWorld, Objects.modifyServer]

variable (user : Objects κ β → Objects κ β)

def callUser {γ : Type*} (call : Option γ) (h : Objects κ β) : Objects κ β :=
  if call.isSome then user h else h

@[simp] theorem execWith_modifyWorld (f : World β → World β) :
    (modifyWorld s f : Prog κ β Unit).execWith user h =
      some ((), h.setWorld s (f (h.servers s).world)) :=
  rfl

@[simp] theorem execWith_readServer :
    (readServer s : Prog κ β _).execWith user h = some (h.servers s, h) := rfl

theorem execWith_serverNoteConnected :
    (serverNoteConnected s id : Prog κ β Unit).execWith user h =
      some ((), let h' := h.setWorld s ((h.servers s).world.noteConnected id)
        if (h.servers s).world.server.hasOncli ∧
            ((h.servers s).world.server.cliFind id).any fun cli => !cli.onconn
        then user h' else h') := by
  rw [serverNoteConnected, World.noteConnected, execWith_bind, execWith_readServer,
    Option.bind_some]
  by_cases hon : (((h.servers s).world.server.cliFind id).any fun cli => !cli.onconn) = true
  · rw [if_pos hon, if_pos hon, execWith_bind, execWith_modifyWorld, Option.bind_some,
      serverCallOncli, World.callOncli, execWith_bind, execWith_readServer, Option.bind_some,
      world_setWorld]
    by_cases hset : (h.servers s).world.server.hasOncli = true
    · have hset' (g : Client → Client) :
          ((h.servers s).world.modifyCli id g).server.hasOncli = true := hset
      rw [if_pos (hset' _), if_pos (hset' _), if_pos ⟨hset, hon⟩]
      simp only [execWith_bind, execWith_modifyWorld, Option.bind_some, execWith_invoke,
        world_setWorld, setWorld_setWorld]
    · have hset' (g : Client → Client) :
          ¬ ((h.servers s).world.modifyCli id g).server.hasOncli = true := hset
      rw [if_neg (hset' _), if_neg (hset' _), if_neg fun hboth => hset hboth.1]
      rfl
  · rw [if_neg hon, if_neg hon, if_neg fun hboth => hon hboth.2, setWorld_self]
    rfl

theorem execWith_serverHandleServiceInfo {f : Frame}
    (hf : getMsgType f = MsgType.serviceInfo) :
    (serverHandleServiceInfo net s id f : Prog κ β Unit).execWith user h =
      some ((), callUser user ((h.servers s).world.callOf id f)
        (h.setWorld s ((h.servers s).world.handleServiceInfo net id f))) := by
  have hmsg : getMsgType f ≠ MsgType.message := by rw [hf]; decide
  rw [serverHandleServiceInfo]
  simp only [execWith_bind, execWith_modifyWorld, execWith_release, Option.bind_some,
    world_setWorld, setWorld_setWorld, execWith_serverNoteConnected]
  rw [← World.replyServiceInfo, World.hasOncli_replyServiceInfo, World.any_onconn,
    World.core_replyServiceInfo, ← World.any_onconn, ← World.handleServiceInfo,
    World.callOf, if_neg hmsg, if_pos hf]
  split_ifs
  · rfl
  · rfl

theorem execWith_serverHandleRpcRequest {f : Frame} (hf : getMsgType f = MsgType.rpcRequest) :
    (serverHandleRpcRequest net s id f : Prog κ β Unit).execWith user h =
      some ((), callUser user ((h.servers s).world.callOf id f)
        (h.setWorld s ((h.servers s).world.handleRpcRequest net id f))) := by
  have hmsg : getMsgType f ≠ MsgType.message := by rw [hf]; decide
  have hinfo : getMsgType f ≠ MsgType.serviceInfo := by rw [hf]; decide
  rw [serverHandleRpcRequest, World.handleRpcRequest, World.callOf, if_neg hmsg, if_neg hinfo]
  by_cases hurl : urlOk f.url = true
  · rw [if_pos hurl, if_pos hurl, if_pos ⟨hf, hurl⟩, execWith_bind, execWith_readServer,
      Option.bind_some]
    rcases ((h.servers s).world.server.router.handler f.url).join with _ | handler
    · rfl
    · rfl
  · rw [if_neg hurl, if_neg hurl, if_neg fun hboth => hurl hboth.2]
    rfl

theorem callOf_eq_none {w : World β} {f : Frame} (hmsg : getMsgType f ≠ MsgType.message)
    (hinfo : getMsgType f ≠ MsgType.serviceInfo) (hrpc : getMsgType f ≠ MsgType.rpcRequest) :
    w.callOf id f = none := by
  rw [World.callOf, if_neg hmsg, if_neg hinfo, if_neg fun hboth => hrpc hboth.1]

theorem execWith_serverSwitch (memory : Bool) {f : Frame} (hmsg : getMsgType f ≠ MsgType.message) :
    (serverSwitch net memory s id f : Prog κ β Unit).execWith user h =
      some ((), callUser user ((h.servers s).world.callOf id f)
        (h.setWorld s ((h.servers s).world.dispatchWith net memory id f))) := by
  rw [serverSwitch, World.dispatchWith, if_neg hmsg]
  split_ifs with hinfo hrpc
  · exact execWith_serverHandleServiceInfo h user hinfo
  · exact execWith_serverHandleRpcRequest h user hrpc
  all_goals rw [callOf_eq_none hmsg hinfo hrpc]
  · rfl
  · rfl
  · rfl
  · rw [setWorld_self]
    rfl

theorem execWith_serverDispatch (memory : Bool) (f : Frame) :
    (serverDispatch net memory s id f : Prog κ β Unit).execWith user h =
      some ((), callUser user ((h.servers s).world.callOf id f)
        (h.setWorld s ((h.servers s).world.dispatchWith net memory id f))) := by
  rw [serverDispatch]
  split_ifs with hmsg
  · rw [World.dispatchWith, World.callOf, if_pos hmsg, if_pos hmsg, execWith_bind,
      execWith_readServer, Option.bind_some]
    split_ifs
    · rfl
    · rw [setWorld_self]
      rfl
  · rw [execWith_bind, execWith_acquire, Option.bind_some, execWith_serverSwitch h user memory hmsg]

theorem World.modifyCli_modifyCli (w : World β) {f g : Client → Client}
    (hf : ∀ c, (f c).id = c.id) :
    (w.modifyCli id f).modifyCli id g = w.modifyCli id (g ∘ f) := by
  simp only [World.modifyCli, Server.modifyCli, Buckets.modify_modify hf]

theorem execWith_serverTouch :
    (serverTouch s id : Prog κ β Unit).execWith user h =
      some ((), h.setWorld s ((h.servers s).world.touch id)) := by
  rw [serverTouch, execWith_bind, execWith_modifyWorld, Option.bind_some, execWith_bind,
    execWith_readServer, Option.bind_some, world_setWorld, World.touch]
  have hkeep (w : World β) (f : Client → Client) :
      (w.modifyCli id f).server.keepaliveTimeout = w.server.keepaliveTimeout := rfl
  rw [hkeep]
  split_ifs with hk
  · rw [execWith_locked, execWith_modifyWorld, world_setWorld, setWorld_setWorld, hkeep,
      World.modifyCli_modifyCli]
    · congr 4
      funext cli
      by_cases hc : cli.hstAlive = 0
      · simp [hc]
      · simp [hc, hk]
    · exact fun _ => rfl
  · simp only [hk, false_and, if_false]
    rfl

/-- **A frame does to the server what its model says, and then calls the user if the model says
so.** -/
theorem execWith_serverInputWith (memory : Bool) (f : Frame) :
    (serverInputWith net memory s id f : Prog κ β Bool).execWith user h =
      let h' := callUser user ((h.servers s).world.callOf id f)
        (h.setWorld s ((h.servers s).world.inputWith net memory id f))
      some ((h'.servers s).valid, h') := by
  rw [serverInputWith]
  simp only [execWith_bind, execWith_modifyWorld, execWith_serverTouch,
    execWith_serverDispatch, execWith_readServer, Option.bind_some, execWith_pure,
    world_setWorld, setWorld_setWorld]
  rw [World.callOf_touch]
  rfl

theorem exec_serverInput (f : Frame) :
    (serverInput net s id f : Prog κ β Bool).exec h =
      some ((h.servers s).valid, h.setWorld s ((h.servers s).world.input net id f)) := by
  rw [exec_eq_execWith, serverInput, execWith_serverInputWith]
  dsimp only
  rw [callUser, ite_self, valid_setWorld]
  rfl

/-- The server handles a frame as it should. -/
structure Answered (net : Nat → Nat → SendStep) (s : Nat) (id : UInt32)
    (user : Objects κ β → Objects κ β) (h : Objects κ β) (memory : Bool) (f : Frame) : Prop where
  /-- The function takes and releases `server->lock` in turn, calls callbacks without it, and
  returns without it. -/
  unlocked : Clean Objects.sweep [] (serverInputWith net memory s id f : Prog κ β Bool) []
  /-- The frame is logged, the reply to it is sent, if there is one, and the handler it leads to is
  called once, if there is one. Nothing else is sent and nobody else is called. -/
  runs : ∃ (w : World β) (out : SendOut),
    w.log = (h.servers s).world.log ++ .input id f ::
      ((((h.servers s).world.replyOf memory id f).map fun msg => .sent id msg out).toList ++
        ((h.servers s).world.callOf id f).toList) ∧
    (serverInputWith net memory s id f : Prog κ β Bool).execWith user h =
      let h' := callUser user ((h.servers s).world.callOf id f) (h.setWorld s w)
      some ((h'.servers s).valid, h')

/-- **Every frame of a client is answered as its type demands**, whatever the callbacks do. -/
theorem answered_serverInput (net : Nat → Nat → SendStep) (s : Nat) (id : UInt32)
    (user : Objects κ β → Objects κ β) (h : Objects κ β) (memory : Bool) (f : Frame) {cli : Client}
    (hcli : (h.servers s).world.server.cliFind id = some cli) :
    Answered net s id user h memory f where
  unlocked := clean_serverInputWith memory f
  runs := by
    obtain ⟨out, hlog⟩ := World.log_inputWith net memory f hcli
    exact ⟨_, out, hlog, execWith_serverInputWith h user memory f⟩

def oneConnection : Objects Unit Unit :=
  Objects.empty.setWorld 0 ((World.init (.create 0)).addClient 0 1 5)

/-- The only client of a server subscribes, and there is no memory. -/
theorem answered_oneConnection :
    (oneConnection.servers 0).world.server.cliFind 0 =
        some (World.cliInit (.create 0 : Server Unit) 0 5) ∧
      Answered acceptAll 0 0 (fun h => h) oneConnection false (bareFrame MsgType.subscribe 1) :=
  ⟨rfl, answered_serverInput acceptAll 0 0 (fun h => h) oneConnection false _ rfl⟩

end Server

end Ssn
