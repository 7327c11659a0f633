import SsnIpc.Layers.ClientCalls

/-!
# What the functions of the client do to locks

All functions come back with the locks they were called with. Those that may call the user have to
be called without locks, the others may be called with any lock but the client's own. The difference
shows in `ssn_client_unref`: if it drops the last reference to a closed client, it calls the user
for every pending request (`clean_clientUnref`); on a client that is not closed it does not
(`clientUnref_valid`), and most functions drop their reference on such a client.

To close a client may call the user, unless it has no pending request or someone else holds a
reference to it (`clientClose_quiet`).
-/

namespace Ssn

open ByteMem Locking Locking.Code
open Objects (sweep)

variable {κ β α : Type} {held : List Mutex} {c : Nat} {x : Prog κ β α}

theorem clean_forEach {ι : Type} {f : ι → Prog κ β Unit} (h : ∀ i, Clean sweep [] (f i) [])
    (is : List ι) : Clean sweep [] (forEach f is) [] := by
  induction is with
  | nil => exact clean_pure ()
  | cons i is ih => exact (h i).bind fun _ => ih

theorem clean_clientRef (h : .client c ∉ held) :
    Clean sweep held (clientRef c : Prog κ β Unit) held :=
  clean_locked h _

theorem clean_clientCreate (h : .clientList ∉ held) :
    Clean sweep held (clientCreate : Prog κ β Nat) held :=
  (clean_perform _).bind fun c => (Triple.locked h (clean_pure ())).bind fun _ => clean_pure c

/-! ## Functions that may call the user -/

theorem clean_clientCallFailed (p : Pending κ) :
    Clean sweep [] (clientCallFailed p : Prog κ β Unit) [] := by
  unfold clientCallFailed
  split
  · exact .invoke
  · exact .invoke
  · exact clean_pure ()

theorem clean_clientCollectAndCallPending (onlyTimeout : Bool) :
    Clean sweep [] (clientCollectAndCallPending c onlyTimeout : Prog κ β Unit) [] :=
  (clean_locked List.not_mem_nil _).bind fun items => clean_forEach clean_clientCallFailed items

theorem clean_clientUnref : Clean sweep [] (clientUnref c : Prog κ β Unit) [] := by
  refine (clean_locked List.not_mem_nil _).bind fun shouldFree => ?_
  refine .ite (fun _ => ?_) fun _ => clean_pure ()
  exact (clean_perform _).bind fun _ => clean_clientCollectAndCallPending false

theorem clean_clientClose : Clean sweep [] (clientClose c : Prog κ β Unit) [] := by
  refine (clean_locked List.not_mem_nil _).bind fun wasValid => ?_
  refine .ite (fun _ => ?_) fun _ => clean_pure ()
  exact (Triple.locked List.not_mem_nil (clean_pure ())).bind fun _ => clean_clientUnref

theorem clean_withRef (hx : Clean sweep [] x []) : Clean sweep [] (withRef c x) [] :=
  (clean_clientRef List.not_mem_nil).bind fun _ => hx.bind fun a =>
    clean_clientUnref.bind fun _ => clean_pure a

theorem clean_clientConnect (fd : Option Nat) :
    Clean sweep [] (clientConnect c fd : Prog κ β Bool) [] := by
  refine (clean_perform _).bind fun o => .ite (fun _ => ?_) fun _ => clean_pure false
  refine clean_withRef ((clean_perform _).bind fun _ => ?_)
  refine (clean_locked List.not_mem_nil _).bind fun _ => ?_
  refine (clean_clientCollectAndCallPending false).bind fun _ => ?_
  cases fd with
  | none => exact clean_pure false
  | some fd => exact (clean_locked List.not_mem_nil _).bind fun _ => clean_pure true

theorem clean_clientDisconnect : Clean sweep [] (clientDisconnect c : Prog κ β Unit) [] := by
  refine (clean_perform _).bind fun connected => .ite (fun _ => ?_) fun _ => clean_pure ()
  refine clean_withRef ((clean_locked List.not_mem_nil _).bind fun _ => ?_)
  exact clean_clientCollectAndCallPending false

theorem clean_clientHandlePublish (f : Frame) :
    Clean sweep [] (clientHandlePublish c f : Prog κ β Unit) [] := by
  refine (clean_locked List.not_mem_nil _).bind fun callback => ?_
  cases callback with
  | some k => exact .invoke
  | none =>
    refine (clean_perform _).bind fun o => ?_
    split
    · exact clean_pure ()
    · exact .invoke

theorem clean_clientHandleMessage :
    Clean sweep [] (clientHandleMessage c : Prog κ β Unit) [] := by
  refine (clean_perform _).bind fun o => ?_
  split
  · exact .invoke
  · exact clean_pure ()

theorem clean_clientGetPendingSnapshot (seqno : UInt16) :
    Clean sweep [] (clientGetPendingSnapshot c seqno : Prog κ β _) [] := by
  refine (clean_perform _).bind fun o => .ite (fun _ => clean_pure none) fun _ => ?_
  exact clean_locked List.not_mem_nil _

theorem clean_clientHandleReply (ftype : FType) (p : Pending κ) :
    Clean sweep [] (clientHandleReply ftype p : Prog κ β Unit) [] := by
  unfold clientHandleReply
  split
  · exact .ite (fun _ => .invoke) fun _ => clean_pure ()
  · exact clean_pure ()

theorem clean_clientCallReply (f : Frame) (p : Pending κ) :
    Clean sweep [] (clientCallReply f p : Prog κ β Unit) [] := by
  refine .ite (fun _ => clean_clientHandleReply .res p) fun _ => ?_
  exact .ite (fun _ => clean_clientHandleReply .rpc p) fun _ => clean_pure ()

theorem clean_clientHandlePendingReply (f : Frame) :
    Clean sweep [] (clientHandlePendingReply c f : Prog κ β Unit) [] := by
  refine (clean_clientGetPendingSnapshot _).bind fun found => ?_
  split
  · exact clean_pure ()
  · exact (clean_clientCallReply f _).bind fun _ => clean_locked List.not_mem_nil _

theorem clean_clientInput (f : Frame) :
    Clean sweep [] (clientInput c f : Prog κ β Bool) [] := by
  have hdispatch : Clean sweep [] (clientDispatch c f : Prog κ β Unit) [] := by
    refine .ite (fun _ => clean_clientHandlePublish f) fun _ => ?_
    exact .ite (fun _ => clean_clientHandleMessage) fun _ => clean_clientHandlePendingReply f
  exact hdispatch.bind fun _ => (clean_perform _).bind fun _ => clean_pure _

theorem clean_clientFeed (ok : Bool) (fs : List Frame) :
    Clean sweep [] (clientFeed c ok fs : Prog κ β Bool) [] := by
  induction fs with
  | nil => exact clean_pure ok
  | cons f fs ih =>
    exact (clean_clientInput f).bind fun _ => .ite (fun _ => ih) fun _ => clean_pure true

theorem clean_clientFds : Clean sweep [] (clientFds c : Prog κ β Bool) [] := by
  refine (clean_perform _).bind fun o => .ite (fun _ => ?_) fun _ => clean_pure false
  refine .ite (fun _ => ?_) fun _ => clean_pure true
  exact (Triple.locked List.not_mem_nil (clean_pure ())).bind fun _ => clean_pure true

theorem clean_clientHandleEvent : Clean sweep [] (clientHandleEvent c : Prog κ β Bool) [] := by
  refine (clean_perform _).bind fun o => .ite (fun _ => ?_) fun _ => clean_pure true
  refine (clean_perform _).bind fun _ => ?_
  exact (clean_clientCollectAndCallPending true).bind fun _ => clean_pure true

theorem clean_clientConnectionLost :
    Clean sweep [] (clientConnectionLost c : Prog κ β Bool) [] :=
  (clean_perform _).bind fun _ =>
    (clean_clientCollectAndCallPending false).bind fun _ => clean_pure false

theorem clean_clientProcessEvents (sock : SocketInput) :
    Clean sweep [] (clientProcessEvents c sock : Prog κ β Bool) [] := by
  refine (clean_perform _).bind fun o => .ite (fun _ => ?_) fun _ => clean_pure false
  refine .ite (fun _ => ?_) fun _ => clean_clientHandleEvent
  refine (clean_locked List.not_mem_nil _).bind fun isOpen => ?_
  split
  · exact (clean_clientFeed _ _).bind fun _ =>
      .ite (fun _ => clean_clientHandleEvent) fun _ => clean_clientConnectionLost
  · exact clean_clientConnectionLost
  · exact clean_clientHandleEvent

theorem clean_clientPoll (input : ClientPollInput) :
    Clean sweep [] (clientPoll c input : Prog κ β Unit) [] := by
  refine (clean_perform _).bind fun o => .ite (fun _ => ?_) fun _ => clean_pure ()
  refine clean_withRef (clean_clientFds.bind fun _ => ?_)
  cases input with
  | idle => exact clean_pure ()
  | ready sock =>
    refine (clean_clientProcessEvents sock).bind fun ok => .ite (fun _ => clean_pure ()) fun _ => ?_
    exact (clean_perform _).bind fun _ => clean_locked List.not_mem_nil _

theorem clean_clientRunLoop (socks : List SocketInput) :
    Clean sweep [] (clientRunLoop c socks : Prog κ β Unit) [] := by
  induction socks with
  | nil => exact clean_clientFds.bind fun ok => .ite (fun _ => .wait) fun _ => clean_pure ()
  | cons sock socks ih =>
    refine clean_clientFds.bind fun ok => .ite (fun _ => ?_) fun _ => clean_pure ()
    exact (clean_clientProcessEvents sock).bind fun _ =>
      .ite (fun _ => ih) fun _ => clean_clientClose

theorem clean_clientRun (socks : List SocketInput) :
    Clean sweep [] (clientRun c socks : Prog κ β Unit) [] :=
  (clean_perform _).bind fun _ =>
    .ite (fun _ => clean_withRef (clean_clientRunLoop socks)) fun _ => clean_pure ()

/-! ## Functions that do not call the user

Apart from the reference they drop at their end. Nothing in them closes the client, so that was not
the last one. They may be called with other locks held. -/

def ClientFact.valid : ClientFact κ := ⟨fun o => o.valid = true, fun _ h => h⟩

/-- The client is not closed, if the flag is set. -/
def ClientFact.validIf (b : Bool) : ClientFact κ :=
  ⟨fun o => b = true → o.valid = true, fun _ h => h⟩

def ClientFact.validNot (b : Bool) : ClientFact κ :=
  ⟨fun o => b = false ∧ o.valid = true, fun _ h => h⟩

theorem clientUnref_valid (h : .client c ∉ held) :
    Triple sweep held (ClientFact.valid.at c) (clientUnref c : Prog κ β Unit) held
      fun _ => ClientFact.valid.at c := by
  refine Triple.bind (Q := fun b => (ClientFact.validNot b).at c)
    (.locked h (triple_onClient fun o ho => ?_)) fun shouldFree => ?_
  · unfold ClientObj.dropRef
    split_ifs
    · exact ⟨decide_eq_false fun hfree => by simp [show o.valid = true from ho] at hfree, ho⟩
    · exact ⟨rfl, ho⟩
  · refine .ite (fun hfree s hs => absurd hs.1 (by simp [hfree])) fun _ => ?_
    exact Triple.weaken (Triple.pure (Q := fun _ => ClientFact.valid.at c) ()) fun s hs => hs.2

theorem withRef_valid (h : .client c ∉ held)
    (hx : Triple sweep held (ClientFact.valid.at c) x held fun _ => ClientFact.valid.at c) :
    Triple sweep held (ClientFact.valid.at c) (withRef c x) held
      fun _ => ClientFact.valid.at c := by
  refine Triple.bind (Q := fun _ => ClientFact.valid.at c)
    (.locked h (triple_onClient fun _ ho => ho)) fun _ => hx.bind fun a => ?_
  exact (clientUnref_valid h).bind fun _ => .pure (Q := fun _ => ClientFact.valid.at c) a

theorem modifyCore_valid (f : SsnClient κ → SsnClient κ) :
    Triple sweep held (ClientFact.valid.at c) (modifyCore c f : Prog κ β Unit) held
      fun _ => ClientFact.valid.at c :=
  triple_onClient fun _ ho => ho

theorem readClient_valid :
    Triple sweep held ⊤ (readClient c : Prog κ β _) held
      fun o => (ClientFact.validIf o.valid).at c :=
  .perform fun _ _ hv => hv

theorem clientIsConnect_valid :
    Triple sweep held ⊤ (clientIsConnect c : Prog κ β _) held
      fun connected => (ClientFact.validIf connected).at c :=
  .perform fun _ _ hc => (Bool.and_eq_true_iff.1 hc).1

theorem clean_ifValid {b ok : Bool} {y : Prog κ β α} (hok : ok = true → b = true)
    (hx : Triple sweep held (ClientFact.valid.at c) x held fun _ => ClientFact.valid.at c)
    (hy : Clean sweep held y held) :
    Triple sweep held ((ClientFact.validIf b).at c) (if ok then x else y) held fun _ => ⊤ :=
  .ite (fun h => hx.forget.weaken fun _ hs => hs (hok h)) fun _ => hy.triple

theorem clean_clientSendTimeout (h : .client c ∉ held) (timeoutMs : Int) (fd : Option Nat) :
    Clean sweep held (clientSendTimeout c timeoutMs fd : Prog κ β Unit) held :=
  readClient_valid.bind fun _ => clean_ifValid id
    (withRef_valid h ((modifyCore_valid _).bind fun _ => .locked h (modifyCore_valid _)))
    (clean_pure ())

theorem clientRequestLocked_valid (h : .spin c ∉ held) (ftype : FType) (callback : Option κ)
    (timeoutMs : Nat) (sent : Bool) :
    Triple sweep held (ClientFact.valid.at c)
      (clientRequestLocked c ftype callback timeoutMs sent : Prog κ β _) held
      fun _ => ClientFact.valid.at c := by
  unfold clientRequestLocked
  cases callback with
  | some k => exact triple_onClient fun _ ho => ho
  | none =>
    have hseqno : Triple sweep held (ClientFact.valid.at c) (clientPrepareSeqno c : Prog κ β _)
        held fun _ => ClientFact.valid.at c :=
      .locked h (triple_onClient fun _ ho => ho)
    refine hseqno.bind fun seqno => triple_onClient fun o ho => ?_
    cases sent with
    | true => exact ho
    | false => exact ho

theorem clientRequestWith_valid (h : .client c ∉ held) (hspin : .spin c ∉ held) (ftype : FType)
    (callback : Option κ) (timeoutMs : Nat) (sent : Bool) :
    Triple sweep held (ClientFact.valid.at c)
      (clientRequestWith c ftype callback timeoutMs sent : Prog κ β _) held
      fun _ => ClientFact.valid.at c :=
  withRef_valid h (.locked h (clientRequestLocked_valid (by simpa using hspin) _ _ _ _))

theorem clean_clientRequestEx (h : .client c ∉ held) (hspin : .spin c ∉ held)
    (callback : Option κ) (timeoutMs : Nat) (sent : Bool) :
    Clean sweep held (clientRequestEx c callback timeoutMs sent : Prog κ β _) held :=
  clientIsConnect_valid.bind fun _ =>
    clean_ifValid id (clientRequestWith_valid h hspin _ _ _ _) (clean_pure none)

theorem clean_clientCall (h : .client c ∉ held) (hspin : .spin c ∉ held) (url : Bytes)
    (callback : Option κ) (timeoutMs : Nat) (sent : Bool) :
    Clean sweep held (clientCall c url callback timeoutMs sent : Prog κ β Bool) held := by
  refine clientIsConnect_valid.bind fun connected => ?_
  refine clean_ifValid (fun hok => (Bool.and_eq_true_iff.1 hok).1) ?_ (clean_pure false)
  exact (clientRequestWith_valid h hspin _ _ _ _).bind fun seqno =>
    .pure (Q := fun _ => ClientFact.valid.at c) seqno.isSome

theorem clean_modifyThenRequest (h : .client c ∉ held) (hspin : .spin c ∉ held)
    (f : SsnClient κ → SsnClient κ) (timeoutMs : Nat) (sent : Bool) :
    Clean sweep held (do
      locked (.client c) (modifyCore c f)
      let seqno ← clientRequestEx c none timeoutMs sent
      pure seqno.isSome : Prog κ β Bool) held :=
  (clean_locked h _).bind fun _ =>
    (clean_clientRequestEx h hspin none timeoutMs sent).bind fun seqno => clean_pure seqno.isSome

theorem clean_clientSubscribe (h : .client c ∉ held) (hspin : .spin c ∉ held) (url : Bytes)
    (callback : Option κ) (timeoutMs : Nat) (sent : Bool) :
    Clean sweep held (clientSubscribe c url callback timeoutMs sent : Prog κ β Bool) held :=
  (clean_perform _).bind fun _ =>
    .ite (fun _ => clean_modifyThenRequest h hspin _ timeoutMs sent) fun _ => clean_pure false

theorem clean_clientUnsubscribe (h : .client c ∉ held) (hspin : .spin c ∉ held) (url : Bytes)
    (timeoutMs : Nat) (sent : Bool) :
    Clean sweep held (clientUnsubscribe c url timeoutMs sent : Prog κ β Bool) held :=
  (clean_perform _).bind fun _ =>
    .ite (fun _ => clean_modifyThenRequest h hspin _ timeoutMs sent) fun _ => clean_pure false

theorem clean_clientMessage (h : .client c ∉ held) (url : Bytes) (data : Option Ref)
    (sent : Bool) :
    Clean sweep held (clientMessage c url data sent : Prog κ β Bool) held := by
  refine clientIsConnect_valid.bind fun connected => ?_
  refine clean_ifValid (fun hok => ?_) ?_ (clean_pure false)
  · rw [Bool.and_eq_true_iff, Bool.and_eq_true_iff] at hok
    exact hok.1.1
  · exact (withRef_valid h (.locked h (modifyCore_valid _))).bind fun _ =>
      .pure (Q := fun _ => ClientFact.valid.at c) sent

theorem clean_clientSetOnMessage (h : .client c ∉ held) (callback : Option κ) :
    Clean sweep held (clientSetOnMessage c callback : Prog κ β Unit) held :=
  readClient_valid.bind fun _ =>
    clean_ifValid id (withRef_valid h (modifyCore_valid _)) (clean_pure ())

theorem clean_clientSetOnPublish (h : .client c ∉ held) (callback : Option κ) :
    Clean sweep held (clientSetOnPublish c callback : Prog κ β Unit) held :=
  readClient_valid.bind fun _ =>
    clean_ifValid id (withRef_valid h (modifyCore_valid _)) (clean_pure ())

theorem clean_clientPing (k : κ) (timeoutMs : Nat) (sent : Bool) (polls : List ClientPollInput)
    (replied : Bool) :
    Clean sweep [] (clientPing c k timeoutMs sent polls replied : Prog κ β Bool) [] := by
  refine (clean_clientRequestEx List.not_mem_nil List.not_mem_nil _ _ _).bind fun seqno => ?_
  cases seqno with
  | none => exact clean_pure false
  | some seqno =>
    refine (clean_forEach clean_clientPoll _).bind fun _ => ?_
    refine .ite (fun _ => clean_pure true) fun _ => ?_
    exact (clean_locked List.not_mem_nil _).bind fun _ => clean_pure false

/-! ## Closing a client without pending requests -/

def SsnClient.Idle (c : SsnClient κ) : Prop := ∀ i < maxPending, c.inUse i = false

theorem SsnClient.Idle.collect {o : SsnClient κ} (h : o.Idle) (onlyTimeout : Bool) :
    o.collect onlyTimeout = (o, []) := by
  refine Runs.run_fixed fun i hi => if_neg fun huse => ?_
  rw [h i (List.mem_range.1 hi)] at huse
  exact absurd huse.1 (by decide)

theorem ClientObj.collect_idle {o : ClientObj κ} (h : o.core.Idle) (onlyTimeout : Bool) :
    (o.collect onlyTimeout).1 = [] := by
  rw [ClientObj.collect, h.collect]

def ClientFact.idleIf (b : Bool) : ClientFact κ :=
  ⟨fun o => b = true → o.core.Idle, fun _ h => h⟩

/-- No request would be reported if the flag were set and the last reference went. -/
def ClientFact.idleIfLast (b : Bool) : ClientFact κ :=
  ⟨fun o => b = true → o.refCount = 1 → o.core.Idle, fun _ h => h⟩

def ClientFact.none (items : List (Pending κ)) : ClientFact κ :=
  ⟨fun _ => items = [], fun _ h => h⟩

/-- To close the client reports no request: it is closed, or there is another reference to it, or
no request is pending. -/
def ClientFact.quiet : ClientFact κ :=
  ⟨fun o => o.valid = true → o.refCount = 1 → o.core.Idle, fun _ h => h⟩

/-- Closing such a client does not call the user, so it may be done with other locks held. -/
theorem clientClose_quiet (h : .client c ∉ held) (hl : .clientList ∉ held) :
    Triple sweep held (ClientFact.quiet.at c) (clientClose c : Prog κ β Unit) held fun _ => ⊤ := by
  refine Triple.bind (Q := fun b => (ClientFact.idleIfLast b).at c)
    (.locked h (triple_onClient fun _ ho => ho)) fun wasValid => ?_
  refine .ite (fun hv => ?_) fun _ => (clean_pure ()).triple
  refine Triple.bind (Q := fun _ => (ClientFact.idleIfLast wasValid).at c)
    (.locked hl (.pure (Q := fun _ => (ClientFact.idleIfLast wasValid).at c) ())) fun _ => ?_
  refine Triple.bind (Q := fun b => (ClientFact.idleIf b).at c)
    (.locked h (triple_onClient fun o ho => ?_)) fun shouldFree => ?_
  · unfold ClientObj.dropRef
    split_ifs with hpos
    · intro hfree
      exact ho hv (by have := (of_decide_eq_true hfree).1; omega)
    · exact fun hfree => absurd hfree Bool.false_ne_true
  · refine .ite (fun hfree => ?_) fun _ => (clean_pure ()).triple
    refine Triple.bind (Q := fun _ => (ClientFact.idleIf shouldFree).at c)
      (triple_onClient fun _ ho => ho) fun _ => ?_
    refine Triple.bind (Q := fun items => (ClientFact.none items).at c)
      (.locked h (triple_onClient fun o ho => ?_)) fun items => ?_
    · show (o.collect false).1 = []
      exact ClientObj.collect_idle (ho hfree) false
    · intro s hs
      obtain rfl : items = [] := hs
      exact clean_pure () s trivial

end Ssn
