import SsnIpc.Server.Table

/-!
# What the server does with a frame

The reply that `ssn_server_input` sends itself (`World.replyOf`), and the call of the application
that it makes (`World.callOf`), said by the type of the frame.

**Theorem (`log_inputWith`).** A frame of a client is logged, answered and passed on in this way,
and nothing else is seen of it.
-/

namespace Ssn

open ByteMem

variable {β : Type*} {net : Nat → Nat → SendStep} {w : World β} {memory : Bool} {id : UInt32}
  {f : Frame}

namespace World

def replyOf (w : World β) (memory : Bool) (id : UInt32) (f : Frame) : Option Message :=
  if getMsgType f = MsgType.serviceInfo then
    some (replyTo f 0 (some (Ref.ofBytes (toBe 4 id.toNat))))
  else if getMsgType f = MsgType.rpcRequest then
    if urlOk f.url then
      if (w.server.router.handler f.url).join.isSome then none
      else some (replyTo f ecodeNotFound none)
    else some (replyTo f ecodeInvalidArgs none)
  else if getMsgType f = MsgType.subscribe then
    some (replyTo f
      (if urlOk f.url then if w.isSubscribed id f.url ∨ memory then 0 else ecodeOutOfMemory
        else ecodeInvalidArgs)
      none)
  else if getMsgType f = MsgType.unsubscribe ∨ getMsgType f = MsgType.pingEcho then
    some (replyTo f 0 none)
  else none

/-- The handler that a frame leads to, if it is set. -/
def callOf (w : World β) (id : UInt32) (f : Frame) : Option (ServerEvent β) :=
  if getMsgType f = MsgType.message then
    if w.server.hasOnmsg then some (.onmsg id f) else none
  else if getMsgType f = MsgType.serviceInfo then
    if w.server.hasOncli ∧ (w.server.cliFind id).any fun cli => !cli.onconn then
      some (.oncli id true)
    else none
  else if getMsgType f = MsgType.rpcRequest ∧ urlOk f.url then
    (w.server.router.handler f.url).join.map fun handler => .onrpc id handler f
  else none

theorem dispatchWith_of_ne (hf : getMsgType f ≠ MsgType.subscribe) :
    w.dispatchWith net memory id f = w.dispatch net id f := by
  unfold dispatch dispatchWith
  simp only [if_neg hf]

theorem log_cliSendmsg (net : Nat → Nat → SendStep) {cli : Client}
    (h : w.server.cliFind id = some cli) (msg : Message) :
    ∃ out, (w.cliSendmsg net id msg).log = w.log ++ [.sent id msg out] :=
  ⟨_, (cliSendmsg_spec net w id msg h).1⟩

theorem log_replyServiceInfo (net : Nat → Nat → SendStep) (f : Frame) {cli : Client}
    (h : w.server.cliFind id = some cli) :
    ∃ out, (w.replyServiceInfo net id f).log =
      w.log ++ [.sent id (replyTo f 0 (some (Ref.ofBytes (toBe 4 id.toNat)))) out] := by
  unfold replyServiceInfo
  refine log_cliSendmsg (w := (w.createHeader _).modifyCli id _) net
    (?_ : _ = some (startIdle w.server.keepaliveTimeout cli)) _
  rw [cliFind_modifyCli (id_startIdle _), if_pos rfl]
  exact congrArg (Option.map _) h

theorem any_onconn : ((w.server.cliFind id).any fun cli => !cli.onconn) =
    (w.view Client.core id).any fun c => !c.onconn := by
  rw [view, Option.any_map]
  rfl

theorem isSubscribed_eq (url : Bytes) :
    w.isSubscribed id url = (w.view Client.core id).any fun c => decide (url ∈ c.subscribed) := by
  rw [isSubscribed, view, Option.any_map]
  rfl

theorem log_noteConnected : (w.noteConnected id).log = w.log ++
    (if w.server.hasOncli ∧ (w.server.cliFind id).any fun cli => !cli.onconn then
      [.oncli id true] else []) := by
  unfold noteConnected callOncli
  by_cases hon : ((w.server.cliFind id).any fun cli => !cli.onconn) = true
  · rw [if_pos hon]
    by_cases hset : w.server.hasOncli = true
    · rw [if_pos (show (w.modifyCli id _).server.hasOncli = true from hset), if_pos ⟨hset, hon⟩]
      rfl
    · rw [if_neg (show ¬ (w.modifyCli id _).server.hasOncli = true from hset),
        if_neg (fun h => hset h.1), List.append_nil]
      rfl
  · rw [if_neg hon, if_neg (fun h => hon h.2), List.append_nil]

/-- The log grows by a reply and by a call. -/
def Shows (w w' : World β) (reply : Option Message) (call : Option (ServerEvent β)) (id : UInt32) :
    Prop :=
  ∃ out, w'.log = w.log ++ (reply.map fun msg => .sent id msg out).toList ++ call.toList

theorem shows_send (net : Nat → Nat → SendStep) {cli : Client} (h : w.server.cliFind id = some cli)
    (msg : Message) : Shows w (w.send net id msg) (some msg) none id := by
  obtain ⟨out, hlog⟩ := log_cliSendmsg (w := w.createHeader msg) net h msg
  exact ⟨out, by simpa [send] using hlog⟩

theorem shows_serviceInfo {cli : Client} (h : w.server.cliFind id = some cli)
    (hf : getMsgType f = MsgType.serviceInfo) :
    Shows w (w.dispatch net id f) (w.replyOf memory id f) (w.callOf id f) id := by
  obtain ⟨out, hlog⟩ := log_replyServiceInfo net f h
  have hmsg : getMsgType f ≠ MsgType.message := by rw [hf]; decide
  have hreply : w.replyOf memory id f =
      some (replyTo f 0 (some (Ref.ofBytes (toBe 4 id.toNat)))) := if_pos hf
  refine ⟨out, ?_⟩
  rw [dispatch_serviceInfo hf, log_noteConnected, hlog, hasOncli_replyServiceInfo, any_onconn,
    core_replyServiceInfo, ← any_onconn, hreply, callOf, if_neg hmsg, if_pos hf]
  split_ifs <;> rfl

theorem shows_rpcRequest {cli : Client} (h : w.server.cliFind id = some cli)
    (hf : getMsgType f = MsgType.rpcRequest) :
    Shows w (w.dispatch net id f) (w.replyOf memory id f) (w.callOf id f) id := by
  have hmsg : getMsgType f ≠ MsgType.message := by rw [hf]; decide
  have hinfo : getMsgType f ≠ MsgType.serviceInfo := by rw [hf]; decide
  simp only [dispatch, dispatchWith, replyOf, callOf, if_neg hmsg, if_neg hinfo, if_pos hf,
    handleRpcRequest]
  by_cases hurl : urlOk f.url = true
  · simp only [if_pos hurl, if_pos (And.intro hf hurl)]
    cases (w.server.router.handler f.url).join with
    | none => exact shows_send net h _
    | some handler => exact ⟨.refused, by simp⟩
  · simp only [if_neg hurl, if_neg fun hboth : _ ∧ _ => hurl hboth.2]
    exact shows_send net h _

theorem shows_modifyCli {cli : Client} (h : w.server.cliFind id = some cli) {g : Client → Client}
    (hg : ∀ c, (g c).id = c.id) (msg : Message) :
    Shows w ((w.modifyCli id g).send net id msg) (some msg) none id := by
  have hfind : (w.modifyCli id g).server.cliFind id = some (g cli) := by
    rw [cliFind_modifyCli hg, if_pos rfl, h, Option.map_some]
  exact shows_send (w := w.modifyCli id g) net hfind msg

theorem shows_subscribe {cli : Client} (h : w.server.cliFind id = some cli)
    (hf : getMsgType f = MsgType.subscribe) :
    Shows w (w.handleSubscribeWith net memory id f) (w.replyOf memory id f) (w.callOf id f) id := by
  have hmsg : getMsgType f ≠ MsgType.message := by rw [hf]; decide
  have hinfo : getMsgType f ≠ MsgType.serviceInfo := by rw [hf]; decide
  have hrpc : getMsgType f ≠ MsgType.rpcRequest := by rw [hf]; decide
  rw [replyOf, callOf, if_neg hinfo, if_neg hrpc, if_pos hf, if_neg hmsg, if_neg hinfo,
    if_neg fun hboth : _ ∧ _ => hrpc hboth.1, handleSubscribeWith]
  split_ifs
  all_goals first
    | exact shows_send net h _
    | refine shows_modifyCli h (fun c => ?_) _
      split_ifs <;> rfl

theorem shows_other {cli : Client} (h : w.server.cliFind id = some cli)
    (hinfo : getMsgType f ≠ MsgType.serviceInfo) (hrpc : getMsgType f ≠ MsgType.rpcRequest)
    (hsub : getMsgType f ≠ MsgType.subscribe) :
    Shows w (w.dispatch net id f) (w.replyOf memory id f) (w.callOf id f) id := by
  simp only [dispatch, dispatchWith, replyOf, callOf, if_neg hinfo, if_neg hsub, hrpc, false_and,
    if_false]
  by_cases hmsg : getMsgType f = MsgType.message
  · have hnone : ¬ (getMsgType f = MsgType.unsubscribe ∨ getMsgType f = MsgType.pingEcho) := by
      rw [hmsg]; decide
    simp only [if_pos hmsg, if_neg hnone]
    split_ifs
    · exact ⟨.refused, by simp⟩
    · exact ⟨.refused, by simp⟩
  simp only [if_neg hmsg]
  by_cases hunsub : getMsgType f = MsgType.unsubscribe
  · simp only [if_pos hunsub, if_pos (Or.inl hunsub)]
    refine shows_modifyCli h ?_ _
    exact fun _ => rfl
  by_cases hping : getMsgType f = MsgType.pingEcho
  · simp only [if_neg hunsub, if_pos hping, if_pos (Or.inr hping)]
    exact shows_send net h _
  · simp only [if_neg hunsub, if_neg hping, if_neg (not_or.2 ⟨hunsub, hping⟩)]
    exact ⟨.refused, by simp⟩

theorem shows_dispatchWith (net : Nat → Nat → SendStep) (memory : Bool) (f : Frame) {cli : Client}
    (h : w.server.cliFind id = some cli) :
    Shows w (w.dispatchWith net memory id f) (w.replyOf memory id f) (w.callOf id f) id := by
  by_cases hsub : getMsgType f = MsgType.subscribe
  · rw [dispatchWith, if_neg (by rw [hsub]; decide), if_neg (by rw [hsub]; decide),
      if_neg (by rw [hsub]; decide), if_pos hsub]
    exact shows_subscribe h hsub
  rw [dispatchWith_of_ne hsub]
  by_cases hinfo : getMsgType f = MsgType.serviceInfo
  · exact shows_serviceInfo h hinfo
  by_cases hrpc : getMsgType f = MsgType.rpcRequest
  · exact shows_rpcRequest h hrpc
  exact shows_other h hinfo hrpc hsub

/-- The reset of the idle timer changes nothing that a reply or a call depends on. -/
theorem replyOf_touch : ((w.emit (.input id f)).touch id).replyOf memory id f =
    w.replyOf memory id f := by
  have hcore : ((w.emit (.input id f)).touch id).view Client.core = w.view Client.core := core_touch
  simp only [replyOf, isSubscribed_eq, hcore]
  rfl

theorem callOf_touch : ((w.emit (.input id f)).touch id).callOf id f = w.callOf id f := by
  have hcore : ((w.emit (.input id f)).touch id).view Client.core = w.view Client.core := core_touch
  simp only [callOf, any_onconn, hcore]
  rfl

/-- **What a frame leads to:** it is logged, answered and passed on, each at most once. -/
theorem log_inputWith (net : Nat → Nat → SendStep) (memory : Bool) (f : Frame) {cli : Client}
    (h : w.server.cliFind id = some cli) :
    ∃ out, (w.inputWith net memory id f).log =
      w.log ++ .input id f :: (((w.replyOf memory id f).map fun msg => .sent id msg out).toList ++
        (w.callOf id f).toList) := by
  have hsome : ((w.emit (.input id f)).touch id).view Client.core id = some cli.core := by
    rw [core_touch, view_emit, view, h, Option.map_some]
  obtain ⟨cli', hcli', -⟩ := Option.map_eq_some_iff.1 hsome
  obtain ⟨out, hlog⟩ := shows_dispatchWith net memory f hcli'
  refine ⟨out, ?_⟩
  rw [replyOf_touch, callOf_touch] at hlog
  rw [inputWith, hlog, touch, log_modifyCli, log_emit]
  simp

end World

end Ssn
