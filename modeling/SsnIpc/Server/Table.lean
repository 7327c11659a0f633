import SsnIpc.Frame.Refinement
import SsnIpc.Server.Input

/-!
# The client table through the steps of the server

Each primitive of the server (a log entry, a write to a client, a send, a handler call, a
removal) is described once by what it does to lookups and to the log. `view g` reads one field of
a client; sends and log entries leave every field but the transport alone.

**Theorem (`tableOk_step`).** Every step keeps the table well formed: clients hang in the bucket
of their id, ids are distinct, and every stream parser stands between two turns.

A client's input is then a sequence of frames handed to `serverInput` one by one
(`handleClientInput_data`).
-/

namespace Ssn

open ByteMem

variable {β : Type*} {net : Nat → Nat → SendStep} {w : World β} {id id' : UInt32}

/-! ## Lookups -/

namespace Server

variable {s : Server β}

theorem cliFind_id {cli : Client} (h : s.cliFind id = some cli) : cli.id = id :=
  Buckets.find_key h

theorem cliFind_modifyCli {f : Client → Client} (hf : ∀ c, (f c).id = c.id) :
    (s.modifyCli id f).cliFind id' =
      if id' = id then (s.cliFind id').map f else s.cliFind id' :=
  Buckets.find_modify hf id id'

end Server

namespace World

@[simp] theorem log_emit (e : ServerEvent β) : (w.emit e).log = w.log ++ [e] := rfl

@[simp] theorem log_modifyCli (f : Client → Client) : (w.modifyCli id f).log = w.log := rfl

@[simp] theorem log_createHeader (msg : Message) : (w.createHeader msg).log = w.log := rfl

theorem cliFind_modifyCli {f : Client → Client} (hf : ∀ c, (f c).id = c.id) :
    (w.modifyCli id f).server.cliFind id' =
      if id' = id then (w.server.cliFind id').map f else w.server.cliFind id' :=
  Server.cliFind_modifyCli hf

theorem cliFind_cliDestroy : (w.cliDestroy id).server.cliFind id' =
    if id' = id then none else w.server.cliFind id' :=
  Buckets.find_erase id id'

theorem id_afterSend (out : SendOut) (cli : Client) : (afterSend out cli).id = cli.id := by
  unfold afterSend
  split_ifs <;> rfl

/-- A send writes one entry and touches nothing of the client but its connection. -/
theorem cliSendmsg_spec (net : Nat → Nat → SendStep) (w : World β) (id : UInt32) (msg : Message)
    {cli : Client} (h : w.server.cliFind id = some cli) :
    let sent := sendMessage cli.transport w.server.sendbuf msg.url msg.data (net w.log.length)
    (w.cliSendmsg net id msg).log = w.log ++ [.sent id msg sent.2] ∧
      (w.cliSendmsg net id msg).server.sendbuf = sent.1 ∧
      (w.cliSendmsg net id msg).server.clis = (w.server.modifyCli id (afterSend sent.2)).clis := by
  simp only [cliSendmsg, h]
  exact ⟨rfl, rfl, rfl⟩

theorem cliSendmsg_none (net : Nat → Nat → SendStep) {id : UInt32} (msg : Message)
    (h : w.server.cliFind id = none) : w.cliSendmsg net id msg = w := by
  simp only [cliSendmsg, h]

/-! ## Views -/

section View

variable {γ : Type*} (g : Client → γ)

/-- A field of the client `id`, if there is one. -/
def view (w : World β) (id : UInt32) : Option γ := (w.server.cliFind id).map g

@[simp] theorem view_emit (e : ServerEvent β) : (w.emit e).view g = w.view g := rfl

@[simp] theorem view_createHeader (msg : Message) : (w.createHeader msg).view g = w.view g := rfl

@[simp] theorem view_callOncli (connect : Bool) : (w.callOncli id connect).view g = w.view g := by
  unfold callOncli
  split_ifs <;> rfl

theorem view_modifyCli {f : Client → Client} (hf : ∀ c, (f c).id = c.id) :
    (w.modifyCli id f).view g =
      Function.update (w.view g) id ((w.server.cliFind id).map fun c => g (f c)) := by
  funext id'
  unfold view
  rw [cliFind_modifyCli hf]
  by_cases h : id' = id
  · subst h
    rw [if_pos rfl, Function.update_self, Option.map_map]
    rfl
  · rw [if_neg h, Function.update_of_ne h]

theorem view_modifyCli_same {f : Client → Client} (hf : ∀ c, (f c).id = c.id)
    (hg : ∀ c, g (f c) = g c) : (w.modifyCli id f).view g = w.view g := by
  rw [view_modifyCli g hf]
  simp only [hg]
  exact Function.update_eq_self ..

theorem view_modifyCli_map (h : Client → Client) (k : γ → γ) (hid : ∀ c, (h c).id = c.id)
    (hk : ∀ c, g (h c) = k (g c)) :
    (w.modifyCli id h).view g = Function.update (w.view g) id ((w.view g id).map k) := by
  rw [view_modifyCli _ hid, view, Option.map_map]
  simp only [hk]
  rfl

theorem view_cliSendmsg (hg : ∀ c t, g { c with transport := t } = g c) (msg : Message) :
    (w.cliSendmsg net id msg).view g = w.view g := by
  cases h : w.server.cliFind id with
  | none => rw [cliSendmsg_none net msg h]
  | some cli =>
    simp only [cliSendmsg, h, view_emit]
    refine (view_modifyCli_same g (id_afterSend _) fun c => ?_).trans rfl
    unfold afterSend
    split_ifs
    · rfl
    · exact hg c _

theorem view_send (hg : ∀ c t, g { c with transport := t } = g c) (msg : Message) :
    (w.send net id msg).view g = w.view g := by
  rw [send, view_cliSendmsg g hg, view_createHeader]

theorem mem_update_none {γ : Type*} {v : UInt32 → Option γ} {id' : UInt32} {x : γ}
    (h : x ∈ Function.update v id none id') : x ∈ v id' := by
  by_cases e : id' = id
  · subst e
    rw [Function.update_self] at h
    cases h
  · rwa [Function.update_of_ne e] at h

theorem view_cliDestroy : (w.cliDestroy id).view g = Function.update (w.view g) id none := by
  funext id'
  unfold view
  rw [cliFind_cliDestroy]
  by_cases h : id' = id
  · subst h
    rw [if_pos rfl, Function.update_self]
    rfl
  · rw [if_neg h, Function.update_of_ne h]

end View

/-! ## Growth of the log -/

/-- The log grows by entries of a kind. -/
def Grows (K : ServerEvent β → Prop) (w w' : World β) : Prop :=
  ∃ es, w'.log = w.log ++ es ∧ ∀ e ∈ es, K e

variable {K K' : ServerEvent β → Prop} {w₁ w₂ w₃ : World β}

theorem Grows.of_eq (h : w₂.log = w₁.log) : Grows K w₁ w₂ := ⟨[], by simp [h], by simp⟩

theorem Grows.trans (h₁ : Grows K w₁ w₂) (h₂ : Grows K w₂ w₃) : Grows K w₁ w₃ := by
  obtain ⟨es, he, hk⟩ := h₁
  obtain ⟨fs, hf, hk'⟩ := h₂
  refine ⟨es ++ fs, by rw [hf, he, List.append_assoc], fun e hmem => ?_⟩
  exact (List.mem_append.1 hmem).elim (hk e) (hk' e)

theorem Grows.mono (h : Grows K w₁ w₂) (hK : ∀ e, K e → K' e) : Grows K' w₁ w₂ := by
  obtain ⟨es, he, hk⟩ := h
  exact ⟨es, he, fun e hmem => hK e (hk e hmem)⟩

theorem Grows.emit {e : ServerEvent β} (h : Grows K w₁ w₂) (he : K e) : Grows K w₁ (w₂.emit e) :=
  h.trans ⟨[e], rfl, by simpa using he⟩

theorem grows_cliSendmsg (hK : ∀ id msg out, K (.sent id msg out)) (msg : Message) :
    Grows K w (w.cliSendmsg net id msg) := by
  cases h : w.server.cliFind id with
  | none => exact .of_eq (by rw [cliSendmsg_none net msg h])
  | some cli => exact ⟨_, (cliSendmsg_spec net w id msg h).1, by simpa using hK _ _ _⟩

theorem grows_send (hK : ∀ id msg out, K (.sent id msg out)) (msg : Message) :
    Grows K w (w.send net id msg) :=
  (Grows.of_eq (log_createHeader msg)).trans (grows_cliSendmsg hK msg)

/-! ## The table stays well formed -/

end World

/-- The ids in the buckets, and the counter for new ones. -/
structure IdTable where
  ids : Nat → List UInt32
  ncid : UInt32

namespace World

/-- The table of a server without anything else of its clients. -/
def idTable (w : World β) : IdTable := ⟨Buckets.keys Client.id w.server.clis, w.server.ncid⟩

/-- Clients hang in the bucket of their id, and ids are distinct. -/
def Wf (w : World β) : Prop := Buckets.Wf Client.id cliHash w.server.clis

theorem Wf.of_idTable {w' : World β} (h : w.Wf) (e : w'.idTable = w.idTable) : w'.Wf := by
  rw [Wf, ← Buckets.wf_keys] at h ⊢
  rwa [show Buckets.keys Client.id w'.server.clis = Buckets.keys Client.id w.server.clis from
    congrArg IdTable.ids e]

theorem idTable_modifyCli {f : Client → Client} (hf : ∀ c, (f c).id = c.id) :
    (w.modifyCli id f).idTable = w.idTable :=
  congrArg (fun ids => (⟨ids, w.server.ncid⟩ : IdTable)) (Buckets.keys_modify hf id)

theorem idTable_cliSendmsg (msg : Message) : (w.cliSendmsg net id msg).idTable = w.idTable := by
  unfold cliSendmsg
  split
  · rfl
  · exact idTable_modifyCli (id_afterSend _)

theorem idTable_send (msg : Message) : (w.send net id msg).idTable = w.idTable :=
  idTable_cliSendmsg (w := w.createHeader msg) msg

theorem idTable_callOncli (connect : Bool) : (w.callOncli id connect).idTable = w.idTable := by
  unfold callOncli
  split_ifs <;> rfl

theorem Wf.cliDestroy (h : w.Wf) : (w.cliDestroy id).Wf :=
  Buckets.Wf.erase h

theorem Wf.mem_clients (h : w.Wf) {c : Client} :
    c ∈ w.server.clients ↔ w.server.cliFind c.id = some c := by
  rw [Server.clients, Server.cliFind, h.find_eq_some cliHash_lt]
  exact ⟨fun hc => ⟨hc, rfl⟩, fun hc => hc.1⟩

theorem Wf.nodup_clients (h : w.Wf) : (w.server.clients.map Client.id).Nodup :=
  h.nodup_toList

/-! ## A frame -/

/-- The fields of a client that a frame can change for good, and its stream parser. -/
structure Core where
  onconn : Bool
  subscribed : List Bytes
  recv : StreamCtx

end World

/-- The lasting part of a client. -/
def Client.core (c : Client) : World.Core := ⟨c.onconn, c.subscribed, c.recv⟩

namespace World

/-- What a frame does to it. -/
def Core.after (f : Frame) (c : Core) : Core :=
  if getMsgType f = MsgType.serviceInfo then { c with onconn := true }
  else if getMsgType f = MsgType.subscribe then
    { c with subscribed := if urlOk f.url then c.subscribed.insert f.url else c.subscribed }
  else if getMsgType f = MsgType.unsubscribe then
    { c with subscribed := if urlOk f.url then c.subscribed.erase f.url else [] }
  else c

section Input

variable {f : Frame} {K : ServerEvent β → Prop}

theorem core_transport (c : Client) (t : Transport) : { c with transport := t }.core = c.core := rfl

theorem update_view_map_id {γ : Type*} {g : Client → γ} {h : γ → γ}
    (hh : ∀ x ∈ w.view g id, h x = x) :
    Function.update (w.view g) id ((w.view g id).map h) = w.view g := by
  have : (w.view g id).map h = w.view g id := by
    cases hv : w.view g id with
    | none => rfl
    | some x => rw [Option.map_some, hh x hv]
  rw [this, Function.update_eq_self]

theorem core_touch : (w.touch id).view Client.core = w.view Client.core :=
  view_modifyCli_same _ (fun _ => rfl) fun _ => rfl

theorem id_startIdle (keepalive : Int) (c : Client) : (startIdle keepalive c).id = c.id := by
  unfold startIdle
  split_ifs <;> rfl

theorem core_replyServiceInfo :
    (w.replyServiceInfo net id f).view Client.core = w.view Client.core := by
  unfold replyServiceInfo
  simp only
  rw [view_cliSendmsg _ core_transport]
  refine (view_modifyCli_same _ (id_startIdle _) fun c => ?_).trans (view_createHeader _ _)
  unfold startIdle
  split_ifs <;> rfl

theorem view_noteConnected {γ : Type*} {g : Client → γ}
    (hg : ∀ c, g { c with onconn := true } = g c) : (w.noteConnected id).view g = w.view g := by
  unfold noteConnected
  split_ifs
  · rw [view_callOncli]
    exact view_modifyCli_same _ (fun _ => rfl) hg
  · rfl

theorem core_noteConnected : (w.noteConnected id).view Client.core =
    Function.update (w.view Client.core) id
      ((w.view Client.core id).map fun c => { c with onconn := true }) := by
  unfold noteConnected
  split_ifs with hon
  · rw [view_callOncli]
    exact view_modifyCli_map _ _ _ (fun _ => rfl) fun _ => rfl
  · refine (update_view_map_id fun x hx => ?_).symm
    obtain ⟨c, hc, rfl⟩ := Option.map_eq_some_iff.1 hx
    have : c.onconn = true := by simpa [hc] using hon
    simp [Client.core, this]

theorem core_handleSubscribe : (w.handleSubscribe net id f).view Client.core =
    Function.update (w.view Client.core) id ((w.view Client.core id).map fun c =>
      { c with subscribed := if urlOk f.url then c.subscribed.insert f.url
                             else c.subscribed }) := by
  rw [handleSubscribe_eq, view_send _ core_transport]
  by_cases hu : urlOk f.url = true
  · rw [if_pos hu]
    refine view_modifyCli_map _ _ _ (fun c => ?_) fun c => ?_
    · split_ifs <;> rfl
    · by_cases hmem : f.url ∈ c.subscribed
      · simp [Client.core, hmem, hu, List.insert_of_mem]
      · simp [Client.core, hmem, hu, List.insert_of_not_mem]
  · rw [if_neg hu]
    exact (update_view_map_id fun x _ => by simp [hu]).symm

/-- **What a frame does to the clients.** -/
theorem core_dispatch : (w.dispatch net id f).view Client.core =
    Function.update (w.view Client.core) id ((w.view Client.core id).map (Core.after f)) := by
  have hid (h : ∀ c, Core.after f c = c) : w.view Client.core =
      Function.update (w.view Client.core) id ((w.view Client.core id).map (Core.after f)) :=
    (update_view_map_id fun x _ => h x).symm
  unfold dispatch dispatchWith
  -- The message handler first, then one case for each type of frame.
  split_ifs with h1 h2 h3 h4 h5 h6 h7
  · exact hid fun c => by simp [Core.after, h1, MsgType.message, MsgType.serviceInfo,
      MsgType.subscribe, MsgType.unsubscribe]
  · exact hid fun c => by simp [Core.after, h1, MsgType.message, MsgType.serviceInfo,
      MsgType.subscribe, MsgType.unsubscribe]
  · rw [handleServiceInfo, core_noteConnected, core_replyServiceInfo]
    congr 2
    funext c
    rw [Core.after, if_pos h3]
  · have hrest := hid fun c => by simp [Core.after, h4, MsgType.rpcRequest, MsgType.serviceInfo,
      MsgType.subscribe, MsgType.unsubscribe]
    rw [← hrest]
    unfold handleRpcRequest
    split_ifs
    · split
      · rfl
      · exact view_send _ core_transport _
    · exact view_send _ core_transport _
  · refine core_handleSubscribe.trans ?_
    congr 2
    funext c
    rw [Core.after, if_neg h3, if_pos h5]
  · unfold handleUnsubscribe
    simp only
    rw [view_send _ core_transport]
    refine view_modifyCli_map _ _ _ (fun _ => rfl) fun c => ?_
    rw [Core.after, if_neg h3, if_neg h5, if_pos h6]
    rfl
  · have hrest := hid fun c => by simp [Core.after, h7, MsgType.pingEcho, MsgType.serviceInfo,
      MsgType.subscribe, MsgType.unsubscribe]
    rw [← hrest]
    exact view_send _ core_transport _
  · exact hid fun c => by rw [Core.after, if_neg h3, if_neg h5, if_neg h6]

theorem core_input : (w.input net id f).view Client.core =
    Function.update (w.view Client.core) id ((w.view Client.core id).map (Core.after f)) := by
  rw [input_eq, core_dispatch, core_touch]
  rfl

/-- Entries that report neither a connection nor input. -/
def Minor : ServerEvent β → Prop
  | .accepted _ | .received _ _ | .input _ _ => False
  | .sent _ _ _ | .oncli _ _ | .onrpc _ _ _ | .onmsg _ _ | .removed _ => True

/-- Entries that are no calls of the connect handler either. -/
def Plain : ServerEvent β → Prop
  | .accepted _ | .received _ _ | .input _ _ | .oncli _ _ => False
  | .sent _ _ _ | .onrpc _ _ _ | .onmsg _ _ | .removed _ => True

/-- What a frame can lead to: sends and calls of the application. -/
def Answer : ServerEvent β → Prop
  | .accepted _ | .received _ _ | .input _ _ | .removed _ => False
  | .sent _ _ _ | .oncli _ _ | .onrpc _ _ _ | .onmsg _ _ => True

theorem Plain.minor {e : ServerEvent β} (h : Plain e) : Minor e := by
  cases e <;> first | exact h.elim | trivial

theorem Answer.minor {e : ServerEvent β} (h : Answer e) : Minor e := by
  cases e <;> first | exact h.elim | trivial

theorem grows_callOncli (hcall : ∀ id connect, K (.oncli id connect)) (connect : Bool) :
    Grows K w (w.callOncli id connect) := by
  unfold callOncli
  split_ifs
  · exact (Grows.of_eq rfl).emit (hcall _ _)
  · exact .of_eq rfl

theorem grows_replyServiceInfo (hsent : ∀ id msg out, K (.sent id msg out)) :
    Grows K w (w.replyServiceInfo net id f) := by
  unfold replyServiceInfo
  refine Grows.trans ?_ (grows_cliSendmsg hsent _)
  exact .of_eq rfl

theorem grows_noteConnected (hcall : ∀ id connect, K (.oncli id connect)) :
    Grows K w (w.noteConnected id) := by
  unfold noteConnected
  split_ifs
  · exact (Grows.of_eq (log_modifyCli _)).trans (grows_callOncli hcall true)
  · exact .of_eq rfl

/-- **What a frame other than SERVICE_INFO can lead to**: nothing, a call of the application, or a
reply, perhaps after a change of the client's subscriptions. -/
theorem dispatch_plain {P : World β → Prop} (hf : getMsgType f ≠ MsgType.serviceInfo) (hw : P w)
    (hmsg : P (w.emit (.onmsg id f)))
    (hrpc : getMsgType f = MsgType.rpcRequest → urlOk f.url = true →
      ∀ handler, P (w.emit (.onrpc id handler f)))
    (hreply : ∀ status, P (w.send net id (replyTo f status none)))
    (hsubs : ∀ (subs : List Bytes → List Bytes) status,
      P ((w.modifyCli id fun c => { c with subscribed := subs c.subscribed }).send net id
        (replyTo f status none))) :
    P (w.dispatch net id f) := by
  unfold dispatch dispatchWith
  split_ifs with _ _ hreq
  · exact hmsg
  · exact hw
  · unfold handleRpcRequest
    split_ifs with hurl
    · split
      · exact hrpc hreq hurl _
      · exact hreply _
    · exact hreply _
  · show P (w.handleSubscribe net id f)
    rw [handleSubscribe_eq]
    split_ifs
    · have hif : (fun c : Client => if f.url ∈ c.subscribed then c
            else { c with subscribed := f.url :: c.subscribed }) =
          fun c => { c with subscribed :=
            if f.url ∈ c.subscribed then c.subscribed else f.url :: c.subscribed } := by
        funext c
        split_ifs <;> rfl
      rw [hif]
      exact hsubs (fun s => if f.url ∈ s then s else f.url :: s) _
    · exact hreply _
  · exact hsubs (fun s => if urlOk f.url then s.erase f.url else []) _
  · exact hreply _
  · exact hw

/-- Only SERVICE_INFO makes a call of the connect handler. -/
theorem grows_dispatch_plain (hf : getMsgType f ≠ MsgType.serviceInfo)
    (hsend : ∀ (w : World β) msg, Grows K w (w.send net id msg))
    (hrpc : ∀ id handler f, K (.onrpc id handler f))
    (hmsg : ∀ id f, K (.onmsg id f)) : Grows K w (w.dispatch net id f) := by
  apply dispatch_plain (P := Grows K w) hf
  · exact .of_eq rfl
  · exact (Grows.of_eq rfl).emit (hmsg _ _)
  · exact fun _ _ _ => (Grows.of_eq rfl).emit (hrpc _ _ _)
  · exact fun _ => hsend _ _
  · exact fun _ _ => (Grows.of_eq (log_modifyCli _)).trans (hsend _ _)

theorem dispatch_serviceInfo (hf : getMsgType f = MsgType.serviceInfo) :
    w.dispatch net id f = (w.replyServiceInfo net id f).noteConnected id := by
  rw [dispatch, dispatchWith, if_neg (by rw [hf]; decide), if_pos hf, handleServiceInfo]

theorem grows_dispatch : Grows Answer w (w.dispatch net id f) := by
  by_cases hf : getMsgType f = MsgType.serviceInfo
  · rw [dispatch_serviceInfo hf]
    exact (grows_replyServiceInfo fun _ _ _ => trivial).trans
      (grows_noteConnected fun _ _ => trivial)
  · exact grows_dispatch_plain hf (fun _ => grows_send fun _ _ _ => trivial) (fun _ _ _ => trivial)
      fun _ _ => trivial

theorem log_input (net : Nat → Nat → SendStep) (w : World β) (id : UInt32) (f : Frame) :
    ∃ es, (w.input net id f).log = w.log ++ .input id f :: es ∧ ∀ e ∈ es, Answer e := by
  have hgrow : Grows Answer ((w.emit (.input id f)).touch id) (w.input net id f) := grows_dispatch
  obtain ⟨es, he, hm⟩ := hgrow
  refine ⟨es, ?_, hm⟩
  rw [he, touch, log_modifyCli, log_emit, List.append_assoc]
  rfl

theorem idTable_noteConnected : (w.noteConnected id).idTable = w.idTable := by
  unfold noteConnected
  split_ifs
  · rw [idTable_callOncli]
    exact idTable_modifyCli fun _ => rfl
  · rfl

theorem idTable_replyServiceInfo : (w.replyServiceInfo net id f).idTable = w.idTable := by
  unfold replyServiceInfo
  simp only
  rw [idTable_cliSendmsg]
  exact idTable_modifyCli (w := w.createHeader _) (id_startIdle _)

/-- **A frame leaves the table as it is.** -/
theorem idTable_dispatch : (w.dispatch net id f).idTable = w.idTable := by
  by_cases hf : getMsgType f = MsgType.serviceInfo
  · rw [dispatch_serviceInfo hf, idTable_noteConnected, idTable_replyServiceInfo]
  · apply dispatch_plain (P := fun w' => w'.idTable = w.idTable) hf
    · rfl
    · rfl
    · exact fun _ _ _ => rfl
    · exact fun _ => idTable_send _
    · intro subs status
      rw [idTable_send]
      exact idTable_modifyCli fun _ => rfl

theorem idTable_input : (w.input net id f).idTable = w.idTable := by
  rw [input_eq, idTable_dispatch]
  exact idTable_modifyCli (w := w.emit (.input id f)) fun _ => rfl

theorem recv_after (c : Core) : (c.after f).recv = c.recv := by
  unfold Core.after
  split_ifs <;> rfl

end Input

/-! ## The steps -/

/-- The table is well formed and every stream parser stands between two turns. -/
structure TableOk (w : World β) : Prop where
  wf : w.Wf
  ready : ∀ id, ∀ c ∈ w.view Client.core id, c.recv.Ready

theorem cliNewid_free {s : Server β} {n : Nat} {ncid id' : UInt32}
    (h : s.cliNewid n ncid = some (id, id')) : s.cliFind id = none := by
  induction n generalizing ncid with
  | zero => cases h
  | succ n ih =>
    rw [Server.cliNewid] at h
    split_ifs at h with hf
    · exact ih h
    · obtain ⟨rfl, -⟩ := Prod.mk.inj (Option.some.inj h)
      simpa using hf

/-- A new connection is refused, or gets a client under an id that was free. -/
theorem handleNewConnection_cases (w : World β) (fd : Int) :
    w.handleNewConnection fd = w ∨
    ∃ id ncid, w.server.cliFind id = none ∧
      w.server.clients.length < w.server.maxConnections.toNat ∧
      w.handleNewConnection fd = w.addClient id ncid fd := by
  unfold handleNewConnection
  split_ifs with hmax
  · exact Or.inl rfl
  · split
    · exact Or.inl rfl
    · rename_i id ncid hid
      exact Or.inr ⟨id, ncid, cliNewid_free hid, by omega, rfl⟩

/-- What receiving `buf` comes to: frames handed to `ssn_server_input` one by one, and a new state
of the stream parser. -/
def takeChunk (net : Nat → Nat → SendStep) (w : World β) (id : UInt32) (buf : Bytes)
    (frames : List Frame) (recv : StreamCtx) : World β :=
  (frames.foldl (input net id) (w.emit (.received id buf))).modifyCli id fun c => { c with recv }

theorem handleClientInput_data (net : Nat → Nat → SendStep) (h : w.TableOk) {cli : Client}
    {buf : Bytes} (hcli : w.server.cliFind id = some cli) (hfd : ¬ cli.transport.getFd < 0)
    (hbuf : buf ≠ []) :
    let s := cli.recv.unread ++ buf.take maxPacketSize
    ∃ recv : StreamCtx, recv.Ready ∧ recv.unread = turnLeft true (refParse s).2 ∧
      w.handleClientInput net id (.data buf) =
        w.takeChunk net id (buf.take maxPacketSize) (refFrames s) recv := by
  intro s
  have hready : cli.recv.Ready := h.ready id cli.core (by rw [view, hcli]; rfl)
  have hspec := streamFeed_spec (fun w f => (input net id w f, true)) cli.recv
    (buf.take maxPacketSize) (w.emit (.received id (buf.take maxPacketSize))) hready
  have ha := hspec.arg_eq
  have hu := hspec.unread_eq
  rw [deliver_always] at ha hu
  refine ⟨_, hspec.ready, hu, ?_⟩
  simp only [handleClientInput, hcli, if_neg hfd, if_neg hbuf]
  exact congrArg (fun w => modifyCli w id _) ha

/-- A chunk that the client `cli` can send, and the state its parser is left in. -/
structure ChunkOf (cli : Client) (buf : Bytes) (recv : StreamCtx) : Prop where
  ne_nil : buf ≠ []
  length_le : buf.length ≤ maxPacketSize
  ready : recv.Ready
  unread_eq : recv.unread = turnLeft true (refParse (cli.recv.unread ++ buf)).2

/-- **What the input of a client can come to:** nothing, the end of an open connection, or a
chunk. -/
theorem handleClientInput_cases (net : Nat → Nat → SendStep) (h : w.TableOk) (id : UInt32)
    (r : RecvResult) :
    w.handleClientInput net id r = w ∨
    ∃ cli, w.server.cliFind id = some cli ∧ ¬ cli.transport.getFd < 0 ∧
      (w.handleClientInput net id r = w.closeClient cli ∨
        ∃ buf recv, ChunkOf cli buf recv ∧
          w.handleClientInput net id r =
            w.takeChunk net id buf (refFrames (cli.recv.unread ++ buf)) recv) := by
  cases hcli : w.server.cliFind id with
  | none =>
    left
    simp only [handleClientInput, hcli]
  | some cli =>
    by_cases hfd : cli.transport.getFd < 0
    · left
      simp only [handleClientInput, hcli, if_pos hfd]
    · cases r with
      | data buf =>
        refine Or.inr ⟨cli, rfl, hfd, ?_⟩
        -- A read of no bytes is the end of the stream.
        by_cases hbuf : buf = []
        · left
          simp only [handleClientInput, hcli, if_neg hfd, if_pos hbuf]
        · right
          obtain ⟨recv, hready, hunread, e⟩ := handleClientInput_data net h hcli hfd hbuf
          refine ⟨_, recv, ⟨?_, List.length_take_le _ _, hready, hunread⟩, e⟩
          simpa [List.take_eq_nil_iff, maxPacketSize] using hbuf
      | eof =>
        refine Or.inr ⟨cli, rfl, hfd, Or.inl ?_⟩
        simp only [handleClientInput, hcli, if_neg hfd]
      | again =>
        left
        simp only [handleClientInput, hcli, if_neg hfd]
      | error =>
        refine Or.inr ⟨cli, rfl, hfd, Or.inl ?_⟩
        simp only [handleClientInput, hcli, if_neg hfd]

/-- Entries of the log that report a send. -/
def IsSent : ServerEvent β → Prop
  | .sent _ _ _ => True
  | _ => False

theorem IsSent.plain {e : ServerEvent β} (h : IsSent e) : Plain e := by
  cases e <;> first | exact h.elim | trivial

/-- A step that shows nothing but sends: no client comes or goes and no lasting field changes. -/
structure Quiet (w w' : World β) : Prop where
  wf : w'.Wf
  core : w'.view Client.core = w.view Client.core
  log : Grows IsSent w w'
  oncli : w'.server.hasOncli = w.server.hasOncli

theorem Quiet.refl (h : w.Wf) : Quiet w w := ⟨h, rfl, .of_eq rfl, rfl⟩

theorem Quiet.trans {w₁ w₂ w₃ : World β} (h₁ : Quiet w₁ w₂) (h₂ : Quiet w₂ w₃) : Quiet w₁ w₃ :=
  ⟨h₂.wf, h₂.core.trans h₁.core, h₁.log.trans h₂.log, h₂.oncli.trans h₁.oncli⟩

theorem hasOncli_cliSendmsg (msg : Message) :
    (w.cliSendmsg net id msg).server.hasOncli = w.server.hasOncli := by
  unfold cliSendmsg
  split <;> rfl

theorem hasOncli_replyServiceInfo {f : Frame} :
    (w.replyServiceInfo net id f).server.hasOncli = w.server.hasOncli := by
  unfold replyServiceInfo
  simp only
  rw [hasOncli_cliSendmsg]
  rfl

theorem quiet_createHeader (h : w.Wf) (msg : Message) : Quiet w (w.createHeader msg) :=
  ⟨h, rfl, .of_eq rfl, rfl⟩

theorem quiet_cliSendmsg (h : w.Wf) (msg : Message) : Quiet w (w.cliSendmsg net id msg) where
  wf := h.of_idTable (idTable_cliSendmsg msg)
  core := view_cliSendmsg _ core_transport msg
  log := grows_cliSendmsg (fun _ _ _ => trivial) msg
  oncli := hasOncli_cliSendmsg msg

theorem quiet_send (h : w.Wf) (msg : Message) : Quiet w (w.send net id msg) :=
  (quiet_createHeader h msg).trans (quiet_cliSendmsg (w := w.createHeader msg) h msg)

theorem quiet_sendTo (h : w.Wf) (msg : Message) : Quiet w (w.sendTo net id msg) := by
  unfold sendTo
  split_ifs
  · exact quiet_send h msg
  · exact .refl h

theorem quiet_peerClose (h : w.Wf) : Quiet w (w.peerClose id) where
  wf := h.of_idTable (idTable_modifyCli fun _ => rfl)
  core := view_modifyCli_same _ (fun _ => rfl) fun _ => rfl
  log := .of_eq rfl
  oncli := rfl

theorem id_sweepCli (c : Client) : (sweepCli c).id = c.id := by
  unfold sweepCli
  split_ifs <;> rfl

theorem quiet_timerSweep (h : w.Wf) : Quiet w w.timerSweep where
  wf := Buckets.Wf.map h id_sweepCli
  core := by
    funext id
    have hfind : w.timerSweep.server.cliFind id = (w.server.cliFind id).map sweepCli :=
      Buckets.find_map id_sweepCli id
    unfold view
    rw [hfind, Option.map_map]
    congr 1
    funext c
    simp only [Function.comp_apply, sweepCli]
    split_ifs <;> rfl
  log := .of_eq rfl
  oncli := rfl

theorem quiet_publishLoop (h : w.Wf) (url : Bytes) (msg : Message) (cs : List Client) :
    Quiet w (cs.foldl (publishTo net url msg) w) := by
  induction cs generalizing w with
  | nil => exact .refl h
  | cons c cs ih =>
    rw [List.foldl_cons, publishTo]
    split_ifs
    · exact (quiet_cliSendmsg h msg).trans (ih (quiet_cliSendmsg h msg).wf)
    · exact ih h

theorem quiet_publish (h : w.Wf) (url : Bytes) (data : Option Ref) :
    Quiet w (w.publish net url data) := by
  unfold publish
  split_ifs
  · exact (quiet_createHeader h (publishMsg url data)).trans
      (quiet_publishLoop (w := w.createHeader _) h url _ _)
  · exact .refl h

end World

/-! ## The invariant rule -/

/-- **Invariants of a server.** What quiet steps, new connections, a chunk of input, the end of a
connection and the timer's event keep, every step keeps. -/
theorem World.step_invariant_chunk {Inv : World β → Prop} {op : ServerOp} (h : w.TableOk)
    (hw : Inv w) (hquiet : ∀ w', w.Quiet w' → Inv w')
    (haccept : ∀ id ncid fd, w.server.cliFind id = none → Inv (w.addClient id ncid fd))
    (hchunk : ∀ (cli : Client) (buf : Bytes) (recv : StreamCtx),
      w.server.cliFind cli.id = some cli → buf ≠ [] → buf.length ≤ maxPacketSize → recv.Ready →
      recv.unread = turnLeft true (refParse (cli.recv.unread ++ buf)).2 →
      Inv (w.takeChunk net cli.id buf (refFrames (cli.recv.unread ++ buf)) recv))
    (hclose : ∀ cli, w.server.cliFind cli.id = some cli → Inv (w.closeClient cli))
    (hevent : op = .eventInput → Inv w.handleEventInput) : Inv (w.step net op) := by
  cases op with
  | newConnection fd =>
    rcases w.handleNewConnection_cases fd with e | ⟨id, ncid, hid, -, e⟩
    · rw [step, e]
      exact hw
    · rw [step, e]
      exact haccept id ncid fd hid
  | clientInput id r =>
    rw [step]
    rcases handleClientInput_cases net h id r with e | ⟨cli, hcli, -, e | ⟨buf, recv, hbuf, e⟩⟩
    · rw [e]
      exact hw
    · obtain rfl := Server.cliFind_id hcli
      rw [e]
      exact hclose cli hcli
    · obtain rfl := Server.cliFind_id hcli
      rw [e]
      exact hchunk cli buf recv hcli hbuf.ne_nil hbuf.length_le hbuf.ready hbuf.unread_eq
  | eventInput => exact hevent rfl
  | timerSweep => exact hquiet _ (quiet_timerSweep h.wf)
  | peerClose id => exact hquiet _ (quiet_peerClose h.wf)
  | publish url data => exact hquiet _ (quiet_publish h.wf url data)
  | response id status seqno data => exact hquiet _ (quiet_sendTo h.wf _)
  | message id url data =>
    refine hquiet _ ?_
    simp only [step, message]
    split_ifs
    · exact quiet_sendTo h.wf _
    · exact .refl h.wf

/-- The same, with a chunk of input taken apart into its frames. -/
theorem World.step_invariant {Inv : World β → Prop} {op : ServerOp} (h : w.TableOk) (hw : Inv w)
    (hquiet : ∀ w', w.Quiet w' → Inv w')
    (haccept : ∀ id ncid fd, w.server.cliFind id = none → Inv (w.addClient id ncid fd))
    (hreceived : ∀ id buf, Inv (w.emit (.received id buf)))
    (hframe : ∀ w id f, Inv w → Inv (w.input net id f))
    (hrecv : ∀ w id recv, recv.Ready → Inv w → Inv (w.modifyCli id fun c => { c with recv }))
    (hclose : ∀ cli, w.server.cliFind cli.id = some cli → Inv (w.closeClient cli))
    (hevent : op = .eventInput → Inv w.handleEventInput) : Inv (w.step net op) := by
  refine step_invariant_chunk h hw hquiet haccept (fun cli buf recv _ _ _ hready _ => ?_) hclose
    hevent
  refine hrecv _ _ recv hready ?_
  exact List.foldlRecOn _ _ (hreceived _ _) fun w hw f _ => hframe w _ f hw

theorem World.event_invariant {Inv : World β → Prop}
    (hclear : Inv w → Inv w.drainEvent)
    (hdestroy : ∀ w id, Inv w → Inv (w.cliDestroy id)) (hw : Inv w) : Inv w.handleEventInput := by
  unfold handleEventInput
  split_ifs
  · exact List.foldlRecOn _ _ (hclear hw) fun w hw c _ => hdestroy w c.id hw
  · exact hw

namespace World

theorem TableOk.cliDestroy (h : w.TableOk) : (w.cliDestroy id).TableOk where
  wf := h.wf.cliDestroy
  ready id' c hc := by
    rw [view_cliDestroy] at hc
    exact h.ready id' c (mem_update_none hc)

theorem TableOk.modifyCli (h : w.TableOk) {f : Client → Client} (hf : ∀ c, (f c).id = c.id)
    (hr : ∀ c, c.recv.Ready → (f c).recv.Ready) : (w.modifyCli id f).TableOk where
  wf := h.wf.of_idTable (idTable_modifyCli hf)
  ready id' c hc := by
    rw [view_modifyCli _ hf] at hc
    by_cases e : id' = id
    · subst e
      rw [Function.update_self] at hc
      obtain ⟨c', hc', rfl⟩ := Option.map_eq_some_iff.1 hc
      exact hr c' (h.ready id' c'.core (by rw [view, hc']; rfl))
    · rw [Function.update_of_ne e] at hc
      exact h.ready id' c hc

theorem grows_closeClient (cli : Client) : Grows Minor w (w.closeClient cli) := by
  unfold World.closeClient
  refine Grows.emit ?_ trivial
  split_ifs
  · exact (Grows.of_eq (log_modifyCli _)).trans (grows_callOncli (fun _ _ => trivial) false)
  · exact .of_eq rfl

theorem view_closeClient {γ : Type*} (g : Client → γ) (cli : Client) :
    (w.closeClient cli).view g = Function.update (w.view g) cli.id none := by
  unfold World.closeClient
  rw [view_cliDestroy]
  split_ifs
  · rw [view_callOncli,
      view_modifyCli (f := fun cli => { cli with onconn := false }) g fun _ => rfl,
      Function.update_idem]
  · rfl

theorem TableOk.callOncli (h : w.TableOk) (b : Bool) : (w.callOncli id b).TableOk where
  wf := h.wf.of_idTable (idTable_callOncli b)
  ready id' := by
    rw [view_callOncli]
    exact h.ready id'

theorem TableOk.closeClient (h : w.TableOk) (cli : Client) : (w.closeClient cli).TableOk := by
  unfold World.closeClient
  refine TableOk.cliDestroy ?_
  split_ifs
  · have hw : TableOk (w.modifyCli cli.id fun cli => { cli with onconn := false }) :=
      h.modifyCli (fun _ => rfl) fun _ hr => hr
    exact hw.callOncli false
  · exact h

theorem cliFind_addClient {id' : UInt32} (ncid : UInt32) (fd : Int) :
    (w.addClient id ncid fd).server.cliFind id' =
      if id' = id then some (cliInit w.server id fd) else w.server.cliFind id' :=
  Buckets.find_insert id'

theorem view_addClient {γ : Type*} (g : Client → γ) (ncid : UInt32) (fd : Int) :
    (w.addClient id ncid fd).view g =
      Function.update (w.view g) id (some (g (cliInit w.server id fd))) := by
  funext id'
  rw [view, cliFind_addClient]
  by_cases e : id' = id
  · rw [if_pos e, e, Function.update_self]
    rfl
  · rw [if_neg e, Function.update_of_ne e, view]

theorem TableOk.addClient (h : w.TableOk) (hid : w.server.cliFind id = none) (ncid : UInt32)
    (fd : Int) : (w.addClient id ncid fd).TableOk where
  wf := Buckets.Wf.insert (a := cliInit w.server id fd) h.wf hid
  ready id' c hc := by
    rw [view_addClient] at hc
    by_cases e : id' = id
    · subst e
      rw [Function.update_self] at hc
      obtain rfl := Option.some.inj hc
      exact StreamCtx.ready_reset
    · rw [Function.update_of_ne e] at hc
      exact h.ready id' c hc

theorem TableOk.input (h : w.TableOk) (f : Frame) : (w.input net id f).TableOk where
  wf := h.wf.of_idTable idTable_input
  ready id' c hc := by
    rw [core_input] at hc
    by_cases e : id' = id
    · subst e
      rw [Function.update_self] at hc
      obtain ⟨c', hc', rfl⟩ := Option.map_eq_some_iff.1 hc
      rw [recv_after]
      exact h.ready id' c' hc'
    · rw [Function.update_of_ne e] at hc
      exact h.ready id' c hc

theorem tableOk_init (s : Server β) : (init s).TableOk where
  wf := ⟨fun _ _ h => absurd h (by simp [init]), fun _ => by simp [init]⟩
  ready _ _ h := by cases h

/-- **The table stays well formed.** -/
theorem tableOk_step (net : Nat → Nat → SendStep) (h : w.TableOk) (op : ServerOp) :
    (w.step net op).TableOk := by
  refine step_invariant h h (fun w' hq => ?_) (fun id ncid fd hid => h.addClient hid ncid fd)
    (fun id buf => ⟨h.wf, h.ready⟩) (fun w id f hw => hw.input f) (fun w id recv hr hw => ?_)
    (fun cli _ => h.closeClient cli) fun _ => ?_
  · exact ⟨hq.wf, by rw [hq.core]; exact h.ready⟩
  · exact hw.modifyCli (fun _ => rfl) fun _ _ => hr
  · exact event_invariant (fun hw => ⟨hw.wf, hw.ready⟩) (fun w id hw => hw.cliDestroy) h

/-! ## Removals by the timer -/

/-- The removals of a timer event. -/
def destroyAll (w : World β) (cs : List Client) : World β :=
  cs.foldl (fun w cli => w.cliDestroy cli.id) w

theorem view_destroyAll {γ : Type*} (g : Client → γ) (cs : List Client) :
    (w.destroyAll cs).view g id = if id ∈ cs.map Client.id then none else w.view g id := by
  induction cs generalizing w with
  | nil => rfl
  | cons c cs ih =>
    rw [destroyAll, List.foldl_cons, ← destroyAll, ih, view_cliDestroy, List.map_cons]
    by_cases e : id = c.id
    · simp [e]
    · simp [e]

theorem TableOk.destroyAll (h : w.TableOk) (cs : List Client) : (w.destroyAll cs).TableOk :=
  List.foldlRecOn _ _ h fun _ hw _ _ => hw.cliDestroy

theorem handleEventInput_eq (h : w.server.evtPending = true) :
    w.handleEventInput = w.drainEvent.destroyAll (w.server.clients.filter expired) := by
  rw [handleEventInput, if_pos h]
  rfl

theorem mem_expired (h : w.Wf) {c : Client} :
    c ∈ w.server.clients.filter expired ↔
      w.server.cliFind c.id = some c ∧ expired c = true := by
  rw [List.mem_filter, h.mem_clients]

/-- **The timer's event removes exactly the clients whose timer ran out.** -/
theorem cliFind_handleEventInput (h : w.Wf) (hp : w.server.evtPending = true) (id : UInt32) :
    w.handleEventInput.server.cliFind id =
      (w.server.cliFind id).filter fun c => !expired c := by
  have hview : w.handleEventInput.view (fun c => c) id =
      if id ∈ (w.server.clients.filter expired).map Client.id then none
      else w.view (fun c => c) id := by
    rw [handleEventInput_eq hp]
    exact view_destroyAll (w := w.drainEvent) _ _
  simp only [view, Option.map_id'] at hview
  rw [hview]
  cases hc : w.server.cliFind id with
  | none => simp
  | some c =>
    obtain rfl := Server.cliFind_id hc
    have hmem : c.id ∈ (w.server.clients.filter expired).map Client.id ↔ expired c = true := by
      constructor
      · intro hin
        obtain ⟨c', hc', heq⟩ := List.mem_map.1 hin
        obtain ⟨hfind, hexp⟩ := (mem_expired h).1 hc'
        rw [heq, hc] at hfind
        rwa [Option.some.inj hfind]
      · exact fun hexp => List.mem_map_of_mem ((mem_expired h).2 ⟨hc, hexp⟩)
    by_cases hexp : expired c = true
    · simp [hmem, hexp, Option.filter_some]
    · simp [hmem, hexp, Option.filter_some]

end World

end Ssn
