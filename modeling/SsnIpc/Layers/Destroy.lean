import SsnIpc.Layers.Agreement
import SsnIpc.Layers.Lifetime

/-!
# Destroying a server from its own handlers

A handler may call `ssn_server_destroy` for its server. The poll that called it has a reference, so
that the server is not freed under it; the server is only marked as not valid. The loop over the
frames of a client looks at the mark after every frame. The loop over the clients does not.

**Theorem (`silent_iff`).** In a poll, or in `ssn_server_run`, no handler is called once the server
is destroyed exactly when, in each round, the clients whose turn comes after that have nothing to
call a handler for: no connection known to the connect handler that ends, and no first frame that
leads to a handler.

With two clients that both have sent a message, the message handler is called twice although it
destroys the server the first time (`destroyed_between`).
-/

namespace Ssn

open ByteMem Locking Locking.Code

variable {κ β : Type} {net : Nat → Nat → SendStep} {s : Nat} {id : UInt32}
  (user : Objects κ β → Objects κ β) (h : Objects κ β)

/-! ## The calls of a frame -/

/-- The user's code is called in this state, if there is something to call. -/
def callsIn {γ : Type*} (call : Option γ) (h : Objects κ β) : List (Objects κ β) :=
  if call.isSome then [h] else []

@[simp] theorem callsWith_modifyWorld (f : World β → World β) :
    (modifyWorld s f : Prog κ β Unit).callsWith user h = [] := rfl

/-- Reading a server and changing its world call nobody, so the calls are those of what follows. -/
theorem callsWith_readServer_bind {γ : Type} (f : ServerObj β → Prog κ β γ) :
    (readServer s >>= f).callsWith user h = (f (h.servers s)).callsWith user h := rfl

theorem callsWith_modifyWorld_bind {γ : Type} (g : World β → World β) (f : Unit → Prog κ β γ) :
    (modifyWorld s g >>= f).callsWith user h =
      (f ()).callsWith user (h.setWorld s (g (h.servers s).world)) := rfl

theorem callsWith_serverCallOncli (connect : Bool) :
    (serverCallOncli s id connect : Prog κ β Unit).callsWith user h =
      if (h.servers s).world.server.hasOncli then
        [h.setWorld s ((h.servers s).world.emit (.oncli id connect))] else [] := by
  rw [serverCallOncli, callsWith_readServer_bind]
  split_ifs <;> simp

theorem callsWith_serverNoteConnected :
    (serverNoteConnected s id : Prog κ β Unit).callsWith user h =
      if (h.servers s).world.server.hasOncli ∧
          ((h.servers s).world.server.cliFind id).any fun cli => !cli.onconn
      then [h.setWorld s ((h.servers s).world.noteConnected id)] else [] := by
  rw [serverNoteConnected, World.noteConnected, callsWith_readServer_bind]
  by_cases hon : (((h.servers s).world.server.cliFind id).any fun cli => !cli.onconn) = true
  · rw [if_pos hon, if_pos hon, callsWith_modifyWorld_bind, callsWith_serverCallOncli,
      World.callOncli, world_setWorld, setWorld_setWorld]
    by_cases hset : (h.servers s).world.server.hasOncli = true
    · have hset' (g : Client → Client) :
          ((h.servers s).world.modifyCli id g).server.hasOncli = true := hset
      rw [if_pos (hset' _), if_pos ⟨hset, hon⟩, if_pos (hset' _)]
    · have hset' (g : Client → Client) :
          ¬ ((h.servers s).world.modifyCli id g).server.hasOncli = true := hset
      rw [if_neg (hset' _), if_neg fun hboth => hset hboth.1]
  · rw [if_neg hon, if_neg fun hboth => hon hboth.2]
    rfl

theorem callsWith_serverHandleServiceInfo {f : Frame} (hf : getMsgType f = MsgType.serviceInfo) :
    (serverHandleServiceInfo net s id f : Prog κ β Unit).callsWith user h =
      callsIn ((h.servers s).world.callOf id f)
        (h.setWorld s ((h.servers s).world.handleServiceInfo net id f)) := by
  have hmsg : getMsgType f ≠ MsgType.message := by rw [hf]; decide
  rw [serverHandleServiceInfo]
  simp only [callsWith_bind, callsWith_modifyWorld, callsWith_release, execWith_modifyWorld,
    execWith_release, Option.elim_some, List.nil_append, world_setWorld, setWorld_setWorld,
    callsWith_serverNoteConnected]
  rw [← World.replyServiceInfo, World.hasOncli_replyServiceInfo, World.any_onconn,
    World.core_replyServiceInfo, ← World.any_onconn, ← World.handleServiceInfo,
    World.callOf, if_neg hmsg, if_pos hf]
  split_ifs
  · rfl
  · rfl

theorem callsWith_serverHandleRpcRequest {f : Frame} (hf : getMsgType f = MsgType.rpcRequest) :
    (serverHandleRpcRequest net s id f : Prog κ β Unit).callsWith user h =
      callsIn ((h.servers s).world.callOf id f)
        (h.setWorld s ((h.servers s).world.handleRpcRequest net id f)) := by
  have hmsg : getMsgType f ≠ MsgType.message := by rw [hf]; decide
  have hinfo : getMsgType f ≠ MsgType.serviceInfo := by rw [hf]; decide
  rw [serverHandleRpcRequest, World.handleRpcRequest, World.callOf, if_neg hmsg, if_neg hinfo]
  by_cases hurl : urlOk f.url = true
  · rw [if_pos hurl, if_pos hurl, if_pos ⟨hf, hurl⟩, callsWith_readServer_bind]
    rcases ((h.servers s).world.server.router.handler f.url).join with _ | handler
    · rfl
    · rfl
  · rw [if_neg hurl, if_neg hurl, if_neg fun hboth => hurl hboth.2]
    rfl

theorem callsWith_serverSwitch {f : Frame} (hmsg : getMsgType f ≠ MsgType.message) :
    (serverSwitch net true s id f : Prog κ β Unit).callsWith user h =
      callsIn ((h.servers s).world.callOf id f)
        (h.setWorld s ((h.servers s).world.dispatch net id f)) := by
  rw [serverSwitch, World.dispatch, World.dispatchWith, if_neg hmsg]
  split_ifs with hinfo hrpc
  · exact callsWith_serverHandleServiceInfo user h hinfo
  · exact callsWith_serverHandleRpcRequest user h hrpc
  all_goals
    rw [callOf_eq_none hmsg hinfo hrpc]
    rfl

theorem callsWith_serverDispatch (f : Frame) :
    (serverDispatch net true s id f : Prog κ β Unit).callsWith user h =
      callsIn ((h.servers s).world.callOf id f)
        (h.setWorld s ((h.servers s).world.dispatch net id f)) := by
  rw [serverDispatch]
  split_ifs with hmsg
  · rw [World.dispatch, World.dispatchWith, World.callOf, if_pos hmsg, if_pos hmsg,
      callsWith_readServer_bind]
    split_ifs
    · rfl
    · rfl
  · rw [callsWith_bind, callsWith_acquire, execWith_acquire, Option.elim_some, List.nil_append,
      callsWith_serverSwitch user h hmsg]

theorem callsWith_serverTouch : (serverTouch s id : Prog κ β Unit).callsWith user h = [] := by
  rw [serverTouch, callsWith_modifyWorld_bind, callsWith_readServer_bind]
  split_ifs <;> simp

/-- A frame calls the user where its model says so, in the state that it leaves. -/
theorem callsWith_serverInput (f : Frame) :
    (serverInput net s id f : Prog κ β Bool).callsWith user h =
      callsIn ((h.servers s).world.callOf id f)
        (h.setWorld s ((h.servers s).world.input net id f)) := by
  rw [serverInput, serverInputWith, callsWith_modifyWorld_bind, callsWith_bind,
    callsWith_serverTouch, execWith_serverTouch, Option.elim_some, List.nil_append,
    callsWith_bind_quiet, callsWith_serverDispatch]
  · simp only [world_setWorld, setWorld_setWorld]
    rw [World.callOf_touch]
    rfl
  · intro _ h
    rw [callsWith_readServer_bind]
    rfl

theorem execWith_serverInput (f : Frame) :
    (serverInput net s id f : Prog κ β Bool).execWith user h =
      let h' := callUser user ((h.servers s).world.callOf id f)
        (h.setWorld s ((h.servers s).world.input net id f))
      some ((h'.servers s).valid, h') :=
  execWith_serverInputWith h user true f

/-! ## Silence -/

/-- Handlers are called only while the server is not destroyed. -/
def Silent (s : Nat) {α : Type} (x : Prog κ β α) (h : Objects κ β) : Prop :=
  ∀ h' ∈ x.callsWith user h, (h'.servers s).valid = true

def stateAfter {α : Type} (x : Prog κ β α) (h : Objects κ β) : Objects κ β :=
  (x.execWith user h).elim h Prod.snd

theorem execWith_of_keeps {τ : Type*} {v : Objects κ β → τ} {x : Prog κ β Unit}
    (hx : Keeps v x) : x.execWith user h = some ((), stateAfter user x h) := by
  obtain ⟨⟨⟩, h', hexec⟩ := hx.ends user h
  rw [stateAfter, hexec]
  rfl

section Silent

variable {α γ : Type} {x : Prog κ β α} {f : α → Prog κ β γ}

theorem silent_of_calls (hx : x.callsWith user h = []) : Silent user s x h := by
  intro h' hmem
  rw [hx] at hmem
  cases hmem

theorem silent_bind {a : α} {h₁ : Objects κ β} (hx : x.execWith user h = some (a, h₁)) :
    Silent user s (x >>= f) h ↔ Silent user s x h ∧ Silent user s (f a) h₁ := by
  simp only [Silent, callsWith_bind, hx, Option.elim_some, List.forall_mem_append]

theorem silent_bind_quiet (hf : ∀ a h, (f a).callsWith user h = []) :
    Silent user s (x >>= f) h ↔ Silent user s x h := by
  rw [Silent, callsWith_bind_quiet user hf]
  rfl

theorem silent_readServer {f : ServerObj β → Prog κ β γ} :
    Silent user s (readServer s >>= f) h ↔ Silent user s (f (h.servers s)) h := by
  rw [Silent, callsWith_readServer_bind]
  rfl

theorem silent_modifyWorld {g : World β → World β} {f : Unit → Prog κ β γ} :
    Silent user s (modifyWorld s g >>= f) h ↔
      Silent user s (f ()) (h.setWorld s (g (h.servers s).world)) := by
  rw [Silent, callsWith_modifyWorld_bind]
  rfl

end Silent

/-! ## A client's turn -/

theorem silent_serverInput (f : Frame) :
    Silent user s (serverInput net s id f) h ↔
      ((h.servers s).valid = false → (h.servers s).world.callOf id f = none) := by
  rw [Silent, callsWith_serverInput]
  cases hcall : (h.servers s).world.callOf id f with
  | none => simp [callsIn]
  | some e => simp [callsIn]

/-- Between two frames of a client the mark is looked at, so only the first of them can lead to a
call after the server was destroyed. -/
theorem silent_serverFeed (fs : List Frame) :
    Silent user s (serverFeed net s id fs) h ↔
      ((h.servers s).valid = false →
        ∀ f ∈ fs.head?, (h.servers s).world.callOf id f = none) := by
  induction fs generalizing h with
  | nil => exact iff_of_true (silent_of_calls user h rfl) (by simp)
  | cons f fs ih =>
    rw [serverFeed, silent_bind user h (execWith_serverInput user h f), silent_serverInput]
    simp only [List.head?_cons, Option.mem_some_iff, forall_eq']
    refine and_iff_left ?_
    split_ifs with hvalid
    · rw [ih]
      intro hfalse
      rw [hvalid] at hfalse
      cases hfalse
    · exact silent_of_calls user _ rfl

theorem silent_serverNoteLost (onconn : Bool) :
    Silent user s (serverNoteLost s id onconn) h ↔
      ((h.servers s).valid = false →
        (onconn && (h.servers s).world.server.hasOncli) = false) := by
  unfold serverNoteLost
  cases onconn with
  | false => exact iff_of_true (silent_of_calls user h rfl) (by simp)
  | true =>
    rw [if_pos rfl, silent_modifyWorld, Silent, callsWith_serverCallOncli, world_setWorld]
    have hset (g : Client → Client) : ((h.servers s).world.modifyCli id g).server.hasOncli =
        (h.servers s).world.server.hasOncli := rfl
    rw [hset]
    cases (h.servers s).world.server.hasOncli with
    | false => simp
    | true => simp

/-- The first thing that a client's turn does is to call a handler. -/
def World.callsFirst (w : World β) (input : UInt32 × SocketInput) : Bool :=
  match w.server.cliFind input.1 with
  | none => false
  | some cli =>
    if cli.transport.getFd < 0 then false
    else
      match input.2 with
      | .quiet => false
      | .frames fs _ => (fs.head?.bind (w.callOf cli.id)).isSome
      | .lost => cli.onconn && w.server.hasOncli

theorem silent_serverHandleClientInput (input : UInt32 × SocketInput) :
    Silent user s (serverHandleClientInput net s input) h ↔
      ((h.servers s).valid = false → (h.servers s).world.callsFirst input = false) := by
  rw [serverHandleClientInput, silent_readServer, World.callsFirst]
  cases hcli : (h.servers s).world.server.cliFind input.1 with
  | none => exact iff_of_true (silent_of_calls user h rfl) fun _ => rfl
  | some cli =>
    simp only
    split_ifs with hfd
    · exact iff_of_true (silent_of_calls user h rfl) fun _ => rfl
    · cases hin : input.2 with
      | quiet => exact iff_of_true (silent_of_calls user h rfl) fun _ => rfl
      | frames fs ok =>
        simp only
        rw [silent_serverFeed]
        cases fs with
        | nil => simp
        | cons f fs => simp
      | lost =>
        simp only
        rw [silent_bind_quiet user h fun _ _ => by simp, silent_serverNoteLost]

/-! ## A round -/

variable (net s)

/-- The clients whose turn comes when the server is destroyed call no handler. -/
def RoundSilent (clients : List (UInt32 × SocketInput)) (h : Objects κ β) : Prop :=
  ∀ pre input post, clients = pre ++ input :: post →
    let h' := stateAfter user (forEach (serverHandleClientInput net s) pre) h
    (h'.servers s).valid = false → (h'.servers s).world.callsFirst input = false

variable {net s}

theorem execWith_turn (input : UInt32 × SocketInput) :
    (serverHandleClientInput net s input).execWith user h =
      some ((), stateAfter user (serverHandleClientInput net s input) h) :=
  execWith_of_keeps user h (keeps_serverHandleClientInput (n := 0) input)

theorem execWith_turns (clients : List (UInt32 × SocketInput)) :
    (forEach (serverHandleClientInput net s) clients).execWith user h =
      some ((), stateAfter user (forEach (serverHandleClientInput net s) clients) h) :=
  execWith_of_keeps user h (keeps_forEach (keeps_serverHandleClientInput (n := 0)) clients)

theorem stateAfter_turns_cons (input : UInt32 × SocketInput)
    (clients : List (UInt32 × SocketInput)) :
    stateAfter user (forEach (serverHandleClientInput net s) (input :: clients)) h =
      stateAfter user (forEach (serverHandleClientInput net s) clients)
        (stateAfter user (serverHandleClientInput net s input) h) := by
  have hall : (forEach (serverHandleClientInput net s) (input :: clients)).execWith user h = _ :=
    execWith_turns user h _
  rw [forEach, execWith_bind, execWith_turn, Option.bind_some, execWith_turns] at hall
  exact (congrArg Prod.snd (Option.some.inj hall)).symm

theorem silent_forEach (clients : List (UInt32 × SocketInput)) :
    Silent user s (forEach (serverHandleClientInput net s) clients) h ↔
      RoundSilent net s user clients h := by
  induction clients generalizing h with
  | nil => exact iff_of_true (silent_of_calls user h rfl) fun pre _ _ hsplit => by simp at hsplit
  | cons input clients ih =>
    rw [forEach, silent_bind user h (execWith_turn user h input), silent_serverHandleClientInput,
      ih]
    constructor
    · rintro ⟨hfirst, hrest⟩ pre input' post hsplit
      -- the client is the first one, or comes in the turns that follow
      rcases List.cons_eq_append_iff.1 hsplit with ⟨rfl, htail⟩ | ⟨pre', rfl, htail⟩
      · obtain ⟨rfl, -⟩ := List.cons.inj htail
        exact hfirst
      · rw [stateAfter_turns_cons]
        exact hrest pre' input' post htail
    · intro hround
      refine ⟨hround [] input clients rfl, fun pre input' post hsplit => ?_⟩
      have hlater := hround (input :: pre) input' post (by rw [hsplit]; rfl)
      rwa [stateAfter_turns_cons] at hlater

theorem callsWith_serverAccept (accepted : Option Int) :
    (serverAccept s accepted : Prog κ β Unit).callsWith user h = [] := by
  cases accepted with
  | none => rfl
  | some fd =>
    rw [serverAccept, serverHandleNewConnection, callsWith_bind_quiet]
    · rfl
    · intro full h
      split_ifs <;> rfl

theorem callsWith_serverHandleEventInput :
    (serverHandleEventInput s : Prog κ β Unit).callsWith user h = [] := by
  rw [serverHandleEventInput, callsWith_bind_quiet]
  · rfl
  · intro o h
    split_ifs <;> rfl

theorem silent_serverInputFds (input : ServerPollInput) :
    Silent user s (serverInputFds net s input) h ↔
      ((h.servers s).valid = true → RoundSilent net s user input.clients h) := by
  rw [serverInputFds, silent_readServer]
  split_ifs with hvalid
  · rw [silent_bind_quiet user h, silent_forEach]
    · exact ⟨fun hround _ => hround, fun hround => hround hvalid⟩
    · intro _ h
      rw [callsWith_bind_quiet, callsWith_serverAccept]
      exact fun _ h => callsWith_serverHandleEventInput user h
  · exact iff_of_true (silent_of_calls user h rfl) fun hv => absurd hv hvalid

/-! ## Polls and runs -/

theorem execWith_serverFds :
    (serverFds s : Prog κ β Bool).execWith user h =
      some ((h.servers s).valid && (h.servers s).started, h) := by
  rw [serverFds, execWith_bind, execWith_readServer, Option.bind_some]
  split_ifs with hok
  · rw [hok]
    rfl
  · rw [Bool.not_eq_true] at hok
    rw [hok]
    rfl

theorem callsWith_serverFds : (serverFds s : Prog κ β Bool).callsWith user h = [] := by
  rw [serverFds, callsWith_bind_quiet]
  · rfl
  · intro o h
    split_ifs <;> rfl

theorem callsWith_serverUnref : (serverUnref s : Prog κ β Unit).callsWith user h = [] := by
  rw [serverUnref, callsWith_bind_quiet]
  · rfl
  · intro free h
    split_ifs <;> rfl

variable (net s)

/-- The state with the reference that a poll takes. -/
def Objects.addRef (h : Objects κ β) : Objects κ β :=
  h.modifyServer s fun o => { o with refCount := o.refCount + 1 }

/-- Each round that `ssn_server_run` makes is silent. -/
def RunSilent : List ServerPollInput → Objects κ β → Prop
  | [], _ => True
  | input :: inputs, h =>
    ((h.servers s).valid && (h.servers s).started) = true →
      RoundSilent net s user input.clients h ∧
        RunSilent inputs (stateAfter user (serverInputFds net s input) h)

variable {net s}

theorem silent_serverReady (input : Option ServerPollInput) :
    Silent user s (serverReady net s input) h ↔
      ((h.servers s).valid = true → ∀ i ∈ input, RoundSilent net s user i.clients h) := by
  cases input with
  | none => exact iff_of_true (silent_of_calls user h rfl) (by simp)
  | some input =>
    rw [serverReady, silent_serverInputFds]
    simp

theorem silent_serverRunLoop (inputs : List ServerPollInput) :
    Silent user s (serverRunLoop net s inputs) h ↔ RunSilent net s user inputs h := by
  have hfds (h : Objects κ β) : Silent user s (serverFds s : Prog κ β Bool) h :=
    silent_of_calls user h (callsWith_serverFds user h)
  induction inputs generalizing h with
  | nil =>
    rw [serverRunLoop, silent_bind user h (execWith_serverFds user h)]
    refine iff_of_true ⟨hfds h, silent_of_calls user h ?_⟩ trivial
    split_ifs <;> rfl
  | cons input inputs ih =>
    rw [serverRunLoop, silent_bind user h (execWith_serverFds user h), and_iff_right (hfds h),
      RunSilent]
    split_ifs with hok
    · have hvalid : (h.servers s).valid = true := (Bool.and_eq_true_iff.1 hok).1
      rw [silent_bind user h (execWith_of_keeps user h (keeps_serverInputFds (n := 0) input)),
        silent_serverInputFds]
      constructor
      · rintro ⟨hround, hrest⟩ _
        exact ⟨hround hvalid, (ih _).1 hrest⟩
      · intro hrun
        obtain ⟨hround, hrest⟩ := hrun hok
        exact ⟨fun _ => hround, (ih _).2 hrest⟩
    · exact iff_of_true (silent_of_calls user h rfl) fun h => absurd h hok

theorem silent_serverRef {f : Unit → Prog κ β Unit} :
    Silent user s (serverRef s >>= f) h ↔ Silent user s (f ()) (h.addRef s) := by
  have href : (serverRef s : Prog κ β Unit).execWith user h = some ((), h.addRef s) := by
    rw [serverRef, execWith_locked]
    rfl
  rw [silent_bind user h href]
  refine and_iff_right (silent_of_calls user h ?_)
  rw [serverRef, callsWith_locked]
  rfl

/-- **Destroyed servers:** in a poll and in `ssn_server_run`, whatever the handlers do, no handler
is called once the server is destroyed exactly when the clients whose turn comes after that in a
round have nothing to call one for. -/
theorem silent_iff (net : Nat → Nat → SendStep) (s : Nat) (user : Objects κ β → Objects κ β)
    (h : Objects κ β) :
    (∀ input, Silent user s (serverPoll net s input) h ↔
      ((h.servers s).valid = true → ∀ i ∈ input, RoundSilent net s user i.clients (h.addRef s))) ∧
    ∀ inputs, Silent user s (serverRun net s inputs) h ↔
      RunSilent net s user inputs (h.addRef s) := by
  have hvalid : ((h.addRef s).servers s).valid = (h.servers s).valid := by
    simp [Objects.addRef, Objects.modifyServer]
  have hunref (h : Objects κ β) : (serverUnref s : Prog κ β Unit).callsWith user h = [] :=
    callsWith_serverUnref user h
  refine ⟨fun input => ?_, fun inputs => ?_⟩
  · rw [serverPoll, silent_serverRef, silent_bind user _ (execWith_serverFds user _),
      silent_bind_quiet user _ fun _ => hunref, silent_serverReady, hvalid]
    exact and_iff_right (silent_of_calls user _ (callsWith_serverFds user _))
  · rw [serverRun, silent_serverRef, silent_bind_quiet user _ fun _ => hunref,
      silent_serverRunLoop]

/-- A server that has two clients and a message handler. -/
def twoClients : Objects Unit Unit :=
  Objects.empty.modifyServer 0 fun _ =>
    ⟨((World.init { Server.create 0 with hasOnmsg := true }).addClient 0 1 5).addClient 1 2 6, true,
      1, true⟩

def destroyHandler (h : Objects Unit Unit) : Objects Unit Unit :=
  stateAfter (fun h => h) (serverDestroy 0) h

/-- Both clients have sent a message. -/
def bothSpeak : ServerPollInput where
  clients := [(0, .frames [bareFrame MsgType.message 0] true),
    (1, .frames [bareFrame MsgType.message 0] true)]
  accepted := none

/-- The handler destroys the server when it is called first, and the same poll calls it again. -/
theorem destroyed_between :
    ((serverPoll acceptAll 0 (some bothSpeak)).callsWith destroyHandler twoClients).map
      (fun h => (h.servers 0).valid) = [true, false] := by
  decide +kernel

end Ssn
