import SsnIpc.Layers.Lifetime

/-!
# The life of a node, and what its functions do to it

The functions of `Life` say what starting, stopping, using and destroying a node is for the objects
it holds. The functions of the node do just that, whatever else happens in them (`endsIn_nodeStart`,
`endsIn_nodeStop`, `endsIn_nodeToPeer`, `endsIn_nodeDestroy`): the code of each ends, and the life
of the node is then what the function of `Life` gives. Callbacks do nothing here.
-/

namespace Ssn

open ByteMem Locking Locking.Code

variable {κ β α : Type}

/-! ## The life of a node -/

namespace Life

def closeServer (l : Life) (s : Nat) : Life :=
  { l with serverOpen := Function.update l.serverOpen s false }

def closeClient (l : Life) (c : Nat) : Life :=
  { l with clientOpen := Function.update l.clientOpen c false }

/-- `node->state` is written. -/
def setState (l : Life) (state : NodeState) : Life := { l with state }

/-- `node->server` is written. -/
def setServer (l : Life) (server : Option Nat) : Life := { l with server }

/-- `node->client` is written. -/
def setClient (l : Life) (client : Option Nat) : Life := { l with client }

def dropServer (l : Life) : Life :=
  match l.server with
  | none => l
  | some s => (l.closeServer s).setServer none

def dropClient (l : Life) : Life :=
  match l.client with
  | none => l
  | some c => (l.closeClient c).setClient none

def addServer (l : Life) : Life :=
  { l with
    newServer := l.newServer + 1
    serverOpen := Function.update l.serverOpen l.newServer true }

def addClient (l : Life) : Life :=
  { l with
    newClient := l.newClient + 1
    clientOpen := Function.update l.clientOpen l.newClient true }

def makeServer (l : Life) : Life := l.addServer.setServer l.newServer

def makeClient (l : Life) : Life := l.addClient.setClient l.newClient

/-- The server's part of a start, and whether it succeeds. -/
def startServer (l : Life) (created started : Bool) : Bool × Life :=
  if l.capabilities &&& capServer = 0 then (true, l)
  else if created then
    if started then (true, l.makeServer) else (false, l.makeServer.dropServer)
  else (false, l)

def start (l : Life) (created started : Bool) : Life :=
  if l.state = .stopped then
    (l.startServer created started).2.setState
      (if (l.startServer created started).1 then .active else .error)
  else l

def stop (l : Life) : Life :=
  if l.state = .stopped then l else l.dropServer.dropClient.setState .stopped

def getClient (l : Life) : Life :=
  if l.client = none ∧ l.capabilities &&& capClient ≠ 0 then l.makeClient else l

/-- The reference of the creator is given back. -/
def invalidate (l : Life) : Life := { l with valid := false, refCount := l.refCount - 1 }

/-- The end: a node that is active is stopped first. -/
def destroy (l : Life) : Life :=
  if l.valid then
    if l.refCount ≤ 1 ∧ l.state = .active then l.invalidate.stop else l.invalidate
  else l

end Life

/-! ## The code -/

/-- From memory `h` the code ends, with `l` as the life of node `n`. -/
def EndsIn (n : Nat) (x : Prog κ β α) (h : Objects κ β) (l : Life) : Prop :=
  ∃ a h', x.exec h = some (a, h') ∧ h'.life n = l

section EndsIn

variable {n : Nat} {x : Prog κ β α} {γ : Type} {k : α → Prog κ β γ} {h : Objects κ β} {l l' : Life}

theorem endsIn_of_keeps (hx : Keeps (Objects.life n) x) (hl : h.life n = l) : EndsIn n x h l := by
  obtain ⟨a, h', hexec, hlife⟩ := hx.exec h
  exact ⟨a, h', hexec, hlife.trans hl⟩

theorem EndsIn.bind (hx : EndsIn n x h l)
    (hk : ∀ a h', h'.life n = l → EndsIn n (k a) h' l') : EndsIn n (x >>= k) h l' := by
  obtain ⟨a, h', hexec, hlife⟩ := hx
  obtain ⟨b, h'', hexec', hlife'⟩ := hk a h' hlife
  exact ⟨b, h'', by rw [exec_bind, hexec, Option.bind_some, hexec'], hlife'⟩

theorem EndsIn.bind_keeps (hx : EndsIn n x h l) (hk : ∀ a, Keeps (Objects.life n) (k a)) :
    EndsIn n (x >>= k) h l :=
  hx.bind fun a _ hl => endsIn_of_keeps (hk a) hl

theorem EndsIn.locked (m : Mutex) (hx : EndsIn n x h l) : EndsIn n (locked m x) h l := by
  obtain ⟨a, h', hexec, hlife⟩ := hx
  exact ⟨a, h', by rw [exec_locked, hexec], hlife⟩

theorem EndsIn.perform {f : Objects κ β → α × Objects κ β}
    (hk : EndsIn n (k (f h).1) (f h).2 l) : EndsIn n (Code.perform f >>= k) h l := hk

theorem EndsIn.of_exec {a : α} {h' : Objects κ β} (hx : x.exec h = some (a, h'))
    (hk : EndsIn n (k a) h' l) : EndsIn n (x >>= k) h l := by
  obtain ⟨b, h'', hexec, hlife⟩ := hk
  exact ⟨b, h'', by rw [exec_bind, hx, Option.bind_some, hexec], hlife⟩

theorem endsIn_onNode (change : NodeObj → NodeObj) (hl : (h.modifyNode n change).life n = l) :
    EndsIn n (onNode n change : Prog κ β Unit) h l :=
  ⟨(), h.modifyNode n change, rfl, hl⟩

theorem Objects.life_modifyNode (f : NodeObj → NodeObj) (h : Objects κ β) :
    (h.modifyNode n f).life n =
      { h.life n with
        state := (f (h.nodes n)).state
        valid := (f (h.nodes n)).valid
        refCount := (f (h.nodes n)).refCount
        capabilities := (f (h.nodes n)).capabilities
        server := (f (h.nodes n)).server
        client := (f (h.nodes n)).client } := by
  simp [Objects.life, Objects.modifyNode]

theorem endsIn_setState {state : NodeState} (hl : h.life n = l) :
    EndsIn n (onNode n fun nd => { nd with state } : Prog κ β Unit) h (l.setState state) := by
  subst hl
  exact endsIn_onNode _ (Objects.life_modifyNode _ h)

theorem endsIn_setServer {server : Option Nat} (hl : h.life n = l) :
    EndsIn n (onNode n fun nd => { nd with server } : Prog κ β Unit) h (l.setServer server) := by
  subst hl
  exact endsIn_onNode _ (Objects.life_modifyNode _ h)

theorem endsIn_setClient {client : Option Nat} (hl : h.life n = l) :
    EndsIn n (onNode n fun nd => { nd with client } : Prog κ β Unit) h (l.setClient client) := by
  subst hl
  exact endsIn_onNode _ (Objects.life_modifyNode _ h)

/-! ### Clients -/

/-- Memory after `ssn_client_create`. -/
def Objects.withClient (h : Objects κ β) : Objects κ β :=
  { h.modifyClient h.newClient fun _ => .create with newClient := h.newClient + 1 }

theorem Objects.life_withClient : h.withClient.life n = (h.life n).addClient := by
  have hmade : (h.modifyClient h.newClient fun _ => .create).life n = _ :=
    Objects.life_modifyClient (b := true) rfl
  exact congrArg (fun l => { l with newClient := h.newClient + 1 }) hmade

theorem endsIn_nodeGetClient :
    EndsIn n (nodeGetClient n : Prog κ β _) h (h.life n).getClient := by
  apply EndsIn.perform
  have hlife : (h.life n).client = (h.nodes n).client := rfl
  cases hclient : (h.nodes n).client with
  | some c =>
    refine endsIn_of_keeps (keeps_pure _) ?_
    simp [Life.getClient, hlife, hclient]
  | none =>
    show EndsIn n (if (h.life n).capabilities &&& capClient ≠ 0 then _ else _) h _
    split_ifs with hcap
    · have hexec : (clientCreate : Prog κ β Nat).exec h = some (h.newClient, h.withClient) := rfl
      rw [Life.getClient, if_pos ⟨hclient, hcap⟩]
      exact .of_exec hexec ((endsIn_setClient Objects.life_withClient).bind_keeps fun _ =>
        keeps_pure _)
    · refine endsIn_of_keeps (keeps_pure _) ?_
      rw [Life.getClient, if_neg fun hget => hcap hget.2]

theorem endsIn_connectToPeer (peer : Bytes) :
    EndsIn n (connectToPeer n peer : Prog κ β _) h (h.life n).getClient := by
  refine endsIn_nodeGetClient.bind_keeps fun client => ?_
  cases client with
  | none => exact keeps_pure none
  | some c =>
    refine keeps_clientIsConnect.bind fun _ => Keeps.bind (keeps_gets _) fun nd => ?_
    exact .ite (keeps_clientRef.bind fun _ => keeps_pure _) (keeps_pure none)

theorem keeps_nodeEnsureConnected (c : Nat) (peer : Bytes) (fd : Option Nat) :
    Keeps (Objects.life n) (nodeEnsureConnected n c peer fd : Prog κ β Bool) := by
  refine keeps_clientIsConnect.bind fun _ => .ite (keeps_pure true) ?_
  refine (keeps_clientConnect fd).bind fun _ => .ite ?_ (keeps_pure false)
  refine Keeps.bind (.locked _ (keeps_perform fun h => ?_)) fun _ => keeps_pure true
  exact Objects.life_modifyNode (fun nd => { nd with peerAddress := _ }) h

theorem endsIn_nodeToPeer (peer : Bytes) (fd : Option Nat) {send : Nat → Prog κ β Bool}
    (hsend : ∀ c, Keeps (Objects.life n) (send c)) :
    EndsIn n (nodeToPeer n peer fd send) h (h.life n).getClient := by
  refine ((endsIn_connectToPeer peer).locked _).bind_keeps fun client => ?_
  cases client with
  | none => exact keeps_pure ()
  | some c =>
    refine (keeps_nodeEnsureConnected c peer fd).bind fun _ => .ite ?_ keeps_clientUnref
    refine (hsend c).bind fun _ => .ite ?_ keeps_clientUnref
    exact Keeps.bind (.locked _ (keeps_pure ())) fun _ => keeps_clientUnref

theorem keeps_nodePoll (net : Nat → Nat → SendStep) (serverInput : Option ServerPollInput)
    (clientInput : ClientPollInput) :
    Keeps (Objects.life n) (nodePoll net n serverInput clientInput : Prog κ β Unit) := by
  have hlook : Keeps (Objects.life n) (locked (.node n) (do
      let nd ← readNode n
      nodeRefClient nd.client
      pure nd) : Prog κ β NodeObj) := by
    refine .locked _ (Keeps.bind (keeps_gets _) fun nd => Keeps.bind ?_ fun _ => keeps_pure nd)
    cases nd.client with
    | none => exact keeps_pure ()
    | some c => exact keeps_clientRef
  refine hlook.bind fun nd => Keeps.bind ?_ fun _ => ?_
  · cases nd.server with
    | none => exact keeps_pure ()
    | some s => exact keeps_serverPoll serverInput
  · cases nd.client with
    | none => exact keeps_pure ()
    | some c => exact (keeps_clientPoll clientInput).bind fun _ => keeps_clientUnref

theorem endsIn_clientClose (c : Nat) :
    EndsIn n (clientClose c : Prog κ β Unit) h ((h.life n).closeClient c) := by
  let closed : Objects κ β := h.modifyClient c fun o => { o with valid := false }
  have hclose : closed.life n = (h.life n).closeClient c := Objects.life_modifyClient rfl
  have hexec : (locked (.client c) (onClient c fun o => (o.valid, { o with valid := false })) :
      Prog κ β Bool).exec h = some ((h.clients c).valid, closed) := by
    rw [exec_locked, onClient, exec_perform]
  refine .of_exec hexec ?_
  split_ifs
  · exact endsIn_of_keeps (Keeps.bind (.locked _ (keeps_pure ())) fun _ => keeps_clientUnref) hclose
  · exact endsIn_of_keeps (keeps_pure ()) hclose

theorem endsIn_nodeStopClient :
    EndsIn n (nodeStopClient n (h.life n).client : Prog κ β Unit) h (h.life n).dropClient := by
  unfold Life.dropClient
  cases (h.life n).client with
  | none => exact endsIn_of_keeps (keeps_pure ()) rfl
  | some c =>
    exact (endsIn_clientClose c).bind fun _ _ hl => endsIn_setClient hl

/-! ### Servers -/

theorem endsIn_serverDestroy (s : Nat) :
    EndsIn n (serverDestroy s : Prog κ β Unit) h ((h.life n).closeServer s) := by
  apply EndsIn.perform
  show EndsIn n (if (h.servers s).valid = true then _ else _) h _
  split_ifs with hvalid
  · let closed : Objects κ β := h.modifyServer s fun o => { o with valid := false }
    have hclose : closed.life n = (h.life n).closeServer s := Objects.life_modifyServer rfl
    have hexec : (locked (.server s) (onServer s fun o => { o with valid := false }) :
        Prog κ β Unit).exec h = some ((), closed) := by
      rw [exec_locked]
      rfl
    have hlist : (locked .serverList (pure ()) : Prog κ β Unit).exec h = some ((), h) := rfl
    refine .of_exec hlist (.of_exec hexec ?_)
    exact endsIn_of_keeps keeps_serverUnref hclose
  · -- A server that was destroyed before is left alone.
    refine endsIn_of_keeps (keeps_pure ()) ?_
    have hsame : Function.update (h.life n).serverOpen s false = (h.life n).serverOpen := by
      rw [Function.update_eq_self_iff]
      exact (Bool.eq_false_iff.2 hvalid).symm
    rw [Life.closeServer, hsame]

theorem endsIn_nodeStopServer :
    EndsIn n (nodeStopServer n (h.life n).server : Prog κ β Unit) h (h.life n).dropServer := by
  unfold Life.dropServer
  cases (h.life n).server with
  | none => exact endsIn_of_keeps (keeps_pure ()) rfl
  | some s =>
    exact (endsIn_serverDestroy s).bind fun _ _ hl => endsIn_setServer hl

/-- Memory after `ssn_server_create`. -/
def Objects.withServer (h : Objects κ β) (init : Server β) : Objects κ β :=
  { h.modifyServer h.newServer fun _ => ⟨.init init, true, 1, false⟩ with
    newServer := h.newServer + 1 }

theorem Objects.life_withServer (init : Server β) :
    (h.withServer init).life n = (h.life n).addServer := by
  have hmade : (h.modifyServer h.newServer fun _ => ⟨.init init, true, 1, false⟩).life n = _ :=
    Objects.life_modifyServer (b := true) rfl
  exact congrArg (fun l => { l with newServer := h.newServer + 1 }) hmade

theorem exec_serverStart {s : Nat} (hvalid : (h.servers s).valid = true) (ok : Bool) :
    ∃ h', (serverStart s ok : Prog κ β Bool).exec h = some (ok, h') ∧ h'.life n = h.life n := by
  have hkeeps : Keeps (Objects.life n) (serverStart s ok : Prog κ β Bool) := by
    refine Keeps.bind (keeps_gets _) fun o => .ite ?_ (keeps_pure false)
    refine Keeps.bind ?_ fun _ => keeps_pure true
    exact keeps_onServer fun _ => rfl
  obtain ⟨a, h', hexec, hl⟩ := hkeeps.exec h
  have ha : a = ok := by
    cases ok <;> simp [serverStart, readServer, gets, hvalid, onServer, Code.modify] at hexec <;>
      simp [← hexec.1]
  exact ⟨h', ha ▸ hexec, hl⟩

theorem exec_nodeStartServer (h : Objects κ β) (start : ServerStart β) :
    ∃ h', (nodeStartServer n (h.life n).capabilities start : Prog κ β Bool).exec h =
        some (((h.life n).startServer start.created start.started).1, h') ∧
      h'.life n = ((h.life n).startServer start.created start.started).2 := by
  unfold nodeStartServer Life.startServer
  by_cases hcap : (h.life n).capabilities &&& capServer = 0
  · rw [if_pos hcap, if_pos hcap]
    exact ⟨h, rfl, rfl⟩
  rw [if_neg hcap, if_neg hcap]
  by_cases hcreated : start.created = true
  swap
  · rw [if_neg hcreated, if_neg hcreated]
    exact ⟨h, rfl, rfl⟩
  rw [if_pos hcreated, if_pos hcreated]
  have hcreate : (serverCreate start.init : Prog κ β Nat).exec h =
    some (h.newServer, h.withServer start.init) := rfl
  let made := (h.withServer start.init).modifyNode n fun nd => { nd with server := h.newServer }
  have hmade : made.life n = (h.life n).makeServer := by
    rw [Life.makeServer, ← Objects.life_withServer start.init]
    exact Objects.life_modifyNode _ _
  have hvalid : (made.servers h.newServer).valid = true := by
    show (Function.update h.servers h.newServer _ h.newServer).valid = true
    rw [Function.update_self]
  have hset : (onNode n fun nd => { nd with server := some h.newServer } : Prog κ β Unit).exec
    (h.withServer start.init) = some ((), made) := rfl
  obtain ⟨h', hstart, hl⟩ := exec_serverStart (n := n) hvalid start.started
  simp only [exec_bind, hcreate, hset, hstart, Option.bind_some]
  cases start.started with
  | true => exact ⟨h', rfl, hl.trans hmade⟩
  | false =>
    -- The server that could not be started is destroyed again.
    have hdrop : (h.life n).makeServer.dropServer =
        ((h.life n).makeServer.closeServer h.newServer).setServer none := rfl
    obtain ⟨a, h'', hdestroy, hl'⟩ := endsIn_serverDestroy (n := n) (h := h') h.newServer
    refine ⟨h''.modifyNode n fun nd => { nd with server := none }, ?_, ?_⟩
    · simp only [Bool.false_eq_true, if_false, exec_bind, hdestroy, Option.bind_some]
      rfl
    · simp only [Bool.false_eq_true, if_false]
      rw [hdrop, ← hmade, ← hl, ← hl']
      exact Objects.life_modifyNode _ h''

/-! ### The node -/

theorem endsIn_nodeStop : EndsIn n (nodeStop n : Prog κ β Unit) h (h.life n).stop := by
  refine EndsIn.locked _ (EndsIn.perform ?_)
  show EndsIn n (if (h.life n).state = .stopped then _ else _) h _
  unfold Life.stop
  split_ifs
  · exact endsIn_of_keeps (keeps_pure ()) rfl
  · refine endsIn_nodeStopServer.bind fun _ h' hl => ?_
    have hclient : (h.nodes n).client = (h'.life n).client := by
      rw [hl, Life.dropServer]
      split <;> rfl
    rw [hclient, ← hl]
    exact endsIn_nodeStopClient.bind fun _ _ hl' => endsIn_setState hl'

theorem endsIn_nodeStart (start : ServerStart β) :
    EndsIn n (nodeStart n start : Prog κ β Unit) h
      ((h.life n).start start.created start.started) := by
  refine EndsIn.locked _ (EndsIn.perform ?_)
  show EndsIn n (if (h.life n).state = .stopped then _ else _) h _
  unfold Life.start
  by_cases hstate : (h.life n).state = .stopped
  · rw [if_pos hstate, if_pos hstate]
    obtain ⟨h', hexec, hl⟩ := exec_nodeStartServer (n := n) h start
    exact .of_exec hexec (endsIn_setState hl)
  · rw [if_neg hstate, if_neg hstate]
    exact endsIn_of_keeps (keeps_pure ()) rfl

theorem endsIn_nodeDestroy : EndsIn n (nodeDestroy n : Prog κ β Unit) h (h.life n).destroy := by
  have hexec : (locked (.node n) (perform fun h =>
      ((h.nodes n).drop.1, h.modifyNode n fun nd => nd.drop.2)) : Prog κ β Bool).exec h =
      some ((h.nodes n).drop.1, h.modifyNode n fun nd => nd.drop.2) := by
    rw [exec_locked, exec_perform]
  have hlife : (h.modifyNode n fun nd => nd.drop.2).life n = _ := Objects.life_modifyNode _ h
  refine .of_exec hexec ?_
  unfold Life.destroy
  -- Only the first call drops the reference, and it stops a node that is still active.
  by_cases hvalid : (h.life n).valid = true
  · have hdrop : (h.nodes n).drop = (decide ((h.life n).refCount ≤ 1 ∧
        (h.life n).state = .active), { h.nodes n with
          valid := false, refCount := (h.nodes n).refCount - 1 }) := by
      rw [NodeObj.drop, if_pos (show (h.nodes n).valid = true from hvalid)]
      rfl
    have hinv : (h.modifyNode n fun nd => nd.drop.2).life n = (h.life n).invalidate := by
      rw [hlife, hdrop]
      rfl
    rw [if_pos hvalid, hdrop]
    by_cases hstop : (h.life n).refCount ≤ 1 ∧ (h.life n).state = .active
    · rw [if_pos (decide_eq_true hstop), if_pos hstop, ← hinv]
      exact endsIn_nodeStop.bind_keeps fun _ => .locked _ (keeps_pure ())
    · rw [if_neg (by simpa using hstop), if_neg hstop]
      exact endsIn_of_keeps (keeps_pure ()) hinv
  · have hdrop : (h.nodes n).drop = (false, h.nodes n) := by
      rw [NodeObj.drop, if_neg (show ¬ (h.nodes n).valid = true from hvalid)]
    rw [if_neg hvalid]
    refine endsIn_of_keeps ?_ (hlife.trans ?_)
    · rw [hdrop]
      exact keeps_pure ()
    · rw [hdrop]
      rfl

end EndsIn

end Ssn
