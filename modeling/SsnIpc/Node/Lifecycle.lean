import SsnIpc.Layers.NodeLife
import SsnIpc.Layers.Locks

/-!
# A node that is stopped, and a node that is destroyed

The client of a node is made when it is first needed, in whatever state the node is. A node that is
stopped already is not stopped again, and `ssn_node_destroy` stops a node only if it is active.

**Theorem (`released_iff`).** Take any sequence of operations on a node, and `ssn_node_destroy` at
the end. The node has neither client nor server whenever it is stopped, and all that it ever made is
closed in the end, exactly when no operation that needs the client is called on a stopped node
(unless the node is no client at all), and the node is active or has no client when it is destroyed.

The invariant (`Life.Inv`) holds without conditions: of the clients that the node has made the one
it points to is open and no other (`Owned`), likewise of the servers, and only an active node has a
server.
-/

namespace Ssn

open ByteMem Locking Locking.Code

variable {κ β : Type}

/-! ## Operations -/

/-- The operations on a node that was created, with what they meet. -/
inductive NodeOp (κ β : Type)
  | start (start : ServerStart β)
  | stop
  | sendToPeer (peer url : Bytes) (data : Option Ref) (fd : Option Nat) (sent : Bool)
  | subscribe (peer url : Bytes) (handler : κ) (timeoutMs : Nat) (fd : Option Nat) (sent : Bool)
  | rpcCall (peer url : Bytes) (handler : Option κ) (timeoutMs : Nat) (fd : Option Nat)
      (sent : Bool)
  | poll (serverInput : Option ServerPollInput) (clientInput : ClientPollInput)
  | getClient

namespace NodeOp

def code (net : Nat → Nat → SendStep) (n : Nat) : NodeOp κ β → Prog κ β Unit
  | start init => nodeStart n init
  | stop => nodeStop n
  | sendToPeer peer url data fd sent => nodeSendToPeer n peer url data fd sent
  | subscribe peer url handler timeoutMs fd sent =>
    nodeSubscribe n peer url handler timeoutMs fd sent
  | rpcCall peer url handler timeoutMs fd sent =>
    nodeRpcCall n peer url handler timeoutMs fd sent
  | poll serverInput clientInput => nodePoll net n serverInput clientInput
  | getClient => do
    let _ ← nodeGetClient n
    pure ()

/-- The operations that need the client. -/
def usesClient : NodeOp κ β → Bool
  | sendToPeer .. => true
  | subscribe .. => true
  | rpcCall .. => true
  | getClient => true
  | _ => false

/-- What an operation does to the life of its node. -/
def life (l : Life) : NodeOp κ β → Life
  | start init => l.start init.created init.started
  | stop => l.stop
  | poll .. => l
  | _ => l.getClient

end NodeOp

def after (x : Prog κ β Unit) (h : Objects κ β) : Objects κ β := (x.exec h).elim h Prod.snd

theorem EndsIn.after {n : Nat} {x : Prog κ β Unit} {h : Objects κ β} {l : Life}
    (hx : EndsIn n x h l) : (Ssn.after x h).life n = l := by
  obtain ⟨a, h', hexec, hl⟩ := hx
  rw [Ssn.after, hexec]
  exact hl

/-- The code does what `NodeOp.life` says. -/
theorem endsIn_code (net : Nat → Nat → SendStep) {n : Nat} {h : Objects κ β} (op : NodeOp κ β) :
    EndsIn n (op.code net n) h (op.life (h.life n)) := by
  cases op with
  | start init => exact endsIn_nodeStart init
  | stop => exact endsIn_nodeStop
  | sendToPeer peer url data fd sent =>
    exact endsIn_nodeToPeer peer fd fun c => keeps_clientMessage url data sent
  | subscribe peer url handler timeoutMs fd sent =>
    exact endsIn_nodeToPeer peer fd fun c => keeps_clientSubscribe url (some handler) timeoutMs sent
  | rpcCall peer url handler timeoutMs fd sent =>
    exact endsIn_nodeToPeer peer fd fun c => keeps_clientCall url handler timeoutMs sent
  | poll serverInput clientInput => exact endsIn_of_keeps (keeps_nodePoll net _ _) rfl
  | getClient => exact endsIn_nodeGetClient.bind_keeps fun _ => keeps_pure ()

def nodeStep (net : Nat → Nat → SendStep) (n : Nat) (h : Objects κ β) (op : NodeOp κ β) :
    Objects κ β :=
  after (op.code net n) h

/-! ## What the node holds -/

/-- Of the objects that were made from `base` on, up to `next`, the one pointed to is open and no
other. -/
structure Owned (base next : Nat) (isOpen : Nat → Bool) (pointer : Option Nat) : Prop where
  le : base ≤ next
  iff : ∀ i, pointer = some i ↔ base ≤ i ∧ i < next ∧ isOpen i = true

namespace Owned

variable {base next : Nat} {isOpen : Nat → Bool} {pointer : Option Nat}

theorem make (h : Owned base next isOpen none) :
    Owned base (next + 1) (Function.update isOpen next true) (some next) := by
  refine ⟨Nat.le_succ_of_le h.le, fun i => ?_⟩
  by_cases hi : i = next
  · subst hi
    simp [h.le]
  · have hclosed := (h.iff i).not.1 (by simp)
    rw [Function.update_of_ne hi]
    constructor
    · intro heq
      exact absurd (Option.some.inj heq).symm hi
    · rintro ⟨hlow, hhigh, hopen⟩
      exact absurd ⟨hlow, by omega, hopen⟩ hclosed

theorem close {i : Nat} (h : Owned base next isOpen (some i)) :
    Owned base next (Function.update isOpen i false) none := by
  refine ⟨h.le, fun j => ?_⟩
  by_cases hj : j = i
  · subst hj
    simp
  · have hclosed := (h.iff j).not.1 (by simpa using Ne.symm hj)
    rw [Function.update_of_ne hj]
    simpa using hclosed

/-- Everything is closed exactly when nothing is pointed to. -/
theorem closed_iff (h : Owned base next isOpen pointer) :
    (∀ i, base ≤ i → i < next → isOpen i = false) ↔ pointer = none := by
  constructor
  · intro hclosed
    cases hp : pointer with
    | none => rfl
    | some i =>
      obtain ⟨hlow, hhigh, hopen⟩ := (h.iff i).1 hp
      rw [hclosed i hlow hhigh] at hopen
      cases hopen
  · intro hnone i hlow hhigh
    have hno := (h.iff i).not.1 (by simp [hnone])
    simpa [hlow, hhigh] using hno

end Owned

namespace Life

/-- A stopped node has neither client nor server. -/
def Bare (l : Life) : Prop := l.state = .stopped → l.client = none ∧ l.server = none

/-- All clients from `c₀` and servers from `s₀` on are closed. -/
def Closed (c₀ s₀ : Nat) (l : Life) : Prop :=
  (∀ c, c₀ ≤ c → c < l.newClient → l.clientOpen c = false) ∧
    ∀ s, s₀ ≤ s → s < l.newServer → l.serverOpen s = false

/-- An operation that needs the client is not called on a stopped node, unless the node has no
client at all. -/
def Admits (l : Life) (op : NodeOp κ β) : Prop :=
  op.usesClient = true → l.state = .stopped → l.capabilities &&& capClient = 0

def Ending (l : Life) : Prop := l.state = .active ∨ l.client = none

/-- What holds of a node that was created and not destroyed. -/
structure Inv (c₀ s₀ : Nat) (l : Life) : Prop where
  valid : l.valid = true
  refCount : l.refCount = 1
  client : Owned c₀ l.newClient l.clientOpen l.client
  server : Owned s₀ l.newServer l.serverOpen l.server
  active : ∀ s, l.server = some s → l.state = .active

theorem client_dropClient (l : Life) : l.dropClient.client = none := by
  unfold dropClient
  split
  · assumption
  · rfl

theorem server_dropServer (l : Life) : l.dropServer.server = none := by
  unfold dropServer
  split
  · assumption
  · rfl

theorem server_dropClient (l : Life) : l.dropClient.server = l.server := by
  unfold dropClient
  split <;> rfl

theorem none_of_stop (l : Life) (hstate : l.state ≠ .stopped) :
    l.stop.client = none ∧ l.stop.server = none := by
  rw [stop, if_neg hstate]
  constructor
  · show l.dropServer.dropClient.client = none
    rw [client_dropClient]
  · show l.dropServer.dropClient.server = none
    rw [server_dropClient, server_dropServer]

theorem stop_invalidate (l : Life) : l.invalidate.stop = l.stop.invalidate := by
  have hdrop : l.invalidate.dropServer.dropClient = l.dropServer.dropClient.invalidate := by
    obtain ⟨state, valid, refCount, capabilities, server, client, _, _, _, _⟩ := l
    cases server <;> cases client <;> rfl
  unfold stop
  show (if l.state = .stopped then _ else _) = _
  split_ifs
  · rfl
  · rw [hdrop]
    rfl

theorem Bare.stop {l : Life} (hbare : l.Bare) : l.stop.Bare := by
  intro hstopped
  by_cases hstate : l.state = .stopped
  · rw [Life.stop, if_pos hstate]
    exact hbare hstate
  · exact l.none_of_stop hstate

theorem Bare.start {l : Life} (hbare : l.Bare) (created started : Bool) :
    (l.start created started).Bare := by
  unfold Life.start
  by_cases hstate : l.state = .stopped
  · rw [if_pos hstate]
    intro hstopped
    exfalso
    revert hstopped
    show ¬ (if (l.startServer created started).1 = true then NodeState.active else .error) =
      .stopped
    split_ifs <;> simp
  · rw [if_neg hstate]
    exact hbare

theorem Bare.getClient_iff {l : Life} (hbare : l.Bare) :
    l.getClient.Bare ↔ (l.state = .stopped → l.capabilities &&& capClient = 0) := by
  unfold Life.getClient
  split_ifs with hget
  · have hnot : ¬ (l.capabilities &&& capClient = 0) := hget.2
    simp only [hnot, imp_false]
    constructor
    · intro hmade hstate
      cases (hmade hstate).1
    · intro hstate hstopped
      exact absurd hstopped hstate
  · refine iff_of_true hbare fun hstate => ?_
    by_contra hcap
    exact hget ⟨(hbare hstate).1, hcap⟩

/-- An operation leaves a node that is stopped bare exactly when it is admitted. -/
theorem Bare.step_iff {l : Life} (hbare : l.Bare) (op : NodeOp κ β) :
    (op.life l).Bare ↔ l.Admits op := by
  cases op with
  | start init => exact iff_of_true (hbare.start _ _) (fun huse => by cases huse)
  | stop => exact iff_of_true hbare.stop (fun huse => by cases huse)
  | poll serverInput clientInput => exact iff_of_true hbare (fun huse => by cases huse)
  | _ => exact hbare.getClient_iff.trans ⟨fun h _ => h, fun h => h rfl⟩

namespace Inv

variable {c₀ s₀ : Nat} {l : Life}

theorem dropServer (h : l.Inv c₀ s₀) : l.dropServer.Inv c₀ s₀ := by
  unfold Life.dropServer
  cases hs : l.server with
  | none => exact h
  | some s => exact ⟨h.valid, h.refCount, h.client, (hs ▸ h.server).close, by simp [setServer]⟩

theorem dropClient (h : l.Inv c₀ s₀) : l.dropClient.Inv c₀ s₀ := by
  unfold Life.dropClient
  cases hc : l.client with
  | none => exact h
  | some c => exact ⟨h.valid, h.refCount, (hc ▸ h.client).close, h.server, h.active⟩

theorem closed_iff (h : l.Inv c₀ s₀) :
    l.Closed c₀ s₀ ↔ l.client = none ∧ l.server = none :=
  and_congr h.client.closed_iff h.server.closed_iff

theorem server_eq_none (h : l.Inv c₀ s₀) (hstate : l.state ≠ .active) : l.server = none := by
  cases hs : l.server with
  | none => rfl
  | some s => exact absurd (h.active s hs) hstate

theorem setState (h : l.Inv c₀ s₀) (hnone : l.server = none) (state : NodeState) :
    (l.setState state).Inv c₀ s₀ := by
  refine ⟨h.valid, h.refCount, h.client, h.server, fun s hs => ?_⟩
  rw [show l.server = some s from hs] at hnone
  cases hnone

theorem startServer (h : l.Inv c₀ s₀) (hnone : l.server = none) (created started : Bool) :
    ((l.startServer created started).2.setState
      (if (l.startServer created started).1 then .active else .error)).Inv c₀ s₀ := by
  have hmake := (hnone ▸ h.server).make
  unfold Life.startServer
  by_cases hcap : l.capabilities &&& capServer = 0
  · rw [if_pos hcap]
    exact h.setState hnone _
  · rw [if_neg hcap]
    cases created with
    | false => exact h.setState hnone _
    | true =>
      cases started with
      | true => exact ⟨h.valid, h.refCount, h.client, hmake, fun _ _ => rfl⟩
      | false => exact ⟨h.valid, h.refCount, h.client, hmake.close, fun _ hs => by cases hs⟩

theorem start (h : l.Inv c₀ s₀) (created started : Bool) :
    (l.start created started).Inv c₀ s₀ := by
  unfold Life.start
  by_cases hstate : l.state = .stopped
  · rw [if_pos hstate]
    exact h.startServer (h.server_eq_none (by simp [hstate])) created started
  · rw [if_neg hstate]
    exact h

theorem stop (h : l.Inv c₀ s₀) : l.stop.Inv c₀ s₀ := by
  unfold Life.stop
  split_ifs
  · exact h
  · refine h.dropServer.dropClient.setState ?_ .stopped
    rw [server_dropClient, server_dropServer]

theorem getClient (h : l.Inv c₀ s₀) : l.getClient.Inv c₀ s₀ := by
  unfold Life.getClient
  split_ifs with hget
  · exact ⟨h.valid, h.refCount, (hget.1 ▸ h.client).make, h.server, h.active⟩
  · exact h

theorem step (h : l.Inv c₀ s₀) (op : NodeOp κ β) : (op.life l).Inv c₀ s₀ := by
  cases op with
  | start init => exact h.start _ _
  | stop => exact h.stop
  | poll serverInput clientInput => exact h
  | _ => exact h.getClient

/-- A node that is destroyed leaves nothing open exactly when it is active, or has no client. -/
theorem closed_destroy_iff (h : l.Inv c₀ s₀) : l.destroy.Closed c₀ s₀ ↔ l.Ending := by
  rw [Life.destroy, if_pos h.valid]
  by_cases hactive : l.state = .active
  · rw [if_pos ⟨Nat.le_of_eq h.refCount, hactive⟩, stop_invalidate]
    refine iff_of_true (h.stop.closed_iff.2 ?_) (.inl hactive)
    exact l.none_of_stop (by simp [hactive])
  · rw [if_neg fun hstop => hactive hstop.2]
    have hending : l.Ending ↔ l.client = none := by simp [Ending, hactive]
    rw [hending]
    exact h.closed_iff.trans (and_iff_left (h.server_eq_none hactive))

end Inv

end Life

/-! ## Runs -/

/-- Memory after `ssn_node_create`. -/
def created (h : Objects κ β) (capabilities : UInt32) : Objects κ β :=
  after (nodeCreate capabilities) h

theorem Owned.start (base : Nat) (isOpen : Nat → Bool) : Owned base base isOpen none := by
  refine ⟨Nat.le_refl base, fun i => ?_⟩
  simp only [reduceCtorEq, false_iff]
  omega

theorem life_created (h : Objects κ β) (capabilities : UInt32) :
    ((created h capabilities).life h.newNode).Inv h.newClient h.newServer ∧
      ((created h capabilities).life h.newNode).Bare := by
  have hnode : (created h capabilities).nodes h.newNode = .create capabilities :=
    Function.update_self ..
  refine ⟨⟨?_, ?_, ?_, ?_, ?_⟩, ?_⟩
  · simp [Objects.life, hnode, NodeObj.create]
  · simp [Objects.life, hnode, NodeObj.create]
  · simp only [Objects.life, hnode]
    exact Owned.start _ _
  · simp only [Objects.life, hnode]
    exact Owned.start _ _
  · simp [Objects.life, hnode, NodeObj.create]
  · simp [Life.Bare, Objects.life, hnode, NodeObj.create]

theorem life_nodeStep (net : Nat → Nat → SendStep) (n : Nat) (h : Objects κ β) (op : NodeOp κ β) :
    (nodeStep net n h op).life n = op.life (h.life n) :=
  (endsIn_code net op).after

theorem inv_run (net : Nat → Nat → SendStep) (h : Objects κ β) (capabilities : UInt32)
    (ops : List (NodeOp κ β)) :
    ((Runs.run (nodeStep net h.newNode) (created h capabilities) ops).life h.newNode).Inv
      h.newClient h.newServer := by
  have hstep (h' : Objects κ β) (op : NodeOp κ β)
      (hinv : (h'.life h.newNode).Inv h.newClient h.newServer) (_ : True) :
      ((nodeStep net h.newNode h' op).life h.newNode).Inv h.newClient h.newServer := by
    rw [life_nodeStep]
    exact hinv.step op
  exact Runs.run_invariant hstep (life_created h capabilities).1 Runs.eachStep_true

/-- **Stopped and destroyed nodes.** A node is created and any operations are called on it. It has
neither client nor server in every state in which it is stopped, and all clients and servers that
it made are closed after `ssn_node_destroy`, exactly when no operation that needs the client is
called while a node with the capability is stopped, and the node is active or has no client when it
is destroyed. -/
theorem released_iff (net : Nat → Nat → SendStep) (h : Objects κ β) (capabilities : UInt32)
    (ops : List (NodeOp κ β)) :
    (Runs.Always (nodeStep net h.newNode) (fun h' => (h'.life h.newNode).Bare)
        (created h capabilities) ops ∧
      ((after (nodeDestroy h.newNode)
        (Runs.run (nodeStep net h.newNode) (created h capabilities) ops)).life h.newNode).Closed
          h.newClient h.newServer) ↔
    Runs.EachStep (nodeStep net h.newNode) (fun h' op => (h'.life h.newNode).Admits op)
        (created h capabilities) ops ∧
      ((Runs.run (nodeStep net h.newNode) (created h capabilities) ops).life h.newNode).Ending := by
  have hstep (h' : Objects κ β) (op : NodeOp κ β) (hbare : (h'.life h.newNode).Bare) :
      ((nodeStep net h.newNode h' op).life h.newNode).Bare ↔ (h'.life h.newNode).Admits op := by
    rw [life_nodeStep]
    exact hbare.step_iff op
  refine and_congr ?_ ?_
  · exact Runs.always_iff_eachStep (fun h' op hbare _ hok => (hstep h' op hbare).2 hok)
      (fun _ hbare => hbare) (fun h' op hbare _ hbad hnext => hbad ((hstep h' op hbare).1 hnext))
      (life_created h capabilities).2 Runs.eachStep_true
  · rw [endsIn_nodeDestroy.after]
    exact (inv_run net h capabilities ops).closed_destroy_iff

/-- The client is asked for before the node is started: the node is stopped and has a client, and
the client stays open when the node is destroyed. -/
theorem early_client_left :
    ¬ Runs.Always (nodeStep acceptAll 0) (fun h' => (h'.life 0).Bare)
      (created (.empty : Objects Unit Unit) 0) [.getClient] ∧
    ¬ ((after (nodeDestroy 0) (Runs.run (nodeStep acceptAll 0)
      (created (.empty : Objects Unit Unit) 0) [.getClient])).life 0).Closed 0 0 := by
  constructor
  · intro hbare
    cases (hbare [.getClient] List.prefix_rfl rfl).1
  · intro hclosed
    cases hclosed.1 0 (Nat.le_refl 0) Nat.one_pos

end Ssn
