import SsnIpc.Client.AutoReconnect
import SsnIpc.Client.State
import SsnIpc.Lib.Locking
import SsnIpc.Server.Input

/-!
# Nodes, clients and servers in memory

The objects that the functions of the layers work on, each with its mutex: nodes, clients, servers
and auto-clients, as many as a program makes. A node points to its client and its server, an
auto-client to its client. References to clients and servers are counted; they are freed when the
count comes to zero after they were closed.

A function of a layer is code of a thread (`Prog`): it takes and releases mutexes, and calls user
callbacks. The timer threads count down the timers of clients and servers (`sweep`), under the
mutex of the object. The memory of a freed object is not modelled: it stays as it was.
-/

namespace Ssn

open ByteMem Locking Locking.Code

/-- The locks. None of them is recursive. -/
inductive Mutex
  /-- `cliauto->mutex`. -/
  | auto (a : Nat)
  /-- `node->lock`. -/
  | node (n : Nat)
  /-- `client->lock`. -/
  | client (c : Nat)
  /-- `client->spin`. -/
  | spin (c : Nat)
  /-- `server->lock`. -/
  | server (s : Nat)
  /-- `g_ssn_client_lock`, of the list of clients. -/
  | clientList
  /-- `g_ssn_server_lock`, of the list of servers. -/
  | serverList
  deriving DecidableEq

/-- `ssn_client_t`. -/
structure ClientObj (κ : Type) where
  core : SsnClient κ
  valid : Bool
  refCount : Nat

/-- `ssn_server_t`; `started` tells whether it has a transport. -/
structure ServerObj (β : Type) where
  world : World β
  valid : Bool
  refCount : Nat
  started : Bool

/-- `ssn_node_state_t`. -/
inductive NodeState
  | stopped
  | active
  | error
  deriving DecidableEq

/-- `ssn_node_t`. -/
structure NodeObj where
  state : NodeState
  valid : Bool
  refCount : Nat
  capabilities : UInt32
  server : Option Nat
  client : Option Nat
  peerAddress : Bytes

/-- `ssn_client_auto_t`; `keepalive` and `connTimeout` are in milliseconds. -/
structure AutoObj where
  client : Option Nat
  hasOnconn : Bool
  urls : List Bytes
  keepalive : Nat
  connTimeout : Nat
  state : AutoState
  running : Bool
  pingLost : Nat

/-- An auto-client as `ssn_client_auto_create` sets it up. -/
def AutoObj.create : AutoObj where
  client := none
  hasOnconn := false
  urls := []
  keepalive := 0
  connTimeout := 0
  state := .idle
  running := false
  pingLost := 0

/-- The objects by address, and the addresses that are free from there on. -/
structure Objects (κ β : Type) where
  clients : Nat → ClientObj κ
  servers : Nat → ServerObj β
  nodes : Nat → NodeObj
  autos : Nat → AutoObj
  newClient : Nat
  newServer : Nat
  newNode : Nat
  newAuto : Nat

variable {κ β α : Type}

namespace Objects

def modifyClient (h : Objects κ β) (c : Nat) (f : ClientObj κ → ClientObj κ) : Objects κ β :=
  { h with clients := Function.update h.clients c (f (h.clients c)) }

def modifyServer (h : Objects κ β) (s : Nat) (f : ServerObj β → ServerObj β) : Objects κ β :=
  { h with servers := Function.update h.servers s (f (h.servers s)) }

def modifyNode (h : Objects κ β) (n : Nat) (f : NodeObj → NodeObj) : Objects κ β :=
  { h with nodes := Function.update h.nodes n (f (h.nodes n)) }

def modifyAuto (h : Objects κ β) (a : Nat) (f : AutoObj → AutoObj) : Objects κ β :=
  { h with autos := Function.update h.autos a (f (h.autos a)) }

inductive Sweep
  | client (c : Nat)
  | server (s : Nat)

def sweep (e : Sweep) (h : Objects κ β) : Objects κ β :=
  match e with
  | .client c => h.modifyClient c fun o => { o with core := o.core.timerSweep }
  | .server s => h.modifyServer s fun o => { o with world := o.world.timerSweep }

/-- The mutex that the timer thread takes for it. -/
def Sweep.mutex : Sweep → Mutex
  | .client c => .client c
  | .server s => .server s

end Objects

abbrev Prog (κ β α : Type) : Type 1 := Code Mutex (Objects κ β) α

def readClient (c : Nat) : Prog κ β (ClientObj κ) := gets fun h => h.clients c

def readServer (s : Nat) : Prog κ β (ServerObj β) := gets fun h => h.servers s

def readNode (n : Nat) : Prog κ β NodeObj := gets fun h => h.nodes n

def readAuto (a : Nat) : Prog κ β AutoObj := gets fun h => h.autos a

def onClient (c : Nat) (f : ClientObj κ → α × ClientObj κ) : Prog κ β α :=
  perform fun h => ((f (h.clients c)).1, h.modifyClient c fun o => (f o).2)

def modifyCore (c : Nat) (f : SsnClient κ → SsnClient κ) : Prog κ β Unit :=
  onClient c fun o => ((), { o with core := f o.core })

def onServer (s : Nat) (f : ServerObj β → ServerObj β) : Prog κ β Unit :=
  modify fun h => h.modifyServer s f

def modifyWorld (s : Nat) (f : World β → World β) : Prog κ β Unit :=
  onServer s fun o => { o with world := f o.world }

def onNode (n : Nat) (f : NodeObj → NodeObj) : Prog κ β Unit := modify fun h => h.modifyNode n f

def onAuto (a : Nat) (f : AutoObj → AutoObj) : Prog κ β Unit := modify fun h => h.modifyAuto a f

def forEach {ι : Type} (f : ι → Prog κ β Unit) : List ι → Prog κ β Unit
  | [] => pure ()
  | i :: is => do
    f i
    forEach f is

/-! ## Facts that the timers keep -/

abbrev Fact (κ β : Type) :=
  Assertion (Objects.sweep : Objects.Sweep → Objects κ β → Objects κ β)

/-- A property of a client that its timer keeps. -/
structure ClientFact (κ : Type) where
  holds : ClientObj κ → Prop
  sweep_keeps : ∀ o, holds o → holds { o with core := o.core.timerSweep }

instance : CoeFun (ClientFact κ) fun _ => ClientObj κ → Prop := ⟨ClientFact.holds⟩

theorem Objects.clients_modifyClient (h : Objects κ β) (c c' : Nat)
    (f : ClientObj κ → ClientObj κ) :
    (h.modifyClient c f).clients c' = if c' = c then f (h.clients c') else h.clients c' := by
  show Function.update h.clients c _ c' = _
  split_ifs with hc
  · rw [hc, Function.update_self]
  · rw [Function.update_of_ne hc]

/-- The client at `c` has the property. -/
def ClientFact.at (P : ClientFact κ) (c : Nat) : Fact κ β where
  holds h := P (h.clients c)
  tick_keeps := by
    intro e h hP
    cases e with
    | client c' =>
      show P ((h.modifyClient c' fun o => { o with core := o.core.timerSweep }).clients c)
      rw [Objects.clients_modifyClient]
      split_ifs
      · exact P.sweep_keeps _ hP
      · exact hP
    | server s => exact hP

/-- An action on a client, by what it does to it. -/
theorem triple_onClient {held : List Mutex} {c : Nat} {P : ClientFact κ} {Q : α → ClientFact κ}
    {f : ClientObj κ → α × ClientObj κ} (hf : ∀ o, P o → Q (f o).1 (f o).2) :
    Triple Objects.sweep held (P.at c) (onClient c f : Prog κ β α) held fun a => (Q a).at c := by
  refine .perform fun h hP => ?_
  show Q (f (h.clients c)).1 ((h.modifyClient c fun o => (f o).2).clients c)
  rw [Objects.clients_modifyClient, if_pos rfl]
  exact hf _ hP

end Ssn
