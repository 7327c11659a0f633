import SsnIpc.Client.SendTimeout
import SsnIpc.Node.Comm
import SsnIpc.Transport.Grammar

/-!
# The address check

A node refuses a call to a peer while its client is connected to another one. It remembers the
peer in `peer_address`, which has 128 bytes, and compares the remembered text with the address of
the call.

**Theorem (`peerCheck_iff`).** Node calls are made one after the other, in any order and with
whatever they meet. While the client is connected through a call that named `A`, a call that names
`B` is refused exactly if `B` is not what `peer_address` keeps of `A`. So the check is right for all
`B` exactly if `A` has fewer than 128 bytes; otherwise `A` itself is refused.

The invariant (`Inv`): whenever the client is connected, `peer_address` has the first 127 bytes of
the address that the call which connected it named. Connections that end leave `peer_address` as
it is, and the next one overwrites it.
-/

namespace Ssn

open ByteMem CString

variable {κ β : Type*}

/-! ## Node calls -/

/-- The calls of a node, without those that only look at it. `start` meets a server that is made
(or not to be made), or fails; `poll` is what its server and its client meet. -/
inductive CommOp (κ β : Type*)
  | start (made : Option (Option (NodeServer β)))
  | stop
  | getClient (created : Bool)
  | sendToPeer (peer url : Option Bytes) (data : Option Ref) (m : NodeMeets)
  | subscribe (peer url : Option Bytes) (callback : Option κ) (timeoutMs : Nat) (m : NodeMeets)
  | rpcCall (peer url : Option Bytes) (data : Option Ref) (callback : Option κ) (timeoutMs : Nat)
      (m : NodeMeets)
  | unsubscribe (url : Option Bytes) (timeoutMs : Nat) (net : Nat → Nat → SendStep)
  | publish (url : Option Bytes) (data : Option Ref) (net : Nat → Nat → SendStep)
  | onServer (change : World β → World β)
  | setClientMessageHandler (callback : Option κ)
  | poll (net : Nat → Nat → SendStep) (serverOps : List ServerOp) (outcome : PollOutcome)

namespace CommNode

variable (r : Resolver) (nd : CommNode κ β)

/-- `ssn_node_start`. -/
def start (made : Option (Option (NodeServer β))) : CommNode κ β :=
  match nd.state, made with
  | .stopped, some server => { nd with state := .active, server }
  | .stopped, none => { nd with state := .error, server := none }
  | _, _ => nd

/-- `ssn_node_stop`: `peer_address` stays. -/
def stop : CommNode κ β :=
  if nd.state = .stopped then nd
  else ⟨{ nd.toClientNode with client := none }, .stopped, none⟩

/-- `ssn_node_add_rpc_method`, `ssn_node_remove_rpc_method`, `ssn_node_set_connect_handler` and
`ssn_node_set_message_handler`: what they change is in the server. -/
def onServer (change : World β → World β) : CommNode κ β :=
  { nd with server := nd.server.map fun s => { s with world := change s.world } }

/-- `ssn_node_set_client_message_handler`. -/
def setClientMessageHandler (callback : Option κ) : CommNode κ β :=
  { nd with client := nd.client.map fun c => c.setClient { c.client with onmsg := callback } }

/-- `ssn_node_poll`. -/
def poll (net : Nat → Nat → SendStep) (serverOps : List ServerOp) (outcome : PollOutcome) :
    CommNode κ β :=
  { nd with
    server := nd.server.map fun s => { s with world := Runs.run (World.step net) s.world serverOps }
    client := nd.client.map fun c => c.poll outcome }

def step : CommOp κ β → CommNode κ β
  | .start made => nd.start made
  | .stop => nd.stop
  | .getClient created => { nd with client := nd.toClientNode.getClient created }
  | .sendToPeer peer url data m => (nd.sendToPeer r peer url data m).1
  | .subscribe peer url callback timeoutMs m => (nd.subscribe r peer url callback timeoutMs m).1
  | .rpcCall peer url data callback timeoutMs m =>
    (nd.rpcCall r peer url data callback timeoutMs m).1
  | .unsubscribe url timeoutMs net => (nd.unsubscribe url timeoutMs net).1
  | .publish url data net => (nd.publish url data net).1
  | .onServer change => nd.onServer change
  | .setClientMessageHandler callback => nd.setClientMessageHandler callback
  | .poll net serverOps outcome => nd.poll net serverOps outcome

def isConnect : Bool := nd.client.any fun c => c.client.connected

/-- The address check of `connect_to_peer` refuses the peer. -/
def refuses (peer : Bytes) : Bool := nd.client.any fun c => !nd.connectToPeer c peer

/-- The address that a call connects the client to, if it does. -/
def connectsTo : CommOp κ β → Option Bytes
  | .sendToPeer (some peer) (some _) _ m => connects peer m
  | .subscribe (some peer) (some _) (some _) _ m => connects peer m
  | .rpcCall (some peer) (some _) _ _ _ m => connects peer m
  | _ => none
where
  connects (peer : Bytes) (m : NodeMeets) : Option Bytes :=
    if nd.isConnect = false ∧ (nd.toPeer r peer m).2.isSome then some peer else none

end CommNode

/-- A node, and the address named by the call that last connected its client. -/
structure NamedNode (κ β : Type*) where
  node : CommNode κ β
  named : Option Bytes

namespace NamedNode

def create : NamedNode κ β := ⟨.create, none⟩

def step (r : Resolver) (s : NamedNode κ β) (op : CommOp κ β) : NamedNode κ β :=
  ⟨s.node.step r op, (s.node.connectsTo r op).or s.named⟩

def connectedThrough (s : NamedNode κ β) : Option Bytes :=
  if s.node.isConnect then s.named else none

end NamedNode

/-! ## Clients -/

namespace ClientWorld

variable {c : ClientWorld κ} {net : Nat → Nat → SendStep}

theorem offline_fst (h : c.client.connected = false) (url : Bytes) :
    (∀ data, (c.clientMessage net url data).1 = c) ∧
      (∀ data callback timeoutMs, (c.clientCall net url data callback timeoutMs).1 = c) ∧
      (∀ callback timeoutMs mem polls,
        (c.clientSubscribe net url callback timeoutMs mem polls).1 = c) ∧
      ∀ timeoutMs, (c.clientUnsubscribe net url timeoutMs).1 = c := by
  refine ⟨fun data => ?_, fun data callback timeoutMs => ?_,
    fun callback timeoutMs mem polls => ?_, fun timeoutMs => ?_⟩
  · rw [clientMessage_fst]
    simp [message, h]
  · simp [clientCall, callEx, h]
  · simp [clientSubscribe, subscribeAmid, h]
  · simp [clientUnsubscribe, unsubscribe, h]

theorem connected_poll (h : c.client.connected = false) (outcome : PollOutcome) :
    (c.poll outcome).client.connected = false := by
  cases outcome with
  | idle => exact h
  | ready sock =>
    have hevents : c.processEvents sock = (c.handleEvent, true) := by simp [processEvents, h]
    rw [poll, hevents]
    exact (congrArg Link.connected quiet_handleEvent.link).trans h

end ClientWorld

/-! ## Calls to peers -/

namespace CommNode

variable {r : Resolver} {nd : CommNode κ β} {peer : Bytes} {m : NodeMeets} {c c' : ClientWorld κ}

theorem isConnect_of_client (h : nd.client = some c) : nd.isConnect = c.client.connected := by
  rw [isConnect, h]
  rfl

theorem connected_of_getClient {created : Bool} (h : nd.getClient created = some c)
    (hc : c.client.connected = true) : nd.client = some c := by
  unfold ClientNode.getClient at h
  split at h
  · rename_i hclient
    rw [hclient, ← h]
  · split_ifs at h
    obtain rfl := Option.some.inj h
    cases hc

theorem accepted_of_connect {run : ConnectRun} {timeoutMs : Option Nat}
    (h : (c.connect timeoutMs (run.to r peer)).2 = true) : (addressParse r peer).isSome = true := by
  by_contra hnot
  rw [ConnectRun.to, if_neg hnot] at h
  cases h

/-- How far a call to a peer comes. -/
inductive ToPeer (r : Resolver) (nd : CommNode κ β) (peer : Bytes) :
    CommNode κ β × Option (ClientWorld κ) → Prop
  /-- It is not passed on; a client that is connected then is the one that was. -/
  | stays {nd' : CommNode κ β} : nd'.peerAddress = nd.peerAddress →
      (nd'.isConnect = true → nd'.client = nd.client) → ToPeer r nd peer (nd', none)
  /-- The client was connected. -/
  | there {c : ClientWorld κ} : nd.client = some c → c.client.connected = true →
      ToPeer r nd peer (nd, some c)
  /-- The client is connected by the call. -/
  | connected {nd' : CommNode κ β} {c : ClientWorld κ} : nd.isConnect = false →
      nd'.client = some c → (addressParse r peer).isSome = true →
      nd'.peerAddress = keptAddress peer → ToPeer r nd peer (nd', some c)

theorem ensureConnected_offline (cn : ClientNode κ) (peer : Bytes) (run : ConnectRun)
    (hc : c.client.connected = false) :
    cn.ensureConnected c peer run =
      (if (c.connect (some 3000) run).2 then
          { cn with peerAddress := keptAddress peer }
        else cn, (c.connect (some 3000) run).1, (c.connect (some 3000) run).2) := by
  rw [ClientNode.ensureConnected, if_neg (by rw [hc]; decide)]
  generalize c.connect (some 3000) run = out
  obtain ⟨c', ok⟩ := out
  cases ok <;> rfl

theorem toPeer_of_pass (hget : nd.getClient m.created = some c)
    (hpass : nd.connectToPeer c peer = true) :
    nd.toPeer r peer m =
      let out := nd.toClientNode.ensureConnected c peer (m.run.to r peer)
      ({ nd with toClientNode := { out.1 with client := some out.2.1 } },
        if out.2.2 then some out.2.1 else none) := by
  rw [toPeer, hget]
  exact if_pos hpass

theorem toPeer_of_refused (hget : nd.getClient m.created = some c)
    (hpass : ¬nd.connectToPeer c peer = true) : nd.toPeer r peer m = (nd.setClient c, none) := by
  rw [toPeer, hget]
  exact if_neg hpass

theorem toPeer_spec (r : Resolver) (nd : CommNode κ β) (peer : Bytes) (m : NodeMeets) :
    ToPeer r nd peer (nd.toPeer r peer m) := by
  cases hget : nd.getClient m.created with
  | none =>
    rw [toPeer, hget]
    exact .stays rfl fun _ => rfl
  | some c =>
    by_cases hpass : nd.connectToPeer c peer = true
    · rw [toPeer_of_pass hget hpass]
      cases hc : c.client.connected with
      | true =>
        -- A client that is connected was there before the call.
        have hclient := connected_of_getClient hget hc
        have hnd : ({ nd with toClientNode := { nd.toClientNode with client := some c } } :
            CommNode κ β) = nd := by
          rw [← hclient]
        rw [ClientNode.ensureConnected, if_pos hc]
        dsimp only
        rw [hnd, if_pos rfl]
        exact .there hclient hc
      | false =>
        have hoff : nd.isConnect = false := by
          cases hclient : nd.client with
          | none =>
            rw [isConnect, hclient]
            rfl
          | some c₀ =>
            rw [ClientNode.getClient, hclient] at hget
            cases hget
            rwa [isConnect_of_client hclient]
        have hconn := c.connected_connect (some 3000) (m.run.to r peer)
        have hacc : (c.connect (some 3000) (m.run.to r peer)).2 = true → _ := accepted_of_connect
        rw [ensureConnected_offline _ _ _ hc]
        generalize c.connect (some 3000) (m.run.to r peer) = out at hconn hacc ⊢
        obtain ⟨c', ok⟩ := out
        cases ok with
        | true => exact .connected hoff rfl (hacc rfl) rfl
        | false =>
          refine .stays rfl fun hon => ?_
          rw [isConnect_of_client rfl, hconn] at hon
          cases hon
    · rw [toPeer_of_refused hget hpass]
      refine .stays rfl fun hon => ?_
      rw [isConnect_of_client rfl] at hon
      exact (connected_of_getClient hget hon).symm

theorem sendToPeer_fst (url : Bytes) (data : Option Ref) :
    (nd.sendToPeer r (some peer) (some url) data m).1 =
      (nd.toPeer r peer m).2.elim (nd.toPeer r peer m).1 fun c =>
        (nd.toPeer r peer m).1.setClient (c.clientMessage m.net url data).1 := by
  dsimp only [sendToPeer]
  rcases nd.toPeer r peer m with ⟨nd', _ | c⟩ <;> rfl

theorem subscribe_fst (url : Bytes) (callback : κ) (timeoutMs : Nat) :
    (nd.subscribe r (some peer) (some url) (some callback) timeoutMs m).1 =
      (nd.toPeer r peer m).2.elim (nd.toPeer r peer m).1 fun c =>
        (nd.toPeer r peer m).1.setClient
          (c.clientSubscribe m.net url callback timeoutMs m.mem m.polls).1 := by
  dsimp only [subscribe]
  rcases nd.toPeer r peer m with ⟨nd', _ | c⟩ <;> rfl

theorem rpcCall_fst (url : Bytes) (data : Option Ref) (callback : Option κ) (timeoutMs : Nat) :
    (nd.rpcCall r (some peer) (some url) data callback timeoutMs m).1 =
      (nd.toPeer r peer m).2.elim (nd.toPeer r peer m).1 fun c =>
        (nd.toPeer r peer m).1.setClient (c.clientCall m.net url data callback timeoutMs).1 := by
  dsimp only [rpcCall]
  rcases nd.toPeer r peer m with ⟨nd', _ | c⟩ <;> rfl

/-! ## The remembered address -/

/-- While the client is connected, `peer_address` has what it keeps of the address named, which was
accepted. -/
def Inv (r : Resolver) (nd : CommNode κ β) (named : Option Bytes) : Prop :=
  nd.isConnect = true → ∃ A, named = some A ∧ (addressParse r A).isSome = true ∧
    nd.peerAddress = keptAddress A

variable {named : Option Bytes}

theorem Inv.of_client {nd' : CommNode κ β} (h : nd.Inv r named)
    (haddress : nd'.peerAddress = nd.peerAddress)
    (hclient : nd'.isConnect = true → nd.isConnect = true) : nd'.Inv r named := by
  intro hon
  obtain ⟨A, hA, hacc, hpeer⟩ := h (hclient hon)
  exact ⟨A, hA, hacc, haddress.trans hpeer⟩

theorem Inv.setClient (h : nd.Inv r named) (hc : nd.client = some c)
    (hstay : c.client.connected = false → c'.client.connected = false) :
    (nd.setClient c').Inv r named := by
  refine h.of_client rfl fun hon => ?_
  rw [isConnect_of_client rfl] at hon
  rw [isConnect_of_client hc]
  by_contra hoff
  rw [hstay (Bool.not_eq_true _ ▸ hoff)] at hon
  cases hon

theorem Inv.mapClient {nd' : CommNode κ β} {f : ClientWorld κ → ClientWorld κ}
    (h : nd.Inv r named) (haddress : nd'.peerAddress = nd.peerAddress)
    (hclient : nd'.client = nd.client.map f)
    (hf : ∀ c, c.client.connected = false → (f c).client.connected = false) :
    nd'.Inv r named := by
  cases hc : nd.client with
  | none =>
    refine h.of_client haddress fun hon => ?_
    rw [isConnect, hclient, hc] at hon
    cases hon
  | some c =>
    refine (h.setClient hc (hf c)).of_client haddress fun hon => ?_
    rwa [isConnect, hclient, hc] at hon

theorem Inv.toPeer (h : nd.Inv r named) (m : NodeMeets) :
    (nd.toPeer r peer m).1.Inv r ((connectsTo.connects r nd peer m).or named) ∧
      ∀ c ∈ (nd.toPeer r peer m).2, (nd.toPeer r peer m).1.client = some c := by
  have hspec := nd.toPeer_spec r peer m
  rw [connectsTo.connects]
  generalize nd.toPeer r peer m = out at hspec ⊢
  cases hspec with
  | stays haddress hclient =>
    constructor
    · rw [if_neg fun hsome => Bool.false_ne_true hsome.2, Option.none_or]
      refine h.of_client haddress fun hon => ?_
      have hsame := hclient hon
      rw [isConnect] at hon ⊢
      rwa [hsame] at hon
    · rintro c hc
      cases hc
  | there hclient hc =>
    constructor
    · rw [if_neg fun hoff => ?_, Option.none_or]
      · exact h
      · rw [isConnect_of_client hclient, hc] at hoff
        exact Bool.false_ne_true hoff.1.symm
    · rintro c hc
      obtain rfl := Option.some.inj hc
      exact hclient
  | connected hoff hclient hacc haddress =>
    constructor
    · rw [if_pos ⟨hoff, rfl⟩]
      exact fun _ => ⟨peer, rfl, hacc, haddress⟩
    · rintro c hc
      obtain rfl := Option.some.inj hc
      exact hclient

/-- A call to a peer, passed on with `f` where it is. -/
theorem Inv.passOn (h : nd.Inv r named) (m : NodeMeets) {f : ClientWorld κ → ClientWorld κ}
    (hf : ∀ c, c.client.connected = false → (f c).client.connected = false) :
    ((nd.toPeer r peer m).2.elim (nd.toPeer r peer m).1 fun c =>
        (nd.toPeer r peer m).1.setClient (f c)).Inv r
      ((connectsTo.connects r nd peer m).or named) := by
  obtain ⟨hinv, hclient⟩ := h.toPeer m
  cases hto : (nd.toPeer r peer m).2 with
  | none => exact hinv
  | some c => exact hinv.setClient (hclient c hto) (hf c)

theorem Inv.step (h : nd.Inv r named) (op : CommOp κ β) :
    (nd.step r op).Inv r ((nd.connectsTo r op).or named) := by
  cases op with
  | start made =>
    show (nd.start made).Inv r named
    unfold start
    split <;> exact h
  | stop =>
    show nd.stop.Inv r named
    unfold stop
    split_ifs
    · exact h
    · intro hon
      cases hon
  | getClient created =>
    refine h.of_client rfl fun hon => ?_
    obtain ⟨c, hget, hc⟩ := (Option.any_eq_true _ _).1 hon
    rw [isConnect_of_client (connected_of_getClient hget hc)]
    exact hc
  | sendToPeer peer url data m =>
    rcases peer with _ | peer
    · exact h
    rcases url with _ | url
    · exact h
    show (nd.sendToPeer r (some peer) (some url) data m).1.Inv r _
    rw [sendToPeer_fst]
    refine h.passOn m fun c hoff => ?_
    rwa [(c.offline_fst hoff url).1 data]
  | subscribe peer url callback timeoutMs m =>
    rcases peer with _ | peer
    · exact h
    rcases url with _ | url
    · exact h
    rcases callback with _ | callback
    · exact h
    show (nd.subscribe r (some peer) (some url) (some callback) timeoutMs m).1.Inv r _
    rw [subscribe_fst]
    refine h.passOn m fun c hoff => ?_
    rwa [(c.offline_fst hoff url).2.2.1 callback timeoutMs m.mem m.polls]
  | rpcCall peer url data callback timeoutMs m =>
    rcases peer with _ | peer
    · exact h
    rcases url with _ | url
    · exact h
    show (nd.rpcCall r (some peer) (some url) data callback timeoutMs m).1.Inv r _
    rw [rpcCall_fst]
    refine h.passOn m fun c hoff => ?_
    rwa [(c.offline_fst hoff url).2.1 data callback timeoutMs]
  | unsubscribe url timeoutMs net =>
    rcases url with _ | url
    · exact h
    show (nd.unsubscribe (some url) timeoutMs net).1.Inv r named
    unfold unsubscribe
    cases hc : nd.client with
    | none => exact h
    | some c =>
      refine h.setClient hc fun hoff => ?_
      rwa [(c.offline_fst hoff url).2.2.2 timeoutMs]
  | publish url data net =>
    show (nd.publish url data net).1.Inv r named
    unfold publish
    split <;> exact h
  | onServer change => exact h
  | setClientMessageHandler callback => exact h.mapClient rfl rfl fun c hoff => hoff
  | poll net serverOps outcome =>
    exact h.mapClient rfl rfl fun c hoff => c.connected_poll hoff outcome

/-! ## The check -/

/-- A client that is connected is used, unless the address is refused. -/
theorem toPeer_eq_none_iff (hon : nd.isConnect = true) (peer : Bytes) (m : NodeMeets) :
    (nd.toPeer r peer m).2 = none ↔ nd.refuses peer = true := by
  obtain ⟨c, hclient, hc⟩ := (Option.any_eq_true _ _).1 hon
  have hget : nd.getClient m.created = some c := by
    rw [ClientNode.getClient, hclient]
  rw [refuses, hclient, Option.any_some, Bool.not_eq_true']
  by_cases hpass : nd.connectToPeer c peer = true
  · rw [toPeer_of_pass hget hpass, ClientNode.ensureConnected, if_pos hc, hpass]
    simp
  · rw [toPeer_of_refused hget hpass]
    simpa using hpass

/-- The check compares with what is remembered. -/
theorem refuses_iff (hon : nd.isConnect = true) (hne : nd.peerAddress ≠ []) (peer : Bytes) :
    nd.refuses peer = true ↔ peer ≠ nd.peerAddress := by
  obtain ⟨c, hclient, hc⟩ := (Option.any_eq_true _ _).1 hon
  rw [refuses, hclient, Option.any_some, ClientNode.connectToPeer, hc, ne_comm]
  simp [peerOk, peerAddressOf, hne]

end CommNode

namespace NamedNode

theorem inv_run (r : Resolver) (ops : List (CommOp κ β)) :
    (Runs.run (step r) create ops).node.Inv r (Runs.run (step r) create ops).named := by
  have hstep : ∀ (s : NamedNode κ β) (op : CommOp κ β), s.node.Inv r s.named → True →
      (s.step r op).node.Inv r (s.step r op).named :=
    fun s op h _ => h.step op
  refine Runs.run_invariant hstep (fun hon => ?_) Runs.eachStep_true
  cases hon

end NamedNode

/-- **The address check:** node calls are made one after the other, with whatever they meet. While
the client is connected through a call that named `A`: the calls to a peer `B` are passed on unless
the address check refuses `B`; it refuses `B` if and only if `B` is not the first 127 bytes of `A`;
and it refuses exactly the addresses other than `A`, of all that are accepted, if and only if `A`
has fewer than 128 bytes. -/
theorem peerCheck_iff (r : Resolver) (ops : List (CommOp κ β)) (A : Bytes)
    (h : (Runs.run (NamedNode.step r) NamedNode.create ops).connectedThrough = some A) :
    let nd := (Runs.run (NamedNode.step r) NamedNode.create ops).node
    (∀ B m, (nd.toPeer r B m).2 = none ↔ nd.refuses B = true) ∧
      (∀ B, nd.refuses B = true ↔ B ≠ A.take 127) ∧
      ((∀ B, (addressParse r B).isSome = true → (nd.refuses B = true ↔ B ≠ A)) ↔
        A.length < 128) := by
  intro nd
  rw [NamedNode.connectedThrough] at h
  split_ifs at h with hon
  obtain ⟨A', hA', hacc, hpeer⟩ := NamedNode.inv_run r ops hon
  obtain rfl : A' = A := Option.some.inj (hA'.symm.trans h)
  -- What is written down is not empty, since an empty address is not accepted.
  have hne : nd.peerAddress ≠ [] := by
    rw [hpeer]
    intro hnil
    rcases List.take_eq_nil_iff.1 hnil with h0 | rfl
    · exact absurd h0 (by decide)
    · rw [addressParse_nil] at hacc
      cases hacc
  have hrefuses (B : Bytes) : nd.refuses B = true ↔ B ≠ A'.take 127 := by
    rw [CommNode.refuses_iff hon hne, hpeer]
    rfl
  refine ⟨CommNode.toPeer_eq_none_iff hon, hrefuses, fun hright => ?_, fun hlen B _ => ?_⟩
  · -- If the check is right for the address itself, the address was not cut.
    have hself := hright A' hacc
    rw [hrefuses] at hself
    have heq : A' = A'.take 127 := by
      by_contra hcut
      exact hself.1 hcut rfl
    have hle := congrArg List.length heq
    rw [List.length_take] at hle
    omega
  · rw [hrefuses, List.take_of_length_le (Nat.le_of_lt_succ hlen)]

/-- A client that connects to an address with its first message. -/
def firstMessage (address : Bytes) : NamedNode Nat Unit :=
  Runs.run (NamedNode.step localResolver) .create
    [.sendToPeer (some address) (some [slash]) none ⟨true, answeredRun, acceptAll, true, []⟩]

/-- Connected through a short address, it refuses the other ones. -/
theorem firstMessage_short :
    (firstMessage (literal "unix:///a")).connectedThrough = some (literal "unix:///a") ∧
      ∀ B, (addressParse localResolver B).isSome = true →
        ((firstMessage (literal "unix:///a")).node.refuses B = true ↔ B ≠ literal "unix:///a") :=
  have hthrough : (firstMessage (literal "unix:///a")).connectedThrough =
    some (literal "unix:///a") := by decide +kernel
  ⟨hthrough, (peerCheck_iff _ _ _ hthrough).2.2.2 (by decide)⟩

def longAddress : Bytes := literal "unix:///" ++ List.replicate 120 0x61

/-- Connected through the long address, the client refuses this address, and takes the one without
its last byte. -/
theorem longAddress_refused :
    (firstMessage longAddress).connectedThrough = some longAddress ∧
      (firstMessage longAddress).node.refuses longAddress = true ∧
      (addressParse localResolver longAddress.dropLast).isSome = true ∧
      (firstMessage longAddress).node.refuses longAddress.dropLast = false := by
  decide +kernel

end Ssn
