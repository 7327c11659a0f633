import SsnIpc.Framework.Json
import SsnIpc.Lib.Lists
import SsnIpc.Lib.Runs
import SsnIpc.Transport.Address

/-!
# One connection and several peers

A node has one client, which is connected to one peer at a time, and remembers that peer's address
in `peer_address`. `ssn_node_send_to_peer`, `ssn_node_subscribe` and `ssn_node_rpc_call` go through
the same steps: under the lock of the node they refuse an address other than the remembered one if
the client is connected; then, without the lock, they connect the client if it is not connected,
write the address down under the lock, and send.

Any number of threads make such calls, and their steps interleave (`Peers.step`).

**Theorem (`rightPeer_of_agree`).** A frame is written only on a connection that was made to the
peer it is for, in every run in which callers that are between check and send at the same time
have the same address, and addresses fit into `peer_address`.
-/

namespace Ssn

open ByteMem

/-! ## Callers -/

/-- The functions of the node that send to a peer. -/
inductive NodeCall
  /-- `ssn_node_send_to_peer`. -/
  | sendToPeer
  /-- `ssn_node_subscribe`. -/
  | subscribe
  /-- `ssn_node_rpc_call`. -/
  | rpcCall
  deriving DecidableEq

/-- Where a thread is in such a call. -/
inductive PeerPc
  | outside
  /-- `connect_to_peer` has let it pass; it looks whether the client is connected. -/
  | checked (call : NodeCall) (peer : Bytes)
  /-- In `ssn_client_connect`. -/
  | connecting (call : NodeCall) (peer : Bytes)
  /-- It has connected the client, and `peer_address` is to be written. -/
  | updating (call : NodeCall) (peer : Bytes)
  /-- The frame is to be sent. -/
  | sending (call : NodeCall) (peer : Bytes)
  deriving DecidableEq

/-- The address that a caller past its check has been given. -/
def PeerPc.peer? : PeerPc → Option Bytes
  | .outside => none
  | .checked _ peer => some peer
  | .connecting _ peer => some peer
  | .updating _ peer => some peer
  | .sending _ peer => some peer

/-- A frame on the wire: the call it was written by, the peer it is for, and the address that the
connection was made to. -/
structure PeerFrame where
  call : NodeCall
  peer : Bytes
  connectedTo : Bytes
  deriving DecidableEq

/-- A node as far as these calls use it. `conn` is the address that the client's connection was made
to, if it is connected. -/
structure Peers where
  conn : Option Bytes
  peerAddress : Bytes
  threads : List PeerPc
  frames : List PeerFrame
  deriving DecidableEq

/-- The steps of the callers, and of the connection. -/
inductive PeerEvent
  /-- Thread `i` calls; `connect_to_peer` runs under the lock. -/
  | call (i : Nat) (call : NodeCall) (peer : Bytes)
  /-- Thread `i` goes on; `ok` tells whether a connection can be made, if that is where it is. -/
  | proceed (i : Nat) (ok : Bool)
  /-- The connection is lost. -/
  | lost
  deriving DecidableEq

/-- `sizeof(node->peer_address)`. -/
def peerAddressSize : Nat := 128

/-- What `snprintf` writes to `peer_address`. -/
def keptAddress (peer : Bytes) : Bytes := peer.take (peerAddressSize - 1)

/-- `peer_address_of`, for a node that has a client. -/
def peerAddressOf (peerAddress : Bytes) : Option Bytes :=
  if peerAddress = [] then none else some peerAddress

/-- The check of `connect_to_peer`: refused if the client is connected and another address is
written down. -/
def peerOk (connected : Bool) (peerAddress peer : Bytes) : Bool :=
  !connected || (peerAddressOf peerAddress).all (· = peer)

namespace Peers

/-- A node with `n` threads. -/
def start (n : Nat) : Peers := ⟨none, [], List.replicate n .outside, []⟩

/-- The address check lets a caller pass. -/
def passes (s : Peers) (peer : Bytes) : Bool := peerOk s.conn.isSome s.peerAddress peer

/-- The addresses of the callers that are past their check. -/
def peers (s : Peers) : List Bytes := s.threads.filterMap PeerPc.peer?

/-- Thread `i` is now at `pc`. -/
def setPc (s : Peers) (i : Nat) (pc : PeerPc) : Peers := { s with threads := s.threads.set i pc }

/-- The next step of thread `i`, which is at `pc`. -/
def advance (r : Resolver) (s : Peers) (i : Nat) (pc : PeerPc) (ok : Bool) : Peers :=
  match pc with
  | .outside => s
  | .checked call peer =>
    s.setPc i (if s.conn.isSome then .sending call peer else .connecting call peer)
  | .connecting call peer =>
    -- A connection that another thread has made is replaced.
    if ok ∧ (addressParse r peer).isSome then
      { s with conn := some peer }.setPc i (.updating call peer)
    else { s with conn := none }.setPc i .outside
  | .updating call peer =>
    { s with peerAddress := keptAddress peer }.setPc i (.sending call peer)
  | .sending call peer =>
    { s with frames := s.frames ++ s.conn.toList.map (PeerFrame.mk call peer) }.setPc i .outside

def step (r : Resolver) (s : Peers) : PeerEvent → Peers
  | .call i call peer =>
    if s.threads[i]? = some .outside ∧ s.passes peer then s.setPc i (.checked call peer)
    else s
  | .proceed i ok =>
    match s.threads[i]? with
    | some pc => s.advance r i pc ok
    | none => s
  | .lost => { s with conn := none }

/-- Frames went to the peers they are for. -/
def RightPeer (s : Peers) : Prop := ∀ f ∈ s.frames, f.connectedTo = f.peer

/-- A caller is let pass only while all others on their way have the same address, and only with
an address that fits. -/
def Agree (s : Peers) : PeerEvent → Prop
  | .call i _ peer => s.threads[i]? = some .outside → s.passes peer = true →
      peer.length < peerAddressSize ∧ ∀ peer' ∈ s.peers, peer' = peer
  | _ => True

instance (s : Peers) : ∀ e, Decidable (s.Agree e)
  | .call i _ peer => inferInstanceAs (Decidable (s.threads[i]? = some .outside →
      s.passes peer = true →
      peer.length < peerAddressSize ∧ ∀ peer' ∈ s.peers, peer' = peer))
  | .proceed _ _ | .lost => inferInstanceAs (Decidable True)

/-! ## The invariant -/

/-- The callers on their way have one address, which fits and is that of the connection if there is
one; and a connection's address is written down, or is about to be. -/
structure Inv (s : Peers) : Prop where
  right : s.RightPeer
  fits : ∀ peer ∈ s.peers, peer.length < peerAddressSize
  same : ∀ peer ∈ s.peers, ∀ peer' ∈ s.peers, peer' = peer
  conn : ∀ a ∈ s.conn, ∀ peer ∈ s.peers, peer = a
  known : ∀ a ∈ s.conn, a ≠ [] ∧
    (s.peerAddress = a ∨ ∃ call, PeerPc.updating call a ∈ s.threads)

variable {r : Resolver} {s : Peers} {i : Nat} {pc pc' : PeerPc} {call : NodeCall} {peer : Bytes}

theorem mem_peers (hpc : s.threads[i]? = some pc) (hpeer : pc.peer? = some peer) :
    peer ∈ s.peers :=
  List.mem_filterMap.2 ⟨pc, List.mem_of_getElem? hpc, hpeer⟩

theorem mem_peers_setPc (h : peer ∈ (s.setPc i pc).peers) :
    peer ∈ s.peers ∨ pc.peer? = some peer := by
  obtain ⟨pc', hmem, hpeer⟩ := List.mem_filterMap.1 h
  rcases List.mem_or_eq_of_mem_set hmem with hmem | rfl
  · exact .inl (List.mem_filterMap.2 ⟨pc', hmem, hpeer⟩)
  · exact .inr hpeer

theorem mem_peers_move (hpc : s.threads[i]? = some pc)
    (hmove : ∀ p, pc'.peer? = some p → pc.peer? = some p)
    (h : peer ∈ (s.setPc i pc').peers) : peer ∈ s.peers := by
  rcases mem_peers_setPc h with h | h
  · exact h
  · exact mem_peers hpc (hmove peer h)

theorem Inv.move (h : s.Inv) (hpc : s.threads[i]? = some pc)
    (hmove : ∀ p, pc'.peer? = some p → pc.peer? = some p) (hup : ∀ call a, pc ≠ .updating call a) :
    (s.setPc i pc').Inv := by
  have hsub {p : Bytes} : p ∈ (s.setPc i pc').peers → p ∈ s.peers := mem_peers_move hpc hmove
  refine ⟨h.right, fun p hp => h.fits p (hsub hp), fun p hp q hq => h.same p (hsub hp) q (hsub hq),
    fun a ha p hp => h.conn a ha p (hsub hp), fun a ha => ?_⟩
  obtain ⟨hne, hknown | ⟨call, hcall⟩⟩ := h.known a ha
  · exact ⟨hne, .inl hknown⟩
  · exact ⟨hne, .inr ⟨call, Lists.mem_set_of_ne hcall hpc (hup call a)⟩⟩

theorem Inv.lost (h : s.Inv) : Inv { s with conn := none } :=
  ⟨h.right, h.fits, h.same, nofun, nofun⟩

theorem Inv.connected (h : s.Inv) (hpc : s.threads[i]? = some (.connecting call peer))
    (hpeer : (addressParse r peer).isSome = true) :
    Inv ({ s with conn := some peer }.setPc i (.updating call peer)) := by
  have hmem : peer ∈ s.peers := mem_peers hpc rfl
  have hsub {p : Bytes} (hp : p ∈ (s.setPc i (.updating call peer)).peers) : p ∈ s.peers :=
    mem_peers_move hpc (by exact fun _ h => h) hp
  refine ⟨h.right, fun p hp => h.fits p (hsub hp), fun p hp q hq => h.same p (hsub hp) q (hsub hq),
    fun a ha p hp => ?_, fun a ha => ?_⟩
  · obtain rfl := Option.some.inj ha
    exact h.same peer hmem p (hsub hp)
  · obtain rfl := Option.some.inj ha
    have hlt : i < s.threads.length := (List.getElem?_eq_some_iff.1 hpc).1
    have hne : peer ≠ [] := by
      rintro rfl
      rw [addressParse_nil] at hpeer
      cases hpeer
    refine ⟨hne, .inr ⟨call, List.mem_of_getElem? (i := i) ?_⟩⟩
    exact List.getElem?_set_self hlt

theorem Inv.update (h : s.Inv) (hpc : s.threads[i]? = some (.updating call peer)) :
    Inv ({ s with peerAddress := keptAddress peer }.setPc i (.sending call peer)) := by
  have hmem : peer ∈ s.peers := mem_peers hpc rfl
  have hsub {p : Bytes} (hp : p ∈ (s.setPc i (.sending call peer)).peers) : p ∈ s.peers :=
    mem_peers_move hpc (by exact fun _ h => h) hp
  refine ⟨h.right, fun p hp => h.fits p (hsub hp), fun p hp q hq => h.same p (hsub hp) q (hsub hq),
    fun a ha p hp => h.conn a ha p (hsub hp), fun a ha => ⟨(h.known a ha).1, .inl ?_⟩⟩
  rw [← h.conn a ha peer hmem]
  exact List.take_of_length_le (Nat.le_pred_of_lt (h.fits peer hmem))

theorem Inv.send (h : s.Inv) (hpc : s.threads[i]? = some (.sending call peer)) :
    Inv ({ s with frames := s.frames ++ s.conn.toList.map (PeerFrame.mk call peer) }.setPc i
      .outside) := by
  have hmoved : (s.setPc i .outside).Inv := h.move hpc nofun nofun
  refine ⟨fun f hf => ?_, hmoved.fits, hmoved.same, hmoved.conn, hmoved.known⟩
  rcases List.mem_append.1 hf with hf | hf
  · exact h.right f hf
  · obtain ⟨a, ha, rfl⟩ := List.mem_map.1 hf
    exact (h.conn a (Option.mem_toList.1 ha) peer (mem_peers hpc rfl)).symm

/-- A caller that is let pass has the address of the connection, if there is one. -/
theorem Inv.passes (h : s.Inv) (hcheck : s.passes peer = true)
    (hsame : ∀ peer' ∈ s.peers, peer' = peer) {a : Bytes} (ha : s.conn = some a) : peer = a := by
  obtain ⟨hne, hknown | ⟨call, hcall⟩⟩ := h.known a ha
  · -- The address is written down, and was compared.
    simp only [Peers.passes, peerOk, ha, peerAddressOf, hknown, if_neg hne, Option.isSome_some,
      Bool.not_true, Bool.false_or, Option.all_some, decide_eq_true_eq] at hcheck
    exact hcheck.symm
  · -- Another caller is about to write it down, and has the same address.
    exact (hsame a (List.mem_filterMap.2 ⟨_, hcall, rfl⟩)).symm

theorem Inv.pass (h : s.Inv) (hpc : s.threads[i]? = some .outside)
    (hcheck : s.passes peer = true) (hfits : peer.length < peerAddressSize)
    (hsame : ∀ peer' ∈ s.peers, peer' = peer) (call : NodeCall) :
    (s.setPc i (.checked call peer)).Inv := by
  have hpeers {p : Bytes} (hp : p ∈ (s.setPc i (.checked call peer)).peers) : p = peer := by
    rcases mem_peers_setPc hp with hp | hp
    · exact hsame p hp
    · exact (Option.some.inj hp).symm
  refine ⟨h.right, fun p hp => ?_, fun p hp q hq => ?_, fun a ha p hp => ?_, fun a ha => ?_⟩
  · rw [hpeers hp]
    exact hfits
  · rw [hpeers hp, hpeers hq]
  · rw [hpeers hp]
    exact h.passes hcheck hsame ha
  · obtain ⟨hne, hknown | ⟨call', hcall⟩⟩ := h.known a ha
    · exact ⟨hne, .inl hknown⟩
    · exact ⟨hne, .inr ⟨call', Lists.mem_set_of_ne hcall hpc nofun⟩⟩

theorem Inv.advance (h : s.Inv) (hpc : s.threads[i]? = some pc) (ok : Bool) :
    (s.advance r i pc ok).Inv := by
  cases pc with
  | outside => exact h
  | checked call peer =>
    simp only [Peers.advance]
    split_ifs
    · exact h.move hpc (by exact fun _ h => h) nofun
    · exact h.move hpc (by exact fun _ h => h) nofun
  | connecting call peer =>
    simp only [Peers.advance]
    split_ifs with hok
    · exact h.connected hpc hok.2
    · exact h.lost.move hpc nofun nofun
  | updating call peer => exact h.update hpc
  | sending call peer => exact h.send hpc

theorem inv_step (s : Peers) (e : PeerEvent) (h : s.Inv) (hok : s.Agree e) :
    (s.step r e).Inv := by
  cases e with
  | call i call peer =>
    simp only [step]
    split_ifs with hpass
    · obtain ⟨hfits, hsame⟩ := hok hpass.1 hpass.2
      exact h.pass hpass.1 hpass.2 hfits hsame call
    · exact h
  | proceed i ok =>
    simp only [step]
    split
    · rename_i pc hpc
      exact h.advance hpc ok
    · exact h
  | lost => exact h.lost

theorem inv_start (n : Nat) : (start n).Inv := by
  have hnone : (start n).peers = [] := by
    rw [peers, List.filterMap_eq_nil_iff]
    intro pc hpc
    rw [List.eq_of_mem_replicate hpc]
    rfl
  refine ⟨nofun, ?_, ?_, nofun, nofun⟩ <;> rw [hnone] <;> exact nofun

end Peers

/-- **Frames reach their own peer while callers agree on it.** Let any number of threads call
`ssn_node_send_to_peer`, `ssn_node_subscribe` and `ssn_node_rpc_call` with any addresses, let their
steps interleave in any way, and let connections succeed, fail or be lost at any time. If every
caller that passes its check has an address of at most 127 bytes, and the same one as all callers
that are past theirs and have not sent yet, then a frame is only ever written on a connection that
was made to the address it is for. -/
theorem rightPeer_of_agree (r : Resolver) (n : Nat) (es : List PeerEvent)
    (hes : Runs.EachStep (Peers.step r) Peers.Agree (.start n) es) :
    Runs.Always (Peers.step r) Peers.RightPeer (.start n) es :=
  Runs.always_of_invariant Peers.inv_step (fun _ h => h.right) (Peers.inv_start n) hes

def addressA : Bytes := literal "unix:///a"

def addressB : Bytes := literal "unix:///b"

/-- One caller sends to the first address, and another one is refused for the second. -/
theorem callers_in_turn_rightPeer :
    Runs.Always (Peers.step localResolver) Peers.RightPeer (.start 2)
      (.call 0 .rpcCall addressA :: List.replicate 4 (.proceed 0 true) ++
        [.call 1 .sendToPeer addressB, .proceed 1 true, .call 1 .sendToPeer addressA,
          .proceed 1 true, .proceed 1 true]) := by
  apply rightPeer_of_agree
  simp only [List.replicate, List.cons_append, List.nil_append, Runs.eachStep_cons,
    Runs.eachStep_nil, and_true]
  decide +kernel

/-- Two callers pass their checks while there is no connection. The first one connects to its peer,
and the second one sends its frame there. -/
theorem callers_cross :
    ¬ Runs.Always (Peers.step localResolver) Peers.RightPeer (.start 2)
      [.call 0 .rpcCall addressA, .call 1 .sendToPeer addressB, .proceed 0 true, .proceed 0 true,
        .proceed 1 true, .proceed 1 true] := by
  intro h
  have hright := h _ (List.prefix_refl _) ⟨.sendToPeer, addressB, addressA⟩ (by decide +kernel)
  exact absurd hright (by decide)

end Ssn
