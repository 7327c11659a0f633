import SsnIpc.Framework.Service
import SsnIpc.Framework.Subscribe
import SsnIpc.Layers.Objects
import SsnIpc.Transport.Address

/-!
# What the calls of a node report

The functions of `src/node/ssn_node_comm.c` pass a call on to the client or the server of the node.
What they call reports success in different ways: `ssn_client_subscribe` and
`ssn_client_unsubscribe` with `true`, `ssn_client_call` and `ssn_client_message` with 0 and failure
with -1, and `ssn_server_publish` with a `bool` in an `int`. All wrappers of the last kind test for
a negative value, but `ssn_server_publish` never returns one.

**Theorem (`reports_iff`).** Four of the five wrappers report success exactly if the call was passed
on and succeeded. `ssn_node_publish` and `SsnService::publish` do so exactly if there is no server
or the server does not reject the url.
-/

namespace Ssn

open ByteMem CString

/-! ## The operations passed on -/

/-- The server of a node. -/
structure NodeServer (β : Type*) where
  world : World β
  valid : Bool

namespace NodeServer

variable {β : Type*}

/-- `ssn_server_publish`: `true` or `false` as an `int`. -/
def publish (s : NodeServer β) (net : Nat → Nat → SendStep) (url : Bytes) (data : Option Ref) :
    NodeServer β × Int :=
  if s.valid = true ∧ urlOk url = true then
    ({ s with world := s.world.publish net url data }, 1)
  else (s, 0)

end NodeServer

namespace ClientWorld

variable {κ : Type*} (c : ClientWorld κ) (net : Nat → Nat → SendStep)

/-- `ssn_client_message` with its result, 0 or -1. -/
def clientMessage (url : Bytes) (data : Option Ref) : ClientWorld κ × Int :=
  if c.client.connected ∧ urlOk url ∧ data.isSome then
    let (c, ret) := c.send net ⟨MsgType.message, 0, 0, some (Ref.ofBytes url), data⟩
    (c, if ret then 0 else -1)
  else (c, -1)

/-- `ssn_client_call` with its result, 0 or -1. -/
def clientCall (url : Bytes) (data : Option Ref) (callback : Option κ) (timeoutMs : Nat) :
    ClientWorld κ × Int :=
  let (c, sent) := c.callEx net url data callback timeoutMs
  (c, if sent.isSome then 0 else -1)

/-- `ssn_client_subscribe` with its result. -/
def clientSubscribe (url : Bytes) (callback : κ) (timeoutMs : Nat) (mem : Bool)
    (polls : List PollOutcome) : ClientWorld κ × Bool :=
  let (c, sent) := c.subscribeAmid net url (some callback) timeoutMs mem polls
  (c, sent.isSome)

/-- `ssn_client_unsubscribe` with its result. -/
def clientUnsubscribe (url : Bytes) (timeoutMs : Nat) : ClientWorld κ × Bool :=
  let (c, sent) := c.unsubscribe net url timeoutMs
  (c, sent.isSome)

/-- The message is that of `message`. -/
theorem clientMessage_fst (url : Bytes) (data : Option Ref) :
    (c.clientMessage net url data).1 = c.message net url data := by
  unfold clientMessage message
  split_ifs <;> rfl

end ClientWorld

/-! ## The node -/

/-- A connection attempt to an address, which does not come to a socket if the address is not
accepted. -/
def ConnectRun.to (run : ConnectRun) (r : Resolver) (peer : Bytes) : ConnectRun :=
  if (addressParse r peer).isSome then run else { run with fd := none }

/-- A node as its calls use it. -/
structure CommNode (κ β : Type*) extends ClientNode κ where
  state : NodeState
  server : Option (NodeServer β)

namespace CommNode

variable {κ β : Type*}

/-- `ssn_node_create`. -/
def create : CommNode κ β := ⟨⟨none, []⟩, .stopped, none⟩

variable (r : Resolver) (nd : CommNode κ β)

def setClient (c : ClientWorld κ) : CommNode κ β := { nd with client := some c }

/-- `connect_to_peer` and `node_ensure_connected`: the client, if the call is to be passed on. -/
def toPeer (peer : Bytes) (m : NodeMeets) : CommNode κ β × Option (ClientWorld κ) :=
  match nd.getClient m.created with
  | none => (nd, none)
  | some c =>
    if nd.connectToPeer c peer then
      let (cn, c, ok) := nd.toClientNode.ensureConnected c peer (m.run.to r peer)
      ({ nd with toClientNode := { cn with client := some c } }, if ok then some c else none)
    else (nd.setClient c, none)

/-- `ssn_node_send_to_peer`; NULL arguments are `none`. -/
def sendToPeer (peer url : Option Bytes) (data : Option Ref) (m : NodeMeets) :
    CommNode κ β × Bool :=
  match peer, url with
  | some peer, some url =>
    match nd.toPeer r peer m with
    | (nd, none) => (nd, false)
    | (nd, some c) =>
      let (c, result) := c.clientMessage m.net url data
      (nd.setClient c, if result < 0 then false else true)
  | _, _ => (nd, false)

/-- `ssn_node_subscribe`. -/
def subscribe (peer url : Option Bytes) (callback : Option κ) (timeoutMs : Nat) (m : NodeMeets) :
    CommNode κ β × Bool :=
  match peer, url, callback with
  | some peer, some url, some callback =>
    match nd.toPeer r peer m with
    | (nd, none) => (nd, false)
    | (nd, some c) =>
      let (c, result) := c.clientSubscribe m.net url callback timeoutMs m.mem m.polls
      (nd.setClient c, if result = false then false else true)
  | _, _, _ => (nd, false)

/-- `ssn_node_rpc_call`. -/
def rpcCall (peer url : Option Bytes) (data : Option Ref) (callback : Option κ) (timeoutMs : Nat)
    (m : NodeMeets) : CommNode κ β × Int :=
  match peer, url with
  | some peer, some url =>
    match nd.toPeer r peer m with
    | (nd, none) => (nd, -1)
    | (nd, some c) =>
      let (c, result) := c.clientCall m.net url data callback timeoutMs
      (nd.setClient c, if result < 0 then -1 else 0)
  | _, _ => (nd, -1)

/-- `ssn_node_unsubscribe`. -/
def unsubscribe (url : Option Bytes) (timeoutMs : Nat) (net : Nat → Nat → SendStep) :
    CommNode κ β × Bool :=
  match url, nd.client with
  | some url, some c =>
    let (c, result) := c.clientUnsubscribe net url timeoutMs
    (nd.setClient c, if result = false then false else true)
  | _, _ => (nd, false)

/-- `ssn_node_publish`. -/
def publish (url : Option Bytes) (data : Option Ref) (net : Nat → Nat → SendStep) :
    CommNode κ β × Bool :=
  match url, nd.server with
  | some url, some s =>
    let (s, result) := s.publish net url data
    ({ nd with server := some s }, if result < 0 then false else true)
  | _, _ => (nd, false)

/-- A started node with a server and no client. -/
def serving (w : World β) : CommNode κ β := ⟨⟨none, []⟩, .active, some ⟨w, true⟩⟩

end CommNode

/-- `SsnService::publish`, on the node that the service has started; `none` if an exception leaves
it. -/
def Service.publish {κ : Type*} (s : Service κ) (codec : JsonCodec) (topic : Bytes) (data : Json)
    (net : Nat → Nat → SendStep) : Service κ × Option Bool :=
  match s.node, codec.dump data with
  | none, _ => (s, some false)
  | some _, none => (s, none)
  | some w, some body =>
    let nd : CommNode κ Unit := .serving w
    let (nd, ok) := nd.publish (some topic) (some (Ref.ofBytes body)) net
    ({ s with node := nd.server.map NodeServer.world }, some ok)

/-! ## Reports -/

section Reports

variable {κ β : Type*}

theorem clientMessage_ret (c : ClientWorld κ) (net : Nat → Nat → SendStep) (url : Bytes)
    (data : Option Ref) :
    (c.clientMessage net url data).2 = 0 ∨ (c.clientMessage net url data).2 = -1 := by
  unfold ClientWorld.clientMessage
  split_ifs
  · dsimp only
    split_ifs
    · exact .inl rfl
    · exact .inr rfl
  · exact .inr rfl

theorem clientCall_ret (c : ClientWorld κ) (net : Nat → Nat → SendStep) (url : Bytes)
    (data : Option Ref) (callback : Option κ) (timeoutMs : Nat) :
    (c.clientCall net url data callback timeoutMs).2 = 0 ∨
      (c.clientCall net url data callback timeoutMs).2 = -1 := by
  unfold ClientWorld.clientCall
  dsimp only
  split_ifs
  · exact .inl rfl
  · exact .inr rfl

/-- A test for a negative value tells 0 from -1. -/
theorem not_neg_iff {result : Int} (h : result = 0 ∨ result = -1) : ¬result < 0 ↔ result = 0 := by
  omega

theorem publish_ret (s : NodeServer β) (net : Nat → Nat → SendStep) (url : Bytes)
    (data : Option Ref) :
    (s.publish net url data).2 = if s.valid = true ∧ urlOk url = true then 1 else 0 := by
  unfold NodeServer.publish
  split_ifs <;> rfl

/-- `ssn_node_publish` reports success whenever there is a server. -/
theorem CommNode.publish_snd (nd : CommNode κ β) (url : Option Bytes) (data : Option Ref)
    (net : Nat → Nat → SendStep) :
    (nd.publish url data net).2 = (url.isSome && nd.server.isSome) := by
  cases url with
  | none => simp [CommNode.publish]
  | some url =>
    cases hs : nd.server with
    | none => simp [CommNode.publish, hs]
    | some s =>
      have hret : ¬(s.publish net url data).2 < 0 := by
        rw [publish_ret]
        split_ifs <;> decide
      simp [CommNode.publish, hs, hret]

/-- The call was passed on to a server, which did not reject it. -/
def CommNode.Published (nd : CommNode κ β) (url : Option Bytes) (data : Option Ref)
    (net : Nat → Nat → SendStep) : Prop :=
  ∃ u s, url = some u ∧ nd.server = some s ∧ (s.publish net u data).2 ≠ 0

/-- If there is a server, it takes the url. -/
def CommNode.Takes (nd : CommNode κ β) (url : Option Bytes) : Prop :=
  ∀ u s, url = some u → nd.server = some s → s.valid = true ∧ urlOk u = true

theorem CommNode.publish_reports_iff (nd : CommNode κ β) (url : Option Bytes) (data : Option Ref)
    (net : Nat → Nat → SendStep) :
    ((nd.publish url data net).2 = true ↔ nd.Published url data net) ↔ nd.Takes url := by
  have hne (s : NodeServer β) (u : Bytes) :
      (s.publish net u data).2 ≠ 0 ↔ s.valid = true ∧ urlOk u = true := by
    rw [publish_ret]
    split_ifs with h
    · simp [h]
    · simp [h]
  rw [publish_snd, Bool.and_eq_true]
  constructor
  · rintro h u s rfl hs
    obtain ⟨u', s', hu, hs', hret⟩ := h.1 ⟨rfl, by rw [hs]; rfl⟩
    obtain rfl := Option.some.inj hu
    obtain rfl := Option.some.inj (hs.symm.trans hs')
    exact (hne s u).1 hret
  · intro htakes
    constructor
    · rintro ⟨hu, hs⟩
      obtain ⟨u, hu⟩ := Option.isSome_iff_exists.1 hu
      obtain ⟨s, hs⟩ := Option.isSome_iff_exists.1 hs
      exact ⟨u, s, hu, hs, (hne s u).2 (htakes u s hu hs)⟩
    · rintro ⟨u, s, rfl, hs, -⟩
      exact ⟨rfl, by rw [hs]; rfl⟩

theorem CommNode.sendToPeer_reports (r : Resolver) (nd : CommNode κ β) (peer url : Option Bytes)
    (data : Option Ref) (m : NodeMeets) :
    (nd.sendToPeer r peer url data m).2 = true ↔
      ∃ p u c, peer = some p ∧ url = some u ∧ (nd.toPeer r p m).2 = some c ∧
        (c.clientMessage m.net u data).2 = 0 := by
  rcases peer with _ | p
  · simp [CommNode.sendToPeer]
  rcases url with _ | u
  · simp [CommNode.sendToPeer]
  rcases hto : nd.toPeer r p m with ⟨nd', _ | c⟩
  · simp [CommNode.sendToPeer, hto]
  · simp [CommNode.sendToPeer, hto, ← not_neg_iff (clientMessage_ret c m.net u data)]

theorem CommNode.subscribe_reports (r : Resolver) (nd : CommNode κ β) (peer url : Option Bytes)
    (callback : Option κ) (timeoutMs : Nat) (m : NodeMeets) :
    (nd.subscribe r peer url callback timeoutMs m).2 = true ↔
      ∃ p u k c, peer = some p ∧ url = some u ∧ callback = some k ∧
        (nd.toPeer r p m).2 = some c ∧
        (c.clientSubscribe m.net u k timeoutMs m.mem m.polls).2 = true := by
  rcases peer with _ | p
  · simp [CommNode.subscribe]
  rcases url with _ | u
  · simp [CommNode.subscribe]
  rcases callback with _ | k
  · simp [CommNode.subscribe]
  rcases hto : nd.toPeer r p m with ⟨nd', _ | c⟩
  · simp [CommNode.subscribe, hto]
  · simp [CommNode.subscribe, hto]

theorem CommNode.unsubscribe_reports (nd : CommNode κ β) (url : Option Bytes) (timeoutMs : Nat)
    (net : Nat → Nat → SendStep) :
    (nd.unsubscribe url timeoutMs net).2 = true ↔
      ∃ u c, url = some u ∧ nd.client = some c ∧
        (c.clientUnsubscribe net u timeoutMs).2 = true := by
  rcases url with _ | u
  · simp [CommNode.unsubscribe]
  cases hc : nd.client with
  | none => simp [CommNode.unsubscribe, hc]
  | some c => simp [CommNode.unsubscribe, hc]

theorem CommNode.rpcCall_reports (r : Resolver) (nd : CommNode κ β) (peer url : Option Bytes)
    (data : Option Ref) (callback : Option κ) (timeoutMs : Nat) (m : NodeMeets) :
    (nd.rpcCall r peer url data callback timeoutMs m).2 = 0 ↔
      ∃ p u c, peer = some p ∧ url = some u ∧ (nd.toPeer r p m).2 = some c ∧
        (c.clientCall m.net u data callback timeoutMs).2 = 0 := by
  rcases peer with _ | p
  · simp [CommNode.rpcCall]
  rcases url with _ | u
  · simp [CommNode.rpcCall]
  rcases hto : nd.toPeer r p m with ⟨nd', _ | c⟩
  · simp [CommNode.rpcCall, hto]
  · simp [CommNode.rpcCall, hto,
      ← not_neg_iff (clientCall_ret c m.net u data callback timeoutMs)]

end Reports

/-- **What the calls of a node report:** for every node and all arguments. `ssn_node_send_to_peer`
and `ssn_node_subscribe` return `true`, and `ssn_node_rpc_call` returns 0, if and only if the call
was passed on to the client and the client reports success in its way; likewise
`ssn_node_unsubscribe`. For `ssn_node_publish` and `SsnService::publish` the same holds if and only
if the server, if there is one, does not reject the url. (`SsnService::publish` does not get there
if the data cannot be written out.) -/
theorem reports_iff {κ β : Type*} (r : Resolver) (nd : CommNode κ β) :
    (∀ peer url data m, (nd.sendToPeer r peer url data m).2 = true ↔
      ∃ p u c, peer = some p ∧ url = some u ∧ (nd.toPeer r p m).2 = some c ∧
        (c.clientMessage m.net u data).2 = 0) ∧
    (∀ peer url callback timeoutMs m,
      (nd.subscribe r peer url callback timeoutMs m).2 = true ↔
        ∃ p u k c, peer = some p ∧ url = some u ∧ callback = some k ∧
          (nd.toPeer r p m).2 = some c ∧
          (c.clientSubscribe m.net u k timeoutMs m.mem m.polls).2 = true) ∧
    (∀ url timeoutMs net, (nd.unsubscribe url timeoutMs net).2 = true ↔
      ∃ u c, url = some u ∧ nd.client = some c ∧
        (c.clientUnsubscribe net u timeoutMs).2 = true) ∧
    (∀ peer url data callback timeoutMs m,
      (nd.rpcCall r peer url data callback timeoutMs m).2 = 0 ↔
        ∃ p u c, peer = some p ∧ url = some u ∧ (nd.toPeer r p m).2 = some c ∧
          (c.clientCall m.net u data callback timeoutMs).2 = 0) ∧
    (∀ url data net,
      ((nd.publish url data net).2 = true ↔ nd.Published url data net) ↔ nd.Takes url) ∧
    ∀ (s : Service κ) (codec : JsonCodec) topic data net,
      ((s.publish codec topic data net).2 = some true ↔
        ∃ w body, s.node = some w ∧ codec.dump data = some body ∧
          (CommNode.serving w : CommNode κ Unit).Published (some topic)
            (some (Ref.ofBytes body)) net) ↔
        (s.node.isSome = true → data.utf8 = true → urlOk topic = true) := by
  refine ⟨nd.sendToPeer_reports r, nd.subscribe_reports r, nd.unsubscribe_reports,
    nd.rpcCall_reports r, nd.publish_reports_iff, fun s codec topic data net => ?_⟩
  -- `dump` comes before the call: if it throws, nothing is published and nothing reported.
  rw [← codec.isSome_dump]
  cases hw : s.node with
  | none => simp [Service.publish, hw]
  | some w =>
    cases hdump : codec.dump data with
    | none => simp [Service.publish, hw, hdump]
    | some body =>
      have hpub := CommNode.publish_reports_iff (.serving w : CommNode κ Unit) (some topic)
        (some (Ref.ofBytes body)) net
      have htakes : (CommNode.serving w : CommNode κ Unit).Takes (some topic) ↔
          urlOk topic = true := by
        simp [CommNode.Takes, CommNode.serving]
      simpa [Service.publish, hw, hdump, htakes] using hpub

/-- A service whose server was just created. -/
def startedService : Service Unit := ⟨∅, 0, 0, false, some (.init (.create 60))⟩

/-- The url `a` is rejected by the server, and reported as published by the node and by the
service. -/
theorem rejected_reported :
    ((NodeServer.mk (.init (.create 60) : World Unit) true).publish acceptAll [0x61] none).2 = 0 ∧
      ((CommNode.serving (.init (.create 60)) : CommNode Unit Unit).publish (some [0x61]) none
        acceptAll).2 = true ∧
      (startedService.publish strictCodec [0x61] (.object []) acceptAll).2 = some true := by
  decide +kernel

end Ssn
