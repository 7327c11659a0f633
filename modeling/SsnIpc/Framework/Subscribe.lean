import SsnIpc.Client.Subscribe
import SsnIpc.Framework.CallJson
import SsnIpc.Node.Peers

/-!
# Subscriptions of the framework client

`SsnClient::subscribe` writes the handler of a topic into the map `subs_`, over one that is there,
subscribes through the node, and on failure erases the topic. Messages reach the handler that
`SsnClient::handleMsg` finds in the map.

**Theorem (`unharmed_iff`).** A call that fails leaves the map and the messages' handlers as they
were exactly when it was refused by the first checks or the topic had no handler.

**Theorem (`subs_eq_installed_iff`).** The map holds what the successful calls have installed, all
along a run, exactly when no call fails behind the checks for a topic that has a handler.

A failed call for any other topic takes the handler away that a call before it has installed
(`secondSubscribe_erases`).
-/

namespace Ssn

open ByteMem

variable {κ η : Type*}

/-! ## The node -/

/-- A node of a framework client, as far as its subscriptions use it. -/
structure ClientNode (κ : Type*) where
  client : Option (ClientWorld κ)
  peerAddress : Bytes

/-- What a call of the node meets: whether a client can be created, the attempt to connect, the
socket, the memory for the handler, and the polls of the driver thread while it subscribes. -/
structure NodeMeets where
  created : Bool
  run : ConnectRun
  net : Nat → Nat → SendStep
  mem : Bool
  polls : List PollOutcome

namespace ClientNode

/-- `ssn_node_get_client`. -/
def getClient (nd : ClientNode κ) (created : Bool) : Option (ClientWorld κ) :=
  match nd.client with
  | some c => some c
  | none => if created then some ⟨.create, []⟩ else none

/-- `connect_to_peer`: a client that is connected to another peer is refused. -/
def connectToPeer (nd : ClientNode κ) (c : ClientWorld κ) (peer : Bytes) : Bool :=
  peerOk c.client.connected nd.peerAddress peer

/-- `node_ensure_connected`. -/
def ensureConnected (nd : ClientNode κ) (c : ClientWorld κ) (peer : Bytes) (run : ConnectRun) :
    ClientNode κ × ClientWorld κ × Bool :=
  if c.client.connected then (nd, c, true)
  else
    let (c, ok) := c.connect (some 3000) run
    if ok then ({ nd with peerAddress := keptAddress peer }, c, true)
    else (nd, c, false)

/-- `ssn_node_subscribe`. -/
def subscribe (nd : ClientNode κ) (peer url : Bytes) (callback : κ) (timeoutMs : Nat)
    (meets : NodeMeets) : ClientNode κ × Bool :=
  match nd.getClient meets.created with
  | none => (nd, false)
  | some c =>
    if nd.connectToPeer c peer then
      let (nd, c, ok) := nd.ensureConnected c peer meets.run
      if ok then
        let (c, sent) :=
          c.subscribeAmid meets.net url (some callback) timeoutMs meets.mem meets.polls
        ({ nd with client := some c }, sent.isSome)
      else ({ nd with client := some c }, false)
    else ({ nd with client := some c }, false)

/-- `ssn_node_unsubscribe`. -/
def unsubscribe (nd : ClientNode κ) (url : Bytes) (timeoutMs : Nat)
    (net : Nat → Nat → SendStep) : ClientNode κ × Bool :=
  match nd.client with
  | none => (nd, false)
  | some c =>
    let (c, sent) := c.unsubscribe net url timeoutMs
    ({ nd with client := some c }, sent.isSome)

end ClientNode

/-! ## The framework client -/

/-- `ssn::SsnClient`, as far as its subscriptions use it. -/
structure TopicClient (κ η : Type*) where
  connected : Bool
  node : Option (ClientNode κ)
  peer : Bytes
  subs : Bytes → Option η

namespace TopicClient

def create : TopicClient κ η := ⟨false, none, [], fun _ => none⟩

/-- `SsnClient::connect`; `ok` tells whether the node and the driver thread could be made. -/
def connect (w : TopicClient κ η) (peer : Bytes) (ok : Bool) : TopicClient κ η × Bool :=
  if w.connected then (w, false)
  else if ok then ({ w with connected := true, node := some ⟨none, []⟩, peer }, true)
  else (w, false)

/-- `SsnClient::disconnect`. -/
def disconnect (w : TopicClient κ η) : TopicClient κ η :=
  if w.connected then { w with connected := false, node := none } else w

/-- The first checks of `SsnClient::subscribe`. -/
def accepts (w : TopicClient κ η) (topic : Bytes) (handler : Option η) : Bool :=
  urlOk topic && handler.isSome && w.connected && w.node.isSome

/-- `SsnClient::subscribe`, where `msgCb` is `onMsgCb` with the client's address. -/
def subscribe (msgCb : κ) (w : TopicClient κ η) (topic : Bytes) (handler : Option η)
    (timeoutMs : Nat) (meets : NodeMeets) : TopicClient κ η × Bool :=
  if urlOk topic ∧ handler.isSome then
    match w.connected, w.node with
    | true, some node =>
      let w := { w with subs := Function.update w.subs topic handler }
      let (node, ok) := node.subscribe w.peer topic msgCb timeoutMs meets
      let w := { w with node := some node }
      if ok then (w, true) else ({ w with subs := Function.update w.subs topic none }, false)
    | _, _ => (w, false)
  else (w, false)

/-- `SsnClient::unsubscribe`. -/
def unsubscribe (w : TopicClient κ η) (topic : Bytes) (net : Nat → Nat → SendStep) :
    TopicClient κ η × Bool :=
  let w := { w with subs := Function.update w.subs topic none }
  match w.node with
  | none => (w, false)
  | some node =>
    let (node, ok) := node.unsubscribe topic 5000 net
    ({ w with node := some node }, ok)

/-- `SsnClient::handleMsg`: the handler that is called, with its arguments. -/
def handleMsg (parse : Bytes → Option Json) (w : TopicClient κ η) (f : Frame) :
    Option (η × Bytes × Json) :=
  if f.url = [] then none else (w.subs f.url).map fun handler => (handler, f.url, replyJson parse f)

/-- The map is as it was, and messages reach the same handlers. -/
structure Unharmed (before after : TopicClient κ η) : Prop where
  subs : after.subs = before.subs
  heard : ∀ parse f, after.handleMsg parse f = before.handleMsg parse f

theorem Unharmed.of_subs {w w' : TopicClient κ η} (h : w'.subs = w.subs) : w.Unharmed w' := by
  refine ⟨h, fun parse f => ?_⟩
  rw [handleMsg, handleMsg, h]

/-! ## One call -/

variable (msgCb : κ) {w : TopicClient κ η} {topic : Bytes} {handler : Option η} (timeoutMs : Nat)
  (meets : NodeMeets)

theorem subscribe_refused (h : w.accepts topic handler = false) :
    w.subscribe msgCb topic handler timeoutMs meets = (w, false) := by
  unfold subscribe
  split_ifs with hargs
  · split
    · rename_i hc hn
      simp [accepts, hargs.1, hargs.2, hc, hn] at h
    · rfl
  · rfl

theorem subs_subscribe (h : w.accepts topic handler = true) :
    (w.subscribe msgCb topic handler timeoutMs meets).1.subs =
      Function.update w.subs topic
        (if (w.subscribe msgCb topic handler timeoutMs meets).2 then handler else none) := by
  simp only [accepts, Bool.and_eq_true] at h
  obtain ⟨⟨⟨hurl, hhandler⟩, hc⟩, hn⟩ := h
  obtain ⟨node, hn⟩ := Option.isSome_iff_exists.1 hn
  simp only [subscribe, hurl, hhandler, hc, hn, and_self, if_true]
  cases (node.subscribe w.peer topic msgCb timeoutMs meets).2 with
  | true => rfl
  | false => simp

/-- A call that succeeds installs the handler. -/
theorem subs_of_true (h : (w.subscribe msgCb topic handler timeoutMs meets).2 = true) :
    (w.subscribe msgCb topic handler timeoutMs meets).1.subs =
      Function.update w.subs topic handler := by
  cases hacc : w.accepts topic handler with
  | false =>
    rw [subscribe_refused msgCb timeoutMs meets hacc] at h
    cases h
  | true => rw [subs_subscribe msgCb timeoutMs meets hacc, if_pos h]

/-- A call that fails erases the topic, if it comes that far. -/
theorem subs_of_false (h : (w.subscribe msgCb topic handler timeoutMs meets).2 = false) :
    (w.subscribe msgCb topic handler timeoutMs meets).1.subs = w.subs ↔
      (w.accepts topic handler = true → w.subs topic = none) := by
  cases hacc : w.accepts topic handler with
  | false =>
    rw [subscribe_refused msgCb timeoutMs meets hacc]
    exact iff_of_true rfl (by simp)
  | true =>
    rw [subs_subscribe msgCb timeoutMs meets hacc, h, Function.update_eq_self_iff]
    constructor
    · intro hnone _
      exact hnone.symm
    · intro hnone
      exact (hnone rfl).symm

end TopicClient

/-- **Failed calls:** a call of `SsnClient::subscribe` that fails leaves the map and the handlers of
all messages as they were exactly when the checks refused it or the topic had no handler. -/
theorem unharmed_iff (msgCb : κ) (w : TopicClient κ η) (topic : Bytes) (handler : Option η)
    (timeoutMs : Nat) (meets : NodeMeets) :
    ((w.subscribe msgCb topic handler timeoutMs meets).2 = false →
        w.Unharmed (w.subscribe msgCb topic handler timeoutMs meets).1) ↔
      ((w.subscribe msgCb topic handler timeoutMs meets).2 = false →
        w.accepts topic handler = true → w.subs topic = none) := by
  refine forall_congr' fun hfail => ?_
  rw [← TopicClient.subs_of_false msgCb timeoutMs meets hfail]
  exact ⟨fun h => h.subs, fun h => .of_subs h⟩

/-- A client that has subscribed to `/a`, with the handler 1, and what comes of subscribing again,
with the handler 2, when the socket fails. -/
def secondSubscribe : (TopicClient Nat Nat × Bool) × (TopicClient Nat Nat × Bool) :=
  let connected := (TopicClient.create.connect (literal "unix:///a") true).1
  let first := connected.subscribe 7 [slash, 0x61] (some 1) 0
    ⟨true, answeredRun, acceptAll, true, []⟩
  (first, first.1.subscribe 7 [slash, 0x61] (some 2) 0
    ⟨true, answeredRun, fun _ _ => .failed, true, []⟩)

/-- The first call succeeds and the second one fails. After it the topic has no handler, and its
messages, which still arrive, reach none. -/
theorem secondSubscribe_erases :
    secondSubscribe.1.2 = true ∧ secondSubscribe.2.2 = false ∧
      secondSubscribe.1.1.subs [slash, 0x61] = some 1 ∧
      secondSubscribe.2.1.subs [slash, 0x61] = none ∧
      (secondSubscribe.1.1.handleMsg (fun _ => none) publishA).isSome = true ∧
      (secondSubscribe.2.1.handleMsg (fun _ => none) publishA).isSome = false ∧
      ((secondSubscribe.2.1.node.bind ClientNode.client).bind (·.callbackOf publishA.url)) =
        some 7 := by
  decide +kernel

/-! ## Runs -/

/-- The calls of the user, and the polls of the driver thread. -/
inductive TopicOp (η : Type*)
  | connect (peer : Bytes) (ok : Bool)
  | disconnect
  | subscribe (topic : Bytes) (handler : Option η) (timeoutMs : Nat) (meets : NodeMeets)
  | unsubscribe (topic : Bytes) (net : Nat → Nat → SendStep)
  | poll (outcome : PollOutcome)

/-- A framework client, and the handlers that its successful calls have installed. -/
structure TopicRun (κ η : Type*) where
  client : TopicClient κ η
  installed : Bytes → Option η

namespace TopicRun

def create : TopicRun κ η := ⟨.create, fun _ => none⟩

/-- `ssn_node_poll`, as `SsnClient::pollLoop` calls it. -/
def poll (w : TopicClient κ η) (outcome : PollOutcome) : TopicClient κ η :=
  { w with node := w.node.map fun nd => { nd with client := nd.client.map (·.poll outcome) } }

def step (msgCb : κ) (w : TopicRun κ η) : TopicOp η → TopicRun κ η
  | .connect peer ok => { w with client := (w.client.connect peer ok).1 }
  | .disconnect => { w with client := w.client.disconnect }
  | .subscribe topic handler timeoutMs meets =>
    let (client, ok) := w.client.subscribe msgCb topic handler timeoutMs meets
    ⟨client, if ok then Function.update w.installed topic handler else w.installed⟩
  | .unsubscribe topic net =>
    ⟨(w.client.unsubscribe topic net).1, Function.update w.installed topic none⟩
  | .poll outcome => { w with client := poll w.client outcome }

/-- No call fails behind the checks for a topic that has a handler. -/
def Spares (msgCb : κ) (w : TopicRun κ η) : TopicOp η → Prop
  | .subscribe topic handler timeoutMs meets =>
    (w.client.subscribe msgCb topic handler timeoutMs meets).2 = false →
      w.client.accepts topic handler = true → w.client.subs topic = none
  | _ => True

/-- The map holds what was installed. -/
def Agrees (w : TopicRun κ η) : Prop := w.client.subs = w.installed

variable {msgCb : κ} {w : TopicRun κ η}

/-- A call of subscribe keeps the agreement exactly if it leaves the map alone when it fails. -/
theorem agrees_subscribe (h : w.Agrees) (topic : Bytes) (handler : Option η) (timeoutMs : Nat)
    (meets : NodeMeets) :
    (w.step msgCb (.subscribe topic handler timeoutMs meets)).Agrees ↔
      w.Spares msgCb (.subscribe topic handler timeoutMs meets) := by
  have hw : w.client.subs = w.installed := h
  cases hret : (w.client.subscribe msgCb topic handler timeoutMs meets).2 with
  | true =>
    refine iff_of_true ?_ fun hfail => ?_
    · simp only [Agrees, step, hret, if_true]
      rw [TopicClient.subs_of_true msgCb timeoutMs meets hret, hw]
    · rw [hret] at hfail
      cases hfail
  | false =>
    have hiff := TopicClient.subs_of_false msgCb timeoutMs meets hret
    simp only [Agrees, step, Spares, hret, Bool.false_eq_true, if_false, forall_const]
    rw [← hiff, hw]

theorem agrees_step (h : w.Agrees) (op : TopicOp η) :
    (w.step msgCb op).Agrees ↔ w.Spares msgCb op := by
  cases op with
  | subscribe topic handler timeoutMs meets => exact agrees_subscribe h ..
  | connect peer ok =>
    refine iff_of_true (Eq.trans ?_ h) trivial
    simp only [step, TopicClient.connect]
    split_ifs <;> rfl
  | disconnect =>
    refine iff_of_true (Eq.trans ?_ h) trivial
    simp only [step, TopicClient.disconnect]
    split_ifs <;> rfl
  | unsubscribe topic net =>
    have hmap : Function.update w.client.subs topic none = Function.update w.installed topic none :=
      congrArg (Function.update · topic none) h
    refine iff_of_true (Eq.trans ?_ hmap) trivial
    simp only [step, TopicClient.unsubscribe]
    split <;> rfl
  | poll outcome => exact iff_of_true h trivial

end TopicRun

/-- **Installed handlers:** all along a run the map holds what the successful calls have installed
exactly when no call fails behind the checks for a topic that has a handler. -/
theorem subs_eq_installed_iff (msgCb : κ) (ops : List (TopicOp η)) :
    Runs.Always (TopicRun.step msgCb) TopicRun.Agrees .create ops ↔
      Runs.EachStep (TopicRun.step msgCb) (TopicRun.Spares msgCb) .create ops :=
  Runs.always_iff_eachStep (fun _ op h _ hok => (TopicRun.agrees_step h op).2 hok) (fun _ h => h)
    (fun _ op h _ hbad hagree => hbad ((TopicRun.agrees_step h op).1 hagree)) rfl
    Runs.eachStep_true

end Ssn
