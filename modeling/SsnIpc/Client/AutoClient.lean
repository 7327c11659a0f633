import SsnIpc.Client.AutoReconnect
import SsnIpc.Client.SendTimeout
import SsnIpc.Client.Subscribe

/-!
# The handlers of an auto-reconnect client

The thread of `ssn_client_auto_t` works on one client object from a start to the next stop, and
subscribes to the configured urls each time it has connected.

**The state** (`AutoClient`). The object with its thread, the client it works on, and the parameters
of the last start. The thread's steps in `ssn_client_connect`, `ssn_client_subscribe`,
`ssn_client_ping` and `ssn_client_poll` are those of the client.

**Theorem (`handlerCount_eq`).** In every run the client has as many handlers for a valid configured
url as it has made connections.

**Theorem (`oneHandler_iff`).** So with distinct urls there is at most one handler for each exactly
in the runs in which no client connects twice, unless none of its urls is valid.
-/

namespace Ssn

open ByteMem

variable {κ : Type*}

namespace ClientWorld

variable (net : Nat → Nat → SendStep) {w : ClientWorld κ}

def handlerCount (w : ClientWorld κ) (url : Bytes) : Nat :=
  (w.client.subHandlers.map SubHandler.url).count url

/-- The subscriptions of the auto-reconnect thread. -/
def subscribeAll (w : ClientWorld κ) (urls : List Bytes) (timeoutMs : Nat) : ClientWorld κ :=
  urls.foldl (fun w url => (w.subscribe net url none timeoutMs).1) w

end ClientWorld

/-- An auto-reconnect client. `connections` counts the connections of the present client object. -/
structure AutoClient (κ : Type*) where
  auto : ClientAuto
  client : Option (ClientWorld κ)
  urls : List Bytes
  keepalive : Nat
  connTimeout : Nat
  connections : Nat

/-- What a step of the thread meets, wherever it is: an attempt to connect, the flag of a ping and
its polls, and a poll. -/
structure AutoMeets (κ : Type*) where
  run : ConnectRun
  flag : κ
  polls : Nat → PollOutcome
  outcome : PollOutcome

/-- The steps of the user, of the thread and of the timer. -/
inductive AutoOp (κ : Type*)
  | start (created : Bool) (urls : List Bytes) (keepalive connTimeout : Nat)
  | stop
  | delete
  | joined
  | thread (meets : AutoMeets κ)
  | timerSweep

def AutoOp.Distinct : AutoOp κ → Prop
  | .start _ urls _ _ => urls.Nodup
  | _ => True

namespace AutoClient

/-- `ssn_client_auto_create`. -/
def create : AutoClient κ := ⟨.create, none, [], 0, 0, 0⟩

/-- The client is closed and the urls are freed. -/
def cleanup (w : AutoClient κ) : AutoClient κ := { w with client := none, urls := [] }

/-- `ssn_client_auto_start`; `msgCb` is `ssn_client_auto_msg_cb`. -/
def autoStart (msgCb : κ) (w : AutoClient κ) (created : Bool) (urls : List Bytes)
    (keepalive connTimeout : Nat) : AutoClient κ :=
  if w.auto.atRest then
    let started := { w with
      auto := w.auto.autoStart created
      client := some ⟨{ SsnClient.create with onsub := some msgCb }, []⟩
      urls := if urls = [] then w.urls else urls
      keepalive := if keepalive < 50 then 50 else keepalive
      connTimeout := if connTimeout < 20 then 20 else connTimeout
      connections := 0 }
    if created then started else started.cleanup
  else w

section Steps

variable [DecidableEq κ] (net : Nat → Nat → SendStep)

/-- What the thread does with the client, and what comes of it. -/
def clientStep (w : AutoClient κ) (pc : AutoPc) (meets : AutoMeets κ) (c : ClientWorld κ) :
    ClientWorld κ × Bool :=
  match pc with
  | .connecting => c.connect (some w.connTimeout) meets.run
  | .announcing => (c.subscribeAll net w.urls w.connTimeout, true)
  | .pinging =>
    let c' := c.ping net meets.flag w.keepalive meets.polls
    (c', ClientWorld.replied meets.flag (c'.log.drop c.log.length))
  | .polling =>
    let c' := c.poll meets.outcome
    (c', c'.client.connected)
  | _ => (c, true)

def threadStep (w : AutoClient κ) (pc : AutoPc) (meets : AutoMeets κ) (c : ClientWorld κ) :
    AutoClient κ :=
  let (c, ok) := w.clientStep net pc meets c
  { w with
    auto := w.auto.threadStep pc ok
    client := some c
    connections := if pc = .announcing then w.connections + 1 else w.connections }

def step (msgCb : κ) (w : AutoClient κ) : AutoOp κ → AutoClient κ
  | .start created urls keepalive connTimeout =>
    if w.auto.user = .outside then w.autoStart msgCb created urls keepalive connTimeout else w
  | .stop => { w with auto := w.auto.step .stop }
  | .delete => { w with auto := w.auto.step .delete }
  | .joined =>
    match w.auto.user, w.auto.thread with
    | .joining deleting, some .exited => { w with auto := w.auto.joined deleting }.cleanup
    | _, _ => w
  | .thread meets =>
    match w.auto.thread, w.client with
    | some pc, some c => w.threadStep net pc meets c
    | _, _ => w
  | .timerSweep =>
    { w with client := w.client.map fun c => c.setClient c.client.timerSweep }

end Steps

/-- There is at most one handler for each configured url. -/
def OneHandler (w : AutoClient κ) : Prop :=
  ∀ c ∈ w.client, ∀ url ∈ w.urls, c.handlerCount url ≤ 1

/-- The thread subscribes only after the first connection of its client, or has no url to subscribe
to. -/
def FirstConnection (w : AutoClient κ) : AutoOp κ → Prop
  | .thread _ =>
    w.client.isSome = true → w.auto.thread = some .announcing →
      w.connections = 0 ∨ ∀ url ∈ w.urls, urlOk url = false
  | _ => True

instance (w : AutoClient κ) : ∀ op, Decidable (w.FirstConnection op)
  | .thread _ =>
    inferInstanceAs (Decidable (w.client.isSome = true → w.auto.thread = some .announcing →
      w.connections = 0 ∨ ∀ url ∈ w.urls, urlOk url = false))
  | .start .. | .stop | .delete | .joined | .timerSweep => inferInstanceAs (Decidable True)

end AutoClient

/-! ## Subscriptions -/

namespace ClientWorld

variable {net : Nat → Nat → SendStep} {w : ClientWorld κ}

theorem connected_requestEx (msgType : UInt8) (url data : Option Ref) (timeoutMs : Nat) :
    (w.requestEx net msgType url data none timeoutMs).1.client.connected = w.client.connected := by
  have hlink : w.client.prepareSeqno.2.link = w.client.link := SsnClient.link_prepareSeqno
  unfold requestEx
  split_ifs
  · exact congrArg Link.connected hlink
  · rfl

theorem connected_subscribe (url : Bytes) (callback : Option κ) (timeoutMs : Nat) :
    (w.subscribe net url callback timeoutMs).1.client.connected = w.client.connected := by
  unfold subscribe
  split_ifs
  · exact connected_requestEx ..
  · rfl

theorem handlerCount_subscribe (hc : w.client.connected = true) (url : Bytes)
    (callback : Option κ) (timeoutMs : Nat) (s : Bytes) :
    (w.subscribe net url callback timeoutMs).1.handlerCount s =
      ([url].filter urlOk).count s + w.handlerCount s := by
  unfold subscribe
  by_cases hurl : urlOk url = true
  · rw [if_pos ⟨hurl, hc⟩, handlerCount, subHandlers_requestEx]
    simp [hurl, handlerCount, setClient, List.count_cons, Nat.add_comm]
  · rw [if_neg fun h => hurl h.1]
    simp [hurl]

/-- The subscriptions of a connected client: one handler more for every valid url. -/
theorem handlerCount_subscribeAll (hc : w.client.connected = true) (urls : List Bytes)
    (timeoutMs : Nat) (s : Bytes) :
    (w.subscribeAll net urls timeoutMs).handlerCount s =
      (urls.filter urlOk).count s + w.handlerCount s := by
  induction urls generalizing w with
  | nil => simp [subscribeAll]
  | cons url urls ih =>
    have hc' : (w.subscribe net url none timeoutMs).1.client.connected = true :=
      (connected_subscribe url none timeoutMs).trans hc
    have hrest : w.subscribeAll net (url :: urls) timeoutMs =
        (w.subscribe net url none timeoutMs).1.subscribeAll net urls timeoutMs := rfl
    have hsplit : ((url :: urls).filter urlOk).count s =
        ([url].filter urlOk).count s + (urls.filter urlOk).count s := by
      rw [← List.singleton_append, List.filter_append, List.count_append]
    rw [hrest, ih hc', handlerCount_subscribe hc, hsplit]
    omega

end ClientWorld

/-! ## Runs -/

namespace AutoClient

variable {w : AutoClient κ}

/-- The thread has connected and not yet subscribed. -/
def Connected (thread : Option AutoPc) : Prop :=
  thread = some .connectedWrite ∨ thread = some .announcing

/-- The client has a handler of each valid url for every connection, and is connected when the
thread has just connected it. -/
structure Inv (w : AutoClient κ) : Prop where
  nodup : w.urls.Nodup
  connected : ∀ c ∈ w.client, Connected w.auto.thread → c.client.connected = true
  count : ∀ c ∈ w.client, ∀ url ∈ w.urls,
    c.handlerCount url = if urlOk url then w.connections else 0

theorem Inv.of_none (hurls : w.urls.Nodup) (hnone : w.client = none) : w.Inv := by
  refine ⟨hurls, fun c hc => ?_, fun c hc => ?_⟩
  · cases hnone.symm.trans hc
  · cases hnone.symm.trans hc

theorem inv_create : (create : AutoClient κ).Inv := .of_none List.nodup_nil rfl

theorem inv_cleanup (w : AutoClient κ) : w.cleanup.Inv := .of_none List.nodup_nil rfl

theorem Inv.keep (h : w.Inv) {c c' : ClientWorld κ} (auto : ClientAuto) (hc : w.client = some c)
    (hsubs : c'.client.subHandlers = c.client.subHandlers)
    (hconn : Connected auto.thread → c'.client.connected = true) :
    Inv { w with auto, client := some c' } := by
  refine ⟨h.nodup, fun d hd => ?_, fun d hd url hurl => ?_⟩
  · obtain rfl := Option.some.inj hd
    exact hconn
  · obtain rfl := Option.some.inj hd
    rw [ClientWorld.handlerCount, hsubs]
    exact h.count c hc url hurl

theorem Inv.user (h : w.Inv) {auto : ClientAuto} (hthread : auto.thread = w.auto.thread) :
    Inv { w with auto } :=
  ⟨h.nodup, fun c hc hpc => h.connected c hc (hthread ▸ hpc), h.count⟩

/-- The thread has connected only after an attempt that succeeded. -/
theorem Connected.of_threadStep {s : ClientAuto} {pc : AutoPc} {ok : Bool}
    (hpc : s.thread = some pc) (h : Connected (s.threadStep pc ok).thread) :
    pc = .connecting ∧ ok = true ∨ pc = .connectedWrite := by
  cases pc with
  | top =>
    simp only [Connected, ClientAuto.threadStep, Option.some.injEq] at h
    split_ifs at h
    · cases hs : s.state <;> simp [hs, ClientAuto.branch] at h
    · simp at h
  | connecting =>
    cases ok with
    | true => exact .inl ⟨rfl, rfl⟩
    | false => simp [Connected, ClientAuto.threadStep] at h
  | connectedWrite => exact .inr rfl
  | pingFailed =>
    simp only [Connected, ClientAuto.threadStep, Option.some.injEq] at h
    split_ifs at h <;> simp at h
  | exited => simp [Connected, ClientAuto.threadStep, hpc] at h
  | _ => cases ok <;> simp [Connected, ClientAuto.threadStep] at h

/-- A round of subscriptions: one handler more for every valid url. -/
theorem Inv.subscribe (h : w.Inv) {net : Nat → Nat → SendStep} {c : ClientWorld κ}
    (hc : w.client = some c) (hconn : c.client.connected = true) {auto : ClientAuto}
    (hthread : auto.thread = some .top) :
    Inv { w with
      auto
      client := some (c.subscribeAll net w.urls w.connTimeout)
      connections := w.connections + 1 } := by
  refine ⟨h.nodup, fun d hd hpc => ?_, fun d hd url hurl => ?_⟩
  · rw [hthread] at hpc
    simp [Connected] at hpc
  · obtain rfl := Option.some.inj hd
    rw [ClientWorld.handlerCount_subscribeAll hconn, h.count c hc url hurl]
    by_cases hok : urlOk url = true
    · have hone : (w.urls.filter urlOk).count url = 1 :=
        List.count_eq_one_of_mem (h.nodup.filter _) (List.mem_filter.2 ⟨hurl, hok⟩)
      rw [hone, if_pos hok, if_pos hok, Nat.add_comm]
    · have hnone : (w.urls.filter urlOk).count url = 0 :=
        List.count_eq_zero.2 fun hmem => hok (List.mem_filter.1 hmem).2
      rw [hnone, if_neg hok, if_neg hok]

theorem Inv.autoStart (h : w.Inv) (msgCb : κ) (created : Bool) {urls : List Bytes}
    (hurls : urls.Nodup) (keepalive connTimeout : Nat) :
    (w.autoStart msgCb created urls keepalive connTimeout).Inv := by
  unfold AutoClient.autoStart
  by_cases hrest : w.auto.atRest = true
  · rw [if_pos hrest]
    cases created with
    | true =>
      refine ⟨?_, fun c hc hpc => ?_, fun c hc url _ => ?_⟩
      · simp only [if_true]
        split_ifs
        · exact h.nodup
        · exact hurls
      · simp [ClientAuto.autoStart, hrest, Connected] at hpc
      · obtain rfl := Option.some.inj hc
        simp [ClientWorld.handlerCount, SsnClient.create]
    | false => exact inv_cleanup _
  · rw [if_neg hrest]
    exact h

section Thread

variable [DecidableEq κ] {net : Nat → Nat → SendStep}

theorem subHandlers_clientStep {pc : AutoPc} (hpc : pc ≠ .announcing) (meets : AutoMeets κ)
    (c : ClientWorld κ) :
    (w.clientStep net pc meets c).1.client.subHandlers = c.client.subHandlers := by
  have hclosed := ClientWorld.closed_handlers (κ := κ) c.client.subHandlers
  cases pc with
  | announcing => exact absurd rfl hpc
  | connecting => exact hclosed.connect _ _ (fun _ _ _ hw => hw) rfl
  | pinging =>
    exact hclosed.step (.ping meets.flag w.keepalive meets.polls) (fun _ _ hp => hp)
      (fun ho => ho.elim) rfl rfl
  | polling => exact hclosed.kept.poll _ rfl
  | _ => rfl

theorem Inv.threadStep (h : w.Inv) {pc : AutoPc} (hpc : w.auto.thread = some pc)
    (meets : AutoMeets κ) {c : ClientWorld κ} (hc : w.client = some c) :
    (w.threadStep net pc meets c).Inv := by
  by_cases hann : pc = .announcing
  · subst hann
    exact h.subscribe hc (h.connected c hc (.inr hpc)) rfl
  · simp only [AutoClient.threadStep, if_neg hann]
    refine h.keep _ hc (subHandlers_clientStep hann meets c) fun hconn => ?_
    rcases Connected.of_threadStep hpc hconn with ⟨rfl, hok⟩ | rfl
    · exact (c.connected_connect _ _).trans hok
    · exact h.connected c hc (.inl hpc)

theorem inv_step (msgCb : κ) (w : AutoClient κ) (op : AutoOp κ) (h : w.Inv) (hop : op.Distinct) :
    (w.step net msgCb op).Inv := by
  cases op with
  | start created urls keepalive connTimeout =>
    simp only [step]
    split_ifs
    · exact h.autoStart msgCb created hop keepalive connTimeout
    · exact h
  | stop => exact h.user (by simp [ClientAuto.step, apply_ite ClientAuto.thread])
  | delete => exact h.user (by simp [ClientAuto.step, apply_ite ClientAuto.thread])
  | joined =>
    simp only [step]
    split
    · exact inv_cleanup _
    · exact h
  | thread meets =>
    simp only [step]
    split
    · rename_i hpc hc
      exact h.threadStep hpc meets hc
    · exact h
  | timerSweep =>
    simp only [step]
    cases hc : w.client with
    | none => exact .of_none h.nodup rfl
    | some c => exact h.keep w.auto hc rfl (h.connected c hc)

end Thread

/-! ## The number of handlers -/

/-- The client has connected at most once, or has nothing to subscribe to. -/
def Bounded (w : AutoClient κ) : Prop :=
  w.client.isSome = true → w.connections ≤ 1 ∨ ∀ url ∈ w.urls, urlOk url = false

/-- Whether one handler is enough is a matter of the connections. -/
theorem Inv.oneHandler_iff_bounded (h : w.Inv) : w.OneHandler ↔ w.Bounded := by
  constructor
  · intro hone hsome
    obtain ⟨c, hc⟩ := Option.isSome_iff_exists.1 hsome
    by_contra hmore
    rw [not_or, not_forall] at hmore
    obtain ⟨hconn, url, hvalid⟩ := hmore
    rw [Classical.not_imp, Bool.not_eq_false] at hvalid
    have hcount := h.count c hc url hvalid.1
    rw [if_pos hvalid.2] at hcount
    exact hconn (hcount ▸ hone c hc url hvalid.1)
  · intro hb c hc url hurl
    rw [h.count c hc url hurl]
    rcases hb (Option.isSome_of_mem hc) with hconn | hnone
    · split_ifs
      · exact hconn
      · exact Nat.zero_le _
    · simp [hnone url hurl]

section Thread

variable [DecidableEq κ] {net : Nat → Nat → SendStep}

/-- The connections of a client are counted where it subscribes. -/
theorem Bounded.threadStep (h : w.Bounded) (pc : AutoPc) (meets : AutoMeets κ)
    {c : ClientWorld κ} (hc : w.client = some c) :
    (w.threadStep net pc meets c).Bounded ↔
      (pc = .announcing → w.connections = 0 ∨ ∀ url ∈ w.urls, urlOk url = false) := by
  have hsome : (w.threadStep net pc meets c).client.isSome = true := rfl
  have hurls : (w.threadStep net pc meets c).urls = w.urls := rfl
  rw [Bounded, hurls]
  by_cases hann : pc = .announcing
  · have hn : (w.threadStep net pc meets c).connections = w.connections + 1 := if_pos hann
    rw [hn, Nat.succ_le_succ_iff, Nat.le_zero]
    exact ⟨fun hb _ => hb hsome, fun hb _ => hb hann⟩
  · have hn : (w.threadStep net pc meets c).connections = w.connections := if_neg hann
    rw [hn]
    exact iff_of_true (fun _ => h (by rw [hc]; rfl)) fun hp => absurd hp hann

/-- A step keeps the bound exactly if it subscribes for the first time or not at all. -/
theorem Bounded.step (h : w.Bounded) (msgCb : κ) (op : AutoOp κ) :
    (w.step net msgCb op).Bounded ↔ w.FirstConnection op := by
  cases op with
  | start created urls keepalive connTimeout =>
    refine iff_of_true ?_ trivial
    simp only [AutoClient.step, AutoClient.autoStart]
    split_ifs
    all_goals first | exact h | exact fun _ => .inl (Nat.zero_le _)
  | stop => exact iff_of_true h trivial
  | delete => exact iff_of_true h trivial
  | joined =>
    refine iff_of_true ?_ trivial
    simp only [AutoClient.step]
    split
    · intro hsome
      cases hsome
    · exact h
  | thread meets =>
    simp only [AutoClient.step]
    split
    · rename_i pc c hpc hc
      rw [h.threadStep pc meets hc, FirstConnection, hpc, hc]
      simp
    · rename_i hno
      refine iff_of_true h fun hsome hpc => ?_
      obtain ⟨c, hc⟩ := Option.isSome_iff_exists.1 hsome
      exact absurd hc (hno _ c hpc)
  | timerSweep =>
    refine iff_of_true (fun hsome => h ?_) trivial
    simpa [AutoClient.step] using hsome

end Thread

end AutoClient

section Results

variable [DecidableEq κ] (net : Nat → Nat → SendStep) (msgCb : κ) {ops : List (AutoOp κ)}

/-- **Growth:** in every run of an auto-reconnect client with distinct urls, the client has one
handler of each valid url for every connection it has made. -/
theorem handlerCount_eq (hops : ∀ op ∈ ops, op.Distinct) :
    Runs.Always (AutoClient.step net msgCb)
      (fun w => ∀ c ∈ w.client, ∀ url ∈ w.urls,
        c.handlerCount url = if urlOk url then w.connections else 0) .create ops :=
  Runs.always_of_invariant (AutoClient.inv_step msgCb) (fun _ h => h.count) AutoClient.inv_create
    (Runs.eachStep_of_forall fun op hop _ => hops op hop)

/-- **Handlers:** in a run with distinct urls there is at most one handler for each configured url
exactly when every client subscribes after its first connection only, or has no valid url. -/
theorem oneHandler_iff (hops : ∀ op ∈ ops, op.Distinct) :
    Runs.Always (AutoClient.step net msgCb) AutoClient.OneHandler .create ops ↔
      Runs.EachStep (AutoClient.step net msgCb) AutoClient.FirstConnection .create ops := by
  have hstep : ∀ (w : AutoClient κ) (op : AutoOp κ), w.Inv ∧ w.Bounded → op.Distinct →
      w.FirstConnection op → (w.step net msgCb op).Inv ∧ (w.step net msgCb op).Bounded :=
    fun w op h hop hfirst =>
      ⟨AutoClient.inv_step msgCb w op h.1 hop, (h.2.step msgCb op).2 hfirst⟩
  refine Runs.always_iff_eachStep hstep ?_ ?_ ⟨AutoClient.inv_create, fun hsome => ?_⟩
    (Runs.eachStep_of_forall fun op hop _ => hops op hop)
  · intro w h
    exact h.1.oneHandler_iff_bounded.2 h.2
  · intro w op h hop hfirst hone
    have hinv : (w.step net msgCb op).Inv := AutoClient.inv_step msgCb w op h.1 hop
    exact hfirst ((h.2.step msgCb op).1 (hinv.oneHandler_iff_bounded.1 hone))
  · cases hsome

end Results

/-- The server answers every attempt to connect, but no ping, and closes the connection when it is
polled. -/
def flaky : AutoMeets Nat where
  run := answeredRun
  flag := 1
  polls := fun _ => .idle
  outcome := .ready (some .eof)

/-- A start with the url `/a`, and steps of the thread. -/
def flakyRun (steps : Nat) : List (AutoOp Nat) :=
  .start true [[slash, 0x61]] 50 20 :: List.replicate steps (.thread flaky)

theorem flakyRun_distinct (steps : Nat) : ∀ op ∈ flakyRun steps, op.Distinct := by
  intro op hop
  rcases List.mem_cons.1 hop with rfl | hthread
  · exact List.nodup_singleton _
  · rw [List.eq_of_mem_replicate hthread]
    trivial

/-- The first connection and its subscription. -/
theorem flakyRun_first :
    Runs.Always (AutoClient.step acceptAll 0) AutoClient.OneHandler .create (flakyRun 4) := by
  refine (oneHandler_iff acceptAll 0 (flakyRun_distinct 4)).2 ?_
  simp only [flakyRun, List.replicate, Runs.eachStep_cons, Runs.eachStep_nil, and_true]
  decide +kernel

/-- After the second connection there are two handlers for the url. -/
theorem flakyRun_second :
    ((Runs.run (AutoClient.step acceptAll 0) .create (flakyRun 17)).client.map
      fun c => c.handlerCount [slash, 0x61]) = some 2 := by
  decide +kernel

end Ssn
