import SsnIpc.Client.Connections
import SsnIpc.Frame.RoundTrip
import SsnIpc.Lib.Runs
import SsnIpc.Server.Subscriptions

/-!
# Publications at the client

The server sends a publication to a client if one of its subscriptions is the url, is the root, or
is a subtree the url lies in (`Server.cliSubMatch`). The client hands it to the callback given to
`ssn_client_subscribe` only if the url is the subscription itself (`handlePublish`).

**Theorem (`published_iff_not_subtree`).** For a client whose only subscription is `s`, every
publication the server sends reaches the callback of `s` exactly when `s` does not end in a
slash.

Handlers stay as they are between a subscription and the publications for it (`callbackOf_run`).
-/

namespace Ssn

open ByteMem

variable {κ : Type*} {net : Nat → Nat → SendStep} {w : ClientWorld κ}

/-! ## Handlers -/

theorem find?_eraseP_of_disjoint {α : Type*} {p q : α → Bool} (h : ∀ x, p x → q x = false)
    (l : List α) : (l.eraseP p).find? q = l.find? q := by
  induction l with
  | nil => rfl
  | cons x l ih =>
    by_cases hp : p x = true
    · rw [List.eraseP_cons_of_pos hp, List.find?_cons_of_neg (by simp [h x hp])]
    · rw [List.eraseP_cons_of_neg hp, List.find?_cons, List.find?_cons, ih]

/-- The step neither subscribes to `s` nor unsubscribes from it. -/
def ClientOp.Leaves (s : Bytes) : ClientOp κ → Prop
  | .subscribe url _ _ => url ≠ s
  | .unsubscribe url _ => url ≠ s
  | _ => True

namespace ClientWorld

/-- The callback of the newest handler of a url. -/
def callbackOf (w : ClientWorld κ) (s : Bytes) : Option κ :=
  (w.client.subHandlers.find? fun h => h.url = s).bind SubHandler.callback

theorem callbackOf_handlersAfter {s : Bytes} {op : ClientOp κ} (hop : op.Leaves s) :
    (w.withHandlers (w.handlersAfter op)).callbackOf s = w.callbackOf s := by
  cases op with
  | subscribe url callback timeoutMs =>
    have hne : url ≠ s := hop
    simp only [handlersAfter]
    split_ifs
    · simp [callbackOf, withHandlers, setClient, hne]
    · rfl
  | unsubscribe url timeoutMs =>
    have hne : url ≠ s := hop
    simp only [handlersAfter]
    split_ifs
    · refine congrArg (Option.bind · _) (find?_eraseP_of_disjoint (fun h hurl => ?_) _)
      simpa [of_decide_eq_true hurl] using hne
    · rfl
  | _ => rfl

theorem callbackOf_of_link {w w' : ClientWorld κ} (h : w'.client.link = w.client.link)
    (s : Bytes) : w'.callbackOf s = w.callbackOf s := by
  have hsubs : w'.client.subHandlers = w.client.subHandlers := congrArg Link.subHandlers h
  rw [callbackOf, hsubs]
  rfl

theorem closed_callbackOf (s : Bytes) (c : Option κ) :
    Closed fun w : ClientWorld κ => w.callbackOf s = c :=
  .of_link (fun hlink h => (callbackOf_of_link hlink s).trans h) (fun _ h => h) (fun _ h => h)
    fun _ h => h

theorem callbackOf_run [DecidableEq κ] (net : Nat → Nat → SendStep) {s : Bytes}
    {ops : List (ClientOp κ)} (hops : ∀ op ∈ ops, op.Leaves s) :
    (Runs.run (step net) w ops).callbackOf s = w.callbackOf s := by
  induction ops generalizing w with
  | nil => rfl
  | cons op ops ih =>
    rw [List.forall_mem_cons] at hops
    rw [Runs.run_cons, ih hops.2]
    exact (closed_callbackOf s (w.callbackOf s)).step op (fun p _ hp => hp)
      (fun _ _ _ hw => hw) (callbackOf_handlersAfter hops.1) rfl

theorem callbackOf_subscribe (net : Nat → Nat → SendStep) {s : Bytes} (k : κ) (timeoutMs : Nat)
    (hs : urlOk s = true) (hc : w.client.connected = true) :
    (w.subscribe net s (some k) timeoutMs).1.callbackOf s = some k := by
  rw [subscribe, if_pos ⟨hs, hc⟩, requestEx, if_pos (by exact hc)]
  refine (closed_callbackOf s (some k)).kept.requestWith (fun p _ hp => hp) ?_
  simp [callbackOf, setClient]

theorem input_publish {f : Frame} (hf : getMsgType f = MsgType.publish) :
    w.input f = (w.emit (.input f)).handlePublish f := by
  rw [input, if_pos hf]

theorem log_input_heard {f : Frame} {k : κ} (hf : getMsgType f = MsgType.publish)
    (hk : w.callbackOf f.url = some k) :
    (w.input f).log = w.log ++ [.input f, .published k f] := by
  have hfind : ((w.emit (.input f)).client.subHandlers.find? fun h => h.url = f.url).bind
      SubHandler.callback = some k := hk
  rw [input_publish hf, handlePublish, hfind]
  simp [emit]

/-- A publication without a callback of its own or a general one reaches nobody. -/
theorem log_input_unheard {f : Frame} (hf : getMsgType f = MsgType.publish)
    (hk : w.callbackOf f.url = none) (hsub : w.client.onsub = none)
    (hmsg : w.client.onmsg = none) : (w.input f).log = w.log ++ [.input f] := by
  have hfind : ((w.emit (.input f)).client.subHandlers.find? fun h => h.url = f.url).bind
      SubHandler.callback = none := hk
  have hsub' : (w.emit (.input f)).client.onsub = none := hsub
  have hmsg' : (w.emit (.input f)).client.onmsg = none := hmsg
  rw [input_publish hf, handlePublish, hfind, hsub', hmsg']
  rfl

end ClientWorld

/-! ## Matching -/

/-- Without a slash at its end a subscription matches itself only. -/
theorem cliSubMatch_plain {s u : Bytes} (hs : urlOk s = true) (hlast : s.getLast? ≠ some slash)
    (h : Server.cliSubMatch [s] u = true) : u = s := by
  obtain ⟨s', hmem, hcov⟩ := (cliSubMatch_iff (by simpa using hs) u).1 h
  obtain rfl : s' = s := by simpa using hmem
  rcases hcov with rfl | rfl | ⟨hslash, -⟩
  · exact absurd rfl hlast
  · rfl
  · exact absurd hslash hlast

/-- With a slash at its end a subscription matches another url too, no longer than itself or
short. -/
theorem exists_cliSubMatch {s : Bytes} (hs : urlOk s = true) (hlast : s.getLast? = some slash) :
    ∃ u, Server.cliSubMatch [s] u = true ∧ u ≠ s ∧ urlOk u = true ∧ u.length ≤ max 2 s.length := by
  by_cases hroot : s = [slash]
  · subst hroot
    exact ⟨[slash, 0x61], by decide, by decide, by decide, by decide⟩
  · obtain ⟨path, rfl⟩ := List.getLast?_eq_some_iff.1 hlast
    have hpath : path ≠ [] := by
      rintro rfl
      exact hroot rfl
    refine ⟨path, (cliSubMatch_iff (by simpa using hs) path).2 ⟨path ++ [slash], by simp, ?_⟩,
      by simp, ?_, by simp⟩
    · exact .inr (.inr ⟨hlast, .inl (by simp)⟩)
    · cases path with
      | nil => exact absurd rfl hpath
      | cons c path => simpa [urlOk] using hs

theorem exists_publish_frame {u : Bytes} (hu : u.length ≤ 65535) :
    ∃ f : Frame, getMsgType f = MsgType.publish ∧ f.url = u := by
  have hsend : Sendable (some (Ref.ofBytes u)) none := by
    refine ⟨hu, by simp [Ref.NoDangle, Ref.ofBytes], by simp, ?_⟩
    simp only [optLen, Option.elim_some, Option.elim_none, Ref.ofBytes, headerSize, maxPacketSize]
    omega
  let f : Frame := ⟨packet MsgType.publish 0 0 (some (Ref.ofBytes u)) none, validate_packet hsend⟩
  obtain ⟨htype, -, -, hurl, -⟩ := fields_of_packet hsend (f := f) rfl
  exact ⟨f, htype, hurl⟩

/-! ## The callback -/

theorem log_input_elsewhere {s : Bytes} (k : κ) (hs : urlOk s = true) {f : Frame}
    (hf : getMsgType f = MsgType.publish) (hne : f.url ≠ s) :
    let w := (connectedClient.subscribe acceptAll s (some k) 0).1
    (w.input f).log = w.log ++ [.input f] := by
  -- The only handler is that of `s`, and there are no general ones.
  have hbare : (ClientWorld.Closed fun w : ClientWorld κ =>
      w.callbackOf f.url = none ∧ w.client.onsub = none ∧ w.client.onmsg = none) :=
    .of_link (fun hlink h => ⟨(ClientWorld.callbackOf_of_link hlink _).trans h.1,
      (congrArg Link.onsub hlink).trans h.2.1, (congrArg Link.onmsg hlink).trans h.2.2⟩)
      (fun _ h => h) (fun _ h => h) fun _ h => h
  intro w
  have hw : w.callbackOf f.url = none ∧ w.client.onsub = none ∧ w.client.onmsg = none := by
    simp only [w]
    rw [ClientWorld.subscribe, if_pos ⟨hs, rfl⟩, ClientWorld.requestEx, if_pos (by rfl)]
    refine hbare.kept.requestWith (fun p _ hp => hp) ⟨?_, rfl, rfl⟩
    simp [ClientWorld.callbackOf, ClientWorld.setClient, connectedClient, SsnClient.create,
      Ne.symm hne]
  exact ClientWorld.log_input_unheard hf hw.1 hw.2.1 hw.2.2

/-- **Publications reach the callback of a subscription unless it is a subtree.** Take a
subscription `s` with a callback `k`, held by the server as the client's only one. Every
publication that the server sends to the client for it is handed to `k`, whatever the client did
before, and since as long as it left the subscription alone, exactly when `s` does not end in a
slash. -/
theorem published_iff_not_subtree [DecidableEq κ] (k : κ) (s : Bytes) (hs : urlOk s = true)
    (hlen : s.length ≤ 65535) :
    (∀ (net : Nat → Nat → SendStep) (w : ClientWorld κ) (timeoutMs : Nat)
      (ops : List (ClientOp κ)) (f : Frame),
      w.client.connected = true → (∀ op ∈ ops, op.Leaves s) →
      getMsgType f = MsgType.publish → urlOk f.url = true →
      Server.cliSubMatch [s] f.url = true →
      let w' := Runs.run (ClientWorld.step net) (w.subscribe net s (some k) timeoutMs).1 ops
      (w'.input f).log = w'.log ++ [.input f, .published k f]) ↔
    s.getLast? ≠ some slash := by
  constructor
  · intro h hlast
    obtain ⟨u, hmatch, hne, hu, hul⟩ := exists_cliSubMatch hs hlast
    obtain ⟨f, hf, rfl⟩ := exists_publish_frame (u := u) (by omega)
    have hlog := h acceptAll connectedClient 0 [] f rfl (by simp) hf hu hmatch
    have hlost := log_input_elsewhere k hs hf hne
    simp [hlost] at hlog
  · intro hlast net w timeoutMs ops f hc hops hf _ hmatch
    obtain rfl : f.url = s := cliSubMatch_plain hs hlast hmatch
    have hk := ClientWorld.callbackOf_subscribe net k timeoutMs hs hc
    exact ClientWorld.log_input_heard hf ((ClientWorld.callbackOf_run net hops).trans hk)

/-- The publication of `/a`. -/
def publishA : Frame :=
  ⟨packet MsgType.publish 0 0 (some (Ref.ofBytes [slash, 0x61])) none, by decide +kernel⟩

/-- The callback of a subscription to `/a` gets it. -/
theorem publishA_heard :
    let w := (connectedClient.subscribe acceptAll [slash, 0x61] (some 7) 0).1
    (w.input publishA).log = w.log ++ [.input publishA, .published 7 publishA] :=
  (published_iff_not_subtree 7 [slash, 0x61] (by decide) (by decide)).2 (by decide) _ _ 0 [] _ rfl
    (by simp) (by decide +kernel) (by decide +kernel) (by decide +kernel)

/-- A subscription to the subtree `/a/` matches it at the server, and at the client the callback is
not called. -/
theorem publishA_not_heard_by_subtree :
    Server.cliSubMatch [[slash, 0x61, slash]] publishA.url = true ∧
      let w := (connectedClient.subscribe acceptAll [slash, 0x61, slash] (some 7) 0).1
      (w.input publishA).log = w.log ++ [.input publishA] :=
  ⟨by decide +kernel, log_input_elsewhere 7 (by decide) (by decide +kernel) (by decide +kernel)⟩

end Ssn
