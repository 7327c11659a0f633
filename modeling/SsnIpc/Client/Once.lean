import SsnIpc.Client.Connections
import SsnIpc.Client.Slots
import SsnIpc.Frame.RoundTrip

/-!
# A callback is called once

The client keeps a request in a slot, or among those that it is about to tell that there is no
reply. The accounts of a state (`Accounts`) say that no request is in two of these places and that
none of them was called before, except for the request whose reply is being handled:
`ssn_client_input` frees its slot only after the callback.

**Theorem (`sound_iff_noEnding`).** Every callback is called at most once, and a slot that is freed
after its callback holds no other request, in exactly those runs in which no callback of a reply
connects or, while the client is connected, disconnects. Requests in callbacks, and whatever
handlers and callbacks without a reply do, need no condition.

Connecting and disconnecting tell every pending request that there is no reply, and the one whose
reply is being handled is still pending (`Inv.called_again`).
-/

namespace Ssn

open ByteMem

variable {net : Nat → Nat → SendStep}

/-! ## Accounts -/

/-- No request is in two places: the slots, and the requests `seen`, which were called or are going
to be. Only the slot `running`, whose callback is running, may hold one of these. -/
structure Accounts (c : SsnClient Nat) (seen : List Nat) (running : Option Nat) (requests : Nat) :
    Prop where
  inj : ∀ i j k, c.Holds i k → c.Holds j k → i = j
  lt : ∀ i k, c.Holds i k → k < requests
  new : ∀ i k, c.Holds i k → running ≠ some i → k ∉ seen
  seen_lt : ∀ k ∈ seen, k < requests
  nodup : seen.Nodup

namespace Accounts

open SsnClient

variable {c c' : SsnClient Nat} {seen : List Nat} {running : Option Nat} {requests i k : Nat}

theorem mono (h : Accounts c seen running requests)
    (hsub : ∀ i k, c'.Holds i k → c.Holds i k) : Accounts c' seen running requests where
  inj i j k hi hj := h.inj i j k (hsub i k hi) (hsub j k hj)
  lt i k hi := h.lt i k (hsub i k hi)
  new i k hi := h.new i k (hsub i k hi)
  seen_lt := h.seen_lt
  nodup := h.nodup

theorem succ (h : Accounts c seen running requests) :
    Accounts c seen running (requests + 1) where
  inj := h.inj
  lt i k hi := Nat.lt_succ_of_lt (h.lt i k hi)
  new := h.new
  seen_lt k hk := Nat.lt_succ_of_lt (h.seen_lt k hk)
  nodup := h.nodup

theorem take (h : Accounts c seen running requests)
    (hc : ∀ j k, c'.Holds j k ↔ (j = i ∧ k = requests) ∨ c.Holds j k) :
    Accounts c' seen running (requests + 1) where
  inj a b k ha hb := by
    rcases (hc a k).1 ha with ⟨rfl, rfl⟩ | ha <;> rcases (hc b k).1 hb with ⟨rfl, hk⟩ | hb
    · rfl
    · exact absurd (h.lt b _ hb) (Nat.lt_irrefl _)
    · exact absurd (hk ▸ h.lt a k ha) (Nat.lt_irrefl _)
    · exact h.inj a b k ha hb
  lt a k ha := by
    rcases (hc a k).1 ha with ⟨-, rfl⟩ | ha
    · exact Nat.lt_succ_self _
    · exact Nat.lt_succ_of_lt (h.lt a k ha)
  new a k ha hne := by
    rcases (hc a k).1 ha with ⟨-, rfl⟩ | ha
    · intro hk
      exact absurd (h.seen_lt _ hk) (Nat.lt_irrefl _)
    · exact h.new a k ha hne
  seen_lt k hk := Nat.lt_succ_of_lt (h.seen_lt k hk)
  nodup := h.nodup

/-- The callback of the request in slot `i` is called with its reply. -/
theorem reply (h : Accounts c seen none requests) (hi : c.Holds i k) :
    Accounts c (seen ++ [k]) (some i) requests where
  inj := h.inj
  lt := h.lt
  new j k' hj hne := by
    rw [List.mem_append, not_or, List.mem_singleton]
    refine ⟨h.new j k' hj (by simp), ?_⟩
    rintro rfl
    exact hne (congrArg some (h.inj i j _ hi hj))
  seen_lt k' hk' := by
    rcases List.mem_append.1 hk' with hk' | hk'
    · exact h.seen_lt k' hk'
    · obtain rfl := List.mem_singleton.1 hk'
      exact h.lt i _ hi
  nodup := by
    rw [← List.concat_eq_append, List.nodup_concat]
    exact ⟨h.new i k hi (by simp), h.nodup⟩

theorem returned (h : Accounts c seen (some i) requests) (hi : i < maxPending) :
    Accounts (c.freePendingIndex i) seen none requests where
  inj a b k ha hb := h.inj a b k ha.of_freePendingIndex hb.of_freePendingIndex
  lt a k ha := h.lt a k ha.of_freePendingIndex
  new a k ha _ := by
    obtain ⟨hne, ha⟩ := (holds_freePendingIndex hi).1 ha
    exact h.new a k ha fun e => hne (Option.some.inj e).symm
  seen_lt := h.seen_lt
  nodup := h.nodup

theorem collect (h : Accounts c seen none requests) (onlyTimeout : Bool) :
    Accounts (c.collect onlyTimeout).1 (owedBy (c.collect onlyTimeout).2 ++ seen) none
      requests where
  inj a b k ha hb := h.inj a b k ha.of_collect.1 hb.of_collect.1
  lt a k ha := h.lt a k ha.of_collect.1
  new a k ha _ := by
    obtain ⟨ha, hleft⟩ := ha.of_collect
    rw [List.mem_append, not_or]
    refine ⟨fun hk => ?_, h.new a k ha (by simp)⟩
    obtain ⟨b, hb, hrep, hbk⟩ := mem_owedBy_collect.1 hk
    obtain rfl := h.inj a b k ha hbk
    rw [hleft hb] at hrep
    cases hrep
  seen_lt k hk := by
    rcases List.mem_append.1 hk with hk | hk
    · obtain ⟨b, -, -, hb⟩ := mem_owedBy_collect.1 hk
      exact h.lt b k hb
    · exact h.seen_lt k hk
  nodup := by
    refine (nodup_owedBy_collect h.inj).append h.nodup fun k hk hseen => ?_
    obtain ⟨b, -, -, hb⟩ := mem_owedBy_collect.1 hk
    exact h.new b k hb (by simp) hseen

theorem perm {seen' : List Nat} (h : Accounts c seen running requests) (hp : seen.Perm seen') :
    Accounts c seen' running requests where
  inj := h.inj
  lt := h.lt
  new i k hi hne := hp.mem_iff.not.1 (h.new i k hi hne)
  seen_lt k hk := h.seen_lt k (hp.mem_iff.2 hk)
  nodup := hp.nodup_iff.1 h.nodup

end Accounts

/-! ## The accounts of a state -/

/-- The requests that are still to be told that there is no reply. -/
def Resume.owed : Resume → List Nat
  | .failed items _ => SsnClient.owedBy items
  | _ => []

def Resume.isReply : Resume → Bool
  | .reply .. => true
  | _ => false

namespace Reentrant

open SsnClient

variable {s : Reentrant}

def called (s : Reentrant) : List Nat := s.world.called

theorem called_setWorld (w : ClientWorld Nat) : (s.setWorld w).called = w.called := rfl

def seen (s : Reentrant) : List Nat := s.called ++ s.stack.flatMap Resume.owed

/-- The slot that is freed when the innermost callback returns, and the request it was for. -/
def replying : List Resume → Option (Nat × Nat)
  | .reply index k _ _ :: _ => some (index, k)
  | _ => none

/-- The callback of a reply or a handler is the outermost, since it is called by a poll; and as long
as a reply's callback makes no calls, it is the only one. -/
inductive Shape : List Resume → Prop
  | idle : Shape []
  | reply (index k : Nat) (fs : List Frame) (ok : Bool) : Shape [.reply index k fs ok]
  | handler (fs : List Frame) (ok : Bool) : Shape [.handler fs ok]
  | failed (items : List (Pending Nat)) (after : AfterCalls) {stack : List Resume} :
      Shape stack → replying stack = none → Shape (.failed items after :: stack)

/-- The accounts are in order, and the slot of a reply whose callback is running holds its request
still. -/
structure Inv (s : Reentrant) : Prop where
  accounts : Accounts s.world.client s.seen ((replying s.stack).map Prod.fst) s.requests
  shape : Shape s.stack
  kept : ∀ {r}, replying s.stack = some r →
    r.1 < maxPending ∧ s.world.client.Holds r.1 r.2 ∧ r.2 ∈ s.called

theorem Inv.of_calm (hacc : Accounts s.world.client s.seen none s.requests) (hshape : Shape s.stack)
    (hcalm : replying s.stack = none) : Inv s := by
  refine ⟨by rwa [hcalm], hshape, fun hs => ?_⟩
  rw [hs] at hcalm
  cases hcalm

theorem Inv.accounts_calm (h : Inv s) (hcalm : replying s.stack = none) :
    Accounts s.world.client s.seen none s.requests := by
  have hacc := h.accounts
  rwa [hcalm] at hacc

theorem replying_of_nil (hs : s.stack = []) : replying s.stack = none := by
  rw [hs]
  rfl

/-! ## Steps of one kind -/

theorem Inv.still (h : Inv s) {w : ClientWorld Nat} (hw : ClientWorld.Still s.world w) :
    Inv (s.setWorld w) := by
  have hcalled : (s.setWorld w).called = s.called := hw.called_eq
  refine ⟨?_, h.shape, fun hs => ?_⟩
  · rw [seen, hcalled]
    exact h.accounts.mono fun i k => (hw.slots i k).1
  · obtain ⟨hi, hk, hmem⟩ := h.kept hs
    exact ⟨hi, (hw.slots _ _).2 hk, hcalled ▸ hmem⟩

theorem Inv.setClient (h : Inv s) (c : SsnClient Nat) (hpool : c.pool = s.world.client.pool) :
    Inv (s.setWorld (s.world.setClient c)) :=
  h.still (ClientWorld.still_setClient hpool)

theorem Inv.requested (h : Inv s) {w : ClientWorld Nat} {callback : Option Nat}
    (hw : ClientWorld.Takes s.world w callback) (hk : ∀ k ∈ callback, k = s.requests) :
    Inv (s.requested w) := by
  rcases hw.slots with hsame | ⟨k, i, rfl, -, htaken⟩
  · have hstill := h.still ⟨hw.calls, hsame⟩
    exact ⟨hstill.accounts.succ, hstill.shape, hstill.kept⟩
  · obtain rfl := hk k rfl
    have hcalled : (s.requested w).called = s.called :=
      hw.calls.called_eq.trans (List.append_nil _)
    refine ⟨?_, h.shape, fun hs => ?_⟩
    · rw [seen, hcalled]
      exact h.accounts.take htaken
    · obtain ⟨hi, hk, hmem⟩ := h.kept hs
      exact ⟨hi, (htaken _ _).2 (.inr hk), hcalled ▸ hmem⟩

theorem Inv.finish (h : Inv s) (after : AfterCalls) : Inv (s.finish after) := by
  cases after with
  | done => exact h
  | dial timeoutMs run recv =>
    have h' := h.setClient { s.world.client with recv } rfl
    exact h'.still (ClientWorld.still_dial timeoutMs run)
  | hangUp => exact h.setClient { s.world.client with connected := false, transport := none } rfl

theorem inv_callItems (after : AfterCalls) (items : List (Pending Nat))
    (hacc : Accounts s.world.client
      (s.called ++ (owedBy items ++ s.stack.flatMap Resume.owed)) none s.requests)
    (hshape : Shape s.stack) (hcalm : replying s.stack = none) : Inv (s.callItems after items) := by
  induction items with
  | nil => exact (Inv.of_calm hacc hshape hcalm).finish after
  | cons p items ih =>
    rw [callItems]
    cases hp : ClientWorld.failedCall p with
    | none =>
      refine ih ?_
      rwa [owedBy, List.filterMap_cons_none hp] at hacc
    | some call =>
      refine .of_calm ?_ (.failed items after hshape hcalm) rfl
      rw [owedBy, List.filterMap_cons_some hp] at hacc
      have hseen : (s.enter (.called call.1 none) (.failed items after)).seen =
          s.called ++ (call.1 :: (owedBy items ++ s.stack.flatMap Resume.owed)) := by
        show (s.world.emit (.called call.1 none)).called ++ _ = _
        rw [ClientWorld.called_emit, List.append_assoc]
        rfl
      rw [hseen]
      exact hacc

theorem Inv.collectAndCallPending (h : Inv s) (hcalm : replying s.stack = none) (onlyTimeout : Bool)
    (after : AfterCalls) : Inv (s.collectAndCallPending onlyTimeout after) := by
  have hacc := (h.accounts_calm hcalm).collect onlyTimeout
  unfold Reentrant.collectAndCallPending
  rcases hcol : s.world.client.collect onlyTimeout with ⟨c, items⟩
  rw [hcol] at hacc
  refine inv_callItems after items ?_ h.shape hcalm
  exact hacc.perm (List.perm_append_comm_assoc (owedBy items) s.called _)

theorem Inv.handleEvent (h : Inv s) (hcalm : replying s.stack = none) : Inv s.handleEvent := by
  unfold Reentrant.handleEvent
  split_ifs
  · have h' := h.setClient { s.world.client with evtPending := false } rfl
    exact h'.collectAndCallPending hcalm true .done
  · exact h

theorem Inv.connectionLost (h : Inv s) (hcalm : replying s.stack = none) : Inv s.connectionLost :=
  (h.setClient { s.world.client with connected := false } rfl).collectAndCallPending hcalm false
    .hangUp

theorem Inv.connect (h : Inv s) (hcalm : replying s.stack = none) (timeoutMs : Option Nat)
    (run : ConnectRun) (recv : StreamCtx) : Inv (s.connect timeoutMs run recv) :=
  (h.setClient { s.world.client with connected := false, transport := none }
    rfl).collectAndCallPending hcalm false (.dial timeoutMs run recv)

theorem Inv.disconnect (h : Inv s) (hcalm : s.world.client.connected = true →
    replying s.stack = none) : Inv s.disconnect := by
  unfold Reentrant.disconnect
  split_ifs with hc
  · have h' := h.setClient { s.world.client with
      connected := false
      transport := s.world.client.transport.map Transport.disconnect } rfl
    exact h'.collectAndCallPending (hcalm hc) false .done
  · exact h

/-! ## Input -/

theorem Inv.free (h : Inv s) (hs : s.stack = []) (index : Nat) :
    Inv (s.setWorld (s.world.setClient (s.world.client.freePendingIndex index))) := by
  have hcalm := replying_of_nil hs
  exact .of_calm ((h.accounts_calm hcalm).mono fun i k hi => hi.of_freePendingIndex) h.shape hcalm

theorem Inv.reply (h : Inv s) (hs : s.stack = []) {index k : Nat} (hi : index < maxPending)
    (hk : s.world.client.Holds index k) (f : Frame) (fs : List Frame) (ok : Bool) :
    Inv (s.enter (.called k (some f)) (.reply index k fs ok)) := by
  have hacc := h.accounts
  rw [seen, hs, List.flatMap_nil, List.append_nil] at hacc
  have hstack : (s.enter (.called k (some f)) (.reply index k fs ok)).stack =
      [.reply index k fs ok] := congrArg _ hs
  have hcalled : (s.enter (.called k (some f)) (.reply index k fs ok)).called = s.called ++ [k] :=
    ClientWorld.called_emit _
  refine ⟨?_, hstack ▸ .reply index k fs ok, fun hr => ?_⟩
  · rw [seen, hcalled, hstack]
    exact (List.append_nil (s.called ++ [k])).symm ▸ hacc.reply hk
  · cases hr
    exact ⟨hi, hk, hcalled ▸ List.mem_append_right _ List.mem_cons_self⟩

theorem Inv.handler (h : Inv s) (hs : s.stack = []) {e : ClientEvent Nat} (he : e.call? = none)
    (fs : List Frame) (ok : Bool) : Inv (s.enter e (.handler fs ok)) := by
  have hstack : (s.enter e (.handler fs ok)).stack = [.handler fs ok] := congrArg _ hs
  have hcalm := replying_of_nil hs
  refine .of_calm ?_ (hstack ▸ .handler fs ok) rfl
  have hseen : (s.enter e (.handler fs ok)).seen = s.seen := by
    rw [seen, seen, hstack, hs, called, enter, ClientWorld.called_emit, he]
    exact congrArg (· ++ _) (List.append_nil _)
  rw [hseen]
  exact h.accounts_calm hcalm

theorem Inv.feed (h : Inv s) (hs : s.stack = []) (ok : Bool) (fs : List Frame) :
    Inv (s.feed ok fs) := by
  induction fs generalizing s with
  | nil =>
    have hcalm := replying_of_nil hs
    rw [Reentrant.feed]
    split_ifs
    · exact h.handleEvent hcalm
    · exact h.connectionLost hcalm
  | cons f fs ih =>
    have hinput : Inv (s.setWorld (s.world.emit (.input f))) :=
      h.still (ClientWorld.still_of_pool (ClientWorld.calls_emit _) rfl)
    -- A frame calls nobody and the loop goes on, or it stops inside of a callback.
    by_cases hf : ClientWorld.IsReply f
    · cases hp : s.world.client.getPendingSnapshot (getSeqno f) with
      | none =>
        rw [feed_unknown hf hp]
        exact ih hinput hs
      | some r =>
        cases hc : ClientWorld.replyCall f r.2 with
        | none =>
          rw [feed_mute hf hp hc]
          exact ih (hinput.free hs r.1) hs
        | some call =>
          rw [feed_reply hf hp hc]
          exact hinput.reply hs (lt_of_getPendingSnapshot hp) (holds_of_replyCall hp hc) f fs ok
    · cases hc : s.world.client.handlerCall f with
      | none =>
        rw [feed_unhandled hf hc]
        exact ih hinput hs
      | some e =>
        rw [feed_handled hf hc]
        exact hinput.handler hs (SsnClient.call?_of_handlerCall hc) fs ok

theorem Inv.poll (h : Inv s) (hs : s.stack = []) (input : ClientPollInput) :
    Inv (s.poll input) := by
  have hcalm := replying_of_nil hs
  cases input with
  | idle => exact h
  | ready sock =>
    rw [Reentrant.poll]
    generalize (if s.world.isOpen then sock else .quiet) = sock
    by_cases hc : s.world.client.connected = true
    · rw [if_pos hc]
      cases sock with
      | quiet => exact h.handleEvent hcalm
      | frames fs ok => exact h.feed hs ok fs
      | lost => exact h.connectionLost hcalm
    · rw [if_neg hc]
      exact h.handleEvent hcalm

theorem Inv.pingEnd (h : Inv s) (hs : s.stack = []) (seqno : UInt16) :
    Inv (s.setWorld (s.world.pingCancel seqno)) := by
  unfold ClientWorld.pingCancel
  simp only
  split_ifs
  · exact h.free hs _
  · exact h

theorem Inv.ret (h : Inv s) : Inv s.ret := by
  rcases s with ⟨w, stack, requests⟩
  cases h.shape with
  | idle => exact h
  | reply index k fs ok =>
    have hi := (h.kept rfl).1
    refine Inv.feed (.of_calm ?_ .idle rfl) rfl ok fs
    exact h.accounts.returned hi
  | handler fs ok =>
    refine Inv.feed (.of_calm ?_ .idle rfl) rfl ok fs
    exact h.accounts
  | failed items after hstack hcalm =>
    exact inv_callItems after items h.accounts hstack hcalm

/-! ## Runs -/

def inReply (s : Reentrant) : Bool := s.stack.any Resume.isReply

/-- A callback of a reply does not connect, and does not disconnect the client. -/
def NoEnding (s : Reentrant) : ReentrantOp → Prop
  | .connect _ _ _ => s.inReply = false
  | .disconnect => s.world.client.connected = true → s.inReply = false
  | _ => True

theorem replying_eq_none (h : s.inReply = false) : replying s.stack = none := by
  rw [inReply] at h
  cases hs : s.stack with
  | nil => rfl
  | cons r stack =>
    rw [hs] at h
    cases r with
    | reply => cases h
    | handler => rfl
    | failed => rfl

theorem Inv.step (h : Inv s) {e : ReentrantOp} (he : s.NoEnding e) : Inv (s.step net e) := by
  cases e with
  | call url data callback timeoutMs =>
    refine h.requested (ClientWorld.takes_callEx url _) fun k hk => ?_
    split_ifs at hk
    · exact (Option.some.inj hk).symm
    · cases hk
  | subscribe url handler timeoutMs =>
    exact h.requested ((ClientWorld.still_subscribe url handler).takes none) (by simp)
  | unsubscribe url timeoutMs =>
    exact h.requested ((ClientWorld.still_unsubscribe url).takes none) (by simp)
  | message url data => exact h.still (ClientWorld.still_message url data)
  | sendTimeout timeoutMs outcome =>
    exact h.still (ClientWorld.still_setSendTimeout timeoutMs outcome)
  | ping timeoutMs => exact h.requested (ClientWorld.takes_requestEx _) (by simp)
  | pingEnd seqno =>
    rw [Reentrant.step]
    split_ifs with hs
    · exact h.pingEnd (List.isEmpty_iff.1 hs) seqno
    · exact h
  | connect timeoutMs run recv => exact h.connect (replying_eq_none he) timeoutMs run recv
  | disconnect => exact h.disconnect fun hc => replying_eq_none (he hc)
  | poll input =>
    rw [Reentrant.step]
    split_ifs with hs
    · exact h.poll (List.isEmpty_iff.1 hs) input
    · exact h
  | timerSweep => exact h.still ⟨.of_log rfl, sameSlots_timerSweep⟩
  | ret => exact h.ret

/-- The slot that is freed when the innermost callback returns holds no other request. -/
def OwnSlot (s : Reentrant) : Prop :=
  ∀ index k, replying s.stack = some (index, k) → s.world.client.inUse index = true →
    (s.world.client.pendingPool index).callback = some k

/-- No callback was called twice, and no other request loses its slot. -/
structure Sound (s : Reentrant) : Prop where
  once : s.called.Nodup
  own : s.OwnSlot

theorem Inv.sound (h : Inv s) : Sound s where
  once := h.accounts.nodup.of_append_left
  own _ _ hr _ := (h.kept hr).2.1.callback

/-- So it is now, and will be if the callbacks that are running return. -/
def SoundOnReturn (net : Nat → Nat → SendStep) (s : Reentrant) : Prop :=
  ∀ s', Settles net s s' → Sound s'

theorem Inv.soundOnReturn (h : Inv s) : SoundOnReturn net s := by
  rintro _ ⟨n, rfl⟩
  have hret : Runs.EachStep (Reentrant.step net) NoEnding s (List.replicate n .ret) := by
    refine Runs.eachStep_of_forall fun e he s => ?_
    rw [List.eq_of_mem_replicate he]
    trivial
  exact (Runs.run_invariant (fun s e hs he => hs.step he) h hret).sound

/-! ## A reply's callback that ends the connection -/

theorem called_finish (after : AfterCalls) : (s.finish after).called = s.called := by
  cases after with
  | done => rfl
  | dial timeoutMs run recv =>
    exact ((ClientWorld.still_setClient (c := { s.world.client with recv }) rfl).trans
      (ClientWorld.still_dial timeoutMs run)).called_eq
  | hangUp => rfl

/-- All pending requests are called, and the one whose reply is being handled is still pending. -/
theorem Inv.called_again (h : Inv s) {r : Nat × Nat} (hr : replying s.stack = some r)
    (after : AfterCalls) : ¬ SoundOnReturn net (s.collectAndCallPending false after) := by
  intro hsound
  obtain ⟨hi, hk, hmem⟩ := h.kept hr
  have howed : r.2 ∈ owedBy (s.world.client.collect false).2 := by
    refine mem_owedBy_collect.2 ⟨r.1, hi, ?_, hk⟩
    simp [reported, hk.1]
  have hcalled : (s.world.collectAndCallPending false).called =
      s.called ++ owedBy (s.world.client.collect false).2 :=
    (ClientWorld.collectAndCallPending_spec false).1.called_eq
  have hnodup := (hsound _ (settles_collectAndCallPending false after s)).once
  rw [called_finish, called_setWorld, hcalled] at hnodup
  exact List.disjoint_of_nodup_append hnodup hmem howed

theorem Shape.replying {stack : List Resume} (h : Shape stack)
    (hr : stack.any Resume.isReply = true) : ∃ r, Reentrant.replying stack = some r := by
  induction h with
  | idle => cases hr
  | reply index k fs ok => exact ⟨(index, k), rfl⟩
  | handler fs ok => cases hr
  | failed items after _ hcalm ih =>
    obtain ⟨r, hr⟩ := ih hr
    rw [hcalm] at hr
    cases hr

theorem Inv.not_soundOnReturn (h : Inv s) {e : ReentrantOp} (he : ¬ s.NoEnding e) :
    ¬ SoundOnReturn net (s.step net e) := by
  cases e with
  | connect timeoutMs run recv =>
    obtain ⟨r, hr⟩ := h.shape.replying ((Bool.not_eq_false _).mp he)
    have h' := h.setClient { s.world.client with connected := false, transport := none } rfl
    exact h'.called_again hr (.dial timeoutMs run recv)
  | disconnect =>
    obtain ⟨hc, hin⟩ := Classical.not_imp.1 he
    obtain ⟨r, hr⟩ := h.shape.replying ((Bool.not_eq_false _).mp hin)
    have h' := h.setClient { s.world.client with
      connected := false
      transport := s.world.client.transport.map Transport.disconnect } rfl
    have hdis : s.step net .disconnect = _ := if_pos hc
    rw [hdis]
    exact h'.called_again hr .done
  | _ => exact absurd trivial he

/-- A new client, with the general handlers that the user sets. -/
def start (onsub onmsg : Option Nat) : Reentrant :=
  ⟨⟨{ SsnClient.create with onsub, onmsg }, []⟩, [], 0⟩

theorem inv_start (onsub onmsg : Option Nat) : Inv (start onsub onmsg) := by
  have hfree (i k : Nat) : ¬ (start onsub onmsg).world.client.Holds i k := by
    rintro ⟨hin, -⟩
    simp [start, SsnClient.create, SsnClient.inUse, Bitmap.isSet] at hin
  refine .of_calm ⟨?_, ?_, ?_, ?_, List.nodup_nil⟩ .idle rfl
  · exact fun i j k hi => absurd hi (hfree i k)
  · exact fun i k hi => absurd hi (hfree i k)
  · exact fun i k hi => absurd hi (hfree i k)
  · exact fun k hk => absurd hk (List.not_mem_nil)

end Reentrant

open Reentrant

/-- **Callbacks may call the client, but a reply's callback must not end the connection.** -/
theorem sound_iff_noEnding (net : Nat → Nat → SendStep) (onsub onmsg : Option Nat)
    (es : List ReentrantOp) :
    Runs.Always (Reentrant.step net) (SoundOnReturn net) (start onsub onmsg) es ↔
      Runs.EachStep (Reentrant.step net) NoEnding (start onsub onmsg) es := by
  have hstep (s : Reentrant) (e : ReentrantOp) (hs : Inv s) (_ : True) (he : s.NoEnding e) :
      Inv (s.step net e) := hs.step he
  have hbad (s : Reentrant) (e : ReentrantOp) (hs : Inv s) (_ : True) (he : ¬ s.NoEnding e) :
      ¬ SoundOnReturn net (s.step net e) := hs.not_soundOnReturn he
  exact Runs.always_iff_eachStep hstep (fun _ hs => hs.soundOnReturn) hbad
    (inv_start onsub onmsg) Runs.eachStep_true

def joined : ReentrantOp := .connect none answeredRun (streamInit ⟨0, 0, Mem.zero⟩)

/-- The callback of a call disconnects and connects again, and makes the next call. -/
def rejoinedInCallback : List ReentrantOp :=
  [joined, .call [slash, 0x61] none true 1000,
    .poll (.ready (.frames [bareFrame MsgType.rpcRequest 0] true)),
    .disconnect, .ret, joined, .call [slash, 0x61] none true 1000]

/-- The first callback has been called twice, and when it returns, the second call loses its
slot. -/
theorem rejoinedInCallback_not_sound :
    ¬ Runs.Always (Reentrant.step acceptAll) (fun s => s.called.Nodup) (start none none)
        rejoinedInCallback ∧
      ¬ Runs.Always (Reentrant.step acceptAll) OwnSlot (start none none) rejoinedInCallback := by
  obtain ⟨hcalled, hr, hin, hk⟩ :
      let s := Runs.run (Reentrant.step acceptAll) (start none none) rejoinedInCallback
      s.called = [0, 0] ∧ replying s.stack = some (0, 0) ∧ s.world.client.inUse 0 = true ∧
        (s.world.client.pendingPool 0).callback = some 1 := by decide +kernel
  constructor
  · intro h
    have hnodup := h _ (List.prefix_refl _)
    simp only [hcalled] at hnodup
    exact absurd hnodup (by decide)
  · intro h
    have hown := h _ (List.prefix_refl _) 0 0 hr hin
    rw [hk] at hown
    exact absurd hown (by decide)

end Ssn
