import SsnIpc.Client.Slots
import SsnIpc.Client.Wraparound

/-!
# What a ping leaves behind

`ssn_client_ping` registers a callback with the address of a local variable, runs the event loop
until the variable is set or its time is up, and returns. Nothing may hold that address then.

A callback is the user's or a ping's with the address of its flag: `υ ⊕ α`. While a ping waits,
frames arrive, the timer runs, requests time out and the connection may be lost (`WaitEvent`), in
any order.

**Theorem (`pings_clean`).** In every run of a client with fewer than 65536 requests, when a ping
returns, no slot in use has the address of its flag, and its own slot is the only one that
cancelling it has freed.

The ping's entry is known by its sequence number, which nothing else in the pool has (`OwnFlag`).
As long as it is there, its callback was not called (`Awaits`).
-/

namespace Ssn

open ByteMem

/-! ## A ping that is interrupted -/

/-- What happens while a ping waits: a poll or a part of one, or a round of the timer. -/
inductive WaitEvent
  | poll (outcome : PollOutcome)
  | frame (f : Frame)
  | sweep
  | timerEvent
  | lost

namespace ClientWorld

variable {κ : Type*} (net : Nat → Nat → SendStep)

def waitEvent (w : ClientWorld κ) : WaitEvent → ClientWorld κ
  | .poll outcome => w.poll outcome
  | .frame f => w.input f
  | .sweep => w.setClient w.client.timerSweep
  | .timerEvent => w.handleEvent
  | .lost => w.connectionLost

variable [DecidableEq κ]

/-- The waiting loop of `ssn_client_ping`, where `turns` are the events of each turn. -/
def pingTurns (w : ClientWorld κ) (k : κ) (start timeoutMs waited : Nat)
    (turns : Nat → List WaitEvent) : ClientWorld κ :=
  if _h : ¬ replied k (w.log.drop start) ∧ waited < timeoutMs then
    pingTurns (Runs.run waitEvent w (turns 0)) k start timeoutMs (waited + 10)
      (fun i => turns (i + 1))
  else w
termination_by timeoutMs - waited

/-- `ssn_client_ping` up to the end of its loop, and the sequence number of its request if that was
sent. -/
def pingWaited (w : ClientWorld κ) (k : κ) (timeoutMs : Nat) (turns : Nat → List WaitEvent) :
    ClientWorld κ × Option UInt16 :=
  match w.requestEx net MsgType.pingEcho none none (some k) timeoutMs with
  | (w', none) => (w', none)
  | (w', some seqno) => (w'.pingTurns k w.log.length timeoutMs 0 turns, some seqno)

/-- The rest of `ssn_client_ping`. -/
def pingReturn (k : κ) (start : Nat) (out : ClientWorld κ × Option UInt16) : ClientWorld κ :=
  match out.2 with
  | none => out.1
  | some seqno => if replied k (out.1.log.drop start) then out.1 else out.1.pingCancel seqno

/-- `ssn_client_ping`, with what happens while it waits. -/
def pingAmid (w : ClientWorld κ) (k : κ) (timeoutMs : Nat) (turns : Nat → List WaitEvent) :
    ClientWorld κ :=
  pingReturn k w.log.length (w.pingWaited net k timeoutMs turns)

theorem pingWait_eq_pingTurns (w : ClientWorld κ) (k : κ) (start timeoutMs waited : Nat)
    (polls : Nat → PollOutcome) :
    w.pingWait k start timeoutMs waited polls =
      w.pingTurns k start timeoutMs waited fun i => [.poll (polls i)] := by
  fun_induction pingWait w k start timeoutMs waited polls with
  | case1 w waited polls h ih =>
    rw [pingTurns, dif_pos h]
    exact ih
  | case2 w waited polls h => rw [pingTurns, dif_neg h]

/-- With whole polls only, this is the ping of the client's steps. -/
theorem ping_eq_pingAmid (w : ClientWorld κ) (k : κ) (timeoutMs : Nat)
    (polls : Nat → PollOutcome) :
    w.ping net k timeoutMs polls = w.pingAmid net k timeoutMs fun i => [.poll (polls i)] := by
  unfold ping pingAmid pingWaited pingReturn
  rcases w.requestEx net MsgType.pingEcho none none (some k) timeoutMs with ⟨w', _ | seqno⟩
  · rfl
  · simp only [pingWait_eq_pingTurns]

end ClientWorld

/-! ## Runs -/

def ClientOp.map {κ κ' : Type*} (g : κ → κ') : ClientOp κ → ClientOp κ'
  | .connect timeoutMs run => .connect timeoutMs run
  | .disconnect => .disconnect
  | .call url data callback timeoutMs => .call url data (callback.map g) timeoutMs
  | .subscribe url callback timeoutMs => .subscribe url (callback.map g) timeoutMs
  | .unsubscribe url timeoutMs => .unsubscribe url timeoutMs
  | .message url data => .message url data
  | .ping k timeoutMs polls => .ping (g k) timeoutMs polls
  | .sendTimeout timeoutMs outcome => .sendTimeout timeoutMs outcome
  | .poll outcome => .poll outcome
  | .timerSweep => .timerSweep

/-- The steps of a client whose user has callbacks `υ`, with pings whose flags are at `α`. -/
inductive PingOp (υ α : Type*)
  | user (o : ClientOp υ) (h : o.isPing = false)
  | ping (flag : α) (timeoutMs : Nat) (turns : Nat → List WaitEvent)

def PingOp.isRequest {υ α : Type*} : PingOp υ α → Bool
  | .user (.call ..) _ | .user (.subscribe ..) _ | .user (.unsubscribe ..) _ | .ping .. => true
  | _ => false

section Clean

variable {υ α : Type*} [DecidableEq υ] [DecidableEq α] (net : Nat → Nat → SendStep)

def ClientWorld.pingStep (w : ClientWorld (υ ⊕ α)) : PingOp υ α → ClientWorld (υ ⊕ α)
  | .user o _ => w.step net (o.map .inl)
  | .ping flag timeoutMs turns => w.pingAmid net (.inr flag) timeoutMs turns

/-- A ping returns and no slot in use has its flag, and a slot that it freed at the end was its
own. -/
def ClientWorld.PingClean (w : ClientWorld (υ ⊕ α)) : PingOp υ α → Prop
  | .user _ _ => True
  | .ping flag timeoutMs turns =>
    let waited := (w.pingWaited net (.inr flag) timeoutMs turns).1.client
    let returned := (w.pingAmid net (.inr flag) timeoutMs turns).client
    (∀ i, returned.inUse i = true → (returned.pendingPool i).callback ≠ some (.inr flag)) ∧
      ∀ i, waited.inUse i = true → returned.inUse i = false →
        (waited.pendingPool i).callback = some (.inr flag)

end Clean

/-! ## What the pool holds -/

/-- The pool of a client that has made at most `n` requests: sequence numbers in it were given out
before, and `E` holds of its entries. -/
structure SsnClient.Holding {κ : Type*} (n : Nat) (E : UInt16 → Option κ → Prop)
    (c : SsnClient κ) : Prop where
  wf : c.Wf
  counter : c.seqno.toNat ≤ n
  below : ∀ s p, c.pending s = some p → s.toNat < c.seqno.toNat
  entry : ∀ s p, c.pending s = some p → E s p.callback

namespace SsnClient.Holding

variable {κ : Type*} {n : Nat} {E E' : UInt16 → Option κ → Prop} {c c' : SsnClient κ}

theorem shrink (h : Holding n E c) (hwf : c'.Wf) (hseqno : c'.seqno = c.seqno)
    (hsub : ∀ s p, c'.pending s = some p → c.pending s = some p) : Holding n E c' where
  wf := hwf
  counter := by rw [hseqno]; exact h.counter
  below s p hp := by rw [hseqno]; exact h.below s p (hsub s p hp)
  entry s p hp := h.entry s p (hsub s p hp)

theorem poolInv : PoolInv (Holding n E) where
  of_pool h hp hs := h.shrink (h.wf.of_pool hp) hs fun s p => by rw [pending_of_pool hp]; exact id
  free := by
    intro c i hi h
    refine h.shrink (h.wf.freePendingIndex hi) (seqno_freePendingIndex i) fun s p hp => ?_
    rw [pending_freePendingIndex h.wf hi] at hp
    by_cases e : s = (c.pendingPool i).seqno
    · subst e
      rw [Function.update_self] at hp
      cases hp
    · rwa [Function.update_of_ne e] at hp

theorem timerSweep (h : Holding n E c) : Holding n E c.timerSweep where
  wf := h.wf.timerSweep
  counter := h.counter
  below s p hp := by
    rw [pending_timerSweep h.wf] at hp
    obtain ⟨q, hq, -⟩ := Option.map_eq_some_iff.1 hp
    exact h.below s q hq
  entry s p hp := by
    rw [pending_timerSweep h.wf] at hp
    obtain ⟨q, hq, rfl⟩ := Option.map_eq_some_iff.1 hp
    exact h.entry s q hq

theorem mono (h : Holding n E c) (hE : ∀ s p, c.pending s = some p → E' s p.callback) :
    Holding n E' c :=
  ⟨h.wf, h.counter, h.below, hE⟩

theorem seqnoFree (h : Holding n E c) : c.SeqnoFree := by
  intro _ i _ hi hs
  have hlt := h.below _ _ (pending_of_inUse h.wf hi)
  rw [hs] at hlt
  exact Nat.lt_irrefl _ hlt

theorem slot (h : Holding n E c) {i : Nat} (hi : c.inUse i = true) :
    E (c.pendingPool i).seqno (c.pendingPool i).callback :=
  h.entry _ _ (pending_of_inUse h.wf hi)

theorem toNat_succ (h : Holding n E c) (hn : n + 1 < 65536) :
    (c.seqno + 1).toNat = c.seqno.toNat + 1 := by
  rw [UInt16.toNat_add, UInt16.toNat_one]
  have := h.counter
  omega

theorem requested {w : ClientWorld κ} {entry : Option (Pending κ)}
    {out : ClientWorld κ × Option UInt16} (h : Holding n E w.client) (hn : n + 1 < 65536)
    (hreq : ClientWorld.Requested w entry out)
    (hE : ∀ s p, w.client.pending s = some p → E' s p.callback)
    (hentry : ∀ p, out.2.isSome = true → entry = some p → E' w.client.seqno p.callback) :
    Holding (n + 1) E' out.1.client := by
  have hcounter := h.counter
  have hsucc := h.toNat_succ hn
  obtain ⟨-, hwf, hout⟩ := hreq
  generalize hret : out.2 = ret at hout hentry
  -- A request fails, goes out without an entry, or adds one under the counter's value.
  cases hout with
  | failed hpend hseqno =>
    have hle : w.client.seqno.toNat ≤ out.1.client.seqno.toNat ∧
        out.1.client.seqno.toNat ≤ w.client.seqno.toNat + 1 := by
      rcases hseqno with hs | hs <;> rw [hs] <;> omega
    refine ⟨hwf, by omega, fun s p hp => ?_, fun s p hp => ?_⟩
    · rw [hpend] at hp
      exact Nat.lt_of_lt_of_le (h.below s p hp) hle.1
    · rw [hpend] at hp
      exact hE s p hp
  | plain seqno _ hpend hseqno =>
    refine ⟨hwf, by rw [hseqno]; omega, fun s p hp => ?_, fun s p hp => ?_⟩
    · rw [hpend] at hp
      rw [hseqno]
      exact h.below s p hp
    · rw [hpend] at hp
      exact hE s p hp
  | registered q he hpend hseqno =>
    have hcases (s : UInt16) (p : Pending κ) (hp : out.1.client.pending s = some p) :
        (s = w.client.seqno ∧ p = q) ∨ w.client.pending s = some p := by
      rw [hpend] at hp
      by_cases e : s = w.client.seqno
      · subst e
        rw [Function.update_self] at hp
        exact .inl ⟨rfl, (Option.some.inj hp).symm⟩
      · rw [Function.update_of_ne e] at hp
        exact .inr hp
    refine ⟨hwf, by rw [hseqno]; omega, fun s p hp => ?_, fun s p hp => ?_⟩
    · rw [hseqno, hsucc]
      rcases hcases s p hp with ⟨rfl, -⟩ | hp
      · omega
      · have := h.below s p hp
        omega
    · rcases hcases s p hp with ⟨rfl, rfl⟩ | hp
      · exact hentry p rfl he
      · exact hE s p hp

end SsnClient.Holding

/-! ## While a ping waits -/

/-- `k` was not called since the log had `start` entries. -/
def ClientWorld.NotCalled {κ : Type*} (w : ClientWorld κ) (k : κ) (start : Nat) : Prop :=
  ∀ reply, ClientEvent.called k reply ∉ w.log.drop start

namespace ClientWorld.NotCalled

variable {κ : Type*} {w w' : ClientWorld κ} {k : κ} {start : Nat}

theorem replied_eq [DecidableEq κ] (h : w.NotCalled k start) :
    replied k (w.log.drop start) = false := by
  have hfold (es : List (ClientEvent κ)) (hes : ∀ reply, ClientEvent.called k reply ∉ es) :
      replied k es = false := by
    unfold replied
    refine List.foldlRecOn (motive := fun r => r = false) es _ rfl fun r hr e he => ?_
    subst hr
    cases e with
    | called k' reply =>
      have hne : k' ≠ k := by
        rintro rfl
        exact hes reply he
      simp [hne]
    | _ => rfl
  exact hfold _ h

theorem calls (h : w.NotCalled k start) (hstart : start ≤ w.log.length)
    {cs : List (κ × Option Frame)} (hcalls : Calls w w' cs) (hcs : ∀ reply, (k, reply) ∉ cs) :
    w'.NotCalled k start := by
  obtain ⟨es, hlog, rfl⟩ := hcalls
  intro reply hmem
  rw [hlog, List.drop_append_of_le_length hstart, List.mem_append] at hmem
  rcases hmem with hold | hnew
  · exact h reply hold
  · exact hcs reply (List.mem_filterMap.2 ⟨_, hnew, rfl⟩)

end ClientWorld.NotCalled

section Waiting

variable {υ α : Type*} {net : Nat → Nat → SendStep} {n start : Nat} {s₀ : UInt16} {a : α}
  {w w' : ClientWorld (υ ⊕ α)}

/-- The entry `s₀` is the ping's with the flag `a`, and no other one is a ping's. -/
def OwnFlag (s₀ : UInt16) (a : α) (s : UInt16) (callback : Option (υ ⊕ α)) : Prop :=
  (s = s₀ → callback = some (.inr a)) ∧ ∀ a', callback = some (.inr a') → s = s₀

def NoFlag (_ : UInt16) (callback : Option (υ ⊕ α)) : Prop := ∀ a', callback ≠ some (.inr a')

/-- A ping waits: while its entry is in the pool, its callback was not called. -/
structure Awaits (n : Nat) (s₀ : UInt16) (a : α) (start : Nat) (w : ClientWorld (υ ⊕ α)) :
    Prop where
  holding : w.client.Holding n (OwnFlag s₀ a)
  start_le : start ≤ w.log.length
  silent : (w.client.pending s₀).isSome = true → w.NotCalled (.inr a) start

namespace Awaits

theorem next (h : Awaits n s₀ a start w) {cs : List ((υ ⊕ α) × Option Frame)}
    (hcalls : ClientWorld.Calls w w' cs) (hholding : w'.client.Holding n (OwnFlag s₀ a))
    (hkept : (w'.client.pending s₀).isSome = true →
      (w.client.pending s₀).isSome = true ∧ ∀ reply, (.inr a, reply) ∉ cs) :
    Awaits n s₀ a start w' := by
  refine ⟨hholding, ?_, fun hsome => ?_⟩
  · obtain ⟨es, hlog, -⟩ := hcalls
    rw [hlog, List.length_append]
    exact Nat.le_add_right_of_le h.start_le
  · exact (h.silent (hkept hsome).1).calls h.start_le hcalls (hkept hsome).2

theorem still (h : Awaits n s₀ a start w) (hcalls : ClientWorld.Calls w w' [])
    (hpool : w'.client.pool = w.client.pool) (hseqno : w'.client.seqno = w.client.seqno) :
    Awaits n s₀ a start w' :=
  h.next hcalls (SsnClient.Holding.poolInv.of_pool h.holding hpool hseqno) fun hsome =>
    ⟨by rwa [SsnClient.pending_of_pool hpool] at hsome, fun _ => List.not_mem_nil⟩

theorem setClient (h : Awaits n s₀ a start w) {c : SsnClient (υ ⊕ α)}
    (hpool : c.pool = w.client.pool) (hseqno : c.seqno = w.client.seqno) :
    Awaits n s₀ a start (w.setClient c) :=
  h.still (.of_log rfl) hpool hseqno

theorem input (h : Awaits n s₀ a start w) (f : Frame) : Awaits n s₀ a start (w.input f) := by
  have hholding := SsnClient.Holding.poolInv.input f h.holding
  by_cases hf : ClientWorld.IsReply f
  · cases hp : w.client.pending (getSeqno f) with
    | none =>
      rw [ClientWorld.input_of_none hf hp]
      exact h.still (ClientWorld.calls_emit _) rfl rfl
    | some p =>
      obtain ⟨hcalls, -, hpend, -⟩ := ClientWorld.input_of_some hf h.holding.wf hp
      refine h.next hcalls hholding fun hsome => ?_
      have hne : s₀ ≠ getSeqno f := by
        rintro rfl
        rw [hpend, Function.update_self] at hsome
        cases hsome
      rw [hpend, Function.update_of_ne hne] at hsome
      refine ⟨hsome, fun reply hmem => hne ?_⟩
      -- The callback of another entry is not the ping's.
      unfold ClientWorld.replyCall at hmem
      split_ifs at hmem
      · obtain ⟨k, hk, heq⟩ := Option.map_eq_some_iff.1 (Option.mem_toList.1 hmem)
        obtain ⟨rfl, -⟩ := Prod.mk.inj heq
        exact ((h.holding.entry _ p hp).2 a hk).symm
      · cases hmem
  · have hcalls : ClientWorld.Calls w (w.input f) [] := by
      rw [ClientWorld.input_handler hf]
      cases hc : w.client.handlerCall f with
      | none => exact ClientWorld.calls_emit _
      | some e =>
        have hemit := (ClientWorld.calls_emit (w := w) (.input f)).trans
          (ClientWorld.calls_emit (w := w.emit (.input f)) e)
        rw [SsnClient.call?_of_handlerCall hc] at hemit
        exact hemit
    exact h.still hcalls (by rw [ClientWorld.input_not_reply hf])
      (by rw [ClientWorld.input_not_reply hf])

theorem collectAndCallPending (h : Awaits n s₀ a start w) (onlyTimeout : Bool) :
    Awaits n s₀ a start (w.collectAndCallPending onlyTimeout) := by
  obtain ⟨hcalls, hclient⟩ := ClientWorld.collectAndCallPending_spec (w := w) onlyTimeout
  have hholding := SsnClient.Holding.poolInv.collect onlyTimeout h.holding
  rw [← hclient] at hholding
  refine h.next hcalls hholding fun hsome => ?_
  obtain ⟨p, hp⟩ := Option.isSome_iff_exists.1 hsome
  obtain ⟨i, hi, rfl, hs⟩ := (SsnClient.pending_iff hholding.wf).1 hp
  obtain ⟨hitems, hpool, huse⟩ := w.client.collect_spec onlyTimeout
  rw [hclient, huse, Bool.and_eq_true, Bool.not_eq_true', Bool.and_eq_false_iff] at hi
  rw [hclient, hpool] at hs
  obtain ⟨hi, hkept⟩ := hi
  have hlt : i < maxPending := (h.holding.wf.slot i hi).1
  have hsome' : w.client.pending s₀ = some (w.client.pendingPool i) := by
    rw [← hs]
    exact SsnClient.pending_of_inUse h.holding.wf hi
  refine ⟨by rw [hsome']; rfl, fun reply hmem => ?_⟩
  -- A slot that is reported is not the ping's, which is kept.
  rw [hitems, List.mem_filterMap] at hmem
  obtain ⟨q, hq, hcall⟩ := hmem
  obtain ⟨j, hj, rfl⟩ := List.mem_map.1 hq
  have hreported : w.client.reported onlyTimeout j = true := (List.mem_filter.1 hj).2
  have hj' : w.client.inUse j = true := (Bool.and_eq_true_iff.1 hreported).1
  have hown := (h.holding.slot hj').2 a (SsnClient.failedCall_eq_some hcall).1
  obtain rfl := h.holding.wf.seqno_inj hj' hi (hown.trans hs.symm)
  rcases hkept with hkept | hkept
  · simp [hlt] at hkept
  · rw [hreported] at hkept
    cases hkept

theorem handleEvent (h : Awaits n s₀ a start w) : Awaits n s₀ a start w.handleEvent := by
  unfold ClientWorld.handleEvent
  split_ifs
  · have h' := h.setClient (c := { w.client with evtPending := false }) rfl rfl
    exact h'.collectAndCallPending true
  · exact h

theorem connectionLost (h : Awaits n s₀ a start w) : Awaits n s₀ a start w.connectionLost := by
  have h' := h.setClient (c := { w.client with connected := false }) rfl rfl
  unfold ClientWorld.connectionLost ClientWorld.timeoutAll
  exact h'.collectAndCallPending false

theorem feedInput (h : Awaits n s₀ a start w) (buf : Bytes) :
    Awaits n s₀ a start (w.feedInput buf).1 := by
  have hreceived : Awaits n s₀ a start (w.emit (.received buf)) :=
    h.still (ClientWorld.calls_emit _) rfl rfl
  have hfed : Awaits n s₀ a start (streamFeed ClientWorld.clientInput w.client.recv buf
      (w.emit (.received buf))).2.1 :=
    streamFeed_keeps (fun _ f h => h.input f) _ _ _ hreceived
  exact hfed.setClient rfl rfl

theorem sweep (h : Awaits n s₀ a start w) :
    Awaits n s₀ a start (w.setClient w.client.timerSweep) := by
  refine h.next (.of_log rfl) h.holding.timerSweep fun hsome => ⟨?_, fun _ => List.not_mem_nil⟩
  have hp := SsnClient.pending_timerSweep h.holding.wf s₀
  rw [ClientWorld.setClient, hp, Option.isSome_map] at hsome
  exact hsome

theorem waitEvent (h : Awaits n s₀ a start w) (e : WaitEvent) :
    Awaits n s₀ a start (w.waitEvent e) := by
  cases e with
  | poll outcome =>
    exact ClientWorld.poll_keeps (P := Awaits n s₀ a start) (fun h => h.handleEvent)
      (fun h => h.connectionLost) (fun _ h => h.feedInput _) (fun h => h.setClient rfl rfl)
      outcome h
  | frame f => exact h.input f
  | sweep => exact h.sweep
  | timerEvent => exact h.handleEvent
  | lost => exact h.connectionLost

variable [DecidableEq υ] [DecidableEq α]

theorem pingTurns (h : Awaits n s₀ a start w) (k : υ ⊕ α) (timeoutMs waited : Nat)
    (turns : Nat → List WaitEvent) :
    Awaits n s₀ a start (w.pingTurns k start timeoutMs waited turns) := by
  fun_induction ClientWorld.pingTurns w k start timeoutMs waited turns with
  | case1 w waited turns _ ih =>
    exact ih (Runs.run_invariant (fun _ e h _ => h.waitEvent e) h Runs.eachStep_true)
  | case2 => exact h

theorem pending_pingReturn (h : Awaits n s₀ a start w) :
    (ClientWorld.pingReturn (.inr a) start (w, some s₀)).client.Holding n NoFlag := by
  have hgone {c : SsnClient (υ ⊕ α)} (hc : c.Holding n (OwnFlag s₀ a))
      (hnone : c.pending s₀ = none) : c.Holding n NoFlag := by
    refine hc.mono fun s p hp a' hk => ?_
    obtain rfl := (hc.entry s p hp).2 a' hk
    rw [hnone] at hp
    cases hp
  simp only [ClientWorld.pingReturn]
  split_ifs with hreplied
  · refine hgone h.holding (Option.not_isSome_iff_eq_none.1 fun hsome => ?_)
    rw [(h.silent hsome).replied_eq] at hreplied
    cases hreplied
  · refine hgone (SsnClient.Holding.poolInv.pingCancel s₀ h.holding) ?_
    rw [(ClientWorld.pingCancel_spec h.holding.wf s₀).2.2.1, Function.update_self]

theorem own_of_freed (h : Awaits n s₀ a start w) {i : Nat} (hi : w.client.inUse i = true)
    (hfreed : (ClientWorld.pingReturn (.inr a) start (w, some s₀)).client.inUse i = false) :
    (w.client.pendingPool i).callback = some (.inr a) := by
  refine (h.holding.slot hi).1 ?_
  by_contra hne
  have hstays : (w.pingCancel s₀).client.inUse i = true := by
    unfold ClientWorld.pingCancel
    simp only
    split_ifs with hc
    · obtain ⟨hin, hs⟩ := h.holding.wf.index s₀ hc.1
      have hother : i ≠ w.client.seqnoToIndex s₀ := fun e => hne (by rw [e, hs])
      simp [ClientWorld.setClient,
        SsnClient.inUse_freePendingIndex (h.holding.wf.slot _ hin).1, hother, hi]
    · exact hi
  simp only [ClientWorld.pingReturn] at hfreed
  split_ifs at hfreed
  · rw [hi] at hfreed
    cases hfreed
  · rw [hstays] at hfreed
    cases hfreed

end Awaits

end Waiting

/-! ## Pings in a run -/

section Pings

variable {υ α : Type*} {net : Nat → Nat → SendStep} {n : Nat} {w w' : ClientWorld (υ ⊕ α)}

theorem awaits_request {flag : α} {timeoutMs : Nat} {seqno : UInt16}
    (h : w.client.Holding n NoFlag) (hn : n + 1 < 65536)
    (hreq : ClientWorld.Requested w (w.entryOf .res (some (.inr flag)) timeoutMs)
      (w', some seqno)) : Awaits (n + 1) seqno flag w.log.length w' := by
  obtain rfl : seqno = w.client.seqno := by
    generalize hentry : w.entryOf .res (some (.inr flag)) timeoutMs = entry at hreq
    cases hreq.outcome with
    | plain _ hnone => cases hentry.trans hnone
    | registered => rfl
  obtain ⟨es, hlog, hes⟩ := hreq.calls
  have hholding : w'.client.Holding (n + 1) (OwnFlag w.client.seqno flag) := by
    refine h.requested hn hreq (fun s p hp => ⟨?_, fun a' hk => ?_⟩) fun p _ hp => ?_
    · rintro rfl
      exact absurd (h.below _ p hp) (Nat.lt_irrefl _)
    · exact absurd hk (h.entry s p hp a')
    · obtain rfl := Option.some.inj hp
      exact ⟨fun _ => rfl, fun _ _ => rfl⟩
  have hlog' : w'.log = w.log ++ es := hlog
  refine ⟨hholding, by rw [hlog', List.length_append]; exact Nat.le_add_right .., fun _ => ?_⟩
  intro reply hmem
  rw [hlog', List.drop_left] at hmem
  have hcall : (.inr flag, reply) ∈ es.filterMap ClientEvent.call? :=
    List.mem_filterMap.2 ⟨_, hmem, rfl⟩
  rw [hes] at hcall
  cases hcall

variable [DecidableEq υ] [DecidableEq α]

/-- **A ping leaves nothing behind in a pool without pings.** -/
theorem ping_spec (h : w.client.Holding n NoFlag) (hn : n + 1 < 65536) (flag : α) (timeoutMs : Nat)
    (turns : Nat → List WaitEvent) :
    (w.pingAmid net (.inr flag) timeoutMs turns).client.Holding (n + 1) NoFlag ∧
      w.PingClean net (.ping flag timeoutMs turns) := by
  have hreq : ClientWorld.Requested w (w.entryOf .res (some (.inr flag)) timeoutMs)
      (w.requestEx net MsgType.pingEcho none none (some (.inr flag)) timeoutMs) :=
    ClientWorld.requestEx_spec _ h.wf fun _ => h.seqnoFree
  simp only [ClientWorld.PingClean, ClientWorld.pingAmid, ClientWorld.pingWaited]
  rcases hout : w.requestEx net MsgType.pingEcho none none (some (.inr flag)) timeoutMs with
    ⟨w', _ | seqno⟩
  · rw [hout] at hreq
    have hholding : w'.client.Holding (n + 1) NoFlag :=
      h.requested hn hreq h.entry fun _ hsome => by cases hsome
    refine ⟨hholding, fun i hi => hholding.slot hi flag, fun i hi hfreed => ?_⟩
    simp only [ClientWorld.pingReturn] at hfreed
    rw [hi] at hfreed
    cases hfreed
  · rw [hout] at hreq
    have hwaited := (awaits_request h hn hreq).pingTurns (.inr flag) timeoutMs 0 turns
    have hholding := hwaited.pending_pingReturn
    exact ⟨hholding, fun i hi => hholding.slot hi flag, fun i hi hfreed =>
      hwaited.own_of_freed hi hfreed⟩

/-- What the user does leaves a pool without pings. -/
theorem holding_user (h : w.client.Holding n NoFlag) (o : ClientOp υ) (ho : o.isPing = false)
    (hn : n + (if (PingOp.user o ho : PingOp υ α).isRequest then 1 else 0) < 65536) :
    (w.step net (o.map .inl)).client.Holding
      (n + if (PingOp.user o ho : PingOp υ α).isRequest then 1 else 0) NoFlag := by
  cases o with
  | connect timeoutMs run => exact SsnClient.Holding.poolInv.connect timeoutMs run h
  | disconnect => exact SsnClient.Holding.poolInv.disconnect h
  | call url data callback timeoutMs =>
    refine h.requested hn (ClientWorld.callEx_spec url _ h.wf fun _ => h.seqnoFree) h.entry
      fun p _ hp a' hk => ?_
    obtain ⟨k, hcb, rfl⟩ := Option.map_eq_some_iff.1 hp
    obtain ⟨u, -, rfl⟩ := Option.map_eq_some_iff.1 hcb
    cases hk
  | subscribe url callback timeoutMs =>
    exact h.requested hn (ClientWorld.subscribe_spec url _ h.wf) h.entry fun p _ hp => by cases hp
  | unsubscribe url timeoutMs =>
    exact h.requested hn (ClientWorld.unsubscribe_spec url h.wf) h.entry fun p _ hp => by cases hp
  | message url data =>
    change (w.message net url data).client.Holding n NoFlag
    unfold ClientWorld.message
    split_ifs
    · obtain ⟨-, hpool, hseqno⟩ := ClientWorld.send_spec
        (rfl : w.send net ⟨MsgType.message, 0, 0, some (Ref.ofBytes url), data⟩ = (_, _))
      exact SsnClient.Holding.poolInv.of_pool h hpool hseqno
    · exact h
  | ping k timeoutMs polls => cases ho
  | sendTimeout timeoutMs outcome =>
    exact SsnClient.Holding.poolInv.setSendTimeout timeoutMs outcome h
  | poll outcome => exact SsnClient.Holding.poolInv.poll outcome h
  | timerSweep => exact h.timerSweep

/-- Every ping of a run is clean, while there are numbers left for its requests. -/
theorem eachStep_pingClean (h : w.client.Holding n NoFlag) (ops : List (PingOp υ α))
    (hlen : n + ops.countP PingOp.isRequest < 65536) :
    Runs.EachStep (ClientWorld.pingStep net) (ClientWorld.PingClean net) w ops := by
  induction ops generalizing n w with
  | nil => exact Runs.eachStep_nil
  | cons op ops ih =>
    rw [List.countP_cons] at hlen
    rw [Runs.eachStep_cons]
    cases op with
    | user o ho =>
      exact ⟨trivial, ih (holding_user h o ho (by omega)) (by omega)⟩
    | ping flag timeoutMs turns =>
      have hlen' : n + (ops.countP PingOp.isRequest + 1) < 65536 := hlen
      obtain ⟨hstep, hclean⟩ := @ping_spec _ _ net _ _ _ _ h (by omega) flag timeoutMs turns
      exact ⟨hclean, ih hstep (by omega)⟩

/-- **Pings leave nothing behind.** In every run of a client with fewer than 65536 requests,
whatever happens while its pings wait. -/
theorem pings_clean (net : Nat → Nat → SendStep) (onsub onmsg : Option (υ ⊕ α))
    (ops : List (PingOp υ α)) (hlen : ops.countP PingOp.isRequest < 65536) :
    Runs.EachStep (ClientWorld.pingStep net) (ClientWorld.PingClean net)
      ⟨{ SsnClient.create with onsub, onmsg }, []⟩ ops := by
  have hfresh : SsnClient.Fresh { (SsnClient.create : SsnClient (υ ⊕ α)) with onsub, onmsg } :=
    SsnClient.Fresh.create.of_pool rfl rfl
  refine eachStep_pingClean (n := 0) ⟨hfresh.wf, Nat.le_of_eq rfl, ?_, ?_⟩ ops (by omega)
  · intro s p hp
    rw [hfresh.pending] at hp
    cases hp
  · intro s p hp
    rw [hfresh.pending] at hp
    cases hp

end Pings

theorem isPing_answered : answered.isPing = false := rfl

/-- A ping that waits in vain: the connection is lost, then it gives up. -/
def pingInVain : List (PingOp Nat Nat) :=
  [.user answered isPing_answered, .user (.call pathA none (some 1) 1000) rfl,
    .ping 7 30 fun i => if i = 0 then [.sweep, .lost] else []]

theorem pingInVain_clean :
    Runs.EachStep (ClientWorld.pingStep acceptAll) (ClientWorld.PingClean acceptAll)
      ⟨{ SsnClient.create with onsub := none, onmsg := none }, []⟩ pingInVain :=
  pings_clean acceptAll none none pingInVain (by decide)

end Ssn
