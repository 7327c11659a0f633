import SsnIpc.Client.Exchange
import SsnIpc.Client.OpenSocket

/-!
# The counter of sequence numbers wraps around

A request with a callback takes the next value of a 16-bit counter, whatever is pending. After
65536 requests the counter is back at a value that a request of long ago may still hold.

**Theorem (`reached_iff_seqnoFree`).** In every run of a client, of any length, slots in use have
different sequence numbers, and the index table leads to each of them, exactly when every request
that takes a slot finds the value of the counter free.

A ping is taken apart into its request, the polls while it waits, and its end, since other steps
may come in between; so are the frames that a poll receives (`step_eq_run`).
-/

namespace Ssn

open ByteMem

variable {κ : Type*} {net : Nat → Nat → SendStep} {w : ClientWorld κ} {c : SsnClient κ}

/-! ## Steps -/

def ClientOp.isPing : ClientOp κ → Bool
  | .ping .. => true
  | _ => false

inductive PoolStep (κ : Type*)
  /-- A step of the client other than a ping. -/
  | op (o : ClientOp κ) (h : o.isPing = false)
  /-- The request of a ping. -/
  | ping (k : κ) (timeoutMs : Nat)
  /-- The end of a ping that got no reply. -/
  | pingEnd (seqno : UInt16)
  /-- A frame that a poll received. -/
  | reply (f : Frame)
  /-- The timer's event. -/
  | timerEvent

namespace ClientWorld

def poolStep [DecidableEq κ] (net : Nat → Nat → SendStep) (w : ClientWorld κ) :
    PoolStep κ → ClientWorld κ
  | .op o _ => w.step net o
  | .ping k timeoutMs => (w.requestEx net MsgType.pingEcho none none (some k) timeoutMs).1
  | .pingEnd seqno => w.pingCancel seqno
  | .reply f => w.input f
  | .timerEvent => w.handleEvent

/-- A request with a callback finds the value of the counter free. -/
def TakesFree (w : ClientWorld κ) : PoolStep κ → Prop
  | .op (.call url _ (some _) _) _ =>
    w.client.connected = true ∧ urlOk url = true → w.client.SeqnoFree
  | .ping _ _ => w.client.connected = true → w.client.SeqnoFree
  | _ => True

end ClientWorld

/-- Slots in use have different sequence numbers, and the index table leads to each of them. -/
structure SsnClient.Reached (c : SsnClient κ) : Prop where
  distinct : ∀ i < maxPending, ∀ j < maxPending, c.inUse i = true → c.inUse j = true →
    (c.pendingPool i).seqno = (c.pendingPool j).seqno → i = j
  index : ∀ i < maxPending, c.inUse i = true → c.seqnoToIndex (c.pendingPool i).seqno = i

theorem SsnClient.Wf.reached (h : c.Wf) : c.Reached :=
  ⟨fun _ _ _ _ hi hj hs => h.seqno_inj hi hj hs, fun i _ hi => (h.slot i hi).2⟩

theorem ClientWorld.step_eq_run [DecidableEq κ] (op : ClientOp κ) :
    ∃ es, w.step net op = Runs.run (poolStep net) w es := by
  cases hop : op.isPing with
  | false => exact ⟨[.op op hop], rfl⟩
  | true =>
    cases op with
    | ping k timeoutMs polls =>
      rcases hreq : w.requestEx net MsgType.pingEcho none none (some k) timeoutMs with
        ⟨w', _ | seqno⟩
      · refine ⟨[.ping k timeoutMs], ?_⟩
        simp only [step, ping, hreq, Runs.run_cons, Runs.run_nil, poolStep]
      · obtain ⟨n, hn⟩ := pingWait_polls (w := w') k w.log.length timeoutMs 0 polls
        let waits : List (PoolStep κ) := (List.range n).map fun i => .op (.poll (polls i)) rfl
        have hwait : Runs.run (poolStep net) w (.ping k timeoutMs :: waits) =
            w'.pingWait k w.log.length timeoutMs 0 polls := by
          rw [Runs.run_cons, hn, Runs.run, List.foldl_map]
          simp only [poolStep, hreq]
          rfl
        simp only [step, ping, hreq]
        split_ifs
        · exact ⟨_, hwait.symm⟩
        · refine ⟨(.ping k timeoutMs :: waits) ++ [.pingEnd seqno], ?_⟩
          rw [Runs.run_append, hwait]
          rfl
    | _ => cases hop

/-! ## Steps that find the counter free -/

theorem poolInv_wf : PoolInv (SsnClient.Wf (κ := κ)) where
  of_pool h hp _ := h.of_pool hp
  free hi h := h.freePendingIndex hi

namespace ClientWorld

theorem wf_send (msg : Message) (h : w.client.Wf) : (w.send net msg).1.client.Wf := by
  rcases hsend : w.send net msg with ⟨w', ok⟩
  exact h.of_pool (send_spec hsend).2.1

theorem wf_poolStep [DecidableEq κ] (net : Nat → Nat → SendStep) (w : ClientWorld κ)
    (e : PoolStep κ) (h : w.client.Wf) (hfree : w.TakesFree e) : (w.poolStep net e).client.Wf := by
  -- Only calls and pings with a callback take a number, and they find it free.
  cases e with
  | op o ho =>
    cases o with
    | connect timeoutMs run => exact poolInv_wf.connect timeoutMs run h
    | disconnect => exact poolInv_wf.disconnect h
    | call url data callback timeoutMs =>
      simp only [poolStep, step]
      by_cases hc : w.client.connected = true ∧ urlOk url = true
      · refine (callEx_spec url callback h fun hcb => ?_).wf
        obtain ⟨k, rfl⟩ := Option.isSome_iff_exists.1 hcb
        exact hfree hc
      · rw [callEx, if_neg hc]
        exact h
    | subscribe url callback timeoutMs => exact (subscribe_spec url callback h).wf
    | unsubscribe url timeoutMs => exact (unsubscribe_spec url h).wf
    | message url data =>
      simp only [poolStep, step, message]
      split_ifs
      · exact wf_send _ h
      · exact h
    | ping k timeoutMs polls => cases ho
    | sendTimeout timeoutMs outcome => exact poolInv_wf.setSendTimeout timeoutMs outcome h
    | poll outcome => exact poolInv_wf.poll outcome h
    | timerSweep => exact h.timerSweep
  | ping k timeoutMs =>
    simp only [poolStep]
    by_cases hc : w.client.connected = true
    · exact (requestEx_spec (some k) h fun _ => hfree hc).wf
    · rw [requestEx, if_neg hc]
      exact h
  | pingEnd seqno => exact poolInv_wf.pingCancel seqno h
  | reply f => exact poolInv_wf.input f h
  | timerEvent => exact poolInv_wf.handleEvent h

/-! ## Steps that do not -/

/-- A request that takes a sequence number in use leaves two slots with it, or, if it could not be
sent, a slot that the index table does not lead to. -/
theorem not_reached_requestPending {ftype : FType} {msgType : UInt8} {url data : Option Ref}
    {timeoutMs : Nat} (k : κ) (hclash : ¬ w.client.SeqnoFree) :
    ¬ (w.requestPending net ftype msgType url data k timeoutMs).1.client.Reached := by
  intro hreached
  simp only [SsnClient.SeqnoFree, not_forall, not_not] at hclash
  obtain ⟨hsome, j, hlt, hj, hs⟩ := hclash
  obtain ⟨⟨i, c⟩, ha⟩ := Option.isSome_iff_exists.1 hsome
  obtain ⟨hfree, hi, -⟩ := SsnClient.allocPendingIndex_spec ha
  have hne : j ≠ i := by
    rintro rfl
    rw [hfree] at hj
    cases hj
  obtain ⟨hslots, hindex⟩ : (c.register i ftype k timeoutMs).pendingPool = _ ∧
      (c.register i ftype k timeoutMs).seqnoToIndex = _ := SsnClient.register_pool ha
  rcases hsend : (w.setClient (c.register i ftype k timeoutMs)).send net
    ⟨msgType, 0, c.seqno, url, data⟩ with ⟨w', ok⟩
  obtain ⟨-, hpool, -⟩ := send_spec hsend
  have huse (n : Nat) : w'.client.inUse n = (decide (n = i) || w.client.inUse n) :=
    (SsnClient.inUse_of_pool hpool n).trans (SsnClient.inUse_register ha n)
  have hslots' : w'.client.pendingPool = _ := (congrArg Prod.fst hpool).trans hslots
  have hindex' : w'.client.seqnoToIndex = _ := (congrArg (fun p => p.2.2) hpool).trans hindex
  have hsi : (w'.client.pendingPool i).seqno = w.client.seqno := by
    rw [hslots', Function.update_self]
  have hsj : (w'.client.pendingPool j).seqno = w.client.seqno := by
    rw [hslots', Function.update_of_ne hne, hs]
  simp only [requestPending, ha, hsend] at hreached
  split_ifs at hreached
  · refine hne (hreached.distinct j hlt i hi ?_ ?_ (hsj.trans hsi.symm))
    · rw [huse, hj, Bool.or_true]
    · simp [huse]
  · -- The new slot is freed, and takes the entry of the index table with it.
    have hj' : (w'.client.freePendingIndex i).inUse j = true := by
      simp [SsnClient.inUse_freePendingIndex hi, hne, huse, hj]
    have hlost := hreached.index j hlt hj'
    simp only [setClient, SsnClient.freePendingIndex, if_neg (Nat.not_le.2 hi), hsi, hsj, hindex',
      Function.update_self, if_true] at hlost
    simp only [← hlost, noIndex, maxPending] at hlt
    omega

theorem not_reached_poolStep [DecidableEq κ] (net : Nat → Nat → SendStep) (w : ClientWorld κ)
    (e : PoolStep κ) (hclash : ¬ w.TakesFree e) : ¬ (w.poolStep net e).client.Reached := by
  cases e with
  | op o ho =>
    cases o with
    | call url data callback timeoutMs =>
      cases callback with
      | none => exact absurd trivial hclash
      | some k =>
        obtain ⟨hc, hfree⟩ := Classical.not_imp.1 hclash
        simp only [poolStep, step, callEx, if_pos hc]
        exact not_reached_requestPending k hfree
    | _ => exact absurd trivial hclash
  | ping k timeoutMs =>
    obtain ⟨hc, hfree⟩ := Classical.not_imp.1 hclash
    simp only [poolStep, requestEx, if_pos hc]
    exact not_reached_requestPending k hfree
  | _ => exact absurd trivial hclash

end ClientWorld

/-- **Sequence numbers stay apart exactly while the counter finds free ones.** In every state of
every run of a client (calls, subscriptions, messages, pings, replies, polls, rounds of the timer
and its events, connection attempts and disconnects) slots in use have different sequence numbers
and the index table leads to each of them, if and only if each request that takes a slot does so
when no slot in use has the counter's value. -/
theorem reached_iff_seqnoFree [DecidableEq κ] (net : Nat → Nat → SendStep)
    (es : List (PoolStep κ)) :
    Runs.Always (ClientWorld.poolStep net) (fun w => w.client.Reached) ⟨.create, []⟩ es ↔
      Runs.EachStep (ClientWorld.poolStep net) ClientWorld.TakesFree ⟨.create, []⟩ es :=
  Runs.always_iff_eachStep
    (fun (w : ClientWorld κ) e (h : w.client.Wf) _ => ClientWorld.wf_poolStep net w e h)
    (fun _ h => h.reached)
    (fun w e _ _ => ClientWorld.not_reached_poolStep net w e) SsnClient.Fresh.create.wf
    Runs.eachStep_true

/-! ## A run that comes round -/

namespace ClientWorld

/-- The client is connected, and `m` is what is pending. -/
structure Ready (w : ClientWorld κ) (m : UInt16 → Option (Pending κ)) : Prop where
  connected : w.client.connected = true
  isOpen : w.SocketOpen
  wf : w.client.Wf
  pending : w.client.pending = m

variable {m : UInt16 → Option (Pending κ)} {url : Bytes}

theorem Ready.isSome_alloc (h : w.Ready m) {s : UInt16} (hm : ∀ s' ≠ s, m s' = none) :
    w.client.allocPendingIndex.isSome = true := by
  by_contra hnone
  have hall (i : Nat) (hi : i < maxPending) : w.client.inUse i = true := by
    by_contra hfree
    rw [Bool.not_eq_true] at hfree
    rw [SsnClient.allocPendingIndex, Option.isSome_map] at hnone
    exact hnone (Bitmap.isSome_firstFree hfree hi)
  have hseqno (i : Nat) (hi : i < maxPending) : (w.client.pendingPool i).seqno = s := by
    by_contra hne
    have hp := SsnClient.pending_of_inUse h.wf (hall i hi)
    rw [h.pending, hm _ hne] at hp
    cases hp
  have h01 := h.wf.seqno_inj (hall 0 (by decide)) (hall 1 (by decide))
    ((hseqno 0 (by decide)).trans (hseqno 1 (by decide)).symm)
  cases h01

theorem Ready.not_seqnoFree {p : Pending κ} (h : w.Ready m)
    (ha : w.client.allocPendingIndex.isSome = true) (hs : m w.client.seqno = some p) :
    ¬ w.client.SeqnoFree := by
  intro hfree
  obtain ⟨i, hi, rfl, hseqno⟩ := (SsnClient.pending_iff h.wf).1 (h.pending ▸ hs)
  exact hfree ha i (h.wf.slot i hi).1 hi hseqno

theorem Ready.call (h : w.Ready m) (hnet : Reliable net)
    (ha : w.client.allocPendingIndex.isSome = true) (hs : m w.client.seqno = none)
    (hurl : urlOk url = true) (hsend : Sendable (some (Ref.ofBytes url)) none) (k : κ)
    (timeoutMs : Nat) :
    let w' := (w.callEx net url none (some k) timeoutMs).1
    w'.Ready (Function.update m w.client.seqno (w.entryOf .rpc (some k) timeoutMs)) ∧
      w'.client.seqno = w.client.seqno + 1 := by
  obtain ⟨⟨i, c⟩, ha⟩ := Option.isSome_iff_exists.1 ha
  let sent : ClientWorld κ × Message := (w.setClient (c.register i .rpc k timeoutMs),
    ⟨MsgType.rpcRequest, 0, c.seqno, some (Ref.ofBytes url), none⟩)
  have hsending : w.requestSending .rpc MsgType.rpcRequest (some (Ref.ofBytes url)) none (some k)
      timeoutMs = some sent := by
    rw [requestSending, ha]
  have hlink := (quiet_requestSending hsending).link
  have hc : sent.1.client.connected = true := (congrArg Link.connected hlink).trans h.connected
  have hopen : sent.1.SocketOpen := h.isOpen.of_link hlink
  have hthrough : sent.1.GetsThrough net sent.2 := ⟨hsend, hnet _ _ _ hsend.total⟩
  -- The descriptor is open and the network takes every packet.
  have hok : (sent.1.send net sent.2).2 = true := by
    obtain ⟨t, ht, hfd⟩ := hopen hc
    refine send_ret_iff.2 ⟨?_, hthrough⟩
    rw [wire, ht]
    exact Int.not_lt.2 hfd
  obtain ⟨w', hq, heq⟩ := requestWith_some net hsending
  have hseqno : c.seqno = w.client.seqno := by rw [(SsnClient.allocPendingIndex_spec ha).2.2]
  have hcall : w.callEx net url none (some k) timeoutMs = (w', some w.client.seqno) := by
    rw [callEx, if_pos ⟨h.connected, hurl⟩, heq, hok, ← hseqno]
    rfl
  have hspec : Requested w _ (w.callEx net url none (some k) timeoutMs) :=
    callEx_spec url (some k) h.wf fun _ => SsnClient.seqnoFree_of_pending h.wf (h.pending ▸ hs)
  rw [hcall] at hspec ⊢
  obtain ⟨-, hwf, hout⟩ := hspec
  have hconn : w'.client.connected = true := (congrArg Link.connected hq.link).trans hc
  have hopen' : w'.SocketOpen := (hopen.send hthrough).of_link hq.link
  cases hout with
  | plain _ hnone => cases hnone
  | registered p hentry hpend hnext =>
    rw [hentry, ← h.pending]
    exact ⟨⟨hconn, hopen', hwf, hpend⟩, hnext⟩

theorem Ready.reply {f : Frame} {p : Pending κ} (h : w.Ready m) (hf : IsReply f)
    (hp : m (getSeqno f) = some p) :
    (w.input f).Ready (Function.update m (getSeqno f) none) ∧
      (w.input f).client.seqno = w.client.seqno := by
  obtain ⟨-, hwf, hpend, hseqno⟩ := input_of_some hf h.wf (h.pending ▸ hp)
  have hlink : (w.input f).client.link = w.client.link := (quiet_input f).link
  refine ⟨⟨?_, h.isOpen.of_link hlink, hwf, hpend.trans (by rw [h.pending])⟩, hseqno⟩
  exact (congrArg Link.connected hlink).trans h.connected

end ClientWorld

def pathA : Bytes := [slash, 0x61]

theorem sendable_pathA : Sendable (some (Ref.ofBytes pathA)) none := by
  refine ⟨by decide, fun u hu => ?_, by simp, by decide⟩
  obtain rfl := Option.some.inj hu
  decide

/-- A call that is answered at once: it gets the sequence number `n + 1`. -/
def answeredCall (n : Nat) : List (PoolStep Nat) :=
  [.op (.call pathA none (some (n + 1)) 1000) rfl,
    .reply (bareFrame MsgType.rpcRequest (UInt16.ofNat (n + 1)))]

/-- A call that waits long for its reply, `n` calls that are each answered at once, and one more
call. -/
def longCallThen (n : Nat) : List (PoolStep Nat) :=
  .op answered rfl :: .op (.call pathA none (some 0) 0xFFFFFFFF) rfl ::
    ((List.range n).flatMap answeredCall ++ [.op (.call pathA none (some (n + 1)) 1000) rfl])

section ComesRound

open ClientWorld

variable {w : ClientWorld Nat} {p : Option (Pending Nat)}

theorem ready_answeredCall (h : w.Ready (Function.update (fun _ => none) 0 p)) {n : Nat}
    (hn : n < 65535) (hs : w.client.seqno = UInt16.ofNat (n + 1)) :
    (Runs.run (poolStep acceptAll) w (answeredCall n)).Ready
        (Function.update (fun _ => none) 0 p) ∧
      (Runs.run (poolStep acceptAll) w (answeredCall n)).client.seqno = UInt16.ofNat (n + 2) := by
  have hne : w.client.seqno ≠ 0 := by
    intro h0
    have := congrArg UInt16.toNat (hs.symm.trans h0)
    rw [UInt16.toNat_ofNat', UInt16.toNat_zero] at this
    omega
  have hfree : ∀ s' ≠ (0 : UInt16), Function.update (fun _ => none) 0 p s' = none :=
    fun s' hs' => Function.update_of_ne hs' _ _
  obtain ⟨hcall, hnext⟩ := h.call reliable_acceptAll (h.isSome_alloc hfree) (hfree _ hne)
    (by decide) sendable_pathA (n + 1) 1000
  obtain ⟨htype, -, hseqno, -⟩ := fields_of_packet sendable_none
    (f := bareFrame MsgType.rpcRequest (UInt16.ofNat (n + 1))) rfl
  have hreply : IsReply (bareFrame MsgType.rpcRequest (UInt16.ofNat (n + 1))) := by
    rw [IsReply, htype]
    decide
  rw [hs] at hcall hnext
  obtain ⟨hdone, hsame⟩ := hcall.reply hreply (by rw [hseqno, Function.update_self]; rfl)
  rw [hseqno, Function.update_idem, Function.update_eq_self_iff.2 (hfree _ (hs ▸ hne)).symm]
    at hdone
  refine ⟨hdone, hsame.trans (hnext.trans ?_)⟩
  rw [UInt16.ofNat_add (n + 1) 1]
  rfl

theorem ready_answeredCalls (h : w.Ready (Function.update (fun _ => none) 0 p))
    (hs : w.client.seqno = 1) {n : Nat} (hn : n ≤ 65535) :
    (Runs.run (poolStep acceptAll) w ((List.range n).flatMap answeredCall)).Ready
        (Function.update (fun _ => none) 0 p) ∧
      (Runs.run (poolStep acceptAll) w ((List.range n).flatMap answeredCall)).client.seqno =
        UInt16.ofNat (n + 1) := by
  induction n with
  | zero => exact ⟨h, hs⟩
  | succ n ih =>
    obtain ⟨hready, hseqno⟩ := ih (by omega)
    rw [List.range_succ, List.flatMap_append, Runs.run_append, List.flatMap_singleton]
    exact ready_answeredCall hready (by omega) hseqno

theorem ready_connectedWorld : connectedWorld.Ready fun _ => none := by
  have hfresh : connectedWorld.client.Fresh := SsnClient.Fresh.poolInv.connect _ _ .create
  refine ⟨by decide +kernel, ?_, hfresh.wf, hfresh.pending⟩
  exact socketOpen_step acceptAll _ answered (fun hc => nomatch hc) (fun _ hp => nomatch hp)

theorem not_reached_answeredCalls {q : Pending Nat} {n : Nat}
    (h : w.Ready (Function.update (fun _ => none) 0 (some q))) (hs : w.client.seqno = 1)
    (hn : n ≤ 65535) (hzero : UInt16.ofNat (n + 1) = 0) :
    ¬ (Runs.run (poolStep acceptAll) w ((List.range n).flatMap answeredCall ++
      [.op (.call pathA none (some (n + 1)) 1000) rfl])).client.Reached := by
  obtain ⟨hround, hnext⟩ := ready_answeredCalls h hs hn
  rw [Runs.run_append]
  generalize Runs.run (poolStep acceptAll) w ((List.range n).flatMap answeredCall) = w'
    at hround hnext
  have hclash : ¬ w'.client.SeqnoFree := by
    apply hround.not_seqnoFree (hround.isSome_alloc fun s' hs' => Function.update_of_ne hs' _ _)
    rw [hnext, hzero]
    exact Function.update_self ..
  exact not_reached_poolStep acceptAll w' (.op (.call pathA none (some (n + 1)) 1000) rfl)
    fun hfree => hclash (hfree ⟨hround.connected, by decide⟩)

/-- After 65535 more calls the counter is back at the sequence number of the first one, which is
still pending; the next call takes it. -/
theorem longCallThen_not_reached :
    ¬ Runs.Always (poolStep acceptAll) (fun w => w.client.Reached) ⟨.create, []⟩
      (longCallThen 65535) := by
  intro h
  have hstart := ready_connectedWorld
  have hseqno : connectedWorld.client.seqno = 0 :=
    (SsnClient.Fresh.poolInv.connect _ _ SsnClient.Fresh.create).seqno
  obtain ⟨hfirst, hone⟩ := hstart.call reliable_acceptAll
    (hstart.isSome_alloc (s := 0) fun _ _ => rfl) rfl (by decide) sendable_pathA 0 0xFFFFFFFF
  rw [hseqno] at hfirst hone
  have hlast := h _ (List.prefix_refl _)
  rw [longCallThen, Runs.run_cons, Runs.run_cons] at hlast
  exact not_reached_answeredCalls hfirst hone (Nat.le_refl _) (by decide) hlast

end ComesRound

end Ssn
