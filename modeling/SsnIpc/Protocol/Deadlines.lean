import SsnIpc.Protocol.Rpc
import SsnIpc.Lib.Lists
import SsnIpc.Lib.Runs

/-!
# Every request of a requester ends once, by its deadline or by its reply

**Theorem (`callback_of_first_verdict`).** Take any run of a requester, and a call in it that
returned 0. As the run goes on, the callback of that request is called at most once: by the first
poll that has a verdict on it. The verdict is a timeout if the deadline has come, to the
nanosecond; otherwise it is the reply with the sequence number of the request, if the frame at the
front of what was received is one. The slot of the request is in use until that poll and free
after it, and the poll leaves every other request alone on which it has no verdict.

What a call and a poll do is said once each (`call_outcome`, `poll_req`, `poll_log`), in terms of
verdicts on single slots. The invariant (`RpcWorld.Wf`) is that slots in use differ in their
sequence numbers and in their requests. A run is then followed from the call on, slot by slot
(`holds_step`, `gone_step`).
-/

namespace Ssn

open ByteMem

variable {κ : Type*} (net : Nat → Nat → SendStep)

/-! ## Verdicts -/

/-- The reply that a poll receives: a frame of the right type at the front of the buffer. -/
def replyFrame (recv : RecvResult) : Option Frame :=
  match recvFrame recv with
  | .ok f => if getMsgType f = MsgType.rpcRequest then some f else none
  | .error _ => none

/-- What a step says to a request in flight with this sequence number and deadline in nanoseconds:
the status and the data its callback is to be given. -/
def verdict (seqno : UInt16) (deadline : Nat) : RpcOp → Option (UInt32 × Ref)
  | .poll now recv =>
    if deadline ≤ now.toNanos then some (ecodeTimeout, Ref.null)
    else (replyFrame recv).bind fun f =>
      if getSeqno f = seqno then some (getStatus f, dataRef f) else none
  | _ => none

/-- What a step says to the request in a slot. -/
def RpcPending.verdict (e : RpcPending κ) (op : RpcOp) : Option (UInt32 × Ref) :=
  Ssn.verdict e.seqno e.expireTime.toNanos op

/-- The call of the callback of a slot, if there is one. -/
def RpcPending.reply (e : RpcPending κ) (out : UInt32 × Ref) : Option (ReplyCall κ) :=
  e.callback.map fun k => ⟨k, e.seqno, out.1, out.2⟩

/-- The call of the callback of request `n` that an event is. -/
def RpcEvent.callOf (n : Nat) : RpcEvent κ → Option (ReplyCall κ)
  | .called m c => if m = n then some c else none
  | _ => none

/-- The calls of the callback of request `n`. -/
def callsOf (n : Nat) (log : List (RpcEvent κ)) : List (ReplyCall κ) :=
  log.filterMap (RpcEvent.callOf n)

theorem callsOf_append (n : Nat) (log log' : List (RpcEvent κ)) :
    callsOf n (log ++ log') = callsOf n log ++ callsOf n log' := List.filterMap_append

@[simp] theorem callsOf_nil (n : Nat) : callsOf n ([] : List (RpcEvent κ)) = [] := rfl

@[simp] theorem callsOf_sent (n : Nat) (msg : Message) (out : SendOut) :
    callsOf n [(.sent msg out : RpcEvent κ)] = [] := rfl

@[simp] theorem callsOf_input (n : Nat) (f : Frame) :
    callsOf n [(.input f : RpcEvent κ)] = [] := rfl

def RpcPending.events (e : RpcPending κ) (out : UInt32 × Ref) : List (RpcEvent κ) :=
  ((e.reply out).map (.called e.born)).toList

theorem callsOf_events (n : Nat) (e : RpcPending κ) (out : UInt32 × Ref) :
    callsOf n (e.events out) = if e.born = n then (e.reply out).toList else [] := by
  unfold RpcPending.events callsOf
  cases e.reply out with
  | none => simp
  | some c => by_cases h : e.born = n <;> simp [RpcEvent.callOf, h]

/-! ## The pool -/

namespace RpcReq

variable (r : RpcReq κ)

@[simp] theorem pendingPool_setSlot (i : Nat) (e : RpcPending κ) :
    (r.setSlot i e).pendingPool = Function.update r.pendingPool i e := rfl

@[simp] theorem transport_setSlot (i : Nat) (e : RpcPending κ) :
    (r.setSlot i e).transport = r.transport := rfl

@[simp] theorem onReply_setSlot (i : Nat) (e : RpcPending κ) :
    (r.setSlot i e).onReply = r.onReply := rfl

theorem pendingPoolFind_none {r : RpcReq κ} {seqno : UInt16}
    (h : r.pendingPoolFind seqno = none) {i : Nat} (hi : i < rpcMaxPending)
    (hu : (r.pendingPool i).inUse = true) : (r.pendingPool i).seqno ≠ seqno := by
  have hall := List.find?_eq_none.1 h i (List.mem_range.2 hi)
  simpa [hu] using hall

theorem pendingPoolFind_some {r : RpcReq κ} {seqno : UInt16} {i : Nat}
    (h : r.pendingPoolFind seqno = some i) :
    i < rpcMaxPending ∧ (r.pendingPool i).inUse = true ∧ (r.pendingPool i).seqno = seqno := by
  have hp := List.find?_some h
  have hm := List.mem_of_find?_eq_some h
  simp only [decide_eq_true_eq] at hp
  exact ⟨List.mem_range.1 hm, hp⟩

/-- The search changes the counter only, and what it finds is not in flight. -/
theorem seekSeqno_spec (r : RpcReq κ) (n : Nat) (seqno : UInt16) :
    (∃ next, (r.seekSeqno n seqno).2 = { r with nextSeqno := next }) ∧
      ∀ s, (r.seekSeqno n seqno).1 = some s → 0 < n → r.pendingPoolFind s = none := by
  induction n generalizing r seqno with
  | zero => exact ⟨⟨r.nextSeqno, rfl⟩, fun _ _ h => absurd h (Nat.lt_irrefl 0)⟩
  | succ n ih =>
    unfold seekSeqno
    by_cases hf : (r.pendingPoolFind seqno).isNone
    · rw [if_pos hf]
      refine ⟨⟨r.nextSeqno, rfl⟩, fun s hs _ => ?_⟩
      obtain rfl := Option.some.inj hs
      exact Option.isNone_iff_eq_none.1 hf
    · simp only [if_neg hf]
      by_cases hn : n = 0
      · rw [if_pos hn]
        exact ⟨⟨_, rfl⟩, fun s hs => by cases hs⟩
      · rw [if_neg hn]
        obtain ⟨⟨next, hr⟩, hfree⟩ := ih { r with nextSeqno := r.nextSeqno + 1 } r.nextSeqno
        exact ⟨⟨next, hr⟩, fun s hs _ => hfree s hs (Nat.pos_of_ne_zero hn)⟩

theorem takeSeqno_spec (r : RpcReq κ) : (∃ next, r.takeSeqno.2 = { r with nextSeqno := next }) ∧
    ∀ s, r.takeSeqno.1 = some s → r.pendingPoolFind s = none := by
  obtain ⟨⟨next, hr⟩, hfree⟩ := seekSeqno_spec { r with nextSeqno := r.nextSeqno + 1 }
    (rpcMaxPending + 1) r.nextSeqno
  exact ⟨⟨next, hr⟩, fun s hs => hfree s hs (Nat.succ_pos _)⟩

theorem pendingPoolAlloc_spec {r r' : RpcReq κ} {i : Nat}
    (h : r.pendingPoolAlloc = some (i, r')) :
    i < rpcMaxPending ∧ (r.pendingPool i).inUse = false ∧
      r' = r.setSlot i { r.pendingPool i with inUse := true } := by
  obtain ⟨i, hi, hout⟩ := Option.map_eq_some_iff.1 h
  cases hout
  exact ⟨List.mem_range.1 (List.mem_of_find?_eq_some hi), by simpa using List.find?_some hi, rfl⟩

end RpcReq

namespace RpcWorld

variable {w w' : RpcWorld κ}

/-- Slots in use differ in their sequence numbers and in their requests, and each request was sent
before. -/
structure Wf (w : RpcWorld κ) : Prop where
  lt : ∀ {i}, (w.req.pendingPool i).inUse = true → i < rpcMaxPending
  born_lt : ∀ {i}, (w.req.pendingPool i).inUse = true → (w.req.pendingPool i).born < w.log.length
  born_inj : ∀ {i j}, (w.req.pendingPool i).inUse = true → (w.req.pendingPool j).inUse = true →
    (w.req.pendingPool i).born = (w.req.pendingPool j).born → i = j
  seqno_inj : ∀ {i j}, (w.req.pendingPool i).inUse = true → (w.req.pendingPool j).inUse = true →
    (w.req.pendingPool i).seqno = (w.req.pendingPool j).seqno → i = j

theorem wf_create (onReply : Option κ) : Wf ⟨.create onReply, []⟩ where
  lt h := by cases h
  born_lt h := by cases h
  born_inj h := by cases h
  seqno_inj h := by cases h

/-- Steps that take no slot keep the invariant: slots in use afterwards were in use before, with
the same entry. -/
theorem Wf.of_subset (h : w.Wf) (hlen : w.log.length ≤ w'.log.length)
    (hsub : ∀ i, (w'.req.pendingPool i).inUse = true →
      w'.req.pendingPool i = w.req.pendingPool i) : w'.Wf where
  lt hi := h.lt (hsub _ hi ▸ hi)
  born_lt hi := by
    have := h.born_lt (hsub _ hi ▸ hi)
    rw [hsub _ hi]
    omega
  born_inj hi hj heq := h.born_inj (hsub _ hi ▸ hi) (hsub _ hj ▸ hj) (hsub _ hi ▸ hsub _ hj ▸ heq)
  seqno_inj hi hj heq :=
    h.seqno_inj (hsub _ hi ▸ hi) (hsub _ hj ▸ hj) (hsub _ hi ▸ hsub _ hj ▸ heq)

/-- What told the slots in use apart still does when a slot takes an entry that differs from
them all. -/
theorem inj_update {γ : Type*} (f : RpcPending κ → γ) {pool : Nat → RpcPending κ} {j : Nat}
    {e : RpcPending κ}
    (hinj : ∀ {i k}, (pool i).inUse = true → (pool k).inUse = true →
      f (pool i) = f (pool k) → i = k)
    (hnew : ∀ i, (pool i).inUse = true → f (pool i) ≠ f e) {i k : Nat}
    (hi : (Function.update pool j e i).inUse = true)
    (hk : (Function.update pool j e k).inUse = true)
    (heq : f (Function.update pool j e i) = f (Function.update pool j e k)) : i = k := by
  by_cases hij : i = j <;> by_cases hkj : k = j
  · rw [hij, hkj]
  · rw [Function.update_of_ne hkj] at hk heq
    rw [hij, Function.update_self] at heq
    exact absurd heq.symm (hnew k hk)
  · rw [Function.update_of_ne hij] at hi heq
    rw [hkj, Function.update_self] at heq
    exact absurd heq (hnew i hi)
  · rw [Function.update_of_ne hij] at hi heq
    rw [Function.update_of_ne hkj] at hk heq
    exact hinj hi hk heq

theorem Wf.of_update (h : w.Wf) {j : Nat} {e : RpcPending κ} (hj : j < rpcMaxPending)
    (hpool : w'.req.pendingPool = Function.update w.req.pendingPool j e)
    (hborn : e.born = w.log.length) (hlen : w.log.length < w'.log.length)
    (hseq : ∀ i, (w.req.pendingPool i).inUse = true → (w.req.pendingPool i).seqno ≠ e.seqno) :
    w'.Wf := by
  constructor <;> rw [hpool]
  · intro i hi
    by_cases hij : i = j
    · exact hij ▸ hj
    · rw [Function.update_of_ne hij] at hi
      exact h.lt hi
  · intro i hi
    by_cases hij : i = j
    · rw [hij, Function.update_self, hborn]
      exact hlen
    · rw [Function.update_of_ne hij] at hi ⊢
      exact Nat.lt_trans (h.born_lt hi) hlen
  · intro i k
    exact inj_update RpcPending.born h.born_inj fun i hi => hborn ▸ Nat.ne_of_lt (h.born_lt hi)
  · intro i k
    exact inj_update RpcPending.seqno h.seqno_inj hseq

/-! ## What a call does -/

/-- A call fails, and all slots in use are as before; or it puts a request with a sequence number
of its own into a free slot. -/
inductive CallOutcome (w w' : RpcWorld κ) (msgOf : UInt16 → Message)
    (entryOf : UInt16 → RpcPending κ) : Int → Prop
  | failed (es : List (RpcEvent κ)) :
      (∀ i, (w'.req.pendingPool i).inUse = true → w'.req.pendingPool i = w.req.pendingPool i) →
      (∀ i, (w.req.pendingPool i).inUse = true → w'.req.pendingPool i = w.req.pendingPool i) →
      w'.req.transport = w.req.transport → w'.req.onReply = w.req.onReply →
      w'.log = w.log ++ es → (∀ n, callsOf n es = []) → CallOutcome w w' msgOf entryOf (-1)
  | sent (i : Nat) (seqno : UInt16) (out : SendOut) : i < rpcMaxPending →
      (w.req.pendingPool i).inUse = false →
      (∀ j, (w.req.pendingPool j).inUse = true → j < rpcMaxPending →
        (w.req.pendingPool j).seqno ≠ seqno) →
      w'.req.pendingPool = Function.update w.req.pendingPool i (entryOf seqno) →
      w'.req.transport = w.req.transport → w.req.transport.isSome →
      w'.req.onReply = w.req.onReply → w'.log = w.log ++ [.sent (msgOf seqno) out] →
      out.ret = true →
      CallOutcome w w' msgOf entryOf 0

theorem CallOutcome.of_free {msgOf : UInt16 → Message} {entryOf : UInt16 → RpcPending κ} {j : Nat}
    {e : RpcPending κ} {es : List (RpcEvent κ)} (hfree : (w.req.pendingPool j).inUse = false)
    (hpool : w'.req.pendingPool = Function.update w.req.pendingPool j e) (he : e.inUse = false)
    (htransport : w'.req.transport = w.req.transport) (honReply : w'.req.onReply = w.req.onReply)
    (hlog : w'.log = w.log ++ es) (hes : ∀ n, callsOf n es = []) :
    CallOutcome w w' msgOf entryOf (-1) := by
  refine .failed es (fun i hi => ?_) (fun i hi => ?_) htransport honReply hlog hes
  · rw [hpool] at hi ⊢
    refine Function.update_of_ne ?_ ..
    rintro rfl
    rw [Function.update_self, he] at hi
    cases hi
  · rw [hpool]
    refine Function.update_of_ne ?_ ..
    rintro rfl
    rw [hfree] at hi
    cases hi

theorem call_outcome (w : RpcWorld κ) (methodName : Option Bytes) (data : Ref) (timeoutMs : UInt64)
    (now : Timespec) (stack : Mem) :
    CallOutcome w (w.call net methodName data timeoutMs now stack).1
      (requestMsg (methodName.getD []) data) (fun seqno => w.entry seqno timeoutMs now)
      (w.call net methodName data timeoutMs now stack).2 := by
  have hfail : CallOutcome w w (requestMsg (methodName.getD []) data)
      (fun seqno => w.entry seqno timeoutMs now) (-1) :=
    .failed [] (fun _ _ => rfl) (fun _ _ => rfl) rfl rfl (by simp) (by simp)
  unfold call
  cases methodName with
  | none => exact hfail
  | some methodName =>
    cases ht : w.req.transport with
    | none => exact hfail
    | some t =>
      simp only
      cases ha : w.req.pendingPoolAlloc with
      | none => exact hfail
      | some out =>
        obtain ⟨j, r⟩ := out
        obtain ⟨hlt, hfree, rfl⟩ := RpcReq.pendingPoolAlloc_spec ha
        simp only
        obtain ⟨⟨next, hr⟩, hnew⟩ := RpcReq.takeSeqno_spec
          (w.req.setSlot j { w.req.pendingPool j with inUse := true })
        cases hs : (w.req.setSlot j { w.req.pendingPool j with inUse := true }).takeSeqno with
        | mk seqno r =>
          rw [hs] at hr hnew
          obtain rfl : r = _ := hr
          cases seqno with
          | none =>
            exact .of_free hfree (Function.update_idem ..) rfl rfl rfl (List.append_nil _).symm
              fun _ => rfl
          | some seqno =>
            -- The number that the search found is that of no other slot in use.
            have hseq : ∀ i, (w.req.pendingPool i).inUse = true → i < rpcMaxPending →
                (w.req.pendingPool i).seqno ≠ seqno := by
              intro i hi hil
              have hij : i ≠ j := by
                rintro rfl
                rw [hfree] at hi
                cases hi
              have hfind := RpcReq.pendingPoolFind_none (hnew seqno rfl) hil (by simp [hij, hi])
              simpa [hij] using hfind
            simp only [sendRequest]
            split_ifs with hret
            · refine .sent j seqno _ hlt hfree hseq ?_ rfl (by simp [ht]) rfl rfl hret
              exact Function.update_idem ..
            · refine .of_free (e := { w.entry seqno timeoutMs now with inUse := false }) hfree ?_
                rfl rfl rfl rfl fun _ => rfl
              simp [setReq, emit, RpcReq.pendingPoolFree]

/-! ## What a poll does -/

/-- A slot after a step: freed if the step has a verdict on its request. -/
def settle (op : RpcOp) (e : RpcPending κ) : RpcPending κ :=
  if e.inUse ∧ (e.verdict op).isSome then { e with inUse := false } else e

/-- The deadline of a slot in use has come. -/
def due (now : Timespec) (e : RpcPending κ) : Prop :=
  e.inUse = true ∧ e.expireTime.toNanos ≤ now.toNanos

instance (now : Timespec) (e : RpcPending κ) : Decidable (due now e) :=
  inferInstanceAs (Decidable (_ ∧ _))

/-- A slot after the loop over the slots. -/
def giveUp (now : Timespec) (e : RpcPending κ) : RpcPending κ :=
  if due now e then { e with inUse := false } else e

/-- What the loop logs for a slot. -/
def timeoutEvents (now : Timespec) (e : RpcPending κ) : List (RpcEvent κ) :=
  if due now e then e.events (ecodeTimeout, Ref.null) else []

theorem callback_eq (w : RpcWorld κ) (e : RpcPending κ) (status : UInt32) (data : Ref) :
    w.callback e status data = { w with log := w.log ++ e.events (status, data) } := by
  unfold callback RpcPending.events RpcPending.reply
  cases e.callback <;> simp [emit]

theorem expireOne_eq (now : Timespec) (w : RpcWorld κ) (i : Nat) :
    w.expireOne now i = ⟨w.req.setSlot i (giveUp now (w.req.pendingPool i)),
      w.log ++ timeoutEvents now (w.req.pendingPool i)⟩ := by
  have hiff : ((w.req.pendingPool i).inUse ∧ now.expired (w.req.pendingPool i).expireTime) ↔
      due now (w.req.pendingPool i) := by rw [Timespec.expired_iff, due]
  simp only [expireOne, callback_eq]
  by_cases h : due now (w.req.pendingPool i)
  · rw [if_pos (hiff.2 h), giveUp, if_pos h, timeoutEvents, if_pos h]
    rfl
  · rw [if_neg fun hc => h (hiff.1 hc), giveUp, if_neg h, timeoutEvents, if_neg h]
    simp [RpcReq.setSlot]

theorem foldl_expireOne (now : Timespec) (w : RpcWorld κ) {is : List Nat} (hnd : is.Nodup) :
    is.foldl (expireOne now) w =
      ⟨{ w.req with pendingPool := fun i =>
          if i ∈ is then giveUp now (w.req.pendingPool i) else w.req.pendingPool i },
        w.log ++ is.flatMap fun i => timeoutEvents now (w.req.pendingPool i)⟩ := by
  induction is generalizing w with
  | nil => simp
  | cons i is ih =>
    obtain ⟨hi, hnd⟩ := List.nodup_cons.1 hnd
    -- The turns for the other slots still see them as they were.
    have hother : ∀ j ∈ is, j ≠ i := fun j hj hji => hi (hji ▸ hj)
    have hevents : (is.flatMap fun j => timeoutEvents now
        (Function.update w.req.pendingPool i (giveUp now (w.req.pendingPool i)) j)) =
        is.flatMap fun j => timeoutEvents now (w.req.pendingPool j) := by
      rw [List.flatMap_def, List.flatMap_def, List.map_congr_left]
      intro j hj
      rw [Function.update_of_ne (hother j hj)]
    rw [List.foldl_cons, expireOne_eq, ih _ hnd]
    simp only [RpcReq.pendingPool_setSlot, hevents, List.flatMap_cons, List.append_assoc]
    congr 2
    funext j
    by_cases hj : j = i
    · subst hj
      simp [hi]
    · simp [hj]

theorem expire_eq (w : RpcWorld κ) (now : Timespec) :
    w.expire now =
      ⟨{ w.req with pendingPool := fun i =>
          if i < rpcMaxPending then giveUp now (w.req.pendingPool i) else w.req.pendingPool i },
        w.log ++ (List.range rpcMaxPending).flatMap fun i =>
          timeoutEvents now (w.req.pendingPool i)⟩ := by
  rw [expire, foldl_expireOne now w List.nodup_range]
  simp only [List.mem_range]

theorem Wf.pendingPool_expire (h : w.Wf) (now : Timespec) (i : Nat) :
    (w.expire now).req.pendingPool i = giveUp now (w.req.pendingPool i) := by
  rw [expire_eq]
  simp only
  split_ifs with hi
  · rfl
  · rw [giveUp, if_neg]
    exact fun hd => hi (h.lt hd.1)

/-- Before its deadline a slot stays as it is. -/
theorem Wf.expire_of_not_due (h : w.Wf) {now : Timespec} {i : Nat}
    (hd : ¬ due now (w.req.pendingPool i)) :
    (w.expire now).req.pendingPool i = w.req.pendingPool i := by
  rw [h.pendingPool_expire, giveUp, if_neg hd]

theorem Wf.expire_of_due (h : w.Wf) {now : Timespec} {i : Nat}
    (hd : due now (w.req.pendingPool i)) : ((w.expire now).req.pendingPool i).inUse = false := by
  rw [h.pendingPool_expire, giveUp, if_pos hd]

theorem giveUp_inUse {now : Timespec} {e : RpcPending κ} (h : (giveUp now e).inUse = true) :
    giveUp now e = e := by
  unfold giveUp at h ⊢
  split_ifs at h ⊢
  rfl

theorem Wf.expire (h : w.Wf) (now : Timespec) : (w.expire now).Wf := by
  refine h.of_subset ?_ fun i hi => ?_
  · rw [expire_eq]
    simp
  · rw [h.pendingPool_expire] at hi ⊢
    exact giveUp_inUse hi

theorem settle_of_due {now : Timespec} {e : RpcPending κ} (h : due now e) (recv : RecvResult) :
    settle (.poll now recv) e = { e with inUse := false } := by
  rw [settle, if_pos ⟨h.1, by simp [RpcPending.verdict, verdict, h.2]⟩]

/-- A poll that receives no reply to a request says nothing to it before its deadline. -/
theorem settle_of_no_reply {now : Timespec} {e : RpcPending κ} {recv : RecvResult}
    (h : ¬ due now e → e.inUse = true → ∀ f, replyFrame recv = some f → getSeqno f ≠ e.seqno) :
    settle (.poll now recv) e = giveUp now e := by
  by_cases hd : due now e
  · rw [settle_of_due hd, giveUp, if_pos hd]
  · rw [settle, giveUp, if_neg hd, if_neg]
    rintro ⟨hu, hv⟩
    rw [RpcPending.verdict, verdict, if_neg fun hle => hd ⟨hu, hle⟩] at hv
    obtain ⟨out, hout⟩ := Option.isSome_iff_exists.1 hv
    obtain ⟨f, hf, hfs⟩ := Option.bind_eq_some_iff.1 hout
    split_ifs at hfs with hs
    exact h hd hu f hf hs

/-- The second half of a poll: what is done with what was received. -/
def takeReply (w : RpcWorld κ) (recv : RecvResult) : RpcWorld κ :=
  match recvFrame recv with
  | .error _ => w
  | .ok f =>
    if getMsgType f ≠ MsgType.rpcRequest then w.emit (.input f)
    else ((w.emit (.input f)).handleReply f).1

theorem poll_eq (ht : w.req.transport.isSome) (now : Timespec) (recv : RecvResult) :
    (w.poll now recv).1 = (w.expire now).takeReply recv := by
  have hnt : ¬ w.req.transport.isNone := by
    rw [Option.isNone_iff_eq_none]
    intro hn
    simp [hn] at ht
  rw [poll, if_neg hnt, takeReply]
  generalize w.expire now = v
  cases recvFrame recv with
  | error ret => rfl
  | ok f =>
    by_cases hty : getMsgType f = MsgType.rpcRequest <;> simp [hty]

theorem poll_unconnected (ht : ¬ w.req.transport.isSome) (now : Timespec) (recv : RecvResult) :
    (w.poll now recv).1 = w := by
  rw [Bool.not_eq_true, Option.isSome_eq_false_iff] at ht
  rw [poll, if_pos ht]

/-- What was received is no reply to a request in flight, or it is the reply to the request in one
slot. -/
inductive ReplyOutcome (w w' : RpcWorld κ) (recv : RecvResult) : Prop
  | ignored (es : List (RpcEvent κ)) : w'.req = w.req → w'.log = w.log ++ es →
      (∀ n, callsOf n es = []) →
      (∀ f, replyFrame recv = some f → ∀ i < rpcMaxPending,
        (w.req.pendingPool i).inUse = true → getSeqno f ≠ (w.req.pendingPool i).seqno) →
      ReplyOutcome w w' recv
  | matched (f : Frame) (i : Nat) : replyFrame recv = some f →
      (w.req.pendingPool i).inUse = true → getSeqno f = (w.req.pendingPool i).seqno →
      w'.req = w.req.pendingPoolFree i →
      w'.log = w.log ++ [.input f] ++ (w.req.pendingPool i).events (getStatus f, dataRef f) →
      ReplyOutcome w w' recv

theorem takeReply_outcome (w : RpcWorld κ) (recv : RecvResult) :
    ReplyOutcome w (w.takeReply recv) recv := by
  unfold takeReply
  cases hr : recvFrame recv with
  | error ret => exact .ignored [] rfl (by simp) (by simp) (by simp [replyFrame, hr])
  | ok f =>
    by_cases hty : getMsgType f = MsgType.rpcRequest
    · have hrf : replyFrame recv = some f := by simp [replyFrame, hr, hty]
      simp only [hty, ne_eq, not_true_eq_false, if_false, handleReply]
      cases hf : (w.emit (.input f)).req.pendingPoolFind (getSeqno f) with
      | none =>
        refine .ignored [.input f] rfl rfl (by simp) fun g hg i hi hu => ?_
        obtain rfl : f = g := Option.some.inj (hrf.symm.trans hg)
        exact (RpcReq.pendingPoolFind_none hf hi hu).symm
      | some i =>
        obtain ⟨-, hu, hs⟩ := RpcReq.pendingPoolFind_some hf
        refine .matched f i hrf hu hs.symm ?_ ?_ <;> simp only [callback_eq] <;> rfl
    · have hrf : replyFrame recv = none := by simp [replyFrame, hr, hty]
      simp only [ne_eq, hty, not_false_eq_true, if_true]
      exact .ignored [.input f] rfl rfl (by simp) (by simp [hrf])

/-- **Slots.** A poll frees exactly the slots it has a verdict on. -/
theorem Wf.pendingPool_poll (h : w.Wf) (ht : w.req.transport.isSome) (now : Timespec)
    (recv : RecvResult) (i : Nat) :
    (w.poll now recv).1.req.pendingPool i = settle (.poll now recv) (w.req.pendingPool i) := by
  have hexp := h.pendingPool_expire now
  have hw := h.expire now
  rw [poll_eq ht]
  cases takeReply_outcome (w.expire now) recv with
  | ignored es hreq _ _ hno =>
    rw [hreq, hexp, settle_of_no_reply]
    intro hd hu f hf
    rw [← h.expire_of_not_due hd] at hu ⊢
    exact hno f hf i (hw.lt hu) hu
  | matched f j hf hu hs hreq _ =>
    rw [hreq, RpcReq.pendingPoolFree, RpcReq.pendingPool_setSlot]
    by_cases hij : i = j
    · subst hij
      have hd : ¬ due now (w.req.pendingPool i) := by
        intro hd
        rw [h.expire_of_due hd] at hu
        cases hu
      rw [h.expire_of_not_due hd] at hu hs ⊢
      rw [Function.update_self, settle, if_pos]
      refine ⟨hu, ?_⟩
      rw [RpcPending.verdict, verdict, if_neg fun hle => hd ⟨hu, hle⟩, hf]
      simp [hs]
    · -- The reply is to slot `j` alone, since no other slot in use has its sequence number.
      rw [Function.update_of_ne hij, hexp, settle_of_no_reply]
      intro hd hui g hg hgs
      obtain rfl : f = g := Option.some.inj (hf.symm.trans hg)
      rw [← h.expire_of_not_due hd] at hui hgs
      exact hij (hw.seqno_inj hui hu (hgs.symm.trans hs))

/-! ## Which callbacks a poll calls -/

theorem callsOf_expire (w : RpcWorld κ) (now : Timespec) (n : Nat) :
    callsOf n (w.expire now).log = callsOf n w.log ++
      (List.range rpcMaxPending).flatMap fun i =>
        callsOf n (timeoutEvents now (w.req.pendingPool i)) := by
  rw [expire_eq]
  simp only [callsOf, List.filterMap_append, List.filterMap_flatMap]

theorem callsOf_timeoutEvents_of_ne {now : Timespec} {e : RpcPending κ} {n : Nat}
    (h : e.inUse = true → e.born ≠ n) : callsOf n (timeoutEvents now e) = [] := by
  unfold timeoutEvents
  split_ifs with hd
  · rw [callsOf_events, if_neg (h hd.1)]
  · rfl

/-- No slot in use belongs to request `n`. -/
def Gone (w : RpcWorld κ) (n : Nat) : Prop :=
  ∀ i, (w.req.pendingPool i).inUse = true → (w.req.pendingPool i).born ≠ n

theorem Gone.callsOf_expire {n : Nat} (h : w.Gone n) (now : Timespec) :
    callsOf n (w.expire now).log = callsOf n w.log := by
  have hnil : ((List.range rpcMaxPending).flatMap fun i =>
      callsOf n (timeoutEvents now (w.req.pendingPool i))) = [] := by
    rw [List.flatMap_eq_nil_iff]
    intro i _
    exact callsOf_timeoutEvents_of_ne (h i)
  rw [RpcWorld.callsOf_expire, hnil, List.append_nil]

theorem Gone.callsOf_takeReply {n : Nat} (h : w.Gone n) (recv : RecvResult) :
    callsOf n (w.takeReply recv).log = callsOf n w.log := by
  cases takeReply_outcome w recv with
  | ignored es _ hlog hes _ => rw [hlog, callsOf_append, hes, List.append_nil]
  | matched f i _ hu _ _ hlog =>
    rw [hlog, callsOf_append, callsOf_append, callsOf_input, callsOf_events, if_neg (h i hu),
      List.append_nil, List.append_nil]

/-- What was received calls the callback of the slot it is a reply to. -/
theorem Wf.callsOf_takeReply (h : w.Wf) (recv : RecvResult) {i : Nat}
    (hu : (w.req.pendingPool i).inUse = true) :
    callsOf (w.req.pendingPool i).born (w.takeReply recv).log =
      callsOf (w.req.pendingPool i).born w.log ++
        (((replyFrame recv).bind fun f =>
          if getSeqno f = (w.req.pendingPool i).seqno then some (getStatus f, dataRef f)
          else none).bind (w.req.pendingPool i).reply).toList := by
  cases takeReply_outcome w recv with
  | ignored es _ hlog hes hno =>
    rw [hlog, callsOf_append, hes]
    cases hf : replyFrame recv with
    | none => rfl
    | some f => rw [Option.bind_some, if_neg (hno f hf i (h.lt hu) hu)]; rfl
  | matched f j hf huj hs _ hlog =>
    rw [hlog, callsOf_append, callsOf_append, callsOf_input, List.append_nil, callsOf_events, hf,
      Option.bind_some]
    by_cases hij : j = i
    · subst hij
      rw [if_pos rfl, if_pos hs]
      rfl
    · have hborn : (w.req.pendingPool j).born ≠ (w.req.pendingPool i).born :=
        fun hb => hij (h.born_inj huj hu hb)
      have hseq : getSeqno f ≠ (w.req.pendingPool i).seqno := by
        intro hfi
        exact hij (h.seqno_inj huj hu (hs.symm.trans hfi))
      rw [if_neg hborn, if_neg hseq]
      rfl

/-- **Callbacks.** A poll calls the callback of the request in a slot as its verdict says. -/
theorem Wf.callsOf_poll (h : w.Wf) (ht : w.req.transport.isSome) (now : Timespec)
    (recv : RecvResult) {i : Nat} (hu : (w.req.pendingPool i).inUse = true) :
    callsOf (w.req.pendingPool i).born (w.poll now recv).1.log =
      callsOf (w.req.pendingPool i).born w.log ++
        (((w.req.pendingPool i).verdict (.poll now recv)).bind
          (w.req.pendingPool i).reply).toList := by
  -- Only slot `i` can report a timeout of this request.
  have hloop : callsOf (w.req.pendingPool i).born (w.expire now).log =
      callsOf (w.req.pendingPool i).born w.log ++
        callsOf (w.req.pendingPool i).born (timeoutEvents now (w.req.pendingPool i)) := by
    rw [callsOf_expire, Lists.flatMap_of_single List.nodup_range (List.mem_range.2 (h.lt hu))]
    intro j _ hji
    exact callsOf_timeoutEvents_of_ne fun hj hborn => hji (h.born_inj hj hu hborn)
  rw [poll_eq ht]
  by_cases hd : due now (w.req.pendingPool i)
  · -- The slot is free when the reply is looked up.
    have hgone : (w.expire now).Gone (w.req.pendingPool i).born := by
      intro j hj hborn
      have hkeep : ¬ due now (w.req.pendingPool j) := by
        intro hdj
        rw [h.expire_of_due hdj] at hj
        cases hj
      rw [h.expire_of_not_due hkeep] at hj hborn
      obtain rfl := h.born_inj hj hu hborn
      exact hkeep hd
    rw [hgone.callsOf_takeReply, hloop, timeoutEvents, if_pos hd, callsOf_events, if_pos rfl,
      RpcPending.verdict, verdict, if_pos hd.2]
    rfl
  · have hi := h.expire_of_not_due hd
    have hreply := (h.expire now).callsOf_takeReply recv (i := i) (by rw [hi]; exact hu)
    rw [hi] at hreply
    rw [hreply, hloop, timeoutEvents, if_neg hd, callsOf_nil, List.append_nil, RpcPending.verdict,
      verdict, if_neg fun hle => hd ⟨hu, hle⟩]

/-! ## What a step does to a request -/

theorem log_poll (w : RpcWorld κ) (now : Timespec) (recv : RecvResult) :
    w.log.length ≤ (w.poll now recv).1.log.length := by
  by_cases ht : w.req.transport.isSome
  · have hexp : w.log.length ≤ (w.expire now).log.length := by rw [expire_eq]; simp
    rw [poll_eq ht]
    refine Nat.le_trans hexp ?_
    cases takeReply_outcome (w.expire now) recv with
    | ignored es _ hlog => simp [hlog]
    | matched f i _ _ _ _ hlog => simp [hlog]
  · exact Nat.le_of_eq (by rw [poll_unconnected ht])

theorem settings_poll (w : RpcWorld κ) (now : Timespec) (recv : RecvResult) :
    (w.poll now recv).1.req.transport = w.req.transport ∧
      (w.poll now recv).1.req.onReply = w.req.onReply := by
  by_cases ht : w.req.transport.isSome
  · have hexp : (w.expire now).req.transport = w.req.transport ∧
        (w.expire now).req.onReply = w.req.onReply := by
      rw [expire_eq]
      exact ⟨rfl, rfl⟩
    rw [poll_eq ht, ← hexp.1, ← hexp.2]
    cases takeReply_outcome (w.expire now) recv with
    | ignored es hreq => rw [hreq]; exact ⟨rfl, rfl⟩
    | matched f i _ _ _ hreq =>
      rw [hreq, RpcReq.pendingPoolFree, RpcReq.transport_setSlot, RpcReq.onReply_setSlot]
      exact ⟨rfl, rfl⟩
  · rw [poll_unconnected ht]
    exact ⟨rfl, rfl⟩

theorem settle_inUse {op : RpcOp} {e : RpcPending κ} (h : (settle op e).inUse = true) :
    settle op e = e := by
  unfold settle at h ⊢
  split_ifs at h ⊢
  rfl

theorem Wf.inUse_poll (h : w.Wf) (now : Timespec) (recv : RecvResult) {i : Nat}
    (hu : ((w.poll now recv).1.req.pendingPool i).inUse = true) :
    (w.poll now recv).1.req.pendingPool i = w.req.pendingPool i := by
  by_cases ht : w.req.transport.isSome
  · rw [h.pendingPool_poll ht] at hu ⊢
    exact settle_inUse hu
  · rw [poll_unconnected ht]

theorem Gone.callsOf_poll {n : Nat} (h : w.Gone n) (hwf : w.Wf) (now : Timespec)
    (recv : RecvResult) : callsOf n (w.poll now recv).1.log = callsOf n w.log := by
  by_cases ht : w.req.transport.isSome
  · have hgone : (w.expire now).Gone n := by
      intro i hi
      rw [hwf.pendingPool_expire] at hi ⊢
      have hkeep := giveUp_inUse hi
      rw [hkeep] at hi ⊢
      exact h i hi
    rw [poll_eq ht, hgone.callsOf_takeReply, h.callsOf_expire]
  · rw [poll_unconnected ht]

/-- Everything a step can be: one that leaves all slots in use as they are, a call that takes a
free slot, or a poll. -/
inductive StepOutcome (w w' : RpcWorld κ) (op : RpcOp) : Prop
  | quiet (es : List (RpcEvent κ)) : (∀ e : RpcPending κ, e.verdict op = none) →
      (∀ i, (w'.req.pendingPool i).inUse = true → w'.req.pendingPool i = w.req.pendingPool i) →
      (∀ i, (w.req.pendingPool i).inUse = true → w'.req.pendingPool i = w.req.pendingPool i) →
      (w.req.transport.isSome → w'.req.transport.isSome) → w'.req.onReply = w.req.onReply →
      w'.log = w.log ++ es → (∀ n, callsOf n es = []) → StepOutcome w w' op
  | sent (i : Nat) (e : RpcPending κ) (msg : Message) (out : SendOut) :
      (∀ e : RpcPending κ, e.verdict op = none) → i < rpcMaxPending →
      (w.req.pendingPool i).inUse = false →
      (∀ j, (w.req.pendingPool j).inUse = true → j < rpcMaxPending →
        (w.req.pendingPool j).seqno ≠ e.seqno) →
      e.born = w.log.length → w'.req.pendingPool = Function.update w.req.pendingPool i e →
      w'.req.transport.isSome → w'.req.onReply = w.req.onReply →
      w'.log = w.log ++ [.sent msg out] → StepOutcome w w' op
  | polled (now : Timespec) (recv : RecvResult) : op = .poll now recv →
      w' = (w.poll now recv).1 → StepOutcome w w' op

theorem step_outcome (w : RpcWorld κ) (op : RpcOp) : StepOutcome w (w.step net op) op := by
  cases op with
  | connect t =>
    refine .quiet [] (fun _ => rfl) ?_ ?_ ?_ ?_ ?_ (by simp) <;>
      cases t <;> simp [step, connect, setReq]
  | call methodName data timeoutMs now stack =>
    have hcall := call_outcome net w methodName data timeoutMs now stack
    simp only [step]
    generalize w.call net methodName data timeoutMs now stack = out at hcall ⊢
    obtain ⟨w', ret⟩ := out
    cases hcall with
    | failed es hsub hkeep htr hcb hlog hes =>
      exact .quiet es (fun _ => rfl) hsub hkeep (by rw [htr]; exact id) hcb hlog hes
    | sent i seqno out hi hfree hseq hpool htr hsome hcb hlog _ =>
      exact .sent i _ _ out (fun _ => rfl) hi hfree hseq rfl hpool (by rw [htr]; exact hsome) hcb
        hlog
  | poll now recv => exact .polled now recv rfl rfl

theorem settle_of_none {op : RpcOp} {e : RpcPending κ} (h : e.verdict op = none) :
    settle op e = e := by
  simp [settle, h]

theorem settings_step (w : RpcWorld κ) (op : RpcOp) :
    (w.req.transport.isSome → (w.step net op).req.transport.isSome) ∧
      (w.step net op).req.onReply = w.req.onReply := by
  cases step_outcome net w op with
  | quiet _ _ _ _ htr hcb => exact ⟨htr, hcb⟩
  | sent _ _ _ _ _ _ _ _ _ _ htr hcb => exact ⟨fun _ => htr, hcb⟩
  | polled now recv _ hw =>
    obtain ⟨htr, hcb⟩ := settings_poll w now recv
    rw [hw, htr, hcb]
    exact ⟨id, rfl⟩

/-- A step ends what it has a verdict on, and leaves every other slot in use as it is. -/
theorem Wf.holds_step (h : w.Wf) (ht : w.req.transport.isSome) {i : Nat}
    (hu : (w.req.pendingPool i).inUse = true) (op : RpcOp) :
    (w.step net op).req.pendingPool i = settle op (w.req.pendingPool i) ∧
      callsOf (w.req.pendingPool i).born (w.step net op).log =
        callsOf (w.req.pendingPool i).born w.log ++
          (((w.req.pendingPool i).verdict op).bind (w.req.pendingPool i).reply).toList := by
  cases step_outcome net w op with
  | quiet es hnone _ hkeep _ _ hlog hes =>
    rw [settle_of_none (hnone _), hnone, hlog, callsOf_append, hes]
    exact ⟨hkeep i hu, rfl⟩
  | sent j e msg out hnone _ hfree _ _ hpool _ _ hlog =>
    have hij : i ≠ j := by
      rintro rfl
      rw [hfree] at hu
      cases hu
    rw [settle_of_none (hnone _), hnone, hlog, callsOf_append, hpool, Function.update_of_ne hij]
    exact ⟨rfl, rfl⟩
  | polled now recv hop hw =>
    rw [hw, hop]
    exact ⟨h.pendingPool_poll ht now recv i, h.callsOf_poll ht now recv hu⟩

theorem Wf.gone_step (h : w.Wf) {n : Nat} (hn : n < w.log.length) (hg : w.Gone n) (op : RpcOp) :
    (w.step net op).Gone n ∧ n < (w.step net op).log.length ∧
      callsOf n (w.step net op).log = callsOf n w.log := by
  cases step_outcome net w op with
  | quiet es _ hsub _ _ _ hlog hes =>
    rw [hlog, callsOf_append, hes, List.append_nil, List.length_append]
    refine ⟨fun i hi => ?_, by omega, rfl⟩
    have hkeep := hsub i hi
    rw [hkeep] at hi ⊢
    exact hg i hi
  | sent j e msg out _ _ hfree _ hborn hpool _ _ hlog =>
    rw [hlog, callsOf_append, callsOf_sent, List.append_nil, List.length_append]
    refine ⟨fun i hi => ?_, by omega, rfl⟩
    rw [hpool] at hi ⊢
    by_cases hij : i = j
    · rw [hij, Function.update_self, hborn]
      exact Nat.ne_of_gt hn
    · rw [Function.update_of_ne hij] at hi ⊢
      exact hg i hi
  | polled now recv _ hw =>
    rw [hw]
    refine ⟨fun i hi => ?_, Nat.lt_of_lt_of_le hn (log_poll ..), hg.callsOf_poll h now recv⟩
    have hkeep := h.inUse_poll now recv hi
    rw [hkeep] at hi ⊢
    exact hg i hi

theorem Wf.step (h : w.Wf) (op : RpcOp) : (w.step net op).Wf := by
  cases step_outcome net w op with
  | quiet es _ hsub _ _ _ hlog _ => exact h.of_subset (by rw [hlog]; simp) hsub
  | sent j e msg out _ hj _ hseq hborn hpool _ _ hlog =>
    exact h.of_update hj hpool hborn (by rw [hlog]; simp) fun i hi => hseq i hi (h.lt hi)
  | polled now recv _ hw =>
    rw [hw]
    exact h.of_subset (log_poll ..) fun i => h.inUse_poll now recv

/-- No callback of a request is called before the request is sent. -/
theorem Wf.callsOf_step (h : w.Wf) {n : Nat} (hn : w.log.length ≤ n) (op : RpcOp) :
    callsOf n (w.step net op).log = callsOf n w.log := by
  cases step_outcome net w op with
  | quiet es _ _ _ _ _ hlog hes => rw [hlog, callsOf_append, hes, List.append_nil]
  | sent j e msg out _ _ _ _ _ _ _ _ hlog =>
    rw [hlog, callsOf_append, callsOf_sent, List.append_nil]
  | polled now recv _ hw =>
    have hgone : w.Gone n := by
      intro i hi
      exact Nat.ne_of_lt (Nat.lt_of_lt_of_le (h.born_lt hi) hn)
    rw [hw]
    exact hgone.callsOf_poll h now recv

theorem log_step (w : RpcWorld κ) (op : RpcOp) : w.log.length ≤ (w.step net op).log.length := by
  cases step_outcome net w op with
  | quiet es _ _ _ _ _ hlog _ => rw [hlog]; simp
  | sent j e msg out _ _ _ _ _ _ _ _ hlog => rw [hlog]; simp
  | polled now recv _ hw => rw [hw]; exact log_poll ..

/-! ## Runs -/

/-- What is known of every state of a run. -/
structure Sound (onReply : Option κ) (w : RpcWorld κ) : Prop where
  wf : w.Wf
  onReply : w.req.onReply = onReply
  unborn : ∀ n, w.log.length ≤ n → callsOf n w.log = []

theorem sound_run (onReply : Option κ) (ops : List RpcOp) :
    Sound onReply (Runs.run (step net) ⟨.create onReply, []⟩ ops) := by
  refine Runs.run_invariant (fun w op hw _ => ?_) ?_ Runs.eachStep_true
  · refine ⟨hw.wf.step net op, (settings_step net w op).2.trans hw.onReply, fun n hn => ?_⟩
    have hle := Nat.le_trans (log_step net w op) hn
    rw [hw.wf.callsOf_step net hle, hw.unborn n hle]
  · exact ⟨wf_create onReply, rfl, fun _ _ => rfl⟩

theorem connected_run (h : w.Wf) (ht : w.req.transport.isSome) (ops : List RpcOp) :
    (Runs.run (step net) w ops).Wf ∧ (Runs.run (step net) w ops).req.transport.isSome := by
  induction ops generalizing w with
  | nil => exact ⟨h, ht⟩
  | cons op ops ih => exact ih (h.step net op) ((settings_step net w op).1 ht)

theorem gone_run (h : w.Wf) {n : Nat} (hn : n < w.log.length) (hg : w.Gone n) (ops : List RpcOp) :
    (Runs.run (step net) w ops).Gone n ∧
      callsOf n (Runs.run (step net) w ops).log = callsOf n w.log := by
  induction ops generalizing w with
  | nil => exact ⟨hg, rfl⟩
  | cons op ops ih =>
    obtain ⟨hg', hn', hcalls⟩ := h.gone_step net hn hg op
    rw [Runs.run_cons, ← hcalls]
    exact ih (h.step net op) hn' hg'

/-- Slot `i` is in use by request `n`. -/
def Holds (w : RpcWorld κ) (i n : Nat) : Prop :=
  (w.req.pendingPool i).inUse = true ∧ (w.req.pendingPool i).born = n

theorem Wf.gone_of_verdict (h : w.Wf) (ht : w.req.transport.isSome) {i : Nat}
    (hu : (w.req.pendingPool i).inUse = true) (op : RpcOp)
    (hv : ((w.req.pendingPool i).verdict op).isSome) :
    (w.step net op).Gone (w.req.pendingPool i).born := by
  cases step_outcome net w op with
  | quiet es hnone => rw [hnone] at hv; cases hv
  | sent j e msg out hnone => rw [hnone] at hv; cases hv
  | polled now recv hop hw =>
    rw [hw]
    intro j hj hborn
    have hkeep := h.inUse_poll now recv hj
    rw [hkeep] at hborn
    obtain rfl := h.born_inj (hkeep ▸ hj) hu hborn
    rw [h.pendingPool_poll ht, settle, if_pos ⟨hu, hop ▸ hv⟩] at hj
    cases hj

/-- The life of a request from a state in which a slot holds it: the first verdict ends it. -/
theorem run_verdict (h : w.Wf) (ht : w.req.transport.isSome) {i : Nat} {e : RpcPending κ}
    (he : w.req.pendingPool i = e) (hu : e.inUse = true) (ops : List RpcOp) :
    callsOf e.born (Runs.run (step net) w ops).log =
        callsOf e.born w.log ++ ((ops.findSome? e.verdict).bind e.reply).toList ∧
      ((Runs.run (step net) w ops).Holds i e.born ↔ ops.findSome? e.verdict = none) := by
  induction ops generalizing w with
  | nil => simp [Holds, he, hu]
  | cons op ops ih =>
    obtain ⟨hslot, hcalls⟩ := h.holds_step net ht (by rw [he]; exact hu) op
    rw [he] at hslot hcalls
    rw [Runs.run_cons, List.findSome?_cons]
    cases hv : e.verdict op with
    | none =>
      rw [hv, Option.bind_none, Option.toList_none, List.append_nil] at hcalls
      rw [settle_of_none hv] at hslot
      rw [← hcalls]
      exact ih (h.step net op) ((settings_step net w op).1 ht) hslot
    | some out =>
      have hgone := h.gone_of_verdict net ht (i := i) (by rw [he]; exact hu) op
        (by rw [he, hv]; rfl)
      rw [he] at hgone
      have hlt : e.born < (w.step net op).log.length := by
        have := h.born_lt (by rw [he]; exact hu)
        rw [he] at this
        exact Nat.lt_of_lt_of_le this (log_step net w op)
      obtain ⟨hg, hc⟩ := gone_run net (h.step net op) hlt hgone ops
      rw [hc, hcalls, hv]
      refine ⟨rfl, ?_⟩
      simp only [reduceCtorEq, iff_false]
      exact fun hh => hg i hh.1 hh.2

end RpcWorld

/-- **Every request ends once, by its deadline or by its reply.** In any run of a requester, take
a call that returned 0: it sent a request with some sequence number and put it into a free slot.
However the run goes on, the callback has been called as the first verdict on the request says, and
not otherwise; the slot holds the request until that verdict and no longer; and no step touches a
slot in use on whose request it has no verdict. -/
theorem callback_of_first_verdict (onReply : Option κ) (pre : List RpcOp)
    (methodName : Option Bytes) (data : Ref) (timeoutMs : UInt64) (now : Timespec) (stack : Mem) :
    let w := Runs.run (RpcWorld.step net) ⟨.create onReply, []⟩ pre
    let out := w.call net methodName data timeoutMs now stack
    out.2 = 0 → ∃ i seqno sent, i < rpcMaxPending ∧ (w.req.pendingPool i).inUse = false ∧
      out.1.log =
        w.log ++ [.sent (RpcWorld.requestMsg (methodName.getD []) data seqno) sent] ∧
      sent.ret = true ∧ ∀ post,
        let w' := Runs.run (RpcWorld.step net) out.1 post
        let deadline :=
          now.toNanos + (if timeoutMs = 0 then 5000 else timeoutMs.toNat) * 1000000
        let first := post.findSome? (verdict seqno deadline)
        callsOf w.log.length w'.log = (first.bind fun o =>
          onReply.map fun k => ⟨k, seqno, o.1, o.2⟩).toList ∧
        (w'.Holds i w.log.length ↔ first = none) ∧
        ∀ op j, (w'.req.pendingPool j).inUse = true → (w'.req.pendingPool j).verdict op = none →
          (w'.step net op).req.pendingPool j = w'.req.pendingPool j := by
  intro w out hret
  have hw : RpcWorld.Sound onReply w := RpcWorld.sound_run net onReply pre
  have hcall := RpcWorld.call_outcome net w methodName data timeoutMs now stack
  have hstep : out.1 = w.step net (.call methodName data timeoutMs now stack) := rfl
  have hout : out.1.Wf := hstep ▸ hw.wf.step net _
  change RpcWorld.CallOutcome w out.1 _ _ out.2 at hcall
  rw [hret] at hcall
  cases hcall with
  | sent i seqno sent hi hfree _ hpool htr hsome hcb hlog hok =>
    refine ⟨i, seqno, sent, hi, hfree, hlog, hok, fun post => ?_⟩
    have hslot : out.1.req.pendingPool i = w.entry seqno timeoutMs now := by
      rw [hpool, Function.update_self]
    -- What a step says to the slot is what it says to this number and deadline.
    have hverdict : (w.entry seqno timeoutMs now).verdict = verdict seqno
        (now.toNanos + (if timeoutMs = 0 then 5000 else timeoutMs.toNat) * 1000000) := by
      funext op
      simp only [RpcPending.verdict, RpcWorld.entry, Timespec.toNanos_expireTime]
      congr 3
      split_ifs <;> rfl
    have ht : out.1.req.transport.isSome := by rw [htr]; exact hsome
    obtain ⟨hcalls, hholds⟩ := RpcWorld.run_verdict net hout ht hslot rfl post
    rw [hverdict] at hcalls hholds
    have hnone : callsOf w.log.length out.1.log = [] := by
      rw [hlog, callsOf_append, hw.unborn _ (Nat.le_refl _), callsOf_sent]
      rfl
    have hreply : (w.entry seqno timeoutMs now).reply =
        fun o => onReply.map fun k => ⟨k, seqno, o.1, o.2⟩ := by
      funext o
      rw [RpcPending.reply, RpcWorld.entry, hw.onReply]
    refine ⟨?_, hholds, fun op j hu hv => ?_⟩
    · rw [← hreply]
      exact hcalls.trans (by rw [RpcWorld.entry, hnone, List.nil_append])
    · obtain ⟨hwf, ht'⟩ := RpcWorld.connected_run net hout ht post
      rw [(hwf.holds_step net ht' hu op).1, RpcWorld.settle_of_none hv]

/-- A call on a requester that was just connected: method `a`, no data, default timeout. -/
def firstCall : RpcWorld Unit × Int :=
  (Runs.run (RpcWorld.step acceptAll) ⟨.create (some ()), []⟩ [.connect (some ⟨3, 100⟩)]).call
    acceptAll (some [0x61]) Ref.null 0 (.ofSec 7) Mem.zero

theorem firstCall_ends_once : firstCall.2 = 0 ∧ ∃ i seqno, ∀ post,
    callsOf 0 (Runs.run (RpcWorld.step acceptAll) firstCall.1 post).log =
        ((post.findSome? (verdict seqno (12 * 1000000000))).map fun o =>
          ⟨(), seqno, o.1, o.2⟩).toList ∧
      ((Runs.run (RpcWorld.step acceptAll) firstCall.1 post).Holds i 0 ↔
        post.findSome? (verdict seqno (12 * 1000000000)) = none) := by
  have hret : firstCall.2 = 0 := by decide +kernel
  obtain ⟨i, seqno, sent, -, -, -, -, h⟩ := callback_of_first_verdict acceptAll (some ())
    [.connect (some ⟨3, 100⟩)] (some [0x61]) Ref.null 0 (.ofSec 7) Mem.zero hret
  refine ⟨hret, i, seqno, fun post => ?_⟩
  obtain ⟨hcalls, hholds, -⟩ := h post
  refine ⟨hcalls.trans ?_, hholds⟩
  change (Option.bind (post.findSome? (verdict seqno (12 * 1000000000))) _).toList = _
  cases post.findSome? (verdict seqno (12 * 1000000000)) <;> rfl

end Ssn
