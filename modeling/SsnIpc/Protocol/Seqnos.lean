import SsnIpc.Protocol.Deadlines
import Mathlib.Combinatorics.Pigeonhole

/-!
# Sequence numbers of the RPC requester

**Theorem (`seqnos_distinct`).** In every state of a requester the requests in flight have
different sequence numbers, and a call that has a slot finds a number that none of them has.

The slot of the call is in use already while the search runs, with the number of the request it
held last. So up to 256 numbers can be taken, and the search looks at 257 candidates in a row. They
differ although the counter wraps around, since 257 is less than 65536, and each candidate that is
taken leads to a slot of its own (`takeSeqno_isSome`). This holds in every state; that the numbers
differ is kept by every step.

Replies and timeouts are passed to the user's callback, which may call the requester again, poll
included. As for the client, the state has a stack of the callbacks that are running
(`RpcMachine`). When callbacks return at once, a poll does what `RpcWorld.poll` does
(`settles_poll`).
-/

namespace Ssn

open Runs

variable {κ : Type*} (net : Nat → Nat → SendStep)

/-! ## The search -/

namespace RpcReq

theorem pendingPoolFind_nextSeqno (r : RpcReq κ) (next seqno : UInt16) :
    RpcReq.pendingPoolFind { r with nextSeqno := next } seqno = r.pendingPoolFind seqno := rfl

/-- A search that gives up has met a request in flight at every turn. -/
theorem seekSeqno_none {r : RpcReq κ} {n : Nat} {seqno : UInt16}
    (h : (r.seekSeqno n seqno).1 = none) (hnext : r.nextSeqno = seqno + 1) :
    ∀ k < n, (r.pendingPoolFind (seqno + UInt16.ofNat k)).isSome := by
  induction n generalizing r seqno with
  | zero => exact fun k hk => absurd hk (Nat.not_lt_zero k)
  | succ n ih =>
    unfold seekSeqno at h
    have hfind : ¬ (r.pendingPoolFind seqno).isNone := by
      intro hf
      rw [if_pos hf] at h
      cases h
    have hhere : (r.pendingPoolFind seqno).isSome := by
      simpa [Option.isSome_iff_ne_none, Option.isNone_iff_eq_none] using hfind
    rw [if_neg hfind] at h
    intro k hk
    cases k with
    | zero => simpa using hhere
    | succ k =>
      have hn : n ≠ 0 := by omega
      simp only [if_neg hn] at h
      have hrest := ih h (by rw [hnext]) k (by omega)
      rw [pendingPoolFind_nextSeqno, hnext] at hrest
      have hadd : seqno + 1 + UInt16.ofNat k = seqno + UInt16.ofNat (k + 1) := by
        rw [UInt16.ofNat_add, UInt16.add_assoc, UInt16.add_comm 1]
        rfl
      rwa [hadd] at hrest

theorem add_ofNat_inj {seqno : UInt16} {a b : Nat} (ha : a < 2 ^ 16) (hb : b < 2 ^ 16)
    (h : seqno + UInt16.ofNat a = seqno + UInt16.ofNat b) : a = b := by
  have hofNat := (UInt16.add_right_inj seqno).1 h
  have htoNat := congrArg UInt16.toNat hofNat
  rwa [UInt16.toNat_ofNat_of_lt' ha, UInt16.toNat_ofNat_of_lt' hb] at htoNat

/-- **The search never gives up.** There is one candidate more than there are slots. -/
theorem takeSeqno_isSome (r : RpcReq κ) : ∃ seqno, r.takeSeqno.1 = some seqno := by
  rw [← Option.ne_none_iff_exists']
  intro hnone
  have htaken := seekSeqno_none hnone rfl
  choose! slot hslot using fun k hk => Option.isSome_iff_exists.1 (htaken k hk)
  have hmaps : ∀ k ∈ Finset.range (rpcMaxPending + 1), slot k ∈ Finset.range rpcMaxPending := by
    intro k hk
    exact Finset.mem_range.2 (pendingPoolFind_some (hslot k (Finset.mem_range.1 hk))).1
  obtain ⟨a, ha, b, hb, hne, hslots⟩ :=
    Finset.exists_ne_map_eq_of_card_lt_of_maps_to (by simp) hmaps
  have hlt : rpcMaxPending + 1 < 2 ^ 16 := by decide
  rw [Finset.mem_range] at ha hb
  -- Two candidates in one slot are both the number that the slot holds.
  have hsa := (pendingPoolFind_some (hslot a ha)).2.2
  have hsb := (pendingPoolFind_some (hslot b hb)).2.2
  rw [hslots] at hsa
  exact hne (add_ofNat_inj (by omega) (by omega) (hsa.symm.trans hsb))

end RpcReq

/-! ## Callbacks that call the requester -/

/-- What a poll has left to do when one of its callbacks returns. -/
inductive RpcResume
  /-- The deadline of slot `i` has come: the slot is freed, then come the slots `rest`, then what
  was received. -/
  | expiring (i : Nat) (rest : List Nat) (now : Timespec) (recv : RecvResult)
  /-- The reply to slot `i` was received: the slot is freed. -/
  | replying (i : Nat)

/-- A requester and the callbacks that are running, innermost first. -/
structure RpcMachine (κ : Type*) where
  world : RpcWorld κ
  stack : List RpcResume

/-- A step of the user's code: a call of the requester's interface, or the return from the
innermost callback. -/
inductive RpcMove
  | op (op : RpcOp)
  | ret

namespace RpcMachine

/-- `ssn_rpc_handle_reply`, up to the callback. -/
def handleReply (m : RpcMachine κ) (f : Frame) : RpcMachine κ :=
  if getMsgType f ≠ MsgType.rpcRequest then m
  else
    match m.world.req.pendingPoolFind (getSeqno f) with
    | none => m
    | some i =>
      let e := m.world.req.pendingPool i
      if e.callback.isSome then
        ⟨m.world.callback e (getStatus f) (dataRef f), .replying i :: m.stack⟩
      else { m with world := m.world.setReq (m.world.req.pendingPoolFree i) }

/-- What `ssn_rpc_poll` does with what was received, up to the callback. -/
def receive (m : RpcMachine κ) (recv : RecvResult) : RpcMachine κ :=
  match recvFrame recv with
  | .error _ => m
  | .ok f => { m with world := m.world.emit (.input f) }.handleReply f

/-- The loop of `ssn_rpc_poll` over the slots that are left, up to the next callback. -/
def expire (now : Timespec) (recv : RecvResult) : List Nat → RpcMachine κ → RpcMachine κ
  | [], m => m.receive recv
  | i :: rest, m =>
    let e := m.world.req.pendingPool i
    if e.inUse ∧ now.expired e.expireTime then
      if e.callback.isSome then
        ⟨m.world.callback e ecodeTimeout Ref.null, .expiring i rest now recv :: m.stack⟩
      else expire now recv rest { m with world := m.world.setReq (m.world.req.pendingPoolFree i) }
    else expire now recv rest m

/-- `ssn_rpc_poll` on a requester, up to the first callback. -/
def poll (m : RpcMachine κ) (now : Timespec) (recv : RecvResult) : RpcMachine κ :=
  if m.world.req.transport.isNone then m else expire now recv (List.range rpcMaxPending) m

def ret (m : RpcMachine κ) : RpcMachine κ :=
  match m.stack with
  | [] => m
  | .expiring i rest now recv :: stack =>
    expire now recv rest ⟨m.world.setReq (m.world.req.pendingPoolFree i), stack⟩
  | .replying i :: stack => ⟨m.world.setReq (m.world.req.pendingPoolFree i), stack⟩

def step (m : RpcMachine κ) : RpcMove → RpcMachine κ
  | .op (.poll now recv) => m.poll now recv
  | .op op => { m with world := m.world.step net op }
  | .ret => m.ret

end RpcMachine

/-! ## Callbacks that return at once -/

/-- `m` comes to `w` when the callbacks above `stack` return one after the other. -/
inductive RpcSettles (stack : List RpcResume) (w : RpcWorld κ) : RpcMachine κ → Prop
  | done : RpcSettles stack w ⟨w, stack⟩
  | ret (v : RpcWorld κ) (r : RpcResume) :
      RpcSettles stack w (RpcMachine.ret ⟨v, r :: stack⟩) → RpcSettles stack w ⟨v, r :: stack⟩

namespace RpcMachine

theorem settles_handleReply (v : RpcWorld κ) (stack : List RpcResume) (f : Frame) :
    RpcSettles stack (v.handleReply f).1 (handleReply ⟨v, stack⟩ f) := by
  unfold handleReply RpcWorld.handleReply
  split_ifs with hty
  · exact .done
  · cases hfind : v.req.pendingPoolFind (getSeqno f) with
    | none => exact .done
    | some i =>
      cases hcb : (v.req.pendingPool i).callback with
      | none =>
        simp only [RpcWorld.callback, hcb]
        exact .done
      | some k =>
        simp only [hcb, Option.isSome_some, if_true]
        exact .ret _ _ .done

theorem settles_receive (v : RpcWorld κ) (stack : List RpcResume) (recv : RecvResult) :
    RpcSettles stack (v.takeReply recv) (receive ⟨v, stack⟩ recv) := by
  unfold receive RpcWorld.takeReply
  cases recvFrame recv with
  | error _ => exact .done
  | ok f =>
    have h := settles_handleReply (v.emit (.input f)) stack f
    by_cases hty : getMsgType f = MsgType.rpcRequest
    · simpa [hty] using h
    · simpa [hty, RpcWorld.handleReply] using h

theorem settles_expire (v : RpcWorld κ) (stack : List RpcResume) (now : Timespec)
    (recv : RecvResult) (rest : List Nat) :
    RpcSettles stack ((rest.foldl (RpcWorld.expireOne now) v).takeReply recv)
      (expire now recv rest ⟨v, stack⟩) := by
  induction rest generalizing v with
  | nil => exact settles_receive v stack recv
  | cons i rest ih =>
    rw [List.foldl_cons]
    unfold expire RpcWorld.expireOne
    dsimp only
    split_ifs with hdue hcb
    · exact .ret _ _ (ih _)
    · rw [Option.not_isSome_iff_eq_none] at hcb
      simp only [RpcWorld.callback, hcb]
      exact ih _
    · exact ih v

/-- When callbacks return at once, a poll is the poll without nested calls. -/
theorem settles_poll (v : RpcWorld κ) (stack : List RpcResume) (now : Timespec)
    (recv : RecvResult) : RpcSettles stack (v.poll now recv).1 (poll ⟨v, stack⟩ now recv) := by
  unfold poll
  by_cases ht : v.req.transport.isNone
  · rw [if_pos ht, RpcWorld.poll, if_pos ht]
    exact .done
  · have hsome : v.req.transport.isSome := by simpa [Option.isSome_iff_ne_none] using ht
    rw [if_neg ht, RpcWorld.poll_eq hsome]
    exact settles_expire v stack now recv _

end RpcMachine

/-! ## Different sequence numbers -/

namespace RpcWorld

variable {w : RpcWorld κ}

theorem Wf.emit (h : w.Wf) (e : RpcEvent κ) : (w.emit e).Wf :=
  h.of_subset (by simp [RpcWorld.emit]) fun _ _ => rfl

theorem Wf.callback (h : w.Wf) (e : RpcPending κ) (status : UInt32) (data : Ref) :
    (w.callback e status data).Wf := by
  rw [callback_eq]
  exact h.of_subset (by simp) fun _ _ => rfl

theorem Wf.free (h : w.Wf) (i : Nat) : (w.setReq (w.req.pendingPoolFree i)).Wf := by
  refine h.of_subset le_rfl fun j hj => ?_
  simp only [setReq, RpcReq.pendingPoolFree, RpcReq.pendingPool_setSlot] at hj ⊢
  refine Function.update_of_ne ?_ ..
  rintro rfl
  simp at hj

end RpcWorld

namespace RpcMachine

variable {m : RpcMachine κ}

theorem wf_handleReply (h : m.world.Wf) (f : Frame) : (m.handleReply f).world.Wf := by
  unfold handleReply
  split_ifs
  · exact h
  · cases m.world.req.pendingPoolFind (getSeqno f) with
    | none => exact h
    | some i =>
      dsimp only
      split_ifs
      · exact h.callback ..
      · exact h.free i

theorem wf_receive (h : m.world.Wf) (recv : RecvResult) : (m.receive recv).world.Wf := by
  unfold receive
  cases recvFrame recv with
  | error _ => exact h
  | ok f => exact wf_handleReply (h.emit _) f

theorem wf_expire (h : m.world.Wf) (now : Timespec) (recv : RecvResult) (rest : List Nat) :
    (expire now recv rest m).world.Wf := by
  induction rest generalizing m with
  | nil => exact wf_receive h recv
  | cons i rest ih =>
    unfold expire
    dsimp only
    split_ifs
    · exact h.callback ..
    · exact ih (h.free i)
    · exact ih h

theorem wf_ret (h : m.world.Wf) : m.ret.world.Wf := by
  unfold ret
  rcases m.stack with _ | ⟨⟨i, rest, now, recv⟩ | ⟨i⟩, stack⟩
  · exact h
  · exact wf_expire (m := ⟨_, stack⟩) (h.free i) now recv rest
  · exact h.free i

theorem wf_step (h : m.world.Wf) (e : RpcMove) : (m.step net e).world.Wf := by
  cases e with
  | ret => exact wf_ret h
  | op op =>
    cases op with
    | poll now recv =>
      unfold step poll
      split_ifs
      · exact h
      · exact wf_expire h now recv _
    | connect t => exact RpcWorld.Wf.step net h (.connect t)
    | call methodName data timeoutMs now stack =>
      exact RpcWorld.Wf.step net h (.call methodName data timeoutMs now stack)

end RpcMachine

theorem RpcReq.pendingPoolAlloc_isSome {r : RpcReq κ}
    (h : ∃ i < rpcMaxPending, (r.pendingPool i).inUse = false) :
    ∃ i r', r.pendingPoolAlloc = some (i, r') := by
  obtain ⟨i, hi, hfree⟩ := h
  have hfind : ((List.range rpcMaxPending).find? fun i => !(r.pendingPool i).inUse).isSome := by
    rw [List.find?_isSome]
    exact ⟨i, List.mem_range.2 hi, by simp [hfree]⟩
  obtain ⟨j, hj⟩ := Option.isSome_iff_exists.1 hfind
  exact ⟨j, _, by rw [pendingPoolAlloc, hj]; rfl⟩

/-- **Sequence numbers.** After any calls and polls, also from within callbacks, the requests in
flight have different sequence numbers; and if a slot is free, the next call gets one and a
sequence number that no request in flight has. -/
theorem seqnos_distinct (onReply : Option κ) (moves : List RpcMove) :
    Always (RpcMachine.step net)
      (fun m =>
        (∀ i j, (m.world.req.pendingPool i).inUse = true →
          (m.world.req.pendingPool j).inUse = true →
          (m.world.req.pendingPool i).seqno = (m.world.req.pendingPool j).seqno → i = j) ∧
        ((∃ i < rpcMaxPending, (m.world.req.pendingPool i).inUse = false) →
          ∃ i r seqno, m.world.req.pendingPoolAlloc = some (i, r) ∧
            r.takeSeqno.1 = some seqno ∧ r.pendingPoolFind seqno = none))
      ⟨⟨.create onReply, []⟩, []⟩ moves := by
  refine always_of_invariant (fun m e (h : m.world.Wf) _ => RpcMachine.wf_step net h e)
    (fun m h => ?_) (RpcWorld.wf_create onReply) eachStep_true
  refine ⟨fun i j => h.seqno_inj, fun hfree => ?_⟩
  obtain ⟨i, r, hr⟩ := RpcReq.pendingPoolAlloc_isSome hfree
  obtain ⟨seqno, hseqno⟩ := r.takeSeqno_isSome
  exact ⟨i, r, seqno, hr, hseqno, r.takeSeqno_spec.2 seqno hseqno⟩

end Ssn
