import SsnIpc.Client.Reentrant

/-!
# What the slots of the pool hold

The pool seen as slots that hold requests, each known by its callback (`SsnClient.Holds`), without
regard to sequence numbers. A request takes a free slot or none (`ClientWorld.Takes`), the
collecting loop empties those that it reports (`SsnClient.Holds.of_collect`,
`SsnClient.mem_owedBy_collect`), and the rest of the client's interface leaves them alone
(`ClientWorld.Still`).
-/

namespace Ssn

open ByteMem

variable {κ : Type*} {net : Nat → Nat → SendStep}

/-! ## What slots hold -/

namespace SsnClient

variable {c c' : SsnClient κ} {i j : Nat} {k k' : κ}

/-- Slot `i` is in use, for a request with the callback `k`. -/
def Holds (c : SsnClient κ) (i : Nat) (k : κ) : Prop :=
  c.inUse i = true ∧ ClientWorld.failedCall (c.pendingPool i) = some (k, none)

theorem failedCall_eq_some {p : Pending κ} {r : κ × Option Frame}
    (h : ClientWorld.failedCall p = some r) : p.callback = some r.1 ∧ r.2 = none := by
  unfold ClientWorld.failedCall at h
  split at h
  · cases h
  · obtain ⟨k, hk, rfl⟩ := Option.map_eq_some_iff.1 h
    exact ⟨hk, rfl⟩

theorem Holds.callback (h : c.Holds i k) : (c.pendingPool i).callback = some k :=
  (failedCall_eq_some h.2).1

/-- The slots of two clients hold the same. -/
def SameSlots (c c' : SsnClient κ) : Prop := ∀ i k, c'.Holds i k ↔ c.Holds i k

theorem sameSlots_of_pool (h : c'.pool = c.pool) : SameSlots c c' := by
  intro i k
  rw [Holds, Holds, inUse_of_pool h, show c'.pendingPool = c.pendingPool from congrArg Prod.fst h]

theorem pendingPool_freePendingIndex (i : Nat) :
    (c.freePendingIndex i).pendingPool = c.pendingPool := by
  unfold freePendingIndex
  split_ifs <;> rfl

theorem holds_freePendingIndex (hi : i < maxPending) :
    (c.freePendingIndex i).Holds j k ↔ j ≠ i ∧ c.Holds j k := by
  rw [Holds, Holds, pendingPool_freePendingIndex, inUse_freePendingIndex hi]
  simp [and_assoc]

theorem Holds.of_freePendingIndex (h : (c.freePendingIndex i).Holds j k) : c.Holds j k := by
  by_cases hi : i < maxPending
  · exact ((holds_freePendingIndex hi).1 h).2
  · rwa [freePendingIndex, if_pos (Nat.le_of_not_lt hi)] at h

theorem lt_of_getPendingSnapshot {s : UInt16} {r : Nat × Pending κ}
    (hs : c.getPendingSnapshot s = some r) : r.1 < maxPending := by
  rw [getPendingSnapshot] at hs
  split_ifs at hs with hout hin
  cases hs
  exact Nat.lt_of_not_le (not_or.1 hout).2

theorem pool_of_getPendingSnapshot {s : UInt16} {r : Nat × Pending κ}
    (hs : c.getPendingSnapshot s = some r) : c.pendingPool r.1 = r.2 := by
  rw [getPendingSnapshot] at hs
  split_ifs at hs
  cases hs
  rfl

theorem holds_of_replyCall {f : Frame} {r : Nat × Pending κ} {call : κ × Option Frame}
    (hs : c.getPendingSnapshot (getSeqno f) = some r)
    (hc : ClientWorld.replyCall f r.2 = some call) : c.Holds r.1 call.1 := by
  refine ⟨inUse_of_getPendingSnapshot hs, ?_⟩
  unfold ClientWorld.replyCall at hc
  split_ifs at hc with hft
  obtain ⟨k, hk, rfl⟩ := Option.map_eq_some_iff.1 hc
  rw [pool_of_getPendingSnapshot hs, ClientWorld.failedCall_of_replyFType hft, hk]
  rfl

theorem sameSlots_timerSweep : SameSlots c c.timerSweep := by
  intro i k
  have hp : ClientWorld.failedCall (c.timerSweep.pendingPool i) =
      ClientWorld.failedCall (c.pendingPool i) := by
    simp only [timerSweep]
    split_ifs <;> rfl
  rw [Holds, Holds, hp]
  rfl

theorem holds_register {ftype : FType} {timeoutMs : Nat} (hft : ftype ≠ .unset)
    (ha : c.allocPendingIndex = some (i, c')) :
    (c'.register i ftype k timeoutMs).Holds j k' ↔ (j = i ∧ k' = k) ∨ (j ≠ i ∧ c.Holds j k') := by
  rw [Holds, Holds, inUse_register ha, (register_pool ha).1]
  by_cases e : j = i
  · subst e
    cases ftype with
    | unset => exact absurd rfl hft
    | rpc => simp [ClientWorld.failedCall, eq_comm (a := k)]
    | res => simp [ClientWorld.failedCall, eq_comm (a := k)]
  · simp [e]

/-! ## Collecting -/

/-- Slot `i` is one of those that are reported. -/
def reported (c : SsnClient κ) (onlyTimeout : Bool) (i : Nat) : Bool :=
  c.inUse i && (!onlyTimeout || decide ((c.pendingPool i).timeoutMs = 0))

theorem collectOne_eq (onlyTimeout : Bool) (c : SsnClient κ) (items : List (Pending κ)) (i : Nat) :
    collectOne onlyTimeout (c, items) i =
      if c.reported onlyTimeout i then (c.freePendingIndex i, items ++ [c.pendingPool i])
      else (c, items) := by
  simp [collectOne, reported]

theorem reported_freePendingIndex {onlyTimeout : Bool} (hi : i < maxPending) (hj : j ≠ i) :
    (c.freePendingIndex i).reported onlyTimeout j = c.reported onlyTimeout j := by
  simp [reported, pendingPool_freePendingIndex, inUse_freePendingIndex hi, hj]

/-- The collecting loop reports and frees the slots it comes to, as they were before the loop. -/
theorem foldl_collectOne (onlyTimeout : Bool) (is : List Nat) (hnd : is.Nodup)
    (hlt : ∀ i ∈ is, i < maxPending) (c : SsnClient κ) (items : List (Pending κ)) :
    let out := is.foldl (collectOne onlyTimeout) (c, items)
    out.2 = items ++ (is.filter (c.reported onlyTimeout)).map c.pendingPool ∧
      out.1.pendingPool = c.pendingPool ∧
      ∀ j, out.1.inUse j = (c.inUse j && !(decide (j ∈ is) && c.reported onlyTimeout j)) := by
  induction is generalizing c items with
  | nil => simp
  | cons i is ih =>
    obtain ⟨hnot, hnd⟩ := List.nodup_cons.1 hnd
    have hi : i < maxPending := hlt i List.mem_cons_self
    have hlt' : ∀ j ∈ is, j < maxPending := fun j hj => hlt j (List.mem_cons_of_mem i hj)
    rw [List.foldl_cons, collectOne_eq]
    split_ifs with hr
    · -- The slot just freed does not come up again.
      obtain ⟨hitems, hpool, huse⟩ :=
        ih hnd hlt' (c.freePendingIndex i) (items ++ [c.pendingPool i])
      have hfilter : is.filter ((c.freePendingIndex i).reported onlyTimeout) =
          is.filter (c.reported onlyTimeout) :=
        List.filter_congr fun j hj =>
          reported_freePendingIndex hi fun e => hnot (e ▸ hj)
      rw [hfilter, pendingPool_freePendingIndex] at hitems
      refine ⟨?_, hpool.trans (pendingPool_freePendingIndex i), fun j => ?_⟩
      · rw [hitems, List.filter_cons, if_pos hr, List.map_cons, List.append_assoc]
        rfl
      · rw [huse, inUse_freePendingIndex hi]
        by_cases e : j = i
        · subst e
          simp [hr]
        · simp [e, reported_freePendingIndex hi e]
    · obtain ⟨hitems, hpool, huse⟩ := ih hnd hlt' c items
      refine ⟨?_, hpool, fun j => ?_⟩
      · rw [hitems, List.filter_cons, if_neg hr]
      · rw [huse]
        by_cases e : j = i
        · subst e
          simp [hr]
        · simp [e]

section Collect

variable {onlyTimeout : Bool}

theorem collect_spec (c : SsnClient κ) (onlyTimeout : Bool) :
    (c.collect onlyTimeout).2 =
        ((List.range maxPending).filter (c.reported onlyTimeout)).map c.pendingPool ∧
      (c.collect onlyTimeout).1.pendingPool = c.pendingPool ∧
      ∀ j, (c.collect onlyTimeout).1.inUse j =
        (c.inUse j && !(decide (j < maxPending) && c.reported onlyTimeout j)) := by
  have h := foldl_collectOne onlyTimeout (List.range maxPending) List.nodup_range
    (fun i hi => List.mem_range.1 hi) c []
  simp only [List.nil_append, List.mem_range] at h
  simp only [collect]
  exact h

/-- The callbacks of requests that got no reply, in the order in which they are called. -/
def owedBy (items : List (Pending κ)) : List κ :=
  (items.filterMap ClientWorld.failedCall).map Prod.fst

/-- What the collecting loop leaves in a slot was there, and is not reported. -/
theorem Holds.of_collect (h : (c.collect onlyTimeout).1.Holds i k) :
    c.Holds i k ∧ (i < maxPending → c.reported onlyTimeout i = false) := by
  obtain ⟨-, hpool, huse⟩ := c.collect_spec onlyTimeout
  obtain ⟨hin, hk⟩ := h
  rw [huse, Bool.and_eq_true] at hin
  rw [hpool] at hk
  refine ⟨⟨hin.1, hk⟩, fun hi => ?_⟩
  simpa [hi] using hin.2

/-- The request that slot `i` reports. -/
def report (c : SsnClient κ) (onlyTimeout : Bool) (i : Nat) : Option κ :=
  if c.reported onlyTimeout i then (ClientWorld.failedCall (c.pendingPool i)).map Prod.fst else none

theorem report_eq_some : c.report onlyTimeout i = some k ↔
    c.reported onlyTimeout i = true ∧ c.Holds i k := by
  unfold report
  split_ifs with hr
  · have hin : c.inUse i = true := (Bool.and_eq_true_iff.1 hr).1
    rw [Option.map_eq_some_iff]
    constructor
    · rintro ⟨call, hcall, rfl⟩
      obtain ⟨-, hnone⟩ := failedCall_eq_some hcall
      exact ⟨hr, hin, hcall.trans (congrArg some (Prod.ext rfl hnone))⟩
    · rintro ⟨-, -, hk⟩
      exact ⟨_, hk, rfl⟩
  · simp [hr]

theorem owedBy_collect : owedBy (c.collect onlyTimeout).2 =
    (List.range maxPending).filterMap (c.report onlyTimeout) := by
  rw [(c.collect_spec onlyTimeout).1, owedBy, List.map_filterMap, List.filterMap_map,
    List.filterMap_filter]
  rfl

theorem mem_owedBy_collect : k ∈ owedBy (c.collect onlyTimeout).2 ↔
    ∃ i < maxPending, c.reported onlyTimeout i = true ∧ c.Holds i k := by
  simp only [owedBy_collect, List.mem_filterMap, List.mem_range, report_eq_some]

theorem nodup_owedBy_collect (hinj : ∀ i j k, c.Holds i k → c.Holds j k → i = j) :
    (owedBy (c.collect onlyTimeout).2).Nodup := by
  rw [owedBy_collect]
  refine List.Nodup.filterMap (fun i j k hi hj => ?_) List.nodup_range
  exact hinj i j k (report_eq_some.1 hi).2 (report_eq_some.1 hj).2

end Collect

end SsnClient

/-! ## Requests and slots -/

namespace ClientWorld

open SsnClient

variable {w w' : ClientWorld κ} {ftype : FType} {msgType : UInt8} {url data : Option Ref}
  {timeoutMs : Nat}

/-- Nobody is called, and the slots stay. -/
structure Still (w w' : ClientWorld κ) : Prop where
  calls : Calls w w' []
  slots : SameSlots w.client w'.client

theorem still_of_pool (hcalls : Calls w w' []) (hpool : w'.client.pool = w.client.pool) :
    Still w w' :=
  ⟨hcalls, sameSlots_of_pool hpool⟩

theorem still_setClient {c : SsnClient κ} (hpool : c.pool = w.client.pool) :
    Still w (w.setClient c) :=
  still_of_pool (.of_log rfl) hpool

theorem Still.trans {w'' : ClientWorld κ} (h : Still w w') (h' : Still w' w'') : Still w w'' :=
  ⟨h.calls.trans h'.calls, fun i k => (h'.slots i k).trans (h.slots i k)⟩

/-- A request with a callback may take a free slot for it. -/
structure Takes (w w' : ClientWorld κ) (callback : Option κ) : Prop where
  calls : Calls w w' []
  slots : SameSlots w.client w'.client ∨ ∃ k i, callback = some k ∧ w.client.inUse i = false ∧
    ∀ j k', w'.client.Holds j k' ↔ (j = i ∧ k' = k) ∨ w.client.Holds j k'

theorem Still.takes (h : Still w w') (callback : Option κ) : Takes w w' callback :=
  ⟨h.calls, .inl h.slots⟩

theorem still_send (msg : Message) : Still w (w.send net msg).1 := by
  obtain ⟨hcalls, hpool, -⟩ := send_spec (rfl : w.send net msg = (_, _))
  exact still_of_pool hcalls hpool

theorem still_requestPlain : Still w (w.requestPlain net msgType url data).1 := by
  have hpool : w.client.prepareSeqno.2.pool = w.client.pool := by
    unfold SsnClient.prepareSeqno
    split_ifs <;> rfl
  exact (still_setClient hpool).trans (still_send _)

theorem takes_requestPending (hft : ftype ≠ .unset) (k : κ) :
    Takes w (w.requestPending net ftype msgType url data k timeoutMs).1 (some k) := by
  unfold requestPending
  rcases ha : w.client.allocPendingIndex with _ | ⟨i, c⟩
  · exact (still_setClient rfl).takes _
  obtain ⟨hfree, hi, -⟩ := allocPendingIndex_spec ha
  have hother {j : Nat} {k' : κ} (hj : w.client.Holds j k') : j ≠ i := by
    rintro rfl
    rw [hj.1] at hfree
    cases hfree
  have hsent : Still (w.setClient (c.register i ftype k timeoutMs)) (ClientWorld.send net _
      ⟨msgType, 0, c.seqno, url, data⟩).1 := still_send _
  rcases hsend : (w.setClient (c.register i ftype k timeoutMs)).send net
    ⟨msgType, 0, c.seqno, url, data⟩ with ⟨w', ok⟩
  rw [hsend] at hsent
  -- After the send the new slot holds the request, and the others what they held.
  have hslots (j : Nat) (k' : κ) :
      w'.client.Holds j k' ↔ (j = i ∧ k' = k) ∨ (j ≠ i ∧ w.client.Holds j k') :=
    (hsent.slots j k').trans (holds_register hft ha)
  simp only [hsend]
  split_ifs
  · refine ⟨hsent.calls, .inr ⟨k, i, rfl, hfree, fun j k' => (hslots j k').trans ?_⟩⟩
    exact or_congr_right (and_iff_right_of_imp hother)
  · -- The slot taken is freed again.
    refine ⟨hsent.calls, .inl fun j k' => ?_⟩
    refine (holds_freePendingIndex hi).trans ?_
    rw [hslots]
    constructor
    · rintro ⟨hne, ⟨rfl, -⟩ | ⟨-, hj⟩⟩
      · exact absurd rfl hne
      · exact hj
    · intro hj
      exact ⟨hother hj, .inr ⟨hother hj, hj⟩⟩

theorem takes_requestWith (hft : ftype ≠ .unset) (callback : Option κ) :
    Takes w (w.requestWith net ftype msgType url data callback timeoutMs).1 callback := by
  cases callback with
  | none => exact still_requestPlain.takes none
  | some k => exact takes_requestPending hft k

theorem takes_requestEx (callback : Option κ) :
    Takes w (w.requestEx net msgType url data callback timeoutMs).1 callback := by
  unfold requestEx
  split_ifs
  · exact takes_requestWith (by simp) callback
  · exact (still_setClient rfl).takes callback

theorem takes_callEx (url : Bytes) (callback : Option κ) :
    Takes w (w.callEx net url data callback timeoutMs).1 callback := by
  unfold callEx
  split_ifs
  · exact takes_requestWith (by simp) callback
  · exact (still_setClient rfl).takes callback

theorem Takes.still (h : Takes w w' none) : Still w w' := by
  refine ⟨h.calls, h.slots.resolve_right ?_⟩
  rintro ⟨k, i, hk, -⟩
  cases hk

theorem still_subscribe (url : Bytes) (callback : Option κ) :
    Still w (w.subscribe net url callback timeoutMs).1 := by
  unfold subscribe
  split_ifs
  · refine .trans (still_setClient ?_) (takes_requestEx none).still
    rfl
  · exact still_setClient rfl

theorem still_unsubscribe (url : Bytes) : Still w (w.unsubscribe net url timeoutMs).1 := by
  unfold unsubscribe
  split_ifs
  · refine .trans (still_setClient ?_) (takes_requestEx none).still
    rfl
  · exact still_setClient rfl

theorem still_message (url : Bytes) (data : Option Ref) : Still w (w.message net url data) := by
  unfold message
  split_ifs
  · exact still_send _
  · exact still_setClient rfl

theorem still_setSendTimeout (timeoutMs : Int) (outcome : Option Nat) :
    Still w (w.setSendTimeout timeoutMs outcome) := by
  unfold setSendTimeout
  simp only
  split
  · exact still_of_pool (calls_emit _) rfl
  · exact still_setClient rfl

theorem still_connInput (arg : ClientWorld κ × Nat) (f : Frame) :
    Still arg.1 (connInput arg f).1 := by
  unfold connInput
  simp only
  split_ifs <;> exact still_of_pool (calls_emit _) rfl

theorem still_feedConn (buf : Bytes) : Still w (w.feedConn buf).1.1 := by
  have hreceived : Still w (w.emit (.received buf)) := still_of_pool (calls_emit _) rfl
  have hfed : Still w (streamFeed clientConnInput w.client.recv buf
      (w.emit (.received buf), 0)).2.1.1 :=
    streamFeed_keeps (P := fun arg : ClientWorld κ × Nat => Still w arg.1)
      (fun arg f h => h.trans (still_connInput arg f)) _ _ _ hreceived
  exact hfed.trans (still_setClient rfl)

theorem still_dial (timeoutMs : Option Nat) (run : ConnectRun) :
    Still w (w.dial timeoutMs run).1 := by
  unfold dial
  cases run.fd with
  | none => exact still_setClient rfl
  | some fd =>
    have hready : Still w ((w.emit .opened).createHeader
        ⟨MsgType.serviceInfo, 0, 0, none, none⟩) := still_of_pool (calls_emit _) rfl
    have hshaken := handshake_keeps (P := fun w' : ClientWorld κ => Still w w')
      (fun _ h => h.trans (still_feedConn _)) (maxRetries (timeoutMs.getD 3000)) run.recvs hready
    simp only
    split_ifs
    · exact hshaken.trans (still_setClient rfl)
    · exact hshaken
    · exact hready

def called (w : ClientWorld κ) : List κ := (w.log.filterMap ClientEvent.call?).map Prod.fst

theorem Calls.called_eq {cs : List (κ × Option Frame)} (h : Calls w w' cs) :
    w'.called = w.called ++ cs.map Prod.fst := by
  obtain ⟨es, hes, rfl⟩ := h
  rw [called, hes, List.filterMap_append, List.map_append]
  rfl

theorem called_emit (e : ClientEvent κ) :
    (w.emit e).called = w.called ++ (e.call?.toList).map Prod.fst :=
  (calls_emit e).called_eq

theorem Still.called_eq (h : Still w w') : w'.called = w.called := by
  rw [h.calls.called_eq, List.map_nil, List.append_nil]

end ClientWorld

end Ssn
