import SsnIpc.Client.Once
import SsnIpc.Client.PoolSteps

/-!
# The sections that the client's lock protects

Whatever a client does to its pool, it does under `client->lock`, in a few short sections
(`PoolSection`). Between two of them anything can happen: the timer thread runs, a callback calls
the client, polls it or pings. A slot may so be freed for a reply that it has nothing to do with.

**Theorem (`indexed_always`).** After any sections in any order, every entry of the index table
leads to a slot in use that holds the entry's sequence number.

**Theorem (`madeOf_run`).** Runs with callbacks that make any call of the client, polls and pings
included, are made of these sections.
-/

namespace Ssn

variable {κ : Type*} {net : Nat → Nat → SendStep} {c c' : SsnClient κ}

/-! ## Sections -/

inductive PoolSection (κ : Type*)
  /-- A request with a callback takes a slot. (If it cannot be sent, `free` follows.) -/
  | request (ftype : FType) (k : κ) (timeoutMs : Nat)
  /-- `free_pending_index`, for a slot that was looked up some time ago. -/
  | free (index : Nat)
  /-- The collecting loop, for requests that timed out or for all. -/
  | collect (onlyTimeout : Bool)
  /-- The end of a ping that got no reply. -/
  | cancel (seqno : UInt16)
  /-- A round of the timer. -/
  | sweep

namespace SsnClient

def poolSection (c : SsnClient κ) : PoolSection κ → SsnClient κ
  | .request ftype k timeoutMs =>
    match c.allocPendingIndex with
    | none => c
    | some (index, c) => c.register index ftype k timeoutMs
  | .free index => c.freePendingIndex index
  | .collect onlyTimeout => (c.collect onlyTimeout).1
  | .cancel seqno =>
    let index := c.seqnoToIndex seqno
    if index ≠ noIndex ∧ c.inUse index then c.freePendingIndex index else c
  | .sweep => c.timerSweep

/-! ## The index table leads to slots in use -/

/-- Every entry of the index table leads to a slot in use with its sequence number. -/
def Indexed (c : SsnClient κ) : Prop :=
  ∀ s, c.seqnoToIndex s ≠ noIndex → c.seqnoToIndex s < maxPending ∧
    c.inUse (c.seqnoToIndex s) = true ∧ (c.pendingPool (c.seqnoToIndex s)).seqno = s

theorem indexed_create : (create : SsnClient κ).Indexed := fun _ hs => absurd rfl hs

theorem Indexed.of_pool (h : c.Indexed) (hp : c'.pool = c.pool) : c'.Indexed := by
  obtain ⟨hpool, hp'⟩ := Prod.mk.inj hp
  obtain ⟨-, hindex⟩ := Prod.mk.inj hp'
  intro s hs
  rw [hindex] at hs ⊢
  rw [inUse_of_pool hp, hpool]
  exact h s hs

/-- Freeing a slot keeps this, whether it is in use or not: an entry that led to it is that of the
sequence number in the slot, and goes. -/
theorem Indexed.freePendingIndex (h : c.Indexed) (i : Nat) : (c.freePendingIndex i).Indexed := by
  by_cases hi : maxPending ≤ i
  · rwa [SsnClient.freePendingIndex, if_pos hi]
  intro s hs
  have hmap : (c.freePendingIndex i).seqnoToIndex s = c.seqnoToIndex s ∧ c.seqnoToIndex s ≠ i := by
    simp only [SsnClient.freePendingIndex, if_neg hi] at hs ⊢
    split_ifs at hs ⊢ with hleads
    · have hne : s ≠ (c.pendingPool i).seqno := by
        rintro rfl
        exact hs (Function.update_self ..)
      rw [Function.update_of_ne hne] at hs ⊢
      exact ⟨rfl, fun e => hne (by rw [← e, (h s hs).2.2])⟩
    · refine ⟨rfl, fun e => hleads ?_⟩
      rw [← e, (h s hs).2.2]
  rw [hmap.1] at hs ⊢
  obtain ⟨hlt, hin, hseqno⟩ := h s hs
  refine ⟨hlt, ?_, by rwa [pendingPool_freePendingIndex]⟩
  simp [inUse_freePendingIndex (Nat.lt_of_not_le hi), hmap.2, hin]

theorem Indexed.register (h : c.Indexed) {i : Nat} (ha : c.allocPendingIndex = some (i, c'))
    (ftype : FType) (k : κ) (timeoutMs : Nat) : (c'.register i ftype k timeoutMs).Indexed := by
  obtain ⟨hfree, hlt, -⟩ := allocPendingIndex_spec ha
  intro s hs
  simp only [(register_pool ha).1, (register_pool ha).2, inUse_register ha] at hs ⊢
  by_cases e : s = c.seqno
  · subst e
    simp [hlt]
  · rw [Function.update_of_ne e] at hs ⊢
    obtain ⟨hlt', hin, hseqno⟩ := h s hs
    have hne : c.seqnoToIndex s ≠ i := by
      intro e'
      rw [e', hfree] at hin
      cases hin
    rw [Function.update_of_ne hne]
    exact ⟨hlt', by simp [hin], hseqno⟩

theorem Indexed.timerSweep (h : c.Indexed) : c.timerSweep.Indexed := by
  intro s hs
  rw [seqno_timerSweep]
  exact h s hs

end SsnClient

/-- A property of the pool and its counter that freeing any slot keeps. -/
structure FreeInv (P : SsnClient κ → Prop) : Prop where
  of_pool : ∀ {c c' : SsnClient κ}, P c → c'.pool = c.pool → c'.seqno = c.seqno → P c'
  free : ∀ {c : SsnClient κ} (i : Nat), P c → P (c.freePendingIndex i)

theorem FreeInv.poolInv {P : SsnClient κ → Prop} (hP : FreeInv P) : PoolInv P :=
  ⟨hP.of_pool, fun _ h => hP.free _ h⟩

theorem freeInv_indexed : FreeInv (SsnClient.Indexed (κ := κ)) :=
  ⟨fun h hp _ => h.of_pool hp, fun i h => h.freePendingIndex i⟩

theorem SsnClient.Indexed.poolSection (h : c.Indexed) (e : PoolSection κ) :
    (c.poolSection e).Indexed := by
  cases e with
  | request ftype k timeoutMs =>
    rcases ha : c.allocPendingIndex with _ | ⟨i, c'⟩
    · simpa only [SsnClient.poolSection, ha] using h
    · simpa only [SsnClient.poolSection, ha] using h.register ha ftype k timeoutMs
  | free index => exact h.freePendingIndex index
  | collect onlyTimeout => exact freeInv_indexed.poolInv.collect onlyTimeout h
  | cancel seqno =>
    simp only [SsnClient.poolSection]
    split_ifs
    · exact h.freePendingIndex _
    · exact h
  | sweep => exact h.timerSweep

/-! ## Callbacks that poll -/

/-- One step, where a callback may poll and ping too. -/
def Reentrant.nestedStep (net : Nat → Nat → SendStep) (s : Reentrant) : ReentrantOp → Reentrant
  | .pingEnd seqno => s.setWorld (s.world.pingCancel seqno)
  | .poll input => s.poll input
  | op => s.step net op

theorem Reentrant.nestedStep_of_empty {s : Reentrant} (hs : s.stack = []) (op : ReentrantOp) :
    s.nestedStep net op = s.step net op := by
  cases op with
  | pingEnd seqno => simp [nestedStep, step, hs]
  | poll input => simp [nestedStep, step, hs]
  | _ => rfl

namespace FreeInv

open Reentrant

variable {P : SsnClient Nat → Prop} (hP : FreeInv P) {s : Reentrant}
include hP

theorem finish (after : AfterCalls) (h : P s.world.client) : P (s.finish after).world.client := by
  cases after with
  | done => exact h
  | dial timeoutMs run recv => exact hP.poolInv.dial timeoutMs run (hP.of_pool h rfl rfl)
  | hangUp => exact hP.of_pool h rfl rfl

theorem callItems (after : AfterCalls) (items : List (Pending Nat)) (h : P s.world.client) :
    P (s.callItems after items).world.client := by
  induction items generalizing s with
  | nil => exact hP.finish after h
  | cons p items ih =>
    rw [Reentrant.callItems]
    split
    · exact h
    · exact ih h

theorem setClient (c : SsnClient Nat) (hpool : c.pool = s.world.client.pool)
    (hseqno : c.seqno = s.world.client.seqno) (h : P s.world.client) :
    P (s.setWorld (s.world.setClient c)).world.client :=
  hP.of_pool h hpool hseqno

theorem collectAndCallPending (onlyTimeout : Bool) (after : AfterCalls) (h : P s.world.client) :
    P (s.collectAndCallPending onlyTimeout after).world.client := by
  have hc := hP.poolInv.collect onlyTimeout h
  unfold Reentrant.collectAndCallPending
  rcases hcol : s.world.client.collect onlyTimeout with ⟨c, items⟩
  rw [hcol] at hc
  exact hP.callItems after items hc

theorem handleEvent (h : P s.world.client) : P s.handleEvent.world.client := by
  unfold Reentrant.handleEvent
  split_ifs
  · have h' := hP.setClient { s.world.client with evtPending := false } rfl rfl h
    exact hP.collectAndCallPending true .done h'
  · exact h

theorem connectionLost (h : P s.world.client) : P s.connectionLost.world.client := by
  have h' := hP.setClient { s.world.client with connected := false } rfl rfl h
  unfold Reentrant.connectionLost
  exact hP.collectAndCallPending false .hangUp h'

theorem disconnect (h : P s.world.client) : P s.disconnect.world.client := by
  unfold Reentrant.disconnect
  split_ifs
  · have h' := hP.setClient { s.world.client with
      connected := false
      transport := s.world.client.transport.map Transport.disconnect } rfl rfl h
    exact hP.collectAndCallPending false .done h'
  · exact h

theorem connect (timeoutMs : Option Nat) (run : ConnectRun) (recv : StreamCtx)
    (h : P s.world.client) : P (s.connect timeoutMs run recv).world.client := by
  have h' := hP.setClient { s.world.client with connected := false, transport := none } rfl rfl h
  unfold Reentrant.connect
  exact hP.collectAndCallPending false (.dial timeoutMs run recv) h'

theorem feed (ok : Bool) (fs : List Frame) (h : P s.world.client) :
    P (s.feed ok fs).world.client := by
  induction fs generalizing s with
  | nil =>
    rw [Reentrant.feed]
    split_ifs
    · exact hP.handleEvent h
    · exact hP.connectionLost h
  | cons f fs ih =>
    by_cases hf : ClientWorld.IsReply f
    · cases hs : s.world.client.getPendingSnapshot (getSeqno f) with
      | none =>
        rw [feed_unknown hf hs]
        exact ih h
      | some r =>
        cases hc : ClientWorld.replyCall f r.2 with
        | none =>
          rw [feed_mute hf hs hc]
          exact ih (hP.free r.1 h)
        | some call =>
          rw [feed_reply hf hs hc]
          exact h
    · cases hc : s.world.client.handlerCall f with
      | none =>
        rw [feed_unhandled hf hc]
        exact ih h
      | some e =>
        rw [feed_handled hf hc]
        exact h

theorem poll (input : ClientPollInput) (h : P s.world.client) :
    P (s.poll input).world.client := by
  cases input with
  | idle => exact h
  | ready sock =>
    simp only [Reentrant.poll]
    generalize (if s.world.isOpen = true then sock else .quiet) = sock'
    split_ifs
    · split
      · exact hP.feed _ _ h
      · exact hP.connectionLost h
      · exact hP.handleEvent h
    · exact hP.handleEvent h

theorem ret (h : P s.world.client) : P s.ret.world.client := by
  unfold Reentrant.ret
  split
  · exact h
  · exact hP.feed _ _ (hP.free _ h)
  · exact hP.feed _ _ h
  · exact hP.callItems _ _ h

/-! ### Requests -/

section Requests

variable {w : ClientWorld Nat} {ftype : FType} {msgType : UInt8} {url data : Option Ref}
  {timeoutMs : Nat}

theorem send (msg : Message) (h : P w.client) : P (w.send net msg).1.client := by
  obtain ⟨-, hpool, hseqno⟩ := ClientWorld.send_spec (rfl : w.send net msg = (_, _))
  exact hP.of_pool h hpool hseqno

theorem requestPlain (h : P w.client) :
    P (w.requestPlain net msgType url data).1.client := by
  have hprepared : P w.client.prepareSeqno.2 := by
    unfold SsnClient.prepareSeqno
    split_ifs <;> exact hP.of_pool h rfl rfl
  exact hP.send (w := w.setClient w.client.prepareSeqno.2) _ hprepared

variable (hreq : ∀ (c : SsnClient Nat) ftype k timeoutMs,
  P c → P (c.poolSection (.request ftype k timeoutMs)))
include hreq

theorem requestPending (k : Nat) (h : P w.client) :
    P (w.requestPending net ftype msgType url data k timeoutMs).1.client := by
  unfold ClientWorld.requestPending
  rcases ha : w.client.allocPendingIndex with _ | ⟨i, c⟩
  · exact h
  have hc := hreq w.client ftype k timeoutMs h
  simp only [SsnClient.poolSection, ha] at hc
  have hsent : P ((w.setClient (c.register i ftype k timeoutMs)).send net
      ⟨msgType, 0, c.seqno, url, data⟩).1.client := hP.send _ hc
  dsimp only
  split_ifs
  · exact hsent
  · exact hP.free i hsent

theorem requestWith (callback : Option Nat) (h : P w.client) :
    P (w.requestWith net ftype msgType url data callback timeoutMs).1.client := by
  cases callback with
  | none => exact hP.requestPlain h
  | some k => exact hP.requestPending hreq k h

theorem requestEx (callback : Option Nat) (h : P w.client) :
    P (w.requestEx net msgType url data callback timeoutMs).1.client := by
  unfold ClientWorld.requestEx
  split_ifs
  · exact hP.requestWith hreq callback h
  · exact h

theorem callEx (url : ByteMem.Bytes) (callback : Option Nat) (h : P w.client) :
    P (w.callEx net url data callback timeoutMs).1.client := by
  unfold ClientWorld.callEx
  split_ifs
  · exact hP.requestWith hreq callback h
  · exact h

theorem subscribe (url : ByteMem.Bytes) (callback : Option Nat) (h : P w.client) :
    P (w.subscribe net url callback timeoutMs).1.client := by
  unfold ClientWorld.subscribe
  split_ifs
  · exact hP.requestEx hreq none (hP.of_pool h rfl rfl)
  · exact h

theorem unsubscribe (url : ByteMem.Bytes) (h : P w.client) :
    P (w.unsubscribe net url timeoutMs).1.client := by
  unfold ClientWorld.unsubscribe
  split_ifs
  · exact hP.requestEx hreq none (hP.of_pool h rfl rfl)
  · exact h

/-- **What freeing, requests and the timer keep, every step keeps.** -/
theorem nestedStep (hsweep : ∀ c : SsnClient Nat, P c → P c.timerSweep) (op : ReentrantOp)
    (h : P s.world.client) : P (s.nestedStep net op).world.client := by
  cases op with
  | call url data callback timeoutMs => exact hP.callEx hreq url _ h
  | subscribe url handler timeoutMs => exact hP.subscribe hreq url handler h
  | unsubscribe url timeoutMs => exact hP.unsubscribe hreq url h
  | message url data =>
    simp only [Reentrant.nestedStep, Reentrant.step, Reentrant.setWorld, ClientWorld.message]
    split_ifs
    · exact hP.send _ h
    · exact h
  | sendTimeout timeoutMs outcome => exact hP.poolInv.setSendTimeout timeoutMs outcome h
  | ping timeoutMs => exact hP.requestEx hreq _ h
  | pingEnd seqno => exact hP.poolInv.pingCancel seqno h
  | connect timeoutMs run recv =>
    simp only [Reentrant.nestedStep, Reentrant.step]
    exact hP.connect timeoutMs run recv h
  | disconnect =>
    simp only [Reentrant.nestedStep, Reentrant.step]
    exact hP.disconnect h
  | poll input => exact hP.poll input h
  | timerSweep => exact hsweep s.world.client h
  | ret => exact hP.ret h

end Requests

end FreeInv

/-! ## Runs are made of sections -/

def SsnClient.SamePool (c c' : SsnClient κ) : Prop := c'.pool = c.pool ∧ c'.seqno = c.seqno

namespace SsnClient.SamePool

variable {d d' : SsnClient κ}

theorem fields (h : SamePool c d) : d.pendingPool = c.pendingPool ∧
    d.pendingBitmap = c.pendingBitmap ∧ d.seqnoToIndex = c.seqnoToIndex ∧ d.seqno = c.seqno := by
  obtain ⟨hp, hrest⟩ := Prod.mk.inj h.1
  obtain ⟨hb, hm⟩ := Prod.mk.inj hrest
  exact ⟨hp, hb, hm, h.2⟩

theorem inUse (h : SamePool c d) (i : Nat) : d.inUse i = c.inUse i := inUse_of_pool h.1 i

theorem freePendingIndex (h : SamePool c d) (i : Nat) :
    SamePool (c.freePendingIndex i) (d.freePendingIndex i) := by
  obtain ⟨hp, hb, hm, hs⟩ := h.fields
  unfold SsnClient.freePendingIndex
  split_ifs with hi
  · exact h
  · exact ⟨by simp only [pool, hp, hb, hm], hs⟩

theorem collect (h : SamePool c d) (onlyTimeout : Bool) :
    SamePool (c.collect onlyTimeout).1 (d.collect onlyTimeout).1 := by
  suffices hfold : ∀ (is : List Nat) (acc acc' : SsnClient κ × List (Pending κ)),
      SamePool acc.1 acc'.1 → SamePool (is.foldl (collectOne onlyTimeout) acc).1
        (is.foldl (collectOne onlyTimeout) acc').1 from hfold _ (c, []) (d, []) h
  intro is
  induction is with
  | nil => exact fun _ _ hacc => hacc
  | cons i is ih =>
    rintro ⟨c, items⟩ ⟨d, items'⟩ hacc
    have hreported : d.reported onlyTimeout i = c.reported onlyTimeout i := by
      rw [reported, reported, hacc.inUse, hacc.fields.1]
    refine ih _ _ ?_
    rw [collectOne_eq, collectOne_eq, hreported]
    split_ifs
    · exact hacc.freePendingIndex i
    · exact hacc

theorem poolSection (h : SamePool c d) (e : PoolSection κ) :
    SamePool (c.poolSection e) (d.poolSection e) := by
  obtain ⟨hp, hb, hm, hs⟩ := h.fields
  cases e with
  | request ftype k timeoutMs =>
    rw [SsnClient.poolSection, SsnClient.poolSection, allocPendingIndex, allocPendingIndex, hb]
    cases Bitmap.firstFree (maxPending / 32) c.pendingBitmap with
    | none => exact h
    | some i => exact ⟨by simp only [Option.map_some, pool, register, hp, hm, hs],
        congrArg (· + 1) hs⟩
  | free index => exact h.freePendingIndex index
  | collect onlyTimeout => exact h.collect onlyTimeout
  | cancel seqno =>
    simp only [SsnClient.poolSection, h.inUse, hm]
    split_ifs
    · exact h.freePendingIndex _
    · exact h
  | sweep => exact ⟨by simp only [SsnClient.poolSection, timerSweep, pool, h.inUse, hp, hb, hm], hs⟩

end SsnClient.SamePool

/-- The pool of `c` becomes that of `c'` by sections. -/
def MadeOf (c c' : SsnClient κ) : Prop :=
  ∃ es, SsnClient.SamePool (Runs.run SsnClient.poolSection c es) c'

theorem MadeOf.refl (c : SsnClient κ) : MadeOf c c := ⟨[], rfl, rfl⟩

theorem MadeOf.snoc {c₀ : SsnClient κ} (h : MadeOf c₀ c) (e : PoolSection κ) :
    MadeOf c₀ (c.poolSection e) := by
  obtain ⟨es, hes⟩ := h
  refine ⟨es ++ [e], ?_⟩
  rw [Runs.run_append]
  exact hes.poolSection e

theorem freeInv_madeOf (c₀ : SsnClient κ) : FreeInv (MadeOf c₀) where
  of_pool := by
    rintro c c' ⟨es, hpool, hseqno⟩ hp hs
    exact ⟨es, hp.trans hpool, hs.trans hseqno⟩
  free i h := h.snoc (.free i)

/-- **A run of a client with callbacks that make any calls is made of sections.** -/
theorem madeOf_run (net : Nat → Nat → SendStep) (s : Reentrant) (es : List ReentrantOp) :
    MadeOf s.world.client (Runs.run (Reentrant.nestedStep net) s es).world.client := by
  have hstep (s' : Reentrant) (op : ReentrantOp) (h : MadeOf s.world.client s'.world.client)
      (_ : True) : MadeOf s.world.client (s'.nestedStep net op).world.client :=
    (freeInv_madeOf s.world.client).nestedStep (fun _ ftype k timeoutMs h =>
      h.snoc (.request ftype k timeoutMs)) (fun _ h => h.snoc .sweep) op h
  exact Runs.run_invariant hstep (.refl _) Runs.eachStep_true

/-! ## Replies find their slots -/

namespace SsnClient

/-- The index table leads to slots in use, replies are matched to slots in use with their sequence
number, and requests are given free slots as long as there are any. -/
structure Matched (c : SsnClient κ) : Prop where
  indexed : c.Indexed
  snapshot : ∀ seqno i p, c.getPendingSnapshot seqno = some (i, p) →
    c.inUse i = true ∧ p = c.pendingPool i ∧ p.seqno = seqno
  alloc_free : ∀ i c', c.allocPendingIndex = some (i, c') → c.inUse i = false
  alloc_full : c.allocPendingIndex = none → ∀ i < maxPending, c.inUse i = true

theorem Indexed.matched (h : c.Indexed) : c.Matched where
  indexed := h
  snapshot := by
    intro seqno i p hs
    rw [getPendingSnapshot] at hs
    split_ifs at hs with hout hin
    obtain ⟨rfl, rfl⟩ := Prod.mk.inj (Option.some.inj hs)
    exact ⟨hin, rfl, (h seqno (not_or.1 hout).1).2.2⟩
  alloc_free i c' ha := (allocPendingIndex_spec ha).1
  alloc_full := by
    intro ha i hi
    by_contra hfree
    rw [Bool.not_eq_true] at hfree
    have hsome := Bitmap.isSome_firstFree (n := 32) hfree hi
    rw [allocPendingIndex, Option.map_eq_none_iff] at ha
    rw [show Bitmap.firstFree 32 c.pendingBitmap = none from ha] at hsome
    cases hsome

end SsnClient

/-- **Replies are matched to their own slots.** In every state that sections lead to, in any order
and any number, and so in every run of a client with callbacks that call it again. -/
theorem indexed_always (es : List (PoolSection κ)) (net : Nat → Nat → SendStep)
    (onsub onmsg : Option Nat) (ops : List ReentrantOp) :
    Runs.Always SsnClient.poolSection SsnClient.Matched .create es ∧
      Runs.Always (Reentrant.nestedStep net) (fun s => s.world.client.Matched)
        (Reentrant.start onsub onmsg) ops := by
  constructor
  · exact Runs.always_of_invariant (fun _ e h _ => h.poolSection e)
      (fun _ h => SsnClient.Indexed.matched h) SsnClient.indexed_create Runs.eachStep_true
  · intro pre _
    obtain ⟨es', hpool, -⟩ := madeOf_run net (Reentrant.start onsub onmsg) pre
    have hstart : (Reentrant.start onsub onmsg).world.client.Indexed :=
      SsnClient.indexed_create.of_pool rfl
    have hrun : (Runs.run SsnClient.poolSection _ es').Indexed :=
      Runs.run_invariant (fun _ e (h : SsnClient.Indexed _) _ => h.poolSection e) hstart
        Runs.eachStep_true
    exact (hrun.of_pool hpool).matched

end Ssn
