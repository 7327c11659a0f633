import SsnIpc.Client.Ops

/-!
# The pool of pending requests is a map

Slots, bitmap and index table together are a map from sequence numbers to pending requests
(`pending`), as long as no sequence number is given out while it is in use (`Wf`). Registering a
request adds an entry (`pending_register`), a reply, a timeout or a cancelled ping takes one out
(`pending_freePendingIndex`), and a round of the timer changes the entries (`pending_timerSweep`).
-/

namespace Ssn

variable {κ : Type*} {c c' : SsnClient κ} {i : Nat} {s : UInt16}

namespace SsnClient

/-- Slots in use and sequence numbers lead to each other. -/
structure Wf (c : SsnClient κ) : Prop where
  slot : ∀ i, c.inUse i = true → i < maxPending ∧ c.seqnoToIndex (c.pendingPool i).seqno = i
  index : ∀ s, c.seqnoToIndex s ≠ noIndex →
    c.inUse (c.seqnoToIndex s) = true ∧ (c.pendingPool (c.seqnoToIndex s)).seqno = s

/-- The pending request with a sequence number. -/
def pending (c : SsnClient κ) (s : UInt16) : Option (Pending κ) :=
  (c.getPendingSnapshot s).map Prod.snd

/-! ## Lookups -/

theorem getPendingSnapshot_iff (h : c.Wf) {p : Pending κ} :
    c.getPendingSnapshot s = some (i, p) ↔
      c.inUse i = true ∧ c.pendingPool i = p ∧ p.seqno = s := by
  rw [getPendingSnapshot]
  constructor
  · intro hs
    split_ifs at hs with hout hin
    obtain ⟨rfl, rfl⟩ := Prod.mk.inj (Option.some.inj hs)
    rw [not_or] at hout
    exact ⟨hin, rfl, (h.index s hout.1).2⟩
  · rintro ⟨hin, rfl, rfl⟩
    obtain ⟨hlt, hidx⟩ := h.slot i hin
    simp only [hidx]
    rw [if_neg, if_pos hin]
    simp only [noIndex, maxPending] at *
    omega

theorem inUse_of_getPendingSnapshot {p : Pending κ} (hs : c.getPendingSnapshot s = some (i, p)) :
    c.inUse i = true := by
  rw [getPendingSnapshot] at hs
  split_ifs at hs with hout hin
  obtain ⟨rfl, -⟩ := Prod.mk.inj (Option.some.inj hs)
  exact hin

theorem pending_iff (h : c.Wf) {p : Pending κ} :
    c.pending s = some p ↔ ∃ i, c.inUse i = true ∧ c.pendingPool i = p ∧ p.seqno = s := by
  rw [pending, Option.map_eq_some_iff]
  constructor
  · rintro ⟨⟨i, p'⟩, hs, rfl⟩
    exact ⟨i, (getPendingSnapshot_iff h).1 hs⟩
  · rintro ⟨i, hi⟩
    exact ⟨(i, p), (getPendingSnapshot_iff h).2 hi, rfl⟩

theorem pending_of_inUse (h : c.Wf) (hi : c.inUse i = true) :
    c.pending (c.pendingPool i).seqno = some (c.pendingPool i) :=
  (pending_iff h).2 ⟨i, hi, rfl, rfl⟩

theorem Wf.seqno_inj (h : c.Wf) {i j : Nat} (hi : c.inUse i = true) (hj : c.inUse j = true)
    (hs : (c.pendingPool i).seqno = (c.pendingPool j).seqno) : i = j := by
  rw [← (h.slot i hi).2, hs, (h.slot j hj).2]

theorem pending_ext (m : UInt16 → Option (Pending κ)) (h : c.Wf)
    (hm : ∀ s p, (∃ i, c.inUse i = true ∧ c.pendingPool i = p ∧ p.seqno = s) ↔ m s = some p) :
    c.pending = m := by
  funext s
  ext p
  rw [pending_iff h, hm]

/-! ## What the pool does not depend on -/

/-- The fields that make up the pool. -/
def pool (c : SsnClient κ) : (Nat → Pending κ) × Bitmap.Words × (UInt16 → Nat) :=
  (c.pendingPool, c.pendingBitmap, c.seqnoToIndex)

theorem inUse_of_pool (hp : c'.pool = c.pool) (i : Nat) : c'.inUse i = c.inUse i := by
  rw [inUse, inUse, show c'.pendingBitmap = _ from congrArg (fun p => p.2.1) hp]
  rfl

theorem Wf.of_pool (h : c.Wf) (hp : c'.pool = c.pool) : c'.Wf := by
  obtain ⟨h1, h2⟩ := Prod.mk.inj hp
  obtain ⟨h2, h3⟩ := Prod.mk.inj h2
  refine ⟨fun i hi => ?_, fun s hs => ?_⟩
  · rw [h1, h3]
    exact h.slot i (by rwa [inUse, h2] at hi)
  · rw [h3] at hs ⊢
    rw [inUse, h1, h2]
    exact h.index s hs

theorem pending_of_pool (hp : c'.pool = c.pool) : c'.pending = c.pending := by
  obtain ⟨h1, h2⟩ := Prod.mk.inj hp
  obtain ⟨h2, h3⟩ := Prod.mk.inj h2
  funext s
  unfold pending getPendingSnapshot inUse
  rw [h1, h2, h3]

/-! ## Freeing a slot -/

theorem seqno_freePendingIndex (i : Nat) : (c.freePendingIndex i).seqno = c.seqno := by
  unfold freePendingIndex
  split_ifs <;> rfl

theorem inUse_freePendingIndex (hi : i < maxPending) (j : Nat) :
    (c.freePendingIndex i).inUse j = (!decide (j = i) && c.inUse j) := by
  rw [freePendingIndex, if_neg (by omega)]
  exact Bitmap.isSet_clear ..

theorem freePendingIndex_pool (h : c.Wf) (hi : c.inUse i = true) :
    (c.freePendingIndex i).pendingPool = c.pendingPool ∧
      (c.freePendingIndex i).seqnoToIndex =
        Function.update c.seqnoToIndex (c.pendingPool i).seqno noIndex := by
  obtain ⟨hlt, hidx⟩ := h.slot i hi
  rw [freePendingIndex, if_neg (by omega)]
  simp only [hidx, if_true, and_self]

theorem Wf.freePendingIndex (h : c.Wf) (hi : c.inUse i = true) : (c.freePendingIndex i).Wf := by
  obtain ⟨hpool, hmap⟩ := freePendingIndex_pool h hi
  have huse (j : Nat) : (c.freePendingIndex i).inUse j = true ↔ j ≠ i ∧ c.inUse j = true := by
    simp [inUse_freePendingIndex (h.slot i hi).1]
  refine ⟨fun j hj => ?_, fun s hs => ?_⟩
  · obtain ⟨hne, hj⟩ := (huse j).1 hj
    rw [hpool, hmap, Function.update_of_ne fun hs => hne (h.seqno_inj hj hi hs)]
    exact h.slot j hj
  · rw [hmap] at hs ⊢
    have hne : s ≠ (c.pendingPool i).seqno := by
      rintro rfl
      exact hs (Function.update_self ..)
    rw [Function.update_of_ne hne] at hs ⊢
    obtain ⟨hin, hseq⟩ := h.index s hs
    rw [huse, hpool]
    exact ⟨⟨fun e => hne (by rw [← hseq, e]), hin⟩, hseq⟩

theorem pending_freePendingIndex (h : c.Wf) (hi : c.inUse i = true) :
    (c.freePendingIndex i).pending =
      Function.update c.pending (c.pendingPool i).seqno none := by
  refine pending_ext _ (h.freePendingIndex hi) fun s p => ?_
  simp only [(freePendingIndex_pool h hi).1, inUse_freePendingIndex (h.slot i hi).1,
    Bool.and_eq_true, Bool.not_eq_true', decide_eq_false_iff_not]
  by_cases hs : s = (c.pendingPool i).seqno
  · subst hs
    rw [Function.update_self]
    refine iff_of_false ?_ (by simp)
    rintro ⟨j, ⟨hne, hj⟩, rfl, hs⟩
    exact hne (h.seqno_inj hj hi hs)
  · rw [Function.update_of_ne hs, pending_iff h]
    refine exists_congr fun j => ⟨fun ⟨⟨_, hj⟩, hp⟩ => ⟨hj, hp⟩, fun ⟨hj, hp⟩ => ⟨⟨?_, hj⟩, hp⟩⟩
    rintro rfl
    exact hs (by rw [hp.1, hp.2])

/-! ## Registering a request -/

section Register

variable {ftype : FType} {k : κ} {timeoutMs : Nat}

theorem allocPendingIndex_spec (ha : c.allocPendingIndex = some (i, c')) :
    c.inUse i = false ∧ i < maxPending ∧
      c' = { c with pendingBitmap := Bitmap.set c.pendingBitmap i } := by
  obtain ⟨j, hj, heq⟩ := Option.map_eq_some_iff.1 ha
  obtain ⟨rfl, rfl⟩ := Prod.mk.inj heq
  obtain ⟨hfree, hlt⟩ := Bitmap.firstFree_some hj
  exact ⟨hfree, hlt, rfl⟩

theorem inUse_register (ha : c.allocPendingIndex = some (i, c')) (j : Nat) :
    (c'.register i ftype k timeoutMs).inUse j = (decide (j = i) || c.inUse j) := by
  obtain ⟨-, -, rfl⟩ := allocPendingIndex_spec ha
  exact Bitmap.isSet_set ..

theorem register_pool (ha : c.allocPendingIndex = some (i, c')) :
    (c'.register i ftype k timeoutMs).pendingPool = Function.update c.pendingPool i
        ⟨c.seqno, UInt32.ofNat timeoutMs, ftype, some k⟩ ∧
      (c'.register i ftype k timeoutMs).seqnoToIndex =
        Function.update c.seqnoToIndex c.seqno i := by
  obtain ⟨-, -, rfl⟩ := allocPendingIndex_spec ha
  exact ⟨rfl, rfl⟩

/-- Slots in use other than the new one are not those of the new sequence number. -/
theorem seqno_ne_of_pending (h : c.Wf) (hs : c.pending s = none) {j : Nat}
    (hj : c.inUse j = true) : (c.pendingPool j).seqno ≠ s := by
  rintro rfl
  rw [pending_of_inUse h hj] at hs
  cases hs

/-- The next sequence number is not in use, if there is a slot to register it in. -/
def SeqnoFree (c : SsnClient κ) : Prop :=
  c.allocPendingIndex.isSome = true → ∀ i < maxPending, c.inUse i = true →
    (c.pendingPool i).seqno ≠ c.seqno

theorem seqnoFree_of_pending (h : c.Wf) (hs : c.pending c.seqno = none) : c.SeqnoFree :=
  fun _ _ _ hi => seqno_ne_of_pending h hs hi

theorem SeqnoFree.pending (hf : c.SeqnoFree) (h : c.Wf)
    (ha : c.allocPendingIndex = some (i, c')) : c.pending c.seqno = none := by
  cases hp : c.pending c.seqno with
  | none => rfl
  | some p =>
    obtain ⟨j, hj, rfl, hs⟩ := (pending_iff h).1 hp
    exact absurd hs (hf (by rw [ha]; rfl) j (h.slot j hj).1 hj)

theorem Wf.register (h : c.Wf) (hs : c.pending c.seqno = none)
    (ha : c.allocPendingIndex = some (i, c')) : (c'.register i ftype k timeoutMs).Wf := by
  obtain ⟨hpool, hmap⟩ := register_pool ha
  obtain ⟨hfree, hlt, -⟩ := allocPendingIndex_spec ha
  refine ⟨fun j hj => ?_, fun s hidx => ?_⟩
  · rw [hpool, hmap]
    rw [inUse_register ha] at hj
    by_cases e : j = i
    · subst e
      simp [hlt]
    · have hj' : c.inUse j = true := by simpa [e] using hj
      rw [Function.update_of_ne e, Function.update_of_ne (seqno_ne_of_pending h hs hj')]
      exact h.slot j hj'
  · rw [hmap] at hidx ⊢
    rw [inUse_register ha, hpool]
    by_cases e : s = c.seqno
    · subst e
      simp
    · rw [Function.update_of_ne e] at hidx ⊢
      obtain ⟨hin, hseq⟩ := h.index s hidx
      have hne : c.seqnoToIndex s ≠ i := by
        intro e'
        rw [e', hfree] at hin
        cases hin
      rw [Function.update_of_ne hne]
      exact ⟨by simp [hin], hseq⟩

theorem pending_register (h : c.Wf) (hs : c.pending c.seqno = none)
    (ha : c.allocPendingIndex = some (i, c')) :
    (c'.register i ftype k timeoutMs).pending =
      Function.update c.pending c.seqno
        (some ⟨c.seqno, UInt32.ofNat timeoutMs, ftype, some k⟩) := by
  refine pending_ext _ (h.register hs ha) fun s p => ?_
  obtain ⟨hfree, -, -⟩ := allocPendingIndex_spec ha
  simp only [inUse_register ha, (register_pool ha).1, Bool.or_eq_true, decide_eq_true_eq]
  -- The number was not pending: only the new slot has it.
  by_cases e : s = c.seqno
  · subst e
    rw [Function.update_self, Option.some_inj]
    constructor
    · rintro ⟨j, rfl | hj, hp, hseq⟩
      · rwa [Function.update_self] at hp
      · have hne : j ≠ i := by
          rintro rfl
          rw [hfree] at hj
          cases hj
        rw [Function.update_of_ne hne] at hp
        exact absurd (hp ▸ hseq) (seqno_ne_of_pending h hs hj)
    · rintro rfl
      exact ⟨i, .inl rfl, Function.update_self .., rfl⟩
  · rw [Function.update_of_ne e, pending_iff h]
    refine exists_congr fun j => ?_
    by_cases e' : j = i
    · subst e'
      rw [Function.update_self]
      refine iff_of_false ?_ (by simp [hfree])
      rintro ⟨-, rfl, hseq⟩
      exact e hseq.symm
    · simp only [e', false_or, Function.update_of_ne e']

end Register

/-! ## The timer -/

theorem seqno_timerSweep (i : Nat) :
    (c.timerSweep.pendingPool i).seqno = (c.pendingPool i).seqno := by
  simp only [timerSweep]
  split_ifs <;> rfl

theorem Wf.timerSweep (h : c.Wf) : c.timerSweep.Wf := by
  refine ⟨fun i hi => ?_, fun s hs => ?_⟩
  · rw [seqno_timerSweep]
    exact h.slot i hi
  · rw [seqno_timerSweep]
    exact h.index s hs

theorem pending_timerSweep (h : c.Wf) (s : UInt16) :
    c.timerSweep.pending s = (c.pending s).map sweepPending := by
  ext p
  rw [Option.map_eq_some_iff, pending_iff h.timerSweep]
  constructor
  · rintro ⟨i, hi, rfl, rfl⟩
    refine ⟨c.pendingPool i, ?_, ?_⟩
    · rw [seqno_timerSweep]
      exact pending_of_inUse h hi
    · exact (if_pos ⟨(h.slot i hi).1, hi⟩).symm
  · rintro ⟨p, hp, rfl⟩
    obtain ⟨i, hi, rfl, rfl⟩ := (pending_iff h).1 hp
    exact ⟨i, hi, if_pos ⟨(h.slot i hi).1, hi⟩, rfl⟩

end SsnClient

end Ssn
