import SsnIpc.Lib.Runs
import SsnIpc.Server.Router

/-!
# When the method table agrees with its reference

The table removes a subtree rule with `DELETE_FROM_LIST`, which leaves `prefix_t` alone. If the
rule was the newest one, `prefix_t` now points to freed memory, and the next subtree rule is
appended there.

**Theorem (`handler_iff_newestKept`).** A sequence of registrations and removals leaves a table
that answers every request as the reference does exactly when no subtree rule is registered after
the newest one was removed.

`Sim` relates the two tables. One list of nodes per slot (`Dll.Lists`) carries all its parts; each
operation replaces one of these lists. The flag `newestGone` of the reference's state tells
whether `prefix_t` is the last node of the FIFO or a freed one.
-/

namespace Ssn

open ByteMem Dll

variable {β : Type*}

/-! ## Kinds of urls -/

/-- The url of a subtree rule: it starts and ends with `/` and is not `/`. -/
def SubtreeUrl (url : Bytes) : Prop :=
  url.head? = some slash ∧ url ≠ [slash] ∧ url.getLast? = some slash

instance (url : Bytes) : Decidable (SubtreeUrl url) := inferInstanceAs (Decidable (_ ∧ _ ∧ _))

theorem isDef_iff {url : Bytes} (h : url.head? = some slash) :
    isDef url = true ↔ url = [slash] := by
  cases url with
  | nil => cases h
  | cons b bs =>
    obtain rfl : b = slash := Option.some.inj h
    cases bs <;> simp [isDef]

theorem isSubtree_iff {url : Bytes} (h : url.head? = some slash) :
    isSubtree url = true ↔ SubtreeUrl url := by
  simp [isSubtree, SubtreeUrl, h, ← isDef_iff h]

theorem take_pathLen_subtree {url : Bytes} (h : isSubtree url = true) :
    url.take (pathLen url) = url.dropLast := by
  rw [pathLen, if_pos h, List.dropLast_eq_take]

theorem take_pathLen_exact {url : Bytes} (h : isSubtree url = false) :
    url.take (pathLen url) = url := by
  rw [pathLen, if_neg (by simp [h]), List.take_length]

/-- The code's test on a subtree rule is the reference's. -/
theorem subtreeMatch_iff (path url : Bytes) :
    Router.subtreeMatch path url = true ↔ path = url ∨ path ++ [slash] <+: url := by
  simp only [Router.subtreeMatch, decide_eq_true_eq]
  constructor
  · rintro ⟨hle, htake, heq | hslash⟩
    · rw [heq, List.take_length] at htake
      exact Or.inl htake
    · refine Or.inr ?_
      have hlt : path.length < url.length := by
        by_contra hge
        rw [List.getElem?_eq_none (by omega)] at hslash
        cases hslash
      refine ⟨url.drop (path.length + 1), ?_⟩
      rw [List.getElem?_eq_getElem hlt] at hslash
      conv_lhs => rw [htake, ← Option.some.inj hslash, List.append_assoc]
      rw [List.singleton_append, List.length_take, Nat.min_eq_left hle,
        List.getElem_cons_drop, List.take_append_drop]
  · rintro (rfl | ⟨rest, rfl⟩)
    · simp
    · simp

/-! ## Runs of both tables -/

inductive RouterOp (β : Type*)
  | add (url : Bytes) (callback : β)
  | remove (url : Bytes)

/-- One operation on the code's table. -/
def Router.step (r : Router β) : RouterOp β → Option (Router β)
  | .add url callback => (r.addMethod url callback).map Prod.fst
  | .remove url => r.removeMethod url

/-- A sequence of operations on the code's table, up to a fault. -/
def Router.run (r : Router β) : List (RouterOp β) → Option (Router β)
  | [] => some r
  | op :: ops => (r.step op).bind fun r => r.run ops

/-- The reference's table, and whether its newest subtree rule was removed since. -/
structure RefState (β : Type*) where
  table : RefRouter β
  newestGone : Bool

namespace RefState

/-- The state of a new server. -/
def init : RefState β := ⟨.init, false⟩

/-- Removing `url` takes the newest subtree rule: it has this path and no older one has. -/
def TakesNewest (s : RefState β) (url : Bytes) : Prop :=
  SubtreeUrl url ∧ s.table.subtrees.getLast?.any (fun c => c.url = url.dropLast) = true ∧
    ∀ c ∈ s.table.subtrees.dropLast, c.url ≠ url.dropLast

instance (s : RefState β) (url : Bytes) : Decidable (s.TakesNewest url) :=
  inferInstanceAs (Decidable (_ ∧ _ ∧ _))

/-- One operation on the reference's table. -/
def step (s : RefState β) : RouterOp β → RefState β
  | .add url callback =>
    ⟨s.table.add url callback, if SubtreeUrl url then false else s.newestGone⟩
  | .remove url => ⟨s.table.remove url, if s.TakesNewest url then true else s.newestGone⟩

/-- A subtree rule is registered only while the newest one is still there. -/
def NewestKept (s : RefState β) : RouterOp β → Prop
  | .add url _ => SubtreeUrl url → s.newestGone = false
  | .remove _ => True

end RefState

section Kinds

variable {url : Bytes}

/-- A url that may name a method is `/`, or a subtree's, or an exact one. -/
theorem url_cases (hu : url.head? = some slash) :
    (isDef url = true ∧ url = [slash]) ∨
    (isDef url = false ∧ isSubtree url = true ∧ SubtreeUrl url) ∨
    (isDef url = false ∧ isSubtree url = false ∧ url ≠ [slash] ∧ ¬ SubtreeUrl url) := by
  cases hd : isDef url with
  | true => exact Or.inl ⟨rfl, (isDef_iff hu).1 hd⟩
  | false =>
    have hne : url ≠ [slash] := fun e => by rw [(isDef_iff hu).2 e] at hd; cases hd
    cases hs : isSubtree url with
    | true => exact Or.inr (Or.inl ⟨rfl, rfl, (isSubtree_iff hu).1 hs⟩)
    | false =>
      refine Or.inr (Or.inr ⟨rfl, rfl, hne, fun h => ?_⟩)
      rw [(isSubtree_iff hu).2 h] at hs
      cases hs

namespace RefState

variable (s : RefState β) (callback : β)

theorem step_add_deflt : s.step (.add [slash] callback) =
    ⟨{ s.table with deflt := some callback }, s.newestGone⟩ := by
  have hsub : ¬ SubtreeUrl [slash] := fun h => h.2.1 rfl
  rw [step, if_neg hsub]
  rfl

theorem step_add_subtree (h : SubtreeUrl url) : s.step (.add url callback) =
    ⟨{ s.table with subtrees := s.table.subtrees ++ [⟨url.dropLast, callback⟩] }, false⟩ := by
  rw [step, if_pos h, RefRouter.add, if_neg (not_not.2 h.1), if_neg h.2.1, if_pos h.2.2]

theorem step_add_exact (hu : url.head? = some slash) (hne : url ≠ [slash])
    (h : ¬ SubtreeUrl url) : s.step (.add url callback) =
    ⟨{ s.table with exacts := ⟨url, callback⟩ :: s.table.exacts }, s.newestGone⟩ := by
  rw [step, if_neg h, RefRouter.add, if_neg (not_not.2 hu), if_neg hne,
    if_neg fun hl => h ⟨hu, hne, hl⟩]

theorem step_remove_deflt : s.step (.remove [slash]) =
    ⟨{ s.table with deflt := none }, s.newestGone⟩ := by
  have hsub : ¬ s.TakesNewest [slash] := fun h => h.1.2.1 rfl
  rw [step, if_neg hsub]
  rfl

theorem step_remove_subtree (h : SubtreeUrl url) : s.step (.remove url) =
    ⟨{ s.table with subtrees := s.table.subtrees.eraseP fun c => c.url = url.dropLast },
      if s.TakesNewest url then true else s.newestGone⟩ := by
  rw [step, RefRouter.remove, if_neg (not_not.2 h.1), if_neg h.2.1, if_pos h.2.2]

theorem step_remove_exact (hu : url.head? = some slash) (hne : url ≠ [slash])
    (h : ¬ SubtreeUrl url) : s.step (.remove url) =
    ⟨{ s.table with exacts := s.table.exacts.eraseP fun c => c.url = url }, s.newestGone⟩ := by
  rw [step, if_neg fun ht => h ht.1, RefRouter.remove, if_neg (not_not.2 hu), if_neg hne,
    if_neg fun hl => h ⟨hu, hne, hl⟩]

theorem step_add_invalid (hu : url.head? ≠ some slash) : s.step (.add url callback) = s := by
  rw [step, if_neg fun h => hu h.1, RefRouter.add, if_pos hu]

theorem step_remove_invalid (hu : url.head? ≠ some slash) : s.step (.remove url) = s := by
  rw [step, if_neg fun h => hu h.1.1, RefRouter.remove, if_pos hu]

end RefState

end Kinds

/-! ## The simulation -/

/-- The two tables agree, through one list of nodes per slot. -/
structure Sim (r : Router β) (s : RefState β) (L : Slot → List (Nat × Cmd β)) : Prop where
  lists : Lists r.heap r.header L
  deflt : (L .deflt).map (fun x => x.2.onrpc) = s.table.deflt.toList
  fifo : (L .fifo).map Prod.snd = s.table.subtrees
  buckets : ∀ k, (L (.bucket k)).map Prod.snd =
    s.table.exacts.filter fun c => urlHash c.url = k
  tail : s.newestGone = false → r.prefixT = lastOr none (L .fifo)
  tailGone : s.newestGone = true →
    ∃ p, r.prefixT = some p ∧ p < r.heap.fresh ∧ r.heap.cells p = none

theorem sim_init : Sim (Router.init : Router β) .init fun _ => [] where
  lists := ⟨fun _ => rfl, fun _ => List.nodup_nil, fun _ _ _ _ hp => absurd hp List.not_mem_nil⟩
  deflt := rfl
  fifo := rfl
  buckets := fun _ => rfl
  tail := fun _ => rfl
  tailGone := fun h => by cases h

namespace Sim

variable {r : Router β} {s : RefState β} {L : Slot → List (Nat × Cmd β)}

theorem deflt_cases (h : Sim r s L) :
    (L .deflt = [] ∧ s.table.deflt = none ∧ r.header .deflt = none) ∨
      ∃ d c n, L .deflt = [(d, c)] ∧ s.table.deflt = some c.onrpc ∧ r.header .deflt = some d ∧
        r.heap.cells d = some n ∧ n.val = c := by
  have hseg := h.lists.seg .deflt
  have hmap := h.deflt
  cases hd : s.table.deflt with
  | none =>
    rw [hd, Option.toList_none, List.map_eq_nil_iff] at hmap
    rw [hmap] at hseg
    exact Or.inl ⟨hmap, rfl, hseg⟩
  | some b =>
    rw [hd, Option.toList_some, List.map_eq_singleton_iff] at hmap
    obtain ⟨⟨d, c⟩, hL, rfl⟩ := hmap
    rw [hL] at hseg
    obtain ⟨n, hn, hv⟩ := hseg.val List.mem_cons_self
    exact Or.inr ⟨d, c, n, hL, rfl, hseg.1, hn, hv⟩

theorem free_deflt (h : Sim r s L) (heap : Heap (Cmd β))
    (hsame : ∀ p ∈ ids (L .deflt), heap.cells p = r.heap.cells p) :
    ∃ heap', Router.freeOpt heap (r.header .deflt) = some heap' ∧ heap'.fresh = heap.fresh ∧
      ∀ p, p ∉ ids (L .deflt) → heap'.cells p = heap.cells p := by
  rcases h.deflt_cases with ⟨hL, -, hh⟩ | ⟨d, c, n, hL, -, hh, hn, -⟩
  · exact ⟨heap, by rw [hh]; rfl, rfl, fun _ _ => rfl⟩
  · rw [hL] at hsame ⊢
    obtain ⟨heap', e, hc, hf⟩ := Heap.free_eq ((hsame d (by simp)).trans hn)
    refine ⟨heap', by rw [hh]; exact e, hf, fun p hp => ?_⟩
    rw [hc, Function.update_of_ne (fun e => hp (by simp [e]))]

/-- A freed tail pointer stays one under an edit of one list. -/
theorem tailGone_of (h : Sim r s L) (heap : Heap (Cmd β)) (i : Slot) (hgone : s.newestGone = true)
    (hfresh : r.heap.fresh ≤ heap.fresh)
    (hframe : ∀ p, p < r.heap.fresh → p ∉ ids (L i) → heap.cells p = r.heap.cells p) :
    ∃ p, r.prefixT = some p ∧ p < heap.fresh ∧ heap.cells p = none := by
  obtain ⟨p, hp, hlt, hdead⟩ := h.tailGone hgone
  refine ⟨p, hp, Nat.lt_of_lt_of_le hlt hfresh, ?_⟩
  rw [hframe p hlt fun hmem => (h.lists.seg i).live hmem hdead, hdead]

theorem add_deflt (h : Sim r s L) (callback : β) :
    ∃ r' L', r.addMethod [slash] callback = some (r', true) ∧
      Sim r' (s.step (.add [slash] callback)) L' := by
  let c : Cmd β := ⟨[slash].take (pathLen [slash]), callback⟩
  obtain ⟨hnew, -⟩ := (h.lists.seg .deflt).alloc c
  have hcells (p : Nat) (hp : p ≠ r.heap.fresh) : (r.heap.alloc c).1.cells p = r.heap.cells p :=
    Function.update_of_ne hp ..
  obtain ⟨heap', e, hf, hframe⟩ := h.free_deflt (r.heap.alloc c).1
    fun p hp => hcells p (ne_of_mem_of_not_mem hp hnew)
  refine ⟨{ r with heap := heap', header := Function.update r.header .deflt (some r.heap.fresh) },
    Function.update L .deflt [(r.heap.fresh, c)], ?_, ?_⟩
  · have hadd : r.addMethod [slash] callback =
        (Router.freeOpt (r.heap.alloc c).1 (r.header .deflt)).map fun heap =>
          ({ r with heap, header := Function.update r.header .deflt (some r.heap.fresh) }, true) :=
      rfl
    rw [hadd, e]
    rfl
  rw [s.step_add_deflt]
  refine ⟨?_, rfl, h.fifo, h.buckets, h.tail, fun hg => ?_⟩
  · refine h.lists.update .deflt ⟨rfl, none, ?_, rfl⟩ (by simp) ?_ ?_
    · rw [hframe _ hnew]
      exact Function.update_self ..
    · intro p hp
      obtain rfl : p = r.heap.fresh := by simpa using hp
      exact Or.inr (r.heap.unborn _ (Nat.le_refl _))
    · intro p hp hlive
      rw [hframe p hp, hcells p fun e => hlive (e ▸ r.heap.unborn _ (Nat.le_refl _))]
  · refine h.tailGone_of heap' .deflt hg ?_ fun p hlt hp => ?_
    · rw [hf]
      exact Nat.le_succ _
    · rw [hframe p hp, hcells p (by omega)]

theorem addMethod_exact (r : Router β) {url : Bytes} (callback : β)
    (hu : url.head? = some slash) (hd : isDef url = false) (hs : isSubtree url = false) :
    r.addMethod url callback =
      (insertToHeader (r.heap.alloc ⟨url, callback⟩).1 r.heap.fresh
        (r.header (.bucket (urlHash url)))).map fun (heap, header) =>
          ({ r with heap, header := Function.update r.header (.bucket (urlHash url)) header },
            true) := by
  simp only [Router.addMethod, methodUrlOk, hu, hd, hs, take_pathLen_exact hs]
  rfl

theorem add_exact (h : Sim r s L) {url : Bytes} (callback : β) (hu : url.head? = some slash)
    (hd : isDef url = false) (hs : isSubtree url = false) (hne : url ≠ [slash])
    (hsub : ¬ SubtreeUrl url) :
    ∃ r' L', r.addMethod url callback = some (r', true) ∧
      Sim r' (s.step (.add url callback)) L' := by
  let c : Cmd β := ⟨url, callback⟩
  let i := Slot.bucket (urlHash url)
  obtain ⟨hnew, hseg⟩ := (h.lists.seg i).alloc c
  obtain ⟨heap', e, hseg', hf, hframe⟩ := insertToHeader_spec hseg
    (Function.update_self ..) hnew (h.lists.nodup i)
  refine ⟨{ r with heap := heap', header := Function.update r.header i (some r.heap.fresh) },
    Function.update L i ((r.heap.fresh, c) :: L i), ?_, ?_⟩
  · rw [addMethod_exact r callback hu hd hs]
    exact congrArg (Option.map _) e
  rw [s.step_add_exact callback hu hne hsub]
  refine ⟨h.lists.insertFresh hseg' (List.Perm.refl _) hframe, h.deflt, h.fifo, fun k => ?_, h.tail,
    fun hg => ?_⟩
  · by_cases hk : k = urlHash url
    · subst hk
      rw [Function.update_self, List.map_cons, h.buckets]
      simp [c]
    · rw [Function.update_of_ne (by simpa [i] using hk), h.buckets, List.filter_cons_of_neg]
      simpa using Ne.symm hk
  · refine h.tailGone_of heap' i hg ?_ fun p hlt hp => ?_
    · rw [hf]
      exact Nat.le_succ _
    · rw [hframe p (by omega) hp]
      exact Function.update_of_ne (by omega) ..

theorem addMethod_subtree (r : Router β) {url : Bytes} (callback : β)
    (hu : url.head? = some slash) (hd : isDef url = false) (hs : isSubtree url = true) :
    r.addMethod url callback =
      (insertToFifo (r.heap.alloc ⟨url.dropLast, callback⟩).1 r.heap.fresh (r.header .fifo)
        r.prefixT).map fun (heap, header, tail) =>
          (⟨heap, Function.update r.header .fifo header, tail⟩, true) := by
  simp only [Router.addMethod, methodUrlOk, hu, hd, hs, take_pathLen_subtree hs]
  rfl

/-- A new subtree rule goes to the end of the FIFO, whose tail is the newest rule. -/
theorem add_subtree (h : Sim r s L) {url : Bytes} (callback : β) (hd : isDef url = false)
    (hs : isSubtree url = true) (hsub : SubtreeUrl url) (hkept : s.newestGone = false) :
    ∃ r' L', r.addMethod url callback = some (r', true) ∧
      Sim r' (s.step (.add url callback)) L' := by
  let c : Cmd β := ⟨url.dropLast, callback⟩
  obtain ⟨hnew, hseg⟩ := (h.lists.seg .fifo).alloc c
  obtain ⟨heap', header', e, hseg', -, hframe⟩ := insertToFifo_spec hseg
    (Function.update_self ..) hnew (h.lists.nodup .fifo)
  rw [← h.tail hkept] at e
  refine ⟨⟨heap', Function.update r.header .fifo header', some r.heap.fresh⟩,
    Function.update L .fifo (L .fifo ++ [(r.heap.fresh, c)]), ?_, ?_⟩
  · rw [addMethod_subtree r callback hsub.1 hd hs]
    exact congrArg (Option.map _) e
  rw [s.step_add_subtree callback hsub]
  refine ⟨h.lists.insertFresh hseg' ?_ hframe, h.deflt, ?_, h.buckets, fun _ => ?_, fun hg => ?_⟩
  · rw [ids_append]
    exact List.perm_append_singleton ..
  · rw [Function.update_self, List.map_append, h.fifo]
    rfl
  · rw [Function.update_self, lastOr_append]
  · cases hg

/-- At a freed tail the registration faults. -/
theorem add_subtree_fault (h : Sim r s L) {url : Bytes} (callback : β) (hd : isDef url = false)
    (hs : isSubtree url = true) (hsub : SubtreeUrl url) (hgone : s.newestGone = true) :
    r.addMethod url callback = none := by
  obtain ⟨p, hp, hlt, hdead⟩ := h.tailGone hgone
  have hne : p ≠ r.heap.fresh := by omega
  have hdead' : (r.heap.alloc ⟨url.dropLast, callback⟩).1.cells p = none := by
    rw [← hdead]
    exact Function.update_of_ne hne ..
  rw [addMethod_subtree r callback hsub.1 hd hs, hp, insertToFifo_dead hdead' hne]
  rfl

theorem remove_deflt (h : Sim r s L) :
    ∃ r' L', r.removeMethod [slash] = some r' ∧ Sim r' (s.step (.remove [slash])) L' := by
  obtain ⟨heap', e, hf, hframe⟩ := h.free_deflt r.heap fun _ _ => rfl
  refine ⟨{ r with heap := heap', header := Function.update r.header .deflt none },
    Function.update L .deflt [], ?_, ?_⟩
  · have hrem : r.removeMethod [slash] = (Router.freeOpt r.heap (r.header .deflt)).map fun heap =>
        { r with heap, header := Function.update r.header .deflt none } := rfl
    rw [hrem, e]
    rfl
  rw [s.step_remove_deflt]
  refine ⟨?_, rfl, h.fifo, h.buckets, h.tail, fun hg => ?_⟩
  · exact h.lists.update .deflt rfl List.nodup_nil (fun p hp => absurd hp List.not_mem_nil)
      fun p hp _ => hframe p hp
  · exact h.tailGone_of heap' .deflt hg (Nat.le_of_eq hf.symm) fun p _ hp => hframe p hp

theorem removeMethod_list (r : Router β) {url : Bytes} (hu : url.head? = some slash)
    (hd : isDef url = false) :
    r.removeMethod url =
      (r.heap.find (fun c => decide (c.url = url.take (pathLen url))) r.heap.fresh
        (r.header (Router.listOf url))).bind fun
        | none => some r
        | some cmd =>
          (deleteFromList r.heap cmd (r.header (Router.listOf url))).bind fun (heap, header) =>
            (heap.free cmd).map fun heap =>
              { r with heap, header := Function.update r.header (Router.listOf url) header } := by
  simp only [Router.removeMethod, methodUrlOk, hu, hd]
  rfl

/-- A removal from a list: nothing, or the first rule with the path goes and its node is freed. -/
theorem remove_list (h : Sim r s L) {url : Bytes} (hu : url.head? = some slash)
    (hd : isDef url = false) :
    let i := Router.listOf url
    let path := url.take (pathLen url)
    (r.removeMethod url = some r ∧ ∀ x ∈ L i, x.2.url ≠ path) ∨
    ∃ l₁ p c l₂ heap' header', L i = l₁ ++ (p, c) :: l₂ ∧ c.url = path ∧
      (∀ x ∈ l₁, x.2.url ≠ path) ∧
      r.removeMethod url =
        some { r with heap := heap', header := Function.update r.header i header' } ∧
      Lists heap' (Function.update r.header i header') (Function.update L i (l₁ ++ l₂)) ∧
      heap'.cells p = none ∧ heap'.fresh = r.heap.fresh ∧
      ∀ q, q ∉ ids (L i) → heap'.cells q = r.heap.cells q := by
  intro i path
  have hseg := h.lists.seg i
  have hfind := Heap.find_seg (fun c => decide (c.url = path)) hseg
    (length_le_fresh hseg (h.lists.nodup i))
  rw [removeMethod_list r hu hd, show Router.listOf url = i from rfl, hfind]
  cases hx : (L i).find? fun x => decide (x.2.url = path) with
  | none =>
    refine Or.inl ⟨rfl, fun x hmem => ?_⟩
    simpa using List.find?_eq_none.1 hx x hmem
  | some x =>
    obtain ⟨p, c⟩ := x
    obtain ⟨hc, l₁, l₂, hL, hbefore⟩ := List.find?_eq_some_iff_append.1 hx
    obtain ⟨h₁, h₂, header', e₁, e₂, hlists, hdead, hfresh, hframe⟩ :=
      lists_deleteFromList h.lists hL
    refine Or.inr ⟨l₁, p, c, l₂, h₂, header', hL, by simpa using hc, fun x hmem => ?_, ?_, hlists,
      hdead, hfresh, hframe⟩
    · simpa using hbefore x hmem
    · simp [e₁, e₂]

theorem eraseP_first {A B : List (Cmd β)} {c : Cmd β} {path : Bytes} (hc : c.url = path)
    (hA : ∀ a ∈ A, a.url ≠ path) : (A ++ c :: B).eraseP (fun c => c.url = path) = A ++ B := by
  rw [List.eraseP_append_right _ (by simpa using hA), List.eraseP_cons_of_pos (by simp [hc])]

/-- The first rule with the path is the newest one if nothing follows it. -/
theorem takesNewest_iff {A B : List (Cmd β)} {c : Cmd β} {url : Bytes} (hsub : SubtreeUrl url)
    (hs : s.table.subtrees = A ++ c :: B) (hc : c.url = url.dropLast)
    (hA : ∀ a ∈ A, a.url ≠ url.dropLast) : s.TakesNewest url ↔ B = [] := by
  unfold RefState.TakesNewest
  rw [hs]
  constructor
  · rintro ⟨-, -, hold⟩
    by_contra hB
    refine hold c ?_ hc
    rw [List.dropLast_append_of_ne_nil (by simp), List.dropLast_cons_of_ne_nil hB]
    simp
  · rintro rfl
    refine ⟨hsub, by simp [hc], ?_⟩
    rw [List.dropLast_append_cons, List.dropLast_singleton, List.append_nil]
    exact hA

theorem remove_subtree (h : Sim r s L) {url : Bytes} (hd : isDef url = false)
    (hs : isSubtree url = true) (hsub : SubtreeUrl url) :
    ∃ r' L', r.removeMethod url = some r' ∧ Sim r' (s.step (.remove url)) L' := by
  have hi : Router.listOf url = .fifo := if_pos hs
  have hpath := take_pathLen_subtree hs
  rw [s.step_remove_subtree hsub]
  rcases h.remove_list hsub.1 hd with ⟨e, hno⟩ |
    ⟨l₁, p, c, l₂, heap', header', hL, hc, hbefore, e, hlists, hdead, hf, hframe⟩
  · -- No rule has the path, and so the newest one does not have it either.
    rw [hi, hpath] at hno
    have hno' : ∀ c ∈ s.table.subtrees, c.url ≠ url.dropLast := by
      intro c hmem
      rw [← h.fifo] at hmem
      obtain ⟨x, hx, rfl⟩ := List.mem_map.1 hmem
      exact hno x hx
    have htake : ¬ s.TakesNewest url := by
      rintro ⟨-, hlast, -⟩
      rw [Option.any_eq_true] at hlast
      obtain ⟨c, hmem, hc⟩ := hlast
      exact hno' c (List.mem_of_getLast? hmem) (by simpa using hc)
    rw [if_neg htake, List.eraseP_of_forall_not (by simpa using hno')]
    exact ⟨r, L, e, h⟩
  · rw [hi] at hL hlists hframe e
    rw [hpath] at hc hbefore
    have hfifo := h.fifo
    rw [hL, List.map_append, List.map_cons] at hfifo
    have hA : ∀ a ∈ l₁.map Prod.snd, a.url ≠ url.dropLast := by
      intro a hmem
      obtain ⟨x, hx, rfl⟩ := List.mem_map.1 hmem
      exact hbefore x hx
    have htake := takesNewest_iff hsub hfifo.symm hc hA
    refine ⟨_, _, e, hlists, h.deflt, ?_, h.buckets, fun hg => ?_, fun hg => ?_⟩
    · rw [Function.update_self, ← hfifo, eraseP_first hc hA, List.map_append]
    · -- Something follows the removed node, so the last node stays.
      rw [Function.update_self]
      by_cases ht : s.TakesNewest url
      · simp only [if_pos ht] at hg
        cases hg
      · simp only [if_neg ht] at hg
        rw [htake, List.map_eq_nil_iff] at ht
        obtain ⟨y, ys, rfl⟩ := List.exists_cons_of_ne_nil ht
        rw [h.tail hg, hL, lastOr_append_cons, lastOr_append_cons]
        rfl
    · -- If the newest rule goes, the tail pointer stays at the node that was freed.
      by_cases ht : s.TakesNewest url
      · cases hgone : s.newestGone with
        | true => exact h.tailGone_of heap' .fifo hgone (Nat.le_of_eq hf.symm) fun q _ => hframe q
        | false =>
          rw [htake, List.map_eq_nil_iff] at ht
          subst ht
          refine ⟨p, ?_, ?_, hdead⟩
          · rw [h.tail hgone, hL, lastOr_append]
          · obtain ⟨n, hn⟩ := Option.ne_none_iff_exists'.1
              ((h.lists.seg .fifo).live (p := p) (by simp [hL]))
            exact hf ▸ Heap.lt_fresh hn
      · simp only [if_neg ht] at hg
        exact h.tailGone_of heap' .fifo hg (Nat.le_of_eq hf.symm) fun q _ => hframe q

/-- Removing a rule from its bucket and filtering a bucket out of the rules commute. -/
theorem filter_eraseP (exacts : List (Cmd β)) (url : Bytes) (k : Nat) :
    (exacts.eraseP fun c => c.url = url).filter (fun c => urlHash c.url = k) =
      if k = urlHash url then
        (exacts.filter fun c => urlHash c.url = k).eraseP fun c => c.url = url
      else exacts.filter fun c => urlHash c.url = k := by
  induction exacts with
  | nil => split_ifs <;> rfl
  | cons c cs ih =>
    by_cases hc : c.url = url
    · rw [List.eraseP_cons_of_pos (by simp [hc])]
      split_ifs with hk
      · rw [List.filter_cons_of_pos (by simp [hc, hk]), List.eraseP_cons_of_pos (by simp [hc])]
      · rw [List.filter_cons_of_neg (by simp [hc, Ne.symm hk])]
    · rw [List.eraseP_cons_of_neg (by simp [hc])]
      by_cases hk : urlHash c.url = k
      · rw [List.filter_cons_of_pos (by simp [hk]), List.filter_cons_of_pos (by simp [hk]), ih,
          List.eraseP_cons_of_neg (by simp [hc])]
        split_ifs <;> rfl
      · rw [List.filter_cons_of_neg (by simp [hk]), List.filter_cons_of_neg (by simp [hk]), ih]

theorem remove_exact (h : Sim r s L) {url : Bytes} (hu : url.head? = some slash)
    (hd : isDef url = false) (hs : isSubtree url = false) (hne : url ≠ [slash])
    (hsub : ¬ SubtreeUrl url) :
    ∃ r' L', r.removeMethod url = some r' ∧ Sim r' (s.step (.remove url)) L' := by
  have hi : Router.listOf url = .bucket (urlHash url) := if_neg (by simp [hs])
  have hpath := take_pathLen_exact hs
  have hb := h.buckets (urlHash url)
  rw [s.step_remove_exact hu hne hsub]
  rcases h.remove_list hu hd with ⟨e, hno⟩ |
    ⟨l₁, p, c, l₂, heap', header', hL, hc, hbefore, e, hlists, -, hf, hframe⟩
  · rw [hi, hpath] at hno
    have hno' : ∀ c ∈ s.table.exacts, ¬ c.url = url := by
      intro c hmem hc
      have hin : c ∈ s.table.exacts.filter fun c => urlHash c.url = urlHash url :=
        List.mem_filter.2 ⟨hmem, by simp [hc]⟩
      rw [← hb] at hin
      obtain ⟨x, hx, rfl⟩ := List.mem_map.1 hin
      exact hno x hx hc
    rw [List.eraseP_of_forall_not (by simpa using hno')]
    exact ⟨r, L, e, h⟩
  · rw [hi] at hL hlists hframe e
    rw [hpath] at hc hbefore
    rw [hL, List.map_append, List.map_cons] at hb
    have hA : ∀ a ∈ l₁.map Prod.snd, a.url ≠ url := by
      intro a hmem
      obtain ⟨x, hx, rfl⟩ := List.mem_map.1 hmem
      exact hbefore x hx
    refine ⟨_, _, e, hlists, h.deflt, h.fifo, fun k => ?_, h.tail, fun hg => ?_⟩
    · -- The rule goes from its own bucket and from no other.
      simp only [filter_eraseP]
      by_cases hk : k = urlHash url
      · subst hk
        rw [Function.update_self, if_pos rfl, ← hb, eraseP_first hc hA, List.map_append]
      · rw [Function.update_of_ne (by simpa using hk), if_neg hk, h.buckets]
    · exact h.tailGone_of heap' _ hg (Nat.le_of_eq hf.symm) fun q _ => hframe q

/-- **One operation.** A step whose subtree rule comes while the newest one is there is matched by
the reference; otherwise it faults. -/
theorem step_iff (h : Sim r s L) (op : RouterOp β) :
    (s.NewestKept op → ∃ r' L', r.step op = some r' ∧ Sim r' (s.step op) L') ∧
      (¬ s.NewestKept op → r.step op = none) := by
  cases op with
  | add url callback =>
    simp only [RefState.NewestKept, Router.step]
    by_cases hu : url.head? = some slash
    · -- A url is the default, a subtree or an exact rule.
      rcases url_cases hu with ⟨-, rfl⟩ | ⟨hd, hs, hsub⟩ | ⟨hd, hs, hne, hsub⟩
      · obtain ⟨r', L', e, h'⟩ := h.add_deflt callback
        exact ⟨fun _ => ⟨r', L', by rw [e]; rfl, h'⟩,
          fun hno => (hno fun hs => (hs.2.1 rfl).elim).elim⟩
      · cases hg : s.newestGone with
        | false =>
          obtain ⟨r', L', e, h'⟩ := h.add_subtree callback hd hs hsub hg
          exact ⟨fun _ => ⟨r', L', by rw [e]; rfl, h'⟩, fun hno => (hno fun _ => rfl).elim⟩
        | true =>
          refine ⟨fun hk => absurd (hk hsub) (by simp), fun _ => ?_⟩
          rw [h.add_subtree_fault callback hd hs hsub hg]
          rfl
      · obtain ⟨r', L', e, h'⟩ := h.add_exact callback hu hd hs hne hsub
        exact ⟨fun _ => ⟨r', L', by rw [e]; rfl, h'⟩,
          fun hno => (hno fun hs => (hsub hs).elim).elim⟩
    · have hok : methodUrlOk url = false := by simp [methodUrlOk, hu]
      refine ⟨fun _ => ⟨r, L, by rw [Router.addMethod, hok]; rfl, ?_⟩,
        fun hno => (hno fun hs => (hu hs.1).elim).elim⟩
      rw [s.step_add_invalid callback hu]
      exact h
  | remove url =>
    refine ⟨fun _ => ?_, fun hno => (hno trivial).elim⟩
    by_cases hu : url.head? = some slash
    · rcases url_cases hu with ⟨-, rfl⟩ | ⟨hd, hs, hsub⟩ | ⟨hd, hs, hne, hsub⟩
      · exact h.remove_deflt
      · exact h.remove_subtree hd hs hsub
      · exact h.remove_exact hu hd hs hne hsub
    · have hok : methodUrlOk url = false := by simp [methodUrlOk, hu]
      refine ⟨r, L, by rw [Router.step, Router.removeMethod, hok]; rfl, ?_⟩
      rw [s.step_remove_invalid hu]
      exact h

/-- A walk over a slot finds what the reference finds in its rules, in a live node. -/
theorem find_slot (h : Sim r s L) (i : Slot) (f : Cmd β → Bool) :
    ∃ res : Option (Nat × Cmd β),
      r.heap.find f r.heap.fresh (r.header i) = some (res.map Prod.fst) ∧
      ((L i).map Prod.snd).find? f = res.map Prod.snd ∧
      ∀ x ∈ res, ∃ n, r.heap.cells x.1 = some n ∧ n.val = x.2 := by
  refine ⟨(L i).find? fun x => f x.2, ?_, ?_, fun x hx => ?_⟩
  · exact Heap.find_seg f (h.lists.seg i) (length_le_fresh (h.lists.seg i) (h.lists.nodup i))
  · rw [List.find?_map]
    rfl
  · exact (h.lists.seg i).val (List.mem_of_find?_eq_some hx)

theorem find_bucket (exacts : List (Cmd β)) (url : Bytes) :
    (exacts.filter fun c => urlHash c.url = urlHash url).find? (fun c => c.url = url) =
      exacts.find? fun c => c.url = url := by
  rw [List.find?_filter]
  congr 1
  funext c
  by_cases hc : c.url = url <;> simp [hc]

/-- **Requests.** Tables in simulation answer alike. -/
theorem handler_eq (h : Sim r s L) (url : Bytes) : r.handler url = some (s.table.lookup url) := by
  obtain ⟨e, he, hef, hev⟩ :=
    h.find_slot (.bucket (urlHash url)) fun c => decide (c.url = url)
  obtain ⟨t, ht, htf, htv⟩ := h.find_slot .fifo fun c => Router.subtreeMatch c.url url
  rw [h.buckets, find_bucket] at hef
  have hmatch : (fun c : Cmd β => Router.subtreeMatch c.url url) =
      fun c => decide (c.url = url ∨ c.url ++ [slash] <+: url) := by
    funext c
    rw [Bool.eq_iff_iff, subtreeMatch_iff, decide_eq_true_eq]
  rw [h.fifo, hmatch] at htf
  simp only [Router.handler, Router.cmdMatch, RefRouter.lookup, he, hef, htf]
  cases e with
  | some x =>
    obtain ⟨n, hn, hv⟩ := hev x rfl
    simp [hn, hv]
  | none =>
    simp only [Option.map_none, Option.bind_some, ht]
    cases t with
    | some x =>
      obtain ⟨n, hn, hv⟩ := htv x rfl
      simp [hn, hv]
    | none =>
      rcases h.deflt_cases with ⟨-, hd, hh⟩ | ⟨d, c, n, -, hd, hh, hn, hv⟩
      · simp [hd, hh]
      · simp [hd, hh, hn, hv]

/-- **Runs.** A run is matched to its end if every step keeps the newest rule, else it faults. -/
theorem run_iff (h : Sim r s L) (ops : List (RouterOp β)) :
    (Runs.EachStep RefState.step RefState.NewestKept s ops →
      ∃ r' L', r.run ops = some r' ∧ Sim r' (Runs.run RefState.step s ops) L') ∧
    (¬ Runs.EachStep RefState.step RefState.NewestKept s ops → r.run ops = none) := by
  induction ops generalizing r s L with
  | nil => exact ⟨fun _ => ⟨r, L, rfl, h⟩, fun hno => absurd Runs.eachStep_nil hno⟩
  | cons op ops ih =>
    rw [Runs.eachStep_cons]
    obtain ⟨hgood, hbad⟩ := h.step_iff op
    by_cases hop : s.NewestKept op
    · obtain ⟨r', L', e, h'⟩ := hgood hop
      obtain ⟨igood, ibad⟩ := ih h'
      rw [Router.run, e]
      exact ⟨fun hk => igood hk.2, fun hno => ibad fun hk => hno ⟨hop, hk⟩⟩
    · refine ⟨fun hk => absurd hk.1 hop, fun _ => ?_⟩
      rw [Router.run, hbad hop]
      rfl

end Sim

/-- **When the tables agree.** After a sequence of registrations and removals on a new server the
code's table is intact and answers every request as the reference's does, exactly when every
subtree rule was registered while the newest subtree rule before it was still there. -/
theorem handler_iff_newestKept (ops : List (RouterOp β)) :
    (∃ r, Router.init.run ops = some r ∧
      ∀ url, r.handler url = some ((Runs.run RefState.step .init ops).table.lookup url)) ↔
    Runs.EachStep RefState.step RefState.NewestKept .init ops := by
  obtain ⟨hgood, hbad⟩ := sim_init.run_iff ops
  constructor
  · rintro ⟨r, hr, -⟩
    by_contra hno
    rw [hbad hno] at hr
    cases hr
  · intro hk
    obtain ⟨r, L, hr, h⟩ := hgood hk
    exact ⟨r, hr, h.handler_eq⟩

/-- Register `/a/` and `/b/`, remove `/b/`, register `/c/`: the tail points to the freed rule of
`/b/`, the last registration writes to it, and a request for `/c/x` that the reference answers is
lost. -/
theorem newest_removed_then_added :
    let a : Bytes := [47, 97, 47]
    let b : Bytes := [47, 98, 47]
    let c : Bytes := [47, 99, 47]
    let ops : List (RouterOp Nat) := [.add a 1, .add b 2, .remove b, .add c 3]
    ((Router.init.run (ops.take 3)).map fun r => (r.prefixT, (r.heap.cells 1).isNone)) =
        some (some 1, true) ∧
      ¬ (∃ r, Router.init.run ops = some r ∧
        ∀ url, r.handler url = some ((Runs.run RefState.step .init ops).table.lookup url)) ∧
      (Runs.run RefState.step .init ops).table.lookup [47, 99, 47, 120] = some 3 := by
  refine ⟨by decide, ?_, by decide⟩
  rintro ⟨r, hr, -⟩
  have hfault : (Router.init.run ([.add [47, 97, 47] 1, .add [47, 98, 47] 2, .remove [47, 98, 47],
      .add [47, 99, 47] 3] : List (RouterOp Nat))).isNone = true := by decide
  rw [hr] at hfault
  cases hfault

end Ssn
