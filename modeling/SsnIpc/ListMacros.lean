import SsnIpc.Lib.Dll

/-!
# The list macros

`src/ssn_list.h` edits doubly linked lists in place with macros. They are modelled statement by
statement over a heap of nodes, `none` being an access to a node that was freed.

**Theorem (`deleteFromList_spec`).** `DELETE_FROM_LIST` yields the list without the node. It knows
nothing of a tail pointer: a FIFO whose last node goes this way keeps a tail that points to it.

**Theorem (`insertToFifo_dead`).** `INSERT_TO_FIFO` at such a tail, once its node is freed,
accesses freed memory.
-/

namespace Ssn

open Dll

variable {α : Type*}

/-! ## The macros -/

/-- `INSERT_TO_HEADER(node, header)`. -/
def insertToHeader (h : Heap α) (node : Nat) (header : Option Nat) :
    Option (Heap α × Option Nat) := do
  let h ← h.modify node fun n => { n with next := header, prev := none }
  let h ← h.modifyOpt header fun n => { n with prev := some node }
  return (h, some node)

/-- `DELETE_FROM_LIST(node, header)`. -/
def deleteFromList (h : Heap α) (node : Nat) (header : Option Nat) :
    Option (Heap α × Option Nat) := do
  let n ← h.cells node
  let h ← h.modifyOpt n.next fun m => { m with prev := n.prev }
  let n ← h.cells node
  let h ← h.modifyOpt n.prev fun m => { m with next := n.next }
  let header := if n.prev = none then n.next else header
  let h ← h.modify node fun m => { m with next := none, prev := none }
  return (h, header)

/-- `INSERT_TO_FIFO(node, header, tail)`: the new header and the new tail. -/
def insertToFifo (h : Heap α) (node : Nat) (header tail : Option Nat) :
    Option (Heap α × Option Nat × Option Nat) := do
  let h ← h.modify node fun n => { n with next := none, prev := tail }
  let h ← h.modifyOpt tail fun m => { m with next := some node }
  return (h, if header = none then some node else header, some node)

/-! ## What they do to a list -/

section Specs

variable {h : Heap α} {node : Nat} {header : Option Nat} {xs ys : List (Nat × α)}

theorem insertToHeader_spec {n : Node α} (hseg : Seg h.cells none header xs none)
    (hn : h.cells node = some n) (hnew : node ∉ ids xs) (hnd : (ids xs).Nodup) :
    ∃ h', insertToHeader h node header = some (h', some node) ∧
      Seg h'.cells none (some node) ((node, n.val) :: xs) none ∧ h'.fresh = h.fresh ∧
      ∀ p, p ≠ node → p ∉ ids xs → h'.cells p = h.cells p := by
  obtain ⟨h₁, e₁, c₁, f₁⟩ := Heap.modify_eq hn fun n => { n with next := header, prev := none }
  unfold insertToHeader
  rw [e₁]
  cases xs with
  | nil =>
    obtain rfl : header = none := hseg
    refine ⟨h₁, rfl, ⟨rfl, none, ?_, rfl⟩, f₁, fun p hp _ => ?_⟩
    · rw [c₁, Function.update_self]
    · rw [c₁, Function.update_of_ne hp]
  | cons x xs =>
    obtain ⟨q, w⟩ := x
    obtain rfl : header = some q := hseg.1
    have hqn : q ≠ node := fun e => hnew (by simp [e])
    have hseg₁ : Seg h₁.cells none (some q) ((q, w) :: xs) none := hseg.congr fun r hr => by
      rw [c₁, Function.update_of_ne (ne_of_mem_of_not_mem hr hnew)]
    obtain ⟨m, hm⟩ := Option.ne_none_iff_exists'.1 (hseg₁.live (p := q) (by simp))
    obtain ⟨h₂, e₂, c₂, f₂⟩ := Heap.modify_eq hm fun n => { n with prev := some node }
    refine ⟨h₂, by simp [Heap.modifyOpt, e₂], ⟨rfl, some q, ?_, ?_⟩, f₂.trans f₁,
      fun p hp hpx => ?_⟩
    · rw [c₂, Function.update_of_ne hqn.symm, c₁, Function.update_self]
    · rw [c₂]
      exact hseg₁.relinkFirst (some node) hnd hm
    · rw [c₂, Function.update_of_ne (fun e => hpx (by simp [e])), c₁, Function.update_of_ne hp]

theorem insertToFifo_spec {n : Node α} (hseg : Seg h.cells none header xs none)
    (hn : h.cells node = some n) (hnew : node ∉ ids xs) (hnd : (ids xs).Nodup) :
    ∃ h' header', insertToFifo h node header (lastOr none xs) = some (h', header', some node) ∧
      Seg h'.cells none header' (xs ++ [(node, n.val)]) none ∧ h'.fresh = h.fresh ∧
      ∀ p, p ≠ node → p ∉ ids xs → h'.cells p = h.cells p := by
  obtain ⟨h₁, e₁, c₁, f₁⟩ :=
    Heap.modify_eq hn fun n => { n with next := none, prev := lastOr none xs }
  unfold insertToFifo
  rw [e₁]
  -- An empty list gets a header; otherwise the last node is linked to the new one.
  rcases List.eq_nil_or_concat xs with rfl | ⟨zs, ⟨r, w⟩, rfl⟩
  · obtain rfl : header = none := hseg
    refine ⟨h₁, some node, rfl, ⟨rfl, none, ?_, rfl⟩, f₁, fun p hp _ => ?_⟩
    · rw [c₁, Function.update_self]
      rfl
    · rw [c₁, Function.update_of_ne hp]
  · rw [List.concat_eq_append] at *
    have hne : header ≠ none := by
      rintro rfl
      cases zs with
      | nil => cases hseg.1
      | cons z zs => cases hseg.1
    have hrn : r ≠ node := fun e => hnew (by simp [e])
    have hseg₁ : Seg h₁.cells none header (zs ++ [(r, w)]) none := hseg.congr fun q hq => by
      rw [c₁, Function.update_of_ne (ne_of_mem_of_not_mem hq hnew)]
    obtain ⟨m, hm⟩ := Option.ne_none_iff_exists'.1 (hseg₁.live (p := r) (by simp))
    obtain ⟨h₂, e₂, c₂, f₂⟩ := Heap.modify_eq hm fun m => { m with next := some node }
    refine ⟨h₂, header, by simp [Heap.modifyOpt, e₂, hne],
      seg_append.2 ⟨some node, ?_, rfl, none, ?_, rfl⟩,
      f₂.trans f₁, fun p hp hpx => ?_⟩
    · rw [c₂]
      exact hseg₁.relinkLast (some node) hnd hm
    · rw [c₂, Function.update_of_ne hrn.symm, c₁, Function.update_self]
    · rw [c₂, Function.update_of_ne (fun e => hpx (by simp [e])), c₁, Function.update_of_ne hp]

/-- A tail that points to a freed node makes the insertion fault. -/
theorem insertToFifo_dead {tail : Nat} (htail : h.cells tail = none) (hne : tail ≠ node) :
    insertToFifo h node header (some tail) = none := by
  unfold insertToFifo
  cases hn : h.cells node with
  | none => rw [Heap.modify_dead hn]; rfl
  | some n =>
    obtain ⟨h₁, e₁, c₁, -⟩ :=
      Heap.modify_eq hn fun n => { n with next := none, prev := some tail }
    rw [e₁]
    have hdead : h₁.cells tail = none := by rw [c₁, Function.update_of_ne hne, htail]
    simp [Heap.modifyOpt, Heap.modify_dead hdead]

/-- First half of an unlink: the nodes behind it get its predecessor. -/
theorem unlink_next {v : α} (hseg : Seg h.cells none header (xs ++ (node, v) :: ys) none)
    (hnd : (ids (xs ++ (node, v) :: ys)).Nodup) :
    ∃ next h', h.cells node = some ⟨next, lastOr none xs, v⟩ ∧
      (h.modifyOpt next fun m => { m with prev := lastOr none xs }) = some h' ∧
      Seg h'.cells none header xs (some node) ∧ h'.cells node = h.cells node ∧
      Seg h'.cells (lastOr none xs) next ys none ∧ h'.fresh = h.fresh ∧
      ∀ p, p ∉ ids ys → h'.cells p = h.cells p := by
  obtain ⟨mid, hx, rfl, next, hc, hy⟩ := seg_append.1 hseg
  cases ys with
  | nil =>
    obtain rfl : next = none := hy
    exact ⟨none, h, hc, rfl, hx, rfl, rfl, rfl, fun _ _ => rfl⟩
  | cons y ys =>
    obtain ⟨q, w⟩ := y
    obtain rfl : next = some q := hy.1
    rw [ids_append, ids_cons, List.nodup_append, List.nodup_cons] at hnd
    obtain ⟨-, ⟨hnode, hndy⟩, hdisj⟩ := hnd
    obtain ⟨m, hm⟩ := Option.ne_none_iff_exists'.1 (hy.live (p := q) (by simp))
    obtain ⟨h₁, e₁, c₁, f₁⟩ := Heap.modify_eq hm fun m => { m with prev := lastOr none xs }
    refine ⟨some q, h₁, hc, e₁, hx.congr fun r hr => ?_, ?_, ?_, f₁, fun p hp => ?_⟩
    · rw [c₁, Function.update_of_ne (hdisj r hr q (by simp))]
    · rw [c₁, Function.update_of_ne (fun e => hnode (by simp [e]))]
    · rw [c₁]
      exact hy.relinkFirst _ hndy hm
    · rw [c₁, Function.update_of_ne (fun e => hp (by simp [e]))]

/-- **Unlinking a node yields the list without it.** -/
theorem deleteFromList_spec {v : α} (hseg : Seg h.cells none header (xs ++ (node, v) :: ys) none)
    (hnd : (ids (xs ++ (node, v) :: ys)).Nodup) :
    ∃ h' header', deleteFromList h node header = some (h', header') ∧
      Seg h'.cells none header' (xs ++ ys) none ∧ h'.cells node = some ⟨none, none, v⟩ ∧
      h'.fresh = h.fresh ∧ ∀ p, p ∉ ids (xs ++ (node, v) :: ys) → h'.cells p = h.cells p := by
  obtain ⟨next, h₁, hc, e₁, hx, hn₁, hy, f₁, fr₁⟩ := unlink_next hseg hnd
  unfold deleteFromList
  simp only [hc, Option.bind_eq_bind, Option.bind_some, e₁, hn₁]
  have hnd' := hnd
  rw [ids_append, ids_cons, List.nodup_append, List.nodup_cons] at hnd'
  obtain ⟨hndx, ⟨hnode, hndy⟩, hdisj⟩ := hnd'
  -- The second half depends on whether the node is the first.
  rcases List.eq_nil_or_concat xs with rfl | ⟨zs, ⟨r, w⟩, rfl⟩
  · rw [hc] at hn₁
    obtain ⟨h₂, e₂, c₂, f₂⟩ := Heap.modify_eq hn₁ fun m => { m with next := none, prev := none }
    refine ⟨h₂, next, by simp [Heap.modifyOpt, lastOr, e₂], ?_, ?_, f₂.trans f₁, fun p hp => ?_⟩
    · rw [List.nil_append, c₂]
      exact hy.congr fun q hq => Function.update_of_ne (ne_of_mem_of_not_mem hq hnode) ..
    · rw [c₂, Function.update_self]
    · rw [List.nil_append, ids_cons, List.mem_cons, not_or] at hp
      rw [c₂, Function.update_of_ne hp.1, fr₁ p hp.2]
  · rw [List.concat_eq_append] at *
    have hrn : r ≠ node := hdisj r (by simp) node (by simp)
    rw [lastOr_append] at hc hy ⊢
    obtain ⟨m, hm⟩ := Option.ne_none_iff_exists'.1 (hx.live (p := r) (by simp))
    obtain ⟨h₂, e₂, c₂, f₂⟩ := Heap.modify_eq hm fun m => { m with next := next }
    have hn₂ : h₂.cells node = some ⟨next, some r, v⟩ := by
      rw [c₂, Function.update_of_ne hrn.symm, hn₁, hc]
    obtain ⟨h₃, e₃, c₃, f₃⟩ := Heap.modify_eq hn₂ fun m => { m with next := none, prev := none }
    refine ⟨h₃, header, by simp [Heap.modifyOpt, e₂, e₃], seg_append.2 ⟨next, ?_, ?_⟩, ?_,
      f₃.trans (f₂.trans f₁), fun p hp => ?_⟩
    · rw [c₃, c₂]
      refine (hx.relinkLast next hndx hm).congr fun q hq => ?_
      exact Function.update_of_ne (hdisj q hq node (by simp)) ..
    · rw [lastOr_append, c₃, c₂]
      refine hy.congr fun q hq => ?_
      rw [Function.update_of_ne (ne_of_mem_of_not_mem hq hnode),
        Function.update_of_ne (hdisj r (by simp) q (List.mem_cons_of_mem _ hq)).symm]
    · rw [c₃, Function.update_self]
    · simp only [ids_append, ids_cons, List.mem_append, List.mem_cons, ids_nil, not_or] at hp
      rw [c₃, Function.update_of_ne hp.2.1, c₂, Function.update_of_ne hp.1.2.1, fr₁ p hp.2.2]

theorem insertToHeader_chain {v : α} {ps : List Nat} (hc : Chain h header ps)
    (hv : h.valAt node = some v) (hnew : node ∉ ps) (hnd : ps.Nodup) :
    ∃ h', insertToHeader h node header = some (h', some node) ∧ Chain h' (some node) (node :: ps) ∧
      h'.valAt = h.valAt ∧ h'.fresh = h.fresh := by
  obtain ⟨xs, rfl, hseg⟩ := hc
  obtain ⟨n, hn, rfl⟩ := Option.map_eq_some_iff.1 hv
  obtain ⟨h', e, hseg', hfresh, hframe⟩ := insertToHeader_spec hseg hn hnew hnd
  refine ⟨h', e, ⟨_, rfl, hseg'⟩, funext fun p => ?_, hfresh⟩
  by_cases hp : p = node
  · subst hp
    rw [hseg'.valAt List.mem_cons_self, hv]
  · by_cases hx : p ∈ ids xs
    · obtain ⟨⟨q, w⟩, hmem, rfl⟩ := List.mem_map.1 hx
      rw [hseg.valAt hmem, hseg'.valAt (List.mem_cons_of_mem _ hmem)]
    · rw [Heap.valAt, hframe p hp hx, Heap.valAt]

theorem deleteFromList_chain {ps qs : List Nat} (hc : Chain h header (ps ++ node :: qs))
    (hnd : (ps ++ node :: qs).Nodup) :
    ∃ h' header', deleteFromList h node header = some (h', header') ∧
      Chain h' header' (ps ++ qs) ∧ h'.valAt = h.valAt ∧ h'.fresh = h.fresh := by
  obtain ⟨xs, hids, hseg⟩ := hc
  obtain ⟨as, bs, rfl, rfl, hbs⟩ := List.map_eq_append_iff.1 hids
  obtain ⟨⟨node, v⟩, cs, rfl, rfl, rfl⟩ := List.map_eq_cons_iff.1 hbs
  rw [← hids] at hnd
  obtain ⟨h', header', e, hseg', hnode, hfresh, hframe⟩ := deleteFromList_spec hseg hnd
  refine ⟨h', header', e, ⟨_, ids_append .., hseg'⟩, funext fun p => ?_, hfresh⟩
  by_cases hp : p = node
  · subst hp
    rw [hseg.valAt (p := p) (v := v) (by simp), Heap.valAt, hnode]
    rfl
  · by_cases hx : p ∈ ids (as ++ cs)
    · obtain ⟨⟨q, w⟩, hmem, rfl⟩ := List.mem_map.1 hx
      rw [hseg'.valAt hmem, hseg.valAt (p := q) (v := w) ?_]
      rw [List.mem_append] at hmem ⊢
      exact hmem.imp_right (List.mem_cons_of_mem _)
    · rw [Heap.valAt, hframe p ?_, Heap.valAt]
      simp only [ids_append, ids_cons, List.mem_append, List.mem_cons, not_or] at hx ⊢
      exact ⟨hx.1, hp, hx.2⟩

theorem lists_deleteFromList {ι : Type*} [DecidableEq ι] {headers : ι → Option Nat}
    {L : ι → List (Nat × α)} (hl : Lists h headers L) {i : ι} {v : α}
    (hL : L i = xs ++ (node, v) :: ys) :
    ∃ h₁ h₂ header', deleteFromList h node (headers i) = some (h₁, header') ∧
      h₁.free node = some h₂ ∧
      Lists h₂ (Function.update headers i header') (Function.update L i (xs ++ ys)) ∧
      h₂.cells node = none ∧ h₂.fresh = h.fresh ∧
      ∀ p, p ∉ ids (L i) → h₂.cells p = h.cells p := by
  have hseg := hl.seg i
  have hnd := hl.nodup i
  rw [hL] at hseg hnd
  obtain ⟨h₁, header', e₁, hseg₁, hn, f₁, fr₁⟩ := deleteFromList_spec hseg hnd
  obtain ⟨h₂, e₂, c₂, f₂⟩ := Heap.free_eq hn
  have hsub : ∀ p ∈ ids (xs ++ ys), p ≠ node ∧ p ∈ ids (L i) := by
    intro p hp
    rw [ids_append, ids_cons, List.nodup_append, List.nodup_cons] at hnd
    rw [hL, ids_append, ids_cons]
    rcases List.mem_append.1 (ids_append xs ys ▸ hp) with hp | hp
    · exact ⟨hnd.2.2 p hp node List.mem_cons_self, List.mem_append_left _ hp⟩
    · exact ⟨ne_of_mem_of_not_mem hp hnd.2.1.1, by simp [hp]⟩
  have hframe : ∀ p, p ∉ ids (L i) → h₂.cells p = h.cells p := by
    intro p hp
    have hne : p ≠ node := fun e => hp (by simp [hL, e])
    rw [c₂, Function.update_of_ne hne, fr₁ p (hL ▸ hp)]
  refine ⟨h₁, h₂, header', e₁, e₂, ?_, by rw [c₂, Function.update_self], f₂.trans f₁, hframe⟩
  refine hl.update i ?_ ?_ (fun p hp => Or.inl (hsub p hp).2) fun p hp _ => hframe p hp
  · rw [c₂]
    exact hseg₁.congr fun p hp => Function.update_of_ne (hsub p hp).1 ..
  · rw [ids_append, ids_cons] at hnd
    rw [ids_append]
    exact hnd.sublist (List.Sublist.append_left (List.sublist_cons_self ..) _)

end Specs

end Ssn
