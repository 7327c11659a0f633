import Mathlib.Data.List.Basic
import Mathlib.Data.List.Nodup
import Mathlib.Data.List.Perm.Subperm
import Mathlib.Logic.Function.Basic
import Mathlib.Tactic.Common

/-!
# Intrusive doubly linked lists in a heap

Nodes live in a heap and link to each other by address. A freed node is gone: reading or writing
it is a fault (`none`), and its address is never handed out again. So an operation that returns
has touched live nodes only.

`Seg` says that a stretch of the heap is a list with given elements. It depends on its own nodes
only (`Seg.congr`), splits and joins at any point (`seg_append`), and can be given a new neighbour
at either end by writing one link (`Seg.relinkFirst`, `Seg.relinkLast`): what an edit of a list
does to the heap is put together from these. `Chain` is a list given by its addresses only.
`Lists` is a family of lists in one heap, edited one at a time (`Lists.update`).
-/

namespace Dll

/-! ## The heap -/

/-- A list node: two links and a payload. -/
structure Node (α : Type*) where
  next : Option Nat
  prev : Option Nat
  val : α

/-- A heap of nodes. Addresses from `fresh` on have not been handed out. -/
structure Heap (α : Type*) where
  cells : Nat → Option (Node α)
  fresh : Nat
  unborn : ∀ p, fresh ≤ p → cells p = none

variable {α : Type*}

namespace Heap

def empty : Heap α := ⟨fun _ => none, 0, fun _ _ => rfl⟩

theorem lt_fresh {h : Heap α} {p : Nat} {n : Node α} (hp : h.cells p = some n) : p < h.fresh := by
  by_contra hge
  rw [h.unborn p (by omega)] at hp
  cases hp

/-- Replace the contents of an address that has been handed out. -/
def set (h : Heap α) (p : Nat) (c : Option (Node α)) (hp : p < h.fresh) : Heap α where
  cells := Function.update h.cells p c
  fresh := h.fresh
  unborn := by
    intro q hq
    rw [Function.update_of_ne (by omega)]
    exact h.unborn q hq

/-- A new node with `NULL` links. -/
def alloc (h : Heap α) (v : α) : Heap α × Nat :=
  (⟨Function.update h.cells h.fresh (some ⟨none, none, v⟩), h.fresh + 1, by
    intro q hq
    rw [Function.update_of_ne (by omega)]
    exact h.unborn q (by omega)⟩, h.fresh)

def modify (h : Heap α) (p : Nat) (f : Node α → Node α) : Option (Heap α) :=
  match hp : h.cells p with
  | none => none
  | some n => some (h.set p (some (f n)) (lt_fresh hp))

/-- Write to a node through a pointer that may be `NULL`. -/
def modifyOpt (h : Heap α) (p : Option Nat) (f : Node α → Node α) : Option (Heap α) :=
  match p with
  | none => some h
  | some q => h.modify q f

def free (h : Heap α) (p : Nat) : Option (Heap α) :=
  match hp : h.cells p with
  | none => none
  | some _ => some (h.set p none (lt_fresh hp))

/-- Walk a list to the first node whose payload meets `f`. -/
def find (h : Heap α) (f : α → Bool) : Nat → Option Nat → Option (Option Nat)
  | _, none => some none
  | 0, some _ => none
  | fuel + 1, some p =>
    match h.cells p with
    | none => none
    | some n => if f n.val then some (some p) else find h f fuel n.next

theorem modify_eq {h : Heap α} {p : Nat} {n : Node α} (hp : h.cells p = some n)
    (f : Node α → Node α) : ∃ h', h.modify p f = some h' ∧
      h'.cells = Function.update h.cells p (some (f n)) ∧ h'.fresh = h.fresh := by
  unfold modify
  split
  · simp_all
  · rename_i m hm
    obtain rfl : n = m := by rw [hp] at hm; exact Option.some.inj hm
    exact ⟨_, rfl, rfl, rfl⟩

theorem modify_dead {h : Heap α} {p : Nat} (hp : h.cells p = none) (f : Node α → Node α) :
    h.modify p f = none := by
  unfold modify
  split <;> simp_all

theorem free_eq {h : Heap α} {p : Nat} {n : Node α} (hp : h.cells p = some n) :
    ∃ h', h.free p = some h' ∧ h'.cells = Function.update h.cells p none ∧
      h'.fresh = h.fresh := by
  unfold free
  split
  · simp_all
  · exact ⟨_, rfl, rfl, rfl⟩

end Heap

/-! ## Lists in the heap -/

/-- From `head` on the heap holds the nodes `xs`, linked both ways; `before` is the node in front
of them and `after` is where the last one points. -/
def Seg (cells : Nat → Option (Node α)) (before head : Option Nat) :
    List (Nat × α) → Option Nat → Prop
  | [], after => head = after
  | (p, v) :: xs, after =>
    head = some p ∧ ∃ next, cells p = some ⟨next, before, v⟩ ∧ Seg cells (some p) next xs after

def ids (xs : List (Nat × α)) : List Nat := xs.map Prod.fst

@[simp] theorem ids_nil : ids ([] : List (Nat × α)) = [] := rfl

@[simp] theorem ids_cons (p : Nat) (v : α) (xs : List (Nat × α)) :
    ids ((p, v) :: xs) = p :: ids xs := rfl

@[simp] theorem ids_append (xs ys : List (Nat × α)) : ids (xs ++ ys) = ids xs ++ ids ys :=
  List.map_append

/-- The address of the last node, or what stood before the list. -/
def lastOr (before : Option Nat) : List (Nat × α) → Option Nat
  | [] => before
  | (p, _) :: xs => lastOr (some p) xs

variable {cells cells' : Nat → Option (Node α)} {before head after : Option Nat}
  {xs ys : List (Nat × α)} {p : Nat} {v : α}

theorem Seg.congr (h : Seg cells before head xs after)
    (heq : ∀ q ∈ ids xs, cells' q = cells q) : Seg cells' before head xs after := by
  induction xs generalizing before head with
  | nil => exact h
  | cons x xs ih =>
    obtain ⟨p, v⟩ := x
    obtain ⟨rfl, next, hp, hrest⟩ := h
    refine ⟨rfl, next, ?_, ih hrest fun q hq => heq q (List.mem_cons_of_mem p hq)⟩
    rw [heq p List.mem_cons_self, hp]

theorem Seg.live (h : Seg cells before head xs after) (hp : p ∈ ids xs) : cells p ≠ none := by
  induction xs generalizing before head with
  | nil => cases hp
  | cons x xs ih =>
    obtain ⟨q, v⟩ := x
    obtain ⟨rfl, next, hq, hrest⟩ := h
    rcases List.mem_cons.1 hp with rfl | hp
    · simp [hq]
    · exact ih hrest hp

theorem Seg.val (h : Seg cells before head xs after) (hp : (p, v) ∈ xs) :
    ∃ n, cells p = some n ∧ n.val = v := by
  induction xs generalizing before head with
  | nil => cases hp
  | cons x xs ih =>
    obtain ⟨q, w⟩ := x
    obtain ⟨rfl, next, hq, hrest⟩ := h
    rcases List.mem_cons.1 hp with heq | hp
    · obtain ⟨rfl, rfl⟩ := Prod.mk.inj heq
      exact ⟨_, hq, rfl⟩
    · exact ih hrest hp

theorem seg_append : Seg cells before head (xs ++ ys) after ↔
    ∃ mid, Seg cells before head xs mid ∧ Seg cells (lastOr before xs) mid ys after := by
  induction xs generalizing before head with
  | nil => simp [Seg, lastOr]
  | cons x xs ih =>
    obtain ⟨p, v⟩ := x
    simp only [List.cons_append, Seg, lastOr, ih]
    constructor
    · rintro ⟨rfl, next, hp, mid, hx, hy⟩
      exact ⟨mid, ⟨rfl, next, hp, hx⟩, hy⟩
    · rintro ⟨mid, ⟨rfl, next, hp, hx⟩, hy⟩
      exact ⟨rfl, next, hp, mid, hx, hy⟩

theorem lastOr_append_cons (x : Nat × α) :
    lastOr before (xs ++ x :: ys) = lastOr (some x.1) ys := by
  induction xs generalizing before with
  | nil => rfl
  | cons y ys ih => exact ih

@[simp] theorem lastOr_append (x : Nat × α) : lastOr before (xs ++ [x]) = some x.1 :=
  lastOr_append_cons x

theorem Seg.relinkFirst {q : Nat} {w : α} {n : Node α} (before' : Option Nat)
    (h : Seg cells before head ((q, w) :: ys) after) (hnd : (ids ((q, w) :: ys)).Nodup)
    (hq : cells q = some n) :
    Seg (Function.update cells q (some { n with prev := before' })) before' head ((q, w) :: ys)
      after := by
  obtain ⟨rfl, next, hc, hrest⟩ := h
  obtain rfl : n = ⟨next, before, w⟩ := by rw [hq] at hc; exact Option.some.inj hc
  refine ⟨rfl, next, Function.update_self .., hrest.congr fun r hr => ?_⟩
  rw [ids_cons, List.nodup_cons] at hnd
  refine Function.update_of_ne ?_ ..
  rintro rfl
  exact hnd.1 hr

theorem Seg.relinkLast {r : Nat} {w : α} {n : Node α} (after' : Option Nat)
    (h : Seg cells before head (xs ++ [(r, w)]) after) (hnd : (ids (xs ++ [(r, w)])).Nodup)
    (hr : cells r = some n) :
    Seg (Function.update cells r (some { n with next := after' })) before head (xs ++ [(r, w)])
      after' := by
  obtain ⟨mid, hx, rfl, next, hc, hnext⟩ := seg_append.1 h
  obtain rfl : n = ⟨next, lastOr before xs, w⟩ := by rw [hr] at hc; exact Option.some.inj hc
  refine seg_append.2 ⟨some r, hx.congr fun q hq => ?_, rfl, after', Function.update_self .., rfl⟩
  rw [ids_append, List.nodup_append] at hnd
  exact Function.update_of_ne (hnd.2.2 q hq r (by simp)) ..

/-! ## Walking a list -/

/-- The walk finds the first element that meets `f`, given steps for the whole list. -/
theorem Heap.find_seg {h : Heap α} (f : α → Bool) {fuel : Nat}
    (hseg : Seg h.cells before head xs none) (hfuel : xs.length ≤ fuel) :
    h.find f fuel head = some ((xs.find? fun x => f x.2).map Prod.fst) := by
  induction xs generalizing before head fuel with
  | nil =>
    obtain rfl : head = none := hseg
    cases fuel <;> rfl
  | cons x xs ih =>
    obtain ⟨p, v⟩ := x
    obtain ⟨rfl, next, hp, hrest⟩ := hseg
    cases fuel with
    | zero => simp at hfuel
    | succ fuel =>
      rw [find, hp]
      by_cases hv : f v = true
      · simp [hv]
      · simp only [hv, if_false, Bool.false_eq_true]
        rw [ih hrest (by simpa using hfuel), List.find?_cons_of_neg (by simpa using hv)]

theorem length_le_fresh {h : Heap α} (hseg : Seg h.cells before head xs after)
    (hnd : (ids xs).Nodup) : xs.length ≤ h.fresh := by
  have hsub : ids xs ⊆ List.range h.fresh := by
    intro p hp
    obtain ⟨n, hn⟩ := Option.ne_none_iff_exists'.1 (hseg.live hp)
    exact List.mem_range.2 (Heap.lt_fresh hn)
  have := (List.Nodup.subperm hnd hsub).length_le
  rwa [List.length_range, ids, List.length_map] at this

theorem Seg.alloc {h : Heap α} (w : α) (hseg : Seg h.cells before head xs after) :
    h.fresh ∉ ids xs ∧ Seg (h.alloc w).1.cells before head xs after := by
  have hnew : h.fresh ∉ ids xs := fun hp => hseg.live hp (h.unborn _ (Nat.le_refl _))
  exact ⟨hnew, hseg.congr fun q hq =>
    Function.update_of_ne (ne_of_mem_of_not_mem hq hnew) ..⟩

/-! ## Lists by address

Where payloads are written while their nodes stay in a list, it is handier to speak of the
addresses of a list and to read payloads from the heap. -/

def Heap.valAt (h : Heap α) (p : Nat) : Option α := (h.cells p).map Node.val

/-- From `head` on the heap holds a list of nodes at the addresses `ps`. -/
def Chain (h : Heap α) (head : Option Nat) (ps : List Nat) : Prop :=
  ∃ xs, ids xs = ps ∧ Seg h.cells none head xs none

section Chain

variable {h : Heap α} {ps : List Nat}

theorem Heap.lt_fresh_of_valAt (hp : h.valAt p = some v) : p < h.fresh := by
  obtain ⟨n, hn, -⟩ := Option.map_eq_some_iff.1 hp
  exact lt_fresh hn

theorem Seg.valAt (hseg : Seg h.cells before head xs after) (hp : (p, v) ∈ xs) :
    h.valAt p = some v := by
  obtain ⟨n, hn, hv⟩ := hseg.val hp
  rw [Heap.valAt, hn, Option.map_some, hv]

theorem Chain.head_eq (hc : Chain h head ps) : head = ps.head? := by
  obtain ⟨xs, rfl, hseg⟩ := hc
  cases xs with
  | nil => exact hseg
  | cons x xs => exact hseg.1

theorem Chain.next {qs : List Nat} (hc : Chain h head (ps ++ p :: qs)) :
    ∃ n, h.cells p = some n ∧ n.next = qs.head? := by
  obtain ⟨xs, hids, hseg⟩ := hc
  obtain ⟨as, bs, rfl, rfl, hbs⟩ := List.map_eq_append_iff.1 hids
  obtain ⟨b, cs, rfl, rfl, rfl⟩ := List.map_eq_cons_iff.1 hbs
  obtain ⟨mid, -, -, next, hp, hrest⟩ := seg_append.1 hseg
  refine ⟨_, hp, ?_⟩
  cases cs with
  | nil => exact hrest
  | cons c cs => exact hrest.1

theorem chain_empty : Chain (Heap.empty : Heap α) none [] := ⟨[], rfl, rfl⟩

theorem Chain.congr {h' : Heap α} (hc : Chain h head ps)
    (heq : ∀ q ∈ ps, h'.cells q = h.cells q) : Chain h' head ps := by
  obtain ⟨xs, rfl, hseg⟩ := hc
  exact ⟨xs, rfl, hseg.congr heq⟩

theorem Chain.length_le_fresh (hc : Chain h head ps) (hnd : ps.Nodup) : ps.length ≤ h.fresh := by
  obtain ⟨xs, rfl, hseg⟩ := hc
  rw [ids, List.length_map]
  exact Dll.length_le_fresh hseg hnd

theorem Heap.valAt_update {h' : Heap α} {n : Option (Node α)}
    (hcells : h'.cells = Function.update h.cells p n) :
    h'.valAt = Function.update h.valAt p (n.map Node.val) := by
  funext q
  rw [valAt, hcells]
  by_cases e : q = p
  · subst e
    rw [Function.update_self, Function.update_self]
  · rw [Function.update_of_ne e, Function.update_of_ne e, valAt]

theorem Heap.valAt_alloc (h : Heap α) (w : α) :
    (h.alloc w).1.valAt = Function.update h.valAt h.fresh (some w) := by
  have hcells : (h.alloc w).1.cells = Function.update h.cells h.fresh (some ⟨none, none, w⟩) := rfl
  exact valAt_update hcells

theorem Chain.alloc (hc : Chain h head ps) (w : α) :
    h.fresh ∉ ps ∧ Chain (h.alloc w).1 head ps := by
  obtain ⟨xs, rfl, hseg⟩ := hc
  obtain ⟨hnew, hseg'⟩ := hseg.alloc w
  exact ⟨hnew, xs, rfl, hseg'⟩

theorem Seg.setVal {n : Node α} (w : α) (hseg : Seg cells before head xs after)
    (hp : cells p = some n) :
    ∃ ys, ids ys = ids xs ∧
      Seg (Function.update cells p (some { n with val := w })) before head ys after := by
  induction xs generalizing before head with
  | nil => exact ⟨[], rfl, hseg⟩
  | cons x xs ih =>
    obtain ⟨q, v⟩ := x
    obtain ⟨rfl, next, hq, hrest⟩ := hseg
    obtain ⟨ys, hys, hseg'⟩ := ih hrest
    by_cases e : q = p
    · subst e
      obtain rfl := Option.some.inj (hp.symm.trans hq)
      refine ⟨(q, w) :: ys, by rw [ids_cons, ids_cons, hys], rfl, next, ?_, hseg'⟩
      rw [Function.update_self]
    · refine ⟨(q, v) :: ys, by rw [ids_cons, ids_cons, hys], rfl, next, ?_, hseg'⟩
      rw [Function.update_of_ne e, hq]

theorem Heap.setVal_eq (f : α → α) (hp : h.valAt p = some v) :
    ∃ h', (h.modify p fun n => { n with val := f n.val }) = some h' ∧ h'.fresh = h.fresh ∧
      h'.valAt = Function.update h.valAt p (some (f v)) ∧
      ∀ head ps, Chain h head ps → Chain h' head ps := by
  obtain ⟨n, hn, rfl⟩ := Option.map_eq_some_iff.1 hp
  obtain ⟨h', e, hcells, hfresh⟩ := Heap.modify_eq hn fun n => { n with val := f n.val }
  refine ⟨h', e, hfresh, Heap.valAt_update hcells, fun head ps hc => ?_⟩
  obtain ⟨xs, rfl, hseg⟩ := hc
  obtain ⟨ys, hys, hseg'⟩ := hseg.setVal (f n.val) hn
  exact ⟨ys, hys, by rwa [hcells]⟩

end Chain

/-! ## Families of lists -/

/-- The heap holds the lists `L`, each from its own header, with no node in two of them. -/
structure Lists {ι : Type*} (h : Heap α) (header : ι → Option Nat) (L : ι → List (Nat × α)) :
    Prop where
  seg : ∀ i, Seg h.cells none (header i) (L i) none
  nodup : ∀ i, (ids (L i)).Nodup
  disjoint : ∀ i j, i ≠ j → ∀ p ∈ ids (L i), p ∉ ids (L j)

/-- One list of the family is replaced. Its nodes are old nodes of the same list or addresses
that were dead; everything else is untouched. -/
theorem Lists.update {ι : Type*} [DecidableEq ι] {h h' : Heap α} {header : ι → Option Nat}
    {L : ι → List (Nat × α)} (hl : Lists h header L) (i : ι) {head' : Option Nat}
    {xs' : List (Nat × α)} (hseg : Seg h'.cells none head' xs' none) (hnd : (ids xs').Nodup)
    (hids : ∀ p ∈ ids xs', p ∈ ids (L i) ∨ h.cells p = none)
    (hframe : ∀ p, p ∉ ids (L i) → h.cells p ≠ none → h'.cells p = h.cells p) :
    Lists h' (Function.update header i head') (Function.update L i xs') := by
  -- Nodes of the other lists are live and not in list `i`, hence not in its replacement.
  have hother : ∀ j, j ≠ i → ∀ p ∈ ids (L j), p ∉ ids xs' := by
    intro j hj p hp hx
    rcases hids p hx with hp' | hdead
    · exact hl.disjoint j i hj p hp hp'
    · exact (hl.seg j).live hp hdead
  refine ⟨fun j => ?_, fun j => ?_, fun j k hjk p hp => ?_⟩
  · by_cases hj : j = i
    · subst hj
      rwa [Function.update_self, Function.update_self]
    · rw [Function.update_of_ne hj, Function.update_of_ne hj]
      exact (hl.seg j).congr fun q hq =>
        hframe q (hl.disjoint j i hj q hq) ((hl.seg j).live hq)
  · by_cases hj : j = i
    · subst hj
      rwa [Function.update_self]
    · rw [Function.update_of_ne hj]
      exact hl.nodup j
  · by_cases hj : j = i
    · subst hj
      rw [Function.update_self] at hp
      rw [Function.update_of_ne (Ne.symm hjk)]
      exact fun hk => hother k (Ne.symm hjk) p hk hp
    · rw [Function.update_of_ne hj] at hp
      by_cases hk : k = i
      · subst hk
        rw [Function.update_self]
        exact hother j hj p hp
      · rw [Function.update_of_ne hk]
        exact hl.disjoint j k hjk p hp

/-- A node that was just allocated enters one of the lists. -/
theorem Lists.insertFresh {ι : Type*} [DecidableEq ι] {h h' : Heap α} {header : ι → Option Nat}
    {L : ι → List (Nat × α)} (hl : Lists h header L) {i : ι} {w : α} {head' : Option Nat}
    {xs' : List (Nat × α)} (hseg : Seg h'.cells none head' xs' none)
    (hperm : (ids xs').Perm (h.fresh :: ids (L i)))
    (hframe : ∀ p, p ≠ h.fresh → p ∉ ids (L i) → h'.cells p = (h.alloc w).1.cells p) :
    Lists h' (Function.update header i head') (Function.update L i xs') := by
  obtain ⟨hnew, -⟩ := (hl.seg i).alloc w
  refine hl.update i hseg (hperm.nodup_iff.2 ?_) (fun p hp => ?_) fun p hp hlive => ?_
  · exact List.nodup_cons.2 ⟨hnew, hl.nodup i⟩
  · rcases List.mem_cons.1 (hperm.mem_iff.1 hp) with rfl | hp
    · exact Or.inr (h.unborn _ (Nat.le_refl _))
    · exact Or.inl hp
  · have hne : p ≠ h.fresh := fun e => hlive (e ▸ h.unborn _ (Nat.le_refl _))
    rw [hframe p hne hp]
    exact Function.update_of_ne hne ..

end Dll
