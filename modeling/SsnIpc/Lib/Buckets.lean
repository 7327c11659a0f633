import Mathlib.Data.List.Basic
import Mathlib.Data.List.Nodup
import Mathlib.Logic.Function.Basic
import Mathlib.Tactic.Common

/-!
# Hash tables of keyed records

A table is an array of buckets, each a list of records. A record hangs in the bucket its key
hashes to. Walking the buckets in order enumerates the table (`toList`).

In a well formed table (`Wf`) looking a key up in its bucket is looking it up in the enumeration,
whose keys are distinct (`Wf.find_eq_some`, `Wf.nodup_toList`). What each operation does is said by
the lookups after it (`find_insert`, `find_modify`, `find_erase`) and by the keys in the buckets
(`keys_insert`, `keys_modify`, `keys_erase`).
-/

namespace Buckets

variable {α κ : Type*} (key : α → κ) (hash : κ → Nat)

/-! ## Tables and their enumeration -/

def insert (t : Nat → List α) (a : α) : Nat → List α :=
  Function.update t (hash (key a)) (a :: t (hash (key a)))

/-- The records of the first `n` buckets, bucket by bucket. -/
def toList (n : Nat) (t : Nat → List α) : List α := (List.range n).flatMap t

/-- Records hang where their keys hash to, and no two share a key. -/
structure Wf (t : Nat → List α) : Prop where
  placed : ∀ i, ∀ a ∈ t i, hash (key a) = i
  nodup : ∀ i, ((t i).map key).Nodup

variable {key hash} {t : Nat → List α} {n : Nat} {a : α} {k : κ}

@[simp] theorem mem_toList : a ∈ toList n t ↔ ∃ i < n, a ∈ t i := by
  simp [toList]

theorem Wf.mem_toList (h : Wf key hash t) (hn : ∀ k, hash k < n) :
    a ∈ toList n t ↔ a ∈ t (hash (key a)) := by
  rw [Buckets.mem_toList]
  constructor
  · rintro ⟨i, -, ha⟩
    rwa [h.placed i a ha]
  · exact fun ha => ⟨_, hn _, ha⟩

theorem Wf.nodup_toList (h : Wf key hash t) : ((toList n t).map key).Nodup := by
  unfold toList
  rw [List.map_flatMap, List.nodup_flatMap]
  refine ⟨fun i _ => h.nodup i, List.nodup_range.imp fun {i j} hij k hi hj => ?_⟩
  obtain ⟨a, ha, rfl⟩ := List.mem_map.1 hi
  obtain ⟨b, hb, hab⟩ := List.mem_map.1 hj
  exact hij (by rw [← h.placed i a ha, ← h.placed j b hb, hab])

theorem toList_succ : toList (n + 1) t = toList n t ++ t n := by
  simp [toList, List.range_succ]

theorem toList_sublist {t' : Nat → List α} (h : ∀ i, (t' i).Sublist (t i)) :
    (toList n t').Sublist (toList n t) := by
  induction n with
  | zero => exact .refl _
  | succ n ih =>
    rw [toList_succ, toList_succ]
    exact ih.append (h n)

theorem perm_toList_insert (hn : hash (key a) < n) :
    (toList n (insert key hash t a)).Perm (a :: toList n t) := by
  induction n with
  | zero => omega
  | succ n ih =>
    rw [toList_succ, toList_succ]
    by_cases e : hash (key a) = n
    · -- The buckets before that of the record are as they were.
      have hbefore : toList n (insert key hash t a) = toList n t :=
        List.flatMap_congr fun i hi => Function.update_of_ne
          (fun ei => Nat.lt_irrefl n (by rw [List.mem_range, ei, e] at hi; exact hi)) ..
      rw [hbefore, insert, ← e, Function.update_self]
      exact List.perm_middle
    · rw [insert, Function.update_of_ne (Ne.symm e), ← insert, ← List.cons_append]
      exact (ih (by omega)).append_right _

/-! ## Operations by key -/

section Keys

variable [DecidableEq κ] (key hash)

def find (t : Nat → List α) (k : κ) : Option α := (t (hash k)).find? fun a => key a = k

def modify (t : Nat → List α) (k : κ) (f : α → α) : Nat → List α :=
  Function.update t (hash k) ((t (hash k)).map fun a => if key a = k then f a else a)

def erase (t : Nat → List α) (k : κ) : Nat → List α :=
  Function.update t (hash k) ((t (hash k)).filter fun a => key a ≠ k)

/-- The walk along a bucket that changes the first record with a key. -/
def updateFirst (k : κ) (f : α → α) : List α → Option (List α)
  | [] => none
  | a :: l => if key a = k then some (f a :: l) else (updateFirst k f l).map (a :: ·)

/-- The walk along a bucket that takes out the first record with a key. -/
def removeFirst (k : κ) : List α → Option (List α)
  | [] => none
  | a :: l => if key a = k then some l else (removeFirst k l).map (a :: ·)

variable {key hash}

theorem Wf.find_eq_some (h : Wf key hash t) (hn : ∀ k, hash k < n) :
    find key hash t k = some a ↔ a ∈ toList n t ∧ key a = k := by
  rw [h.mem_toList hn]
  constructor
  · intro hf
    have hk : key a = k := by simpa using List.find?_some hf
    exact ⟨hk ▸ List.mem_of_find?_eq_some hf, hk⟩
  · rintro ⟨ha, rfl⟩
    have hsome : (find key hash t (key a)).isSome := List.find?_isSome.2 ⟨a, ha, by simp⟩
    obtain ⟨b, hb⟩ := Option.isSome_iff_exists.1 hsome
    have hkb : key b = key a := by simpa using List.find?_some hb
    rw [hb, List.inj_on_of_nodup_map (h.nodup _) (List.mem_of_find?_eq_some hb) ha hkb]

/-! Lookups after each operation, well formed or not. -/

theorem find_key (h : find key hash t k = some a) : key a = k := by
  simpa using List.find?_some h

theorem find_insert (k : κ) : find key hash (insert key hash t a) k =
    if k = key a then some a else find key hash t k := by
  unfold find insert
  by_cases hh : hash k = hash (key a)
  · rw [hh, Function.update_self, List.find?_cons]
    by_cases hk : k = key a
    · simp [hk]
    · simp [hk, Ne.symm hk]
  · have hk : k ≠ key a := fun e => hh (by rw [e])
    rw [Function.update_of_ne hh, if_neg hk]

theorem modify_modify {f g : α → α} (hf : ∀ a, key (f a) = key a) (k : κ) :
    modify key hash (modify key hash t k f) k g = modify key hash t k (g ∘ f) := by
  unfold modify
  rw [Function.update_self, Function.update_idem, List.map_map]
  congr 2
  funext a
  by_cases hk : key a = k
  · simp [hk, hf]
  · simp [hk]

theorem find_modify {f : α → α} (hf : ∀ a, key (f a) = key a) (k k' : κ) :
    find key hash (modify key hash t k f) k' =
      if k' = k then (find key hash t k').map f else find key hash t k' := by
  have hkey (a : α) : key (if key a = k then f a else a) = key a := by
    split_ifs
    · exact hf a
    · rfl
  unfold find modify
  by_cases hh : hash k' = hash k
  · rw [hh, Function.update_self, List.find?_map]
    have hcomp : ((fun a => decide (key a = k')) ∘ fun a => if key a = k then f a else a) =
        fun a => decide (key a = k') := by
      funext a
      simp only [Function.comp_apply, hkey]
    rw [hcomp]
    cases hfind : (t (hash k)).find? fun a => decide (key a = k') with
    | none => simp
    | some a =>
      have hak : key a = k' := by simpa using List.find?_some hfind
      by_cases hk : k' = k <;> simp [hak, hk]
  · have hk : k' ≠ k := fun e => hh (by rw [e])
    rw [Function.update_of_ne hh, if_neg hk]

theorem find_erase (k k' : κ) : find key hash (erase key hash t k) k' =
    if k' = k then none else find key hash t k' := by
  unfold find erase
  by_cases hh : hash k' = hash k
  · rw [hh, Function.update_self, List.find?_filter]
    by_cases hk : k' = k
    · subst hk
      rw [if_pos rfl, List.find?_eq_none]
      intro a _
      simp
    · rw [if_neg hk]
      congr 1
      funext a
      by_cases ha : key a = k' <;> simp [ha, hk]
  · have hk : k' ≠ k := fun e => hh (by rw [e])
    rw [Function.update_of_ne hh, if_neg hk]

theorem find_map {f : α → α} (hf : ∀ a, key (f a) = key a) (k : κ) :
    find key hash (fun i => (t i).map f) k = (find key hash t k).map f := by
  unfold find
  rw [List.find?_map]
  congr 2
  funext a
  simp only [Function.comp_apply, hf]

/-! ## Tables of keys

A table of keys is a table whose records are their own keys. Forgetting everything but the keys
commutes with the operations. -/

variable (key) in
omit [DecidableEq κ] in
def keys (t : Nat → List α) : Nat → List κ := fun i => (t i).map key

omit [DecidableEq κ] in
theorem wf_keys : Wf (fun k => k) hash (keys key t) ↔ Wf key hash t := by
  have hmap (i : Nat) : (keys key t i).map (fun k => k) = (t i).map key := List.map_id' _
  constructor
  · intro h
    exact ⟨fun i a ha => h.placed i _ (List.mem_map_of_mem ha), fun i => hmap i ▸ h.nodup i⟩
  · intro h
    refine ⟨fun i k hk => ?_, fun i => (hmap i).symm ▸ h.nodup i⟩
    obtain ⟨a, ha, rfl⟩ := List.mem_map.1 hk
    exact h.placed i a ha

omit [DecidableEq κ] in
theorem keys_update (i : Nat) (l : List α) :
    keys key (Function.update t i l) = Function.update (keys key t) i (l.map key) := by
  funext j
  by_cases e : j = i
  · subst e
    rw [keys, Function.update_self, Function.update_self]
  · rw [keys, Function.update_of_ne e, Function.update_of_ne e, keys]

omit [DecidableEq κ] in
theorem keys_insert : keys key (insert key hash t a) =
    insert (fun k => k) hash (keys key t) (key a) :=
  keys_update ..

theorem keys_modify {f : α → α} (hf : ∀ a, key (f a) = key a) (k : κ) :
    keys key (modify key hash t k f) = keys key t := by
  have hkey : key ∘ (fun a => if key a = k then f a else a) = key := by
    funext a
    simp only [Function.comp_apply]
    split_ifs
    · exact hf a
    · rfl
  rw [modify, keys_update, List.map_map, hkey]
  exact Function.update_eq_self ..

theorem keys_erase (k : κ) :
    keys key (erase key hash t k) = erase (fun k => k) hash (keys key t) k := by
  rw [erase, keys_update, erase, keys, List.filter_map]
  rfl

omit [DecidableEq κ] in
theorem keys_map {f : α → α} (hf : ∀ a, key (f a) = key a) :
    keys key (fun i => (t i).map f) = keys key t := by
  funext i
  rw [keys, List.map_map, show key ∘ f = key from funext hf, keys]

omit [DecidableEq κ] in
theorem toList_keys : toList n (keys key t) = (toList n t).map key := by
  rw [toList, toList, List.map_flatMap]
  rfl

theorem isSome_find : (find key hash t k).isSome = true ↔ k ∈ keys key t (hash k) := by
  simp [find, keys, List.find?_isSome]

/-! ## Well formed tables stay so -/

theorem Wf.insert (h : Wf key hash t) (hnew : find key hash t (key a) = none) :
    Wf key hash (insert key hash t a) := by
  have hno : ∀ b ∈ t (hash (key a)), key b ≠ key a := by
    simpa using List.find?_eq_none.1 hnew
  refine ⟨fun i b hb => ?_, fun i => ?_⟩ <;> by_cases hi : i = hash (key a)
  · subst hi
    rw [Buckets.insert, Function.update_self, List.mem_cons] at hb
    rcases hb with rfl | hb
    · rfl
    · exact h.placed _ b hb
  · rw [Buckets.insert, Function.update_of_ne hi] at hb
    exact h.placed i b hb
  · subst hi
    rw [Buckets.insert, Function.update_self, List.map_cons, List.nodup_cons]
    refine ⟨fun hm => ?_, h.nodup _⟩
    obtain ⟨b, hb, hk⟩ := List.mem_map.1 hm
    exact hno b hb hk
  · rw [Buckets.insert, Function.update_of_ne hi]
    exact h.nodup i

theorem Wf.modify (h : Wf key hash t) {f : α → α} (hf : ∀ a, key (f a) = key a) :
    Wf key hash (Buckets.modify key hash t k f) := by
  rw [← wf_keys, keys_modify hf]
  exact wf_keys.2 h

omit [DecidableEq κ] in
theorem Wf.map (h : Wf key hash t) {f : α → α} (hf : ∀ a, key (f a) = key a) :
    Wf key hash fun i => (t i).map f := by
  rw [← wf_keys, keys_map hf]
  exact wf_keys.2 h

theorem Wf.erase (h : Wf key hash t) : Wf key hash (Buckets.erase key hash t k) := by
  have hsub (i : Nat) : (Buckets.erase key hash t k i).Sublist (t i) := by
    by_cases hi : i = hash k
    · subst hi
      rw [Buckets.erase, Function.update_self]
      exact List.filter_sublist
    · rw [Buckets.erase, Function.update_of_ne hi]
  exact ⟨fun i a ha => h.placed i a ((hsub i).subset ha),
    fun i => (h.nodup i).sublist ((hsub i).map key)⟩

/-- Removing a key from its bucket is removing it from all of them. -/
theorem Wf.erase_eq_filter (h : Wf key hash t) (k : κ) :
    Buckets.erase key hash t k = fun i => (t i).filter fun a => key a ≠ k := by
  funext i
  by_cases e : i = hash k
  · subst e
    rw [Buckets.erase, Function.update_self]
  · rw [Buckets.erase, Function.update_of_ne e, List.filter_eq_self.2]
    intro a ha
    have hne : key a ≠ k := fun hk => e (by rw [← h.placed i a ha, hk])
    simpa using hne

theorem Wf.length_toList_erase (h : Wf key hash t) (hn : ∀ k, hash k < n)
    (hk : (find key hash t k).isSome) :
    (toList n (Buckets.erase key hash t k)).length + 1 = (toList n t).length := by
  obtain ⟨a, ha⟩ := Option.isSome_iff_exists.1 hk
  obtain ⟨hmem, rfl⟩ := (h.find_eq_some hn).1 ha
  have hfilter : toList n (Buckets.erase key hash t (key a)) =
      (toList n t).filter fun b => key b ≠ key a := by
    rw [h.erase_eq_filter, toList, toList, List.filter_flatMap]
  have herase := List.Nodup.erase_eq_filter (h.nodup_toList (n := n)) (key a)
  have hlen := List.length_erase_of_mem (List.mem_map_of_mem (f := key) hmem)
  rw [herase, List.filter_map, List.length_map, List.length_map] at hlen
  have hpos := List.length_pos_of_mem hmem
  have hsame : ((toList n t).filter fun b => key b ≠ key a).length =
      ((toList n t).filter ((fun x => x != key a) ∘ key)).length := by
    congr 2
    funext b
    simp [bne, Bool.beq_eq_decide_eq]
  rw [hfilter, hsame, hlen]
  omega

/-! ## Walks along a bucket

Where no key occurs twice, changing or removing the first record with a key is changing or
removing all of them. -/

omit [DecidableEq κ] in
theorem key_ne_of_notMem {l : List α} (h : key a ∉ l.map key) {b : α} (hb : b ∈ l) :
    key b ≠ key a := by
  intro e
  exact h (e ▸ List.mem_map_of_mem hb)

variable (key) in
theorem isSome_updateFirst (k : κ) (f : α → α) (l : List α) :
    (updateFirst key k f l).isSome = l.any fun a => key a = k := by
  induction l with
  | nil => rfl
  | cons a l ih => by_cases hk : key a = k <;> simp [updateFirst, hk, ih]

theorem updateFirst_eq {l : List α} (h : (l.map key).Nodup) (k : κ) (f : α → α) :
    updateFirst key k f l =
      if k ∈ l.map key then some (l.map fun a => if key a = k then f a else a) else none := by
  induction l with
  | nil => simp [updateFirst]
  | cons a l ih =>
    rw [List.map_cons, List.nodup_cons] at h
    obtain ⟨ha, hl⟩ := h
    by_cases hk : key a = k
    · subst hk
      have hrest : (l.map fun b => if key b = key a then f b else b) = l := by
        rw [List.map_congr_left fun b hb => if_neg (key_ne_of_notMem ha hb), List.map_id']
      simp [updateFirst, hrest]
    · rw [updateFirst, if_neg hk, ih hl]
      by_cases hm : k ∈ l.map key <;> simp [hm, hk, Ne.symm hk] at *

theorem removeFirst_eq {l : List α} (h : (l.map key).Nodup) (k : κ) :
    removeFirst key k l =
      if k ∈ l.map key then some (l.filter fun a => key a ≠ k) else none := by
  induction l with
  | nil => simp [removeFirst]
  | cons a l ih =>
    rw [List.map_cons, List.nodup_cons] at h
    obtain ⟨ha, hl⟩ := h
    by_cases hk : key a = k
    · subst hk
      have hrest : (l.filter fun b => key b ≠ key a) = l := by
        rw [List.filter_eq_self]
        intro b hb
        simpa using key_ne_of_notMem ha hb
      simp only [removeFirst, if_true, List.map_cons, List.mem_cons_self, List.filter_cons,
        ne_eq, not_true_eq_false, decide_false, Bool.false_eq_true, if_false]
      simpa using hrest.symm
    · rw [removeFirst, if_neg hk, ih hl]
      by_cases hm : k ∈ l.map key <;> simp [hm, hk, Ne.symm hk] at *

end Keys

end Buckets
