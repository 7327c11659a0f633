import Mathlib.Data.Finmap
import SsnIpc.Lib.Buckets

/-!
# Hash tables that hold finite maps

The keys of a map need not be those of the records: a record may be able to carry keys that the map
does not have (a missing one, say). `name` tells how a key of the map is written in a record.

**Holding** (`Holds`). A well formed table holds a map if its records have names of the map's keys,
and a key is looked up in the table as in the map. Inserting, changing and erasing a record inserts
into and erases from the map, and the table has as many records as the map has keys
(`Holds.length_toList`).

**Rehashing** (`scatter`). The records of a table are put into new buckets, one after the other at
the head of the bucket that an index says. If the index is a hash of the record's key, the new
table holds the same map (`Holds.scatter`); a record that is put anywhere else is not found again
(`find_scatter_eq_none`).
-/

namespace Buckets

variable {α κ ι ν : Type*} {key : α → κ} {hash : κ → Nat} {t : Nat → List α} {n : Nat} {a : α}

/-! ## Rehashing -/

section Scatter

/-- The records, put into empty buckets at their indices. -/
def scatter (index : α → Nat) (l : List α) : Nat → List α :=
  l.foldl (fun t a => Function.update t (index a) (a :: t (index a))) fun _ => []

variable {index : α → Nat} {l : List α}

/-- The records end up in the buckets of their indices, in reverse. -/
theorem scatter_apply (i : Nat) :
    scatter index l i = (l.filter fun a => index a = i).reverse := by
  have hfold : ∀ t : Nat → List α,
      l.foldl (fun t a => Function.update t (index a) (a :: t (index a))) t i =
        (l.filter fun a => index a = i).reverse ++ t i := by
    induction l with
    | nil => intro t; rfl
    | cons a l ih =>
      intro t
      rw [List.foldl_cons, ih, List.filter_cons]
      by_cases hi : index a = i
      · subst hi
        simp
      · simp [hi, Function.update_of_ne (Ne.symm hi)]
  rw [scatter, hfold, List.append_nil]

theorem mem_scatter {i : Nat} : a ∈ scatter index l i ↔ a ∈ l ∧ index a = i := by
  rw [scatter_apply, List.mem_reverse, List.mem_filter, decide_eq_true_eq]

theorem nodup_scatter (hl : (l.map key).Nodup) (i : Nat) :
    ((scatter index l i).map key).Nodup := by
  rw [scatter_apply, List.map_reverse, List.nodup_reverse]
  exact hl.sublist (List.filter_sublist.map key)

theorem wf_scatter (hl : (l.map key).Nodup) (hindex : ∀ a ∈ l, index a = hash (key a)) :
    Wf key hash (scatter index l) := by
  refine ⟨fun i a ha => ?_, nodup_scatter hl⟩
  obtain ⟨hmem, hi⟩ := mem_scatter.1 ha
  rw [← hindex a hmem, hi]

variable [DecidableEq κ]

/-- A record that is not put where its key hashes to is lost. -/
theorem find_scatter_eq_none (hl : (l.map key).Nodup) (ha : a ∈ l)
    (hindex : index a ≠ hash (key a)) : find key hash (scatter index l) (key a) = none := by
  refine List.find?_eq_none.2 fun b hb hkey => hindex ?_
  obtain ⟨hmem, hi⟩ := mem_scatter.1 hb
  rw [decide_eq_true_eq] at hkey
  rwa [List.inj_on_of_nodup_map hl hmem ha hkey] at hi

end Scatter

/-! ## Maps -/

section Maps

theorem keys_finmap_insert [DecidableEq ι] (m : Finmap fun _ : ι => ν) (k : ι) (v : ν) :
    (m.insert k v).keys = Insert.insert k m.keys := by
  ext k'
  rw [Finmap.mem_keys, Finmap.mem_insert, Finset.mem_insert, Finmap.mem_keys]

variable [DecidableEq κ]

structure Holds [DecidableEq ι] (key : α → κ) (val : α → ν) (hash : κ → Nat) (name : ι → κ)
    (t : Nat → List α) (m : Finmap fun _ : ι => ν) : Prop where
  wf : Wf key hash t
  named : ∀ i, ∀ a ∈ t i, ∃ k, key a = name k
  lookup : ∀ k, (find key hash t (name k)).map val = m.lookup k

variable [DecidableEq ι] {val : α → ν} {name : ι → κ} {m : Finmap fun _ : ι => ν} {k : ι}

theorem holds_empty : Holds key val hash name (fun _ => []) (∅ : Finmap fun _ : ι => ν) where
  wf := ⟨fun _ _ h => absurd h List.not_mem_nil, fun _ => List.nodup_nil⟩
  named _ _ h := absurd h List.not_mem_nil
  lookup k := by rw [Finmap.lookup_empty]; rfl

theorem Holds.find_eq_none (h : Holds key val hash name t m) :
    find key hash t (name k) = none ↔ m.lookup k = none := by
  rw [← h.lookup, Option.map_eq_none_iff]

theorem Holds.isSome_find (h : Holds key val hash name t m) :
    (find key hash t (name k)).isSome = (m.lookup k).isSome := by
  rw [← h.lookup, Option.isSome_map]

theorem Holds.insert (h : Holds key val hash name t m) (hname : Function.Injective name)
    (hk : key a = name k) (hnew : m.lookup k = none) :
    Holds key val hash name (Buckets.insert key hash t a) (m.insert k (val a)) := by
  refine ⟨h.wf.insert (by rw [hk, h.find_eq_none, hnew]), fun i b hb => ?_, fun k' => ?_⟩
  · by_cases hi : i = hash (key a)
    · subst hi
      rw [Buckets.insert, Function.update_self, List.mem_cons] at hb
      rcases hb with rfl | hb
      · exact ⟨k, hk⟩
      · exact h.named _ b hb
    · rw [Buckets.insert, Function.update_of_ne hi] at hb
      exact h.named i b hb
  · rw [find_insert, hk]
    by_cases hkk : k' = k
    · subst hkk
      rw [if_pos rfl, Finmap.lookup_insert]
      rfl
    · rw [if_neg (hname.ne hkk), Finmap.lookup_insert_of_ne _ hkk, h.lookup]

theorem Holds.modify (h : Holds key val hash name t m) (hname : Function.Injective name)
    {f : α → α} (hf : ∀ a, key (f a) = key a) {v : ν} (hv : ∀ a, val (f a) = v)
    (hold : (m.lookup k).isSome) :
    Holds key val hash name (Buckets.modify key hash t (name k) f) (m.insert k v) := by
  refine ⟨h.wf.modify hf, fun i b hb => ?_, fun k' => ?_⟩
  · have hkeys : keys key (Buckets.modify key hash t (name k) f) = keys key t := keys_modify hf _
    have hb' : key b ∈ keys key t i := by
      rw [← hkeys]
      exact List.mem_map_of_mem hb
    obtain ⟨c, hc, hkey⟩ := List.mem_map.1 hb'
    rw [← hkey]
    exact h.named i c hc
  · rw [find_modify hf]
    by_cases hkk : k' = k
    · subst hkk
      rw [← h.isSome_find] at hold
      obtain ⟨c, hc⟩ := Option.isSome_iff_exists.1 hold
      rw [if_pos rfl, Finmap.lookup_insert, hc]
      simp [hv]
    · rw [if_neg (hname.ne hkk), Finmap.lookup_insert_of_ne _ hkk, h.lookup]

theorem Holds.erase (h : Holds key val hash name t m) (hname : Function.Injective name) :
    Holds key val hash name (Buckets.erase key hash t (name k)) (m.erase k) := by
  refine ⟨h.wf.erase, fun i b hb => ?_, fun k' => ?_⟩
  · rw [h.wf.erase_eq_filter] at hb
    exact h.named i b (List.mem_of_mem_filter hb)
  · rw [find_erase]
    by_cases hkk : k' = k
    · subst hkk
      rw [if_pos rfl, Finmap.lookup_erase]
      rfl
    · rw [if_neg (hname.ne hkk), Finmap.lookup_erase_ne hkk, h.lookup]

theorem Holds.erase_of_none (h : Holds key val hash name t m) (hnone : m.lookup k = none) :
    Holds key val hash name t (m.erase k) := by
  refine ⟨h.wf, h.named, fun k' => ?_⟩
  rw [h.lookup]
  by_cases hkk : k' = k
  · subst hkk
    rw [hnone, Finmap.lookup_erase]
  · rw [Finmap.lookup_erase_ne hkk]

theorem Holds.mem_keys (h : Holds key val hash name t m) (hn : ∀ k, hash k < n) :
    name k ∈ (toList n t).map key ↔ k ∈ m.keys := by
  rw [Finmap.mem_keys, ← Finmap.lookup_isSome, ← h.isSome_find, Option.isSome_iff_exists,
    List.mem_map]
  simp only [h.wf.find_eq_some hn]

theorem Holds.length_toList (h : Holds key val hash name t m) (hname : Function.Injective name)
    (hn : ∀ k, hash k < n) : (toList n t).length = m.keys.card := by
  have hkeys : ((toList n t).map key).toFinset = m.keys.map ⟨name, hname⟩ := by
    ext x
    rw [List.mem_toFinset, Finset.mem_map]
    constructor
    · intro hx
      obtain ⟨b, hb, rfl⟩ := List.mem_map.1 hx
      obtain ⟨i, -, hi⟩ := Buckets.mem_toList.1 hb
      obtain ⟨k, hk⟩ := h.named i b hi
      exact ⟨k, (h.mem_keys hn).1 (hk ▸ hx), hk.symm⟩
    · rintro ⟨k, hk, rfl⟩
      exact (h.mem_keys hn).2 hk
  rw [← Finset.card_map ⟨name, hname⟩, ← hkeys,
    List.toFinset_card_of_nodup h.wf.nodup_toList, List.length_map]

/-- **Rehashing keeps the map**, if it goes by the keys. -/
theorem Holds.scatter (h : Holds key val hash name t m) (hn : ∀ k, hash k < n)
    {hash' : κ → Nat} {n' : Nat} (hn' : ∀ k, hash' k < n') {index : α → Nat}
    (hindex : ∀ a ∈ toList n t, index a = hash' (key a)) :
    Holds key val hash' name (Buckets.scatter index (toList n t)) m := by
  have hwf : Wf key hash' (Buckets.scatter index (toList n t)) :=
    wf_scatter h.wf.nodup_toList hindex
  refine ⟨hwf, fun i b hb => ?_, fun k => ?_⟩
  · obtain ⟨j, -, hj⟩ := Buckets.mem_toList.1 (mem_scatter.1 hb).1
    exact h.named j b hj
  · rw [← h.lookup]
    congr 1
    -- both tables have the same records, and keys are not repeated
    refine Option.ext fun b => ?_
    rw [hwf.find_eq_some hn', h.wf.find_eq_some hn, Buckets.mem_toList]
    simp only [mem_scatter]
    constructor
    · rintro ⟨⟨i, -, hb, -⟩, hkey⟩
      exact ⟨hb, hkey⟩
    · rintro ⟨hb, hkey⟩
      exact ⟨⟨index b, by rw [hindex b hb]; exact hn' _, hb, rfl⟩, hkey⟩

end Maps

end Buckets
